namespace PrologSource

/-- The lines of a sequence, where `newline` ends a line and `ret` before it belongs to the end. -/
def linesBy {α : Type} [DecidableEq α] (newline ret : α) : List α → List (List α)
  | [] => []
  | c :: rest =>
    if c = newline then [] :: linesBy newline ret rest
    else if c = ret ∧ rest.head? = some newline then linesBy newline ret rest
    else match linesBy newline ret rest with
      | [] => [[c]]
      | line :: more => (c :: line) :: more

theorem newline_not_mem_linesBy {α : Type} [DecidableEq α] {newline ret : α} {cs line : List α}
    (h : line ∈ linesBy newline ret cs) : newline ∉ line := by
  induction cs generalizing line with
  | nil => cases h
  | cons c rest ih =>
    rw [linesBy] at h
    split at h
    · rcases List.mem_cons.1 h with rfl | h
      · exact List.not_mem_nil
      · exact ih h
    split at h
    · exact ih h
    · rename_i other _
      split at h
      · rcases List.mem_singleton.1 h with rfl
        simpa using fun same => other same.symm
      · rename_i first more found
        rcases List.mem_cons.1 h with rfl | h
        · have := @ih first (by simp [found])
          simpa [this] using fun same => other same.symm
        · exact ih (by simp [found, h])

def textLines (cs : List Char) : List (List Char) := linesBy '\n' '\r' cs

def byteLines (bytes : List UInt8) : List (List UInt8) := linesBy 10 13 bytes

def utf8? (bytes : List UInt8) : Option String := String.fromUTF8? ⟨bytes.toArray⟩

def latin1 (bytes : List UInt8) : String :=
  String.ofList (bytes.map fun b => Char.ofNat b.toNat)

end PrologSource
