import PrologSource.Proofs.Places

namespace PrologSource

def MarkedPlace.start (p : MarkedPlace) : Position := ⟨p.line, p.column⟩

/-- The tokens of a text stand in reading order. -/
theorem pairwise_tokenize (text : String) :
    (tokenize text).Pairwise fun s t => s.position < t.position := by
  rw [tokenize, tokenizeWith_eq]
  exact Partition.pairwise_tokens (by decide) (Partition.isRead_ofText _) .start

theorem column_of_mem_tokenize {text : String} {t : Token} (ht : t ∈ tokenize text) :
    0 ≤ t.position.column := by
  rw [tokenize, tokenizeWith_eq] at ht
  exact Partition.column_of_mem_tokens (by decide) (Partition.isRead_ofText _) (by decide) ht

namespace Mark
variable {m : Mark} {source : String}

def places (m : Mark) (source : String) : List MarkedPlace :=
  if m.lastLine < m.firstLine then []
  else ((tokenize (m.excerpt source)).filter (·.isAtom m.name)).map m.placeOf

/-- Lines above shift places without changing their order. -/
theorem start_placeOf_lt (m : Mark) {s t : Token} (hs : 0 ≤ s.position.column)
    (ht : 0 ≤ t.position.column) (h : s.position < t.position) :
    (m.placeOf s).start < (m.placeOf t).start := by
  rw [Position.lt_iff] at h ⊢
  simp only [MarkedPlace.start, placeOf, Int.toNat_of_nonneg hs, Int.toNat_of_nonneg ht]
  omega

theorem pairwise_places (m : Mark) (source : String) :
    (m.places source).Pairwise fun p q => p.start < q.start := by
  unfold places
  split
  · exact .nil
  · rw [List.pairwise_map]
    apply List.Pairwise.imp_of_mem ?_ ((pairwise_tokenize (m.excerpt source)).filter _)
    intro s t hs ht before
    exact m.start_placeOf_lt (column_of_mem_tokenize (List.mem_filter.1 hs).1)
      (column_of_mem_tokenize (List.mem_filter.1 ht).1) before

/-- A mark counts to one of the places, from one on. -/
theorem resolve_succ {n : Nat} (h : m.occurrence = n + 1) :
    m.resolve source = (m.places source)[n]? := by
  rw [resolve_eq]
  unfold places
  split
  · rfl
  · rw [h, Token.nthAtom?, List.getElem?_map]

theorem resolve_zero (h : m.occurrence = 0) : m.resolve source = none := by
  rw [resolve_eq]
  split
  · rfl
  · rw [h]
    rfl

/-- Whatever the lines and the name, there are some occurrences, and these alone have a place. Each
stands behind those that are counted before it. -/
theorem resolve_occurrences (file name : String) (firstLine lastLine : Nat) (source : String) :
    let place (n : Nat) := resolve ⟨file, firstLine, lastLine, name, n⟩ source
    ∃ count, (∀ n, (∃ p, place n = some p) ↔ 1 ≤ n ∧ n ≤ count) ∧
      ∀ i j, 1 ≤ i → i < j → j ≤ count →
        ∃ p q, place i = some p ∧ place j = some q ∧ p.start < q.start := by
  intro place
  let all := places ⟨file, firstLine, lastLine, name, 0⟩ source
  have zero : place 0 = none := resolve_zero rfl
  have succ (n : Nat) : place (n + 1) = all[n]? := resolve_succ rfl
  have ordered : all.Pairwise fun p q => p.start < q.start := pairwise_places _ source
  refine ⟨all.length, ?_, ?_⟩
  · intro n
    cases n with
    | zero => simp [zero]
    | succ n =>
      rw [succ, ← Option.isSome_iff_exists, isSome_getElem?]
      omega
  · intro i j positive before within
    obtain ⟨i, rfl⟩ := Nat.exists_eq_add_of_le' positive
    obtain ⟨j, rfl⟩ := Nat.exists_eq_add_of_le' (positive.trans before.le)
    have hj : j < all.length := within
    have hi : i < all.length := (Nat.lt_of_succ_lt_succ before).trans hj
    refine ⟨all[i], all[j], ?_, ?_, ?_⟩
    · rw [succ, List.getElem?_eq_getElem hi]
    · rw [succ, List.getElem?_eq_getElem hj]
    · exact List.pairwise_iff_getElem.1 ordered i j hi hj (Nat.lt_of_succ_lt_succ before)

/-- Two calls, one of them in quotes and one behind a number, and none that is counted beyond
them. -/
example : [0, 1, 2, 3].map (fun n => resolve ⟨"f", 0, 1, "xr", n⟩ "p :- 0xr,\n 'xr', xr1.") =
    [none, some ⟨0, 6, 8⟩, some ⟨1, 1, 3⟩, none] := by
  decide +kernel

end Mark
end PrologSource
