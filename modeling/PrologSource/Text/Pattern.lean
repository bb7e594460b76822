import Mathlib.Data.List.Infix
import PrologSource.Text.Unicode

/-! Patterns, searched for in a text from left to right. Where a pattern fits in several ways, its
steps decide in turn: each takes what it prefers among all that lets the steps behind it fit. The
leftmost place where it fits counts, and the search goes on behind what was taken there. -/
namespace PrologSource

inductive PatternStep
  /-- One of these words, an earlier one rather than a later one. -/
  | oneOf (words : List (List Char))
  /-- Nothing, between a word character and anything else. -/
  | wordEdge
  /-- A run of at least `least` and at most `most` characters of a class: of as many as possible if
  `greedy`, else of as few as possible. -/
  | run (holds : Char → Bool) (least : Nat) (most : Option Nat) (greedy : Bool)

def IsWordEdge (before cs : List Char) : Prop :=
  before.getLast?.any isWordChar ≠ cs.head?.any isWordChar

instance (before cs : List Char) : Decidable (IsWordEdge before cs) :=
  inferInstanceAs (Decidable (_ ≠ _))

namespace PatternStep

def word (w : String) : PatternStep := oneOf [w.toList]

def few (holds : Char → Bool) : PatternStep := run holds 0 none false

def many (holds : Char → Bool) : PatternStep := run holds 0 none true

def oneOrMore (holds : Char → Bool) : PatternStep := run holds 1 none true

def upTo (n : Nat) (holds : Char → Bool) : PatternStep := run holds 0 (some n) true

variable {before cs : List Char} {x : List Char × List Char}

def fronts (holds : Char → Bool) : List Char → List (List Char × List Char)
  | [] => [([], [])]
  | c :: rest =>
    ([], c :: rest) :: if holds c then (fronts holds rest).map fun x => (c :: x.1, x.2) else []

/-- What a step can take from the front of `cs` behind the text `before`, in the order in which it
is preferred, and what is left. -/
def ways (before cs : List Char) : PatternStep → List (List Char × List Char)
  | oneOf words => words.filterMap fun w => (w.isPrefixOf? cs).map fun rest => (w, rest)
  | wordEdge => if IsWordEdge before cs then [([], cs)] else []
  | run holds least most greedy =>
    let allowed := (fronts holds cs).filter fun x =>
      decide (least ≤ x.1.length) && most.all (x.1.length ≤ ·)
    if greedy then allowed.reverse else allowed

theorem mem_fronts {holds : Char → Bool} :
    x ∈ fronts holds cs ↔ x.1 ++ x.2 = cs ∧ ∀ c ∈ x.1, holds c := by
  obtain ⟨u, v⟩ := x
  induction cs generalizing u with
  | nil => cases u <;> simp [fronts]
  | cons c cs ih =>
    rw [fronts, List.mem_cons]
    cases u with
    | nil => split <;> simp
    | cons d u =>
      by_cases hc : holds c
      · have behind : (d :: u, v) ∈ ((fronts holds cs).map fun x => (c :: x.1, x.2)) ↔
            c = d ∧ (u, v) ∈ fronts holds cs := by
          simp [and_comm]
        rw [if_pos hc, behind, ih]
        simp only [Prod.mk.injEq, List.cons.injEq, List.cons_append, List.forall_mem_cons,
          reduceCtorEq, false_and, false_or]
        constructor
        · rintro ⟨rfl, split, all⟩
          exact ⟨⟨rfl, split⟩, hc, all⟩
        · rintro ⟨⟨rfl, split⟩, -, all⟩
          exact ⟨rfl, split, all⟩
      · rw [if_neg hc]
        simp only [Prod.mk.injEq, List.cons_append, List.cons.injEq, List.forall_mem_cons,
          reduceCtorEq, false_and, List.not_mem_nil, or_false, false_iff, not_and]
        rintro ⟨rfl, -⟩ first
        exact absurd first hc

theorem append_of_mem_ways {s : PatternStep} (h : x ∈ s.ways before cs) : x.1 ++ x.2 = cs := by
  cases s with
  | oneOf words =>
    obtain ⟨w, -, found⟩ := List.mem_filterMap.1 h
    obtain ⟨rest, front, rfl⟩ := Option.map_eq_some_iff.1 found
    exact List.isPrefixOf?_eq_some_iff_append_eq.1 front
  | wordEdge =>
    rw [ways] at h
    split at h
    · rw [List.mem_singleton.1 h, List.nil_append]
    · cases h
  | run holds least most greedy =>
    have front : x ∈ fronts holds cs := by
      rw [ways] at h
      cases greedy with
      | true => exact (List.mem_filter.1 (List.mem_reverse.1 h)).1
      | false => exact (List.mem_filter.1 h).1
    exact (mem_fronts.1 front).1

end PatternStep

abbrev Pattern := List PatternStep

namespace Pattern

/-- What each step takes where the pattern fits at the front of `cs` behind the text `before`. -/
def take? : Pattern → List Char → List Char → Option (List (List Char))
  | [], _, _ => some []
  | s :: p, before, cs =>
    (s.ways before cs).findSome? fun x => (take? p (before ++ x.1) x.2).map (x.1 :: ·)

structure Place where
  before : List Char
  parts : List (List Char)
  after : List Char
  deriving DecidableEq, Repr

def search? (p : Pattern) : List Char → List Char → Option Place
  | before, [] => (p.take? before []).map fun parts => ⟨before, parts, []⟩
  | before, c :: rest =>
    match p.take? before (c :: rest) with
    | some parts => some ⟨before, parts, (c :: rest).drop parts.flatten.length⟩
    | none => search? p (before ++ [c]) rest

theorem prefix_of_take? {p : Pattern} {before cs : List Char} {parts : List (List Char)}
    (h : p.take? before cs = some parts) : parts.flatten <+: cs := by
  induction p generalizing before cs parts with
  | nil =>
    cases h
    exact List.nil_prefix
  | cons s p ih =>
    obtain ⟨x, way, found⟩ := List.exists_of_findSome?_eq_some h
    obtain ⟨more, behind, rfl⟩ := Option.map_eq_some_iff.1 found
    rw [List.flatten_cons, ← PatternStep.append_of_mem_ways way]
    exact (List.prefix_append_right_inj x.1).2 (ih behind)

theorem length_of_search? {p : Pattern} {before cs : List Char} {found : Place}
    (h : p.search? before cs = some found) :
    found.parts.flatten.length + found.after.length ≤ cs.length := by
  induction cs generalizing before with
  | nil =>
    obtain ⟨parts, fits, rfl⟩ := Option.map_eq_some_iff.1 h
    simpa using (prefix_of_take? fits).length_le
  | cons c cs ih =>
    rw [search?] at h
    split at h
    · rename_i parts fits
      obtain rfl := Option.some.inj h
      rw [List.length_drop]
      exact Nat.le_of_eq (Nat.add_sub_cancel' (prefix_of_take? fits).length_le)
    · exact Nat.le_succ_of_le (ih h)

/-- What the pattern takes at the places where it fits in `cs` behind the text `before`, from left
to right. The search ends where it takes nothing. -/
def findAll (p : Pattern) (before cs : List Char) : List (List (List Char)) :=
  match _ : p.search? before cs with
  | none => []
  | some found =>
    if found.parts.flatten = [] then [found.parts]
    else found.parts :: findAll p (found.before ++ found.parts.flatten) found.after
termination_by cs.length
decreasing_by
  have within := length_of_search? ‹p.search? before cs = some found›
  have taken := List.length_pos_iff.2 ‹_›
  omega

end Pattern
end PrologSource
