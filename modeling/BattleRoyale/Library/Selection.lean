import Mathlib.Data.List.Sort
import Mathlib.Data.Prod.Lex

/-!
# Selection by a key

A scan that keeps the best element so far, and replaces it only by one with a strictly
smaller key, ends with the first of the elements that have the least key. Choosing least
elements again and again, each without conflict with those before it, ends in a settled
set, and there is only one.
-/

namespace Selection

variable {α β κ : Type*} [LinearOrder κ]

/-- One turn of the scan: a strictly smaller key replaces the best so far. -/
def keepLeast (key : α → κ) (best : Option α) (a : α) : Option α :=
  match best with
  | none => some a
  | some b => if key a < key b then some a else some b

/-- The element has the least key of the list, and those before it have greater ones. -/
def FirstLeast (key : α → κ) (l : List α) (m : α) : Prop :=
  ∃ pre post, l = pre ++ m :: post ∧ (∀ a ∈ pre, key m < key a) ∧ ∀ a ∈ post, key m ≤ key a

theorem FirstLeast.mem {key : α → κ} {l : List α} {m : α} (h : FirstLeast key l m) : m ∈ l := by
  obtain ⟨pre, post, rfl, _, _⟩ := h
  simp

/-- No element has a smaller key. -/
theorem FirstLeast.le {key : α → κ} {l : List α} {m : α} (h : FirstLeast key l m) {a : α}
    (ha : a ∈ l) : key m ≤ key a := by
  obtain ⟨pre, post, rfl, hpre, hpost⟩ := h
  simp only [List.mem_append, List.mem_cons] at ha
  rcases ha with ha | rfl | ha
  · exact (hpre a ha).le
  · exact le_rfl
  · exact hpost a ha

/-- One more element. -/
theorem FirstLeast.keepLeast {key : α → κ} {l : List α} {m : α} (h : FirstLeast key l m) (a : α) :
    ∃ m', keepLeast key (some m) a = some m' ∧ FirstLeast key (l ++ [a]) m' := by
  by_cases hlt : key a < key m
  · refine ⟨a, if_pos hlt, l, [], rfl, fun b hb => hlt.trans_le (h.le hb), ?_⟩
    simp
  · obtain ⟨pre, post, rfl, hpre, hpost⟩ := h
    refine ⟨m, if_neg hlt, pre, post ++ [a], by simp, hpre, fun b hb => ?_⟩
    simp only [List.mem_append, List.mem_singleton] at hb
    rcases hb with hb | rfl
    · exact hpost b hb
    · exact not_lt.mp hlt

/-- A scan that has found the first least element of what it has seen goes on to find the
first least element of all. -/
theorem FirstLeast.foldl {key : α → κ} {seen : List α} {m : α} (h : FirstLeast key seen m)
    (l : List α) : ∃ m', l.foldl (Selection.keepLeast key) (some m) = some m' ∧
      FirstLeast key (seen ++ l) m' := by
  induction l generalizing seen m with
  | nil => exact ⟨m, rfl, by rwa [List.append_nil]⟩
  | cons a l ih =>
    obtain ⟨m₁, hkept, hfirst⟩ := h.keepLeast a
    obtain ⟨m₂, hfold, hall⟩ := ih hfirst
    refine ⟨m₂, ?_, ?_⟩
    · rw [List.foldl_cons, hkept, hfold]
    · rwa [List.append_assoc] at hall

/-- There is only one first least element. -/
theorem FirstLeast.unique {key : α → κ} {l : List α} {m m' : α} (h : FirstLeast key l m)
    (h' : FirstLeast key l m') : m = m' := by
  obtain ⟨pre, post, rfl, hpre, hpost⟩ := h
  obtain ⟨pre', post', heq, hpre', hpost'⟩ := h'
  rcases List.append_eq_append_iff.mp heq with ⟨mid, rfl, hmid⟩ | ⟨mid, rfl, hmid⟩
  · cases mid with
    | nil => exact (List.cons.inj hmid).1
    | cons a mid =>
      obtain ⟨rfl, rfl⟩ := List.cons.inj hmid
      have hbefore := hpre' m (by simp)
      have hafter := hpost m' (by simp)
      exact absurd hbefore (not_lt.mpr hafter)
  · cases mid with
    | nil => exact (List.cons.inj hmid).1.symm
    | cons a mid =>
      obtain ⟨rfl, rfl⟩ := List.cons.inj hmid
      have hbefore := hpre m' (by simp)
      have hafter := hpost' m (by simp)
      exact absurd hbefore (not_lt.mpr hafter)

/-- The scan finds nothing in the empty list only. -/
theorem foldl_keepLeast_eq_none {key : α → κ} {l : List α} :
    l.foldl (keepLeast key) none = none ↔ l = [] := by
  cases l with
  | nil => simp
  | cons a l =>
    have hone : FirstLeast key [a] a := ⟨[], [], rfl, by simp, by simp⟩
    obtain ⟨m, hfold, _⟩ := hone.foldl l
    have hscan : (a :: l).foldl (keepLeast key) none = some m := hfold
    simp [hscan]

/-- The scan finds the first least element. -/
theorem foldl_keepLeast_eq_some {key : α → κ} {l : List α} {m : α} :
    l.foldl (keepLeast key) none = some m ↔ FirstLeast key l m := by
  cases l with
  | nil =>
    constructor
    · rintro h
      cases h
    · rintro h
      exact absurd h.mem List.not_mem_nil
  | cons a l =>
    have hone : FirstLeast key [a] a := ⟨[], [], rfl, by simp, by simp⟩
    obtain ⟨m', hfold, hfirst⟩ := hone.foldl l
    have hscan : (a :: l).foldl (keepLeast key) none = some m' := hfold
    rw [hscan, Option.some_inj]
    constructor
    · rintro rfl
      exact hfirst
    · rintro h
      exact hfirst.unique h

/-- In a list that is ordered by an asymmetric relation, the first least element is the
lowest one that has the least key. -/
theorem firstLeast_iff {key : α → κ} {r : α → α → Prop} (hr : ∀ a b, r a b → ¬r b a)
    {l : List α} (hl : l.Pairwise r) {m : α} : FirstLeast key l m ↔
      m ∈ l ∧ (∀ a ∈ l, key m ≤ key a) ∧ ∀ a ∈ l, r a m → key m < key a := by
  constructor
  · rintro h
    refine ⟨h.mem, fun a ha => h.le ha, fun a ha hbefore => ?_⟩
    obtain ⟨pre, post, rfl, hpre, _⟩ := h
    simp only [List.mem_append, List.mem_cons] at ha
    rw [List.pairwise_append, List.pairwise_cons] at hl
    rcases ha with ha | rfl | ha
    · exact hpre a ha
    · exact absurd hbefore (hr a a hbefore)
    · exact absurd hbefore (hr m a (hl.2.1.1 a ha))
  · rintro ⟨hm, hleast, hfirst⟩
    obtain ⟨pre, post, rfl⟩ := List.append_of_mem hm
    rw [List.pairwise_append, List.pairwise_cons] at hl
    refine ⟨pre, post, rfl, fun a ha => ?_, fun a ha => hleast a (by simp [ha])⟩
    exact hfirst a (by simp [ha]) (hl.2.2 a ha m (by simp))

/-- A set of elements without conflicts, such that every other element that is a candidate
is in conflict with one of the set that comes before it. -/
structure SettledSet (candidate : Set β) (before conflict : β → β → Prop) (M : Set β) : Prop where
  /-- Only candidates are in the set. -/
  candidates : ∀ e ∈ M, candidate e
  /-- Different elements of the set are not in conflict. -/
  apart : ∀ e ∈ M, ∀ f ∈ M, e ≠ f → ¬conflict e f
  /-- The others are ruled out by an earlier element. -/
  others : ∀ e, candidate e → e ∉ M → ∃ f ∈ M, before f e ∧ conflict f e

/-- A set is part of every other settled set. The induction is on the order: what comes
before an element decides whether it is in the set. -/
theorem SettledSet.mem_iff {candidate : Set β} {before conflict : β → β → Prop}
    (hwf : WellFounded before) {M N : Set β} (hM : SettledSet candidate before conflict M)
    (hN : SettledSet candidate before conflict N) (e : β) : e ∈ M ↔ e ∈ N := by
  induction e using hwf.induction with
  | _ e ih =>
    constructor
    · rintro he
      by_contra hnot
      obtain ⟨f, hf, hbefore, hconflict⟩ := hN.others e (hM.candidates e he) hnot
      have hne : f ≠ e := by
        rintro rfl
        exact hnot hf
      exact hM.apart f ((ih f hbefore).mpr hf) e he hne hconflict
    · rintro he
      by_contra hnot
      obtain ⟨f, hf, hbefore, hconflict⟩ := hM.others e (hN.candidates e he) hnot
      have hne : f ≠ e := by
        rintro rfl
        exact hnot hf
      exact hN.apart f ((ih f hbefore).mp hf) e he hne hconflict

/-- There is at most one settled set. -/
theorem SettledSet.unique {candidate : Set β} {before conflict : β → β → Prop}
    (hwf : WellFounded before) {M N : Set β} (hM : SettledSet candidate before conflict M)
    (hN : SettledSet candidate before conflict N) : M = N :=
  Set.ext (hM.mem_iff hwf hN)

/-- A settled set moves along a map onto other candidates that keeps the conflicts, and the
order of candidates in conflict. -/
theorem SettledSet.image {γ : Type*} {candidate : Set β} {before conflict : β → β → Prop}
    {candidate' : Set γ} {before' conflict' : γ → γ → Prop} {M : Set β}
    (hM : SettledSet candidate before conflict M) (move : β → γ)
    (hmaps : ∀ e, candidate e → candidate' (move e))
    (honto : ∀ e, candidate' e → ∃ f, candidate f ∧ move f = e)
    (hapart : ∀ e f, candidate e → candidate f → conflict' (move e) (move f) → conflict e f)
    (hbefore : ∀ e f, candidate e → candidate f → before e f → conflict e f →
      before' (move e) (move f) ∧ conflict' (move e) (move f)) :
    SettledSet candidate' before' conflict' (move '' M) := by
  refine ⟨?_, ?_, ?_⟩
  · rintro _ ⟨e, he, rfl⟩
    exact hmaps e (hM.candidates e he)
  · rintro _ ⟨e, he, rfl⟩ _ ⟨f, hf, rfl⟩ hne hconflict
    have hef : e ≠ f := by
      rintro rfl
      exact hne rfl
    exact hM.apart e he f hf hef
      (hapart e f (hM.candidates e he) (hM.candidates f hf) hconflict)
  · rintro e he hnot
    obtain ⟨f, hf, rfl⟩ := honto e he
    have hout : f ∉ M := fun hin => hnot ⟨f, hin, rfl⟩
    obtain ⟨g, hg, hfirst, hconflict⟩ := hM.others f hf hout
    exact ⟨move g, ⟨g, hg, rfl⟩, hbefore g f (hM.candidates g hg) hf hfirst hconflict⟩

end Selection
