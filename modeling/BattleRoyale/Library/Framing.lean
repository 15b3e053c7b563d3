import Mathlib.Data.List.TakeWhile

/-!
# Streams cut at a separator

A stream over any alphabet is cut at each occurrence of a separator into complete
segments and an unterminated tail. The rules below say how the cut of a concatenation
follows from the cuts of its parts, so that a reader may cut a stream piece by piece.
-/

namespace Framing

variable {α : Type*} [DecidableEq α]

/-- The complete segments of a stream, and its tail. -/
def frames (sep : α) : List α → List (List α) × List α
  | [] => ([], [])
  | a :: as =>
    if a = sep then ([] :: (frames sep as).1, (frames sep as).2)
    else
      match frames sep as with
      | ([], tail) => ([], a :: tail)
      | (f :: fs, tail) => ((a :: f) :: fs, tail)

/-- All segments of a stream, the tail included. -/
def segments (sep : α) (stream : List α) : List (List α) :=
  (frames sep stream).1 ++ [(frames sep stream).2]

variable {sep : α}

/-- A stream without a separator is its own tail. -/
theorem frames_of_not_mem {as : List α} (h : sep ∉ as) : frames sep as = ([], as) := by
  induction as with
  | nil => rfl
  | cons a as ih =>
    obtain ⟨hne, has⟩ : sep ≠ a ∧ sep ∉ as := by simpa only [List.mem_cons, not_or] using h
    simp only [frames, if_neg (Ne.symm hne), ih has]

/-- The first segment ends at the first separator. -/
theorem frames_append_sep {seg : List α} (h : sep ∉ seg) (rest : List α) :
    frames sep (seg ++ sep :: rest) = (seg :: (frames sep rest).1, (frames sep rest).2) := by
  induction seg with
  | nil => simp [frames]
  | cons a seg ih =>
    obtain ⟨hne, hseg⟩ : sep ≠ a ∧ sep ∉ seg := by simpa only [List.mem_cons, not_or] using h
    simp only [List.cons_append, frames, if_neg (Ne.symm hne), ih hseg]

/-- The tail contains no separator. -/
theorem not_mem_tail (as : List α) : sep ∉ (frames sep as).2 := by
  induction as with
  | nil => exact List.not_mem_nil
  | cons a as ih =>
    by_cases ha : a = sep
    · simpa only [frames, if_pos ha] using ih
    · simp only [frames, if_neg ha]
      split <;> rename_i tail heq <;> rw [heq] at ih
      · simp only [List.mem_cons, not_or]
        exact ⟨Ne.symm ha, ih⟩
      · exact ih

/-- Cutting a stream in two steps: the tail of the first part is carried over. -/
theorem frames_append (as bs : List α) :
    frames sep (as ++ bs) =
      ((frames sep as).1 ++ (frames sep ((frames sep as).2 ++ bs)).1,
        (frames sep ((frames sep as).2 ++ bs)).2) := by
  induction as with
  | nil => simp [frames]
  | cons a as ih =>
    by_cases ha : a = sep
    · simp only [List.cons_append, frames, if_pos ha, ih]
    · cases has : frames sep as with
      | mk fs tail =>
        rw [has] at ih
        cases fs with
        | nil =>
          simp only [List.cons_append, frames, if_neg ha, has]
          rw [List.nil_append] at ih
          rw [ih]
          simp only [List.nil_append]
        | cons f fs =>
          simp only [List.cons_append, frames, if_neg ha, has, ih]

/-- The segments of a concatenation: those of the first part without its tail, and those
of the carried tail with the second part. -/
theorem segments_append (as bs : List α) :
    segments sep (as ++ bs) =
      (frames sep as).1 ++ segments sep ((frames sep as).2 ++ bs) := by
  simp only [segments, frames_append as bs, List.append_assoc]

/-- Bytes before the first separator are part of one segment. -/
theorem exists_segment_of_not_mem {as : List α} (h : sep ∉ as) (bs : List α) :
    ∃ s ∈ segments sep (as ++ bs), as.length ≤ s.length := by
  by_cases hbs : sep ∈ bs
  · obtain ⟨pre, post, rfl, hpre⟩ := List.eq_append_cons_of_mem hbs
    have hseg : sep ∉ as ++ pre := by simp [h, hpre]
    refine ⟨as ++ pre, ?_, by simp⟩
    rw [← List.append_assoc, segments, frames_append_sep hseg]
    simp
  · have hall : sep ∉ as ++ bs := by simp [h, hbs]
    refine ⟨as ++ bs, ?_, by simp⟩
    rw [segments, frames_of_not_mem hall]
    simp

end Framing
