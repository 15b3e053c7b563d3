import Mathlib.Algebra.Order.Archimedean.Basic
import Mathlib.Analysis.Real.Sqrt

/-!
# Pursuit in the plane

A pursuer that moves straight towards a target comes closer by the distance that it
moves and stays between the two. A system whose steps lose one of finitely many targets
or come closer to one by a fixed amount loses them all. The last part is about loops:
what a loop has changed, one of its turns has changed.
-/

namespace Pursuit

/-- The length of a vector in the plane. -/
noncomputable def length (dx dy : ℝ) : ℝ := √(dx * dx + dy * dy)

theorem length_nonneg (dx dy : ℝ) : 0 ≤ length dx dy := Real.sqrt_nonneg _

/-- Scaling a vector scales its length. -/
theorem length_mul {c : ℝ} (hc : 0 ≤ c) (dx dy : ℝ) :
    length (c * dx) (c * dy) = c * length dx dy := by
  have hsquare : c * dx * (c * dx) + c * dy * (c * dy) = c ^ 2 * (dx * dx + dy * dy) := by ring
  rw [length, hsquare, Real.sqrt_mul (sq_nonneg c), Real.sqrt_sq hc, length]

/-- The part of a difference that a move of `m` out of the distance `d` covers. -/
theorem covered_eq (delta m d : ℝ) : delta / d * m = m / d * delta := by ring

/-- A move has the length that it was given. -/
theorem length_covered {dx dy m : ℝ} (hd : 0 < length dx dy) (hm : 0 ≤ m) :
    length (dx / length dx dy * m) (dy / length dx dy * m) = m := by
  rw [covered_eq dx, covered_eq dy, length_mul (div_nonneg hm hd.le), div_mul_cancel₀ _ hd.ne']

/-- A move towards a target that does not pass it leaves the rest of the distance. -/
theorem length_left {dx dy m : ℝ} (hd : 0 < length dx dy) (hm : m ≤ length dx dy) :
    length (dx - dx / length dx dy * m) (dy - dy / length dx dy * m) = length dx dy - m := by
  have hpart : 0 ≤ 1 - m / length dx dy := sub_nonneg.mpr ((div_le_one hd).mpr hm)
  have hx : dx - dx / length dx dy * m = (1 - m / length dx dy) * dx := by ring
  have hy : dy - dy / length dx dy * m = (1 - m / length dx dy) * dy := by ring
  rw [hx, hy, length_mul hpart, sub_mul, one_mul, div_mul_cancel₀ _ hd.ne']

/-- A point between two others stays in every half-open range that holds both. -/
theorem between_mem {p q c low high : ℝ} (hc : 0 ≤ c) (hc' : c ≤ 1) (hp : low ≤ p ∧ p < high)
    (hq : low ≤ q ∧ q < high) : low ≤ p + c * (q - p) ∧ p + c * (q - p) < high := by
  have hsplit : p + c * (q - p) = (1 - c) * p + c * q := by ring
  rw [hsplit]
  constructor
  · nlinarith [mul_nonneg (sub_nonneg.mpr hc') (sub_nonneg.mpr hp.1),
      mul_nonneg hc (sub_nonneg.mpr hq.1)]
  · rcases hc'.eq_or_lt with rfl | hlt
    · linarith [hq.2]
    · nlinarith [mul_pos (sub_pos.mpr hlt) (sub_pos.mpr hp.2), mul_nonneg hc (sub_pos.mpr hq.2).le]

/-- A system whose steps lose a target, or lose none and come closer by a fixed amount,
is done after finitely many steps. -/
theorem exists_done {S : Type*} {f : S → S} (I done : S → Prop) (count : S → ℕ) (dist : S → ℝ)
    {ε : ℝ} (hε : 0 < ε) (hkept : ∀ s, I s → I (f s)) (hdist : ∀ s, 0 ≤ dist s)
    (hstep : ∀ s, I s → ¬done s → count (f s) < count s ∨
      (count (f s) ≤ count s ∧ dist (f s) ≤ dist s - ε)) {s : S} (hs : I s) :
    ∃ n, done (f^[n] s) := by
  induction hc : count s using Nat.strong_induction_on generalizing s with
  | _ c ihc =>
    subst hc
    -- While no target is lost, the distance decides.
    obtain ⟨k, hk⟩ := Archimedean.arch (dist s) hε
    suffices hrun : ∀ (k : ℕ) (t : S), I t → count t ≤ count s → dist t ≤ k • ε →
        ∃ n, done (f^[n] t) from hrun k s hs le_rfl hk
    intro k
    induction k with
    | zero =>
      intro t ht hcount hclose
      by_cases hdone : done t
      · exact ⟨0, hdone⟩
      rcases hstep t ht hdone with hless | ⟨_, hcloser⟩
      · obtain ⟨n, hn⟩ := ihc _ (hless.trans_le hcount) (hkept t ht) rfl
        exact ⟨n + 1, hn⟩
      · rw [zero_nsmul] at hclose
        linarith [hdist (f t)]
    | succ k ih =>
      intro t ht hcount hclose
      by_cases hdone : done t
      · exact ⟨0, hdone⟩
      rcases hstep t ht hdone with hless | ⟨hless, hcloser⟩
      · obtain ⟨n, hn⟩ := ihc _ (hless.trans_le hcount) (hkept t ht) rfl
        exact ⟨n + 1, hn⟩
      · rw [succ_nsmul] at hclose
        obtain ⟨n, hn⟩ := ih (f t) (hkept t ht) (hless.trans hcount) (by linarith)
        exact ⟨n + 1, hn⟩

/-- A loop that loses a property loses it in one of its turns. -/
theorem exists_turn {S A : Type*} {f : S → A → S} (P : S → Prop) {as : List A} {s : S}
    (hs : P s) (hend : ¬P (as.foldl f s)) :
    ∃ pre a post, as = pre ++ a :: post ∧ P (pre.foldl f s) ∧ ¬P (f (pre.foldl f s) a) := by
  induction as generalizing s with
  | nil => exact absurd hs hend
  | cons a as ih =>
    by_cases hfirst : P (f s a)
    · obtain ⟨pre, b, post, rfl, hbefore, hafter⟩ := ih hfirst hend
      exact ⟨a :: pre, b, post, rfl, hbefore, hafter⟩
    · exact ⟨[], a, as, rfl, hs, hfirst⟩

end Pursuit
