import BattleRoyale.RealChase
import BattleRoyale.Library.Selection

/-!
# The choice of the prey

The scan of `find_nearest_prey`, under its four tests and its strict comparison, is a
search for the first least element: it finds the lowest slot among the nearest prey.
-/

namespace BattleRoyale

open Selection

/-- The slots of the players that the hunter may eat, in the order of the scan. -/
noncomputable def preyList (s : ServerState ℝ) (hunter : Slot) : List Slot :=
  open Classical in slots.filter fun i => decide (IsPrey s hunter i)

theorem mem_preyList {s : ServerState ℝ} {hunter i : Slot} :
    i ∈ preyList s hunter ↔ IsPrey s hunter i := by
  simp [preyList]

/-- The loops visit the slots in increasing order. -/
theorem slots_increasing : slots.Pairwise (· < ·) := List.pairwise_lt_finRange _

/-- The distance of a slot from the hunter. -/
noncomputable def reach (s : ServerState ℝ) (hunter i : Slot) : ℝ :=
  gap (s.players hunter) (s.players i)

theorem reach_eq (s : ServerState ℝ) (hunter i : Slot) :
    gap (s.players hunter) (s.players i) = reach s hunter i := rfl

/-- The scan keeps the least distance among the prey, together with its slot. -/
theorem foldl_considerPrey (s : ServerState ℝ) (hunter : Slot) (is : List Slot)
    (best : Option Slot) :
    is.foldl (considerPrey s hunter) (best.map fun q => (q, reach s hunter q)) =
      ((open Classical in is.filter fun i => decide (IsPrey s hunter i)).foldl
        (keepLeast (reach s hunter)) best).map fun q => (q, reach s hunter q) := by
  induction is generalizing best with
  | nil => rfl
  | cons i is ih =>
    rw [List.foldl_cons]
    by_cases hi : IsPrey s hunter i
    · rw [List.filter_cons_of_pos (by simpa using hi), List.foldl_cons, ← ih]
      congr 1
      rw [considerPrey_of hi]
      cases best with
      | none => rfl
      | some b =>
        simp only [Option.map_some, keepLeast, reach_eq]
        by_cases hlt : reach s hunter i < reach s hunter b
        · simp only [hlt, if_true, Option.map_some]
        · simp only [hlt, if_false, Option.map_some]
    · rw [List.filter_cons_of_neg (by simpa using hi), considerPrey_of_not hi, ih]

/-- For a hunter alive the function is a search for the first least distance. -/
theorem findNearestPrey_eq {s : ServerState ℝ} {hunter : Slot}
    (halive : (s.players hunter).isAlive = true) :
    findNearestPrey s hunter =
      (preyList s hunter).foldl (keepLeast (reach s hunter)) none := by
  have hscan := foldl_considerPrey s hunter slots none
  rw [Option.map_none] at hscan
  simp only [findNearestPrey, halive, Bool.not_true, Bool.false_eq_true, if_false, hscan,
    Option.map_map]
  exact Option.map_id' ..

/-- `find_nearest_prey` finds nothing just when the hunter is not alive, or nobody alive
holds a choice that it eats. Otherwise it finds the lowest slot among the nearest prey. -/
theorem findNearestPrey_lowest_nearest (s : ServerState ℝ) (hunter : Slot) :
    (findNearestPrey s hunter = none ↔ (s.players hunter).isAlive = false ∨
      ∀ i, (s.players i).isAlive = true →
        canEat (s.players hunter).choice (s.players i).choice = false) ∧
    ∀ q, findNearestPrey s hunter = some q ↔
      (s.players hunter).isAlive = true ∧ IsPrey s hunter q ∧
      (∀ i, IsPrey s hunter i → reach s hunter q ≤ reach s hunter i) ∧
      ∀ i, IsPrey s hunter i → i < q → reach s hunter q < reach s hunter i := by
  by_cases halive : (s.players hunter).isAlive = true
  · rw [findNearestPrey_eq halive]
    constructor
    · rw [foldl_keepLeast_eq_none, List.eq_nil_iff_forall_not_mem]
      simp only [mem_preyList, halive, Bool.true_eq_false, false_or, IsPrey, not_and,
        Bool.not_eq_true]
    · rintro q
      have hincreasing : (preyList s hunter).Pairwise (· < ·) := slots_increasing.filter _
      rw [foldl_keepLeast_eq_some, firstLeast_iff (fun _ _ => lt_asymm) hincreasing]
      simp only [mem_preyList, halive, true_and]
  · have hnone : findNearestPrey s hunter = none := by simp [findNearestPrey, halive]
    simp [hnone, halive]

end BattleRoyale
