import BattleRoyale.RealChase

/-!
# One tick of the chase

Where the players of a tick go, on exact coordinates, and that the tick divides by no
zero. For the second part the tick is run once more, on coordinates that may be undefined:
a quotient by zero is, the root of a negative number is, and whatever is computed from
an undefined number is. That run ends with the coordinates of the exact one, all defined.
-/

namespace BattleRoyale

open Pursuit

/-- A comparison is false where one of the numbers is undefined. -/
def bothDefined (r : ℝ → ℝ → Bool) : Option ℝ → Option ℝ → Bool
  | some x, some y => r x y
  | _, _ => false

/-- Real numbers that may be undefined. -/
noncomputable instance : CFloat (Option ℝ) where
  lit q := some (CFloat.lit q)
  ofInt n := some (CFloat.ofInt n)
  toInt x := x.elim 0 CFloat.toInt
  lt := bothDefined CFloat.lt
  le := bothDefined CFloat.le
  eq := bothDefined CFloat.eq
  add := Option.map₂ CFloat.add
  sub := Option.map₂ CFloat.sub
  mul := Option.map₂ CFloat.mul
  div x y := if y = some 0 then none else Option.map₂ CFloat.div x y
  sqrtf x := x.bind fun r => if r < 0 then none else some (CFloat.sqrtf r)
  fixed digits x := x.elim "nan".toList (CFloat.fixed digits)
  scan text := (CFloat.scan text).map fun (x, rest) => (some x, rest)

/-- The player, at its defined position. -/
def Player.defined (p : Player ℝ) : Player (Option ℝ) :=
  { p with x := some p.x, y := some p.y }

/-- The table with all positions defined. -/
def ServerState.defined (s : ServerState ℝ) : ServerState (Option ℝ) :=
  { s with players := fun i => (s.players i).defined }

/-- A change of one slot. -/
theorem defined_setPlayer (s : ServerState ℝ) (i : Slot) (p : Player ℝ) :
    (s.setPlayer i p).defined = s.defined.setPlayer i p.defined := by
  simp only [ServerState.defined, ServerState.setPlayer, ServerState.mk.injEq, and_true]
  funext j
  by_cases hj : j = i
  · subst hj
    simp
  · simp [Function.update_of_ne hj]

/-- The distance is the root of a sum of squares. -/
theorem distance_defined (dx dy : ℝ) :
    distance (some dx) (some dy) = some (distance dx dy) := by
  have hsquares : ¬dx * dx + dy * dy < 0 := by
    have hx := mul_self_nonneg dx
    have hy := mul_self_nonneg dy
    linarith
  exact if_neg hsquares

/-- One step of the search for a prey. -/
theorem considerPrey_defined (s : ServerState ℝ) (hunter : Slot) (best : Option (Slot × ℝ))
    (i : Slot) :
    considerPrey s.defined hunter (best.map fun (j, d) => (j, some d)) i =
      (considerPrey s hunter best i).map fun (j, d) => (j, some d) := by
  have hdist : distance
      (CFloat.sub (s.defined.players i).x (s.defined.players hunter).x)
      (CFloat.sub (s.defined.players i).y (s.defined.players hunter).y) =
      some (distance (CFloat.sub (s.players i).x (s.players hunter).x)
        (CFloat.sub (s.players i).y (s.players hunter).y)) :=
    distance_defined _ _
  unfold considerPrey
  simp only [hdist]
  have halive : (s.defined.players i).isAlive = (s.players i).isAlive := rfl
  have hchoice : ∀ j, (s.defined.players j).choice = (s.players j).choice := fun _ => rfl
  simp only [halive, hchoice]
  split
  · rfl
  split
  · rfl
  split
  · rfl
  split
  · rfl
  cases best with
  | none => rfl
  | some b =>
    simp only [Option.map_some]
    rw [apply_ite (Option.map fun best : Slot × ℝ => (best.1, some best.2))]
    rfl

/-- The search finds the same prey. -/
theorem findNearestPrey_defined (s : ServerState ℝ) (hunter : Slot) :
    findNearestPrey s.defined hunter = findNearestPrey s hunter := by
  have hscan : ∀ (is : List Slot) (best : Option (Slot × ℝ)),
      is.foldl (considerPrey s.defined hunter) (best.map fun (j, d) => (j, some d)) =
        (is.foldl (considerPrey s hunter) best).map fun (j, d) => (j, some d) := by
    intro is
    induction is with
    | nil => exact fun best => rfl
    | cons i is ih =>
      intro best
      rw [List.foldl_cons, List.foldl_cons, considerPrey_defined, ih]
  have hall := hscan slots none
  rw [Option.map_none] at hall
  unfold findNearestPrey
  rw [hall, Option.map_map]
  rfl

/-- A capture needs no number. -/
theorem capture_defined (s : ServerState ℝ) (prey : Slot) :
    capture s.defined prey = (capture s prey).defined := by
  unfold capture
  rw [defined_setPlayer]
  rfl

/-- A move over a distance that is not zero. -/
theorem approach_defined (s : ServerState ℝ) (hunter : Slot) (dx dy dt : ℝ) {dist : ℝ}
    (hdist : dist ≠ 0) :
    approach s.defined hunter (some dx) (some dy) (some dist) (some dt) =
      (approach s hunter dx dy dist dt).defined := by
  have hquotient : ∀ d : ℝ, CFloat.div (some d) (some dist) = some (CFloat.div d dist) :=
    fun d => if_neg (by simpa using hdist)
  have hstep : (if CFloat.lt (some dist) (CFloat.mul CHASE_SPEED (some dt)) then some dist
        else CFloat.mul CHASE_SPEED (some dt)) =
      some (if CFloat.lt dist (CFloat.mul CHASE_SPEED dt) then dist
        else CFloat.mul CHASE_SPEED dt) :=
    (apply_ite some _ _ _).symm
  unfold approach
  simp only [hstep, hquotient]
  rw [defined_setPlayer]
  rfl

/-- The turn of a hunter divides by no zero: it comes to its division only when the prey
is out of the capture radius. -/
theorem hunt_defined (dt : ℝ) (s : ServerState ℝ) (i : Slot) :
    hunt (some dt) s.defined i = (hunt dt s i).defined := by
  unfold hunt
  have halive : (s.defined.players i).isAlive = (s.players i).isAlive := rfl
  rw [halive, findNearestPrey_defined]
  split
  · rfl
  cases findNearestPrey s i with
  | none => rfl
  | some prey =>
    have hsub : ∀ (t : ServerState ℝ),
        CFloat.sub (t.defined.players prey).x (t.defined.players i).x =
            some (CFloat.sub (t.players prey).x (t.players i).x) ∧
          CFloat.sub (t.defined.players prey).y (t.defined.players i).y =
            some (CFloat.sub (t.players prey).y (t.players i).y) := fun _ => ⟨rfl, rfl⟩
    have hnear : ∀ d : ℝ, CFloat.le (some d) CAPTURE_RADIUS = CFloat.le d CAPTURE_RADIUS :=
      fun _ => rfl
    simp only [(hsub s).1, (hsub s).2, distance_defined, hnear]
    split
    · exact capture_defined s prey
    · rename_i hfar
      have hdist : distance (CFloat.sub (s.players prey).x (s.players i).x)
          (CFloat.sub (s.players prey).y (s.players i).y) ≠ 0 := by
        have hradius : ¬ distance (CFloat.sub (s.players prey).x (s.players i).x)
            (CFloat.sub (s.players prey).y (s.players i).y) ≤ CAPTURE_RADIUS := by
          simpa [CFloat.le] using hfar
        rw [capture_radius_eq, not_le] at hradius
        exact (half_lt_pos hradius).ne'
      simp only [approach_defined _ _ _ _ _ hdist, (hsub _).1, (hsub _).2, distance_defined,
        hnear]
      split
      · exact capture_defined _ prey
      · rfl

/-- A tick divides by no zero. -/
theorem simulateChaseTick_defined (s : ServerState ℝ) (dt : ℝ) :
    simulateChaseTick s.defined (some dt) =
      ((simulateChaseTick s dt).1.defined, (simulateChaseTick s dt).2) := by
  have hclamp : (if CFloat.lt (some dt) (CFloat.lit 0) then (CFloat.lit 0 : Option ℝ)
      else some dt) = some (if CFloat.lt dt (CFloat.lit 0) then CFloat.lit 0 else dt) :=
    (apply_ite some _ _ _).symm
  have hloop : ∀ (is : List Slot) (d : ℝ) (t : ServerState ℝ),
      is.foldl (hunt (some d)) t.defined = (is.foldl (hunt d) t).defined := by
    intro is d
    induction is with
    | nil => exact fun t => rfl
    | cons i is ih =>
      intro t
      rw [List.foldl_cons, List.foldl_cons, hunt_defined, ih]
  have htypes : ∀ t : ServerState ℝ,
      countChoiceTypesAlive t.defined = countChoiceTypesAlive t := fun _ => rfl
  unfold simulateChaseTick
  simp only [hclamp, hloop, htypes]

/-- One tick on the board: the players alive stay on it and move by the speed times the
time at most; every hunter with a prey ends between its old position and the prey, closer
by exactly the distance that it moved; and nothing in the tick is undefined, so that it
divides by no zero. -/
theorem chase_tick_moves (s : ServerState ℝ) (dt : ℝ) (hboard : OnBoard s) :
    OnBoard (simulateChaseTick s dt).1 ∧
    (∀ i, ((simulateChaseTick s dt).1.players i).isAlive = true →
      gap (s.players i) ((simulateChaseTick s dt).1.players i) ≤ CHASE_SPEED * max dt 0) ∧
    (∀ hunter prey, findNearestPrey (beforeTurn s dt hunter) hunter = some prey →
      gap ((afterTurn s dt hunter).players hunter) ((beforeTurn s dt hunter).players prey) =
        gap ((beforeTurn s dt hunter).players hunter) ((beforeTurn s dt hunter).players prey) -
          gap ((beforeTurn s dt hunter).players hunter) ((afterTurn s dt hunter).players hunter) ∧
      ∃ c, 0 ≤ c ∧ c ≤ 1 ∧
        ((afterTurn s dt hunter).players hunter).x =
          ((beforeTurn s dt hunter).players hunter).x +
            c * (((beforeTurn s dt hunter).players prey).x -
              ((beforeTurn s dt hunter).players hunter).x) ∧
        ((afterTurn s dt hunter).players hunter).y =
          ((beforeTurn s dt hunter).players hunter).y +
            c * (((beforeTurn s dt hunter).players prey).y -
              ((beforeTurn s dt hunter).players hunter).y)) ∧
    simulateChaseTick s.defined (some dt) =
      ((simulateChaseTick s dt).1.defined, (simulateChaseTick s dt).2) := by
  have hdt : 0 ≤ max dt 0 := le_max_right _ _
  refine ⟨?_, fun i hi => ?_, fun hunter prey hfind => ?_, simulateChaseTick_defined s dt⟩
  · rw [simulateChaseTick_eq]
    have hloop : ∀ (is : List Slot) (t : ServerState ℝ), OnBoard t →
        OnBoard (is.foldl (hunt (max dt 0)) t) := by
      intro is
      induction is with
      | nil => exact fun t ht => ht
      | cons i is ih => exact fun t ht => ih _ (ht.hunt hdt i)
    exact hloop slots s hboard
  · obtain ⟨hbefore, hafter⟩ := survivor_turn (Player.isAlive_iff.mp hi).2
    rw [chase_speed_eq, ← hbefore, ← hafter]
    rcases hunt_cases (max dt 0) (beforeTurn s dt i) i with ⟨hsame, _⟩ | ⟨q, hfind, _⟩
    · have hstill : gap ((beforeTurn s dt i).players i) ((afterTurn s dt i).players i) = 0 := by
        rw [afterTurn, hsame]
        simp [gap, length]
      rw [hstill]
      positivity
    · exact (hunt_moves hdt hfind).1
  · obtain ⟨_, hleft, hbetween⟩ := hunt_moves hdt hfind
    exact ⟨hleft, hbetween⟩

/-- Rock and scissors in a tick of one second: both stay on the board, rock comes closer to
scissors, and no number is undefined. -/
theorem chase_tick_moves_rockAndScissors :
    OnBoard (simulateChaseTick rockAndScissors 1).1 ∧
      (∀ i, ((simulateChaseTick rockAndScissors 1).1.players i).isAlive = true →
        gap (rockAndScissors.players i) ((simulateChaseTick rockAndScissors 1).1.players i) ≤
          CHASE_SPEED * max 1 0) ∧
      gap ((afterTurn rockAndScissors 1 0).players 0) ((beforeTurn rockAndScissors 1 0).players 1) =
        gap ((beforeTurn rockAndScissors 1 0).players 0)
            ((beforeTurn rockAndScissors 1 0).players 1) -
          gap ((beforeTurn rockAndScissors 1 0).players 0)
            ((afterTurn rockAndScissors 1 0).players 0) ∧
      simulateChaseTick rockAndScissors.defined (some 1) =
        ((simulateChaseTick rockAndScissors 1).1.defined,
          (simulateChaseTick rockAndScissors 1).2) := by
  have hfind : findNearestPrey (beforeTurn rockAndScissors 1 0) 0 = some 1 := by
    show findNearestPrey rockAndScissors 0 = some 1
    cases hprey : findNearestPrey rockAndScissors 0 with
    | none => exact absurd ⟨rfl, rfl⟩ (findNearestPrey_eq_none rfl hprey 1)
    | some q =>
      obtain ⟨_, hq⟩ := findNearestPrey_some hprey
      rcases rockAndScissors_alive hq.1 with rfl | rfl
      · exact absurd rfl (IsPrey.ne hq)
      · rfl
  obtain ⟨honBoard, hspeed, hcloser, hdefined⟩ :=
    chase_tick_moves rockAndScissors 1 rockAndScissors_onBoard
  exact ⟨honBoard, hspeed, (hcloser 0 1 hfind).1, hdefined⟩

end BattleRoyale
