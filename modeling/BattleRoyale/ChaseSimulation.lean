import BattleRoyale.Game

/-!
# The chase

The functions of `chase_simulation.c`: in each tick every player alive moves
towards its nearest prey and captures it on contact.
-/

namespace BattleRoyale

variable {F : Type}

/-- Rock eats scissors, scissors eat paper, paper eats rock. -/
def canEat (eater prey : Char) : Bool :=
  if eater = 'R' then prey == 'S'
  else if eater = 'S' then prey == 'P'
  else if eater = 'P' then prey == 'R'
  else false

/-- Some player alive holds the choice. -/
def typeAlive (s : ServerState F) (c : Char) : Bool :=
  slots.any (fun i => (s.players i).isAlive && (s.players i).choice == c)

/-- The number of types alive, as `server_state.c` counts it. -/
def countAliveChoiceTypes (s : ServerState F) : ℕ :=
  (typeAlive s 'R').toNat + (typeAlive s 'P').toNat + (typeAlive s 'S').toNat

/-- The number of types alive, as `chase_simulation.c` counts it. -/
def countChoiceTypesAlive (s : ServerState F) : ℕ :=
  (typeAlive s 'R').toNat + (typeAlive s 'S').toNat + (typeAlive s 'P').toNat

section Chase

variable [CFloat F]

/-- Units per second. -/
def CHASE_SPEED : F := CFloat.lit (8 / 10)

/-- Contact distance. -/
def CAPTURE_RADIUS : F := CFloat.lit (1 / 2)

/-- The distance that the chase computes. -/
def distance (dx dy : F) : F :=
  CFloat.sqrtf (CFloat.add (CFloat.mul dx dx) (CFloat.mul dy dy))

/-- The body of the scan in `find_nearest_prey`. -/
def considerPrey (s : ServerState F) (hunter : Slot) (best : Option (Slot × F)) (i : Slot) :
    Option (Slot × F) :=
  let h := s.players hunter
  let candidate := s.players i
  if !candidate.isAlive then best
  else if i = hunter then best
  else if candidate.choice = h.choice then best
  else if !canEat h.choice candidate.choice then best
  else
    let dist := distance (CFloat.sub candidate.x h.x) (CFloat.sub candidate.y h.y)
    match best with
    | none => some (i, dist)
    | some (_, bestDist) => if CFloat.lt dist bestDist then some (i, dist) else best

/-- The nearest player that the hunter can eat. -/
def findNearestPrey (s : ServerState F) (hunter : Slot) : Option Slot :=
  if !(s.players hunter).isAlive then none
  else (slots.foldl (considerPrey s hunter) none).map Prod.fst

/-- Eliminate a captured player. -/
def capture (s : ServerState F) (prey : Slot) : ServerState F :=
  s.setPlayer prey
    { s.players prey with alive := false, x := CFloat.lit (-1), y := CFloat.lit (-1) }

/-- The move of a hunter that has not reached its prey. -/
def approach (s : ServerState F) (hunter : Slot) (dx dy dist dt : F) : ServerState F :=
  let moveDist := CFloat.mul CHASE_SPEED dt
  let moveDist := if CFloat.lt dist moveDist then dist else moveDist
  let h := s.players hunter
  s.setPlayer hunter
    { h with
      x := CFloat.add h.x (CFloat.mul (CFloat.div dx dist) moveDist)
      y := CFloat.add h.y (CFloat.mul (CFloat.div dy dist) moveDist) }

/-- The turn of one hunter. -/
def hunt (dt : F) (s : ServerState F) (i : Slot) : ServerState F :=
  if !(s.players i).isAlive then s
  else
    match findNearestPrey s i with
    | none => s
    | some prey =>
      let dx := CFloat.sub (s.players prey).x (s.players i).x
      let dy := CFloat.sub (s.players prey).y (s.players i).y
      let dist := distance dx dy
      if CFloat.le dist CAPTURE_RADIUS then capture s prey
      else
        let s := approach s i dx dy dist dt
        let ndx := CFloat.sub (s.players prey).x (s.players i).x
        let ndy := CFloat.sub (s.players prey).y (s.players i).y
        if CFloat.le (distance ndx ndy) CAPTURE_RADIUS then capture s prey else s

/-- One tick: every hunter in slot order, and whether at most one type is left. -/
def simulateChaseTick (s : ServerState F) (dtSeconds : F) : ServerState F × Bool :=
  let dt := if CFloat.lt dtSeconds (CFloat.lit 0) then CFloat.lit 0 else dtSeconds
  let s := slots.foldl (hunt dt) s
  (s, decide (countChoiceTypesAlive s ≤ 1))

end Chase

end BattleRoyale
