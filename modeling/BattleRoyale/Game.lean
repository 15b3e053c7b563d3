import BattleRoyale.Common

/-!
# Match computations

The functions of `game.c`: counts and predicates over the player table, the
start of a round, and the pairing of the players of a round.
-/

namespace BattleRoyale

variable {F : Type}

/-- The number of admitted players. -/
def admittedCount (s : ServerState F) : ℕ := slots.countP (fun i => (s.players i).isAdmitted)

/-- The number of players alive. -/
def activeAliveCount (s : ServerState F) : ℕ := slots.countP (fun i => (s.players i).isAlive)

/-- Every admitted player has submitted CHOICE and SPAWN, and there are two. -/
def allAdmittedReady (s : ServerState F) : Bool :=
  slots.all (fun i => !(s.players i).isAdmitted ||
    ((s.players i).choiceChosen && (s.players i).spawnChosen)) && decide (2 ≤ admittedCount s)

/-- All players alive share a choice, and there are two. -/
def allAliveSameChoice (s : ServerState F) : Bool :=
  match slots.filter (fun i => (s.players i).isAlive) with
  | [] => false
  | first :: rest =>
    rest.all (fun i => (s.players i).choice == (s.players first).choice) &&
      decide (2 ≤ activeAliveCount s)

/-- Two slots that pass a test are counted twice. -/
theorem two_le_countP (test : Slot → Bool) {i j : Slot} (hij : i ≠ j) (hi : test i = true)
    (hj : test j = true) : 2 ≤ slots.countP test := by
  have hsub : [i, j] ⊆ slots.filter test := by
    intro k hk
    simp only [List.mem_cons, List.not_mem_nil, or_false] at hk
    rcases hk with rfl | rfl
    · exact List.mem_filter.mpr ⟨mem_slots _, hi⟩
    · exact List.mem_filter.mpr ⟨mem_slots _, hj⟩
  have hnodup : [i, j].Nodup := by simp [hij]
  rw [List.countP_eq_length_filter]
  exact (List.subperm_of_subset hnodup hsub).length_le

/-- What `start_round` does to one slot. -/
def Player.enterRound (p : Player F) : Player F :=
  let p := { p with inRound := false, repickSubmitted := false, repickChoice := '\x00' }
  if p.isAdmitted && (p.alive || p.waiting) then
    { p with alive := p.alive || p.waiting, waiting := false, inRound := true }
  else p

/-- Start a round at the given time. -/
def startRound (now : ℤ) (s : ServerState F) : ServerState F :=
  { s with
    phase := .roundActive
    roundNo := s.roundNo + 1
    roundDeadline := now + ROUND_SECONDS
    players := fun i => (s.players i).enterRound }

/-- One when the first choice beats the second, minus one when it loses. -/
def rpsResult (a b : Char) : ℤ :=
  if a = b then 0
  else if (a = 'R' ∧ b = 'S') ∨ (a = 'S' ∧ b = 'P') ∨ (a = 'P' ∧ b = 'R') then 1
  else -1

/-- Indexes of a matchup pair. -/
structure Pair where
  /-- The first player. -/
  a : Slot
  /-- The second player. -/
  b : Slot
  deriving DecidableEq, Repr

section Pairing

variable [CFloat F]

/-- The squared distance, cast to `int`. -/
def dist2 (a b : Player F) : ℤ :=
  let dx := CFloat.sub a.x b.x
  let dy := CFloat.sub a.y b.y
  CFloat.toInt (CFloat.add (CFloat.mul dx dx) (CFloat.mul dy dy))

/-- The best pair of positions found so far, with its distance. -/
structure Candidate where
  /-- Position of the first player among the unmatched. -/
  i : ℕ
  /-- Position of the second player among the unmatched. -/
  j : ℕ
  /-- The distance of the pair. -/
  d : ℤ
  deriving DecidableEq, Repr

/-- The inner body of the search in `build_pairs`: compare the pair at two
positions with the best one so far. -/
def considerPair (s : ServerState F) (unmatched : List Slot) (best : Option Candidate)
    (ij : ℕ × ℕ) : Option Candidate :=
  match unmatched[ij.1]?, unmatched[ij.2]? with
  | some pi, some pj =>
    let d := dist2 (s.players pi) (s.players pj)
    match best with
    | none => some ⟨ij.1, ij.2, d⟩
    | some best =>
      let id : ℕ → ℕ := fun k => match unmatched[k]? with
        | some q => (s.players q).id
        | none => 0
      if d < best.d ∨ (d = best.d ∧ (id ij.1 < id best.i ∨
          (id ij.1 = id best.i ∧ id ij.2 < id best.j))) then
        some ⟨ij.1, ij.2, d⟩
      else some best
  | _, _ => best

/-- The positions that the two nested loops visit, in their order. -/
def positionPairs (n : ℕ) : List (ℕ × ℕ) :=
  (List.range n).flatMap fun i =>
    ((List.range n).filter (fun j => i < j)).map fun j => (i, j)

/-- The search of one pass of `build_pairs`. -/
def closestPair (s : ServerState F) (unmatched : List Slot) : Option Candidate :=
  (positionPairs unmatched.length).foldl (considerPair s unmatched) none

/-- The outer loop of `build_pairs`, bounded by the room for pairs. It returns the
pairs and the players that are still unmatched. -/
def matchPairs (s : ServerState F) : ℕ → List Slot → List Pair × List Slot
  | 0, unmatched => ([], unmatched)
  | room + 1, unmatched =>
    if unmatched.length < 2 then ([], unmatched)
    else
      match closestPair s unmatched with
      | none => ([], unmatched)
      | some best =>
        match unmatched[best.i]?, unmatched[best.j]? with
        | some a, some b =>
          -- The later position goes first, so that the earlier one does not shift.
          let rest := (unmatched.eraseIdx (max best.i best.j)).eraseIdx (min best.i best.j)
          let (pairs, left) := matchPairs s room rest
          (⟨a, b⟩ :: pairs, left)
        | _, _ => ([], unmatched)

/-- Pair the players of the round, nearest first, and name the one left over. -/
def buildPairs (s : ServerState F) (maxPairs : ℕ) : List Pair × Option Slot :=
  let eligible := slots.filter (fun i => (s.players i).isAlive && (s.players i).inRound)
  match matchPairs s maxPairs eligible with
  | (pairs, [bye]) => (pairs, some bye)
  | (pairs, _) => (pairs, none)

end Pairing

end BattleRoyale
