import BattleRoyale.Undisturbed
import BattleRoyale.Matching

/-!
# The outcome of a round

The pairs of a round are disjoint, so each is resolved on the table with which the round
began: the loser of a pair of different choices leaves its position to the winner, and
nothing else happens. What follows depends on who is left.
-/

namespace BattleRoyale

open Recorded

variable {F : Type} [CFloat F]

section Table

/-- The winner takes the position of the loser, who is eliminated. -/
def ServerState.beat (winner loser : Slot) (s : ServerState F) : ServerState F :=
  let pw := s.players winner
  let pl := s.players loser
  let s := s.setPlayer winner { pw with x := pl.x, y := pl.y }
  s.setPlayer loser
    { s.players loser with
      alive := false, inRound := false, x := CFloat.lit (-1), y := CFloat.lit (-1) }

omit [CFloat F] in
/-- The winner and the loser of a pair, unless it is a tie. -/
def decided (s : ServerState F) (pair : Pair) : Option (Slot × Slot) :=
  let r := rpsResult (s.players pair.a).choice (s.players pair.b).choice
  if r = 1 then some (pair.a, pair.b) else if r = -1 then some (pair.b, pair.a) else none

/-- The table after a pair. -/
def ServerState.afterPair (s : ServerState F) (pair : Pair) : ServerState F :=
  match decided s pair with
  | none => s
  | some (winner, loser) => s.beat winner loser

omit [CFloat F] in
/-- What is recorded for a pair. -/
def pairDeeds (s : ServerState F) (pair : Pair) : List (Event F) :=
  match decided s pair with
  | none => []
  | some (winner, loser) => [.pairResolved winner loser]

omit [CFloat F] in
/-- The players of a pair have the same choice. -/
theorem decided_eq_none {s : ServerState F} {pair : Pair} : decided s pair = none ↔
    (s.players pair.a).choice = (s.players pair.b).choice := by
  unfold decided rpsResult
  dsimp only
  by_cases hsame : (s.players pair.a).choice = (s.players pair.b).choice
  · simp [hsame]
  · rw [if_neg hsame]
    split
    · rename_i h
      simp [hsame]
    · simp [hsame]

omit [CFloat F] in
/-- The winner and the loser are the two players of the pair. -/
theorem decided_eq_some {s : ServerState F} {pair : Pair} {winner loser : Slot}
    (h : decided s pair = some (winner, loser)) :
    (winner = pair.a ∧ loser = pair.b) ∨ (winner = pair.b ∧ loser = pair.a) := by
  unfold decided at h
  dsimp only at h
  split at h
  · cases h
    exact .inl ⟨rfl, rfl⟩
  · split at h
    · cases h
      exact .inr ⟨rfl, rfl⟩
    · cases h

omit [CFloat F] in
/-- Who wins a pair depends on the types of its players only. -/
theorem decided_congr {s t : ServerState F} {pair : Pair}
    (ha : (t.players pair.a).choice = (s.players pair.a).choice)
    (hb : (t.players pair.b).choice = (s.players pair.b).choice) :
    decided t pair = decided s pair := by
  unfold decided
  rw [ha, hb]

/-- The winner moves to the place of the loser. -/
theorem beat_winner {s : ServerState F} {winner loser : Slot} (hne : winner ≠ loser) :
    (s.beat winner loser).players winner =
      { s.players winner with x := (s.players loser).x, y := (s.players loser).y } := by
  simp [ServerState.beat, ServerState.setPlayer_of_ne _ _ hne]

/-- The loser is out, and off the board. -/
theorem beat_loser {s : ServerState F} {winner loser : Slot} (hne : winner ≠ loser) :
    (s.beat winner loser).players loser =
      { s.players loser with
        alive := false, inRound := false, x := CFloat.lit (-1), y := CFloat.lit (-1) } := by
  simp [ServerState.beat, ServerState.setPlayer_of_ne _ _ hne.symm]

/-- Nobody else is touched. -/
theorem beat_other {s : ServerState F} {winner loser i : Slot} (hw : i ≠ winner)
    (hl : i ≠ loser) : (s.beat winner loser).players i = s.players i := by
  simp [ServerState.beat, ServerState.setPlayer_of_ne _ _ hw, ServerState.setPlayer_of_ne _ _ hl]

/-- A pair does not matter to the others. -/
theorem afterPair_other {s : ServerState F} {pair : Pair} {i : Slot} (ha : i ≠ pair.a)
    (hb : i ≠ pair.b) : (s.afterPair pair).players i = s.players i := by
  unfold ServerState.afterPair
  split
  · rfl
  · rename_i winner loser h
    rcases decided_eq_some h with ⟨rfl, rfl⟩ | ⟨rfl, rfl⟩
    · exact beat_other ha hb
    · exact beat_other hb ha

/-- What a pair does to its players depends on the two alone. -/
theorem afterPair_local {s t : ServerState F} {pair : Pair}
    (ha : t.players pair.a = s.players pair.a) (hb : t.players pair.b = s.players pair.b)
    {i : Slot} (hi : i = pair.a ∨ i = pair.b) :
    (t.afterPair pair).players i = (s.afterPair pair).players i := by
  have hi' : t.players i = s.players i := by rcases hi with rfl | rfl <;> assumption
  have hsame := decided_congr (congrArg Player.choice ha) (congrArg Player.choice hb)
  unfold ServerState.afterPair
  rw [hsame]
  split
  · exact hi'
  · rename_i winner loser h
    have hwl : t.players winner = s.players winner ∧ t.players loser = s.players loser := by
      rcases decided_eq_some h with ⟨rfl, rfl⟩ | ⟨rfl, rfl⟩
      · exact ⟨ha, hb⟩
      · exact ⟨hb, ha⟩
    simp only [ServerState.beat, ServerState.setPlayer_players, hwl.1, hwl.2, hi']

/-- No pair changes a choice. -/
theorem afterPair_choice (s : ServerState F) (pair : Pair) (i : Slot) :
    ((s.afterPair pair).players i).choice = (s.players i).choice := by
  unfold ServerState.afterPair
  split
  · rfl
  · simp only [ServerState.beat, ServerState.setPlayer_players]
    split
    · rename_i hl
      split
      · rename_i hw
        rw [hl, ← hw]
      · rw [hl]
    · split
      · rename_i hw
        rw [hw]
      · rfl

/-- The table after some pairs. -/
def ServerState.afterPairs (s : ServerState F) (pairs : List Pair) : ServerState F :=
  pairs.foldl ServerState.afterPair s

/-- Who is in no pair keeps its entry. -/
theorem afterPairs_other {s : ServerState F} {pairs : List Pair} {i : Slot}
    (hi : i ∉ paired pairs) : (s.afterPairs pairs).players i = s.players i := by
  unfold ServerState.afterPairs
  induction pairs generalizing s with
  | nil => rfl
  | cons pair pairs ih =>
    have hsplit : paired (pair :: pairs) = pair.a :: pair.b :: paired pairs := rfl
    rw [hsplit, List.mem_cons, List.mem_cons, not_or, not_or] at hi
    obtain ⟨ha, hb, hrest⟩ := hi
    rw [List.foldl_cons, ih hrest, afterPair_other ha hb]

/-- Each pair is resolved on the table with which the round began. -/
theorem afterPairs_pair {s : ServerState F} {pairs : List Pair} (hpairs : (paired pairs).Nodup)
    {pair : Pair} (hpair : pair ∈ pairs) {i : Slot} (hi : i = pair.a ∨ i = pair.b) :
    (s.afterPairs pairs).players i = (s.afterPair pair).players i := by
  unfold ServerState.afterPairs
  induction pairs generalizing s with
  | nil => cases hpair
  | cons first pairs ih =>
    have hsplit : paired (first :: pairs) = first.a :: first.b :: paired pairs := rfl
    rw [hsplit, List.nodup_cons, List.nodup_cons, List.mem_cons, not_or] at hpairs
    obtain ⟨⟨_, ha⟩, hb, hrest⟩ := hpairs
    rw [List.foldl_cons]
    rcases List.mem_cons.mp hpair with rfl | hlater
    · refine afterPairs_other fun hmem => ?_
      rcases hi with rfl | rfl
      · exact ha hmem
      · exact hb hmem
    · have hmem : ∀ {k}, k = pair.a ∨ k = pair.b → k ≠ first.a ∧ k ≠ first.b := by
        rintro k hk
        have hin : k ∈ paired pairs := mem_paired.mpr ⟨pair, hlater, hk⟩
        exact ⟨fun h => ha (h ▸ hin), fun h => hb (h ▸ hin)⟩
      rw [ih hrest hlater]
      refine afterPair_local ?_ ?_ hi
      · exact afterPair_other (hmem (.inl rfl)).1 (hmem (.inl rfl)).2
      · exact afterPair_other (hmem (.inr rfl)).1 (hmem (.inr rfl)).2

/-- The turns do not count rounds. -/
theorem afterPairs_roundNo (s : ServerState F) (pairs : List Pair) :
    (s.afterPairs pairs).roundNo = s.roundNo := by
  unfold ServerState.afterPairs
  induction pairs generalizing s with
  | nil => rfl
  | cons pair pairs ih =>
    rw [List.foldl_cons, ih]
    unfold ServerState.afterPair
    split <;> rfl

/-- Nobody changes its type during the turns. -/
theorem afterPairs_choice (s : ServerState F) (pairs : List Pair) (i : Slot) :
    ((s.afterPairs pairs).players i).choice = (s.players i).choice := by
  unfold ServerState.afterPairs
  induction pairs generalizing s with
  | nil => rfl
  | cons pair pairs ih => rw [List.foldl_cons, ih, afterPair_choice]

end Table

section Calls

/-- The buffers do not matter to a pair. -/
theorem afterPair_bare (s : ServerState F) (pair : Pair) :
    (s.afterPair pair).bare = s.bare.afterPair pair := by
  have hsame : decided s.bare pair = decided s pair := decided_congr rfl rfl
  unfold ServerState.afterPair
  rw [hsame]
  split
  · rfl
  · simp only [ServerState.beat, ServerState.bare_setPlayer, ServerState.setPlayer_players]
    refine congrArg _ ?_
    split <;> rfl

/-- The turns do not look at the buffers. -/
theorem afterPairs_bare (s : ServerState F) (pairs : List Pair) :
    (s.afterPairs pairs).bare = s.bare.afterPairs pairs := by
  unfold ServerState.afterPairs
  induction pairs generalizing s with
  | nil => rfl
  | cons pair pairs ih => rw [List.foldl_cons, List.foldl_cons, ih, afterPair_bare]

/-- A turn with a winner, if no line is refused. -/
theorem resolveWin_smooth (pair : Pair) (winner loser : Slot) (w : Server F) :
    Smooth w (resolveWin pair winner loser w) (w.state.beat winner loser)
      [.pairResolved winner loser] := by
  have hbeat : Smooth w (w.record (.pairResolved winner loser) (w.state.beat winner loser))
      (w.state.beat winner loser) [.pairResolved winner loser] := .record ..
  unfold resolveWin
  dsimp only
  generalize hu : w.record (.pairResolved winner loser) _ = u
  rw [show w.record (.pairResolved winner loser) (w.state.beat winner loser) = u from hu] at hbeat
  generalize hv : queueBroadcast _ u = v
  have hsaid : Smooth w v (w.state.beat winner loser) [.pairResolved winner loser] :=
    hbeat.andThen (hv ▸ queueBroadcast_smooth _ u)
  refine hsaid.andThen ?_
  split
  · obtain ⟨hcall, hsent⟩ := queueTo_smooth .checked .eliminated loser v
    split <;> rename_i z hq <;> rw [hq] at hcall hsent
    · exact hcall
    · have hdrop : Extends z (dropSilently loser z) :=
        (dropSlot_composed false loser z).extends
      refine ⟨hcall.log.trans hdrop, fun hun => ?_⟩
      cases hsent (hun.split hcall.log hdrop).1
  · exact .refl _

/-- One pair. -/
theorem resolvePair_smooth (w : Server F) (pair : Pair) :
    Smooth w (resolvePair w pair) (w.state.afterPair pair) (pairDeeds w.state pair) := by
  unfold resolvePair ServerState.afterPair pairDeeds decided
  dsimp only
  split
  · exact resolveWin_smooth ..
  · split
    · exact resolveWin_smooth ..
    · exact queueBroadcast_smooth ..

/-- All pairs. -/
theorem foldl_resolvePair_smooth (pairs : List Pair) (w : Server F) :
    Smooth w (pairs.foldl resolvePair w) (w.state.afterPairs pairs)
      (pairs.reverse.flatMap (pairDeeds w.state)) := by
  induction pairs generalizing w with
  | nil => exact .refl w
  | cons pair pairs ih =>
    have hdeeds : ∀ s : ServerState F, s.bare = (w.state.afterPair pair).bare →
        pairDeeds s = pairDeeds w.state := by
      rintro s hs
      funext other
      have hchoice : ∀ i, (s.players i).choice = (w.state.players i).choice := fun i =>
        (congrArg Player.choice (ServerState.bare_player hs i)).trans (afterPair_choice ..)
      unfold pairDeeds
      rw [decided_congr (hchoice _) (hchoice _)]
    have hone := resolvePair_smooth w pair
    rw [List.foldl_cons, List.reverse_cons, List.flatMap_append, List.flatMap_singleton]
    refine hone.trans (ih _).log fun hbare => ?_
    rw [← hdeeds _ hbare]
    refine (ih _).congr ?_
    rw [afterPairs_bare, hbare, ← afterPairs_bare]
    rfl

/-- The table when the round flags are cleared. -/
def ServerState.clearRound (s : ServerState F) : ServerState F :=
  { s with players := fun i => { s.players i with inRound := false } }

/-- The table after the decision at the end of the round. -/
def ServerState.conclude (now : ℤ) (s : ServerState F) : ServerState F :=
  if activeAliveCount s ≤ 1 then { s with phase := .gameOver }
  else if allAliveSameChoice s then s.beginRepicks
  else startRound now s

omit [CFloat F] in
/-- What the decision records. -/
def concludeDeeds (s : ServerState F) : List (Event F) :=
  if activeAliveCount s ≤ 1 then [.gameEnded]
  else if allAliveSameChoice s then []
  else [.roundStarted]

/-- The last part of the round. -/
theorem concludeRound_smooth (w : Server F) : ∃ now, Smooth w (concludeRound w)
    (w.state.clearRound.conclude now) (concludeDeeds w.state.clearRound) := by
  have hclear : Smooth w (broadcastPositions (w.record .roundCleared w.state.clearRound))
      w.state.clearRound [] :=
    (Smooth.record w .roundCleared _).andThen (broadcastPositions_smooth _)
  have hunfold : concludeRound w =
      (let v := broadcastPositions (w.record .roundCleared w.state.clearRound)
       if activeAliveCount v.state ≤ 1 then endGame v
       else if allAliveSameChoice v.state then beginRepicks v
       else startActiveRound v) := rfl
  rw [hunfold]
  generalize broadcastPositions (w.record .roundCleared w.state.clearRound) = v at hclear
  generalize w.state.clearRound = s at hclear
  dsimp only
  -- the flags of the table decide, and they are those of the table without buffers
  have hcount : ∀ t : ServerState F, activeAliveCount t = activeAliveCount t.bare := fun _ => rfl
  have hchoice : ∀ t : ServerState F, allAliveSameChoice t = allAliveSameChoice t.bare :=
    fun _ => rfl
  rw [← List.append_nil (concludeDeeds s)]
  refine ⟨v.time, hclear.trans ?_ fun hbare => ?_⟩
  · split
    · exact (endGame_smooth v).log
    · split
      · exact (beginRepicks_smooth v).log
      · exact (startActiveRound_smooth v).log
  · unfold ServerState.conclude concludeDeeds
    rw [hcount v.state, hchoice v.state, hbare, ← hcount, ← hchoice]
    split
    · refine (endGame_smooth v).congr ?_
      show { v.state.bare with phase := .gameOver } = { s.bare with phase := .gameOver }
      rw [hbare]
    · split
      · refine (beginRepicks_smooth v).congr ?_
        show v.state.bare.beginRepicks = s.bare.beginRepicks
        rw [hbare]
      · refine (startActiveRound_smooth v).congr ?_
        rw [startRound_bare, startRound_bare, hbare]

/-- A whole round in which no line is refused. -/
theorem resolveRound_smooth (w : Server F) : ∃ now, Smooth w (resolveRound w)
    ((w.state.afterPairs (roundPairs w)).clearRound.conclude now)
    (concludeDeeds (w.state.afterPairs (roundPairs w)).clearRound ++
      (roundPairs w).reverse.flatMap (pairDeeds w.state)) := by
  have hpairs : Smooth w (afterTurns w (roundPairs w)) (w.state.afterPairs (roundPairs w))
      ((roundPairs w).reverse.flatMap (pairDeeds w.state)) := by
    have hloop := foldl_resolvePair_smooth (roundPairs w) (w.record .resolving w.state)
    have hall : Smooth w (afterTurns w (roundPairs w)) (w.state.afterPairs (roundPairs w))
        ((roundPairs w).reverse.flatMap (pairDeeds w.state) ++ []) :=
      (Smooth.record w .resolving w.state).trans hloop.log fun _ => hloop
    rwa [List.append_nil] at hall
  have hbye : Smooth w (announceBye (buildPairs w.state (MAX_PLAYERS / 2)).2
      (afterTurns w (roundPairs w))) (w.state.afterPairs (roundPairs w))
      ((roundPairs w).reverse.flatMap (pairDeeds w.state)) := by
    refine hpairs.andThen ?_
    unfold announceBye
    split
    · exact .refl _
    · exact queueBroadcast_smooth ..
  rw [resolveRound_eq]
  generalize announceBye (buildPairs w.state (MAX_PLAYERS / 2)).2
    (afterTurns w (roundPairs w)) = u at hbye
  obtain ⟨now, hlast⟩ := concludeRound_smooth u
  refine ⟨now, hbye.trans hlast.log fun hbare => ?_⟩
  generalize w.state.afterPairs (roundPairs w) = t at hbare
  have hclear : u.state.clearRound.bare = t.clearRound.bare := by
    show u.state.bare.clearRound = t.bare.clearRound
    rw [hbare]
  have hconclude : ∀ s : ServerState F, (s.conclude now).bare = s.bare.conclude now := by
    intro s
    unfold ServerState.conclude
    rw [show activeAliveCount s.bare = activeAliveCount s from rfl,
      show allAliveSameChoice s.bare = allAliveSameChoice s from rfl]
    split
    · rfl
    · split
      · rfl
      · exact startRound_bare now s
  have hdeeds : ∀ s : ServerState F, concludeDeeds s.bare = concludeDeeds s := fun _ => rfl
  rw [← hdeeds, ← hclear, hdeeds]
  exact hlast.congr (by rw [hconclude, hconclude, hclear])

end Calls

section Outcome

/-- The event eliminates the player of the slot. -/
def Event.eliminates (i : Slot) : Event F → Bool
  | .pairResolved _ loser => loser == i
  | _ => false

/-- The player was eliminated in between. -/
def eliminated (w v : Server F) (i : Slot) : Bool :=
  (added w v).any fun x => x.event.eliminates i

/-- The players alive who were not. -/
def survivors (w v : Server F) : List Slot :=
  slots.filter fun i => (w.state.players i).isAlive && !eliminated w v i

/-- The position of a player. -/
def Player.position (p : Player F) : F × F := (p.x, p.y)

/-- The players of a pair have different choices. -/
def differ (s : ServerState F) (pair : Pair) : Bool :=
  (s.players pair.a).choice != (s.players pair.b).choice

/-- The outcome of a round: the eliminations, the positions and the next phase. -/
structure RoundOutcome (w v : Server F) : Prop where
  /-- The players of a pair are alive. -/
  pairAlive : ∀ pair ∈ roundPairs w,
    (w.state.players pair.a).isAlive = true ∧ (w.state.players pair.b).isAlive = true
  /-- Nobody is eliminated by a tie. -/
  tie : ∀ pair ∈ roundPairs w, differ w.state pair = false →
    eliminated w v pair.a = false ∧ eliminated w v pair.b = false
  /-- Of a pair of different choices one player is eliminated. -/
  loser : ∀ pair ∈ roundPairs w, differ w.state pair = true →
    eliminated w v pair.a = !eliminated w v pair.b
  /-- Nobody else is eliminated. -/
  others : ∀ i ∉ paired (roundPairs w), eliminated w v i = false
  /-- A survivor is alive at the end. -/
  alive : ∀ i ∈ survivors w v, (v.state.players i).isAlive = true
  /-- An eliminated player is not, unless it was waiting for the next round. -/
  gone : ∀ i, eliminated w v i = true → (w.state.players i).waiting = false →
    (v.state.players i).isAlive = false
  /-- One player less for each pair of different choices. -/
  count : (survivors w v).length + (roundPairs w).countP (differ w.state) =
    activeAliveCount w.state
  /-- At least half of the players survive. -/
  half : activeAliveCount w.state ≤ 2 * (survivors w v).length
  /-- Survivors are where somebody alive was. -/
  places : ∀ i ∈ survivors w v, ∃ k, (w.state.players k).isAlive = true ∧
    (v.state.players i).position = (w.state.players k).position
  /-- They are apart in every sense in which the players alive were. -/
  apart : ∀ differs : F × F → F × F → Prop,
    (∀ i j, (w.state.players i).isAlive = true → (w.state.players j).isAlive = true → i ≠ j →
      differs (w.state.players i).position (w.state.players j).position) →
    ∀ i ∈ survivors w v, ∀ j ∈ survivors w v, i ≠ j →
      differs (v.state.players i).position (v.state.players j).position
  /-- The match ends when at most one player survives. -/
  ended : v.state.phase = .gameOver ↔ (survivors w v).length ≤ 1
  /-- There is a repick when several survive with one choice. -/
  repick : v.state.phase = .repick ↔ 2 ≤ (survivors w v).length ∧
    ∀ i ∈ survivors w v, ∀ j ∈ survivors w v,
      (w.state.players i).choice = (w.state.players j).choice
  /-- Otherwise there is another round. -/
  round : v.state.phase ≠ .gameOver → v.state.phase ≠ .repick →
    v.state.phase = .roundActive ∧ v.state.roundNo = w.state.roundNo + 1

variable {s : ServerState F} {pairs : List Pair}

omit [CFloat F] in
/-- Somebody loses to the player of the slot. -/
def Loses (s : ServerState F) (pairs : List Pair) (i : Slot) : Prop :=
  ∃ pair ∈ pairs, ∃ winner, decided s pair = some (winner, i)

omit [CFloat F] in
/-- The recorded eliminations are those of the pairs. -/
theorem mem_pairDeeds {winner i : Slot} :
    Event.pairResolved winner i ∈ pairs.reverse.flatMap (pairDeeds s) ↔
      ∃ pair ∈ pairs, decided s pair = some (winner, i) := by
  simp only [List.mem_flatMap, List.mem_reverse]
  refine exists_congr fun pair => and_congr_right fun _ => ?_
  unfold pairDeeds
  cases decided s pair with
  | none => simp
  | some players => simp [eq_comm, Prod.ext_iff]

omit [CFloat F] in
/-- The two players of a pair differ. -/
theorem pair_ne (hpairs : (paired pairs).Nodup) {pair : Pair} (hpair : pair ∈ pairs) :
    pair.a ≠ pair.b := by
  induction pairs with
  | nil => cases hpair
  | cons first pairs ih =>
    have hsplit : paired (first :: pairs) = first.a :: first.b :: paired pairs := rfl
    rw [hsplit, List.nodup_cons, List.nodup_cons, List.mem_cons, not_or] at hpairs
    rcases List.mem_cons.mp hpair with rfl | hlater
    · exact hpairs.1.1
    · exact ih hpairs.2.2 hlater

omit [CFloat F] in
/-- Both players of a decided pair. -/
theorem decided_mem {pair : Pair} (hpair : pair ∈ pairs) {winner loser : Slot}
    (h : decided s pair = some (winner, loser)) :
    winner ∈ paired pairs ∧ loser ∈ paired pairs := by
  rcases decided_eq_some h with ⟨rfl, rfl⟩ | ⟨rfl, rfl⟩
  · exact ⟨mem_paired.mpr ⟨pair, hpair, .inl rfl⟩, mem_paired.mpr ⟨pair, hpair, .inr rfl⟩⟩
  · exact ⟨mem_paired.mpr ⟨pair, hpair, .inr rfl⟩, mem_paired.mpr ⟨pair, hpair, .inl rfl⟩⟩

/-- The two players of a decided pair, afterwards. -/
theorem afterPairs_decided (hpairs : (paired pairs).Nodup) {pair : Pair} (hpair : pair ∈ pairs)
    {winner loser : Slot} (h : decided s pair = some (winner, loser)) :
    (s.afterPairs pairs).players winner =
        { s.players winner with x := (s.players loser).x, y := (s.players loser).y } ∧
      ((s.afterPairs pairs).players loser) = { s.players loser with
        alive := false, inRound := false, x := CFloat.lit (-1), y := CFloat.lit (-1) } := by
  have hne := pair_ne hpairs hpair
  have hafter : s.afterPair pair = s.beat winner loser := by
    unfold ServerState.afterPair
    rw [h]
  rcases decided_eq_some h with ⟨rfl, rfl⟩ | ⟨rfl, rfl⟩
  · rw [afterPairs_pair hpairs hpair (.inl rfl), afterPairs_pair hpairs hpair (.inr rfl), hafter]
    exact ⟨beat_winner hne, beat_loser hne⟩
  · rw [afterPairs_pair hpairs hpair (.inr rfl), afterPairs_pair hpairs hpair (.inl rfl), hafter]
    exact ⟨beat_winner hne.symm, beat_loser hne.symm⟩

/-- What the pairs do to a slot: nothing, a move, or an elimination. -/
theorem afterPairs_cases (hpairs : (paired pairs).Nodup) (i : Slot) :
    ((∀ pair ∈ pairs, ∀ players, decided s pair = some players → i ≠ players.1 ∧ i ≠ players.2) ∧
        (s.afterPairs pairs).players i = s.players i) ∨
      (∃ pair ∈ pairs, ∃ loser, decided s pair = some (i, loser)) ∨
      Loses s pairs i := by
  by_cases hwin : ∃ pair ∈ pairs, ∃ loser, decided s pair = some (i, loser)
  · exact .inr (.inl hwin)
  · by_cases hlose : Loses s pairs i
    · exact .inr (.inr hlose)
    · refine .inl ⟨fun pair hpair players h => ?_, ?_⟩
      · constructor
        · rintro rfl
          exact hwin ⟨pair, hpair, players.2, h⟩
        · rintro rfl
          exact hlose ⟨pair, hpair, players.1, h⟩
      · by_cases hi : i ∈ paired pairs
        · obtain ⟨pair, hpair, hmem⟩ := mem_paired.mp hi
          rw [afterPairs_pair hpairs hpair hmem]
          unfold ServerState.afterPair
          split
          · rfl
          · rename_i winner loser h
            refine beat_other ?_ ?_
            · rintro rfl
              exact hwin ⟨pair, hpair, loser, h⟩
            · rintro rfl
              exact hlose ⟨pair, hpair, winner, h⟩
        · exact afterPairs_other hi

/-- Who is alive after the pairs. -/
theorem afterPairs_isAlive (hpairs : (paired pairs).Nodup) (i : Slot) :
    ((s.afterPairs pairs).players i).isAlive = true ↔
      (s.players i).isAlive = true ∧ ¬Loses s pairs i := by
  rcases afterPairs_cases (s := s) hpairs i with ⟨hnone, hsame⟩ | ⟨pair, hpair, loser, h⟩ | hlose
  · rw [hsame]
    refine ⟨fun hi => ⟨hi, ?_⟩, fun hi => hi.1⟩
    rintro ⟨pair, hpair, winner, h⟩
    exact (hnone pair hpair _ h).2 rfl
  · rw [(afterPairs_decided hpairs hpair h).1]
    refine ⟨fun hi => ⟨hi, ?_⟩, fun hi => hi.1⟩
    rintro ⟨other, hother, winner, h'⟩
    -- the winner of a pair is not the loser of another one
    have hdead := (afterPairs_decided hpairs hother h').2
    rw [(afterPairs_decided hpairs hpair h).1] at hdead
    have halive := congrArg Player.alive hdead
    have : (s.players i).alive = false := halive
    rw [Player.isAlive_iff] at hi
    cases this.symm.trans hi.2
  · obtain ⟨pair, hpair, winner, h⟩ := hlose
    rw [(afterPairs_decided hpairs hpair h).2]
    exact ⟨fun hi => by simp [Player.isAlive] at hi, fun hi => absurd ⟨pair, hpair, winner, h⟩ hi.2⟩

/-- Where a player alive is after the pairs: where it was, or where its opponent was. -/
theorem afterPairs_place (hpairs : (paired pairs).Nodup) {i : Slot}
    (hi : ((s.afterPairs pairs).players i).isAlive = true) :
    ∃ k, ((s.afterPairs pairs).players i).position = (s.players k).position ∧
      (k = i ∨ ∃ pair ∈ pairs, decided s pair = some (i, k)) := by
  rcases afterPairs_cases (s := s) hpairs i with ⟨_, hsame⟩ | ⟨pair, hpair, loser, h⟩ | hlose
  · exact ⟨i, by rw [hsame], .inl rfl⟩
  · exact ⟨loser, by rw [(afterPairs_decided hpairs hpair h).1]; rfl, .inr ⟨pair, hpair, h⟩⟩
  · exact absurd hlose ((afterPairs_isAlive hpairs i).mp hi).2

/-- Two players alive are not where the same player was. -/
theorem place_unique (hpairs : (paired pairs).Nodup) {i j k : Slot}
    (hi : ((s.afterPairs pairs).players i).isAlive = true)
    (hj : ((s.afterPairs pairs).players j).isAlive = true)
    (hik : k = i ∨ ∃ pair ∈ pairs, decided s pair = some (i, k))
    (hjk : k = j ∨ ∃ pair ∈ pairs, decided s pair = some (j, k)) : i = j := by
  have hlost := fun l (hl : ((s.afterPairs pairs).players l).isAlive = true) =>
    ((afterPairs_isAlive hpairs l).mp hl).2
  rcases hik with rfl | ⟨pair, hpair, h⟩
  · rcases hjk with rfl | ⟨pair, hpair, h⟩
    · rfl
    · exact absurd ⟨pair, hpair, j, h⟩ (hlost k hi)
  · rcases hjk with rfl | ⟨other, hother, h'⟩
    · exact absurd ⟨pair, hpair, i, h⟩ (hlost k hj)
    · -- the player who lost is in one pair only
      have hin : ∀ {q winner}, decided s q = some (winner, k) → k = q.a ∨ k = q.b := by
        rintro q winner hq
        rcases decided_eq_some hq with ⟨_, hk⟩ | ⟨_, hk⟩
        · exact .inr hk
        · exact .inl hk
      obtain ⟨q, _, honly⟩ := existsUnique_pair hpairs (decided_mem hpair h).2
      rw [honly pair ⟨hpair, hin h⟩, ← honly other ⟨hother, hin h'⟩, h'] at h
      cases h
      rfl

omit [CFloat F] in
/-- A test that fails for one player of some pairs and for nobody else. -/
theorem countP_paired {test : Slot → Bool} {split : Pair → Bool}
    (htie : ∀ pair ∈ pairs, split pair = false → test pair.a = true ∧ test pair.b = true)
    (hsplit : ∀ pair ∈ pairs, split pair = true → test pair.a = !test pair.b) :
    (paired pairs).countP test + pairs.countP split = 2 * pairs.length := by
  induction pairs with
  | nil => rfl
  | cons pair pairs ih =>
    have hrest := ih (fun q hq => htie q (List.mem_cons_of_mem _ hq))
      fun q hq => hsplit q (List.mem_cons_of_mem _ hq)
    have hunfold : paired (pair :: pairs) = pair.a :: pair.b :: paired pairs := rfl
    have htie' := htie pair List.mem_cons_self
    have hsplit' := hsplit pair List.mem_cons_self
    rw [hunfold, List.countP_cons, List.countP_cons, List.countP_cons, List.length_cons]
    cases hs : split pair with
    | false =>
      obtain ⟨ha, hb⟩ := htie' hs
      simp only [ha, hb, if_true, Bool.false_eq_true, if_false]
      omega
    | true =>
      rw [hsplit' hs]
      cases test pair.b <;>
        simp only [Bool.not_true, Bool.not_false, if_true, Bool.false_eq_true, if_false] <;> omega

omit [CFloat F] in
/-- All players alive share a choice. -/
theorem allAliveSameChoice_iff : allAliveSameChoice s = true ↔ 2 ≤ activeAliveCount s ∧
    ∀ i j, (s.players i).isAlive = true → (s.players j).isAlive = true →
      (s.players i).choice = (s.players j).choice := by
  have hmem : ∀ i, i ∈ slots.filter (fun i => (s.players i).isAlive) ↔
      (s.players i).isAlive = true := fun i => by
    rw [List.mem_filter]
    exact ⟨And.right, fun h => ⟨mem_slots i, h⟩⟩
  have hcount : activeAliveCount s = (slots.filter fun i => (s.players i).isAlive).length :=
    List.countP_eq_length_filter
  unfold allAliveSameChoice
  split
  · rename_i hnil
    rw [hcount, hnil]
    simp
  · rename_i first rest hcons
    rw [hcons] at hmem
    simp only [Bool.and_eq_true, List.all_eq_true, beq_iff_eq, decide_eq_true_eq]
    constructor
    · rintro ⟨hsame, htwo⟩
      have hfirst : ∀ i, (s.players i).isAlive = true →
          (s.players i).choice = (s.players first).choice := by
        rintro i hi
        rcases List.mem_cons.mp ((hmem i).mpr hi) with rfl | hrest
        · rfl
        · exact hsame i hrest
      exact ⟨htwo, fun i j hi hj => (hfirst i hi).trans (hfirst j hj).symm⟩
    · rintro ⟨htwo, hsame⟩
      refine ⟨fun i hi => hsame i first ?_ ?_, htwo⟩
      · exact (hmem i).mp (List.mem_cons_of_mem _ hi)
      · exact (hmem first).mp List.mem_cons_self

omit [CFloat F] in
/-- The decision at the end of the round moves nobody. -/
theorem conclude_player (now : ℤ) (s : ServerState F) (i : Slot) :
    ((s.conclude now).players i).position = (s.players i).position ∧
      ((s.players i).isAlive = true → ((s.conclude now).players i).isAlive = true) ∧
      ((s.players i).isAlive = false → (s.players i).waiting = false →
        ((s.conclude now).players i).isAlive = false) := by
  unfold ServerState.conclude
  split
  · exact ⟨rfl, id, fun h _ => h⟩
  · split
    · exact ⟨rfl, id, fun h _ => h⟩
    · have halive := (s.players i).enterRound_isAlive
      have hplace : (s.players i).enterRound.position = (s.players i).position := by
        unfold Player.enterRound Player.position
        dsimp only
        split <;> rfl
      refine ⟨hplace, fun h => ?_, fun h hw => ?_⟩
      · refine halive.trans ?_
        obtain ⟨hadm, hal⟩ := Player.isAlive_iff.mp h
        simp [Player.isContender, hadm, hal]
      · refine halive.trans ?_
        unfold Player.isContender
        rw [hw, Bool.or_false]
        exact h

omit [CFloat F] in
/-- The phase after the decision. -/
theorem conclude_phase (now : ℤ) (s : ServerState F) :
    ((s.conclude now).phase = .gameOver ↔ activeAliveCount s ≤ 1) ∧
      ((s.conclude now).phase = .repick ↔ allAliveSameChoice s = true) ∧
      ((s.conclude now).phase ≠ .gameOver → (s.conclude now).phase ≠ .repick →
        (s.conclude now).phase = .roundActive ∧ (s.conclude now).roundNo = s.roundNo + 1) := by
  unfold ServerState.conclude
  split
  · rename_i hfew
    refine ⟨⟨fun _ => hfew, fun _ => rfl⟩, ⟨nofun, fun h => ?_⟩, fun h => absurd rfl h⟩
    have := (allAliveSameChoice_iff.mp h).1
    omega
  · rename_i hmany
    split
    · rename_i hsame
      exact ⟨⟨nofun, fun h => absurd h hmany⟩, ⟨fun _ => hsame, fun _ => rfl⟩,
        fun _ h => absurd rfl h⟩
    · rename_i hsplit
      exact ⟨⟨nofun, fun h => absurd h hmany⟩, ⟨nofun, fun h => absurd h hsplit⟩,
        fun _ _ => ⟨rfl, rfl⟩⟩

omit [CFloat F] in
/-- A player of a pair loses in this pair or not at all. -/
theorem loses_iff (hpairs : (paired pairs).Nodup) {pair : Pair} (hpair : pair ∈ pairs) {i : Slot}
    (hi : i = pair.a ∨ i = pair.b) :
    Loses s pairs i ↔ ∃ winner, decided s pair = some (winner, i) := by
  constructor
  · rintro ⟨other, hother, winner, h⟩
    obtain ⟨q, _, honly⟩ := existsUnique_pair hpairs (mem_paired.mpr ⟨pair, hpair, hi⟩)
    have hin : i = other.a ∨ i = other.b := by
      rcases decided_eq_some h with ⟨_, hl⟩ | ⟨_, hl⟩
      · exact .inr hl
      · exact .inl hl
    rw [honly pair ⟨hpair, hi⟩, ← honly other ⟨hother, hin⟩]
    exact ⟨winner, h⟩
  · rintro ⟨winner, h⟩
    exact ⟨pair, hpair, winner, h⟩

omit [CFloat F] in
/-- Nobody loses a tie. -/
theorem not_loses_of_tie (hpairs : (paired pairs).Nodup) {pair : Pair} (hpair : pair ∈ pairs)
    (htie : differ s pair = false) : ¬Loses s pairs pair.a ∧ ¬Loses s pairs pair.b := by
  have hnone : decided s pair = none := decided_eq_none.mpr (by simpa [differ] using htie)
  rw [loses_iff hpairs hpair (.inl rfl), loses_iff hpairs hpair (.inr rfl), hnone]
  simp

omit [CFloat F] in
/-- Of a pair of different choices one player loses. -/
theorem loses_of_differ (hpairs : (paired pairs).Nodup) {pair : Pair} (hpair : pair ∈ pairs)
    (hsplit : differ s pair = true) : Loses s pairs pair.a ↔ ¬Loses s pairs pair.b := by
  have hne := pair_ne hpairs hpair
  have hsome : decided s pair ≠ none := by
    rw [Ne, decided_eq_none]
    simpa [differ] using hsplit
  obtain ⟨⟨winner, loser⟩, h⟩ := Option.ne_none_iff_exists'.mp hsome
  rw [loses_iff hpairs hpair (.inl rfl), loses_iff hpairs hpair (.inr rfl), h]
  rcases decided_eq_some h with ⟨rfl, rfl⟩ | ⟨rfl, rfl⟩
  · simp [hne.symm]
  · simp [hne]

omit [CFloat F] in
/-- The recorded eliminations are the losers of the pairs. -/
theorem eliminated_iff {w v : Server F} {s : ServerState F} {pairs : List Pair}
    (hdeeds : deeds (added w v) =
      concludeDeeds s ++ pairs.reverse.flatMap (pairDeeds w.state)) (i : Slot) :
    eliminated w v i = true ↔ Loses w.state pairs i := by
  have hevent : ∀ e : Event F, e.eliminates i = true ↔ ∃ winner, e = .pairResolved winner i := by
    intro e
    constructor
    · intro h
      cases e with
      | pairResolved winner loser =>
        obtain rfl : loser = i := by simpa [Event.eliminates] using h
        exact ⟨winner, rfl⟩
      | _ => cases h
    · rintro ⟨winner, rfl⟩
      simp [Event.eliminates]
  have hlast : ∀ winner, Event.pairResolved winner i ∉ concludeDeeds s := by
    intro winner
    unfold concludeDeeds
    split
    · simp
    · split <;> simp
  unfold eliminated Loses
  simp only [List.any_eq_true, hevent]
  constructor
  · rintro ⟨x, hx, winner, h⟩
    have hmem : Event.pairResolved winner i ∈ deeds (added w v) := (mem_deeds rfl).mpr ⟨x, hx, h⟩
    rw [hdeeds, List.mem_append] at hmem
    obtain ⟨pair, hpair, h'⟩ := mem_pairDeeds.mp (hmem.resolve_left (hlast winner))
    exact ⟨pair, hpair, winner, h'⟩
  · rintro ⟨pair, hpair, winner, h⟩
    have hmem : Event.pairResolved winner i ∈ deeds (added w v) := by
      rw [hdeeds, List.mem_append]
      exact .inr (mem_pairDeeds.mpr ⟨pair, hpair, h⟩)
    obtain ⟨x, hx, h'⟩ := (mem_deeds rfl).mp hmem
    exact ⟨x, hx, winner, h'⟩

/-- The table and the record after a round in which no line was refused. -/
structure PlayedOut (w v : Server F) (now : ℤ) : Prop where
  /-- The table, up to the buffers. -/
  table : v.state.bare = ((w.state.afterPairs (roundPairs w)).clearRound.conclude now).bare
  /-- Eliminated are the losers of the pairs. -/
  losers : ∀ i, eliminated w v i = true ↔ Loses w.state (roundPairs w) i

/-- Such a round. -/
theorem resolveRound_playedOut {w : Server F}
    (hsent : ∀ x ∈ added w (resolveRound w), x.event.fails = false) :
    ∃ now, PlayedOut w (resolveRound w) now := by
  obtain ⟨now, hsmooth⟩ := resolveRound_smooth w
  obtain ⟨hbare, hdeeds⟩ := hsmooth.run hsent
  exact ⟨now, hbare, eliminated_iff hdeeds⟩

/-- The pairs and the player who is left over are the players of the round. -/
theorem roundPairs_perm (w : Server F) :
    ∃ bye, (paired (roundPairs w) ++ bye).Perm (eligible w.state) :=
  ⟨_, (buildPairs_perm w.state (le_refl (MAX_PLAYERS / 2))).1⟩

/-- Nobody is in two pairs of a round. -/
theorem roundPairs_nodup (w : Server F) : (paired (roundPairs w)).Nodup := by
  obtain ⟨bye, hperm⟩ := roundPairs_perm w
  exact (List.nodup_append.mp ((hperm.nodup_iff).mpr (eligible_nodup w.state))).1

/-- The players of the pairs are alive. -/
theorem isAlive_of_paired {w : Server F} {i : Slot} (hi : i ∈ paired (roundPairs w)) :
    (w.state.players i).isAlive = true := by
  obtain ⟨bye, hperm⟩ := roundPairs_perm w
  exact (mem_eligible.mp ((hperm.mem_iff).mp (List.mem_append_left _ hi))).1

variable {w v : Server F} {now : ℤ}

/-- Who is in no pair is not eliminated. -/
theorem PlayedOut.others (h : PlayedOut w v now) {i : Slot} (hi : i ∉ paired (roundPairs w)) :
    eliminated w v i = false := by
  rw [← Bool.not_eq_true, h.losers]
  rintro ⟨pair, hpair, winner, hlost⟩
  exact hi (decided_mem hpair hlost).2

/-- A tie eliminates neither player. -/
theorem PlayedOut.tie (h : PlayedOut w v now) {pair : Pair} (hpair : pair ∈ roundPairs w)
    (htie : differ w.state pair = false) :
    eliminated w v pair.a = false ∧ eliminated w v pair.b = false := by
  rw [← Bool.not_eq_true, ← Bool.not_eq_true, h.losers, h.losers]
  exact not_loses_of_tie (roundPairs_nodup w) hpair htie

/-- Where the types differ, exactly one of the two is eliminated. -/
theorem PlayedOut.loser (h : PlayedOut w v now) {pair : Pair} (hpair : pair ∈ roundPairs w)
    (hsplit : differ w.state pair = true) :
    eliminated w v pair.a = !eliminated w v pair.b := by
  rw [Bool.eq_iff_iff, Bool.not_eq_true', ← Bool.not_eq_true, h.losers, h.losers]
  exact loses_of_differ (roundPairs_nodup w) hpair hsplit

/-- The survivors are the players alive after the pairs. -/
theorem PlayedOut.isAlive_eq (h : PlayedOut w v now) (i : Slot) :
    ((w.state.afterPairs (roundPairs w)).players i).isAlive =
      ((w.state.players i).isAlive && !eliminated w v i) := by
  rw [Bool.eq_iff_iff, afterPairs_isAlive (roundPairs_nodup w), ← h.losers, Bool.and_eq_true,
    Bool.not_eq_true', Bool.not_eq_true]

/-- The survivors are those who are alive after the round. -/
theorem PlayedOut.mem_survivors (h : PlayedOut w v now) {i : Slot} :
    i ∈ survivors w v ↔
      ((w.state.afterPairs (roundPairs w)).players i).isAlive = true := by
  rw [h.isAlive_eq]
  unfold survivors
  rw [List.mem_filter]
  exact ⟨And.right, fun hi => ⟨mem_slots i, hi⟩⟩

/-- The survivors are counted after the round. -/
theorem PlayedOut.count (h : PlayedOut w v now) :
    activeAliveCount (w.state.afterPairs (roundPairs w)).clearRound =
      (survivors w v).length := by
  show slots.countP (fun i => ((w.state.afterPairs (roundPairs w)).players i).isAlive) = _
  unfold survivors
  rw [List.countP_eq_length_filter]
  exact congrArg List.length (List.filter_congr fun i _ => h.isAlive_eq i)

/-- Of n players one is eliminated for each pair of different choices, at most half of them. -/
theorem PlayedOut.total (h : PlayedOut w v now)
    (hround : ∀ i, (w.state.players i).isAlive = true → (w.state.players i).inRound = true) :
    (survivors w v).length + (roundPairs w).countP (differ w.state) =
        activeAliveCount w.state ∧
      activeAliveCount w.state ≤ 2 * (survivors w v).length := by
  obtain ⟨bye, hperm⟩ := roundPairs_perm w
  have hplayers : eligible w.state = slots.filter fun i => (w.state.players i).isAlive := by
    refine List.filter_congr fun i _ => ?_
    by_cases hi : (w.state.players i).isAlive = true
    · rw [hi, hround i hi, Bool.true_and]
    · rw [Bool.not_eq_true] at hi
      rw [hi, Bool.false_and]
  have hall : activeAliveCount w.state = (eligible w.state).length := by
    rw [hplayers]
    exact List.countP_eq_length_filter
  have hleft : (survivors w v).length = (eligible w.state).countP (!eliminated w v ·) := by
    rw [hplayers, List.countP_filter, List.countP_eq_length_filter]
    exact congrArg List.length (List.filter_congr fun i _ => Bool.and_comm ..)
  -- the player who is left over survives
  have hfree : ∀ i ∈ bye, (!eliminated w v i) = true := by
    rintro i hi
    have hnodup := (hperm.nodup_iff).mpr (eligible_nodup w.state)
    rw [h.others fun hmem => (List.nodup_append.mp hnodup).2.2 i hmem i hi rfl]
    rfl
  have hpairs : (paired (roundPairs w)).countP (!eliminated w v ·) +
      (roundPairs w).countP (differ w.state) = 2 * (roundPairs w).length :=
    countP_paired (fun pair hpair htie => by simp [h.tie hpair htie])
      fun pair hpair hsplit => by simp [h.loser hpair hsplit]
  have hle := (roundPairs w).countP_le_length (p := differ w.state)
  have hlength := hperm.length_eq
  rw [hall, hleft, ← hperm.countP_eq, List.countP_append, List.countP_eq_length.mpr hfree,
    ← hlength, List.length_append, paired_length]
  omega

/-- The entry of a player after the round. -/
theorem PlayedOut.player (h : PlayedOut w v now) (i : Slot) : (v.state.players i).bare =
    (((w.state.afterPairs (roundPairs w)).clearRound.conclude now).players i).bare :=
  ServerState.bare_player h.table i

/-- A survivor is alive. -/
theorem PlayedOut.alive (h : PlayedOut w v now) {i : Slot} (hi : i ∈ survivors w v) :
    (v.state.players i).isAlive = true := by
  show (v.state.players i).bare.isAlive = true
  rw [h.player i]
  exact (conclude_player now _ i).2.1 (h.mem_survivors.mp hi)

/-- Who was eliminated is not alive. -/
theorem PlayedOut.gone (h : PlayedOut w v now) {i : Slot} (hi : eliminated w v i = true)
    (hwaiting : (w.state.players i).waiting = false) :
    (v.state.players i).isAlive = false := by
  show (v.state.players i).bare.isAlive = false
  rw [h.player i]
  refine (conclude_player now _ i).2.2 ?_ ?_
  · show ((w.state.afterPairs (roundPairs w)).players i).isAlive = false
    rw [h.isAlive_eq, hi, Bool.not_true, Bool.and_false]
  · show ((w.state.afterPairs (roundPairs w)).players i).waiting = false
    obtain ⟨pair, hpair, winner, hlost⟩ := (h.losers i).mp hi
    rw [(afterPairs_decided (roundPairs_nodup w) hpair hlost).2]
    exact hwaiting

/-- Where a survivor is. -/
theorem PlayedOut.source (h : PlayedOut w v now) {i : Slot} (hi : i ∈ survivors w v) :
    ∃ k, (w.state.players k).isAlive = true ∧
      (v.state.players i).position = (w.state.players k).position ∧
      (k = i ∨ ∃ pair ∈ roundPairs w, decided w.state pair = some (i, k)) := by
  have halive := h.mem_survivors.mp hi
  obtain ⟨k, hk, hfrom⟩ := afterPairs_place (roundPairs_nodup w) halive
  have hsame : (v.state.players i).position =
      ((w.state.afterPairs (roundPairs w)).players i).position := by
    show (v.state.players i).bare.position = _
    rw [h.player i]
    exact (conclude_player now _ i).1
  refine ⟨k, ?_, hsame.trans hk, hfrom⟩
  rcases hfrom with rfl | ⟨pair, hpair, hlost⟩
  · exact ((afterPairs_isAlive (roundPairs_nodup w) k).mp halive).1
  · exact isAlive_of_paired (decided_mem hpair hlost).2

/-- Survivors are apart in every sense in which the players alive were. -/
theorem PlayedOut.apart (h : PlayedOut w v now) {differs : F × F → F × F → Prop}
    (happart : ∀ i j, (w.state.players i).isAlive = true → (w.state.players j).isAlive = true →
      i ≠ j → differs (w.state.players i).position (w.state.players j).position)
    {i j : Slot} (hi : i ∈ survivors w v) (hj : j ∈ survivors w v) (hij : i ≠ j) :
    differs (v.state.players i).position (v.state.players j).position := by
  obtain ⟨k, hk, hki, hfrom⟩ := h.source hi
  obtain ⟨l, hl, hlj, hfrom'⟩ := h.source hj
  rw [hki, hlj]
  refine happart k l hk hl fun hkl => hij ?_
  subst hkl
  exact place_unique (roundPairs_nodup w) (h.mem_survivors.mp hi) (h.mem_survivors.mp hj)
    hfrom hfrom'

/-- The decision at the end is about the survivors. -/
theorem PlayedOut.phase (h : PlayedOut w v now) :
    (v.state.phase = .gameOver ↔ (survivors w v).length ≤ 1) ∧
      (v.state.phase = .repick ↔ 2 ≤ (survivors w v).length ∧
        ∀ i ∈ survivors w v, ∀ j ∈ survivors w v,
          (w.state.players i).choice = (w.state.players j).choice) ∧
      (v.state.phase ≠ .gameOver → v.state.phase ≠ .repick →
        v.state.phase = .roundActive ∧ v.state.roundNo = w.state.roundNo + 1) := by
  obtain ⟨hover, hrepick, hnext⟩ :=
    conclude_phase now (w.state.afterPairs (roundPairs w)).clearRound
  have hphase : v.state.phase =
      ((w.state.afterPairs (roundPairs w)).clearRound.conclude now).phase := by
    show v.state.bare.phase = _
    rw [h.table]
    rfl
  have hroundNo : v.state.roundNo =
      ((w.state.afterPairs (roundPairs w)).clearRound.conclude now).roundNo := by
    show v.state.bare.roundNo = _
    rw [h.table]
    rfl
  have hchoice := afterPairs_choice w.state (roundPairs w)
  rw [hphase, hroundNo]
  refine ⟨?_, ?_, fun hgo hre => ?_⟩
  · rw [hover, h.count]
  · rw [hrepick, allAliveSameChoice_iff, h.count]
    simp only [h.mem_survivors]
    refine and_congr_right fun _ => ⟨fun hsame i hi j hj => ?_, fun hsame i j hi hj => ?_⟩
    · rw [← hchoice, ← hchoice]
      exact hsame i j hi hj
    · show ((w.state.afterPairs (roundPairs w)).players i).choice =
        ((w.state.afterPairs (roundPairs w)).players j).choice
      rw [hchoice, hchoice]
      exact hsame i hi j hj
  · obtain ⟨hactive, hnumber⟩ := hnext hgo hre
    refine ⟨hactive, hnumber.trans ?_⟩
    show (w.state.afterPairs (roundPairs w)).roundNo + 1 = w.state.roundNo + 1
    rw [afterPairs_roundNo]

/-- A round in which no line is refused: one elimination for each pair of different choices,
survivors in different places, and the phase that the survivors call for. -/
theorem resolveRound_outcome {w : Server F}
    (hround : ∀ i, (w.state.players i).isAlive = true → (w.state.players i).inRound = true)
    (hsent : ∀ x ∈ added w (resolveRound w), x.event.fails = false) :
    RoundOutcome w (resolveRound w) := by
  obtain ⟨now, h⟩ := resolveRound_playedOut hsent
  obtain ⟨hover, hrepick, hnext⟩ := h.phase
  obtain ⟨hcount, hhalf⟩ := h.total hround
  exact {
    pairAlive := fun pair hpair =>
      ⟨isAlive_of_paired (mem_paired.mpr ⟨pair, hpair, .inl rfl⟩),
        isAlive_of_paired (mem_paired.mpr ⟨pair, hpair, .inr rfl⟩)⟩
    tie := fun pair hpair => h.tie hpair
    loser := fun pair hpair => h.loser hpair
    others := fun i => h.others
    alive := fun i => h.alive
    gone := fun i => h.gone
    count := hcount
    half := hhalf
    places := fun i hi => by
      obtain ⟨k, hk, hplace, _⟩ := h.source hi
      exact ⟨k, hk, hplace⟩
    apart := fun differs happart i hi j hj => h.apart happart hi hj
    ended := hover
    repick := hrepick
    round := hnext }

/-- The round of two players. -/
theorem resolveRound_outcome_duel :
    RoundOutcome (serverAfter (lateClock 60) duel)
      (resolveRound (serverAfter (lateClock 60) duel)) :=
  resolveRound_outcome (by decide +kernel) (by decide +kernel)

end Outcome

end BattleRoyale
