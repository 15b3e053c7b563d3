import BattleRoyale.RepickEnd

/-!
# Which pairs still meet

Every turn of `resolve_round` broadcasts a line, and a client without room for it is dropped.
The drops may end the match, whose result lines may drop more clients. All of that is a
function of the player table, so the table before the call tells which pairs are down to one
player when their turn comes: exactly then the round is resolved unfairly.
-/

namespace BattleRoyale

open Recorded

variable {F : Type} [CFloat F]

/-- The broadcast of a line drops somebody, and leaves no match to go on. -/
def EndsRound (line : ServerLine F) (s : ServerState F) : Prop :=
  overflows line s ∧
    (activeAliveCount (s.broadcast line) ≤ 1 ∨ countAliveChoiceTypes (s.broadcast line) ≤ 1)

instance (line : ServerLine F) (s : ServerState F) : Decidable (EndsRound line s) :=
  inferInstanceAs (Decidable (_ ∧ _))

/-- The table after a broadcast that may end a round. -/
def ServerState.roundLine (line : ServerLine F) (s : ServerState F) : ServerState F :=
  if s.phase = .roundActive ∧ EndsRound line s then (s.broadcast line).ended
  else s.broadcast line

/-- The table after a pair has a winner, before anybody is told. -/
def ServerState.won (winner loser : Slot) (s : ServerState F) : ServerState F :=
  let t := s.setPlayer winner
    { s.players winner with x := (s.players loser).x, y := (s.players loser).y }
  t.setPlayer loser
    { t.players loser with
      alive := false, inRound := false, x := CFloat.lit (-1), y := CFloat.lit (-1) }

/-- The line about the winner. -/
def ServerState.winLine (pair : Pair) (winner : Slot) (s : ServerState F) : ServerLine F :=
  .pairWinner (s.players pair.a).name (s.players pair.b).name (s.players pair.a).choice
    (s.players pair.b).choice (s.players winner).name (s.players winner).x (s.players winner).y

/-- The loser is told, if it is there, and dropped where it has no room for the line. -/
def ServerState.tellLoser (loser : Slot) (s : ServerState F) : ServerState F :=
  if (s.players loser).connected then
    s.setPlayer loser (((s.players loser).queueVia .checked .eliminated).getD Player.cleared)
  else s

/-- The table after the turn of a pair with this winner. -/
def ServerState.afterWin (pair : Pair) (winner loser : Slot) (s : ServerState F) :
    ServerState F :=
  let t := s.won winner loser
  (t.roundLine (t.winLine pair winner)).tellLoser loser

/-- The table after the turn of a pair. -/
def ServerState.afterTurn (s : ServerState F) (pair : Pair) : ServerState F :=
  let a := s.players pair.a
  let b := s.players pair.b
  if rpsResult a.choice b.choice = 1 then s.afterWin pair pair.a pair.b
  else if rpsResult a.choice b.choice = -1 then s.afterWin pair pair.b pair.a
  else s.roundLine (.pairTie a.name b.name a.choice b.choice)

/-- Each of the pairs is complete or gone when its turn comes, on the table that the turns
before it leave. -/
def PairsMeet : List Pair → ServerState F → Prop
  | [], _ => True
  | pair :: pairs, s =>
    (s.players pair.a).connected = (s.players pair.b).connected ∧
      PairsMeet pairs (s.afterTurn pair)

instance PairsMeet.decide : (pairs : List Pair) → (s : ServerState F) →
    Decidable (PairsMeet pairs s)
  | [], _ => isTrue trivial
  | pair :: pairs, s =>
    have := PairsMeet.decide pairs (s.afterTurn pair)
    inferInstanceAs (Decidable (_ ∧ _))

/-- The phases in which the pairs are announced: the match goes on, or a drop has ended it. -/
def Pairing (s : ServerState F) : Prop := s.phase = .roundActive ∨ s.phase = .gameOver

/-- A broadcast between the turns. -/
theorem queueBroadcast_roundLine (line : ServerLine F) {w : Server F} (hw : Pairing w.state) :
    (queueBroadcast line w).state = w.state.roundLine line ∧
      Pairing (queueBroadcast line w).state := by
  obtain ⟨v, hv, _, hfit, hover⟩ := queueBroadcastWith_eq reevaluateState line w
  unfold ServerState.roundLine queueBroadcast
  by_cases hfull : overflows line w.state
  · rw [hover hfull]
    rcases hw with hphase | hphase
    · have hround : v.state.phase = .roundActive := hv ▸ hphase
      rw [reevaluateState_round hround, hv]
      by_cases hfew : activeAliveCount (w.state.broadcast line) ≤ 1 ∨
          countAliveChoiceTypes (w.state.broadcast line) ≤ 1
      · rw [if_pos hfew, if_pos ⟨hphase, hfull, hfew⟩, endGame_state, hv]
        exact ⟨rfl, .inr rfl⟩
      · rw [if_neg hfew, if_neg fun h => hfew h.2.2, hv]
        exact ⟨rfl, .inl hphase⟩
    · have hended : v.state.phase = .gameOver := hv ▸ hphase
      rw [reevaluateState_over hended, if_neg (by simp [hphase]), hv]
      exact ⟨rfl, .inr hphase⟩
  · rw [hfit hfull, if_neg fun h => hfull h.2.1, hv]
    exact ⟨rfl, hw⟩

/-- The line for the loser. -/
theorem tellLoser_state (loser : Slot) (w : Server F) :
    (if (w.state.players loser).connected = true then
      match queueTo .checked .eliminated loser w with
      | (true, w) => w
      | (false, w) => dropSilently loser w
    else w).state = w.state.tellLoser loser := by
  unfold ServerState.tellLoser
  split
  · rename_i hconn
    unfold queueTo
    cases hq : (w.state.players loser).queueVia .checked .eliminated with
    | some p => rfl
    | none =>
      simp only [dropSilently, Option.getD_none]
      rw [dropSlot_of_connected (by rwa [System.record_state])]
      rfl
  · rfl

theorem tellLoser_phase (loser : Slot) (s : ServerState F) :
    (s.tellLoser loser).phase = s.phase := by
  unfold ServerState.tellLoser
  split <;> rfl

/-- A turn with a winner. -/
theorem resolveWin_afterWin (pair : Pair) (winner loser : Slot) {w : Server F}
    (hw : Pairing w.state) :
    (resolveWin pair winner loser w).state = w.state.afterWin pair winner loser ∧
      Pairing (resolveWin pair winner loser w).state := by
  have hwon : Pairing (w.record (.pairResolved winner loser)
      (w.state.won winner loser)).state := hw
  obtain ⟨htold, hphase⟩ := queueBroadcast_roundLine
    ((w.state.won winner loser).winLine pair winner) hwon
  have hturn : (resolveWin pair winner loser w).state =
      (queueBroadcast ((w.state.won winner loser).winLine pair winner)
        (w.record (.pairResolved winner loser) (w.state.won winner loser))).state.tellLoser
          loser := by
    unfold resolveWin
    simp only
    generalize hu : w.record (.pairResolved winner loser) _ = u
    have hsame : w.record (.pairResolved winner loser) (w.state.won winner loser) = u := hu
    have hstate : w.state.won winner loser = u.state := by rw [← hsame, System.record_state]
    rw [hsame, hstate, ServerState.winLine]
    generalize queueBroadcast _ u = v
    exact tellLoser_state loser v
  rw [hturn]
  rw [htold] at hphase ⊢
  refine ⟨rfl, ?_⟩
  unfold Pairing
  rw [tellLoser_phase]
  exact hphase

/-- The turn of a pair, on the table. -/
theorem resolvePair_afterTurn (pair : Pair) {w : Server F} (hw : Pairing w.state) :
    (resolvePair w pair).state = w.state.afterTurn pair ∧
      Pairing (resolvePair w pair).state := by
  unfold resolvePair ServerState.afterTurn
  dsimp only
  split
  · exact resolveWin_afterWin pair pair.a pair.b hw
  · split
    · exact resolveWin_afterWin pair pair.b pair.a hw
    · exact queueBroadcast_roundLine _ hw

/-- The pairs meet, from the turn of any pair on, exactly if each of them does at its turn. -/
theorem pairsMeet_iff (pairs : List Pair) {w : Server F} (hw : Pairing w.state) :
    PairsMeet pairs w.state ↔ ∀ pre pair post, pairs = pre ++ pair :: post →
      ((pre.foldl resolvePair w).state.players pair.a).connected =
        ((pre.foldl resolvePair w).state.players pair.b).connected := by
  induction pairs generalizing w with
  | nil => exact ⟨fun _ pre pair post h => by simp at h, fun _ => trivial⟩
  | cons first pairs ih =>
    obtain ⟨hstate, hnext⟩ := resolvePair_afterTurn first hw
    rw [PairsMeet, ← hstate, ih hnext]
    constructor
    · rintro ⟨hfirst, hrest⟩ pre pair post hsplit
      cases pre with
      | nil =>
        obtain ⟨rfl, rfl⟩ := List.cons.inj hsplit
        exact hfirst
      | cons _ pre =>
        obtain ⟨rfl, rfl⟩ := List.cons.inj hsplit
        exact hrest pre pair post rfl
    · intro h
      refine ⟨h [] first pairs rfl, fun pre pair post hsplit => ?_⟩
      exact h (first :: pre) pair post (by rw [hsplit]; rfl)

/-- A round is resolved fairly exactly when no line of an earlier turn leaves one player
alone in a pair, as the table before the call tells. -/
theorem fairly_resolved_iff {w : Server F} (hw : Inv w) (hphase : w.state.phase = .roundActive) :
    FairlyResolved w ↔ PairsMeet (buildPairs w.state (MAX_PLAYERS / 2)).1 w.state := by
  have hstart : Pairing (w.record .resolving w.state).state := .inl hphase
  rw [fairlyResolved_iff_turns hw hphase]
  refine Iff.trans ?_ (pairsMeet_iff _ hstart).symm
  constructor
  · exact fun h pre pair post hsplit => h _ pair ⟨pre, post, hsplit, rfl⟩
  · rintro h v pair ⟨pre, post, hsplit, rfl⟩
    exact h pre pair post hsplit

/-- The round of two players is resolved fairly: nobody is missing from the pair. -/
theorem fairly_resolved_iff_duel : FairlyResolved (serverAfter (lateClock 60) duel) :=
  (fairly_resolved_iff duel_reached.inv duel_phase).mpr (by decide +kernel)

end BattleRoyale
