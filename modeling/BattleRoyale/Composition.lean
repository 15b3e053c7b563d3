import BattleRoyale.StepRefinement

/-!
# What a step is made of

However deep the calls of the server are nested, a step is made of three kinds of pieces,
one after another: complete broadcasts, which are offered to everybody before anybody is
dropped; snapshots, after which the client is dropped if it had no room for one of their
lines; and single actions. So what every piece keeps, every run keeps.
-/

namespace BattleRoyale

open Recorded

variable {F : Type}

/-- A line of `queue_broadcast` was queued. -/
def Event.isBroadcast : Event F → Bool
  | .queued _ .broadcast _ => true
  | _ => false

/-- A connection took the slot. -/
def Event.accepts (i : Slot) : Event F → Bool
  | .accepted j => j == i
  | _ => false

/-- The line opens a snapshot. -/
def ServerLine.beginsSnapshot : ServerLine F → Bool
  | .stateBegin => true
  | _ => false

/-- A line was queued that opens a snapshot. -/
def Event.beginsSnapshot : Event F → Bool
  | .queued _ _ line => line.beginsSnapshot
  | _ => false

variable [CFloat F]

/-- A snapshot for the client of slot `i`, which is dropped if it had no room. -/
def sendSnapshot (i : Slot) (w : Server F) : Server F :=
  match queueGameStateForPlayer i w with
  | (true, w) => w
  | (false, w) => dropSilently i w

/-- Complete broadcasts, snapshots, and single actions that connect nobody but a new
client. -/
inductive Composed : Server F → Server F → Prop
  | refl (w : Server F) : Composed w w
  | quiet {w v : Server F} {e : Event F} {s : ServerState F} : Composed w v →
      e.isBroadcast = false → e.beginsSnapshot = false →
      (∀ k, e.accepts k = false → (s.players k).connected = true →
        (v.state.players k).connected = true) → Composed w (v.record e s)
  | broadcast {w v : Server F} (line : ServerLine F) : Composed w v →
      line.beginsSnapshot = false →
      Composed w (dropAll (offerAll line v).1 (offerAll line v).2)
  | snapshot {w v : Server F} (i : Slot) : Composed w v →
      (v.state.players i).connected = true → Composed w (sendSnapshot i v)

section Calls

/-- One after another. -/
theorem Composed.trans {u v w : Server F} (h : Composed u v) (hnext : Composed v w) :
    Composed u w := by
  induction hnext with
  | refl => exact h
  | quiet _ he hb hs ih => exact .quiet ih he hb hs
  | broadcast line _ hline ih => exact .broadcast line ih hline
  | snapshot i _ hconn ih => exact .snapshot i ih hconn

/-- A loop of such calls. -/
theorem Composed.foldl {α : Type} {f : Server F → α → Server F} (hf : ∀ w a, Composed w (f w a))
    (as : List α) (w : Server F) : Composed w (as.foldl f w) := by
  induction as generalizing w with
  | nil => exact .refl w
  | cons a as ih => exact (hf w a).trans (ih (f w a))

/-- An action that connects nobody. -/
theorem Composed.record {w : Server F} {e : Event F} {s : ServerState F}
    (he : e.isBroadcast = false) (hb : e.beginsSnapshot = false)
    (hs : ∀ k, (s.players k).connected = true → (w.state.players k).connected = true) :
    Composed w (w.record e s) := .quiet (.refl w) he hb fun k _ => hs k

/-- An assignment to one slot. -/
theorem Composed.assign {w : Server F} {e : Event F} {i : Slot} {p : Player F}
    (he : e.isBroadcast = false) (hb : e.beginsSnapshot = false)
    (hp : p.connected = true → (w.state.players i).connected = true) :
    Composed w (w.record e (w.state.setPlayer i p)) := by
  refine .record he hb fun k hk => ?_
  rw [ServerState.setPlayer_players] at hk
  split at hk
  · rename_i hki
    rw [hki]
    exact hp hk
  · exact hk

/-- One call of `queue_line` outside of a broadcast and of a snapshot. -/
theorem queueTo_composed (via : Via) (hvia : via ≠ .broadcast) (line : ServerLine F)
    (hline : line.beginsSnapshot = false) (i : Slot) (w : Server F) :
    Composed w (queueTo via line i w).2 := by
  have hquiet : (Event.queued i via line).isBroadcast = false := by
    cases via with
    | broadcast => exact absurd rfl hvia
    | _ => rfl
  unfold queueTo
  split
  · rename_i p hp
    rw [Player.queueVia_eq_some hp]
    exact .assign hquiet hline fun h => h
  · exact .record rfl rfl fun _ h => h

/-- Several lines in a row. -/
theorem queueSeq_composed (via : Via) (hvia : via ≠ .broadcast)
    (lines : List (Server F → ServerLine F))
    (hlines : ∀ line ∈ lines, ∀ u, (line u).beginsSnapshot = false) (i : Slot) (w : Server F) :
    Composed w (queueSeq via lines i w).2 := by
  induction lines generalizing w with
  | nil => exact .refl w
  | cons line lines ih =>
    obtain ⟨hline, hrest⟩ := List.forall_mem_cons.mp hlines
    have hcall := queueTo_composed via hvia (line w) (hline w) i w
    unfold queueSeq
    split <;> rename_i v hq <;> rw [hq] at hcall
    · exact hcall.trans (ih hrest v)
    · exact hcall

/-- A reply. -/
theorem reply_composed (line : ServerLine F) (hline : line.beginsSnapshot = false) (i : Slot)
    (w : Server F) : Composed w (reply line i w) :=
  queueTo_composed .line nofun line hline i w

/-- `drop_player` up to its announcement. -/
theorem dropSlot_composed (announce : Bool) (i : Slot) (w : Server F) :
    Composed w (dropSlot announce i w) := by
  unfold dropSlot
  split
  · rename_i hconn
    exact .assign rfl rfl fun _ => hconn
  · exact .refl w

/-- The loop of `end_game` at one slot. -/
theorem announceResult_composed (w : Server F) (i : Slot) : Composed w (announceResult w i) := by
  have hcall : Composed w (queueGameOverResult i w).2 := by
    unfold queueGameOverResult
    split
    · exact .refl w
    · exact queueTo_composed .verdict nofun _ rfl i w
  unfold announceResult
  split
  · split <;> rename_i v hq <;> rw [hq] at hcall
    · exact hcall
    · exact hcall.trans (dropSlot_composed false i v)
  · exact .refl w

/-- `end_game`. -/
theorem endGame_composed (w : Server F) : Composed w (endGame w) := by
  have hend : Composed w (w.record .gameEnded { w.state with phase := .gameOver }) :=
    .record rfl rfl fun _ h => h
  exact hend.trans (Composed.foldl announceResult_composed slots _)

end Calls

section Nested

variable {reeval : Server F → Server F} (hre : ∀ w, Composed w (reeval w))

include hre

/-- A broadcast, with the re-entrant call after it. -/
theorem queueBroadcastWith_composed (line : ServerLine F) (hline : line.beginsSnapshot = false)
    (w : Server F) : Composed w (queueBroadcastWith reeval line w) := by
  obtain ⟨v, _, hv, hfit, hover⟩ := queueBroadcastWith_eq reeval line w
  have hloops : Composed w v := hv ▸ .broadcast line (.refl w) hline
  by_cases h : overflows line w.state
  · rw [hover h]
    exact hloops.trans (hre v)
  · rw [hfit h]
    exact hloops

/-- The broadcast of all positions. -/
theorem broadcastPositionsWith_composed (w : Server F) :
    Composed w (broadcastPositionsWith reeval w) := by
  refine Composed.foldl (fun v i => ?_) slots w
  unfold broadcastPositionWith
  split
  · exact queueBroadcastWith_composed hre _ rfl v
  · exact .refl v

/-- The broadcast of snapshots. -/
theorem broadcastGameStateWith_composed (w : Server F) :
    Composed w (broadcastGameStateWith reeval w) := by
  have hstep : ∀ (acc : Bool × Server F) (i : Slot), Composed acc.2 (offerGameState acc i).2 := by
    intro acc i
    unfold offerGameState
    split
    · rename_i hreg
      have hsnap : Composed acc.2 (sendSnapshot i acc.2) :=
        .snapshot i (.refl _) (Player.connected_of_isRegistered hreg)
      unfold sendSnapshot at hsnap
      split <;> rename_i v hq <;> rw [hq] at hsnap
      · exact hsnap
      · exact hsnap
    · exact .refl _
  have hloop : ∀ (is : List Slot) (acc : Bool × Server F),
      Composed acc.2 (is.foldl offerGameState acc).2 := by
    intro is
    induction is with
    | nil => exact fun acc => .refl _
    | cons i is ih => exact fun acc => (hstep acc i).trans (ih _)
  have hall := hloop slots (false, w)
  unfold broadcastGameStateWith
  split <;> rename_i v hq <;> rw [hq] at hall
  · exact hall
  · exact hall.trans (hre v)

/-- `start_active_round`. -/
theorem startActiveRoundWith_composed (w : Server F) :
    Composed w (startActiveRoundWith reeval w) := by
  have hstart : Composed w (w.record .roundStarted (startRound w.time w.state)) := by
    refine .record rfl rfl fun k hk => ?_
    simp only [startRound, Player.enterRound] at hk
    split at hk <;> exact hk
  exact (hstart.trans (queueBroadcastWith_composed hre _ rfl _)).trans
    (broadcastPositionsWith_composed hre _)

/-- `finish_repicks`. -/
theorem finishRepicksWith_composed (w : Server F) : Composed w (finishRepicksWith reeval w) := by
  have happly : Composed w (w.record .repicksFinished
      { w.state with players := fun i => (w.state.players i).applyRepick }) := by
    refine .record rfl rfl fun k hk => ?_
    simp only [Player.applyRepick] at hk
    split at hk <;> exact hk
  exact ((happly.trans (queueBroadcastWith_composed hre _ rfl _)).trans
    (broadcastPositionsWith_composed hre _)).trans (startActiveRoundWith_composed hre _)

/-- `begin_repicks`. -/
theorem beginRepicksWith_composed (w : Server F) : Composed w (beginRepicksWith reeval w) := by
  have hbegin : Composed w (w.record .repicksBegun
      { w.state with phase := .repick, players := fun i => (w.state.players i).clearRepick }) :=
    .record rfl rfl fun _ h => h
  exact (hbegin.trans (queueBroadcastWith_composed hre _ rfl _)).trans
    (broadcastPositionsWith_composed hre _)

/-- The body of `reevaluate_state`, in every phase. -/
theorem reevaluateBody_composed (w : Server F) : Composed w (reevaluateBody reeval w) := by
  unfold reevaluateBody
  cases w.state.phase with
  | gameOver => exact .refl w
  | lobbyOpen =>
    simp only [reevaluateLobbyOpen]
    split
    · exact .record rfl rfl fun _ h => h
    · exact .refl w
  | setup =>
    simp only [reevaluateSetup]
    split
    · exact endGame_composed w
    · split
      · exact startActiveRoundWith_composed hre w
      · exact .refl w
  | repick =>
    simp only [reevaluateRepick]
    split
    · exact endGame_composed w
    · split
      · exact finishRepicksWith_composed hre w
      · exact .refl w
  | roundActive =>
    simp only [reevaluateRoundActive]
    split
    · exact endGame_composed w
    · exact .refl w

end Nested

/-- `reevaluate_state`, by induction on the nesting depth. -/
theorem reevaluateWithin_composed (depth : ℕ) (w : Server F) :
    Composed w (reevaluateWithin depth w) := by
  induction depth generalizing w with
  | zero => exact .refl w
  | succ depth ih => exact reevaluateBody_composed ih w

theorem reevaluateState_composed (w : Server F) : Composed w (reevaluateState w) :=
  reevaluateWithin_composed _ w

/-- `queue_broadcast`. -/
theorem queueBroadcast_composed (line : ServerLine F) (hline : line.beginsSnapshot = false)
    (w : Server F) : Composed w (queueBroadcast line w) :=
  queueBroadcastWith_composed reevaluateState_composed line hline w

/-- `broadcast_positions`. -/
theorem broadcastPositions_composed (w : Server F) : Composed w (broadcastPositions w) :=
  broadcastPositionsWith_composed reevaluateState_composed w

/-- `start_active_round`. -/
theorem startActiveRound_composed (w : Server F) : Composed w (startActiveRound w) :=
  startActiveRoundWith_composed reevaluateState_composed w

/-- The call `drop_player(s, i, 0)` and the re-entrant call after it. -/
theorem dropReevaluate_composed (i : Slot) (w : Server F) :
    Composed w (reevaluateState (dropSilently i w)) :=
  (dropSlot_composed false i w).trans (reevaluateState_composed _)

/-- `drop_player`. -/
theorem dropPlayer_composed (i : Slot) (announce : Bool) (w : Server F) :
    Composed w (dropPlayer i announce w) := by
  have hdrop := dropSlot_composed announce i w
  unfold dropPlayer
  simp only
  split
  · exact (hdrop.trans (queueBroadcast_composed _ rfl _)).trans
      (broadcastGameStateWith_composed reevaluateState_composed _)
  · exact hdrop

/-- A client that leaves, and the re-entrant call after it. -/
theorem loseConnection_composed (i : Slot) (w : Server F) : Composed w (loseConnection i w) :=
  (dropPlayer_composed i true w).trans (reevaluateState_composed _)

section Commands

/-- The reply `ERROR lobby_closed`. -/
theorem refuseLobbyClosed_composed (i : Slot) (w : Server F) :
    Composed w (refuseLobbyClosed i w) := by
  have hcall : Composed w (queueTo .checked (.error .lobbyClosed) i w).2 :=
    queueTo_composed .checked nofun _ rfl i w
  unfold refuseLobbyClosed
  split <;> rename_i v hq <;> rw [hq] at hcall
  · exact hcall
  · exact hcall.trans (dropReevaluate_composed i v)

/-- The last part of `maybe_admit_player`. -/
theorem admitPlayer_composed (i : Slot) (w : Server F) : Composed w (admitPlayer i w) := by
  have hadmit : Composed w (w.record (.admitted i) (w.state.setPlayer i
      { w.state.players i with admitted := true, waiting := true })) := .assign rfl rfl fun h => h
  have hcall := hadmit.trans (queueTo_composed .checked nofun .joinedMatch rfl i _)
  unfold admitPlayer
  simp only
  split <;> rename_i v hq <;> rw [hq] at hcall
  · exact hcall.trans (dropReevaluate_composed i v)
  · exact (hcall.trans (queueBroadcast_composed _ rfl v)).trans
      (broadcastGameStateWith_composed reevaluateState_composed _)

/-- `maybe_admit_player`. -/
theorem maybeAdmitPlayer_composed (i : Slot) (w : Server F) :
    Composed w (maybeAdmitPlayer i w) := by
  unfold maybeAdmitPlayer
  simp only
  split
  · exact .refl w
  split
  · exact .refl w
  split
  · exact .refl w
  split
  · exact refuseLobbyClosed_composed i w
  split
  · have hopen : Composed w (w.record (.lobbyOpened i)
        { w.state with joinDeadline := w.time + JOIN_WINDOW_SECONDS }) :=
      .record rfl rfl fun _ h => h
    exact (hopen.trans (queueBroadcast_composed _ rfl _)).trans (admitPlayer_composed i _)
  split
  · exact refuseLobbyClosed_composed i w
  · exact admitPlayer_composed i w

/-- The lobby status after HELLO. -/
theorem queueLobbyStatusForPlayer_composed (i : Slot) (w : Server F) :
    Composed w (queueLobbyStatusForPlayer i w) := by
  unfold queueLobbyStatusForPlayer
  split
  · have hprompts := (reply_composed .chooseType rfl i w).trans
      (reply_composed (.chooseSpawn GRID_W GRID_H) rfl i _)
    dsimp only
    split
    · exact hprompts.trans (reply_composed _ rfl i _)
    · exact hprompts.trans (reply_composed _ rfl i _)
  · exact reply_composed _ rfl i w

/-- HELLO. -/
theorem handleHelloCommand_composed (i : Slot) (args : Option (List Char)) (w : Server F) :
    Composed w (handleHelloCommand i args w) := by
  rcases handleHelloCommand_cases i args w with ⟨reason, heq⟩ | ⟨name, s, hs, _, heq⟩ <;> rw [heq]
  · exact reply_composed _ rfl i w
  have hregister : Composed w (w.record (.registered i) s) := hs ▸ .assign rfl rfl fun h => h
  exact ((hregister.trans (reply_composed _ rfl i _)).trans (reply_composed _ rfl i _)).trans
    (queueLobbyStatusForPlayer_composed i _)

/-- CHOICE. -/
theorem handleChoiceCommand_composed (i : Slot) (args : Option (List Char)) (w : Server F) :
    Composed w (handleChoiceCommand i args w) := by
  rcases handleChoiceCommand_cases i args w with ⟨reason, heq⟩ | ⟨choice, s, hs, _, heq⟩ <;>
    rw [heq]
  · exact reply_composed _ rfl i w
  have hchose : Composed w (w.record (.chose i) s) := hs ▸ .assign rfl rfl fun h => h
  exact (hchose.trans (reply_composed _ rfl i _)).trans (maybeAdmitPlayer_composed i _)

/-- SPAWN. -/
theorem handleSpawnCommand_composed (i : Slot) (args : Option (List Char)) (w : Server F) :
    Composed w (handleSpawnCommand i args w) := by
  rcases handleSpawnCommand_cases i args w with ⟨reason, heq⟩ | ⟨x, y, s, hs, _, _, heq⟩ <;>
    rw [heq]
  · exact reply_composed _ rfl i w
  have hspawned : Composed w (w.record (.spawned i) s) := hs ▸ .assign rfl rfl fun h => h
  exact (hspawned.trans (reply_composed _ rfl i _)).trans (maybeAdmitPlayer_composed i _)

/-- REPICK. -/
theorem handleRepickCommand_composed (i : Slot) (args : Option (List Char)) (w : Server F) :
    Composed w (handleRepickCommand i args w) := by
  rcases handleRepickCommand_cases i args w with
    ⟨reason, heq⟩ | ⟨choice, s, v, hs, hv, _, _, heq⟩ <;> rw [heq]
  · exact reply_composed _ rfl i w
  have hsubmit : Composed w (w.record (.repicked i) s) := hs ▸ .assign rfl rfl fun h => h
  have hreply : Composed w v := hv ▸ hsubmit.trans (reply_composed _ rfl i _)
  split
  · exact hreply.trans (finishRepicksWith_composed reevaluateState_composed _)
  · exact hreply.trans (reply_composed _ rfl i _)

/-- GET_STATE. -/
theorem handleGetStateCommand_composed {i : Slot} {w : Server F}
    (hconn : (w.state.players i).connected = true) : Composed w (handleGetStateCommand i w) := by
  have hsnap : Composed w (sendSnapshot i w) := .snapshot i (.refl w) hconn
  unfold sendSnapshot at hsnap
  unfold handleGetStateCommand
  split <;> rename_i v hq <;> rw [hq] at hsnap
  · exact hsnap
  · exact hsnap.trans (reevaluateState_composed _)

/-- `reset_match`. -/
theorem resetMatch_composed (w : Server F) : Composed w (resetMatch w) := by
  have hplayer : ∀ (v : Server F) (i : Slot), Composed v (resetPlayer v i) := by
    intro v i
    unfold resetPlayer
    split
    swap
    · exact .refl v
    have hreset : Composed v (v.record (.progressReset i)
        (v.state.setPlayer i (v.state.players i).resetProgress)) := .assign rfl rfl fun h => h
    have hplain : ∀ line ∈ (resetLines : List (Server F → ServerLine F)), ∀ u,
        (line u).beginsSnapshot = false := by
      simp only [resetLines, List.forall_mem_cons]
      exact ⟨fun _ => rfl, fun _ => rfl, fun _ => rfl, fun _ => rfl, fun _ => rfl,
        fun _ h => absurd h List.not_mem_nil⟩
    have hlines := hreset.trans (queueSeq_composed .checked (by decide) resetLines hplain i _)
    simp only
    split <;> rename_i u hq <;> rw [hq] at hlines
    · exact hlines
    · exact hlines.trans (dropSlot_composed false i u)
  have hreset : Composed w (w.record .matchReset
      { w.state with
        phase := .lobbyOpen
        joinDeadline := 0
        setupDeadline := 0
        roundDeadline := 0
        roundNo := 0 }) := .record rfl rfl fun _ h => h
  exact hreset.trans (Composed.foldl hplayer slots _)

/-- One command. -/
theorem handleCommand_composed {i : Slot} (line : List Char) {w : Server F}
    (hconn : (w.state.players i).connected = true) : Composed w (handleCommand i line w) := by
  unfold handleCommand
  split
  · exact reply_composed _ rfl i w
  split
  · exact handleHelloCommand_composed i _ w
  split
  · exact handleGetStateCommand_composed hconn
  split
  · exact handleChoiceCommand_composed i _ w
  split
  · exact handleSpawnCommand_composed i _ w
  split
  · exact handleRepickCommand_composed i _ w
  split
  · unfold handleRematchCommand
    split
    · exact reply_composed _ rfl i w
    · exact resetMatch_composed w
  split
  · exact loseConnection_composed i w
  · exact reply_composed _ rfl i w

end Commands

section Timers

/-- The last part of `close_lobby_if_needed`. -/
theorem decideSetup_composed (w : Server F) : Composed w (decideSetup w) := by
  unfold decideSetup
  split
  · exact endGame_composed w
  · split
    · exact startActiveRound_composed w
    · exact queueBroadcast_composed _ rfl w

/-- `close_lobby_if_needed`. -/
theorem closeLobbyIfNeeded_composed (w : Server F) : Composed w (closeLobbyIfNeeded w) := by
  unfold closeLobbyIfNeeded
  split
  · exact .refl w
  split
  · exact .refl w
  split
  · exact .refl w
  have hclose : Composed w (w.record .lobbyClosed
      { w.state with phase := .setup, setupDeadline := w.time + SETUP_SECONDS }) :=
    .record rfl rfl fun _ h => h
  refine Composed.trans ?_ (decideSetup_composed _)
  exact (hclose.trans (queueBroadcast_composed _ rfl _)).trans (queueBroadcast_composed _ rfl _)

/-- `expire_unready_setup_players`. -/
theorem expireUnreadySetupPlayers_composed (w : Server F) :
    Composed w (expireUnreadySetupPlayers w) := by
  have hloop : Composed w (slots.foldl expirePlayer w) := by
    refine Composed.foldl (fun v i => ?_) slots w
    unfold expirePlayer
    simp only
    split
    · exact dropPlayer_composed i true v
    · exact .refl v
  unfold expireUnreadySetupPlayers
  split
  · exact .refl w
  split
  · exact .refl w
  split
  · exact .refl w
  refine hloop.trans ?_
  simp only
  split
  · exact endGame_composed _
  · split
    · exact startActiveRound_composed _
    · exact .refl _

/-- `advance_match_timers`. -/
theorem advanceMatchTimers_composed (now last dt : ℚ) (w : Server F) :
    Composed w (advanceMatchTimers now last dt w).1 := by
  have htimers := (closeLobbyIfNeeded_composed w).trans (expireUnreadySetupPlayers_composed _)
  unfold advanceMatchTimers
  simp only
  split
  · exact htimers
  split
  · exact htimers
  refine htimers.trans ?_
  generalize expireUnreadySetupPlayers (closeLobbyIfNeeded w) = v
  have htick : Composed v
      (v.record .chaseTicked (simulateChaseTick v.state (CFloat.lit dt)).1) := by
    refine .record rfl rfl fun k hk => ?_
    obtain ⟨alive, x, y, hplayer⟩ :=
      (simulateChaseTick_chased v.state (CFloat.lit dt)).player k
    rw [hplayer] at hk
    exact hk
  have hpositions := htick.trans (broadcastPositions_composed _)
  dsimp only
  split
  · exact hpositions.trans (reevaluateState_composed _)
  · exact hpositions

/-- A pair with a winner. -/
theorem resolveWin_composed (pair : Pair) (winner loser : Slot) (w : Server F) :
    Composed w (resolveWin pair winner loser w) := by
  unfold resolveWin
  simp only
  generalize hu : w.record (.pairResolved winner loser) _ = u
  have hpair : Composed w u := by
    subst hu
    refine .record rfl rfl fun k hk => ?_
    simp only [ServerState.setPlayer_players] at hk
    split at hk <;> rename_i hloser
    · split at hk <;> rename_i hwinner
      · rw [hloser, hwinner]
        exact hk
      · rw [hloser]
        exact hk
    · split at hk <;> rename_i hwinner
      · rw [hwinner]
        exact hk
      · exact hk
  have hbroadcast := queueBroadcast_composed
    (.pairWinner (u.state.players pair.a).name (u.state.players pair.b).name
      (u.state.players pair.a).choice (u.state.players pair.b).choice
      (u.state.players winner).name (u.state.players winner).x (u.state.players winner).y) rfl u
  generalize queueBroadcast _ u = v at hbroadcast ⊢
  refine (hpair.trans hbroadcast).trans ?_
  split
  · have hcall := queueTo_composed .checked nofun .eliminated rfl loser v
    split <;> rename_i t hq <;> rw [hq] at hcall
    · exact hcall
    · exact hcall.trans (dropSlot_composed false loser t)
  · exact .refl v

/-- `resolve_round`. -/
theorem resolveRound_composed (w : Server F) : Composed w (resolveRound w) := by
  have hpair : ∀ (v : Server F) (pair : Pair), Composed v (resolvePair v pair) := by
    intro v pair
    unfold resolvePair
    simp only
    split
    · exact resolveWin_composed pair _ _ v
    · split
      · exact resolveWin_composed pair _ _ v
      · exact queueBroadcast_composed _ rfl v
  have hbye : ∀ (bye : Option Slot) (v : Server F), Composed v (announceBye bye v) := by
    intro bye v
    cases bye with
    | none => exact .refl v
    | some i => exact queueBroadcast_composed _ rfl v
  have hconclude : ∀ v : Server F, Composed v (concludeRound v) := by
    intro v
    have hclear : Composed v (v.record .roundCleared
        { v.state with players := fun i => { v.state.players i with inRound := false } }) :=
      .record rfl rfl fun _ h => h
    refine (hclear.trans (broadcastPositions_composed _)).trans ?_
    unfold concludeRound
    simp only
    split
    · exact endGame_composed _
    · split
      · exact beginRepicksWith_composed reevaluateState_composed _
      · exact startActiveRound_composed _
  have hresolving : Composed w (w.record .resolving w.state) := .record rfl rfl fun _ h => h
  unfold resolveRound
  simp only
  generalize buildPairs (w.record .resolving w.state).state (MAX_PLAYERS / 2) = pairing
  have hpairs := Composed.foldl hpair pairing.1 (w.record .resolving w.state)
  exact ((hresolving.trans hpairs).trans (hbye pairing.2 _)).trans (hconclude _)

end Timers

/-- A new connection. -/
theorem acceptNewClient_composed (fd : ℤ) (w : Server F) : Composed w (acceptNewClient fd w) := by
  unfold acceptNewClient addPlayer
  cases slots.find? (fun i => !(w.state.players i).connected) with
  | none => exact .refl w
  | some i =>
    have haccept : Composed w (w.record (.accepted i)
        { w.state.setPlayer i (initPlayerSlot fd w.state.nextId) with
          nextId := w.state.nextId + 1 }) := by
      refine .quiet (.refl w) rfl rfl fun k hk hconn => ?_
      have hki : k ≠ i := fun h => by simp [Event.accepts, h] at hk
      have hsame := ServerState.setPlayer_of_ne w.state (initPlayerSlot fd w.state.nextId) hki
      simp only at hconn
      rw [hsame] at hconn
      exact hconn
    have hcall := haccept.trans (queueTo_composed .line nofun .info rfl i _)
    dsimp only
    split <;> rename_i v hq <;> rw [hq] at hcall
    · exact hcall
    · exact hcall.trans (dropPlayer_composed i false v)

/-- A step is made of such pieces. -/
theorem Loop.step_composed (l : Loop F) (x : Step) : Composed l.server (l.step x).server := by
  cases x with
  | accept fd => exact acceptNewClient_composed fd l.server
  | read i result =>
    show Composed l.server (readPlayer i result l.server)
    unfold readPlayer
    split
    · exact .refl _
    rename_i hconn
    dsimp only
    split
    · exact loseConnection_composed i _
    · exact .assign rfl rfl fun _ => by simpa using hconn
  | command i =>
    show Composed l.server (commandPlayer i l.server)
    unfold commandPlayer
    split
    · exact .refl _
    rename_i hconn
    split
    · exact .refl _
    rename_i line p hpop
    have hpopped : Composed l.server (l.server.record (.popped i line)
        (l.server.state.setPlayer i p)) := .assign rfl rfl fun _ => by simpa using hconn
    obtain ⟨inbuf, hp⟩ := popLine_eq hpop
    refine hpopped.trans (handleCommand_composed line ?_)
    rw [System.record_state, ServerState.setPlayer_self, hp]
    simpa using hconn
  | write i results =>
    show Composed l.server (writePlayer i results l.server)
    unfold writePlayer
    split
    · exact .refl _
    rename_i hconn
    dsimp only
    generalize hp : (l.server.state.players i).flushPlayerOutput results = r
    have hflushed : Composed l.server (l.server.record (.flushed i
        ((l.server.state.players i).outbuf.take
          ((l.server.state.players i).outbuf.length - r.2.outbuf.length)))
        (l.server.state.setPlayer i r.2)) := .assign rfl rfl fun _ => by simpa using hconn
    split
    · exact hflushed.trans (loseConnection_composed i _)
    · exact hflushed
  | timers now =>
    have htimers := advanceMatchTimers_composed now l.lastChaseTick CHASE_TICK_SECONDS l.server
    rwa [Loop.step]
  | resolve =>
    show Composed l.server (resolveActiveRound l.server)
    unfold resolveActiveRound
    split
    · exact resolveRound_composed _
    · exact .refl _

/-- So is a run. -/
theorem Reached.composed {loopOnly : Bool} {w : Server F} (h : Reached loopOnly w) :
    ∃ clock, Composed (Server.init clock) w := by
  obtain ⟨clock, start, steps, hsteps, rfl⟩ := h
  refine ⟨clock, ?_⟩
  clear hsteps
  suffices hrun : ∀ l : Loop F, Composed l.server (l.run steps).server from
    hrun (Loop.init clock start)
  induction steps with
  | nil => exact fun l => .refl _
  | cons x steps ih => exact fun l => (l.step_composed x).trans (ih (l.step x))

end BattleRoyale
