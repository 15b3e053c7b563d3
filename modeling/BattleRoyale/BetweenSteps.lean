import BattleRoyale.StepRefinement

/-!
# A rule for the states between steps

Some properties hold between the steps of the loop and fail inside of them: they are
lost when a player is dropped and come back with the `reevaluate_state` that follows.
The rule of this file works with two properties, `S` for the states between steps and
the weaker `W` for the time from a drop to the next `reevaluate_state`. It takes what
single actions do to them, and follows the source through all broadcasts, handlers and
timers. The functions with a state change of their own are left to the user.
-/

namespace BattleRoyale

open Recorded

variable {F : Type}

/-- A call of `queue_line` with a line that does not begin a new picture of the match
at the client. -/
def Event.isPlainCall : Event F → Bool
  | .queued _ _ .stateBegin => false
  | .queued _ _ .matchReset => false
  | .queued .. => true
  | .refused .. => true
  | _ => false

variable [CFloat F]

/-- What the broadcasts need to know about the two properties. -/
structure Engine (W S : Server F → Prop) : Prop where
  /-- The property between steps is the stronger one. -/
  weaken : ∀ w, Inv w → S w → W w
  /-- Calls keep the property between steps. -/
  call : ∀ w e s, Inv w → Action w e s → e.isPlainCall = true → S w → S (w.record e s)
  /-- Calls keep the weaker property. -/
  callWeak : ∀ w e s, Inv w → Action w e s → e.isPlainCall = true → W w → W (w.record e s)
  /-- Silent drops keep the weaker property. -/
  drop : ∀ w i name s, Inv w → Action w (.dropped i false name) s → W w →
    W (w.record (.dropped i false name) s)
  /-- `reevaluate_state` establishes the property between steps. -/
  reeval : ∀ w, Inv w → W w → S (reevaluateState w)

variable {W S : Server F → Prop}

/-- A property that plain calls keep is kept along them. -/
theorem keeps_calls {X : Server F → Prop}
    (hcall : ∀ w e s, Inv w → Action w e s → e.isPlainCall = true → X w → X (w.record e s))
    {w v : Server F} (hw : Inv w) (hX : X w)
    (hpath : Path Action (fun e => e.isPlainCall = true) w v) : X v :=
  (hpath.invariant (fun w => Inv w ∧ X w)
    (fun u e s he hstep hu => ⟨hstep.inv hu.1, hcall u e s hu.1 hstep he hu.2⟩) ⟨hw, hX⟩).2

omit [CFloat F] in
/-- A broadcast line does not begin a new picture. -/
theorem isPlainCall_broadcast {w : Server F} {line : ServerLine F}
    (hline : ∀ i, LineOk w i .broadcast line) (i : Slot) :
    (Event.queued i .broadcast line).isPlainCall = true := by
  cases line with
  | stateBegin => exact (hline i).elim
  | matchReset => exact (hline i).elim
  | _ => rfl

namespace Engine

/-- Silent drops, one after another. -/
theorem drops (h : Engine W S) {w v : Server F} (hw : Inv w) (hW : W w)
    (hpath : Path Action (fun e => ∃ i name, e = .dropped i false name) w v) : W v := by
  refine (hpath.invariant (fun w => Inv w ∧ W w) ?_ ⟨hw, hW⟩).2
  rintro u e s ⟨i, name, rfl⟩ hstep hu
  exact ⟨hstep.inv hu.1, h.drop u i name s hu.1 hstep hu.2⟩

/-- The call `drop_player(s, i, 0)`. -/
theorem dropSilently (h : Engine W S) {w : Server F} (hw : Inv w) (hW : W w) (i : Slot) :
    W (dropSilently i w) :=
  h.drops hw hW (dropSilently_path (fun i name => ⟨i, name, rfl⟩) i w)

/-- A silent drop and the re-entrant call after it. -/
theorem dropReevaluate (h : Engine W S) {w : Server F} (hw : Inv w) (hW : W w) (i : Slot) :
    S (reevaluateState (BattleRoyale.dropSilently i w)) :=
  h.reeval _ (hw.along (dropSilently_reacts i w)) (h.dropSilently hw hW i)

/-- A broadcast that drops somebody ends with the re-entrant call, which establishes the
property between steps. -/
theorem overflow (h : Engine W S) (line : ServerLine F) {w : Server F} (hw : Inv w)
    (hline : ∀ i, LineOk w i .broadcast line) (hover : overflows line w.state) (hW : W w) :
    S (queueBroadcast line w) := by
  have hoffer : Path Action (fun e => e.isPlainCall = true) w (offerAll line w).2 :=
    offerAll_path (isPlainCall_broadcast hline) (fun _ => rfl) hline
  have hinv := hw.along hoffer
  obtain ⟨v, _, hv, _, heq⟩ := queueBroadcastWith_eq reevaluateState line w
  have hdrops : Path Action (fun e => ∃ i name, e = .dropped i false name)
      (offerAll line w).2 v := hv ▸ dropAll_path (fun i name => ⟨i, name, rfl⟩) _ _
  unfold BattleRoyale.queueBroadcast
  rw [heq hover]
  exact h.reeval v (hinv.along hdrops)
    (h.drops hinv (keeps_calls h.callWeak hw hW hoffer) hdrops)

/-- A broadcast keeps what its calls keep, when it enters nothing again; otherwise the
re-entrant call establishes the property between steps. -/
theorem broadcast (h : Engine W S) {X : Server F → Prop}
    (hcall : ∀ w e s, Inv w → Action w e s → e.isPlainCall = true → X w → X (w.record e s))
    (hweak : ∀ w, Inv w → X w → W w) (hstrong : ∀ w, Inv w → S w → X w)
    (line : ServerLine F) {w : Server F} (hw : Inv w)
    (hline : ∀ i, LineOk w i .broadcast line) (hX : X w) : X (queueBroadcast line w) := by
  by_cases hover : overflows line w.state
  · exact hstrong _ (hw.along (queueBroadcast_reacts line hw hline))
      (h.overflow line hw hline hover (hweak w hw hX))
  · obtain ⟨v, _, hv, hfit, _⟩ := queueBroadcastWith_eq reevaluateState line w
    have hoffer : Path Action (fun e => e.isPlainCall = true) w (offerAll line w).2 :=
      offerAll_path (isPlainCall_broadcast hline) (fun _ => rfl) hline
    unfold queueBroadcast
    rw [hfit hover, hv, (offerAll_eq_nil_iff line w).mpr hover]
    exact keeps_calls hcall hw hX hoffer

/-- A broadcast keeps the property between steps. -/
theorem queueBroadcast (h : Engine W S) (line : ServerLine F) {w : Server F} (hw : Inv w)
    (hline : ∀ i, LineOk w i .broadcast line) (hS : S w) :
    S (BattleRoyale.queueBroadcast line w) :=
  h.broadcast h.call h.weaken (fun _ _ hv => hv) line hw hline hS

/-- A broadcast keeps the weaker property. -/
theorem queueBroadcastWeak (h : Engine W S) (line : ServerLine F) {w : Server F} (hw : Inv w)
    (hline : ∀ i, LineOk w i .broadcast line) (hW : W w) :
    W (BattleRoyale.queueBroadcast line w) :=
  h.broadcast h.callWeak (fun _ _ hv => hv) h.weaken line hw hline hW

/-- The broadcast of all positions keeps the property between steps. -/
theorem broadcastPositions (h : Engine W S) {w : Server F} (hw : Inv w) (hS : S w) :
    S (BattleRoyale.broadcastPositions w) := by
  have hstep : ∀ v i, Inv v ∧ S v →
      Inv (broadcastPositionWith reevaluateState v i) ∧
        S (broadcastPositionWith reevaluateState v i) := by
    intro v i hv
    unfold broadcastPositionWith
    split
    · rename_i hadmitted
      have hline : ∀ j, LineOk v j .broadcast (v.state.players i).line :=
        fun _ => ⟨i, hadmitted, rfl⟩
      exact ⟨hv.1.along (queueBroadcast_reacts _ hv.1 hline),
        h.queueBroadcast _ hv.1 hline hv.2⟩
    · exact hv
  have hloop : ∀ (is : List Slot) (v : Server F), Inv v ∧ S v →
      Inv (is.foldl (broadcastPositionWith reevaluateState) v) ∧
        S (is.foldl (broadcastPositionWith reevaluateState) v) := by
    intro is
    induction is with
    | nil => exact fun v hv => hv
    | cons i is ih => exact fun v hv => ih _ (hstep v i hv)
  exact (hloop slots w ⟨hw, hS⟩).2

/-- A reply keeps the property between steps. -/
theorem reply (h : Engine W S) (line : ServerLine F) {i : Slot} {w : Server F} (hw : Inv w)
    (hplain : (Event.queued i .line line).isPlainCall = true)
    (hconn : (w.state.players i).connected = true) (hline : LineOk w i .line line) (hS : S w) :
    S (BattleRoyale.reply line i w) :=
  keeps_calls h.call hw hS (queueTo_path hplain rfl hconn hline)

/-- The lobby status after HELLO. -/
theorem lobbyStatus (h : Engine W S) {i : Slot} {w : Server F} (hw : Inv w)
    (hconn : (w.state.players i).connected = true) (hS : S w) :
    S (queueLobbyStatusForPlayer i w) := by
  unfold queueLobbyStatusForPlayer
  split
  · rename_i hopen
    have htype := h.reply .chooseType hw rfl hconn trivial hS
    have hw1 := hw.along (reply_serves .chooseType hconn trivial)
    have hc1 := reply_connected .chooseType i hconn
    have hspawn := h.reply (.chooseSpawn GRID_W GRID_H) hw1 rfl hc1 trivial htype
    have hw2 := hw1.along (reply_serves (.chooseSpawn GRID_W GRID_H) hc1 trivial)
    have hc2 := reply_connected (.chooseSpawn GRID_W GRID_H) i hc1
    have hsame := (reply_rebuffered .chooseType i w).trans
      (reply_rebuffered (.chooseSpawn GRID_W GRID_H) i (BattleRoyale.reply .chooseType i w))
    dsimp only
    split
    · rename_i hidle
      exact h.reply _ hw2 rfl hc2 ⟨by rw [hsame.table]; exact hopen, hidle⟩ hspawn
    · rename_i hcount
      exact h.reply _ hw2 rfl hc2 ⟨by rw [hsame.table]; exact hopen, fun _ => hcount⟩ hspawn
  · rename_i hclosed
    exact h.reply _ hw rfl hconn hclosed hS

/-- HELLO, for a property that the registration itself keeps. -/
theorem hello (h : Engine W S)
    (hregister : ∀ w i s, Inv w → Action w (.registered i) s → S w → S (w.record (.registered i) s))
    {i : Slot} {args : Option (List Char)} {w : Server F} (hw : Inv w)
    (hconn : (w.state.players i).connected = true)
    (hargs : ∀ text, args = some text → ∀ c ∈ text, c ≠ '\x00') (hS : S w) :
    S (handleHelloCommand i args w) := by
  rcases handleHelloCommand_cases i args w with ⟨reason, heq⟩ | ⟨name, s, hs, hstep, heq⟩ <;>
    rw [heq]
  · exact h.reply _ hw rfl hconn trivial hS
  have hregistered := hregister w i _ hw (hstep hconn hargs) hS
  have hinv := (hstep hconn hargs).inv hw
  have hc0 : ((w.record (.registered i) s).state.players i).connected = true := by
    simpa [hs, Player.resetProgress] using hconn
  have hwelcome := h.reply (.welcome (s.players i).id) hinv rfl hc0 trivial hregistered
  have hw1 := hinv.along (reply_serves (.welcome (s.players i).id) hc0 trivial)
  have hc1 := reply_connected (.welcome (s.players i).id) i hc0
  have hspectating := h.reply .spectating hw1 rfl hc1 trivial hwelcome
  have hw2 := hw1.along (reply_serves .spectating hc1 trivial)
  exact h.lobbyStatus hw2 (reply_connected .spectating i hc1) hspectating

end Engine

/-- What the broadcast of snapshots needs to know about the two properties, in addition. -/
structure Snapshots (W S : Server F → Prop) : Prop extends Engine W S where
  /-- A complete snapshot keeps the property between steps. -/
  snapshot : ∀ w i, Inv w → (w.state.players i).connected = true →
    (queueGameStateForPlayer i w).1 = true → S w → S (queueGameStateForPlayer i w).2
  /-- A complete snapshot keeps the weaker property. -/
  snapshotWeak : ∀ w i, Inv w → (w.state.players i).connected = true →
    (queueGameStateForPlayer i w).1 = true → W w → W (queueGameStateForPlayer i w).2
  /-- A client whose snapshot fails is dropped, which keeps the weaker property. -/
  snapshotFail : ∀ w i, Inv w → (w.state.players i).connected = true →
    (queueGameStateForPlayer i w).1 = false → W w →
      W (dropSilently i (queueGameStateForPlayer i w).2)

namespace Snapshots

/-- The loop of `broadcast_game_state`: a property that complete snapshots keep is lost
only with a failed one. -/
theorem foldl_offerGameState (h : Snapshots W S) {X : Server F → Prop}
    (hsnapshot : ∀ w i, Inv w → (w.state.players i).connected = true →
      (queueGameStateForPlayer i w).1 = true → X w → X (queueGameStateForPlayer i w).2)
    (is : List Slot) {acc : Bool × Server F} (hinv : Inv acc.2) (hW : W acc.2)
    (hX : acc.1 = false → X acc.2) :
    Inv (is.foldl offerGameState acc).2 ∧ W (is.foldl offerGameState acc).2 ∧
      ((is.foldl offerGameState acc).1 = false → X (is.foldl offerGameState acc).2) := by
  induction is generalizing acc with
  | nil => exact ⟨hinv, hW, hX⟩
  | cons i is ih =>
    rw [List.foldl_cons]
    by_cases hreg : (acc.2.state.players i).isRegistered = true
    · have hconn : (acc.2.state.players i).connected = true := by
        simp only [Player.isRegistered, Bool.and_eq_true] at hreg
        exact hreg.1
      have hsnap := hinv.along (queueGameStateForPlayer_serves i hconn)
      cases hrc : (queueGameStateForPlayer i acc.2).1 with
      | true =>
        have hstep : offerGameState acc i = (acc.1, (queueGameStateForPlayer i acc.2).2) := by
          simp only [offerGameState, hreg, if_true]
          split <;> rename_i hq <;> rw [hq] at hrc ⊢
          cases hrc
        rw [hstep]
        exact ih hsnap (h.snapshotWeak _ i hinv hconn hrc hW)
          fun hflag => hsnapshot _ i hinv hconn hrc (hX hflag)
      | false =>
        have hstep : offerGameState acc i =
            (true, dropSilently i (queueGameStateForPlayer i acc.2).2) := by
          simp only [offerGameState, hreg, if_true]
          split <;> rename_i hq <;> rw [hq] at hrc ⊢
          cases hrc
        rw [hstep]
        exact ih (hsnap.along (dropSilently_reacts i _)) (h.snapshotFail _ i hinv hconn hrc hW)
          fun hflag => by cases hflag
    · have hstep : offerGameState acc i = acc := by simp [offerGameState, hreg]
      rw [hstep]
      exact ih hinv hW hX

/-- The broadcast of snapshots keeps what complete snapshots keep. -/
theorem gameState (h : Snapshots W S) {X : Server F → Prop}
    (hsnapshot : ∀ w i, Inv w → (w.state.players i).connected = true →
      (queueGameStateForPlayer i w).1 = true → X w → X (queueGameStateForPlayer i w).2)
    (hweak : ∀ w, Inv w → X w → W w) (hstrong : ∀ w, Inv w → S w → X w)
    {w : Server F} (hw : Inv w) (hX : X w) : X (BattleRoyale.broadcastGameState w) := by
  have hacc : Inv ((false, w) : Bool × Server F).2 := hw
  obtain ⟨hinv, hW, hkept⟩ :=
    h.foldl_offerGameState hsnapshot slots hacc (hweak w hw hX) fun _ => hX
  unfold BattleRoyale.broadcastGameState broadcastGameStateWith
  split <;> rename_i v hq <;> rw [hq] at hinv hW hkept
  · exact hkept rfl
  · exact hstrong _ (hinv.along (reevaluateState_reacts v hinv)) (h.reeval v hinv hW)

/-- The broadcast of snapshots keeps the property between steps. -/
theorem broadcastGameState (h : Snapshots W S) {w : Server F} (hw : Inv w) (hS : S w) :
    S (BattleRoyale.broadcastGameState w) :=
  h.gameState h.snapshot h.weaken (fun _ _ hv => hv) hw hS

/-- The broadcast of snapshots keeps the weaker property. -/
theorem broadcastGameStateWeak (h : Snapshots W S) {w : Server F} (hw : Inv w) (hW : W w) :
    W (BattleRoyale.broadcastGameState w) :=
  h.gameState h.snapshotWeak (fun _ _ hv => hv) h.weaken hw hW

end Snapshots

/-- What the handlers need to know about the two properties, in addition. -/
structure Restored (W S : Server F → Prop) : Prop extends Snapshots W S where
  /-- After an announced departure the weaker property is left. -/
  leave : ∀ w i, Inv w → S w → W (dropPlayer i true w)

namespace Restored

/-- A lost connection. -/
theorem loseConnection (h : Restored W S) (i : Slot) {w : Server F} (hw : Inv w) (hS : S w) :
    S (BattleRoyale.loseConnection i w) :=
  h.reeval _ (hw.along (dropPlayer_acts i true hw)) (h.leave w i hw hS)

/-- GET_STATE. -/
theorem handleGetStateCommand (h : Restored W S) {i : Slot} {w : Server F} (hw : Inv w)
    (hconn : (w.state.players i).connected = true) (hS : S w) :
    S (BattleRoyale.handleGetStateCommand i w) := by
  have hpath := queueGameStateForPlayer_serves i hconn
  have hdone := h.snapshot w i hw hconn
  have hfail := h.snapshotFail w i hw hconn
  unfold BattleRoyale.handleGetStateCommand
  split <;> rename_i v hq <;> rw [hq] at hpath hdone hfail
  · exact hdone rfl hS
  · have hinv := hw.along hpath
    exact h.reeval _ (hinv.along (dropSilently_reacts i v)) (hfail rfl (h.weaken w hw hS))

/-- The reply `ERROR lobby_closed`. -/
theorem refuseLobbyClosed (h : Restored W S) {i : Slot} {w : Server F} (hw : Inv w)
    (hconn : (w.state.players i).connected = true) (hS : S w) :
    S (BattleRoyale.refuseLobbyClosed i w) := by
  have hcall : Path Action (fun e => e.isPlainCall = true) w
      (queueTo .checked (.error .lobbyClosed) i w).2 := queueTo_path rfl rfl hconn trivial
  have hcalled := keeps_calls h.call hw hS hcall
  unfold BattleRoyale.refuseLobbyClosed
  split <;> rename_i v hq <;> rw [hq] at hcall hcalled
  · exact hcalled
  · have hinv := hw.along hcall
    exact h.dropReevaluate hinv (h.weaken v hinv hcalled) i

/-- The admission, after the flags were set. -/
theorem admitPlayer (h : Restored W S) {i : Slot} {w : Server F} (hw : Inv w)
    (hadm : Admissible i w) (hS : S (admitted i w)) : S (BattleRoyale.admitPlayer i w) := by
  have hinv := hadm.action.inv hw
  have hcall : Path Action (fun e => e.isPlainCall = true) (admitted i w)
      (queueTo .checked .joinedMatch i (admitted i w)).2 := joinedMatch_path hadm rfl rfl
  have hcalled := keeps_calls h.call hinv hS hcall
  have hcinv := hinv.along hcall
  rw [admitPlayer_eq]
  split <;> rename_i u hq <;> rw [hq] at hcalled hcinv
  · exact h.dropReevaluate hcinv (h.weaken _ hcinv hcalled) i
  · have hjoined := h.queueBroadcast (.joined (u.state.players i).name) hcinv
      (fun _ => trivial) hcalled
    exact h.broadcastGameState (hcinv.along (queueBroadcast_reacts _ hcinv fun _ => trivial))
      hjoined

/-- The admission, from what the opening of the countdown and the entry of the player do. -/
theorem maybeAdmitPlayer (h : Restored W S) {i : Slot} {w : Server F} (hw : Inv w)
    (htile : OccupantsUnseen w.state i w.log)
    (hannounced : Action w (.lobbyOpened i) (opened i w).state → S (announced i w))
    (hadmitted : ∀ v, Admissible i v → S v → S (admitted i v)) (hS : S w) :
    S (BattleRoyale.maybeAdmitPlayer i w) := by
  rcases maybeAdmitPlayer_cases hw htile with
    hsame | ⟨hconn, hrefused⟩ | ⟨_, _, hadm, hdone⟩ | ⟨_, hopened, hadm, hdone⟩
  · rwa [hsame]
  · rw [hrefused]
    exact h.refuseLobbyClosed hw hconn hS
  · rw [hdone]
    exact h.admitPlayer hw hadm (hadmitted w hadm hS)
  · rw [hdone]
    have hphase : w.state.phase = .lobbyOpen := by cases hopened; assumption
    have hinv := hopened.inv hw
    exact h.admitPlayer (hinv.along (announced_reacts hinv hphase)) hadm
      (hadmitted _ hadm (hannounced hopened))

end Restored

/-- Two properties that all calls and all drops keep satisfy the rule for the handlers. -/
theorem Restored.of_actions (hweaken : ∀ w, Inv w → S w → W w)
    (hcall : ∀ w e s, Inv w → Action w e s →
      ((∃ i via line, e = .queued i via line) ∨ ∃ i via line, e = .refused i via line) →
        (S w → S (w.record e s)) ∧ (W w → W (w.record e s)))
    (hdrop : ∀ w i announce name s, Inv w → Action w (.dropped i announce name) s → W w →
      W (w.record (.dropped i announce name) s))
    (hreeval : ∀ w, Inv w → W w → S (reevaluateState w)) : Restored W S := by
  have hplain : ∀ e : Event F, e.isPlainCall = true →
      (∃ i via line, e = .queued i via line) ∨ ∃ i via line, e = .refused i via line := by
    intro e he
    cases e with
    | queued i via line => exact .inl ⟨i, via, line, rfl⟩
    | refused i via line => exact .inr ⟨i, via, line, rfl⟩
    | _ => cases he
  have hengine : Engine W S := {
    weaken := hweaken
    call := fun w e s hw hstep he => (hcall w e s hw hstep (hplain e he)).1
    callWeak := fun w e s hw hstep he => (hcall w e s hw hstep (hplain e he)).2
    drop := fun w i name s hw hstep => hdrop w i false name s hw hstep
    reeval := hreeval }
  -- A snapshot consists of calls.
  have hsnapshot : ∀ (X : Server F → Prop), (∀ w e s, Inv w → Action w e s →
      ((∃ i via line, e = .queued i via line) ∨ ∃ i via line, e = .refused i via line) →
        X w → X (w.record e s)) → ∀ w i, Inv w → (w.state.players i).connected = true →
      X w → X (queueGameStateForPlayer i w).2 := by
    intro X hX w i hw hconn hXw
    have hpath : Path Action (fun e => (∃ i via line, e = .queued i via line) ∨
        ∃ i via line, e = .refused i via line) w (queueGameStateForPlayer i w).2 :=
      queueGameStateForPlayer_path i (fun line => .inl ⟨_, _, _, rfl⟩)
        (fun line => .inr ⟨_, _, _, rfl⟩) hconn
    exact (hpath.invariant (fun w => Inv w ∧ X w)
      (fun u e s he hstep hu => ⟨hstep.inv hu.1, hX u e s hu.1 hstep he hu.2⟩) ⟨hw, hXw⟩).2
  have hsnap : Snapshots W S := {
    hengine with
    snapshot := fun w i hw hconn _ hS =>
      hsnapshot S (fun v e s hv hstep he => (hcall v e s hv hstep he).1) w i hw hconn hS
    snapshotWeak := fun w i hw hconn _ hW =>
      hsnapshot W (fun v e s hv hstep he => (hcall v e s hv hstep he).2) w i hw hconn hW
    snapshotFail := fun w i hw hconn _ hW =>
      hengine.dropSilently (hw.along (queueGameStateForPlayer_serves i hconn))
        (hsnapshot W (fun v e s hv hstep he => (hcall v e s hv hstep he).2) w i hw hconn hW) i }
  refine { hsnap with leave := fun w i hw hS => ?_ }
  -- The drop itself, then its two broadcasts.
  have hW := hweaken w hw hS
  have hdropped : W (dropSlot true i w) := by
    cases hconn : (w.state.players i).connected with
    | true =>
      rw [dropSlot_of_connected hconn]
      exact hdrop w i true _ _ hw (.drop hconn) hW
    | false => rwa [dropSlot_of_free hconn]
  have hinv := hw.along (dropSlot_acts true i w)
  unfold dropPlayer
  simp only
  split
  · rename_i h
    simp only [Bool.and_eq_true] at h
    have hreg : (w.state.players i).isRegistered = true := by
      simp [Player.isRegistered, h.1.1, h.2]
    have hleft := left_ok true hw hreg
    exact hsnap.broadcastGameStateWeak (hinv.along (queueBroadcast_reacts _ hinv hleft))
      (hengine.queueBroadcastWeak _ hinv hleft hdropped)
  · exact hdropped

/-- The event changes neither the match nor what clients were told. -/
def Event.isQuiet : Event F → Bool
  | .accepted _ => true
  | .received .. => true
  | .popped .. => true
  | .flushed .. => true
  | .chose _ => true
  | .spawned _ => true
  | _ => false

namespace Restored

/-- CHOICE, from what the quiet actions and the admission do. -/
theorem handleChoiceCommand (h : Restored W S)
    (hquiet : ∀ w e s, Inv w → Action w e s → e.isQuiet = true → S w → S (w.record e s))
    {i : Slot}
    (hadmits : ∀ w, Inv w → OccupantsUnseen w.state i w.log → S w →
      S (BattleRoyale.maybeAdmitPlayer i w))
    {args : Option (List Char)} {w : Server F} (hw : Inv w)
    (hconn : (w.state.players i).connected = true) (hS : S w) :
    S (BattleRoyale.handleChoiceCommand i args w) := by
  rcases handleChoiceCommand_cases i args w with ⟨reason, heq⟩ | ⟨choice, s, hs, hstep, heq⟩ <;>
    rw [heq]
  · exact h.reply _ hw rfl hconn trivial hS
  have hchosen := hquiet w _ _ hw (hstep hconn) rfl hS
  have hinv := (hstep hconn).inv hw
  have hstored : ((w.record (.chose i) s).state.players i).connected = true := by
    simpa [hs] using hconn
  have hreply := reply_serves (.choiceOk choice) hstored trivial
  exact hadmits _ (hinv.along hreply) 
    ((occupantsUnseen_chose _ i _).rebuffered hreply (reply_rebuffered _ i _))
    (h.reply _ hinv rfl hstored trivial hchosen)

/-- SPAWN, from what the quiet actions and the admission do. -/
theorem handleSpawnCommand (h : Restored W S)
    (hquiet : ∀ w e s, Inv w → Action w e s → e.isQuiet = true → S w → S (w.record e s))
    {i : Slot}
    (hadmits : ∀ w, Inv w → OccupantsUnseen w.state i w.log → S w →
      S (BattleRoyale.maybeAdmitPlayer i w))
    {args : Option (List Char)} {w : Server F} (hw : Inv w)
    (hconn : (w.state.players i).connected = true) (hS : S w) :
    S (BattleRoyale.handleSpawnCommand i args w) := by
  rcases handleSpawnCommand_cases i args w with
    ⟨reason, heq⟩ | ⟨x, y, s, hs, ⟨_, _, _, _, hfree⟩, hstep, heq⟩ <;> rw [heq]
  · exact h.reply _ hw rfl hconn trivial hS
  have hspawned := hquiet w _ _ hw (hstep hconn) rfl hS
  have hinv := (hstep hconn).inv hw
  have hstored : ((w.record (.spawned i) s).state.players i).connected = true := by
    simpa [hs] using hconn
  have hreply := reply_serves (.spawnOk x y) hstored trivial
  refine hadmits _ (hinv.along hreply) ?_ (h.reply _ hinv rfl hstored trivial hspawned)
  subst hs
  exact (occupantsUnseen_spawned hw hfree).rebuffered hreply (reply_rebuffered _ i _)

end Restored

/-- A property of the states between the steps of the loop. -/
structure Upheld (W S : Server F → Prop) : Prop extends Restored W S where
  /-- Quiet actions keep the property. -/
  quiet : ∀ w e s, Inv w → Action w e s → e.isQuiet = true → S w → S (w.record e s)
  /-- So does the drop of a client without a name. -/
  dropNew : ∀ w i name s, Inv w → Action w (.dropped i false name) s →
    (w.state.players i).registered = false → S w → S (w.record (.dropped i false name) s)
  /-- HELLO keeps it. -/
  hello : ∀ w i args, Inv w → (w.state.players i).connected = true →
    (∀ text, args = some text → ∀ c ∈ text, c ≠ '\x00') → S w →
      S (handleHelloCommand i args w)
  /-- The admission keeps it. -/
  admits : ∀ w i, Inv w → OccupantsUnseen w.state i w.log → S w → S (maybeAdmitPlayer i w)
  /-- REPICK keeps it. -/
  repick : ∀ w i args, Inv w → (w.state.players i).connected = true → S w →
    S (handleRepickCommand i args w)
  /-- The closing of the lobby keeps it. -/
  closes : ∀ w, Inv w → S w → S (closeLobbyIfNeeded w)
  /-- The end of the setup keeps it. -/
  expires : ∀ w, Inv w → S w → S (expireUnreadySetupPlayers w)
  /-- A chase tick keeps it. -/
  ticks : ∀ w dt, Inv w → w.state.phase = .roundActive → S w →
    S (if (simulateChaseTick w.state dt).2 then
      reevaluateState (broadcastPositions (w.record .chaseTicked (simulateChaseTick w.state dt).1))
    else broadcastPositions (w.record .chaseTicked (simulateChaseTick w.state dt).1))
  /-- The reset of a finished match keeps it. -/
  resets : ∀ w, Inv w → S w → w.state.phase = .gameOver → S (resetMatch w)

namespace Upheld

/-- One command. -/
theorem handleCommand (h : Upheld W S) {i : Slot} {line : List Char} {w : Server F} (hw : Inv w)
    (hconn : (w.state.players i).connected = true) (hS : S w) :
    S (BattleRoyale.handleCommand i line w) := by
  unfold BattleRoyale.handleCommand
  split
  · exact h.reply _ hw rfl hconn trivial hS
  rename_i cmd args hparse
  have hargs : ∀ text, args = some text → ∀ c ∈ text, c ≠ '\x00' := by
    rintro text rfl c hc
    exact ne_of_mem_cString (parseCommand_args hparse hc)
  split
  · exact h.hello w i args hw hconn hargs hS
  split
  · exact h.handleGetStateCommand hw hconn hS
  split
  · exact h.toRestored.handleChoiceCommand h.quiet (fun w => h.admits w i) hw hconn hS
  split
  · exact h.toRestored.handleSpawnCommand h.quiet (fun w => h.admits w i) hw hconn hS
  split
  · exact h.repick w i args hw hconn hS
  split
  · unfold handleRematchCommand
    split
    · exact h.reply _ hw rfl hconn trivial hS
    · rename_i hover
      exact h.resets w hw hS (not_not.mp hover)
  split
  · exact h.loseConnection i hw hS
  · exact h.reply _ hw rfl hconn trivial hS

/-- A new connection. -/
theorem acceptNewClient (h : Upheld W S) {fd : ℤ} {w : Server F} (hw : Inv w) (hS : S w) :
    S (BattleRoyale.acceptNewClient fd w) := by
  unfold BattleRoyale.acceptNewClient addPlayer
  cases hfind : slots.find? (fun i => !(w.state.players i).connected) with
  | none => exact hS
  | some i =>
    dsimp only
    have hfree := List.find?_some hfind
    have hstep : Action w (.accepted i)
        { w.state.setPlayer i (initPlayerSlot fd w.state.nextId) with
          nextId := w.state.nextId + 1 } := .accept (by simpa using hfree)
    have haccepted := h.quiet w _ _ hw hstep rfl hS
    have hinv := hstep.inv hw
    generalize hu : w.record (.accepted i)
      { w.state.setPlayer i (initPlayerSlot fd w.state.nextId) with
        nextId := w.state.nextId + 1 } = u at haccepted hinv ⊢
    have hnew : (u.state.players i).connected = true ∧
        (u.state.players i).registered = false := by
      subst hu
      simp [initPlayerSlot, Player.zero]
    have hcall : Path Action (fun e => e.isPlainCall = true) u (queueTo .line .info i u).2 :=
      queueTo_path rfl rfl hnew.1 trivial
    have hcalled := keeps_calls h.call hinv haccepted hcall
    have hcinv := hinv.along hcall
    have hsame := queueTo_rebuffered .line .info i u
    split <;> rename_i v hq <;> rw [hq] at hcalled hcinv hsame
    · exact hcalled
    · -- The new client has no room for its greeting: it goes as it came.
      have hv : (v.state.players i).connected = true ∧
          (v.state.players i).registered = false := by
        rw [hsame.player i]
        exact hnew
      have hdrop : dropPlayer i false v = v.record (.dropped i false (v.state.players i).name)
          (v.state.setPlayer i Player.cleared) := by
        simp [dropPlayer, dropSlot_of_connected hv.1]
      rw [hdrop]
      exact h.dropNew v i _ _ hcinv (.drop hv.1) hv.2 hcalled

/-- A step of the loop. -/
theorem step (h : Upheld W S) {l : Loop F} (hl : Inv l.server) (hS : S l.server) {x : Step}
    (hx : x.inLoop = true) : S (l.step x).server := by
  cases x with
  | accept fd => exact h.acceptNewClient hl hS
  | read i result =>
    show S (readPlayer i result l.server)
    unfold readPlayer
    split
    · exact hS
    rename_i hconn
    dsimp only
    split
    · exact h.loseConnection i hl hS
    · rename_i hrc
      rw [readIntoPlayerBuffer_eq (not_le.mp hrc)]
      exact h.quiet _ _ _ hl (.receive (by simpa using hconn)) rfl hS
  | command i =>
    show S (commandPlayer i l.server)
    unfold commandPlayer
    split
    · exact hS
    rename_i hconn
    have hconn' : (l.server.state.players i).connected = true := by simpa using hconn
    split
    · exact hS
    rename_i line p hpop
    obtain ⟨inbuf, hp⟩ := popLine_eq hpop
    subst hp
    have hstep : Action l.server (.popped i line) (l.server.state.setPlayer i
        { l.server.state.players i with inbuf := inbuf }) := .pop hconn' hpop
    have hpopped := h.quiet _ _ _ hl hstep rfl hS
    exact h.handleCommand (hstep.inv hl) (by simpa using hconn') hpopped
  | write i results =>
    show S (writePlayer i results l.server)
    unfold writePlayer
    split
    · exact hS
    rename_i hconn
    dsimp only
    obtain ⟨n, hp⟩ := flushPlayerOutput_eq (l.server.state.players i) results
    rw [hp, take_sent]
    have hstep : Action l.server (.flushed i ((l.server.state.players i).outbuf.take n))
      (l.server.state.setPlayer i
        { l.server.state.players i with
          outbuf := (l.server.state.players i).outbuf.drop n }) :=
      .flush (by simpa using hconn)
    have hflushed := h.quiet _ _ _ hl hstep rfl hS
    split
    · exact h.loseConnection i (hstep.inv hl) hflushed
    · exact hflushed
  | timers now =>
    have hclosed := h.closes _ hl hS
    have hcinv := hl.along (closeLobbyIfNeeded_acts hl)
    have hexpired := h.expires _ hcinv hclosed
    have heinv := hcinv.along (expireUnreadySetupPlayers_acts hcinv)
    rw [Loop.step]
    unfold advanceMatchTimers
    simp only
    split
    · exact hexpired
    rename_i hphase
    split
    · exact hexpired
    dsimp only
    exact h.ticks _ _ heinv (not_not.mp hphase) hexpired
  | resolve => cases hx

/-- The rule: an upheld property that holds at the start, and that `resolve_round` keeps
where a run may take it, holds after every step of every run. -/
theorem reached (h : Upheld W S) {loopOnly : Bool} (hinit : ∀ clock, S (Server.init clock))
    (hresolve : ∀ w, loopOnly = false → Inv w → S w → w.state.phase = .roundActive →
      S (resolveRound w)) {w : Server F} (hw : Reached loopOnly w) : S w := by
  obtain ⟨clock, start, steps, hsteps, rfl⟩ := hw
  suffices hrun : ∀ l : Loop F, Inv l.server → S l.server → S (l.run steps).server from
    hrun (Loop.init clock start) (Inv.init clock) (hinit clock)
  induction steps with
  | nil => exact fun l _ hS => hS
  | cons x steps ih =>
    intro l hl hS
    have hrest : loopOnly = true → ∀ y ∈ steps, y.inLoop = true :=
      fun hloop y hy => hsteps hloop y (List.mem_cons_of_mem _ hy)
    refine ih hrest (l.step x) (Loop.step_inv hl x) ?_
    cases hx : x.inLoop with
    | true => exact h.step hl hS hx
    | false =>
      have hloop : loopOnly = false := by
        cases loopOnly with
        | false => rfl
        | true => exact absurd (hsteps rfl x List.mem_cons_self) (by simp [hx])
      cases x with
      | resolve =>
        show S (resolveActiveRound l.server)
        unfold resolveActiveRound
        split
        · rename_i hphase
          exact hresolve _ hloop hl hS hphase
        · exact hS
      | _ => cases hx

end Upheld

end BattleRoyale
