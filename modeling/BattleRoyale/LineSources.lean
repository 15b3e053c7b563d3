import BattleRoyale.StepRefinement

/-!
# What the lines are made of

Every line that the server formats is made of words of its own and of values that the state
bounds: names of the table, an id, the number of the round, seconds until a deadline,
coordinates. The handlers refuse a command by one line and nothing else; whatever they do
after they have accepted one, and whatever the timers do, sends no other refusal than
`ERROR lobby_closed`.
-/

namespace BattleRoyale

open Recorded

variable {F : Type}

/-- The values that a line is formatted from, for a clock and a state. -/
def Formed (env : ℕ → ℤ) (s : ServerState F) : ServerLine F → Prop
  | .error reason => reason = .lobbyClosed
  | .welcome id => ∃ k, id = (s.players k).id
  | .joined name => name.length < MAX_NAME_LENGTH
  | .left name => name.length < MAX_NAME_LENGTH
  | .bye name => name.length < MAX_NAME_LENGTH
  | .player name _ x y _ _ =>
    name.length < MAX_NAME_LENGTH ∧ ∃ k, x = (s.players k).x ∧ y = (s.players k).y
  | .spawnOk x y => ∃ k, x = (s.players k).x ∧ y = (s.players k).y
  | .pairTie a b _ _ => a.length < MAX_NAME_LENGTH ∧ b.length < MAX_NAME_LENGTH
  | .pairWinner a b _ _ winner x y =>
    (a.length < MAX_NAME_LENGTH ∧ b.length < MAX_NAME_LENGTH ∧
      winner.length < MAX_NAME_LENGTH) ∧ ∃ k, x = (s.players k).x ∧ y = (s.players k).y
  | .roundStart roundNo seconds => roundNo = s.roundNo ∧ ∃ n, seconds = toInt32 n
  | .lobbyOpen seconds =>
    0 ≤ seconds ∧ ∃ m n, seconds ≤ (env m).natAbs + (env n).natAbs + JOIN_WINDOW_SECONDS
  | .setupOpen seconds => ∃ n, seconds = toInt32 n
  | .chooseSpawn width height => width = GRID_W ∧ height = GRID_H
  | _ => True

/-- The bounds that the state keeps: the names fit into their fields, and the deadline of
the join window was set by the clock. -/
structure Bounded (w : Server F) : Prop where
  /-- Names. -/
  names : ∀ k, (w.state.players k).name.length < MAX_NAME_LENGTH
  /-- The deadline. -/
  deadline : w.state.joinDeadline = 0 ∨
    ∃ n, w.state.joinDeadline = w.env n + JOIN_WINDOW_SECONDS

/-- The buffers do not matter to a line. -/
theorem Rebuffered.formed {s t : ServerState F} (h : Rebuffered s t) {env : ℕ → ℤ}
    {line : ServerLine F} (hline : Formed env s line) : Formed env t line := by
  have hround : t.roundNo = s.roundNo := by rw [h.table]
  have hid : ∀ k, (t.players k).id = (s.players k).id := fun k => by rw [h.player k]
  have hplace : ∀ x y, (∃ k, x = (s.players k).x ∧ y = (s.players k).y) →
      ∃ k, x = (t.players k).x ∧ y = (t.players k).y := by
    rintro x y ⟨k, hx, hy⟩
    rw [← (show (t.players k).x = (s.players k).x by rw [h.player k])] at hx
    rw [← (show (t.players k).y = (s.players k).y by rw [h.player k])] at hy
    exact ⟨k, hx, hy⟩
  cases line with
  | welcome id =>
    obtain ⟨k, hk⟩ := hline
    exact ⟨k, hk.trans (hid k).symm⟩
  | player name choice x y alive waiting => exact ⟨hline.1, hplace x y hline.2⟩
  | spawnOk x y => exact hplace x y hline
  | pairWinner a b choiceA choiceB winner x y => exact ⟨hline.1, hplace x y hline.2⟩
  | roundStart roundNo seconds => exact ⟨hline.1.trans hround.symm, hline.2⟩
  | _ => exact hline

/-- The seconds until the end of the join window. -/
theorem Bounded.secondsLeft {w : Server F} (hw : Bounded w) (v : Server F)
    (hv : v.env = w.env) : 0 ≤ secondsLeft w.state.joinDeadline v ∧
      ∃ m n, secondsLeft w.state.joinDeadline v ≤
        (v.env m).natAbs + (v.env n).natAbs + JOIN_WINDOW_SECONDS := by
  have hwindow : (0 : ℤ) ≤ JOIN_WINDOW_SECONDS := by decide
  unfold BattleRoyale.secondsLeft
  simp only
  rcases hw.deadline with hzero | ⟨m, hm⟩
  · refine ⟨by split <;> omega, v.log.length, v.log.length, ?_⟩
    rw [hzero, Server.time]
    split <;> omega
  · refine ⟨by split <;> omega, m, v.log.length, ?_⟩
    rw [hm, ← hv, Server.time]
    split <;> omega

/-- The event is about a line. -/
def Event.isLine : Event F → Bool
  | .queued .. => true
  | .refused .. => true
  | _ => false

variable [CFloat F]

/-- The server formats only lines of this kind, and keeps the bounds. -/
inductive Printed : Server F → Server F → Prop
  | refl (w : Server F) : Printed w w
  | act {w v : Server F} {e : Event F} {s : ServerState F} : Printed w v → e.isLine = false →
      Bounded (v.record e s) → Printed w (v.record e s)
  | line {w v : Server F} (via : Via) (line : ServerLine F) (i : Slot) : Printed w v →
      Formed v.env v.state line → Printed w (queueTo via line i v).2

section Rules

theorem queueTo_env (via : Via) (line : ServerLine F) (i : Slot) (w : Server F) :
    (queueTo via line i w).2.env = w.env := by
  unfold queueTo
  split <;> rfl

/-- A call for a line changes nothing that is bounded. -/
theorem Bounded.queueTo {w : Server F} (h : Bounded w) (via : Via) (line : ServerLine F)
    (i : Slot) : Bounded (queueTo via line i w).2 := by
  have hsame := queueTo_rebuffered via line i w
  constructor
  · rintro k
    rw [hsame.player k]
    exact h.names k
  · rw [hsame.table, queueTo_env]
    exact h.deadline

/-- The bounds hold at the end. -/
theorem Printed.bounded {w v : Server F} (h : Printed w v) (hw : Bounded w) : Bounded v := by
  induction h with
  | refl => exact hw
  | act _ _ hbounded => exact hbounded
  | line via line i _ _ ih => exact ih.queueTo via line i

/-- One after another. -/
theorem Printed.trans {u v w : Server F} (h : Printed u v) (hnext : Printed v w) :
    Printed u w := by
  induction hnext with
  | refl => exact h
  | act _ he hbounded ih => exact .act ih he hbounded
  | line via line i _ hline ih => exact .line via line i ih hline

/-- The next function may rely on the bounds. -/
theorem Printed.andThen {f : Server F → Server F} (hf : ∀ w, Bounded w → Printed w (f w))
    {u v : Server F} (h : Printed u v) (hu : Bounded u) : Printed u (f v) :=
  h.trans (hf v (h.bounded hu))

/-- A loop of such functions. -/
theorem Printed.foldl {α : Type} {f : Server F → α → Server F}
    (hf : ∀ w a, Bounded w → Printed w (f w a)) (as : List α) {w : Server F} (hw : Bounded w) :
    Printed w (as.foldl f w) := by
  induction as generalizing w with
  | nil => exact .refl w
  | cons a as ih => exact (hf w a hw).trans (ih ((hf w a hw).bounded hw))

/-- An assignment that touches no name and no deadline of the join window. -/
theorem Printed.assign {w : Server F} (hw : Bounded w) {e : Event F} {s : ServerState F}
    (he : e.isLine = false)
    (hname : ∀ k, (s.players k).name = (w.state.players k).name ∨ (s.players k).name = [])
    (hdeadline : s.joinDeadline = w.state.joinDeadline ∨ s.joinDeadline = 0) :
    Printed w (w.record e s) := by
  refine .act (.refl w) he ⟨fun k => ?_, ?_⟩
  · rcases hname k with heq | heq
    · rw [System.record_state, heq]
      exact hw.names k
    · rw [System.record_state, heq]
      exact Nat.zero_lt_succ _
  · rcases hdeadline with heq | heq
    · rw [System.record_state, heq]
      exact hw.deadline
    · exact .inl heq

/-- An assignment to one slot that keeps its name. -/
theorem Printed.assignSlot {w : Server F} (hw : Bounded w) {e : Event F} {i : Slot}
    {p : Player F} (he : e.isLine = false)
    (hp : p.name = (w.state.players i).name ∨ p.name = []) :
    Printed w (w.record e (w.state.setPlayer i p)) := by
  refine .assign hw he (fun k => ?_) (.inl rfl)
  rw [ServerState.setPlayer_players]
  split
  · rename_i hk
    rwa [hk]
  · exact .inl rfl

/-- A line for one player. -/
theorem queueTo_printed (via : Via) (line : ServerLine F) (i : Slot) {w : Server F}
    (hline : Formed w.env w.state line) : Printed w (queueTo via line i w).2 :=
  .line via line i (.refl w) hline

theorem reply_printed (line : ServerLine F) (i : Slot) {w : Server F}
    (hline : Formed w.env w.state line) : Printed w (reply line i w) :=
  queueTo_printed .line line i hline

/-- Lines in a row, each of the kind in every state. -/
theorem queueSeq_printed (via : Via) (lines : List (Server F → ServerLine F)) (i : Slot)
    {w : Server F} (hlines : ∀ line ∈ lines, ∀ v : Server F, v.env = w.env →
      Rebuffered w.state v.state → Formed v.env v.state (line v)) :
    Printed w (queueSeq via lines i w).2 := by
  induction lines generalizing w with
  | nil => exact .refl w
  | cons line lines ih =>
    obtain ⟨hline, hrest⟩ := List.forall_mem_cons.mp hlines
    have hcall := queueTo_printed via _ i (hline w rfl (.refl _))
    have hsame := queueTo_rebuffered via (line w) i w
    have henv := queueTo_env via (line w) i w
    unfold queueSeq
    split <;> rename_i v hq <;> rw [hq] at hcall hsame henv
    · refine hcall.trans (ih fun line hmem u hu hbuf => ?_)
      exact hrest line hmem u (hu.trans henv) (hsame.trans hbuf)
    · exact hcall

/-- `drop_player` up to its announcement. -/
theorem dropSlot_printed (announce : Bool) (i : Slot) {w : Server F} (hw : Bounded w) :
    Printed w (dropSlot announce i w) := by
  unfold dropSlot
  split
  · exact .assignSlot hw rfl (.inr rfl)
  · exact .refl w

end Rules

section Nested

/-- One offer of a broadcast. -/
theorem offerLine_printed {line : ServerLine F} (acc : List Slot × Server F) (i : Slot)
    (hline : Formed acc.2.env acc.2.state line) :
    Printed acc.2 (offerLine line acc i).2 ∧
      Formed (offerLine line acc i).2.env (offerLine line acc i).2.state line := by
  have hcall := queueTo_printed .broadcast line i hline
  have hsame := (queueTo_rebuffered .broadcast line i acc.2).formed hline
  rw [← queueTo_env .broadcast line i acc.2] at hsame
  unfold offerLine
  split
  · split <;> rename_i v hq <;> rw [hq] at hcall hsame
    · exact ⟨hcall, hsame⟩
    · exact ⟨hcall, hsame⟩
  · exact ⟨.refl _, hline⟩

/-- The first loop of a broadcast. -/
theorem offerAll_printed {line : ServerLine F} {w : Server F}
    (hline : Formed w.env w.state line) : Printed w (offerAll line w).2 := by
  have hloop : ∀ (is : List Slot) (acc : List Slot × Server F),
      Formed acc.2.env acc.2.state line → Printed acc.2 (is.foldl (offerLine line) acc).2 := by
    intro is
    induction is with
    | nil => exact fun acc _ => .refl _
    | cons i is ih =>
      intro acc hacc
      obtain ⟨hcall, hnext⟩ := offerLine_printed acc i hacc
      exact hcall.trans (ih _ hnext)
  exact hloop slots ([], w) hline

variable {reeval : Server F → Server F} (hre : ∀ w, Bounded w → Printed w (reeval w))

include hre

/-- A broadcast, with the re-entrant call after it. -/
theorem queueBroadcastWith_printed (line : ServerLine F) {w : Server F} (hw : Bounded w)
    (hline : Formed w.env w.state line) : Printed w (queueBroadcastWith reeval line w) := by
  have hoffers := offerAll_printed hline
  unfold queueBroadcastWith
  split
  · rename_i v hq
    rwa [hq] at hoffers
  · rename_i toDrop v _ hq
    rw [hq] at hoffers
    have hdrops : Printed v (dropAll toDrop v) :=
      .foldl (fun u i hu => dropSlot_printed false i hu) toDrop (hoffers.bounded hw)
    exact (hoffers.trans hdrops).andThen hre hw

/-- The position of one player. -/
theorem broadcastPositionWith_printed {w : Server F} (i : Slot) (hw : Bounded w) :
    Printed w (broadcastPositionWith reeval w i) := by
  unfold broadcastPositionWith
  split
  · exact queueBroadcastWith_printed hre _ hw ⟨hw.names i, i, rfl, rfl⟩
  · exact .refl w

/-- The broadcast of all positions. -/
theorem broadcastPositionsWith_printed {w : Server F} (hw : Bounded w) :
    Printed w (broadcastPositionsWith reeval w) :=
  .foldl (fun _ i hv => broadcastPositionWith_printed hre i hv) slots hw

omit hre in
/-- A snapshot. -/
theorem queueGameStateForPlayer_printed (i : Slot) {w : Server F} (hw : Bounded w) :
    Printed w (queueGameStateForPlayer i w).2 := by
  refine queueSeq_printed .checked _ i fun line hline v henv hsame => ?_
  have hround : v.state.roundNo = w.state.roundNo := by rw [hsame.table]
  have hsecs := hw.secondsLeft v henv
  unfold snapshotLines at hline
  simp only [List.mem_append, List.mem_singleton, List.mem_map] at hline
  rcases hline with ((rfl | hphase) | ⟨k, _, rfl⟩) | rfl
  · trivial
  · unfold phaseLines at hphase
    cases hp : w.state.phase with
    | lobbyOpen =>
      simp only [hp] at hphase
      split at hphase
      · simp only [List.mem_singleton] at hphase
        subst hphase
        trivial
      · simp only [List.mem_singleton] at hphase
        subst hphase
        exact hsecs
    | setup =>
      simp only [hp, List.mem_cons, List.not_mem_nil, or_false] at hphase
      rcases hphase with rfl | rfl
      · trivial
      · exact ⟨_, rfl⟩
    | roundActive =>
      simp only [hp, List.mem_cons, List.not_mem_nil, or_false] at hphase
      rcases hphase with rfl | rfl
      · trivial
      · exact ⟨hround.symm, _, rfl⟩
    | repick =>
      simp only [hp, List.mem_cons, List.not_mem_nil, or_false] at hphase
      rcases hphase with rfl | rfl
      · trivial
      · trivial
    | gameOver =>
      simp only [hp] at hphase
      split at hphase
      · exact absurd hphase List.not_mem_nil
      · simp only [List.mem_singleton] at hphase
        subst hphase
        trivial
  · have hplayer := hsame.player k
    exact ⟨hw.names k, k, by rw [hplayer], by rw [hplayer]⟩
  · trivial

/-- The broadcast of snapshots. -/
theorem broadcastGameStateWith_printed {w : Server F} (hw : Bounded w) :
    Printed w (broadcastGameStateWith reeval w) := by
  have hstep : ∀ (acc : Bool × Server F) (i : Slot), Bounded acc.2 →
      Printed acc.2 (offerGameState acc i).2 := by
    intro acc i hacc
    have hsnap := queueGameStateForPlayer_printed i hacc
    unfold offerGameState
    split
    · split <;> rename_i v hq <;> rw [hq] at hsnap
      · exact hsnap
      · exact hsnap.trans (dropSlot_printed false i (hsnap.bounded hacc))
    · exact .refl _
  have hloop : ∀ (is : List Slot) (acc : Bool × Server F), Bounded acc.2 →
      Printed acc.2 (is.foldl offerGameState acc).2 := by
    intro is
    induction is with
    | nil => exact fun acc _ => .refl _
    | cons i is ih =>
      intro acc hacc
      have hone := hstep acc i hacc
      exact hone.trans (ih _ (hone.bounded hacc))
  have hall := hloop slots (false, w) hw
  unfold broadcastGameStateWith
  split <;> rename_i v hq <;> rw [hq] at hall
  · exact hall
  · exact hall.andThen hre hw

/-- `start_active_round`. -/
theorem startActiveRoundWith_printed {w : Server F} (hw : Bounded w) :
    Printed w (startActiveRoundWith reeval w) := by
  have hstart : Printed w (w.record .roundStarted (startRound w.time w.state)) := by
    refine .assign hw rfl (fun k => .inl ?_) (.inl rfl)
    simp only [startRound, Player.enterRound]
    split <;> rfl
  have hbroadcast := hstart.trans
    (queueBroadcastWith_printed hre
      (.roundStart (startRound w.time w.state).roundNo ROUND_SECONDS) (hstart.bounded hw)
      ⟨rfl, ROUND_SECONDS, rfl⟩)
  exact hbroadcast.trans (broadcastPositionsWith_printed hre (hbroadcast.bounded hw))

/-- `finish_repicks`. -/
theorem finishRepicksWith_printed {w : Server F} (hw : Bounded w) :
    Printed w (finishRepicksWith reeval w) := by
  have happly : Printed w (w.record .repicksFinished
      { w.state with players := fun i => (w.state.players i).applyRepick }) := by
    refine .assign hw rfl (fun k => .inl ?_) (.inl rfl)
    simp only [Player.applyRepick]
    split <;> rfl
  have hbroadcast := happly.trans
    (queueBroadcastWith_printed hre .repickDone (happly.bounded hw) trivial)
  have hpositions := hbroadcast.trans
    (broadcastPositionsWith_printed hre (hbroadcast.bounded hw))
  exact hpositions.trans (startActiveRoundWith_printed hre (hpositions.bounded hw))

/-- `begin_repicks`. -/
theorem beginRepicksWith_printed {w : Server F} (hw : Bounded w) :
    Printed w (beginRepicksWith reeval w) := by
  have hbegin : Printed w (w.record .repicksBegun
      { w.state with phase := .repick, players := fun i => (w.state.players i).clearRepick }) :=
    .assign hw rfl (fun _ => .inl rfl) (.inl rfl)
  have hbroadcast := hbegin.trans
    (queueBroadcastWith_printed hre .repickStart (hbegin.bounded hw) trivial)
  exact hbroadcast.trans (broadcastPositionsWith_printed hre (hbroadcast.bounded hw))

omit hre in
/-- `end_game`. -/
theorem endGame_printed {w : Server F} (hw : Bounded w) : Printed w (endGame w) := by
  have hend : Printed w (w.record .gameEnded { w.state with phase := .gameOver }) :=
    .assign hw rfl (fun _ => .inl rfl) (.inl rfl)
  refine hend.trans (.foldl (fun v i hv => ?_) slots (hend.bounded hw))
  have hcall : Printed v (queueGameOverResult i v).2 := by
    unfold queueGameOverResult
    split
    · exact .refl v
    · exact queueTo_printed .verdict _ i trivial
  unfold announceResult
  split
  · split <;> rename_i u hq <;> rw [hq] at hcall
    · exact hcall
    · exact hcall.trans (dropSlot_printed false i (hcall.bounded hv))
  · exact .refl v

/-- The body of `reevaluate_state`, in every phase. -/
theorem reevaluateBody_printed {w : Server F} (hw : Bounded w) :
    Printed w (reevaluateBody reeval w) := by
  unfold reevaluateBody
  cases w.state.phase with
  | gameOver => exact .refl w
  | lobbyOpen =>
    simp only [reevaluateLobbyOpen]
    split
    · exact .assign hw rfl (fun _ => .inl rfl) (.inr rfl)
    · exact .refl w
  | setup =>
    simp only [reevaluateSetup]
    split
    · exact endGame_printed hw
    · split
      · exact startActiveRoundWith_printed hre hw
      · exact .refl w
  | repick =>
    simp only [reevaluateRepick]
    split
    · exact endGame_printed hw
    · split
      · exact finishRepicksWith_printed hre hw
      · exact .refl w
  | roundActive =>
    simp only [reevaluateRoundActive]
    split
    · exact endGame_printed hw
    · exact .refl w

end Nested

/-- `reevaluate_state`, by induction on the nesting depth. -/
theorem reevaluateState_printed {w : Server F} (hw : Bounded w) :
    Printed w (reevaluateState w) := by
  have hwithin : ∀ (depth : ℕ) (v : Server F), Bounded v →
      Printed v (reevaluateWithin depth v) := by
    intro depth
    induction depth with
    | zero => exact fun v _ => .refl v
    | succ depth ih => exact fun v hv => reevaluateBody_printed ih hv
  exact hwithin _ w hw

/-- `queue_broadcast`. -/
theorem queueBroadcast_printed (line : ServerLine F) {w : Server F} (hw : Bounded w)
    (hline : Formed w.env w.state line) : Printed w (queueBroadcast line w) :=
  queueBroadcastWith_printed (fun _ => reevaluateState_printed) line hw hline

/-- `broadcast_positions`. -/
theorem broadcastPositions_printed {w : Server F} (hw : Bounded w) :
    Printed w (broadcastPositions w) :=
  broadcastPositionsWith_printed (fun _ => reevaluateState_printed) hw

/-- `broadcast_game_state`. -/
theorem broadcastGameState_printed {w : Server F} (hw : Bounded w) :
    Printed w (broadcastGameState w) :=
  broadcastGameStateWith_printed (fun _ => reevaluateState_printed) hw

/-- `start_active_round`. -/
theorem startActiveRound_printed {w : Server F} (hw : Bounded w) :
    Printed w (startActiveRound w) :=
  startActiveRoundWith_printed (fun _ => reevaluateState_printed) hw

/-- The call `drop_player(s, i, 0)` and the re-entrant call after it. -/
theorem dropReevaluate_printed (i : Slot) {w : Server F} (hw : Bounded w) :
    Printed w (reevaluateState (dropSilently i w)) :=
  (dropSlot_printed false i hw).andThen (fun _ => reevaluateState_printed) hw

/-- `drop_player`: the name of the client is read before its slot is cleared. -/
theorem dropPlayer_printed (i : Slot) (announce : Bool) {w : Server F} (hw : Bounded w) :
    Printed w (dropPlayer i announce w) := by
  have hdrop := dropSlot_printed announce i hw
  unfold dropPlayer
  simp only
  split
  · have hleft := hdrop.trans
      (queueBroadcast_printed (.left (w.state.players i).name) (hdrop.bounded hw) (hw.names i))
    exact hleft.andThen (fun _ => broadcastGameState_printed) hw
  · exact hdrop

/-- A client that leaves, and the re-entrant call after it. -/
theorem loseConnection_printed (i : Slot) {w : Server F} (hw : Bounded w) :
    Printed w (loseConnection i w) :=
  (dropPlayer_printed i true hw).andThen (fun _ => reevaluateState_printed) hw

section Commands

/-- The reply `ERROR lobby_closed`. -/
theorem refuseLobbyClosed_printed (i : Slot) {w : Server F} (hw : Bounded w) :
    Printed w (refuseLobbyClosed i w) := by
  have hcall : Printed w (queueTo .checked (.error .lobbyClosed) i w).2 :=
    queueTo_printed .checked _ i rfl
  unfold refuseLobbyClosed
  split <;> rename_i v hq <;> rw [hq] at hcall
  · exact hcall
  · exact hcall.trans (dropReevaluate_printed i (hcall.bounded hw))

/-- The last part of `maybe_admit_player`. -/
theorem admitPlayer_printed (i : Slot) {w : Server F} (hw : Bounded w) :
    Printed w (admitPlayer i w) := by
  have hadmit : Printed w (w.record (.admitted i) (w.state.setPlayer i
      { w.state.players i with admitted := true, waiting := true })) :=
    .assignSlot hw rfl (.inl rfl)
  have hcall := hadmit.trans (queueTo_printed .checked .joinedMatch i trivial)
  unfold admitPlayer
  simp only
  split <;> rename_i v hq <;> rw [hq] at hcall
  · exact hcall.trans (dropReevaluate_printed i (hcall.bounded hw))
  · have hv := hcall.bounded hw
    have hjoined := hcall.trans
      (queueBroadcast_printed (.joined (v.state.players i).name) hv (hv.names i))
    exact hjoined.andThen (fun _ => broadcastGameState_printed) hw

/-- `maybe_admit_player`. -/
theorem maybeAdmitPlayer_printed (i : Slot) {w : Server F} (hw : Bounded w) :
    Printed w (maybeAdmitPlayer i w) := by
  unfold maybeAdmitPlayer
  simp only
  split
  · exact .refl w
  split
  · exact .refl w
  split
  · exact .refl w
  split
  · exact refuseLobbyClosed_printed i hw
  split
  · have hopen : Printed w (w.record (.lobbyOpened i)
        { w.state with joinDeadline := w.time + JOIN_WINDOW_SECONDS }) :=
      .act (.refl w) rfl ⟨hw.names, .inr ⟨w.log.length, rfl⟩⟩
    have hwindow := hopen.trans (queueBroadcast_printed (.lobbyOpen JOIN_WINDOW_SECONDS)
      (hopen.bounded hw) ⟨by decide, 0, 0, by omega⟩)
    exact hwindow.trans (admitPlayer_printed i (hwindow.bounded hw))
  split
  · exact refuseLobbyClosed_printed i hw
  · exact admitPlayer_printed i hw

/-- The lobby status after HELLO. -/
theorem queueLobbyStatusForPlayer_printed (i : Slot) {w : Server F} (hw : Bounded w) :
    Printed w (queueLobbyStatusForPlayer i w) := by
  unfold queueLobbyStatusForPlayer
  split
  · have htype : Printed w (reply .chooseType i w) := reply_printed _ i trivial
    have hprompts : Printed w (reply (.chooseSpawn GRID_W GRID_H) i (reply .chooseType i w)) :=
      htype.trans (reply_printed _ i ⟨rfl, rfl⟩)
    dsimp only
    split
    · exact hprompts.trans (reply_printed _ i trivial)
    · exact hprompts.trans
        (reply_printed _ i ((hprompts.bounded hw).secondsLeft _ rfl))
  · exact reply_printed _ i trivial

/-- The width of `%s` bounds the word. -/
theorem scanWord_length {width : ℕ} {text word rest : List Char}
    (h : scanWord width text = some (word, rest)) : word.length ≤ width := by
  unfold scanWord at h
  simp only at h
  split at h
  · cases h
  · cases h
    exact List.length_take_le _ _

/-- HELLO refuses, or registers the client under a name that fits. -/
theorem handleHelloCommand_printed (i : Slot) (args : Option (List Char)) {w : Server F}
    (hw : Bounded w) : (∃ reason, handleHelloCommand i args w = reply (.error reason) i w) ∨
      Printed w (handleHelloCommand i args w) := by
  unfold handleHelloCommand
  simp only
  split
  · exact .inl ⟨_, rfl⟩
  split
  · exact .inl ⟨_, rfl⟩
  rename_i name rest hword
  split
  · exact .inl ⟨_, rfl⟩
  refine .inr ?_
  obtain ⟨text, _, hscan⟩ := Option.bind_eq_some_iff.mp hword
  have hlength := scanWord_length hscan
  generalize hu : w.record (.registered i) _ = u
  have hregister : Printed w u := by
    subst hu
    refine .act (.refl w) rfl ⟨fun k => ?_, hw.deadline⟩
    rw [System.record_state, ServerState.setPlayer_players]
    split
    · exact Nat.lt_succ_of_le hlength
    · exact hw.names k
  have hwelcome : Printed w (reply (.welcome (u.state.players i).id) i u) :=
    hregister.trans (reply_printed _ i ⟨i, rfl⟩)
  have hspectating := hwelcome.trans (reply_printed .spectating i trivial)
  exact hspectating.trans (queueLobbyStatusForPlayer_printed i (hspectating.bounded hw))

/-- CHOICE. -/
theorem handleChoiceCommand_printed (i : Slot) (args : Option (List Char)) {w : Server F}
    (hw : Bounded w) : (∃ reason, handleChoiceCommand i args w = reply (.error reason) i w) ∨
      Printed w (handleChoiceCommand i args w) := by
  rcases handleChoiceCommand_cases i args w with hrefused | ⟨choice, s, hs, _, heq⟩
  · exact .inl hrefused
  refine .inr ?_
  rw [heq]
  have hchose : Printed w (w.record (.chose i) s) := hs ▸ .assignSlot hw rfl (.inl rfl)
  have hok := hchose.trans (reply_printed (.choiceOk choice) i trivial)
  exact hok.trans (maybeAdmitPlayer_printed i (hok.bounded hw))

/-- SPAWN. -/
theorem handleSpawnCommand_printed (i : Slot) (args : Option (List Char)) {w : Server F}
    (hw : Bounded w) : (∃ reason, handleSpawnCommand i args w = reply (.error reason) i w) ∨
      Printed w (handleSpawnCommand i args w) := by
  rcases handleSpawnCommand_cases i args w with hrefused | ⟨x, y, s, hs, _, _, heq⟩
  · exact .inl hrefused
  refine .inr ?_
  rw [heq]
  have hspawned : Printed w (w.record (.spawned i) s) := hs ▸ .assignSlot hw rfl (.inl rfl)
  have hplace : Formed w.env s (.spawnOk x y : ServerLine F) := by
    subst hs
    exact ⟨i, by rw [ServerState.setPlayer_self], by rw [ServerState.setPlayer_self]⟩
  have hok := hspawned.trans (reply_printed (.spawnOk x y) i hplace)
  exact hok.trans (maybeAdmitPlayer_printed i (hok.bounded hw))

/-- REPICK. -/
theorem handleRepickCommand_printed (i : Slot) (args : Option (List Char)) {w : Server F}
    (hw : Bounded w) : (∃ reason, handleRepickCommand i args w = reply (.error reason) i w) ∨
      Printed w (handleRepickCommand i args w) := by
  rcases handleRepickCommand_cases i args w with
    hrefused | ⟨choice, s, v, hs, hv, _, _, heq⟩
  · exact .inl hrefused
  refine .inr ?_
  rw [heq]
  have hsubmit : Printed w (w.record (.repicked i) s) := hs ▸ .assignSlot hw rfl (.inl rfl)
  have hok : Printed w v := hv ▸ hsubmit.trans (reply_printed _ i trivial)
  split
  · exact hok.trans
      (finishRepicksWith_printed (fun _ => reevaluateState_printed) (hok.bounded hw))
  · exact hok.trans (reply_printed _ i trivial)

/-- GET_STATE. -/
theorem handleGetStateCommand_printed (i : Slot) {w : Server F} (hw : Bounded w) :
    Printed w (handleGetStateCommand i w) := by
  have hsnap := queueGameStateForPlayer_printed i hw
  unfold handleGetStateCommand
  split <;> rename_i v hq <;> rw [hq] at hsnap
  · exact hsnap
  · exact hsnap.trans (dropReevaluate_printed i (hsnap.bounded hw))

/-- `reset_match`. -/
theorem resetMatch_printed {w : Server F} (hw : Bounded w) : Printed w (resetMatch w) := by
  have hplayer : ∀ (v : Server F) (i : Slot), Bounded v → Printed v (resetPlayer v i) := by
    intro v i hv
    unfold resetPlayer
    split
    swap
    · exact .refl v
    have hreset : Printed v (v.record (.progressReset i)
        (v.state.setPlayer i (v.state.players i).resetProgress)) :=
      .assignSlot hv rfl (.inl rfl)
    have hkinds : ∀ line ∈ (resetLines : List (Server F → ServerLine F)), ∀ u : Server F,
        Formed u.env u.state (line u) := by
      simp only [resetLines, List.forall_mem_cons]
      exact ⟨fun _ => trivial, fun _ => trivial, fun _ => trivial, fun _ => ⟨rfl, rfl⟩,
        fun _ => trivial, fun _ h => absurd h List.not_mem_nil⟩
    have hlines := hreset.trans
      (queueSeq_printed .checked resetLines i fun line hline u _ _ => hkinds line hline u)
    simp only
    split <;> rename_i u hq <;> rw [hq] at hlines
    · exact hlines
    · exact hlines.trans (dropSlot_printed false i (hlines.bounded hv))
  have hreset : Printed w (w.record .matchReset
      { w.state with
        phase := .lobbyOpen
        joinDeadline := 0
        setupDeadline := 0
        roundDeadline := 0
        roundNo := 0 }) := .assign hw rfl (fun _ => .inl rfl) (.inr rfl)
  exact hreset.trans (.foldl hplayer slots (hreset.bounded hw))

/-- A command is refused by one line, or sends no refusal but `ERROR lobby_closed`. -/
theorem handleCommand_printed (i : Slot) (line : List Char) {w : Server F} (hw : Bounded w) :
    (∃ reason, handleCommand i line w = reply (.error reason) i w) ∨
      Printed w (handleCommand i line w) := by
  unfold handleCommand
  split
  · exact .inl ⟨_, rfl⟩
  split
  · exact handleHelloCommand_printed i _ hw
  split
  · exact .inr (handleGetStateCommand_printed i hw)
  split
  · exact handleChoiceCommand_printed i _ hw
  split
  · exact handleSpawnCommand_printed i _ hw
  split
  · exact handleRepickCommand_printed i _ hw
  split
  · unfold handleRematchCommand
    split
    · exact .inl ⟨_, rfl⟩
    · exact .inr (resetMatch_printed hw)
  split
  · exact .inr (loseConnection_printed i hw)
  · exact .inl ⟨_, rfl⟩

end Commands

section Timers

/-- The last part of `close_lobby_if_needed`. -/
theorem decideSetup_printed {w : Server F} (hw : Bounded w) : Printed w (decideSetup w) := by
  unfold decideSetup
  split
  · exact endGame_printed hw
  · split
    · exact startActiveRound_printed hw
    · exact queueBroadcast_printed .waitingForOthers hw trivial

/-- `close_lobby_if_needed`. -/
theorem closeLobbyIfNeeded_printed {w : Server F} (hw : Bounded w) :
    Printed w (closeLobbyIfNeeded w) := by
  unfold closeLobbyIfNeeded
  split
  · exact .refl w
  split
  · exact .refl w
  split
  · exact .refl w
  have hclose : Printed w (w.record .lobbyClosed
      { w.state with phase := .setup, setupDeadline := w.time + SETUP_SECONDS }) :=
    .assign hw rfl (fun _ => .inl rfl) (.inl rfl)
  have hclosed := hclose.trans
    (queueBroadcast_printed .lobbyClosed (hclose.bounded hw) trivial)
  have hsetup := hclosed.trans (queueBroadcast_printed (.setupOpen SETUP_SECONDS)
    (hclosed.bounded hw) ⟨SETUP_SECONDS, rfl⟩)
  exact hsetup.andThen (fun _ => decideSetup_printed) hw

/-- `expire_unready_setup_players`. -/
theorem expireUnreadySetupPlayers_printed {w : Server F} (hw : Bounded w) :
    Printed w (expireUnreadySetupPlayers w) := by
  have hloop : Printed w (slots.foldl expirePlayer w) := by
    refine .foldl (fun v i hv => ?_) slots hw
    unfold expirePlayer
    simp only
    split
    · exact dropPlayer_printed i true hv
    · exact .refl v
  unfold expireUnreadySetupPlayers
  split
  · exact .refl w
  split
  · exact .refl w
  split
  · exact .refl w
  refine hloop.trans ?_
  have hend := hloop.bounded hw
  simp only
  split
  · exact endGame_printed hend
  · split
    · exact startActiveRound_printed hend
    · exact .refl _

/-- `advance_match_timers`. -/
theorem advanceMatchTimers_printed (now last dt : ℚ) {w : Server F} (hw : Bounded w) :
    Printed w (advanceMatchTimers now last dt w).1 := by
  have htimers := (closeLobbyIfNeeded_printed hw).andThen
    (fun _ => expireUnreadySetupPlayers_printed) hw
  unfold advanceMatchTimers
  simp only
  split
  · exact htimers
  split
  · exact htimers
  refine htimers.trans ?_
  have hv := htimers.bounded hw
  generalize expireUnreadySetupPlayers (closeLobbyIfNeeded w) = v at hv
  have htick : Printed v
      (v.record .chaseTicked (simulateChaseTick v.state (CFloat.lit dt)).1) := by
    have hchased := simulateChaseTick_chased v.state (CFloat.lit dt)
    refine .assign hv rfl (fun k => .inl ?_) (.inl (by rw [hchased.table]))
    obtain ⟨alive, x, y, hplayer⟩ := hchased.player k
    rw [hplayer]
  have hpositions := htick.andThen (fun _ => broadcastPositions_printed) hv
  dsimp only
  split
  · exact hpositions.andThen (fun _ => reevaluateState_printed) hv
  · exact hpositions

/-- A pair with a winner. -/
theorem resolveWin_printed (pair : Pair) (winner loser : Slot) {w : Server F}
    (hw : Bounded w) : Printed w (resolveWin pair winner loser w) := by
  unfold resolveWin
  simp only
  generalize hu : w.record (.pairResolved winner loser) _ = u
  have hpair : Printed w u := by
    subst hu
    refine .assign hw rfl (fun k => .inl ?_) (.inl rfl)
    simp only [ServerState.setPlayer_players]
    split <;> split <;> simp_all
  have hu := hpair.bounded hw
  have hbroadcast := queueBroadcast_printed
    (.pairWinner (u.state.players pair.a).name (u.state.players pair.b).name
      (u.state.players pair.a).choice (u.state.players pair.b).choice
      (u.state.players winner).name (u.state.players winner).x (u.state.players winner).y) hu
    ⟨⟨hu.names _, hu.names _, hu.names _⟩, winner, rfl, rfl⟩
  generalize queueBroadcast _ u = v at hbroadcast ⊢
  refine (hpair.trans hbroadcast).trans ?_
  split
  · have hcall := queueTo_printed .checked .eliminated loser (w := v) trivial
    split <;> rename_i t hq <;> rw [hq] at hcall
    · exact hcall
    · exact hcall.trans (dropSlot_printed false loser
        (hcall.bounded (hbroadcast.bounded hu)))
  · exact .refl v

/-- The turn of a pair. -/
theorem resolvePair_printed (pair : Pair) {w : Server F} (hw : Bounded w) :
    Printed w (resolvePair w pair) := by
  unfold resolvePair
  simp only
  split
  · exact resolveWin_printed pair _ _ hw
  · split
    · exact resolveWin_printed pair _ _ hw
    · exact queueBroadcast_printed _ hw ⟨hw.names _, hw.names _⟩

/-- `resolve_round`. -/
theorem resolveRound_printed {w : Server F} (hw : Bounded w) : Printed w (resolveRound w) := by
  have hbye : ∀ (bye : Option Slot) (v : Server F), Bounded v → Printed v (announceBye bye v) := by
    intro bye v hv
    cases bye with
    | none => exact .refl v
    | some i => exact queueBroadcast_printed _ hv (hv.names i)
  have hconclude : ∀ v : Server F, Bounded v → Printed v (concludeRound v) := by
    intro v hv
    have hclear : Printed v (v.record .roundCleared
        { v.state with players := fun i => { v.state.players i with inRound := false } }) :=
      .assign hv rfl (fun _ => .inl rfl) (.inl rfl)
    have hpositions := hclear.andThen (fun _ => broadcastPositions_printed) hv
    refine hpositions.trans ?_
    have hend := hpositions.bounded hv
    unfold concludeRound
    simp only
    split
    · exact endGame_printed hend
    · split
      · exact beginRepicksWith_printed (fun _ => reevaluateState_printed) hend
      · exact startActiveRound_printed hend
  have hresolving : Printed w (w.record .resolving w.state) :=
    .assign hw rfl (fun _ => .inl rfl) (.inl rfl)
  unfold resolveRound
  simp only
  generalize buildPairs (w.record .resolving w.state).state (MAX_PLAYERS / 2) = pairing
  have hpairs := hresolving.trans (.foldl (fun _ pair hv => resolvePair_printed pair hv)
    pairing.1 (hresolving.bounded hw))
  have hannounced := hpairs.trans (hbye pairing.2 _ (hpairs.bounded hw))
  exact hannounced.trans (hconclude _ (hannounced.bounded hw))

end Timers

section Steps

/-- A new connection. -/
theorem acceptNewClient_printed (fd : ℤ) {w : Server F} (hw : Bounded w) :
    Printed w (acceptNewClient fd w) := by
  unfold acceptNewClient addPlayer
  cases slots.find? (fun i => !(w.state.players i).connected) with
  | none => exact .refl w
  | some i =>
    have haccept : Printed w (w.record (.accepted i)
        { w.state.setPlayer i (initPlayerSlot fd w.state.nextId) with
          nextId := w.state.nextId + 1 }) := by
      refine .assign hw rfl (fun k => ?_) (.inl rfl)
      simp only [ServerState.setPlayer_players]
      split
      · exact .inr rfl
      · exact .inl rfl
    have hcall := haccept.trans (queueTo_printed .line .info i trivial)
    dsimp only
    split <;> rename_i v hq <;> rw [hq] at hcall
    · exact hcall
    · exact hcall.trans (dropPlayer_printed i false (hcall.bounded hw))

/-- A line that was taken from a buffer, refused by one line or handled. -/
theorem Loop.step_printed (l : Loop F) (x : Step) (hw : Bounded l.server) :
    Printed l.server (l.step x).server ∨
      ∃ v i reason, Printed l.server v ∧ (l.step x).server = reply (.error reason) i v := by
  cases x with
  | accept fd => exact .inl (acceptNewClient_printed fd hw)
  | read i result =>
    refine .inl ?_
    show Printed l.server (readPlayer i result l.server)
    unfold readPlayer
    split
    · exact .refl _
    dsimp only
    split
    · exact loseConnection_printed i hw
    · rename_i hdata
      refine .assignSlot hw rfl (.inl ?_)
      rw [readIntoPlayerBuffer_eq (not_le.mp hdata)]
  | command i =>
    show Printed l.server (commandPlayer i l.server) ∨
      ∃ v j reason, Printed l.server v ∧ commandPlayer i l.server = reply (.error reason) j v
    unfold commandPlayer
    split
    · exact .inl (.refl _)
    split
    · exact .inl (.refl _)
    rename_i line p hpop
    obtain ⟨inbuf, rfl⟩ := popLine_eq hpop
    have hpopped : Printed l.server (l.server.record (.popped i line)
        (l.server.state.setPlayer i { l.server.state.players i with inbuf := inbuf })) :=
      .assignSlot hw rfl (.inl rfl)
    rcases handleCommand_printed i line (hpopped.bounded hw) with ⟨reason, heq⟩ | hprinted
    · exact .inr ⟨_, i, reason, hpopped, heq⟩
    · exact .inl (hpopped.trans hprinted)
  | write i results =>
    refine .inl ?_
    show Printed l.server (writePlayer i results l.server)
    unfold writePlayer
    split
    · exact .refl _
    dsimp only
    have hname : ((l.server.state.players i).flushPlayerOutput results).2.name =
        (l.server.state.players i).name := by
      obtain ⟨n, hsent⟩ := flushPlayerOutput_eq (l.server.state.players i) results
      rw [hsent]
    have hflushed : Printed l.server (l.server.record (.flushed i
        ((l.server.state.players i).outbuf.take
          ((l.server.state.players i).outbuf.length -
            ((l.server.state.players i).flushPlayerOutput results).2.outbuf.length)))
        (l.server.state.setPlayer i
          ((l.server.state.players i).flushPlayerOutput results).2)) :=
      .assignSlot hw rfl (.inl hname)
    split
    · exact hflushed.trans (loseConnection_printed i (hflushed.bounded hw))
    · exact hflushed
  | timers now =>
    refine .inl ?_
    have htimers := advanceMatchTimers_printed now l.lastChaseTick CHASE_TICK_SECONDS hw
    rwa [Loop.step]
  | resolve =>
    refine .inl ?_
    show Printed l.server (resolveActiveRound l.server)
    unfold resolveActiveRound
    split
    · exact resolveRound_printed hw
    · exact .refl _

/-- What the record says about a line: it is of some kind for the state, and it was refused
only when `queue_line` fails there. -/
def LineEntry (kind : ServerState F → ServerLine F → Prop)
    (x : Entry (ServerState F) (Event F)) : Prop :=
  ∀ i via line, (x.event = .queued i via line ∨ x.event = .refused i via line) →
    kind x.state line ∧
      (x.event = .refused i via line → (x.state.players i).queueVia via line = none)

theorem LineEntry.mono {kind kind' : ServerState F → ServerLine F → Prop}
    (hkind : ∀ s line, kind s line → kind' s line) {x : Entry (ServerState F) (Event F)}
    (h : LineEntry kind x) : LineEntry kind' x := fun i via line hx =>
  ⟨hkind _ _ (h i via line hx).1, (h i via line hx).2⟩

/-- The entry of a call for a line. -/
theorem queueTo_entry (kind : ServerState F → ServerLine F → Prop) (via : Via)
    (line : ServerLine F) (i : Slot) (w : Server F)
    (hline : ∀ t, Rebuffered w.state t → kind t line) :
    ∃ x, (queueTo via line i w).2.log = x :: w.log ∧ LineEntry kind x := by
  have hsame := hline _ (queueTo_rebuffered via line i w)
  unfold queueTo at hsame ⊢
  split
  · rename_i p hp
    simp only [hp] at hsame
    refine ⟨_, rfl, ?_⟩
    rintro j via' line' (heq | heq)
    · cases heq
      exact ⟨hsame, nofun⟩
    · cases heq
  · rename_i hp
    refine ⟨_, rfl, ?_⟩
    rintro j via' line' (heq | heq)
    · cases heq
    · cases heq
      exact ⟨hline _ (.refl _), fun _ => hp⟩

/-- A refusal of a command, or a line with values from the state. -/
def Sourced (env : ℕ → ℤ) (s : ServerState F) (line : ServerLine F) : Prop :=
  (∃ reason, line = .error reason) ∨ Formed env s line

/-- The added entries. -/
theorem Printed.kept {w v : Server F} (h : Printed w v) : v.env = w.env ∧
    ∃ new, v.log = new ++ w.log ∧ ∀ x ∈ new, LineEntry (Formed w.env) x := by
  induction h with
  | refl => exact ⟨rfl, [], rfl, fun x hx => absurd hx List.not_mem_nil⟩
  | @act v e s _ he _ ih =>
    obtain ⟨henv, new, hlog, hnew⟩ := ih
    refine ⟨henv, ⟨e, s⟩ :: new, by rw [System.record_log, hlog, List.cons_append], ?_⟩
    rintro x hx
    rcases List.mem_cons.mp hx with rfl | hx
    · rintro i via line (heq | heq) <;> simp only at heq <;> subst heq <;> cases he
    · exact hnew x hx
  | @line v via line i _ hline ih =>
    obtain ⟨henv, new, hlog, hnew⟩ := ih
    obtain ⟨x, hx, hkept⟩ := queueTo_entry (Formed w.env) via line i v
      fun t ht => ht.formed (henv ▸ hline)
    refine ⟨(queueTo_env via line i v).trans henv, x :: new, by rw [hx, hlog]; rfl, ?_⟩
    rintro y hy
    rcases List.mem_cons.mp hy with rfl | hy
    · exact hkept
    · exact hnew y hy

/-- Every line of a run is a refusal or has its values from the state, and it is refused
only when `queue_line` fails. -/
theorem Reached.lines_sourced {loopOnly : Bool} {w : Server F} (h : Reached loopOnly w) :
    Bounded w ∧ ∀ x ∈ w.log, LineEntry (Sourced w.env) x := by
  obtain ⟨clock, start, steps, -, rfl⟩ := h
  suffices hrun : ∀ l : Loop F, (Bounded l.server ∧
      ∀ x ∈ l.server.log, LineEntry (Sourced l.server.env) x) →
      Bounded (l.run steps).server ∧
        ∀ x ∈ (l.run steps).server.log, LineEntry (Sourced (l.run steps).server.env) x by
    refine hrun (Loop.init clock start) ⟨⟨fun _ => Nat.zero_lt_succ _, .inl rfl⟩, ?_⟩
    rintro x hx i via line heq
    obtain rfl := List.mem_singleton.mp hx
    rcases heq with heq | heq <;> cases heq
  induction steps with
  | nil => exact fun l hl => hl
  | cons x steps ih =>
    rintro l ⟨hw, hlog⟩
    refine ih (l.step x) ?_
    rcases l.step_printed x hw with hstep | ⟨v, i, reason, hv, heq⟩
    · obtain ⟨henv, new, hnew, hkept⟩ := hstep.kept
      refine ⟨hstep.bounded hw, fun y hy => ?_⟩
      rw [henv]
      rcases List.mem_append.mp (hnew ▸ hy) with hy | hy
      · exact (hkept y hy).mono fun _ _ => .inr
      · exact hlog y hy
    · obtain ⟨henv, new, hnew, hkept⟩ := hv.kept
      obtain ⟨z, hz, hlast⟩ := queueTo_entry (Sourced l.server.env) .line (.error reason)
        i v fun _ _ => .inl ⟨reason, rfl⟩
      rw [heq]
      refine ⟨(hv.bounded hw).queueTo .line (.error reason) i, fun y hy => ?_⟩
      have henv' : (reply (.error reason) i v).env = l.server.env :=
        (queueTo_env ..).trans henv
      rw [henv']
      have hmem : y ∈ z :: v.log := hz ▸ hy
      rcases List.mem_cons.mp hmem with rfl | hmem
      · exact hlast
      rcases List.mem_append.mp (hnew ▸ hmem) with hmem | hmem
      · exact (hkept y hmem).mono fun _ _ => .inr
      · exact hlog y hmem

end Steps

end BattleRoyale
