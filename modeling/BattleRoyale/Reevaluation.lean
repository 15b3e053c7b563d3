import BattleRoyale.Invariants
import BattleRoyale.Broadcast

/-!
# Broadcasts and re-entrant calls refine the abstract server

The part of the refinement that goes through the mutual recursion of the source:
the broadcasts, the end and the start of a match, and `reevaluate_state` perform
actions of the abstract server only, and only nested ones. Each function is
treated for any re-entrant call that does so, and the recursion depth is removed
by one induction at the end.
-/

namespace BattleRoyale

open Recorded

variable {F : Type}

/-- The announcements and executions after one more entry. -/
theorem roundLines_cons {e : Event F} {s : ServerState F} {log : Log F} (i : Slot)
    (he : e.isReset = false) :
    roundLines i (⟨e, s⟩ :: log) = roundLines i log + if e.isRoundLine i then 1 else 0 :=
  countSince_cons he

theorem roundStarts_cons {e : Event F} {s : ServerState F} {log : Log F}
    (he : e.isReset = false) :
    roundStarts (⟨e, s⟩ :: log) = roundStarts log + if e.isStart then 1 else 0 :=
  countSince_cons he

theorem verdictLines_cons {e : Event F} {s : ServerState F} {log : Log F} (i : Slot)
    (he : e.isReset = false) :
    verdictLines i (⟨e, s⟩ :: log) = verdictLines i log + if e.isVerdictLine i then 1 else 0 :=
  countSince_cons he

theorem gameEnds_cons {e : Event F} {s : ServerState F} {log : Log F}
    (he : e.isReset = false) :
    gameEnds (⟨e, s⟩ :: log) = gameEnds log + if e.isEnd then 1 else 0 :=
  countSince_cons he

theorem RoundsResolved.cons {log : Log F} (h : RoundsResolved log)
    (x : Entry (ServerState F) (Event F)) : RoundsResolved (x :: log) := by
  obtain ⟨y, hy, he⟩ := h
  exact ⟨y, List.mem_cons_of_mem _ hy, he⟩

/-- Whether a line may be queued does not depend on the contents of buffers. -/
theorem LineOk.rebuffered {w v : Server F} {i : Slot} {via : Via} {line : ServerLine F}
    (h : LineOk w i via line) (hs : Rebuffered w.state v.state) (henv : v.env = w.env)
    (hlog : RoundsResolved w.log → RoundsResolved v.log)
    (hround : via = .broadcast → roundLines i w.log < roundStarts w.log →
      roundLines i v.log < roundStarts v.log)
    (hverdict : via = .verdict → verdictLines i w.log < gameEnds w.log →
      verdictLines i v.log < gameEnds v.log) : LineOk v i via line := by
  have hphase : v.state.phase = w.state.phase := by rw [hs.table]
  have hdeadline : v.state.joinDeadline = w.state.joinDeadline := by rw [hs.table]
  have hadmitted : ∀ k, (v.state.players k).isAdmitted = (w.state.players k).isAdmitted :=
    fun k => by rw [hs.player k]; rfl
  have hregistered : ∀ k, (v.state.players k).isRegistered = (w.state.players k).isRegistered :=
    fun k => by rw [hs.player k]; rfl
  have hname : ∀ k, (v.state.players k).name = (w.state.players k).name :=
    fun k => by rw [hs.player k]
  have htext : ∀ k, (v.state.players k).line = (w.state.players k).line :=
    fun k => by rw [hs.player k]; rfl
  have hresult : (v.state.players i).verdict = (w.state.players i).verdict := by
    rw [hs.player i]; rfl
  cases line with
  | roundStart n seconds =>
    cases via with
    | broadcast => exact hround rfl h
    | _ => trivial
  | gameOver verdict =>
    cases via with
    | verdict => exact ⟨hphase.trans h.1, hresult.trans h.2.1, hverdict rfl h.2.2⟩
    | checked => exact ⟨hphase.trans h.1, hresult.trans h.2⟩
    | line => exact h
    | broadcast => exact h
  | lobbyWaiting => cases via <;> exact ⟨hphase.trans h.1, hdeadline.trans h.2⟩
  | lobbyOpen seconds =>
    cases via <;> exact ⟨hphase.trans h.1, fun hclock => hdeadline ▸ h.2 (henv ▸ hclock)⟩
  | lobbyClosed => cases via <;> exact fun hopen => h (hphase.symm.trans hopen)
  | player name choice x y alive waiting =>
    have hline : ∃ k, (w.state.players k).isAdmitted = true ∧
        (w.state.players k).line = .player name choice x y alive waiting := by
      cases via <;> exact h
    obtain ⟨k, hk, hkline⟩ := hline
    have hnew : ∃ k, (v.state.players k).isAdmitted = true ∧
        (v.state.players k).line = .player name choice x y alive waiting :=
      ⟨k, (hadmitted k).trans hk, (htext k).trans hkline⟩
    cases via <;> exact hnew
  | left name =>
    have hold : ∀ k, (w.state.players k).isRegistered = true → (w.state.players k).name ≠ name := by
      cases via <;> exact h
    have hnew : ∀ k, (v.state.players k).isRegistered = true →
        (v.state.players k).name ≠ name := by
      intro k hk
      rw [hname k]
      exact hold k ((hregistered k).symm.trans hk)
    cases via <;> exact hnew
  | pairWinner => cases via <;> exact hlog h
  | stateBegin => cases via <;> exact h
  | matchReset => cases via <;> exact h
  | _ => cases via <;> trivial

/-- The event is a call of `queue_line` for the slot. -/
def Event.isCall (i : Slot) (e : Event F) : Prop :=
  ∃ via line, e = .queued i via line ∨ e = .refused i via line

/-- A call for one client does not matter to the others. -/
theorem LineOk.other {w : Server F} {i j : Slot} {via : Via} {line : ServerLine F} {e : Event F}
    {s : ServerState F} (h : LineOk w j via line) (hij : j ≠ i) (he : e.isCall i)
    (hs : Rebuffered w.state s) : LineOk (w.record e s) j via line := by
  have hfacts : e.isReset = false ∧ e.isStart = false ∧ e.isEnd = false ∧
      e.isRoundLine j = false ∧ e.isVerdictLine j = false := by
    obtain ⟨via', line', rfl | rfl⟩ := he
    · cases via' <;> cases line' <;>
        simp [Event.isReset, Event.isStart, Event.isEnd, Event.isRoundLine,
          Event.isVerdictLine, hij]
    · exact ⟨rfl, rfl, rfl, rfl, rfl⟩
  obtain ⟨hreset, hstart, hend, hround, hverdict⟩ := hfacts
  refine h.rebuffered hs rfl (fun hres => hres.cons _) (fun _ hlt => ?_) (fun _ hlt => ?_)
  · rw [System.record_log, roundLines_cons j hreset, roundStarts_cons hreset, hstart, hround]
    exact hlt
  · rw [System.record_log, verdictLines_cons j hreset, gameEnds_cons hreset, hend, hverdict]
    exact hlt

variable [CFloat F]

/-- Nested actions, one after another. -/
abbrev Reacts (w v : Server F) : Prop := Path Action (fun e => e.isNested = true) w v

/-- Actions within a match, one after another. -/
abbrev Acts (w v : Server F) : Prop := Path Action (fun e => e.inMatch = true) w v

/-- A re-entrant call that performs nested actions only. -/
def Reactive (reeval : Server F → Server F) : Prop := ∀ w, Inv w → Reacts w (reeval w)

/-- The invariants hold along every path. -/
theorem Inv.along {P : Event F → Prop} {w v : Server F} (hw : Inv w) (h : Path Action P w v) :
    Inv v := h.invariant Inv (fun _ _ _ _ hstep hi => hstep.inv hi) hw

/-- A nested action belongs to its match. -/
theorem Reacts.acts {w v : Server F} (h : Reacts w v) : Acts w v :=
  h.mono fun _ => Event.isNested.inMatch

/-- Within a match no action opens the lobby again, or clears the number of rounds. -/
theorem Action.later {w : Server F} {e : Event F} {s : ServerState F} (h : Action w e s)
    (he : e.inMatch = true) (hw : w.state.phase ≠ .lobbyOpen) : s.phase ≠ .lobbyOpen := by
  cases h with
  | start hphase horder => simp [startRound]
  | closeLobby hphase hcount htime => simp
  | finish hphase horder hwhy => simp
  | enterRepick hphase hround hresolved => simp
  | tick hphase =>
    rw [(simulateChaseTick_chased w.state _).table]
    exact hw
  | reset hphase => cases he
  | resetProgress hreg hphase => cases he
  | _ => exact hw

/-- Within a match no action clears the number of rounds. -/
theorem Action.roundNo_ne {w : Server F} {e : Event F} {s : ServerState F} (h : Action w e s)
    (he : e.inMatch = true) (hw : w.state.roundNo ≠ 0) : s.roundNo ≠ 0 := by
  cases h with
  | start hphase horder => simp [startRound]
  | tick hphase =>
    rw [(simulateChaseTick_chased w.state _).table]
    exact hw
  | reset hphase => cases he
  | resetProgress hreg hphase => cases he
  | _ => exact hw

theorem Acts.later {w v : Server F} (h : Acts w v) (hw : w.state.phase ≠ .lobbyOpen) :
    v.state.phase ≠ .lobbyOpen :=
  h.state_invariant (fun s => s.phase ≠ .lobbyOpen) (fun _ _ _ he hstep => hstep.later he) hw

theorem Acts.roundNo_ne {w v : Server F} (h : Acts w v) (hw : w.state.roundNo ≠ 0) :
    v.state.roundNo ≠ 0 :=
  h.state_invariant (fun s => s.roundNo ≠ 0) (fun _ _ _ he hstep => hstep.roundNo_ne he) hw

/-- One call of `queue_line`. -/
theorem queueTo_path {P : Event F → Prop} {via : Via} {line : ServerLine F} {i : Slot}
    {w : Server F} (hqueued : P (.queued i via line)) (hrefused : P (.refused i via line))
    (hconn : (w.state.players i).connected = true) (hline : LineOk w i via line) :
    Path Action P w (queueTo via line i w).2 := by
  unfold queueTo
  split
  · rename_i p hp
    exact .single hqueued (.queue (.inl hconn) hline hp)
  · rename_i hp
    exact .single hrefused (.refuse hp)

/-- The call `drop_player(s, i, 0)`. -/
theorem dropSilently_path {P : Event F → Prop} (hdropped : ∀ i name, P (.dropped i false name))
    (i : Slot) (w : Server F) : Path Action P w (dropSilently i w) := by
  cases hc : (w.state.players i).connected with
  | true =>
    rw [dropSilently, dropSlot_of_connected hc]
    exact .single (hdropped i _) (.drop hc)
  | false =>
    rw [dropSilently, dropSlot_of_free hc]
    exact .refl w

theorem dropSilently_reacts (i : Slot) (w : Server F) : Reacts w (dropSilently i w) :=
  dropSilently_path (fun _ _ => rfl) i w

/-- A call of `queue_line` changes a send buffer at most. -/
theorem queueTo_rebuffered (via : Via) (line : ServerLine F) (i : Slot) (w : Server F) :
    Rebuffered w.state (queueTo via line i w).2.state := by
  unfold queueTo
  split
  · rename_i p hp
    rw [Player.queueVia_eq_some hp]
    exact .setPlayer ..
  · exact .refl _

/-- A call for one client does not matter to the others. -/
theorem LineOk.after_queueTo {w : Server F} {i j : Slot} {via via' : Via}
    {line line' : ServerLine F} (h : LineOk w j via line) (hij : j ≠ i) :
    LineOk (queueTo via' line' i w).2 j via line := by
  have hs := queueTo_rebuffered via' line' i w
  unfold queueTo at hs ⊢
  split at hs <;> simp only
  · exact h.other hij ⟨via', line', .inl rfl⟩ hs
  · exact h.other hij ⟨via', line', .inr rfl⟩ hs

/-- The first loop of a broadcast. -/
theorem foldl_offerLine_path {P : Event F → Prop} {line : ServerLine F}
    (hqueued : ∀ i, P (.queued i .broadcast line)) (hrefused : ∀ i, P (.refused i .broadcast line))
    (is : List Slot) (his : is.Nodup) (acc : List Slot) (w : Server F)
    (hline : ∀ i ∈ is, LineOk w i .broadcast line) :
    Path Action P w (is.foldl (offerLine line) (acc, w)).2 := by
  induction is generalizing acc w with
  | nil => exact .refl w
  | cons i is ih =>
    obtain ⟨hi, his⟩ := List.nodup_cons.mp his
    rw [List.foldl_cons]
    by_cases hc : (w.state.players i).connected = true
    · obtain ⟨acc', hstep⟩ : ∃ acc', offerLine line (acc, w) i =
          (acc', (queueTo .broadcast line i w).2) := by
        simp only [offerLine, hc, if_true]
        split <;> rename_i hq <;> exact ⟨_, by rw [hq]⟩
      rw [hstep]
      have hcall : Path Action P w (queueTo .broadcast line i w).2 :=
        queueTo_path (hqueued i) (hrefused i) hc (hline i List.mem_cons_self)
      refine hcall.trans (ih his _ _ ?_)
      intro j hj
      exact (hline j (List.mem_cons_of_mem _ hj)).after_queueTo fun hji => hi (hji ▸ hj)
    · have hstep : offerLine line (acc, w) i = (acc, w) := by simp [offerLine, hc]
      rw [hstep]
      exact ih his acc w fun j hj => hline j (List.mem_cons_of_mem _ hj)

/-- The first loop over the whole table. -/
theorem offerAll_path {P : Event F → Prop} {line : ServerLine F} {w : Server F}
    (hqueued : ∀ i, P (.queued i .broadcast line)) (hrefused : ∀ i, P (.refused i .broadcast line))
    (hline : ∀ i, LineOk w i .broadcast line) : Path Action P w (offerAll line w).2 :=
  foldl_offerLine_path hqueued hrefused slots slots_nodup [] w fun i _ => hline i

/-- The second loop of a broadcast. -/
theorem dropAll_path {P : Event F → Prop} (hdropped : ∀ i name, P (.dropped i false name))
    (is : List Slot) (w : Server F) : Path Action P w (dropAll is w) :=
  Path.foldl (fun _ => True) (fun _ _ _ _ => trivial)
    (fun v i _ => dropSilently_path hdropped i v) is trivial

/-- The two loops of a broadcast. -/
theorem offerAll_dropAll_reacts {line : ServerLine F} {w : Server F}
    (hline : ∀ i, LineOk w i .broadcast line) :
    Reacts w (dropAll (offerAll line w).1 (offerAll line w).2) :=
  (offerAll_path (fun _ => rfl) (fun _ => rfl) hline).trans (dropAll_path (fun _ _ => rfl) _ _)

/-- A broadcast. -/
theorem queueBroadcastWith_reacts {reeval : Server F → Server F} (hre : Reactive reeval)
    (line : ServerLine F) {w : Server F} (hw : Inv w)
    (hline : ∀ i, LineOk w i .broadcast line) :
    Reacts w (queueBroadcastWith reeval line w) := by
  obtain ⟨v, _, hv, hfit, hover⟩ := queueBroadcastWith_eq reeval line w
  have hloops : Reacts w v := hv ▸ offerAll_dropAll_reacts hline
  by_cases h : overflows line w.state
  · rw [hover h]
    exact hloops.trans (hre v (hw.along hloops))
  · rw [hfit h]
    exact hloops

/-- The broadcast of all positions. -/
theorem broadcastPositionsWith_reacts {reeval : Server F → Server F} (hre : Reactive reeval)
    {w : Server F} (hw : Inv w) : Reacts w (broadcastPositionsWith reeval w) := by
  refine Path.foldl Inv (fun _ _ hpath hv => hv.along hpath) (fun v i hv => ?_) slots hw
  unfold broadcastPositionWith
  split
  · rename_i hadmitted
    exact queueBroadcastWith_reacts hre _ hv fun _ => ⟨i, hadmitted, rfl⟩
  · exact .refl v

omit [CFloat F] in
/-- A start that was just recorded is still to be announced to everybody. -/
theorem roundStart_ok {w : Server F} (hw : Inv w) (i : Slot) :
    LineOk (w.record .roundStarted (startRound w.time w.state)) i .broadcast
      (.roundStart (startRound w.time w.state).roundNo ROUND_SECONDS) := by
  have hle := hw.roundLines_le i
  show roundLines i (⟨.roundStarted, _⟩ :: w.log) < roundStarts (⟨.roundStarted, _⟩ :: w.log)
  rw [roundLines_cons i rfl, roundStarts_cons rfl]
  simp only [Event.isRoundLine, Event.isStart, if_true, Bool.false_eq_true, if_false]
  omega

/-- The start of a round, where it may start. -/
theorem startActiveRoundWith_reacts {reeval : Server F → Server F} (hre : Reactive reeval)
    {w : Server F} (hw : Inv w) (hphase : w.state.phase ≠ .lobbyOpen)
    (horder : w.state.phase = .setup ∨ FullAtClosing w.log ∨ RoundsResolved w.log) :
    Reacts w (startActiveRoundWith reeval w) := by
  have hstart : Reacts w (w.record .roundStarted (startRound w.time w.state)) :=
    .single rfl (.start hphase horder)
  have hround := queueBroadcastWith_reacts hre _ (hw.along hstart) (roundStart_ok hw)
  exact (hstart.trans hround).trans
    (broadcastPositionsWith_reacts hre ((hw.along hstart).along hround))

/-- The loop of `end_game` at one slot: the other clients still wait for their results. -/
theorem announceResult_reacts {w : Server F} {i : Slot} (hphase : w.state.phase = .gameOver)
    (hnew : verdictLines i w.log < gameEnds w.log) :
    Reacts w (announceResult w i) ∧ (announceResult w i).state.phase = .gameOver ∧
      ∀ j, j ≠ i → verdictLines j w.log < gameEnds w.log →
        verdictLines j (announceResult w i).log < gameEnds (announceResult w i).log := by
  unfold announceResult
  split
  swap
  · exact ⟨.refl w, hphase, fun _ _ h => h⟩
  rename_i hc
  have hconn : (w.state.players i).connected = true := hc
  cases hverdict : (w.state.players i).verdict with
  | none =>
    simp only [queueGameOverResult, hverdict]
    exact ⟨.refl w, hphase, fun _ _ h => h⟩
  | some v =>
    simp only [queueGameOverResult, hverdict]
    have hpath : Reacts w (queueTo .verdict (.gameOver v) i w).2 :=
      queueTo_path rfl rfl hconn ⟨hphase, hverdict, hnew⟩
    have hsame : (queueTo .verdict (.gameOver v) i w).2.state.phase = .gameOver := by
      rw [(queueTo_rebuffered .verdict (.gameOver v) i w).table]
      exact hphase
    have hothers : ∀ j, j ≠ i → verdictLines j w.log < gameEnds w.log →
        verdictLines j (queueTo .verdict (.gameOver v) i w).2.log <
          gameEnds (queueTo .verdict (.gameOver v) i w).2.log := by
      intro j hj hlt
      unfold queueTo
      split
      · rw [System.record_log, verdictLines_cons j rfl, gameEnds_cons rfl]
        simp only [Event.isVerdictLine, Event.isEnd, beq_eq_false_iff_ne.mpr hj,
          Bool.false_eq_true, if_false]
        exact hlt
      · rw [System.record_log, verdictLines_cons j rfl, gameEnds_cons rfl]
        exact hlt
    split <;> rename_i v' hq <;> rw [hq] at hpath hsame hothers
    · exact ⟨hpath, hsame, hothers⟩
    · refine ⟨hpath.trans (dropSilently_reacts i v'), ?_, fun j hj hlt => ?_⟩
      · rw [dropSilently, dropSlot]
        split <;> exact hsame
      · rw [dropSilently, dropSlot]
        split <;> exact hothers j hj hlt

/-- The loop of `end_game`. -/
theorem foldl_announceResult_reacts (is : List Slot) (his : is.Nodup) (w : Server F)
    (hphase : w.state.phase = .gameOver)
    (hnew : ∀ i ∈ is, verdictLines i w.log < gameEnds w.log) :
    Reacts w (is.foldl announceResult w) := by
  induction is generalizing w with
  | nil => exact .refl w
  | cons i is ih =>
    obtain ⟨hi, his⟩ := List.nodup_cons.mp his
    obtain ⟨hpath, hsame, hothers⟩ := announceResult_reacts hphase (hnew i List.mem_cons_self)
    exact hpath.trans (ih his _ hsame fun j hj =>
      hothers j (fun hji => hi (hji ▸ hj)) (hnew j (List.mem_cons_of_mem _ hj)))

/-- The end of a match, where it may end. -/
theorem endGame_reacts {w : Server F} (hw : Inv w) (hphase : w.state.phase ≠ .lobbyOpen)
    (horder : w.state.phase = .setup ∨ w.state.phase = .roundActive ∨
      FullAtClosing w.log ∨ RoundsResolved w.log)
    (hwhy : admittedCount w.state < 2 ∨ RoundsResolved w.log ∨
      (w.state.phase = .roundActive ∧
        (activeAliveCount w.state ≤ 1 ∨ countAliveChoiceTypes w.state ≤ 1))) :
    Reacts w (endGame w) := by
  have hend : Reacts w (w.record .gameEnded { w.state with phase := .gameOver }) :=
    .single rfl (.finish hphase horder hwhy)
  refine hend.trans (foldl_announceResult_reacts slots slots_nodup _ rfl fun i _ => ?_)
  have hle := hw.verdictLines_le i
  rw [System.record_log, verdictLines_cons i rfl, gameEnds_cons rfl]
  simp only [Event.isVerdictLine, Event.isEnd, if_true, Bool.false_eq_true, if_false]
  omega

/-- An old record stays part of the new one. -/
theorem RoundsResolved.along {P : Event F → Prop} {w v : Server F}
    (h : RoundsResolved w.log) (hpath : Path Action P w v) : RoundsResolved v.log := by
  obtain ⟨x, hx, he⟩ := h
  exact ⟨x, hpath.log_subset hx, he⟩

/-- The end of a repick. -/
theorem finishRepicksWith_reacts {reeval : Server F → Server F} (hre : Reactive reeval)
    {w : Server F} (hw : Inv w) (hphase : w.state.phase = .repick)
    (hall : allAliveRepicked w.state = true) : Reacts w (finishRepicksWith reeval w) := by
  have happly : Reacts w (w.record .repicksFinished
      { w.state with players := fun i => (w.state.players i).applyRepick }) :=
    .single rfl (.applyRepicks hphase hall)
  have hresolved : RoundsResolved (w.record .repicksFinished
      { w.state with players := fun i => (w.state.players i).applyRepick }).log :=
    ⟨_, List.mem_cons_self, .inr rfl⟩
  have hdone := queueBroadcastWith_reacts hre .repickDone (hw.along happly) fun _ => trivial
  have hpos := broadcastPositionsWith_reacts hre ((hw.along happly).along hdone)
  have hpath := (happly.trans hdone).trans hpos
  refine hpath.trans (startActiveRoundWith_reacts hre (hw.along hpath) ?_ ?_)
  · exact Acts.later (Reacts.acts hpath) (by simp [hphase])
  · exact .inr (.inr ((hresolved.along hdone).along hpos))

/-- The body of `reevaluate_state`, in every phase. -/
theorem reevaluateBody_reacts {reeval : Server F → Server F} (hre : Reactive reeval) :
    Reactive (reevaluateBody reeval) := by
  intro w hw
  unfold reevaluateBody
  split
  · exact .refl w
  · rename_i hphase
    unfold reevaluateLobbyOpen
    split
    · rename_i hempty
      exact .single rfl (.cancel hphase hempty)
    · exact .refl w
  · rename_i hphase
    have hopen : w.state.phase ≠ .lobbyOpen := by simp [hphase]
    unfold reevaluateSetup
    split
    · rename_i hfew
      exact endGame_reacts hw hopen (.inl hphase) (.inl hfew)
    · split
      · exact startActiveRoundWith_reacts hre hw hopen (.inl hphase)
      · exact .refl w
  · rename_i hphase
    have hopen : w.state.phase ≠ .lobbyOpen := by simp [hphase]
    have hresolved := hw.resolved hphase
    unfold reevaluateRepick
    split
    · exact endGame_reacts hw hopen (.inr (.inr (.inr hresolved))) (.inr (.inl hresolved))
    · split
      · rename_i hall
        exact finishRepicksWith_reacts hre hw hphase hall
      · exact .refl w
  · rename_i hphase
    unfold reevaluateRoundActive
    split
    · rename_i hover
      exact endGame_reacts hw (by simp [hphase]) (.inr (.inl hphase)) (.inr (.inr ⟨hphase, hover⟩))
    · exact .refl w

/-- `reevaluate_state`, by induction on the nesting depth. -/
theorem reevaluateWithin_reacts (depth : ℕ) :
    Reactive (reevaluateWithin depth : Server F → Server F) := by
  induction depth with
  | zero => exact fun w _ => .refl w
  | succ depth ih => exact reevaluateBody_reacts ih

theorem reevaluateState_reacts : Reactive (reevaluateState : Server F → Server F) :=
  reevaluateWithin_reacts _

end BattleRoyale
