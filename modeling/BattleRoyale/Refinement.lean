import BattleRoyale.Reevaluation

/-!
# The server refines the abstract server

Every handler and every timer performs actions of the abstract server only. The
guards of `Action` are proved from what the source checks on the way; where a
broadcast may have overtaken a check, the entry that shows the overflow is found
in the record. The result for a step of the loop is at the end.
-/

namespace BattleRoyale

open Recorded

variable {F : Type}

/-- The event may occur while the server answers: a nested event or a call of
`queue_line`. -/
def Event.isServing : Event F → Bool
  | .queued .. => true
  | .refused .. => true
  | e => e.isNested

theorem Event.isNested.isServing {e : Event F} (h : e.isNested = true) :
    e.isServing = true := by
  cases e <;> first | rfl | exact h

theorem Event.isServing.inMatch {e : Event F} (h : e.isServing = true) : e.inMatch = true := by
  cases e <;> first | rfl | cases h

variable [CFloat F]

/-- Actions that answer, one after another. -/
abbrev Serves (w v : Server F) : Prop := Path Action (fun e => e.isServing = true) w v

/-- An answer belongs to its match. -/
theorem Serves.acts {w v : Server F} (h : Serves w v) : Acts w v :=
  h.mono fun _ => Event.isServing.inMatch

/-- A list of lines for one client. A line may depend on the server when its turn comes. -/
theorem queueSeq_path {P : Event F → Prop} {via : Via} {i : Slot}
    (lines : List (Server F → ServerLine F))
    (hqueued : ∀ line ∈ lines, ∀ v, P (.queued i via (line v)))
    (hrefused : ∀ line ∈ lines, ∀ v, P (.refused i via (line v)))
    {w : Server F} (hconn : (w.state.players i).connected = true)
    (hline : ∀ line ∈ lines, ∀ v, Path Action P w v → Rebuffered w.state v.state →
      LineOk v i via (line v)) :
    Path Action P w (queueSeq via lines i w).2 := by
  induction lines generalizing w with
  | nil => exact .refl w
  | cons line lines ih =>
    have hmem : ∀ line' ∈ lines, line' ∈ line :: lines := fun _ h => List.mem_cons_of_mem _ h
    have hcall : Path Action P w (queueTo via (line w) i w).2 :=
      queueTo_path (hqueued line List.mem_cons_self w) (hrefused line List.mem_cons_self w) hconn
        (hline line List.mem_cons_self w (.refl w) (.refl _))
    have hsame := queueTo_rebuffered via (line w) i w
    unfold queueSeq
    split <;> rename_i v hq <;> rw [hq] at hcall hsame
    · refine hcall.trans (ih (fun l hl => hqueued l (hmem l hl))
        (fun l hl => hrefused l (hmem l hl)) ?_ fun l hl u hu hs => ?_)
      · rw [hsame.player i]
        exact hconn
      · exact hline l (hmem l hl) u (hcall.trans hu) (hsame.trans hs)
    · exact hcall

/-- A list of lines changes a send buffer at most. -/
theorem queueSeq_rebuffered (via : Via) (lines : List (Server F → ServerLine F)) (i : Slot)
    (w : Server F) : Rebuffered w.state (queueSeq via lines i w).2.state := by
  induction lines generalizing w with
  | nil => exact .refl _
  | cons line lines ih =>
    have hsame := queueTo_rebuffered via (line w) i w
    unfold queueSeq
    split <;> rename_i v hq <;> rw [hq] at hsame
    · exact hsame.trans (ih v)
    · exact hsame

/-- The lines of a snapshot tell the state as it is. -/
theorem snapshotLines_ok {P : Event F → Prop} {w v : Server F} {dst : Slot}
    (hpath : Path Action P w v) (hs : Rebuffered w.state v.state) {line : Server F → ServerLine F}
    (hline : line ∈ snapshotLines w.state dst) : LineOk v dst .checked (line v) := by
  -- The state at the start of the snapshot decides, since only a buffer has changed.
  suffices h : LineOk w dst .checked (line v) from
    h.rebuffered hs hpath.env_eq (fun hres => hres.along hpath) nofun nofun
  simp only [snapshotLines, List.mem_append, List.mem_singleton, List.mem_map,
    List.mem_filter] at hline
  rcases hline with ((rfl | hphase) | ⟨k, ⟨_, hk⟩, rfl⟩) | rfl
  · trivial
  · unfold phaseLines at hphase
    split at hphase
    · rename_i hopen
      split at hphase
      · rename_i hidle
        rw [List.mem_singleton.mp hphase]
        exact ⟨hopen, hidle⟩
      · rename_i hcount
        rw [List.mem_singleton.mp hphase]
        exact ⟨hopen, fun _ => hcount⟩
    · rename_i hsetup
      simp only [List.mem_cons, List.not_mem_nil, or_false] at hphase
      rcases hphase with rfl | rfl
      · exact fun hopen => by simp [hsetup] at hopen
      · trivial
    · rename_i hround
      simp only [List.mem_cons, List.not_mem_nil, or_false] at hphase
      rcases hphase with rfl | rfl
      · exact fun hopen => by simp [hround] at hopen
      · trivial
    · rename_i hrepick
      simp only [List.mem_cons, List.not_mem_nil, or_false] at hphase
      rcases hphase with rfl | rfl
      · exact fun hopen => by simp [hrepick] at hopen
      · trivial
    · rename_i hover
      cases hverdict : (w.state.players dst).verdict with
      | none => simp [hverdict] at hphase
      | some result =>
        simp only [hverdict, List.mem_singleton] at hphase
        rw [hphase]
        exact ⟨hover, hverdict⟩
  · exact ⟨k, hk, rfl⟩
  · trivial

/-- A snapshot for one client. -/
theorem queueGameStateForPlayer_path {P : Event F → Prop} (dst : Slot)
    (hqueued : ∀ line, P (.queued dst .checked line))
    (hrefused : ∀ line, P (.refused dst .checked line)) {w : Server F}
    (hconn : (w.state.players dst).connected = true) :
    Path Action P w (queueGameStateForPlayer dst w).2 :=
  queueSeq_path _ (fun _ _ _ => hqueued _) (fun _ _ _ => hrefused _) hconn
    fun _ hline _ hpath hs => snapshotLines_ok hpath hs hline

theorem queueGameStateForPlayer_serves (dst : Slot) {w : Server F}
    (hconn : (w.state.players dst).connected = true) :
    Serves w (queueGameStateForPlayer dst w).2 :=
  queueGameStateForPlayer_path dst (fun _ => rfl) (fun _ => rfl) hconn

/-- The events of an answer: whatever a re-entrant call does, and the calls of
`queue_line_checked`. -/
structure Answers (P : Event F → Prop) : Prop where
  /-- Nested events. -/
  nested : ∀ e, e.isNested = true → P e
  /-- Lines that are queued. -/
  queued : ∀ i line, P (.queued i .checked line)
  /-- Lines that are refused. -/
  refused : ∀ i line, P (.refused i .checked line)

omit [CFloat F] in
theorem Answers.serving : Answers (fun e : Event F => e.isServing = true) where
  nested _ := Event.isNested.isServing
  queued _ _ := rfl
  refused _ _ := rfl

omit [CFloat F] in
theorem Answers.acting : Answers (fun e : Event F => e.inMatch = true) where
  nested _ := Event.isNested.inMatch
  queued _ _ := rfl
  refused _ _ := rfl

/-- The loop of `broadcast_game_state`. -/
theorem foldl_offerGameState_path {P : Event F → Prop} (hP : Answers P) (is : List Slot)
    (acc : Bool × Server F) : Path Action P acc.2 (is.foldl offerGameState acc).2 := by
  induction is generalizing acc with
  | nil => exact .refl _
  | cons i is ih =>
    refine Recorded.Path.trans ?_ (ih (offerGameState acc i))
    unfold offerGameState
    split
    · rename_i hreg
      simp only [Player.isRegistered, Bool.and_eq_true] at hreg
      have hsnap := queueGameStateForPlayer_path i (hP.queued i) (hP.refused i) hreg.1
      split <;> rename_i v hq <;> rw [hq] at hsnap
      · exact hsnap
      · exact hsnap.trans ((dropSilently_reacts i v).mono hP.nested)
    · exact .refl _

/-- The broadcast of snapshots. -/
theorem broadcastGameState_path {P : Event F → Prop} (hP : Answers P) {w : Server F}
    (hw : Inv w) : Path Action P w (broadcastGameState w) := by
  have hloop := foldl_offerGameState_path hP slots (false, w)
  unfold broadcastGameState broadcastGameStateWith
  split <;> rename_i v hq <;> rw [hq] at hloop
  · exact hloop
  · exact hloop.trans ((reevaluateState_reacts v (hw.along hloop)).mono hP.nested)

/-- A broadcast. -/
theorem queueBroadcast_reacts (line : ServerLine F) {w : Server F} (hw : Inv w)
    (hline : ∀ i, LineOk w i .broadcast line) : Reacts w (queueBroadcast line w) :=
  queueBroadcastWith_reacts reevaluateState_reacts line hw hline

/-- The broadcast of all positions. -/
theorem broadcastPositions_reacts {w : Server F} (hw : Inv w) :
    Reacts w (broadcastPositions w) :=
  broadcastPositionsWith_reacts reevaluateState_reacts hw

/-- The start of a round, where it may start. -/
theorem startActiveRound_reacts {w : Server F} (hw : Inv w)
    (hphase : w.state.phase ≠ .lobbyOpen)
    (horder : w.state.phase = .setup ∨ FullAtClosing w.log ∨ RoundsResolved w.log) :
    Reacts w (startActiveRound w) :=
  startActiveRoundWith_reacts reevaluateState_reacts hw hphase horder

/-- `drop_player`. -/
theorem dropSlot_path {P : Event F → Prop} {announce : Bool} {i : Slot}
    (hdropped : ∀ name, P (.dropped i announce name)) (w : Server F) :
    Path Action P w (dropSlot announce i w) := by
  cases hc : (w.state.players i).connected with
  | true =>
    rw [dropSlot_of_connected hc]
    exact .single (hdropped _) (.drop hc)
  | false =>
    rw [dropSlot_of_free hc]
    exact .refl w

theorem dropSlot_acts (announce : Bool) (i : Slot) (w : Server F) :
    Acts w (dropSlot announce i w) := dropSlot_path (fun _ => rfl) w

/-- After a registered client was cleared, nobody else has its name. -/
theorem left_ok {i : Slot} (announce : Bool) {w : Server F} (hw : Inv w)
    (hreg : (w.state.players i).isRegistered = true) (j : Slot) :
    LineOk (dropSlot announce i w) j .broadcast (.left (w.state.players i).name) := by
  have hconn : (w.state.players i).connected = true := by
    simp only [Player.isRegistered, Bool.and_eq_true] at hreg
    exact hreg.1
  intro k hk hname
  rw [dropSlot_of_connected hconn, System.record_state, ServerState.setPlayer_players]
    at hk hname
  split at hk
  · simp [Player.isRegistered, Player.cleared, Player.zero] at hk
  · rename_i hki
    rw [if_neg hki] at hname
    exact hki (hw.identified.name_inj k i hk hreg hname)

/-- `drop_player` with its announcements. -/
theorem dropPlayer_path {P : Event F → Prop} (hP : Answers P) {i : Slot} {announce : Bool}
    (hdropped : ∀ name, P (.dropped i announce name)) {w : Server F} (hw : Inv w) :
    Path Action P w (dropPlayer i announce w) := by
  have hdrop := dropSlot_path hdropped w
  unfold dropPlayer
  simp only
  split
  · rename_i h
    simp only [Bool.and_eq_true] at h
    have hreg : (w.state.players i).isRegistered = true := by
      simp [Player.isRegistered, h.1.1, h.2]
    have hbroadcast := queueBroadcast_reacts _ (hw.along hdrop) (left_ok announce hw hreg)
    have hsnap := broadcastGameState_path hP ((hw.along hdrop).along hbroadcast)
    exact (hdrop.trans (hbroadcast.mono hP.nested)).trans hsnap
  · exact hdrop

theorem dropPlayer_acts (i : Slot) (announce : Bool) {w : Server F} (hw : Inv w) :
    Acts w (dropPlayer i announce w) := dropPlayer_path .acting (fun _ => rfl) hw

/-- A silent drop and the re-entrant call after it. -/
theorem dropSilently_reevaluate_reacts {i : Slot} {w : Server F} (hw : Inv w) :
    Reacts w (reevaluateState (dropSilently i w)) :=
  (dropSilently_reacts i w).trans (reevaluateState_reacts _ (hw.along (dropSilently_reacts i w)))

/-- The reply `ERROR lobby_closed`. -/
theorem refuseLobbyClosed_path {P : Event F → Prop} (hP : Answers P) {i : Slot} {w : Server F}
    (hw : Inv w) (hconn : (w.state.players i).connected = true) :
    Path Action P w (refuseLobbyClosed i w) := by
  have hcall : Path Action P w (queueTo .checked (.error .lobbyClosed) i w).2 :=
    queueTo_path (hP.queued i _) (hP.refused i _) hconn trivial
  unfold refuseLobbyClosed
  split <;> rename_i v hq <;> rw [hq] at hcall
  · exact hcall
  · exact hcall.trans ((dropSilently_reevaluate_reacts (hw.along hcall)).mono hP.nested)

/-- What the source has checked when it admits the player of a slot, up to overflows of
the broadcast that opens the countdown. -/
structure Admissible (i : Slot) (w : Server F) : Prop where
  /-- The lobby is open. -/
  phase : w.state.phase = .lobbyOpen
  /-- The player is ready, or lost its slot to the broadcast. -/
  player : ((w.state.players i).isRegistered = true ∧ (w.state.players i).admitted = false ∧
      (w.state.players i).choiceChosen = true ∧ (w.state.players i).spawnChosen = true ∧
      OccupantsUnseen w.state i w.log) ∨
    ((w.state.players i).connected = false ∧ JoinerFullAtOpening i w.log)
  /-- The countdown runs, or was lost to the broadcast. -/
  count : (∀ n, 0 < w.env n) → (w.state.players i).connected = true →
    w.state.joinDeadline ≠ 0 ∨ OtherFullAtOpening w.log

/-- The server right after the player was admitted. -/
def admitted (i : Slot) (w : Server F) : Server F :=
  w.record (.admitted i)
    (w.state.setPlayer i { w.state.players i with admitted := true, waiting := true })

theorem Admissible.action {i : Slot} {w : Server F} (h : Admissible i w) :
    Action w (.admitted i) (admitted i w).state := .enter h.phase h.player h.count

theorem admitPlayer_eq (i : Slot) (w : Server F) :
    admitPlayer i w = match queueTo .checked .joinedMatch i (admitted i w) with
      | (false, w) => reevaluateState (dropSilently i w)
      | (true, w) => broadcastGameState (queueBroadcast (.joined (w.state.players i).name) w) :=
  rfl

/-- The line for the admitted player. -/
theorem joinedMatch_path {P : Event F → Prop} {i : Slot} {w : Server F} (h : Admissible i w)
    (hqueued : P (.queued i .checked .joinedMatch))
    (hrefused : P (.refused i .checked .joinedMatch)) :
    Path Action P (admitted i w) (queueTo .checked .joinedMatch i (admitted i w)).2 := by
  -- The client is there, or the record shows how it was lost on the way.
  have hconn : ((admitted i w).state.players i).connected = true ∨
      (ServerLine.joinedMatch = (.joinedMatch : ServerLine F) ∧
        JoinerFullAtOpening i (admitted i w).log) := by
    rcases h.player with ⟨hreg, _⟩ | ⟨_, x, hx, hfull⟩
    · left
      simpa [admitted] using Player.connected_of_isRegistered hreg
    · exact .inr ⟨rfl, x, List.mem_cons_of_mem _ hx, hfull⟩
  unfold queueTo
  split
  · rename_i p hp
    exact .single hqueued (.queue hconn trivial hp)
  · rename_i hp
    exact .single hrefused (.refuse hp)

/-- The admission, once its guards hold. -/
theorem admitPlayer_path {P : Event F → Prop} (hP : Answers P) {i : Slot}
    (hadmitted : P (.admitted i)) {w : Server F} (hw : Inv w) (h : Admissible i w) :
    Path Action P w (admitPlayer i w) := by
  have hentered : Path Action P w (admitted i w) := .single hadmitted h.action
  have hcall : Path Action P (admitted i w) (queueTo .checked .joinedMatch i (admitted i w)).2 :=
    joinedMatch_path h (hP.queued i _) (hP.refused i _)
  have hinv := (hw.along hentered).along hcall
  refine (hentered.trans hcall).trans ?_
  rw [admitPlayer_eq]
  split <;> rename_i u hq <;> rw [hq] at hinv ⊢
  · exact (dropSilently_reevaluate_reacts hinv).mono hP.nested
  · have hjoined := queueBroadcast_reacts (.joined (u.state.players i).name) hinv
      fun _ => trivial
    exact (hjoined.mono hP.nested).trans (broadcastGameState_path hP (hinv.along hjoined))

/-- In an open lobby `reevaluate_state` looks at the countdown only. -/
theorem reevaluateState_of_lobbyOpen {w : Server F} (h : w.state.phase = .lobbyOpen) :
    reevaluateState w = reevaluateLobbyOpen w := by
  show reevaluateBody _ w = _
  simp only [reevaluateBody, h]

/-- A broadcast in an open lobby: nothing but its two loops, and the countdown of a
lobby that they emptied. -/
theorem queueBroadcast_of_lobbyOpen (line : ServerLine F) {w : Server F}
    (h : w.state.phase = .lobbyOpen) :
    ∃ d, (queueBroadcast line w).state = { w.state.broadcast line with joinDeadline := d } ∧
      (¬overflows line w.state → d = w.state.joinDeadline) ∧
      (d ≠ w.state.joinDeadline → d = 0 ∧ admittedCount (w.state.broadcast line) = 0) := by
  obtain ⟨v, hstate, _, hfit, hover⟩ := queueBroadcastWith_eq reevaluateState line w
  have hsame : v.state.joinDeadline = w.state.joinDeadline := by rw [hstate]; rfl
  unfold queueBroadcast
  by_cases hoverflow : overflows line w.state
  · rw [hover hoverflow, reevaluateState_of_lobbyOpen (by rw [hstate]; exact h)]
    unfold reevaluateLobbyOpen
    split
    · rename_i hempty
      exact ⟨0, by rw [System.record_state, hstate], fun hn => absurd hoverflow hn,
        fun _ => ⟨rfl, hstate ▸ hempty⟩⟩
    · exact ⟨_, hstate, fun _ => rfl, fun hd => absurd rfl hd⟩
  · rw [hfit hoverflow]
    exact ⟨_, hstate, fun _ => rfl, fun hd => absurd rfl hd⟩

/-- One line fits exactly when it can be queued. -/
theorem Player.takes_singleton (p : Player F) (line : ServerLine F) :
    p.takes [line] = (p.queueVia .broadcast line).isSome := by
  simp only [takes, List.foldlM_cons, List.foldlM_nil]
  cases p.queueVia .broadcast line <;> rfl

/-- A client that keeps its slot in a broadcast keeps everything but its buffer. -/
theorem ServerState.broadcast_of_connected {line : ServerLine F} {s : ServerState F} {i : Slot}
    (h : ((s.broadcast line).players i).connected = true) :
    (s.players i).connected = true ∧ ∃ outbuf,
      (s.broadcast line).players i = { s.players i with outbuf := outbuf } := by
  rcases Player.afterBroadcast_cases line (s.players i) with ⟨outbuf, hsame⟩ | ⟨_, _, hcleared⟩
  · have hsame' : (s.broadcast line).players i = { s.players i with outbuf := outbuf } := hsame
    rw [hsame'] at h
    exact ⟨h, outbuf, hsame'⟩
  · have hcleared' : (s.broadcast line).players i = Player.cleared := hcleared
    rw [hcleared'] at h
    simp [Player.cleared, Player.zero] at h

omit [CFloat F] in
/-- Nested events are no commands. -/
theorem Event.isNested.not_isJoinCommand {e : Event F} (h : e.isNested = true) (i : Slot) :
    e.isJoinCommand i = false := by
  cases e <;> first | rfl | cases h

/-- Entries that are no commands of the player leave its last command the last one. -/
theorem Unseen.append {i j : Slot} {new old : Log F} (h : Unseen i j old)
    (hnew : ∀ x ∈ new, x.event.isJoinCommand i = false) : Unseen i j (new ++ old) := by
  obtain ⟨x, hfind, hx⟩ := h
  refine ⟨x, ?_, hx⟩
  rw [List.find?_append, List.find?_eq_none.mpr fun y hy => by simp [hnew y hy]]
  exact hfind

/-- Where nobody is admitted and nobody moves, and no command of the player is accepted,
the occupants of its tile stay unseen. -/
theorem OccupantsUnseen.of_kept {s t : ServerState F} {i : Slot} {new old : Log F}
    (h : OccupantsUnseen s i old) (hi : (t.players i).tile = (s.players i).tile)
    (hkept : ∀ j, (t.players j).isAdmitted = true →
      (s.players j).isAdmitted = true ∧ (t.players j).tile = (s.players j).tile)
    (hnew : ∀ x ∈ new, x.event.isJoinCommand i = false) : OccupantsUnseen t i (new ++ old) := by
  intro j hj hadmitted htile
  obtain ⟨hadmitted', htile'⟩ := hkept j hadmitted
  rw [htile', hi] at htile
  exact (h j hj hadmitted' htile).append hnew

/-- A client that is still there after a broadcast stands where it stood, and so does
everybody who is admitted after it. -/
theorem OccupantsUnseen.broadcast {s : ServerState F} {i : Slot} {new old : Log F}
    (h : OccupantsUnseen s i old) {line : ServerLine F}
    (hconn : ((s.broadcast line).players i).connected = true)
    (hnew : ∀ x ∈ new, x.event.isJoinCommand i = false) :
    OccupantsUnseen (s.broadcast line) i (new ++ old) := by
  refine h.of_kept ?_ (fun j hadmitted => ?_) hnew
  · obtain ⟨_, outbuf, hi⟩ := ServerState.broadcast_of_connected hconn
    rw [hi]
    rfl
  · obtain ⟨_, outbuf, hj⟩ := ServerState.broadcast_of_connected
      (Player.connected_of_isAdmitted hadmitted)
    rw [hj] at hadmitted ⊢
    exact ⟨hadmitted, rfl⟩

/-- The server right after the countdown was opened. -/
def opened (i : Slot) (w : Server F) : Server F :=
  w.record (.lobbyOpened i) { w.state with joinDeadline := w.time + JOIN_WINDOW_SECONDS }

/-- The server after the countdown was opened and announced. -/
def announced (i : Slot) (w : Server F) : Server F :=
  queueBroadcast (.lobbyOpen JOIN_WINDOW_SECONDS) (opened i w)

omit [CFloat F] in
/-- Where the clock reads positive times, an open countdown does not end at zero. -/
theorem opened_joinDeadline (i : Slot) {w : Server F} (hclock : ∀ n, 0 < w.env n) :
    (opened i w).state.joinDeadline ≠ 0 := by
  have hpos := hclock w.log.length
  have henv : w.env w.log.length = w.time := rfl
  simp only [opened, System.record_state, JOIN_WINDOW_SECONDS]
  omega

/-- The announcement of the countdown. -/
theorem announced_reacts {i : Slot} {w : Server F} (hinv : Inv (opened i w))
    (hphase : w.state.phase = .lobbyOpen) : Reacts (opened i w) (announced i w) :=
  queueBroadcast_reacts _ hinv fun _ => ⟨hphase, fun hclock => opened_joinDeadline i hclock⟩

/-- A player who had room for the announcement is as before; for another one the record
shows that it had not. -/
theorem announced_player {i : Slot} {w : Server F} (hw : Inv (opened i w))
    (hphase : w.state.phase = .lobbyOpen) :
    (∃ outbuf, (announced i w).state.players i = { w.state.players i with outbuf := outbuf }) ∨
      (((announced i w).state.players i).connected = false ∧
        JoinerFullAtOpening i (announced i w).log) := by
  have huphase : (opened i w).state.phase = .lobbyOpen := hphase
  obtain ⟨d, hstate, _, _⟩ :=
    queueBroadcast_of_lobbyOpen (.lobbyOpen JOIN_WINDOW_SECONDS) huphase
  have hplayer : (announced i w).state.players i =
      (w.state.players i).afterBroadcast (.lobbyOpen JOIN_WINDOW_SECONDS) := by
    rw [announced, hstate]
    rfl
  rw [hplayer]
  rcases Player.afterBroadcast_cases (.lobbyOpen JOIN_WINDOW_SECONDS) (w.state.players i) with
    hsame | ⟨_, hfull, hcleared⟩
  · exact .inl hsame
  · refine .inr ⟨by rw [hcleared]; rfl, _,
      (announced_reacts hw hphase).log_subset List.mem_cons_self, rfl, ?_⟩
    have htakes := Player.takes_singleton (w.state.players i) (.lobbyOpen JOIN_WINDOW_SECONDS)
    rw [hfull] at htakes
    exact htakes

/-- After the announcement the player may be admitted. -/
theorem announced_admissible {i : Slot} {w : Server F} (hw : Inv (opened i w))
    (hphase : w.state.phase = .lobbyOpen) (hreg : (w.state.players i).isRegistered = true)
    (hout : (w.state.players i).admitted = false)
    (hready : (w.state.players i).choiceChosen = true ∧ (w.state.players i).spawnChosen = true)
    (hfree : OccupantsUnseen w.state i w.log) : Admissible i (announced i w) := by
  have hconn := Player.connected_of_isRegistered hreg
  have hbroadcast := announced_reacts hw hphase
  have huphase : (opened i w).state.phase = .lobbyOpen := hphase
  obtain ⟨d, hstate, hfit, _⟩ :=
    queueBroadcast_of_lobbyOpen (.lobbyOpen JOIN_WINDOW_SECONDS) huphase
  have hstate' : (announced i w).state = { (opened i w).state.broadcast
    (.lobbyOpen JOIN_WINDOW_SECONDS) with joinDeadline := d } := hstate
  refine ⟨by rw [hstate']; exact hphase, ?_, ?_⟩
  · rcases announced_player hw hphase with ⟨outbuf, hi⟩ | hgone
    swap
    · exact .inr hgone
    left
    rw [hi]
    refine ⟨hreg, hout, hready.1, hready.2, ?_⟩
    obtain ⟨new, hlog, hnested⟩ := hbroadcast.log_eq
    have hkept : OccupantsUnseen ((opened i w).state.broadcast (.lobbyOpen JOIN_WINDOW_SECONDS)) i
        (new ++ (opened i w).log) := by
      have hopened : OccupantsUnseen (opened i w).state i (opened i w).log := by
        intro j hj hadmitted htile
        show Unseen i j ([⟨.lobbyOpened i, (opened i w).state⟩] ++ w.log)
        exact (hfree j hj hadmitted htile).append (by simp [Event.isJoinCommand])
      refine hopened.broadcast ?_ fun x hx => Event.isNested.not_isJoinCommand (hnested x hx) i
      have hsame : ((opened i w).state.broadcast (.lobbyOpen JOIN_WINDOW_SECONDS)).players i =
          (announced i w).state.players i := by rw [hstate']
      rw [hsame, hi]
      exact hconn
    rw [hlog, hstate']
    exact hkept
  · -- If the countdown is gone, somebody else had no room for the line.
    intro hclock hc
    rw [hbroadcast.env_eq] at hclock
    rw [hstate'] at hc ⊢
    by_cases hover : overflows (.lobbyOpen JOIN_WINDOW_SECONDS) (opened i w).state
    · obtain ⟨j, hj, hq⟩ := hover
      have htakes : ((opened i w).state.players j).takes openingLines = false := by
        rw [openingLines, Player.takes_singleton, hq]
        rfl
      refine .inr ⟨_, hbroadcast.log_subset List.mem_cons_self, i, rfl, j, ?_, hj, htakes⟩
      rintro rfl
      have hcleared : (((opened j w).state.broadcast (.lobbyOpen JOIN_WINDOW_SECONDS)).players
        j) = Player.cleared := Player.afterBroadcast_of_none hj hq
      simp [hcleared, Player.cleared, Player.zero] at hc
    · left
      rw [hfit hover]
      exact opened_joinDeadline i hclock

/-- What `maybe_admit_player` does, for a player whose last command saw everybody whom
`spawn_taken` can see. -/
theorem maybeAdmitPlayer_cases {i : Slot} {w : Server F} (hw : Inv w)
    (htile : OccupantsUnseen w.state i w.log) :
    maybeAdmitPlayer i w = w ∨
      ((w.state.players i).connected = true ∧ maybeAdmitPlayer i w = refuseLobbyClosed i w) ∨
      ((w.state.players i).isRegistered = true ∧ w.state.joinDeadline ≠ 0 ∧ Admissible i w ∧
        maybeAdmitPlayer i w = admitPlayer i w) ∨
      ((w.state.players i).isRegistered = true ∧
        Action w (.lobbyOpened i) (opened i w).state ∧ Admissible i (announced i w) ∧
        maybeAdmitPlayer i w = admitPlayer i (announced i w)) := by
  unfold maybeAdmitPlayer
  simp only
  split
  · exact .inl rfl
  rename_i hreg
  have hreg' : (w.state.players i).isRegistered = true := by
    simpa [Player.isRegistered] using hreg
  have hconn := Player.connected_of_isRegistered hreg'
  split
  · exact .inl rfl
  rename_i hadmitted
  have hout : (w.state.players i).admitted = false := by simpa using hadmitted
  split
  · exact .inl rfl
  rename_i hready
  have hready' : (w.state.players i).choiceChosen = true ∧
      (w.state.players i).spawnChosen = true := by simpa using hready
  split
  · exact .inr (.inl ⟨hconn, rfl⟩)
  rename_i hphase
  have hopen : w.state.phase = .lobbyOpen := not_not.mp hphase
  split
  · rename_i hidle
    have hopened : Action w (.lobbyOpened i) (opened i w).state := .openLobby hreg' hopen hidle
    exact .inr (.inr (.inr ⟨hreg', hopened,
      announced_admissible (hopened.inv hw) hopen hreg' hout hready' htile, rfl⟩))
  · rename_i hcount
    split
    · exact .inr (.inl ⟨hconn, rfl⟩)
    · exact .inr (.inr (.inl ⟨hreg', hcount,
        ⟨hopen, .inl ⟨hreg', hout, hready'.1, hready'.2, htile⟩, fun _ _ => .inl hcount⟩, rfl⟩))

/-- `maybe_admit_player`. -/
theorem maybeAdmitPlayer_path {P : Event F → Prop} (hP : Answers P) {i : Slot}
    (hadmitted : P (.admitted i)) (hopened : P (.lobbyOpened i)) {w : Server F} (hw : Inv w)
    (htile : OccupantsUnseen w.state i w.log) :
    Path Action P w (maybeAdmitPlayer i w) := by
  rcases maybeAdmitPlayer_cases hw htile with
    hsame | ⟨hconn, hrefused⟩ | ⟨_, _, hadm, hdone⟩ | ⟨_, hstep, hadm, hdone⟩
  · rw [hsame]
    exact .refl w
  · rw [hrefused]
    exact refuseLobbyClosed_path hP hw hconn
  · rw [hdone]
    exact admitPlayer_path hP hadmitted hw hadm
  · rw [hdone]
    have hinv := hstep.inv hw
    have hphase : w.state.phase = .lobbyOpen := by cases hstep; assumption
    have hbroadcast := announced_reacts hinv hphase
    have hopen : Path Action P w (opened i w) := .single hopened hstep
    exact (hopen.trans (hbroadcast.mono hP.nested)).trans
      (admitPlayer_path hP hadmitted (hinv.along hbroadcast) hadm)

theorem maybeAdmitPlayer_acts {i : Slot} {w : Server F} (hw : Inv w)
    (htile : OccupantsUnseen w.state i w.log) :
    Acts w (maybeAdmitPlayer i w) := maybeAdmitPlayer_path .acting rfl rfl hw htile

/-- A broadcast without an overflow is its first loop, and enters nothing again. -/
theorem queueBroadcast_of_fits {line : ServerLine F} {w : Server F}
    (h : ¬overflows line w.state) : (queueBroadcast line w).state = w.state.broadcast line := by
  obtain ⟨v, hstate, _, hfit, _⟩ := queueBroadcastWith_eq reevaluateState line w
  rw [← hstate, ← hfit h]
  rfl

/-- A client that has room for two lines has room for the second one after the first. -/
theorem Player.takes_pair {p : Player F} {line line' : ServerLine F}
    (h : p.takes [line, line'] = true) :
    ∃ q, p.queueVia .broadcast line = some q ∧ (q.queueVia .broadcast line').isSome = true := by
  simp only [takes, List.foldlM_cons, List.foldlM_nil] at h
  cases hq : p.queueVia .broadcast line with
  | none => simp [hq] at h
  | some q =>
    refine ⟨q, rfl, ?_⟩
    cases hq' : q.queueVia .broadcast line' with
    | none => simp [hq, hq'] at h
    | some q' => rfl

/-- Two broadcasts for which every client has room. -/
theorem not_overflows_pair {s : ServerState F} (line line' : ServerLine F)
    (h : ∀ j, (s.players j).connected = true → (s.players j).takes [line, line'] = true) :
    ¬overflows line s ∧ ¬overflows line' (s.broadcast line) := by
  constructor
  · rintro ⟨j, hj, hq⟩
    obtain ⟨q, hsome, _⟩ := Player.takes_pair (h j hj)
    rw [hq] at hsome
    cases hsome
  · rintro ⟨j, hj, hq⟩
    obtain ⟨hconn, _⟩ := ServerState.broadcast_of_connected hj
    obtain ⟨q, hsome, hfits⟩ := Player.takes_pair (h j hconn)
    have hqueued : (s.broadcast line).players j = q :=
      Player.afterBroadcast_of_some hconn hsome
    rw [hqueued] at hq
    rw [hq] at hfits
    cases hfits

/-- After the two closing lines the phase is still SETUP, or the record shows a client
that had no room for them. -/
theorem closing_order {w : Server F} (hphase : w.state.phase = .setup)
    (hlogged : (⟨.lobbyClosed, w.state⟩ : Entry (ServerState F) (Event F)) ∈ w.log) :
    (queueBroadcast (.setupOpen SETUP_SECONDS) (queueBroadcast .lobbyClosed w)).state.phase =
      .setup ∨ FullAtClosing w.log := by
  by_cases hfull : ∃ j, (w.state.players j).connected = true ∧
      (w.state.players j).takes closingLines = false
  · exact .inr ⟨_, hlogged, rfl, hfull⟩
  · left
    have hroom : ∀ j, (w.state.players j).connected = true →
        (w.state.players j).takes closingLines = true := fun j hj =>
      Bool.eq_true_of_not_eq_false fun hfalse => hfull ⟨j, hj, hfalse⟩
    obtain ⟨hfirst, hsecond⟩ :=
      not_overflows_pair .lobbyClosed (.setupOpen SETUP_SECONDS) hroom
    have hstate := queueBroadcast_of_fits hfirst
    rw [← hstate] at hsecond
    rw [queueBroadcast_of_fits hsecond, hstate]
    exact hphase

/-- The decision at the end of the closing, where the match may be decided. -/
theorem decideSetup_reacts {w : Server F} (hw : Inv w) (hphase : w.state.phase ≠ .lobbyOpen)
    (horder : w.state.phase = .setup ∨ FullAtClosing w.log) : Reacts w (decideSetup w) := by
  unfold decideSetup
  split
  · rename_i hfew
    exact endGame_reacts hw hphase (horder.imp_right fun hfull => .inr (.inl hfull)) (.inl hfew)
  · split
    · exact startActiveRound_reacts hw hphase (horder.imp_right .inl)
    · exact queueBroadcast_reacts _ hw fun _ => trivial

/-- The server right after the phase has left LOBBY_OPEN. -/
def closed (w : Server F) : Server F :=
  w.record .lobbyClosed
    { w.state with phase := .setup, setupDeadline := w.time + SETUP_SECONDS }

/-- The server after the two broadcasts of the closing. -/
def closingTold (w : Server F) : Server F :=
  queueBroadcast (.setupOpen SETUP_SECONDS) (queueBroadcast .lobbyClosed (closed w))

/-- `close_lobby_if_needed` does nothing, or closes the lobby and decides the match. -/
theorem closeLobbyIfNeeded_eq (w : Server F) :
    closeLobbyIfNeeded w = w ∨
      (Action w .lobbyClosed (closed w).state ∧
        closeLobbyIfNeeded w = decideSetup (closingTold w)) := by
  unfold closeLobbyIfNeeded
  split
  · exact .inl rfl
  rename_i hphase
  split
  · exact .inl rfl
  rename_i hcount
  split
  · exact .inl rfl
  rename_i htime
  exact .inr ⟨.closeLobby (not_not.mp hphase) hcount (not_lt.mp htime), rfl⟩

/-- The match may be decided then: the phase is still the setup, or a client had no room. -/
theorem closingTold_reacts {w : Server F} (hinv : Inv (closed w)) :
    Reacts (closed w) (closingTold w) ∧ (closingTold w).state.phase ≠ .lobbyOpen ∧
      ((closingTold w).state.phase = .setup ∨ FullAtClosing (closingTold w).log) := by
  unfold closingTold
  have hsetup : (closed w).state.phase = .setup := rfl
  have hfirst := queueBroadcast_reacts .lobbyClosed hinv
    fun _ hopen => by simp [hsetup] at hopen
  have hsecond := queueBroadcast_reacts (.setupOpen SETUP_SECONDS) (hinv.along hfirst)
    fun _ => trivial
  have hboth := hfirst.trans hsecond
  refine ⟨hboth, Acts.later (Reacts.acts hboth) (by simp [hsetup]), ?_⟩
  rcases closing_order hsetup List.mem_cons_self with hstill | ⟨x, hx, hfull⟩
  · exact .inl hstill
  · exact .inr ⟨x, hboth.log_subset hx, hfull⟩

/-- `close_lobby_if_needed` does nothing, or closes the lobby and goes on with nested
actions. -/
theorem closeLobbyIfNeeded_cases {w : Server F} (hw : Inv w) :
    closeLobbyIfNeeded w = w ∨
      (Action w .lobbyClosed (closed w).state ∧ Reacts (closed w) (closeLobbyIfNeeded w)) := by
  rcases closeLobbyIfNeeded_eq w with hsame | ⟨hclose, heq⟩
  · exact .inl hsame
  · have hinv : Inv (closed w) := hclose.inv hw
    obtain ⟨htold, hlater, horder⟩ := closingTold_reacts hinv
    rw [heq]
    exact .inr ⟨hclose, htold.trans (decideSetup_reacts (hinv.along htold) hlater horder)⟩

/-- `close_lobby_if_needed`. -/
theorem closeLobbyIfNeeded_acts {w : Server F} (hw : Inv w) : Acts w (closeLobbyIfNeeded w) := by
  rcases closeLobbyIfNeeded_cases hw with hsame | ⟨hclose, hpath⟩
  · rw [hsame]
    exact .refl w
  · have hclosed : Acts w (closed w) := .single rfl hclose
    exact hclosed.trans (Reacts.acts hpath)

/-- Every admitted player is ready, so nobody is expelled for a missing submission. -/
theorem expirePlayer_eq {w : Server F} (hw : Inv w) (i : Slot) : expirePlayer w i = w := by
  unfold expirePlayer
  simp only
  split
  · rename_i h
    simp only [Player.isAdmitted, Bool.and_eq_true, Bool.or_eq_true, Bool.not_eq_true'] at h
    obtain ⟨⟨⟨hc, _⟩, ha⟩, hmissing⟩ := h
    obtain ⟨_, hchoice, hspawn⟩ := (hw.slots i hc).ready ha
    rw [hchoice, hspawn] at hmissing
    simp at hmissing
  · rfl

theorem foldl_expirePlayer_eq {w : Server F} (hw : Inv w) (is : List Slot) :
    is.foldl expirePlayer w = w := by
  induction is with
  | nil => rfl
  | cons i is ih => rw [List.foldl_cons, expirePlayer_eq hw, ih]

/-- `expire_unready_setup_players`. -/
theorem expireUnreadySetupPlayers_acts {w : Server F} (hw : Inv w) :
    Acts w (expireUnreadySetupPlayers w) := by
  unfold expireUnreadySetupPlayers
  split
  · exact .refl w
  rename_i hphase
  have hsetup : w.state.phase = .setup := not_not.mp hphase
  have hopen : w.state.phase ≠ .lobbyOpen := by simp [hsetup]
  split
  · exact .refl w
  split
  · exact .refl w
  simp only [foldl_expirePlayer_eq hw]
  split
  · rename_i hfew
    exact Reacts.acts (endGame_reacts hw hopen (.inl hsetup) (.inl hfew))
  · split
    · exact Reacts.acts (startActiveRound_reacts hw hopen (.inl hsetup))
    · exact .refl w

/-- A chase tick with its broadcast and the decision after it. -/
theorem chaseTick_acts {w : Server F} (hw : Inv w) (hphase : w.state.phase = .roundActive)
    (dt : F) (ended : Bool) :
    Acts w (if ended then
      reevaluateState (broadcastPositions (w.record .chaseTicked (simulateChaseTick w.state dt).1))
    else broadcastPositions (w.record .chaseTicked (simulateChaseTick w.state dt).1)) := by
  have htick : Acts w (w.record .chaseTicked (simulateChaseTick w.state dt).1) :=
    .single rfl (.tick hphase)
  have hpos := broadcastPositions_reacts (hw.along htick)
  have hreeval := reevaluateState_reacts _ ((hw.along htick).along hpos)
  split
  · exact (htick.trans (Reacts.acts hpos)).trans (Reacts.acts hreeval)
  · exact htick.trans (Reacts.acts hpos)

/-- `advance_match_timers`. -/
theorem advanceMatchTimers_acts {w : Server F} (hw : Inv w) (now last dt : ℚ) :
    Acts w (advanceMatchTimers now last dt w).1 := by
  have hclose := closeLobbyIfNeeded_acts hw
  have hexpire := expireUnreadySetupPlayers_acts (hw.along hclose)
  have hinv := (hw.along hclose).along hexpire
  have htimers := hclose.trans hexpire
  unfold advanceMatchTimers
  simp only
  split
  · exact htimers
  rename_i hphase
  split
  · exact htimers
  refine htimers.trans ?_
  dsimp only
  exact chaseTick_acts hinv (not_not.mp hphase) _ _

end BattleRoyale
