import BattleRoyale.Refinement

/-!
# Every step of the loop refines the abstract server

The rest of the refinement: the resolution of a round, the reset of a match, the
command handlers and the steps of the loop. A step performs actions within a match,
or ends with `reset_match` in a finished match, or is `resolve_round`. A whole run
is a path, and two rules of induction follow: one for every recorded state of a
run, one for the states between its steps.
-/

namespace BattleRoyale

open Recorded

variable {F : Type} [CFloat F]

/-- Actions other than the begin of `resolve_round`, one after another. -/
abbrev Runs (w v : Server F) : Prop := Path Action (fun e => e.isResolving = false) w v

/-- Actions within a match are such actions. -/
theorem Acts.runs {w v : Server F} (h : Acts w v) : Runs w v :=
  h.mono fun e he => by cases e <;> first | rfl | cases he

/-- The situation inside of `resolve_round`. -/
structure Resolving (w : Server F) : Prop where
  /-- The invariants hold. -/
  inv : Inv w
  /-- The lobby is closed. -/
  later : w.state.phase ≠ .lobbyOpen
  /-- A round has started. -/
  round : w.state.roundNo ≠ 0
  /-- The record shows the resolution. -/
  resolved : RoundsResolved w.log

/-- The situation lasts. -/
theorem Resolving.along {w v : Server F} (h : Resolving w) (hpath : Acts w v) : Resolving v where
  inv := h.inv.along hpath
  later := Acts.later hpath h.later
  round := Acts.roundNo_ne hpath h.round
  resolved := h.resolved.along hpath

/-- A pair with a winner. -/
theorem resolveWin_acts {w : Server F} (hw : Resolving w) (pair : Pair) (winner loser : Slot) :
    Acts w (resolveWin pair winner loser w) := by
  unfold resolveWin
  simp only
  generalize hu : w.record (.pairResolved winner loser) _ = u
  have hpair : Acts w u := hu ▸ .single rfl (.pair hw.later hw.round hw.resolved)
  have hbroadcast := queueBroadcast_reacts
    (.pairWinner (u.state.players pair.a).name (u.state.players pair.b).name
      (u.state.players pair.a).choice (u.state.players pair.b).choice
      (u.state.players winner).name (u.state.players winner).x (u.state.players winner).y)
    (hw.along hpair).inv fun _ => (hw.along hpair).resolved
  refine (hpair.trans (Reacts.acts hbroadcast)).trans ?_
  split
  · rename_i hconn
    have hcall : Acts _ (queueTo .checked .eliminated loser _).2 :=
      queueTo_path rfl rfl hconn trivial
    split <;> rename_i v hq <;> rw [hq] at hcall
    · exact hcall
    · exact hcall.trans (Reacts.acts (dropSilently_reacts loser v))
  · exact .refl _

/-- Any pair. -/
theorem resolvePair_acts {w : Server F} (hw : Resolving w) (pair : Pair) :
    Acts w (resolvePair w pair) := by
  unfold resolvePair
  simp only
  split
  · exact resolveWin_acts hw pair pair.a pair.b
  · split
    · exact resolveWin_acts hw pair pair.b pair.a
    · exact Reacts.acts (queueBroadcast_reacts _ hw.inv fun _ => trivial)

/-- `begin_repicks`. -/
theorem beginRepicks_acts {w : Server F} (hw : Resolving w) : Acts w (beginRepicks w) := by
  have hbegin : Acts w (w.record .repicksBegun
      { w.state with phase := .repick, players := fun i => (w.state.players i).clearRepick }) :=
    .single rfl (.enterRepick hw.later hw.round hw.resolved)
  have hinv := hw.inv.along hbegin
  have hbroadcast := queueBroadcast_reacts .repickStart hinv fun _ => trivial
  have hpos := broadcastPositions_reacts (hinv.along hbroadcast)
  exact (hbegin.trans (Reacts.acts hbroadcast)).trans (Reacts.acts hpos)

/-- The announcement of the player who is left over. -/
theorem announceBye_acts {w : Server F} (hw : Inv w) (bye : Option Slot) :
    Acts w (announceBye bye w) := by
  cases bye with
  | none => exact .refl w
  | some i => exact Reacts.acts (queueBroadcast_reacts _ hw fun _ => trivial)

/-- The decision at the end of `resolve_round`. -/
theorem decideRound_acts {w : Server F} (hw : Resolving w) :
    Acts w (if activeAliveCount w.state ≤ 1 then endGame w
      else if allAliveSameChoice w.state then beginRepicks w
      else startActiveRound w) := by
  split
  · exact Reacts.acts (endGame_reacts hw.inv hw.later (.inr (.inr (.inr hw.resolved)))
      (.inr (.inl hw.resolved)))
  · split
    · exact beginRepicks_acts hw
    · exact Reacts.acts (startActiveRound_reacts hw.inv hw.later (.inr (.inr hw.resolved)))

/-- The last part of `resolve_round`. -/
theorem concludeRound_acts {w : Server F} (hw : Resolving w) : Acts w (concludeRound w) := by
  have hclear : Acts w (w.record .roundCleared
      { w.state with players := fun i => { w.state.players i with inRound := false } }) :=
    .single rfl (.clearRound hw.later hw.resolved)
  have hpos := broadcastPositions_reacts (hw.along hclear).inv
  have hend := (hw.along hclear).along (Reacts.acts hpos)
  exact (hclear.trans (Reacts.acts hpos)).trans (decideRound_acts hend)

/-- The resolution of all pairs. -/
theorem foldl_resolvePair_acts {w : Server F} (hw : Resolving w) (pairs : List Pair) :
    Acts w (pairs.foldl resolvePair w) :=
  Path.foldl Resolving (fun _ _ hpath h => h.along hpath) (fun _ pair h => resolvePair_acts h pair)
    pairs hw

/-- `resolve_round` in an active round, after its begin. -/
theorem resolveRound_acts {w : Server F} (hw : Inv w) (hphase : w.state.phase = .roundActive) :
    Acts (w.record .resolving w.state) (resolveRound w) := by
  have hresolving : Resolving (w.record .resolving w.state) :=
    ⟨(Action.resolve hphase).inv hw, by simp [hphase], hw.running (.inl hphase),
      ⟨_, List.mem_cons_self, .inl rfl⟩⟩
  have hpairs := foldl_resolvePair_acts hresolving
    (buildPairs (w.record .resolving w.state).state (MAX_PLAYERS / 2)).1
  have hbye := announceBye_acts (hresolving.along hpairs).inv
    (buildPairs (w.record .resolving w.state).state (MAX_PLAYERS / 2)).2
  exact hpairs.trans (hbye.trans (concludeRound_acts ((hresolving.along hpairs).along hbye)))

/-- The loop of `reset_match` at one slot, in the lobby that was just opened. -/
theorem resetPlayer_path {P : Event F → Prop} (hP : Answers P) {w : Server F} {i : Slot}
    (hprogress : P (.progressReset i))
    (hphase : w.state.phase = .lobbyOpen ∧ w.state.joinDeadline = 0) :
    Path Action P w (resetPlayer w i) ∧
      (resetPlayer w i).state.phase = .lobbyOpen ∧ (resetPlayer w i).state.joinDeadline = 0 := by
  unfold resetPlayer
  split
  swap
  · exact ⟨.refl w, hphase⟩
  rename_i hreg
  simp only
  generalize hu : w.record (.progressReset i)
    (w.state.setPlayer i (w.state.players i).resetProgress) = u
  have hreset : Path Action P w u := hu ▸ .single hprogress (.resetProgress hreg hphase.1)
  have huphase : u.state.phase = .lobbyOpen ∧ u.state.joinDeadline = 0 := by subst hu; exact hphase
  have hconn : (u.state.players i).connected = true := by
    simp only [Player.isRegistered, Bool.and_eq_true] at hreg
    subst hu
    simpa [Player.resetProgress] using hreg.1
  have hlines : Path Action P u (queueSeq .checked resetLines i u).2 := by
    refine queueSeq_path _ (fun _ _ _ => hP.queued i _) (fun _ _ _ => hP.refused i _) hconn
      fun line hline v hpath hs => ?_
    simp only [resetLines, List.mem_cons, List.not_mem_nil, or_false] at hline
    rcases hline with rfl | rfl | rfl | rfl | rfl
    · trivial
    · trivial
    · trivial
    · trivial
    · exact ⟨by rw [hs.table]; exact huphase.1, by rw [hs.table]; exact huphase.2⟩
  have hsame := queueSeq_rebuffered .checked (resetLines : List (Server F → ServerLine F)) i u
  have hkept : (queueSeq .checked resetLines i u).2.state.phase = .lobbyOpen ∧
      (queueSeq .checked resetLines i u).2.state.joinDeadline = 0 := by
    rw [hsame.table]
    exact huphase
  split <;> rename_i v hq <;> rw [hq] at hlines hkept
  · exact ⟨hreset.trans hlines, hkept⟩
  · refine ⟨(hreset.trans hlines).trans ((dropSilently_reacts i v).mono hP.nested), ?_⟩
    rw [dropSilently, dropSlot]
    split <;> exact hkept

/-- What the loop of `reset_match` leaves of one slot. -/
theorem resetPlayer_state (w : Server F) (i : Slot) :
    (resetPlayer w i).state =
        { w.state with players := (resetPlayer w i).state.players } ∧
      ∀ j, ((resetPlayer w i).state.players j).isAdmitted = true →
        j ≠ i ∧ (w.state.players j).isAdmitted = true := by
  unfold resetPlayer
  split
  swap
  · rename_i hreg
    refine ⟨rfl, fun j hj => ⟨?_, hj⟩⟩
    rintro rfl
    exact hreg (Player.isRegistered_of_isAdmitted hj)
  simp only
  generalize hu : w.record (.progressReset i)
    (w.state.setPlayer i (w.state.players i).resetProgress) = u
  have hcleared : ∀ j, (u.state.players j).isAdmitted = true →
      j ≠ i ∧ (w.state.players j).isAdmitted = true := by
    subst hu
    intro j hj
    rw [System.record_state, ServerState.setPlayer_players] at hj
    split at hj
    · simp [Player.isAdmitted, Player.resetProgress] at hj
    · rename_i hji
      exact ⟨hji, hj⟩
  have htable : u.state = { w.state with players := u.state.players } := by subst hu; rfl
  have hsame := queueSeq_rebuffered .checked (resetLines : List (Server F → ServerLine F)) i u
  split <;> rename_i v hq <;> rw [hq] at hsame
  · refine ⟨by rw [hsame.table, htable], fun j hj => hcleared j ?_⟩
    rw [hsame.player j] at hj
    exact hj
  · rw [dropSilently, dropSlot]
    split
    · refine ⟨?_, fun j hj => hcleared j ?_⟩
      · rw [System.record_state, hsame.table, htable]
        rfl
      · rw [System.record_state, ServerState.setPlayer_players] at hj
        split at hj
        · simp [Player.isAdmitted, Player.cleared, Player.zero] at hj
        · rw [hsame.player j] at hj
          exact hj
    · refine ⟨by rw [hsame.table, htable], fun j hj => hcleared j ?_⟩
      rw [hsame.player j] at hj
      exact hj

/-- After `reset_match` the lobby is open, no countdown runs and nobody is admitted. -/
theorem resetMatch_state (w : Server F) :
    (resetMatch w).state.phase = .lobbyOpen ∧ (resetMatch w).state.joinDeadline = 0 ∧
      ∀ i, ((resetMatch w).state.players i).isAdmitted = false := by
  have hloop : ∀ (is : List Slot) (v : Server F),
      (is.foldl resetPlayer v).state =
          { v.state with players := (is.foldl resetPlayer v).state.players } ∧
        ∀ j, ((is.foldl resetPlayer v).state.players j).isAdmitted = true →
          j ∉ is ∧ (v.state.players j).isAdmitted = true := by
    intro is
    induction is with
    | nil => exact fun v => ⟨rfl, fun j hj => ⟨List.not_mem_nil, hj⟩⟩
    | cons i is ih =>
      intro v
      obtain ⟨htable, hstep⟩ := resetPlayer_state v i
      obtain ⟨hrest, hout⟩ := ih (resetPlayer v i)
      refine ⟨by rw [List.foldl_cons, hrest, htable], fun j hj => ?_⟩
      obtain ⟨hjs, hj'⟩ := hout j hj
      obtain ⟨hji, hjv⟩ := hstep j hj'
      exact ⟨by simp [hji, hjs], hjv⟩
  unfold resetMatch
  generalize hv : w.record .matchReset
    { w.state with
      phase := .lobbyOpen
      joinDeadline := 0
      setupDeadline := 0
      roundDeadline := 0
      roundNo := 0 } = v
  obtain ⟨htable, hout⟩ := hloop slots v
  refine ⟨?_, ?_, fun i => ?_⟩
  · rw [htable]
    subst hv
    rfl
  · rw [htable]
    subst hv
    rfl
  · cases hi : ((slots.foldl resetPlayer v).state.players i).isAdmitted with
    | false => rfl
    | true => exact absurd (mem_slots i) (hout i hi).1

/-- `reset_match` in a finished match. -/
theorem resetMatch_path {P : Event F → Prop} (hP : Answers P) (hmatch : P .matchReset)
    (hprogress : ∀ i, P (.progressReset i)) {w : Server F} (hphase : w.state.phase = .gameOver) :
    Path Action P w (resetMatch w) := by
  have hreset : Path Action P w (w.record .matchReset
      { w.state with
        phase := .lobbyOpen
        joinDeadline := 0
        setupDeadline := 0
        roundDeadline := 0
        roundNo := 0 }) := .single hmatch (.reset hphase)
  refine hreset.trans ?_
  have hloop : ∀ (is : List Slot) (v : Server F),
      v.state.phase = .lobbyOpen ∧ v.state.joinDeadline = 0 →
        Path Action P v (is.foldl resetPlayer v) := by
    intro is
    induction is with
    | nil => exact fun v _ => .refl v
    | cons i is ih =>
      intro v hv
      obtain ⟨hpath, hkept⟩ := resetPlayer_path hP (hprogress i) hv
      exact hpath.trans (ih _ hkept)
  exact hloop slots _ ⟨rfl, rfl⟩

omit [CFloat F] in
theorem Answers.running : Answers (fun e : Event F => e.isResolving = false) where
  nested e he := by cases e <;> first | rfl | cases he
  queued _ _ := rfl
  refused _ _ := rfl

theorem resetMatch_runs {w : Server F} (hphase : w.state.phase = .gameOver) :
    Runs w (resetMatch w) := resetMatch_path .running rfl (fun _ => rfl) hphase

omit [CFloat F] in
/-- The argument text is part of the line. -/
theorem parseCommand_args {line cmd args : List Char} {n : ℕ}
    (h : parseCommand line n = some (cmd, some args)) {c : Char} (hc : c ∈ args) : c ∈ line := by
  unfold parseCommand at h
  split at h
  · cases h
  split at h
  · simp at h
  rename_i b rest hrest
  simp only at h
  split at h
  · cases h
  split at h
  · simp at h
  simp only [Option.some.injEq, Prod.mk.injEq] at h
  rw [← h.2] at hc
  have hmem : c ∈ rest := (List.dropWhile_sublist _).subset hc
  exact (List.dropWhile_sublist _).subset (hrest ▸ List.mem_cons_of_mem b hmem)

/-- A C string does not contain its terminator. -/
theorem ne_of_mem_cString {text : List Char} {c : Char} (h : c ∈ cString text) : c ≠ '\x00' := by
  simpa using List.mem_takeWhile_imp h

/-- What `%31s` stores is a valid name. -/
theorem scanWord_validName {args name rest : List Char} (hargs : ∀ c ∈ args, c ≠ '\x00')
    (h : scanWord (MAX_NAME_LENGTH - 1) args = some (name, rest)) : ValidName name := by
  unfold scanWord at h
  simp only at h
  split at h
  · cases h
  rename_i hnonempty
  simp only [Option.some.injEq, Prod.mk.injEq] at h
  rw [h.1] at hnonempty
  refine ⟨by simpa using hnonempty, ?_, ?_⟩
  · rw [← h.1, List.length_take]
    exact lt_of_le_of_lt (min_le_left _ _) (by decide)
  · intro c hc
    rw [← h.1] at hc
    have hword := List.mem_of_mem_take hc
    refine ⟨by simpa using List.mem_takeWhile_imp hword, hargs c ?_⟩
    exact (List.dropWhile_sublist _).subset ((List.takeWhile_sublist _).subset hword)

/-- What `parse_rps_choice_arg` accepts. -/
theorem parseRpsChoiceArg_isChoice {args : Option (List Char)} {c : Char}
    (h : parseRpsChoiceArg args = some c) : IsChoice c := by
  unfold parseRpsChoiceArg at h
  split at h
  · simp only at h
    split at h
    · cases h
    · rename_i hnot
      rw [← Option.some.inj h, IsChoice]
      by_contra hne
      simp only [not_or] at hne
      exact hnot hne
  · cases h

/-- The line acknowledges an accepted command. -/
def ServerLine.isAck : ServerLine F → Bool
  | .welcome _ => true
  | .choiceOk _ => true
  | .spawnOk _ _ => true
  | .repickOk _ => true
  | _ => false

/-- A reply. -/
theorem reply_path {P : Event F → Prop} {line : ServerLine F} {i : Slot} {w : Server F}
    (hqueued : P (.queued i .line line)) (hrefused : P (.refused i .line line))
    (hconn : (w.state.players i).connected = true) (hline : LineOk w i .line line) :
    Path Action P w (reply line i w) := queueTo_path hqueued hrefused hconn hline

theorem reply_serves (line : ServerLine F) {i : Slot} {w : Server F}
    (hconn : (w.state.players i).connected = true) (hline : LineOk w i .line line) :
    Serves w (reply line i w) := reply_path rfl rfl hconn hline

/-- A reply changes a send buffer at most. -/
theorem reply_rebuffered (line : ServerLine F) (i : Slot) (w : Server F) :
    Rebuffered w.state (reply line i w).state := queueTo_rebuffered ..

/-- The sender of a command is still there after the reply. -/
theorem reply_connected (line : ServerLine F) (i : Slot) {j : Slot} {w : Server F}
    (hconn : (w.state.players j).connected = true) :
    ((reply line i w).state.players j).connected = true := by
  rw [(reply_rebuffered line i w).player j]
  exact hconn

/-- The check before CHOICE and SPAWN. -/
theorem requireRegisteredNotAdmitted_path {P : Event F → Prop} {i : Slot}
    (hqueued : ∀ line : ServerLine F, line.isAck = false → P (.queued i .line line))
    (hrefused : ∀ line, P (.refused i .line line)) {w : Server F}
    (hconn : (w.state.players i).connected = true) :
    Path Action P w (requireRegisteredNotAdmitted i w).2 := by
  unfold requireRegisteredNotAdmitted
  simp only
  split
  · exact reply_path (hqueued _ rfl) (hrefused _) hconn trivial
  · split
    · exact reply_path (hqueued _ rfl) (hrefused _) hconn trivial
    · exact .refl w

/-- What the check before CHOICE and SPAWN has established. -/
theorem requireRegisteredNotAdmitted_true {i : Slot} {w v : Server F}
    (h : requireRegisteredNotAdmitted i w = (true, v)) :
    v = w ∧ (w.state.players i).registered = true ∧ (w.state.players i).admitted = false := by
  unfold requireRegisteredNotAdmitted at h
  simp only at h
  split at h
  · cases h
  · rename_i hreg
    split at h
    · cases h
    · rename_i hadm
      exact ⟨(congrArg Prod.snd h).symm, by simpa using hreg, by simpa using hadm⟩

/-- The check answers with an error where it fails. -/
theorem requireRegisteredNotAdmitted_false {i : Slot} {w v : Server F}
    (h : requireRegisteredNotAdmitted i w = (false, v)) :
    ∃ reason, v = reply (.error reason) i w := by
  unfold requireRegisteredNotAdmitted at h
  simp only at h
  split at h
  · exact ⟨_, (congrArg Prod.snd h).symm⟩
  · split at h
    · exact ⟨_, (congrArg Prod.snd h).symm⟩
    · cases h

/-- The lobby status after HELLO. -/
theorem queueLobbyStatusForPlayer_path {P : Event F → Prop} {i : Slot}
    (hqueued : ∀ line : ServerLine F, line.isAck = false → P (.queued i .line line))
    (hrefused : ∀ line, P (.refused i .line line)) {w : Server F}
    (hconn : (w.state.players i).connected = true) :
    Path Action P w (queueLobbyStatusForPlayer i w) := by
  unfold queueLobbyStatusForPlayer
  split
  · rename_i hopen
    have htype : Path Action P w (reply .chooseType i w) :=
      reply_path (hqueued _ rfl) (hrefused _) hconn trivial
    have hspawn : Path Action P (reply .chooseType i w)
        (reply (.chooseSpawn GRID_W GRID_H) i (reply .chooseType i w)) :=
      reply_path (hqueued _ rfl) (hrefused _) (reply_connected _ _ hconn) trivial
    have hsame := (reply_rebuffered .chooseType i w).trans
      (reply_rebuffered (.chooseSpawn GRID_W GRID_H) i (reply .chooseType i w))
    have hconn' := reply_connected (.chooseSpawn GRID_W GRID_H) i
      (reply_connected .chooseType i hconn)
    refine (htype.trans hspawn).trans ?_
    dsimp only
    split
    · rename_i hidle
      exact reply_path (hqueued _ rfl) (hrefused _) hconn'
        ⟨by rw [hsame.table]; exact hopen, hidle⟩
    · rename_i hcount
      exact reply_path (hqueued _ rfl) (hrefused _) hconn'
        ⟨by rw [hsame.table]; exact hopen, fun _ => hcount⟩
  · rename_i hclosed
    exact reply_path (hqueued _ rfl) (hrefused _) hconn hclosed

theorem queueLobbyStatusForPlayer_serves {i : Slot} {w : Server F}
    (hconn : (w.state.players i).connected = true) :
    Serves w (queueLobbyStatusForPlayer i w) :=
  queueLobbyStatusForPlayer_path (fun _ _ => rfl) (fun _ => rfl) hconn

/-- HELLO is refused, or the name is stored and the answers follow. -/
theorem handleHelloCommand_cases (i : Slot) (args : Option (List Char)) (w : Server F) :
    (∃ reason, handleHelloCommand i args w = reply (.error reason) i w) ∨
      ∃ name s, s = w.state.setPlayer i
          { (w.state.players i).resetProgress with name := name, registered := true } ∧
        ((w.state.players i).connected = true →
          (∀ text, args = some text → ∀ c ∈ text, c ≠ '\x00') → Action w (.registered i) s) ∧
        handleHelloCommand i args w = queueLobbyStatusForPlayer i
          (reply .spectating i (reply (.welcome (s.players i).id) i
            (w.record (.registered i) s))) := by
  unfold handleHelloCommand
  simp only
  split
  · exact .inl ⟨_, rfl⟩
  rename_i hnew
  split
  · exact .inl ⟨_, rfl⟩
  rename_i name rest hscan
  split
  · exact .inl ⟨_, rfl⟩
  rename_i hunused
  obtain ⟨text, htext, hword⟩ := Option.bind_eq_some_iff.mp hscan
  exact .inr ⟨name, _, rfl, fun hconn hargs => .register hconn (by simpa using hnew)
    (scanWord_validName (hargs text htext) hword) (by simpa using hunused), rfl⟩

/-- CHOICE is refused, or the type is stored and confirmed, and the join may be complete. -/
theorem handleChoiceCommand_cases (i : Slot) (args : Option (List Char)) (w : Server F) :
    (∃ reason, handleChoiceCommand i args w = reply (.error reason) i w) ∨
      ∃ choice s, s = w.state.setPlayer i
          { w.state.players i with choice := choice, choiceChosen := true } ∧
        ((w.state.players i).connected = true → Action w (.chose i) s) ∧
        handleChoiceCommand i args w =
          maybeAdmitPlayer i (reply (.choiceOk choice) i (w.record (.chose i) s)) := by
  unfold handleChoiceCommand
  split <;> rename_i v hq
  · exact .inl (requireRegisteredNotAdmitted_false hq)
  obtain ⟨rfl, hreg, hout⟩ := requireRegisteredNotAdmitted_true hq
  split
  · exact .inl ⟨_, rfl⟩
  rename_i choice hparse
  exact .inr ⟨choice, _, rfl, fun hconn => .choose (by simp [Player.isRegistered, hconn, hreg])
    hout (parseRpsChoiceArg_isChoice hparse), rfl⟩

/-- SPAWN is refused, or the position is stored and confirmed, and the join may be complete. -/
theorem handleSpawnCommand_cases (i : Slot) (args : Option (List Char)) (w : Server F) :
    (∃ reason, handleSpawnCommand i args w = reply (.error reason) i w) ∨
      ∃ x y s, s = w.state.setPlayer i
          { w.state.players i with x := x, y := y, spawnChosen := true } ∧
        ((w.state.players i).registered = true ∧ (w.state.players i).admitted = false ∧
          args.bind scanSpawn = some (x, y) ∧ badSpawn x y = false ∧
          spawnTaken w.state (CFloat.toInt x) (CFloat.toInt y) i = false) ∧
        ((w.state.players i).connected = true → Action w (.spawned i) s) ∧
        handleSpawnCommand i args w =
          maybeAdmitPlayer i (reply (.spawnOk x y) i (w.record (.spawned i) s)) := by
  unfold handleSpawnCommand
  split <;> rename_i v hq
  · exact .inl (requireRegisteredNotAdmitted_false hq)
  obtain ⟨rfl, hreg, hout⟩ := requireRegisteredNotAdmitted_true hq
  split
  · exact .inl ⟨_, rfl⟩
  rename_i x y hparse
  split
  · exact .inl ⟨_, rfl⟩
  rename_i hrange
  split
  · exact .inl ⟨_, rfl⟩
  rename_i htaken
  have hrange' : badSpawn x y = false := by simpa using hrange
  have htaken' : spawnTaken v.state (CFloat.toInt x) (CFloat.toInt y) i = false := by
    simpa using htaken
  exact .inr ⟨x, y, _, rfl, ⟨hreg, hout, hparse, hrange', htaken'⟩, fun hconn =>
    .spawn (by simp [Player.isRegistered, hconn, hreg]) hout hrange' htaken', rfl⟩

/-- REPICK is refused, or the new type is stored and confirmed, and the repick may be
complete. -/
theorem handleRepickCommand_cases (i : Slot) (args : Option (List Char)) (w : Server F) :
    (∃ reason, handleRepickCommand i args w = reply (.error reason) i w) ∨
      ∃ choice s v, s = w.state.setPlayer i
          { w.state.players i with repickChoice := choice, repickSubmitted := true } ∧
        v = reply (.repickOk choice) i (w.record (.repicked i) s) ∧
        w.state.phase = .repick ∧
        ((w.state.players i).connected = true →
          (w.state.players i).isAlive = true ∧ Action w (.repicked i) s) ∧
        handleRepickCommand i args w =
          if allAliveRepicked v.state then finishRepicks v else reply .repickWaiting i v := by
  unfold handleRepickCommand
  simp only
  split
  · exact .inl ⟨_, rfl⟩
  rename_i hphase
  split
  · exact .inl ⟨_, rfl⟩
  rename_i hin
  split
  · exact .inl ⟨_, rfl⟩
  rename_i hnew
  split
  · exact .inl ⟨_, rfl⟩
  rename_i choice hparse
  refine .inr ⟨choice, _, _, rfl, rfl, not_not.mp hphase, fun hconn => ?_, rfl⟩
  have halive : (w.state.players i).isAlive = true := by
    simp only [Bool.or_eq_true, Bool.not_eq_true', not_or, Bool.not_eq_false] at hin
    simp [Player.isAlive, hconn, hin.1.1, hin.1.2, hin.2]
  exact ⟨halive, .submit (not_not.mp hphase) halive (by simpa using hnew)
    (parseRpsChoiceArg_isChoice hparse)⟩

/-- HELLO. -/
theorem handleHelloCommand_acts {i : Slot} {args : Option (List Char)} {w : Server F}
    (hconn : (w.state.players i).connected = true)
    (hargs : ∀ text, args = some text → ∀ c ∈ text, c ≠ '\x00') :
    Acts w (handleHelloCommand i args w) := by
  rcases handleHelloCommand_cases i args w with ⟨reason, heq⟩ | ⟨name, s, hs, hstep, heq⟩ <;>
    rw [heq]
  · exact Serves.acts (reply_serves _ hconn trivial)
  have hregister : Acts w (w.record (.registered i) s) := .single rfl (hstep hconn hargs)
  have hnamed : ((w.record (.registered i) s).state.players i).connected = true := by
    simpa [hs, Player.resetProgress] using hconn
  have hwelcome := reply_serves (.welcome (s.players i).id) hnamed trivial
  have hgreeted := reply_connected (.welcome (s.players i).id) i hnamed
  have hspectating := reply_serves .spectating hgreeted trivial
  have hstatus := queueLobbyStatusForPlayer_serves (reply_connected .spectating i hgreeted)
  exact hregister.trans (Serves.acts ((hwelcome.trans hspectating).trans hstatus))

omit [CFloat F] in
/-- Answers are no commands. -/
theorem Event.isServing.not_isJoinCommand {e : Event F} (h : e.isServing = true) (i : Slot) :
    e.isJoinCommand i = false := by
  cases e <;> first | rfl | cases h

/-- Occupants who were unseen before a reply are unseen after it. -/
theorem OccupantsUnseen.rebuffered {u v : Server F} {i : Slot}
    (h : OccupantsUnseen u.state i u.log) (hpath : Serves u v)
    (hsame : Rebuffered u.state v.state) : OccupantsUnseen v.state i v.log := by
  obtain ⟨new, hlog, hserving⟩ := hpath.log_eq
  rw [hlog]
  refine h.of_kept ?_ (fun j hadmitted => ?_)
    fun x hx => Event.isServing.not_isJoinCommand (hserving x hx) i
  · rw [hsame.player i]
    rfl
  · rw [hsame.player j] at hadmitted ⊢
    exact ⟨hadmitted, rfl⟩

/-- CHOICE looks at nobody. -/
theorem occupantsUnseen_chose (w : Server F) (i : Slot) (s : ServerState F) :
    OccupantsUnseen (w.record (.chose i) s).state i (w.record (.chose i) s).log := by
  intro j _ hadmitted htile
  refine ⟨⟨.chose i, s⟩, by simp [Event.isJoinCommand], hadmitted, htile, fun h => ?_⟩
  cases h

/-- Whom SPAWN missed in its tile is off the grid points: `spawn_taken` compares the
coordinates of the occupant with whole numbers. -/
theorem occupantsUnseen_spawned {i : Slot} {x y : F} {w : Server F} (hw : Inv w)
    (hmiss : spawnTaken w.state (CFloat.toInt x) (CFloat.toInt y) i = false) :
    OccupantsUnseen (w.record (.spawned i) (w.state.setPlayer i
      { w.state.players i with x := x, y := y, spawnChosen := true })).state i
      (w.record (.spawned i) (w.state.setPlayer i
        { w.state.players i with x := x, y := y, spawnChosen := true })).log := by
  intro j hj hadmitted htile
  refine ⟨⟨.spawned i, _⟩, by simp [Event.isJoinCommand], hadmitted, htile, fun _ => ?_⟩
  simp only [System.record_state] at hadmitted htile ⊢
  rw [ServerState.setPlayer_of_ne _ _ hj] at hadmitted htile ⊢
  rw [ServerState.setPlayer_self] at htile
  simp only [Player.tile, Prod.mk.injEq] at htile
  have hcj : (w.state.players j).connected = true ∧ (w.state.players j).admitted = true := by
    simp only [Player.isAdmitted, Bool.and_eq_true] at hadmitted
    exact ⟨hadmitted.1.1, hadmitted.2⟩
  have hchosen := ((hw.slots j hcj.1).ready hcj.2).2.2
  have hmissj := List.any_eq_false.mp hmiss j (mem_slots j)
  simp only [hj, hadmitted, hchosen, ne_eq, not_false_eq_true, decide_true, Bool.and_true,
    Bool.true_and, Bool.not_eq_true, ← htile.1, ← htile.2] at hmissj
  exact hmissj

/-- CHOICE. -/
theorem handleChoiceCommand_acts {i : Slot} {args : Option (List Char)} {w : Server F}
    (hw : Inv w) (hconn : (w.state.players i).connected = true) :
    Acts w (handleChoiceCommand i args w) := by
  rcases handleChoiceCommand_cases i args w with ⟨reason, heq⟩ | ⟨choice, s, hs, hstep, heq⟩ <;>
    rw [heq]
  · exact Serves.acts (reply_serves _ hconn trivial)
  have hchose : Acts w (w.record (.chose i) s) := .single rfl (hstep hconn)
  have hstored : ((w.record (.chose i) s).state.players i).connected = true := by
    simpa [hs] using hconn
  have hreply := reply_serves (.choiceOk choice) hstored trivial
  have hinv := (hw.along hchose).along hreply
  refine (hchose.trans (Serves.acts hreply)).trans (maybeAdmitPlayer_acts hinv ?_)
  exact (occupantsUnseen_chose _ i _).rebuffered hreply (reply_rebuffered (.choiceOk choice) i _)

/-- SPAWN. -/
theorem handleSpawnCommand_acts {i : Slot} {args : Option (List Char)} {w : Server F}
    (hw : Inv w) (hconn : (w.state.players i).connected = true) :
    Acts w (handleSpawnCommand i args w) := by
  rcases handleSpawnCommand_cases i args w with
    ⟨reason, heq⟩ | ⟨x, y, s, hs, ⟨_, _, _, _, hfree⟩, hstep, heq⟩ <;> rw [heq]
  · exact Serves.acts (reply_serves _ hconn trivial)
  have hspawned : Acts w (w.record (.spawned i) s) := .single rfl (hstep hconn)
  have hstored : ((w.record (.spawned i) s).state.players i).connected = true := by
    simpa [hs] using hconn
  have hreply := reply_serves (.spawnOk x y) hstored trivial
  have hinv := (hw.along hspawned).along hreply
  refine (hspawned.trans (Serves.acts hreply)).trans (maybeAdmitPlayer_acts hinv ?_)
  subst hs
  exact (occupantsUnseen_spawned hw hfree).rebuffered hreply
    (reply_rebuffered (.spawnOk x y) i _)

/-- REPICK. -/
theorem handleRepickCommand_acts {i : Slot} {args : Option (List Char)} {w : Server F}
    (hw : Inv w) (hconn : (w.state.players i).connected = true) :
    Acts w (handleRepickCommand i args w) := by
  rcases handleRepickCommand_cases i args w with
    ⟨reason, heq⟩ | ⟨choice, s, v, hs, hv, hphase, hstep, heq⟩ <;> rw [heq]
  · exact Serves.acts (reply_serves _ hconn trivial)
  have hsubmit : Acts w (w.record (.repicked i) s) := .single rfl (hstep hconn).2
  have hstored : ((w.record (.repicked i) s).state.players i).connected = true := by
    simpa [hs] using hconn
  have hpath : Acts w v := hv ▸ hsubmit.trans (Serves.acts (reply_serves _ hstored trivial))
  split
  · rename_i hall
    refine hpath.trans
      (Reacts.acts (finishRepicksWith_reacts reevaluateState_reacts (hw.along hpath) ?_ hall))
    rw [hv, (reply_rebuffered (.repickOk choice) i _).table]
    simpa [hs] using hphase
  · refine hpath.trans (Serves.acts (reply_serves _ ?_ trivial))
    rw [hv]
    exact reply_connected _ _ hstored

/-- GET_STATE. -/
theorem handleGetStateCommand_path {P : Event F → Prop} (hP : Answers P) {i : Slot}
    {w : Server F} (hw : Inv w) (hconn : (w.state.players i).connected = true) :
    Path Action P w (handleGetStateCommand i w) := by
  have hsnap := queueGameStateForPlayer_path i (hP.queued i) (hP.refused i) hconn
  unfold handleGetStateCommand
  split <;> rename_i v hq <;> rw [hq] at hsnap
  · exact hsnap
  · exact hsnap.trans ((dropSilently_reevaluate_reacts (hw.along hsnap)).mono hP.nested)

theorem handleGetStateCommand_serves {i : Slot} {w : Server F} (hw : Inv w)
    (hconn : (w.state.players i).connected = true) : Serves w (handleGetStateCommand i w) :=
  handleGetStateCommand_path .serving hw hconn

/-- A client that leaves, and the re-entrant call after it. -/
theorem loseConnection_path {P : Event F → Prop} (hP : Answers P) {i : Slot}
    (hdropped : ∀ name, P (.dropped i true name)) {w : Server F} (hw : Inv w) :
    Path Action P w (loseConnection i w) := by
  have hdrop := dropPlayer_path hP hdropped hw
  exact hdrop.trans ((reevaluateState_reacts _ (hw.along hdrop)).mono hP.nested)

theorem loseConnection_acts (i : Slot) {w : Server F} (hw : Inv w) :
    Acts w (loseConnection i w) := loseConnection_path .acting (fun _ => rfl) hw

/-- One command. REMATCH in a finished match resets it; every other command stays
within the match. -/
theorem handleCommand_acts {i : Slot} (line : List Char) {w : Server F} (hw : Inv w)
    (hconn : (w.state.players i).connected = true) :
    Acts w (handleCommand i line w) ∨
      (w.state.phase = .gameOver ∧ handleCommand i line w = resetMatch w) := by
  unfold handleCommand
  split
  · exact .inl (Serves.acts (reply_serves _ hconn trivial))
  rename_i cmd args hparse
  have hargs : ∀ text, args = some text → ∀ c ∈ text, c ≠ '\x00' := by
    rintro text rfl c hc
    exact ne_of_mem_cString (parseCommand_args hparse hc)
  split
  · exact .inl (handleHelloCommand_acts hconn hargs)
  split
  · exact .inl (Serves.acts (handleGetStateCommand_serves hw hconn))
  split
  · exact .inl (handleChoiceCommand_acts hw hconn)
  split
  · exact .inl (handleSpawnCommand_acts hw hconn)
  split
  · exact .inl (handleRepickCommand_acts hw hconn)
  split
  · unfold handleRematchCommand
    split
    · exact .inl (Serves.acts (reply_serves _ hconn trivial))
    · rename_i hover
      exact .inr ⟨not_not.mp hover, rfl⟩
  split
  · exact .inl (loseConnection_acts i hw)
  · exact .inl (Serves.acts (reply_serves _ hconn trivial))

omit [CFloat F] in
/-- A flush removes bytes from the head of the send buffer. -/
theorem flushPlayerOutput_eq (p : Player F) (results : List SendResult) :
    ∃ n, (p.flushPlayerOutput results).2 = { p with outbuf := p.outbuf.drop n } := by
  induction results generalizing p with
  | nil =>
    refine ⟨0, ?_⟩
    unfold Player.flushPlayerOutput
    split <;> rfl
  | cons r results ih =>
    unfold Player.flushPlayerOutput
    split
    · exact ⟨0, rfl⟩
    · cases r with
      | accepted n =>
        dsimp only
        split
        · exact ⟨0, rfl⟩
        · obtain ⟨m, hm⟩ := ih { p with outbuf := p.outbuf.drop n }
          refine ⟨n + m, ?_⟩
          rw [hm]
          simp only [List.drop_drop]
      | wouldBlock => exact ⟨0, rfl⟩
      | failed => exact ⟨0, rfl⟩

omit [CFloat F] in
/-- The bytes that a flush has handed over are the ones that it removed. -/
theorem take_sent (bytes : List Char) (n : ℕ) :
    bytes.take (bytes.length - (bytes.drop n).length) = bytes.take n := by
  rw [List.length_drop]
  rcases Nat.le_total n bytes.length with hle | hge
  · rw [Nat.sub_sub_self hle]
  · rw [Nat.sub_eq_zero_of_le hge, Nat.sub_zero, List.take_length, List.take_of_length_le hge]

omit [CFloat F] in
/-- A read that keeps the connection appends the bytes to the receive buffer. -/
theorem readIntoPlayerBuffer_eq {p : Player F} {result : RecvResult}
    (h : 0 < (p.readIntoPlayerBuffer result).1) :
    (p.readIntoPlayerBuffer result).2 = { p with inbuf := p.inbuf ++ result.bytes } := by
  cases result with
  | data bytes =>
    simp only [Player.readIntoPlayerBuffer] at h ⊢
    split at h
    · simp at h
    · rename_i hroom
      rw [if_neg hroom]
      rfl
  | closed => simp [Player.readIntoPlayerBuffer] at h
  | wouldBlock => simp [Player.readIntoPlayerBuffer, RecvResult.bytes]
  | failed => simp [Player.readIntoPlayerBuffer] at h

/-- A new connection. -/
theorem acceptNewClient_acts {fd : ℤ} {w : Server F} (hw : Inv w) :
    Acts w (acceptNewClient fd w) := by
  unfold acceptNewClient addPlayer
  cases hfind : slots.find? (fun i => !(w.state.players i).connected) with
  | none => exact .refl w
  | some i =>
    dsimp only
    have hfree := List.find?_some hfind
    generalize hu : w.record (.accepted i)
      { w.state.setPlayer i (initPlayerSlot fd w.state.nextId) with
        nextId := w.state.nextId + 1 } = u
    have haccept : Acts w u := hu ▸ .single rfl (.accept (by simpa using hfree))
    have hconn : (u.state.players i).connected = true := by
      subst hu
      simp [initPlayerSlot]
    have hcall : Serves u (queueTo .line .info i u).2 := queueTo_path rfl rfl hconn trivial
    have hinv := (hw.along haccept).along hcall
    refine haccept.trans ((Serves.acts hcall).trans ?_)
    split <;> rename_i v hq <;> rw [hq] at hinv ⊢
    · exact .refl v
    · exact dropPlayer_acts i false hinv

/-- A read from one socket. -/
theorem readPlayer_acts (i : Slot) (result : RecvResult) {w : Server F} (hw : Inv w) :
    Acts w (readPlayer i result w) := by
  unfold readPlayer
  split
  · exact .refl w
  rename_i hconn
  dsimp only
  split
  · exact loseConnection_acts i hw
  · rename_i hrc
    rw [readIntoPlayerBuffer_eq (not_le.mp hrc)]
    exact .single rfl (.receive (by simpa using hconn))

/-- A flush to one socket. -/
theorem writePlayer_acts (i : Slot) (results : List SendResult) {w : Server F} (hw : Inv w) :
    Acts w (writePlayer i results w) := by
  unfold writePlayer
  split
  · exact .refl w
  rename_i hconn
  dsimp only
  obtain ⟨n, hp⟩ := flushPlayerOutput_eq (w.state.players i) results
  rw [hp, take_sent]
  have hflush : Acts w (w.record (.flushed i ((w.state.players i).outbuf.take n))
    (w.state.setPlayer i
      { w.state.players i with outbuf := (w.state.players i).outbuf.drop n })) :=
    .single rfl (.flush (by simpa using hconn))
  split
  · exact hflush.trans (loseConnection_acts i (hw.along hflush))
  · exact hflush

omit [CFloat F] in
/-- Taking a line changes the receive buffer. -/
theorem popLine_eq {p q : Player F} {n : ℕ} {line : List Char}
    (h : p.popLine n = some (line, q)) : ∃ inbuf, q = { p with inbuf := inbuf } := by
  unfold Player.popLine at h
  split at h
  · cases h
  · simp only [Option.some.injEq, Prod.mk.injEq] at h
    exact ⟨_, h.2.symm⟩

/-- One pending line of a client. -/
theorem commandPlayer_acts (i : Slot) {w : Server F} (hw : Inv w) :
    Acts w (commandPlayer i w) ∨
      ∃ v, Acts w v ∧ v.state.phase = .gameOver ∧ commandPlayer i w = resetMatch v := by
  unfold commandPlayer
  split
  · exact .inl (.refl w)
  rename_i hconn
  have hconn' : (w.state.players i).connected = true := by simpa using hconn
  split
  · exact .inl (.refl w)
  rename_i line p hpop
  obtain ⟨inbuf, hp⟩ := popLine_eq hpop
  have hpopped : Acts w (w.record (.popped i line) (w.state.setPlayer i p)) := by
    subst hp
    exact .single rfl (.pop hconn' hpop)
  have hconnp : ((w.record (.popped i line) (w.state.setPlayer i p)).state.players
      i).connected = true := by
    rw [System.record_state, ServerState.setPlayer_self, hp]
    exact hconn'
  rcases handleCommand_acts line (hw.along hpopped) hconnp with h | ⟨hover, h⟩
  · exact .inl (hpopped.trans h)
  · exact .inr ⟨_, hpopped, hover, h⟩

/-- The refinement for one step: actions within a match, then possibly a reset, or
`resolve_round`. -/
theorem Loop.step_acts {l : Loop F} (hl : Inv l.server) (x : Step) :
    Acts l.server (l.step x).server ∨
      (∃ v, Acts l.server v ∧ v.state.phase = .gameOver ∧ (l.step x).server = resetMatch v) ∨
      (x.inLoop = false ∧ l.server.state.phase = .roundActive ∧
        (l.step x).server = resolveRound l.server) := by
  cases x with
  | accept fd => exact .inl (acceptNewClient_acts hl)
  | read i result => exact .inl (readPlayer_acts i result hl)
  | command i =>
    rcases commandPlayer_acts i hl with h | h
    · exact .inl h
    · exact .inr (.inl h)
  | write i results => exact .inl (writePlayer_acts i results hl)
  | timers now =>
    have hpath := advanceMatchTimers_acts hl now l.lastChaseTick CHASE_TICK_SECONDS
    exact .inl (by rwa [Loop.step])
  | resolve =>
    by_cases hphase : l.server.state.phase = .roundActive
    · exact .inr (.inr ⟨rfl, hphase, if_pos hphase⟩)
    · have hskip : resolveActiveRound l.server = l.server := if_neg hphase
      exact .inl (by rw [Loop.step, hskip]; exact .refl _)

/-- The invariants hold after every step. -/
theorem Loop.step_inv {l : Loop F} (hl : Inv l.server) (x : Step) : Inv (l.step x).server := by
  rcases Loop.step_acts hl x with hpath | ⟨v, hpath, hover, hv⟩ | ⟨_, hphase, hv⟩
  · exact hl.along hpath
  · rw [hv]
    exact (hl.along hpath).along (resetMatch_runs hover)
  · rw [hv]
    exact ((Action.resolve hphase).inv hl).along (resolveRound_acts hl hphase)

/-- The clock is the same in a whole run. -/
theorem Loop.run_env {l : Loop F} (hl : Inv l.server) (steps : List Step) :
    Inv (l.run steps).server ∧ (l.run steps).server.env = l.server.env := by
  induction steps generalizing l with
  | nil => exact ⟨hl, rfl⟩
  | cons x steps ih =>
    have hstep : (l.step x).server.env = l.server.env := by
      rcases Loop.step_acts hl x with hpath | ⟨v, hpath, hover, hv⟩ | ⟨_, hphase, hv⟩
      · exact hpath.env_eq
      · rw [hv, (resetMatch_runs hover).env_eq, hpath.env_eq]
      · rw [hv]
        exact (resolveRound_acts hl hphase).env_eq
    obtain ⟨hinv, henv⟩ := ih (Loop.step_inv hl x)
    exact ⟨hinv, henv.trans hstep⟩

/-- The rule for states between steps: a property that holds at the start, along
actions within a match, after a reset and at the begin of `resolve_round` holds
after every step of every run. -/
theorem Reached.between {loopOnly : Bool} {w : Server F} (h : Reached loopOnly w)
    (P : Server F → Prop) (hinit : ∀ clock, P (Server.init clock))
    (hacts : ∀ v u, Inv v → P v → Acts v u → P u)
    (hreset : ∀ v, Inv v → P v → v.state.phase = .gameOver → P (resetMatch v))
    (hresolve : ∀ v, loopOnly = false → Inv v → P v → v.state.phase = .roundActive →
      P (v.record .resolving v.state)) : Inv w ∧ P w := by
  obtain ⟨clock, start, steps, hsteps, rfl⟩ := h
  -- The loop is entered with an arbitrary server that satisfies both properties.
  suffices hrun : ∀ l : Loop F, Inv l.server ∧ P l.server →
      Inv (l.run steps).server ∧ P (l.run steps).server from
    hrun (Loop.init clock start) ⟨Inv.init clock, hinit clock⟩
  induction steps with
  | nil => exact fun l hl => hl
  | cons x steps ih =>
    intro l hl
    refine ih (fun hloop y hy => hsteps hloop y (List.mem_cons_of_mem _ hy)) (l.step x)
      ⟨Loop.step_inv hl.1 x, ?_⟩
    rcases Loop.step_acts hl.1 x with hpath | ⟨v, hpath, hover, hv⟩ | ⟨hx, hphase, hv⟩
    · exact hacts _ _ hl.1 hl.2 hpath
    · rw [hv]
      exact hreset v (hl.1.along hpath) (hacts _ _ hl.1 hl.2 hpath) hover
    · have hloop : loopOnly = false := by
        cases loopOnly with
        | false => rfl
        | true =>
          have hin := hsteps rfl x List.mem_cons_self
          rw [hx] at hin
          cases hin
      rw [hv]
      exact hacts _ _ ((Action.resolve hphase).inv hl.1) (hresolve _ hloop hl.1 hl.2 hphase)
        (resolveRound_acts hl.1 hphase)

/-- The refinement for a whole run: a path from the start. -/
theorem Reached.path {loopOnly : Bool} {w : Server F} (h : Reached loopOnly w) :
    ∃ clock, Path Action (fun e => loopOnly = true → e.isResolving = false)
      (Server.init clock) w := by
  refine (h.between (fun w => ∃ clock, Path Action
    (fun e => loopOnly = true → e.isResolving = false) (Server.init clock) w)
    (fun clock => ⟨clock, .refl _⟩) ?_ ?_ ?_).2
  · rintro v u _ ⟨clock, hpath⟩ hacts
    exact ⟨clock, hpath.trans ((Acts.runs hacts).mono fun _ he _ => he)⟩
  · rintro v _ ⟨clock, hpath⟩ hover
    exact ⟨clock, hpath.trans ((resetMatch_runs hover).mono fun _ he _ => he)⟩
  · rintro v hloop _ ⟨clock, hpath⟩ hphase
    exact ⟨clock, hpath.tail (by simp [hloop]) (.resolve hphase)⟩

/-- The invariants hold in every run. -/
theorem Reached.inv {loopOnly : Bool} {w : Server F} (h : Reached loopOnly w) : Inv w := by
  obtain ⟨clock, hpath⟩ := h.path
  exact (Inv.init clock).along hpath

end BattleRoyale
