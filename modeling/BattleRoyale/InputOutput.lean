import BattleRoyale.Sessions
import BattleRoyale.CommandWords

/-!
# What a step reads and writes

A step is made of at most one action of the transport and of what follows from it. What
follows, however deep the calls are nested, touches no receive buffer but that of a client
that is dropped, and hands nothing to a socket. So the histories of a connection change by
the first action of a step alone.
-/

namespace BattleRoyale

open Recorded Framing

variable {F : Type}

/-- The event belongs to the transport: a new connection, a read, a line, or a flush. -/
def Event.isIo : Event F → Bool
  | .accepted _ => true
  | .received .. => true
  | .popped .. => true
  | .flushed .. => true
  | _ => false

/-- The event neither belongs to the transport nor takes over what a client has said. -/
def Event.isUnsaid : Event F → Bool
  | .registered _ => false
  | .chose _ => false
  | .spawned _ => false
  | .repicked _ => false
  | e => !e.isIo

theorem Event.isUnsaid.quiet {e : Event F} (h : e.isUnsaid = true) : e.isIo = false := by
  cases e <;> first | rfl | cases h

theorem Event.isServing.mute {e : Event F} (h : e.isServing = true) : e.isUnsaid = true := by
  cases e <;> first | rfl | cases h

variable [CFloat F]

/-- Actions that do not belong to the transport, one after another. -/
abbrev Quiet (w v : Server F) : Prop := Path Action (fun e => e.isIo = false) w v

/-- Such actions, none of which takes over what a client has said. -/
abbrev Mute (w v : Server F) : Prop := Path Action (fun e => e.isUnsaid = true) w v

theorem Mute.quiet {w v : Server F} (h : Mute w v) : Quiet w v :=
  h.mono fun _ => Event.isUnsaid.quiet

omit [CFloat F] in
theorem Answers.mute : Answers (fun e : Event F => e.isUnsaid = true) where
  nested _ h := Event.isServing.mute (Event.isNested.isServing h)
  queued _ _ := rfl
  refused _ _ := rfl

theorem Serves.mute {w v : Server F} (h : Serves w v) : Mute w v :=
  h.mono fun _ => Event.isServing.mute

theorem Reacts.mute {w v : Server F} (h : Reacts w v) : Mute w v :=
  h.mono Answers.mute.nested

section Calls

/-- A lost connection. -/
theorem loseConnection_mute (i : Slot) {w : Server F} (hw : Inv w) :
    Mute w (loseConnection i w) := loseConnection_path .mute (fun _ => rfl) hw

/-- The reply of a handler to its client. -/
theorem reply_mute (line : ServerLine F) {i : Slot} {w : Server F}
    (hconn : (w.state.players i).connected = true) (hline : LineOk w i .line line) :
    Mute w (reply line i w) := Serves.mute (reply_serves line hconn hline)

/-- What a handler takes over from its client: nothing, or what it has read in the
argument. -/
inductive Command.Enters (i : Slot) (args : Option (List Char)) :
    Command → Server F → Server F → Prop
  | nothing (command : Command) (w : Server F) : Enters i args command w w
  | hello {w : Server F} {name rest : List Char}
      (hname : args.bind (scanWord (MAX_NAME_LENGTH - 1)) = some (name, rest))
      (hstep : Action w (.registered i) (w.state.setPlayer i
        { (w.state.players i).resetProgress with name := name, registered := true })) :
      Enters i args .hello w (w.record (.registered i) (w.state.setPlayer i
        { (w.state.players i).resetProgress with name := name, registered := true }))
  | choice {w : Server F} {choice : Char} (hchoice : parseRpsChoiceArg args = some choice)
      (hstep : Action w (.chose i) (w.state.setPlayer i
        { w.state.players i with choice := choice, choiceChosen := true })) :
      Enters i args .choice w (w.record (.chose i) (w.state.setPlayer i
        { w.state.players i with choice := choice, choiceChosen := true }))
  | spawn {w : Server F} {x y : F} (htile : args.bind scanSpawn = some (x, y))
      (hboard : badSpawn x y = false)
      (hstep : Action w (.spawned i) (w.state.setPlayer i
        { w.state.players i with x := x, y := y, spawnChosen := true })) :
      Enters i args .spawn w (w.record (.spawned i) (w.state.setPlayer i
        { w.state.players i with x := x, y := y, spawnChosen := true }))
  | repick {w : Server F} {choice : Char} (hchoice : parseRpsChoiceArg args = some choice)
      (hstep : Action w (.repicked i) (w.state.setPlayer i
        { w.state.players i with repickChoice := choice, repickSubmitted := true })) :
      Enters i args .repick w (w.record (.repicked i) (w.state.setPlayer i
        { w.state.players i with repickChoice := choice, repickSubmitted := true }))

theorem Command.Enters.quiet {i : Slot} {args : Option (List Char)} {command : Command}
    {w v : Server F} (h : command.Enters i args w v) : Quiet w v := by
  cases h with
  | nothing => exact .refl w
  | hello hname hstep => exact .single rfl hstep
  | choice hchoice hstep => exact .single rfl hstep
  | spawn htile hboard hstep => exact .single rfl hstep
  | repick hchoice hstep => exact .single rfl hstep

/-- HELLO. -/
theorem handleHelloCommand_enters {i : Slot} {args : Option (List Char)} {w : Server F}
    (hconn : (w.state.players i).connected = true)
    (hargs : ∀ text, args = some text → ∀ c ∈ text, c ≠ '\x00') :
    ∃ v, Command.Enters i args .hello w v ∧ Mute v (handleHelloCommand i args w) := by
  unfold handleHelloCommand
  simp only
  split
  · exact ⟨w, .nothing _ w, reply_mute _ hconn trivial⟩
  rename_i hnew
  split
  · exact ⟨w, .nothing _ w, reply_mute _ hconn trivial⟩
  rename_i name rest hname
  split
  · exact ⟨w, .nothing _ w, reply_mute _ hconn trivial⟩
  rename_i hunused
  obtain ⟨text, htext, hword⟩ := Option.bind_eq_some_iff.mp hname
  refine ⟨_, .hello hname (.register hconn (by simpa using hnew)
    (scanWord_validName (hargs text htext) hword) (by simpa using hunused)), ?_⟩
  generalize hu : w.record (.registered i) _ = u
  have hnamed : (u.state.players i).connected = true := by
    subst hu
    simpa [Player.resetProgress] using hconn
  have hwelcome := reply_mute (.welcome (u.state.players i).id) hnamed trivial
  have hgreeted := reply_connected (.welcome (u.state.players i).id) i hnamed
  have hspectating := reply_mute .spectating hgreeted trivial
  have hstatus := queueLobbyStatusForPlayer_serves (reply_connected .spectating i hgreeted)
  exact (hwelcome.trans hspectating).trans (Serves.mute hstatus)

/-- CHOICE. -/
theorem handleChoiceCommand_enters {i : Slot} {args : Option (List Char)} {w : Server F}
    (hw : Inv w) (hconn : (w.state.players i).connected = true) :
    ∃ v, Command.Enters i args .choice w v ∧ Mute v (handleChoiceCommand i args w) := by
  unfold handleChoiceCommand
  split <;> rename_i v hq
  · obtain ⟨reason, rfl⟩ := requireRegisteredNotAdmitted_false hq
    exact ⟨w, .nothing _ w, reply_mute _ hconn trivial⟩
  obtain ⟨rfl, hreg, hout⟩ := requireRegisteredNotAdmitted_true hq
  split
  · exact ⟨v, .nothing _ v, reply_mute _ hconn trivial⟩
  rename_i choice hchoice
  have hstep : Action v (.chose i) (v.state.setPlayer i
      { v.state.players i with choice := choice, choiceChosen := true }) :=
    .choose (by simp [Player.isRegistered, hconn, hreg]) hout (parseRpsChoiceArg_isChoice hchoice)
  refine ⟨_, .choice hchoice hstep, ?_⟩
  have hstored : (((v.record (.chose i) (v.state.setPlayer i
      { v.state.players i with choice := choice, choiceChosen := true })).state.players
        i).connected) = true := by simpa using hconn
  have hreply := reply_serves (.choiceOk choice) hstored trivial
  refine (Serves.mute hreply).trans
    (maybeAdmitPlayer_path .mute rfl rfl ((hstep.inv hw).along hreply) ?_)
  exact (occupantsUnseen_chose _ i _).rebuffered hreply (reply_rebuffered (.choiceOk choice) i _)

/-- SPAWN. -/
theorem handleSpawnCommand_enters {i : Slot} {args : Option (List Char)} {w : Server F}
    (hw : Inv w) (hconn : (w.state.players i).connected = true) :
    ∃ v, Command.Enters i args .spawn w v ∧ Mute v (handleSpawnCommand i args w) := by
  rcases handleSpawnCommand_cases i args w with
    ⟨reason, heq⟩ | ⟨x, y, s, rfl, ⟨_, _, htile, hboard, hfree⟩, hstep, heq⟩ <;> rw [heq]
  · exact ⟨w, .nothing _ w, reply_mute _ hconn trivial⟩
  refine ⟨_, .spawn htile hboard (hstep hconn), ?_⟩
  have hstored : (((w.record (.spawned i) (w.state.setPlayer i
      { w.state.players i with x := x, y := y, spawnChosen := true })).state.players
        i).connected) = true := by simpa using hconn
  have hreply := reply_serves (.spawnOk x y) hstored trivial
  refine (Serves.mute hreply).trans
    (maybeAdmitPlayer_path .mute rfl rfl (((hstep hconn).inv hw).along hreply) ?_)
  exact (occupantsUnseen_spawned hw hfree).rebuffered hreply
    (reply_rebuffered (.spawnOk x y) i _)

/-- REPICK. -/
theorem handleRepickCommand_enters {i : Slot} {args : Option (List Char)} {w : Server F}
    (hw : Inv w) (hconn : (w.state.players i).connected = true) :
    ∃ v, Command.Enters i args .repick w v ∧ Mute v (handleRepickCommand i args w) := by
  unfold handleRepickCommand
  simp only
  split
  · exact ⟨w, .nothing _ w, reply_mute _ hconn trivial⟩
  rename_i hphase
  split
  · exact ⟨w, .nothing _ w, reply_mute _ hconn trivial⟩
  rename_i hin
  split
  · exact ⟨w, .nothing _ w, reply_mute _ hconn trivial⟩
  rename_i hnew
  split
  · exact ⟨w, .nothing _ w, reply_mute _ hconn trivial⟩
  rename_i choice hchoice
  have halive : (w.state.players i).isAlive = true := by
    simp only [Bool.or_eq_true, Bool.not_eq_true', not_or, Bool.not_eq_false] at hin
    simp [Player.isAlive, hconn, hin.1.1, hin.1.2, hin.2]
  have hstep : Action w (.repicked i) (w.state.setPlayer i
      { w.state.players i with repickChoice := choice, repickSubmitted := true }) :=
    .submit (not_not.mp hphase) halive (by simpa using hnew) (parseRpsChoiceArg_isChoice hchoice)
  refine ⟨_, .repick hchoice hstep, ?_⟩
  have hinv := hstep.inv hw
  generalize hu : w.record (.repicked i) _ = u at hinv ⊢
  have hstored : (u.state.players i).connected = true := by
    subst hu
    simpa using hconn
  have hreply := reply_serves (.repickOk choice) hstored trivial
  refine (Serves.mute hreply).trans ?_
  split
  · rename_i hall
    refine Reacts.mute (finishRepicksWith_reacts reevaluateState_reacts (hinv.along hreply) ?_ hall)
    rw [(reply_rebuffered (.repickOk choice) i _).table]
    subst hu
    simpa using hphase
  · exact reply_mute _ (reply_connected _ _ hstored) trivial

/-- Any command: its handler takes over at most its argument, and reacts. -/
theorem Command.run_enters (command : Command) {i : Slot} {args : Option (List Char)}
    {w : Server F} (hw : Inv w) (hconn : (w.state.players i).connected = true)
    (hargs : ∀ text, args = some text → ∀ c ∈ text, c ≠ '\x00') :
    ∃ v, command.Enters i args w v ∧ Mute v (command.run i args w) := by
  cases command with
  | hello => exact handleHelloCommand_enters hconn hargs
  | getState => exact ⟨w, .nothing _ w, handleGetStateCommand_path .mute hw hconn⟩
  | choice => exact handleChoiceCommand_enters hw hconn
  | spawn => exact handleSpawnCommand_enters hw hconn
  | repick => exact handleRepickCommand_enters hw hconn
  | rematch =>
    refine ⟨w, .nothing _ w, ?_⟩
    show Mute w (handleRematchCommand i w)
    unfold handleRematchCommand
    split
    · exact reply_mute _ hconn trivial
    · rename_i hover
      exact resetMatch_path .mute rfl (fun _ => rfl) (not_not.mp hover)
  | quit => exact ⟨w, .nothing _ w, loseConnection_path .mute (fun _ => rfl) hw⟩

/-- The argument text of a command has no zero byte. -/
theorem selectCommand_args {line : List Char} {command : Command} {args : Option (List Char)}
    (h : selectCommand (cString line) = some (command, args)) :
    ∀ text, args = some text → ∀ c ∈ text, c ≠ '\x00' := by
  rintro text rfl c hc
  obtain ⟨⟨cmd, args⟩, hparse, hfound⟩ := Option.bind_eq_some_iff.mp h
  obtain ⟨_, _, hpair⟩ := Option.map_eq_some_iff.mp hfound
  obtain rfl : args = some text := congrArg Prod.snd hpair
  exact ne_of_mem_cString (parseCommand_args hparse hc)

/-- What a handler takes over from the line of its client. -/
def Heeds (i : Slot) (line : List Char) (w v : Server F) : Prop :=
  v = w ∨ ∃ (command : Command) (args : Option (List Char)),
    selectCommand (cString line) = some (command, args) ∧ command.Enters i args w v

/-- One command. -/
theorem handleCommand_heeds {i : Slot} (line : List Char) {w : Server F} (hw : Inv w)
    (hconn : (w.state.players i).connected = true) :
    ∃ v, Heeds i line w v ∧ Mute v (handleCommand i line w) := by
  rw [handleCommand_selected]
  cases hselect : selectCommand (cString line) with
  | none => exact ⟨w, .inl rfl, reply_mute _ hconn trivial⟩
  | some selected =>
    obtain ⟨command, args⟩ := selected
    obtain ⟨v, henters, hmute⟩ := command.run_enters hw hconn (selectCommand_args hselect)
    exact ⟨v, .inr ⟨command, args, hselect, henters⟩, hmute⟩

theorem Heeds.quiet {i : Slot} {line : List Char} {w v : Server F} (h : Heeds i line w v) :
    Quiet w v := by
  rcases h with rfl | ⟨_, _, _, henters⟩
  · exact .refl v
  · exact henters.quiet

theorem handleCommand_quiet {i : Slot} (line : List Char) {w : Server F} (hw : Inv w)
    (hconn : (w.state.players i).connected = true) : Quiet w (handleCommand i line w) := by
  obtain ⟨v, hheeds, hmute⟩ := handleCommand_heeds line hw hconn
  exact hheeds.quiet.trans hmute.quiet

/-- `close_lobby_if_needed`. -/
theorem closeLobbyIfNeeded_mute {w : Server F} (hw : Inv w) :
    Mute w (closeLobbyIfNeeded w) := by
  rcases closeLobbyIfNeeded_cases hw with hsame | ⟨hclose, hpath⟩
  · rw [hsame]
    exact .refl w
  · have hclosed : Mute w (closed w) := .single rfl hclose
    exact hclosed.trans (Reacts.mute hpath)

/-- `expire_unready_setup_players`. -/
theorem expireUnreadySetupPlayers_mute {w : Server F} (hw : Inv w) :
    Mute w (expireUnreadySetupPlayers w) := by
  unfold expireUnreadySetupPlayers
  split
  · exact .refl w
  rename_i hphase
  have hsetup : w.state.phase = .setup := not_not.mp hphase
  have hopen : w.state.phase ≠ .lobbyOpen := by simp [hsetup]
  split
  · exact .refl w
  split
  · exact .refl w
  simp only [foldl_expirePlayer_eq hw]
  split
  · rename_i hfew
    exact Reacts.mute (endGame_reacts hw hopen (.inl hsetup) (.inl hfew))
  · split
    · exact Reacts.mute (startActiveRound_reacts hw hopen (.inl hsetup))
    · exact .refl w

/-- `advance_match_timers`. -/
theorem advanceMatchTimers_mute {w : Server F} (hw : Inv w) (now last dt : ℚ) :
    Mute w (advanceMatchTimers now last dt w).1 := by
  have hclose := closeLobbyIfNeeded_mute hw
  have hexpire := expireUnreadySetupPlayers_mute (hw.along hclose)
  have hinv := (hw.along hclose).along hexpire
  have htimers := hclose.trans hexpire
  unfold advanceMatchTimers
  simp only
  split
  · exact htimers
  rename_i hphase
  split
  · exact htimers
  refine htimers.trans ?_
  dsimp only
  generalize hu : Recorded.System.record (expireUnreadySetupPlayers (closeLobbyIfNeeded w))
    .chaseTicked _ = u
  have htick : Mute (expireUnreadySetupPlayers (closeLobbyIfNeeded w)) u :=
    hu ▸ .single rfl (.tick (not_not.mp hphase))
  have hpos := broadcastPositions_reacts (hinv.along htick)
  have hreeval := reevaluateState_reacts _ ((hinv.along htick).along hpos)
  split
  · exact (htick.trans (Reacts.mute hpos)).trans (Reacts.mute hreeval)
  · exact htick.trans (Reacts.mute hpos)

/-- A new client that finds a slot, after it has taken it. -/
theorem acceptNewClient_mute {fd : ℤ} {i : Slot} {w : Server F} (hw : Inv w)
    (hfind : slots.find? (fun i => !(w.state.players i).connected) = some i) :
    Mute (w.record (.accepted i)
      { w.state.setPlayer i (initPlayerSlot fd w.state.nextId) with
        nextId := w.state.nextId + 1 }) (acceptNewClient fd w) := by
  unfold acceptNewClient addPlayer
  rw [hfind]
  dsimp only
  have hfree := List.find?_some hfind
  generalize hu : w.record (.accepted i)
    { w.state.setPlayer i (initPlayerSlot fd w.state.nextId) with
      nextId := w.state.nextId + 1 } = u
  have hinv : Inv u := hu ▸ (Action.accept (by simpa using hfree)).inv hw
  have hconn : (u.state.players i).connected = true := by
    subst hu
    simp [initPlayerSlot]
  have hcall : Mute u (queueTo .line .info i u).2 := queueTo_path rfl rfl hconn trivial
  have hcinv := hinv.along hcall
  refine hcall.trans ?_
  split <;> rename_i v hq <;> rw [hq] at hcinv ⊢
  · exact .refl v
  · exact dropPlayer_path .mute (fun _ => rfl) hcinv

end Calls

/-- The parts of a slot that decide whom the loop reads from. -/
def Player.intake (p : Player F) : Bool × ℤ × ℕ × List Char := (p.connected, p.fd, p.id, p.inbuf)

section Intake

omit [CFloat F] in
/-- Replacing one entry by one with the same intake. -/
theorem intake_setPlayer {s : ServerState F} {i : Slot} {p : Player F}
    (hp : p.intake = (s.players i).intake) (j : Slot) :
    ((s.setPlayer i p).players j).intake = (s.players j).intake := by
  rw [ServerState.setPlayer_players]
  split
  · rename_i hji
    rw [hp, hji]
  · rfl

/-- What follows from the transport leaves a slot's intake alone, or clears the slot. -/
theorem Action.intake {w : Server F} {e : Event F} {s : ServerState F} (h : Action w e s)
    (he : e.isIo = false) (j : Slot) :
    (s.players j).intake = (w.state.players j).intake ∨ s.players j = Player.cleared := by
  cases h with
  | accept => cases he
  | receive => cases he
  | pop => cases he
  | flush => cases he
  | queue hconn hline hqueue =>
    rw [Player.queueVia_eq_some hqueue]
    exact .inl (intake_setPlayer (by rfl) j)
  | drop hconn =>
    rw [ServerState.setPlayer_players]
    split
    · exact .inr rfl
    · exact .inl rfl
  | register hconn hnew hvalid hunused => exact .inl (intake_setPlayer (by rfl) j)
  | choose hreg hout hchoice => exact .inl (intake_setPlayer (by rfl) j)
  | spawn hreg hout hrange hfree => exact .inl (intake_setPlayer (by rfl) j)
  | submit hphase halive hnew hchoice => exact .inl (intake_setPlayer (by rfl) j)
  | enter hphase hplayer hcount => exact .inl (intake_setPlayer (by rfl) j)
  | resetProgress hreg hphase => exact .inl (intake_setPlayer (by rfl) j)
  | start hphase horder =>
    left
    simp only [startRound, Player.enterRound]
    split <;> rfl
  | applyRepicks hphase hall =>
    left
    simp only [Player.applyRepick]
    split <;> rfl
  | @tick dt hphase =>
    obtain ⟨alive, x, y, hp⟩ := (simulateChaseTick_chased w.state dt).player j
    rw [hp]
    exact .inl rfl
  | pair hphase hround hresolved =>
    exact .inl ((intake_setPlayer (by rfl) j).trans (intake_setPlayer (by rfl) j))
  | refuse | openLobby | cancel | closeLobby | finish | enterRepick | resolve | clearRound
  | reset => exact .inl rfl

/-- So does any number of such actions: a slot is as it was, or somebody was dropped. -/
theorem Quiet.intake {w v : Server F} (h : Quiet w v) (j : Slot) :
    (v.state.players j).intake = (w.state.players j).intake ∨
      ((v.state.players j).connected = false ∧ (v.state.players j).inbuf = []) := by
  refine h.state_invariant (fun s => (s.players j).intake = (w.state.players j).intake ∨
    ((s.players j).connected = false ∧ (s.players j).inbuf = [])) ?_ (.inl rfl)
  intro u e s he hstep hu
  rcases hstep.intake he j with hsame | hcleared
  · rw [hsame]
    refine hu.imp id fun hgone => ?_
    simp only [Player.intake, Prod.mk.injEq] at hsame
    rw [hsame.1, hsame.2.2.2]
    exact hgone
  · rw [hcleared]
    exact .inr ⟨rfl, rfl⟩

end Intake

/-- The histories of what went through a socket stay as they are. -/
theorem Quiet.histories {w v : Server F} (h : Quiet w v) (n : ℕ) :
    receivedBy n v.log = receivedBy n w.log ∧ linesOf n v.log = linesOf n w.log ∧
      sentTo n v.log = sentTo n w.log := by
  obtain ⟨new, hlog, hnew⟩ := h.log_eq
  rw [hlog]
  simp only [receivedBy, linesOf, sentTo, gather_append]
  have hparts : ∀ x ∈ new, receivedPart n x = [] ∧ linePart n x = [] ∧ sentPart n x = [] := by
    intro x hx
    have hquiet := hnew x hx
    obtain ⟨e, s⟩ := x
    cases e <;> first | exact ⟨rfl, rfl, rfl⟩ | cases hquiet
  rw [gather_eq_nil fun x hx => (hparts x hx).1, gather_eq_nil fun x hx => (hparts x hx).2.1,
    gather_eq_nil fun x hx => (hparts x hx).2.2]
  simp only [List.append_nil, and_self]

/-- The action of the transport that a step begins with, if it comes to one. -/
inductive Step.Opens : Step → Server F → Server F → Prop
  | idle (x : Step) (w : Server F) : Opens x w w
  | accept {w : Server F} {i : Slot} {fd : ℤ} (hfree : (w.state.players i).connected = false) :
      Opens (.accept fd) w (w.record (.accepted i)
        { w.state.setPlayer i (initPlayerSlot fd w.state.nextId) with
          nextId := w.state.nextId + 1 })
  | read {w : Server F} {i : Slot} {result : RecvResult}
      (hconn : (w.state.players i).connected = true) :
      Opens (.read i result) w (w.record (.received i result.bytes)
        (w.state.setPlayer i
          { w.state.players i with inbuf := (w.state.players i).inbuf ++ result.bytes }))
  | command {w : Server F} {i : Slot} {line inbuf : List Char}
      (hconn : (w.state.players i).connected = true)
      (hpop : (w.state.players i).popLine MAX_LINE =
        some (line, { w.state.players i with inbuf := inbuf })) :
      Opens (.command i) w (w.record (.popped i line)
        (w.state.setPlayer i { w.state.players i with inbuf := inbuf }))
  | write {w : Server F} {i : Slot} {results : List SendResult} {n : ℕ}
      (hconn : (w.state.players i).connected = true) :
      Opens (.write i results) w (w.record (.flushed i ((w.state.players i).outbuf.take n))
        (w.state.setPlayer i
          { w.state.players i with outbuf := (w.state.players i).outbuf.drop n }))

/-- It is a path of one action at most, whose event tells the step. -/
theorem Step.Opens.path {P : Event F → Prop} {x : Step} {w v : Server F} (h : x.Opens w v)
    (hP : ∀ e : Event F, e.isIo = true →
      (∀ i, e = .accepted i → ∃ fd, x = .accept fd) → P e) : Path Action P w v := by
  cases h with
  | idle => exact .refl w
  | accept hfree => exact .single (hP _ rfl fun _ _ => ⟨_, rfl⟩) (.accept hfree)
  | read hconn => exact .single (hP _ rfl fun _ h => by cases h) (.receive hconn)
  | command hconn hpop => exact .single (hP _ rfl fun _ h => by cases h) (.pop hconn hpop)
  | write hconn => exact .single (hP _ rfl fun _ h => by cases h) (.flush hconn)

/-- A step of the loop begins with its action of the transport. If it takes a line, the
handler takes over what it reads there. The step goes on without either. -/
theorem Loop.step_heeds {l : Loop F} (hl : Inv l.server) {x : Step} (hx : x.inLoop = true) :
    ∃ v u, x.Opens l.server v ∧
      (u = v ∨ ∃ i line s, v = l.server.record (.popped i line) s ∧ Heeds i line v u) ∧
      Mute u (l.step x).server := by
  have hmute : ∀ {v : Server F}, x.Opens l.server v → Mute v (l.step x).server →
      ∃ v u, x.Opens l.server v ∧
        (u = v ∨ ∃ i line s, v = l.server.record (.popped i line) s ∧ Heeds i line v u) ∧
        Mute u (l.step x).server := fun hopens hpath => ⟨_, _, hopens, .inl rfl, hpath⟩
  cases x with
  | accept fd =>
    cases hfind : slots.find? (fun i => !(l.server.state.players i).connected) with
    | none =>
      refine hmute (.idle _ _) ?_
      simp only [Loop.step, acceptNewClient, addPlayer, hfind]
      exact .refl _
    | some i =>
      have hfree := List.find?_some hfind
      exact hmute (.accept (by simpa using hfree)) (acceptNewClient_mute hl hfind)
  | read i result =>
    have hstep : (l.step (.read i result)).server = readPlayer i result l.server := rfl
    unfold readPlayer at hstep
    split at hstep
    · exact hmute (.idle _ _) (hstep ▸ .refl _)
    rename_i hconn
    dsimp only at hstep
    split at hstep
    · exact hmute (.idle _ _) (hstep ▸ loseConnection_mute i hl)
    · rename_i hrc
      rw [readIntoPlayerBuffer_eq (not_le.mp hrc)] at hstep
      exact hmute (.read (by simpa using hconn)) (hstep ▸ .refl _)
  | command i =>
    have hstep : (l.step (.command i)).server = commandPlayer i l.server := rfl
    unfold commandPlayer at hstep
    split at hstep
    · exact hmute (.idle _ _) (hstep ▸ .refl _)
    rename_i hconn
    have hconn' : (l.server.state.players i).connected = true := by simpa using hconn
    split at hstep
    · exact hmute (.idle _ _) (hstep ▸ .refl _)
    rename_i line p hpop
    obtain ⟨inbuf, rfl⟩ := popLine_eq hpop
    obtain ⟨u, hheeds, hpath⟩ := handleCommand_heeds (i := i) line
      ((Action.pop hconn' hpop).inv hl) (by simpa using hconn')
    rw [hstep]
    exact ⟨_, u, .command hconn' hpop, .inr ⟨i, line, _, rfl, hheeds⟩, hpath⟩
  | write i results =>
    have hstep : (l.step (.write i results)).server = writePlayer i results l.server := rfl
    unfold writePlayer at hstep
    split at hstep
    · exact hmute (.idle _ _) (hstep ▸ .refl _)
    rename_i hconn
    have hconn' : (l.server.state.players i).connected = true := by simpa using hconn
    dsimp only at hstep
    obtain ⟨n, hp⟩ := flushPlayerOutput_eq (l.server.state.players i) results
    rw [hp, take_sent] at hstep
    refine hmute (.write (n := n) hconn') ?_
    split at hstep
    · exact hstep ▸ loseConnection_mute i ((Action.flush hconn').inv hl)
    · exact hstep ▸ .refl _
  | timers now =>
    exact hmute (.idle _ _) (advanceMatchTimers_mute hl now l.lastChaseTick CHASE_TICK_SECONDS)
  | resolve => cases hx

/-- After the action of the transport there is no other one in the step. -/
theorem Loop.step_io {l : Loop F} (hl : Inv l.server) {x : Step} (hx : x.inLoop = true) :
    ∃ v, x.Opens l.server v ∧ Quiet v (l.step x).server := by
  obtain ⟨v, u, hopens, hheeds, hmute⟩ := Loop.step_heeds hl hx
  refine ⟨v, hopens, ?_⟩
  rcases hheeds with rfl | ⟨i, line, s, _, hheeds⟩
  · exact hmute.quiet
  · exact hheeds.quiet.trans hmute.quiet

end BattleRoyale
