import BattleRoyale.ClientProgram

/-!
# The automatic join

A client that was started with a type and a tile needs nobody at the keyboard. Its flags
remember what it has said, so that it says HELLO, CHOICE and SPAWN at most once each, and
apart from them asks for snapshots only. SPAWN does not ask for the flag of CHOICE, so it
may come first, but only if the line for CHOICE could not be sent.
-/

namespace BattleRoyale

variable {F : Type}

/-- The command is a step of a join. -/
def ClientCommand.joins : ClientCommand → Bool
  | choice _ => true
  | spawn .. => true
  | _ => false

/-- The command is HELLO. -/
def ClientCommand.greets : ClientCommand → Bool
  | hello _ => true
  | _ => false

/-- The commands of a join that the flags remember. -/
def AutoJoinConfig.said (a : AutoJoinConfig) : List ClientCommand :=
  (if a.choiceSent then [.choice a.choice] else []) ++
    if a.spawnSent then [.spawn a.spawnX a.spawnY] else []

namespace ClientProgram

/-- A request for a snapshot changes neither the automatic join nor the loop. -/
theorem requestState_flow (E : Surroundings) (p : ClientProgram F) :
    (p.requestState E).autoJoin = p.autoJoin ∧ (p.requestState E).running = p.running := by
  have hsend : (p.send E .getState).2.autoJoin = p.autoJoin ∧
      (p.send E .getState).2.running = p.running := ⟨rfl, rfl⟩
  unfold requestState
  split <;> rename_i q hq <;> rw [hq] at hsend <;> exact hsend

/-- A command does not end the loop. -/
theorem sendAndRefresh_running (E : Surroundings) (command : ClientCommand)
    (p : ClientProgram F) : (p.sendAndRefresh E command).2.running = p.running := by
  have hsend : (p.send E command).2.running = p.running := rfl
  unfold sendAndRefresh
  split <;> rename_i q hq <;> rw [hq] at hsend <;> exact hsend

/-- A command is sent if no `send` fails. -/
theorem sendAndRefresh_done {E : Surroundings} (hE : E.Reliable) {initial : List Char}
    {command : ClientCommand} (h : command.Sound initial) (p : ClientProgram F) :
    (p.sendAndRefresh E command).1 = true := by
  have hsend : (p.send E command).1 = true :=
    (sendCommandChecked_whole hE.wholeLines h.length p.attempts p.client).2.2.trans (hE _ _)
  unfold sendAndRefresh
  split <;> rename_i q hq <;> rw [hq] at hsend
  cases hsend

end ClientProgram

/-- What a client without a keyboard has said since it was started. -/
structure Unattended (E : Surroundings) (name : List Char) (auto : AutoJoinConfig)
    (commands : List ClientCommand) (p : ClientProgram F) : Prop where
  /-- The bytes sent are these commands. -/
  sent : p.sent = ClientCommand.stream commands
  /-- Nobody has quit. -/
  running : p.running = true
  /-- The name is the one from the start. -/
  nameInput : p.client.nameInput = name.take (MAX_NAME_LENGTH - 1)
  /-- Only the flags of the automatic join have changed. -/
  config : p.autoJoin = { auto with
    helloSent := p.autoJoin.helloSent
    choiceSent := p.autoJoin.choiceSent
    spawnSent := p.autoJoin.spawnSent }
  /-- The flags remember the join. -/
  joins : commands.filter ClientCommand.joins = p.autoJoin.said ∨
    commands.filter ClientCommand.joins = p.autoJoin.said.reverse
  /-- SPAWN comes after CHOICE, if no `send` fails. -/
  order : E.Reliable → commands.filter ClientCommand.joins = p.autoJoin.said ∧
    (p.autoJoin.spawnSent = true → p.autoJoin.choiceSent = true)
  /-- HELLO was said at most once. -/
  greets : commands.filter ClientCommand.greets <+: [.hello (name.take (MAX_NAME_LENGTH - 1))]
  /-- Without the flag it was not said. -/
  silent : p.autoJoin.helloSent = false → commands.filter ClientCommand.greets = []
  /-- Everything else is GET_STATE. -/
  others : ∀ command ∈ commands,
    command = .getState ∨ command.joins = true ∨ command.greets = true

namespace Unattended

variable {E : Surroundings} {name : List Char} {auto : AutoJoinConfig}
  {commands : List ClientCommand} {p : ClientProgram F}

/-- What leaves the flags and the name alone and says nothing. -/
theorem same (h : Unattended E name auto commands p) {q : ClientProgram F}
    (hsent : q.sent = p.sent) (hrunning : q.running = p.running)
    (hname : q.client.nameInput = p.client.nameInput) (hauto : q.autoJoin = p.autoJoin) :
    Unattended E name auto commands q := by
  refine ⟨hsent.trans h.sent, hrunning.trans h.running, hname.trans h.nameInput, ?_, ?_, ?_,
    h.greets, ?_, h.others⟩
  · rw [hauto]
    exact h.config
  · rw [hauto]
    exact h.joins
  · rw [hauto]
    exact h.order
  · rw [hauto]
    exact h.silent

/-- A command that could not be sent. -/
theorem failed (h : Unattended E name auto commands p) {command : ClientCommand}
    {q : ClientProgram F} (htries : ClientProgram.Tries command false p q)
    (hrunning : q.running = p.running) (hauto : q.autoJoin = p.autoJoin) :
    Unattended E name auto commands q := by
  have hsent := htries.sent
  simp only [Bool.false_eq_true, if_false, List.append_nil] at hsent
  exact h.same hsent hrunning (congrArg Prod.fst htries.inputs) hauto

/-- The client has said one more command. -/
theorem others_concat (h : Unattended E name auto commands p) {command : ClientCommand}
    (hcommand : command = .getState ∨ command.joins = true ∨ command.greets = true) :
    ∀ other ∈ commands ++ [command],
      other = .getState ∨ other.joins = true ∨ other.greets = true := by
  intro other hother
  rcases List.mem_append.mp hother with hother | hother
  · exact h.others other hother
  · rw [List.mem_singleton.mp hother]
    exact hcommand

/-- One more request for a snapshot. -/
theorem requestState (hE : E.WholeLines) (h : Unattended E name auto commands p) :
    ∃ more, Unattended E name auto (commands ++ more) (p.requestState E) := by
  obtain ⟨done, htries⟩ := ClientProgram.requestState_tries hE p
  obtain ⟨hflags, hrunning⟩ := ClientProgram.requestState_flow E p
  cases done with
  | false => exact ⟨[], by rw [List.append_nil]; exact h.failed htries hrunning hflags⟩
  | true =>
    have hjoins : (commands ++ [ClientCommand.getState]).filter ClientCommand.joins =
        commands.filter ClientCommand.joins := by simp [ClientCommand.joins]
    have hgreets : (commands ++ [ClientCommand.getState]).filter ClientCommand.greets =
        commands.filter ClientCommand.greets := by simp [ClientCommand.greets]
    refine ⟨[.getState], ?_, hrunning.trans h.running,
      (congrArg Prod.fst htries.inputs).trans h.nameInput, by rw [hflags]; exact h.config, ?_, ?_,
      hgreets ▸ h.greets, fun hflag => hgreets.trans (h.silent (hflags ▸ hflag)),
      h.others_concat (.inl rfl)⟩
    · rw [ClientProgram.stream_concat, ← h.sent]
      exact htries.sent
    · rw [hjoins, hflags]
      exact h.joins
    · rw [hjoins, hflags]
      exact h.order

/-- The flags may change. -/
theorem config_flags (h : Unattended E name auto commands p) (hello choice spawn : Bool) :
    ({ p.autoJoin with helloSent := hello, choiceSent := choice, spawnSent := spawn } :
        AutoJoinConfig) =
      { auto with helloSent := hello, choiceSent := choice, spawnSent := spawn } := by
  have hconfig := h.config
  rw [AutoJoinConfig.mk.injEq] at hconfig ⊢
  exact ⟨hconfig.1, hconfig.2.1, hconfig.2.2.1, hconfig.2.2.2.1, rfl, rfl, rfl⟩

/-- HELLO, if it is time. -/
theorem autoHello (hE : E.WholeLines) (h : Unattended E name auto commands p) :
    ∃ more, Unattended E name auto (commands ++ more) (p.autoHello E) := by
  unfold ClientProgram.autoHello
  simp only
  split
  swap
  · exact ⟨[], by rwa [List.append_nil]⟩
  rename_i hguard
  simp only [Bool.and_eq_true, Bool.not_eq_true'] at hguard
  obtain ⟨⟨_, hflag⟩, _⟩ := hguard
  have hconfig := h.config_flags true p.autoJoin.choiceSent p.autoJoin.spawnSent
  have hlength : p.client.nameInput.length < MAX_NAME_LENGTH := by
    rw [h.nameInput]
    exact (List.length_take_le _ _).trans_lt (by decide)
  -- The flag is set whether or not HELLO could be sent.
  have hunsaid : (p.hello E).sent = p.sent → (p.hello E).inputs = p.inputs →
      Unattended E name auto commands
        { p.hello E with autoJoin := { p.autoJoin with helloSent := true } } := by
    intro hsent hinputs
    exact ⟨hsent.trans h.sent, h.running, (congrArg Prod.fst hinputs).trans h.nameInput, hconfig,
      h.joins, h.order, h.greets, (fun hset => by cases hset), h.others⟩
  rcases ClientProgram.hello_tries hE hlength with ⟨hne, done, htries⟩ | ⟨hsent, hinputs⟩
  swap
  · exact ⟨[], by rw [List.append_nil]; exact hunsaid hsent hinputs⟩
  have hsent := htries.sent
  cases done with
  | false =>
    simp only [Bool.false_eq_true, if_false, List.append_nil] at hsent
    exact ⟨[], by rw [List.append_nil]; exact hunsaid hsent htries.inputs⟩
  | true =>
    have hjoins : (commands ++ [ClientCommand.hello p.client.nameInput]).filter
        ClientCommand.joins = commands.filter ClientCommand.joins := by
      simp [ClientCommand.joins]
    have hgreets : (commands ++ [ClientCommand.hello p.client.nameInput]).filter
        ClientCommand.greets = [.hello p.client.nameInput] := by
      simp [h.silent hflag, ClientCommand.greets]
    refine ⟨[.hello p.client.nameInput], ?_, h.running,
      (congrArg Prod.fst htries.inputs).trans h.nameInput, hconfig, ?_, ?_, ?_,
      (fun hset => by cases hset), h.others_concat (.inr (.inr rfl))⟩
    · rw [ClientProgram.stream_concat, ← h.sent]
      exact hsent
    · rw [hjoins]
      exact h.joins
    · rw [hjoins]
      exact h.order
    · rw [hgreets, h.nameInput]

/-- The configuration is the one from the start, so its commands may be said. -/
theorem config_sound (h : Unattended E name auto commands p)
    (hauto : IsChoice auto.choice ∧ OnGrid auto.spawnX auto.spawnY) :
    IsChoice p.autoJoin.choice ∧ OnGrid p.autoJoin.spawnX p.autoJoin.spawnY := by
  have hconfig := h.config
  rw [AutoJoinConfig.mk.injEq] at hconfig
  rw [hconfig.2.1, hconfig.2.2.1, hconfig.2.2.2.1]
  exact hauto

/-- One more step of the join. -/
theorem join (h : Unattended E name auto commands p) {command : ClientCommand}
    (hjoin : command.joins = true) {q : ClientProgram F}
    (hsent : q.sent = p.sent ++ (command.text ++ ['\n'])) (hrunning : q.running = p.running)
    (hname : q.client.nameInput = p.client.nameInput)
    (hconfig : q.autoJoin = { auto with
      helloSent := q.autoJoin.helloSent
      choiceSent := q.autoJoin.choiceSent
      spawnSent := q.autoJoin.spawnSent })
    (hhello : q.autoJoin.helloSent = p.autoJoin.helloSent)
    (hjoins : commands.filter ClientCommand.joins ++ [command] = q.autoJoin.said ∨
      commands.filter ClientCommand.joins ++ [command] = q.autoJoin.said.reverse)
    (horder : E.Reliable → commands.filter ClientCommand.joins ++ [command] = q.autoJoin.said ∧
      (q.autoJoin.spawnSent = true → q.autoJoin.choiceSent = true)) :
    Unattended E name auto (commands ++ [command]) q := by
  have hnoHello : command.greets = false := by
    cases command <;> first | rfl | cases hjoin
  have hgreets : (commands ++ [command]).filter ClientCommand.greets =
      commands.filter ClientCommand.greets := by simp [hnoHello]
  have hfilter : (commands ++ [command]).filter ClientCommand.joins =
      commands.filter ClientCommand.joins ++ [command] := by simp [hjoin]
  refine ⟨?_, hrunning.trans h.running, hname.trans h.nameInput, hconfig, ?_, ?_,
    hgreets ▸ h.greets, fun hflag => ?_, h.others_concat (.inr (.inl hjoin))⟩
  · rw [hsent, h.sent, ClientProgram.stream_concat]
  · rw [hfilter]
    exact hjoins
  · rw [hfilter]
    exact horder
  · rw [hgreets]
    exact h.silent (hhello ▸ hflag)

/-- What was said while only SPAWN can have been said. -/
theorem joins_of_choice (h : Unattended E name auto commands p)
    (hchoice : p.autoJoin.choiceSent = false) : commands.filter ClientCommand.joins =
      if p.autoJoin.spawnSent then [.spawn p.autoJoin.spawnX p.autoJoin.spawnY] else [] := by
  have hjoins := h.joins
  simp only [AutoJoinConfig.said, hchoice, Bool.false_eq_true, if_false, List.nil_append]
    at hjoins
  cases hspawn : p.autoJoin.spawnSent <;> simpa [hspawn] using hjoins

/-- What was said while only CHOICE can have been said. -/
theorem joins_of_spawn (h : Unattended E name auto commands p)
    (hspawn : p.autoJoin.spawnSent = false) : commands.filter ClientCommand.joins =
      if p.autoJoin.choiceSent then [.choice p.autoJoin.choice] else [] := by
  have hjoins := h.joins
  simp only [AutoJoinConfig.said, hspawn, Bool.false_eq_true, if_false, List.append_nil]
    at hjoins
  cases hchoice : p.autoJoin.choiceSent <;> simpa [hchoice] using hjoins

/-- CHOICE, if it was not said before. If no `send` fails, it has been said then. -/
theorem autoChoice (hE : E.WholeLines) (h : Unattended E name auto commands p)
    (hauto : IsChoice auto.choice ∧ OnGrid auto.spawnX auto.spawnY) :
    (∃ more, Unattended E name auto (commands ++ more) (p.autoChoice E)) ∧
      (E.Reliable → (p.autoChoice E).autoJoin.choiceSent = true) := by
  have hsound : (ClientCommand.choice p.autoJoin.choice).Sound [] := (h.config_sound hauto).1
  have htries := ClientProgram.sendAndRefresh_tries hE hsound p
  have hflags := ClientProgram.sendAndRefresh_autoJoin E (.choice p.autoJoin.choice) p
  have hrunning := ClientProgram.sendAndRefresh_running E (.choice p.autoJoin.choice) p
  have hdone := fun (hreliable : E.Reliable) => ClientProgram.sendAndRefresh_done hreliable hsound p
  unfold ClientProgram.autoChoice
  split
  · rename_i hsaid
    exact ⟨⟨[], by rwa [List.append_nil]⟩, fun _ => hsaid⟩
  rename_i hsaid
  have hchoice : p.autoJoin.choiceSent = false := by simpa using hsaid
  have hfilter := h.joins_of_choice hchoice
  split <;> rename_i q hq <;> rw [hq] at htries hflags hrunning hdone
  swap
  · exact ⟨⟨[], by rw [List.append_nil]; exact h.failed htries hrunning hflags⟩,
      fun hreliable => by cases hdone hreliable⟩
  refine ⟨⟨_, h.join (q := { q with autoJoin := { p.autoJoin with choiceSent := true } }) rfl
    htries.sent hrunning (congrArg Prod.fst htries.inputs)
    (h.config_flags p.autoJoin.helloSent true p.autoJoin.spawnSent) rfl ?_ ?_⟩, fun _ => rfl⟩
  · rw [hfilter]
    cases hspawn : p.autoJoin.spawnSent <;> simp [AutoJoinConfig.said, hspawn]
  · intro hreliable
    -- SPAWN has not been said either.
    have hspawn : p.autoJoin.spawnSent = false := by
      by_contra hspawn
      exact hsaid ((h.order hreliable).2 (by simpa using hspawn))
    rw [hfilter]
    simp [AutoJoinConfig.said, hspawn]

/-- SPAWN, if the server has confirmed the type and it was not said before. -/
theorem autoSpawn (hE : E.WholeLines) (h : Unattended E name auto commands p)
    (hauto : IsChoice auto.choice ∧ OnGrid auto.spawnX auto.spawnY)
    (hchoice : E.Reliable → p.autoJoin.choiceSent = true) :
    ∃ more, Unattended E name auto (commands ++ more) (p.autoSpawn E) := by
  have hsound : (ClientCommand.spawn p.autoJoin.spawnX p.autoJoin.spawnY).Sound [] :=
    (h.config_sound hauto).2
  have htries := ClientProgram.sendAndRefresh_tries hE hsound p
  have hflags := ClientProgram.sendAndRefresh_autoJoin E
    (.spawn p.autoJoin.spawnX p.autoJoin.spawnY) p
  have hrunning := ClientProgram.sendAndRefresh_running E
    (.spawn p.autoJoin.spawnX p.autoJoin.spawnY) p
  unfold ClientProgram.autoSpawn
  split
  swap
  · exact ⟨[], by rwa [List.append_nil]⟩
  rename_i hguard
  rw [Bool.and_eq_true, Bool.not_eq_true'] at hguard
  have hfilter := h.joins_of_spawn hguard.2
  have hsaid : commands.filter ClientCommand.joins ++
      [.spawn p.autoJoin.spawnX p.autoJoin.spawnY] =
        ({ p.autoJoin with spawnSent := true } : AutoJoinConfig).said := by
    rw [hfilter]
    rfl
  split <;> rename_i q hq <;> rw [hq] at htries hflags hrunning
  swap
  · exact ⟨[], by rw [List.append_nil]; exact h.failed htries hrunning hflags⟩
  exact ⟨_, h.join (q := { q with autoJoin := { p.autoJoin with spawnSent := true } }) rfl
    htries.sent hrunning (congrArg Prod.fst htries.inputs)
    (h.config_flags p.autoJoin.helloSent p.autoJoin.choiceSent true) rfl (.inl hsaid)
    fun hreliable => ⟨hsaid, fun _ => hchoice hreliable⟩⟩

/-- The automatic join of one frame. -/
theorem autoJoinFrame (hE : E.WholeLines) (h : Unattended E name auto commands p)
    (hauto : IsChoice auto.choice ∧ OnGrid auto.spawnX auto.spawnY) :
    ∃ more, Unattended E name auto (commands ++ more) (p.autoJoinFrame E) := by
  unfold ClientProgram.autoJoinFrame
  split
  · exact ⟨[], by rwa [List.append_nil]⟩
  obtain ⟨first, hfirst⟩ := h.autoHello hE
  simp only
  split
  · obtain ⟨⟨second, hsecond⟩, hchoice⟩ := hfirst.autoChoice hE hauto
    obtain ⟨third, hthird⟩ := hsecond.autoSpawn hE hauto hchoice
    exact ⟨first ++ second ++ third, by simpa only [List.append_assoc] using hthird⟩
  · exact ⟨first, hfirst⟩

variable [CFloat F]

/-- The lines of one read. -/
theorem hearLines (clock : ℕ → ℚ) (passes : ℕ) (h : Unattended E name auto commands p) :
    Unattended E name auto commands (p.hearLines clock passes) := by
  induction passes generalizing p with
  | zero => exact h
  | succ passes ih =>
    rw [ClientProgram.hearLines]
    split
    · exact h
    · exact ih (h.same rfl rfl rfl rfl)

/-- The network of a frame. -/
theorem pump (clock : ℕ → ℚ) (results : List RecvResult)
    (h : Unattended E name auto commands p) :
    Unattended E name auto commands (p.pump clock results) := by
  induction results generalizing p with
  | nil => exact h
  | cons result results ih =>
    rw [ClientProgram.pump]
    simp only
    split
    · exact h.same rfl rfl rfl rfl
    · refine ih (hearLines clock _ ?_)
      exact h.same rfl rfl rfl rfl

/-- A frame without a key. -/
theorem frame (hE : E.WholeLines) (h : Unattended E name auto commands p)
    (hauto : IsChoice auto.choice ∧ OnGrid auto.spawnX auto.spawnY) {f : Frame}
    (hkeys : f.keys = []) :
    ∃ more, Unattended E name auto (commands ++ more) (p.frame E f) := by
  obtain ⟨first, hfirst⟩ := (h.pump E.clock f.received).autoJoinFrame hE hauto
  have hrequest : ∃ more, Unattended E name auto (commands ++ more)
      (((p.pump E.clock f.received).autoJoinFrame E).requestFrame E) := by
    unfold ClientProgram.requestFrame
    split
    · obtain ⟨second, hsecond⟩ := hfirst.requestState hE
      exact ⟨first ++ second, by rwa [← List.append_assoc]⟩
    · exact ⟨first, hfirst⟩
  obtain ⟨more, hmore⟩ := hrequest
  unfold ClientProgram.frame
  rw [h.running, hkeys]
  simp only [Bool.not_true, Bool.false_eq_true, if_false, ClientProgram.pressAll, hmore.running,
    if_true]
  exact ⟨more, hmore⟩

/-- Frames without a key. -/
theorem run (hE : E.WholeLines) (h : Unattended E name auto commands p)
    (hauto : IsChoice auto.choice ∧ OnGrid auto.spawnX auto.spawnY) {frames : List Frame}
    (hkeys : ∀ f ∈ frames, f.keys = []) :
    ∃ more, Unattended E name auto (commands ++ more) (p.run E frames) := by
  induction frames generalizing p commands with
  | nil => exact ⟨[], by rwa [List.append_nil]⟩
  | cons f frames ih =>
    obtain ⟨hf, hfs⟩ := List.forall_mem_cons.mp hkeys
    obtain ⟨first, hfirst⟩ := h.frame hE hauto hf
    obtain ⟨rest, hrest⟩ := ih hfirst hfs
    exact ⟨first ++ rest, by rwa [← List.append_assoc]⟩

end Unattended

/-- A client that joins on its own and that nobody touches says HELLO at most once, with the
name it was started with, CHOICE at most once and SPAWN at most once, with the type and the
tile from its command line, and apart from that only GET_STATE, whatever the server sends,
whatever lines cannot be sent and however long it runs. If no `send` fails, CHOICE comes
before SPAWN. -/
theorem automatic_join [CFloat F] {E : Surroundings} (hE : E.WholeLines)
    {args : List (List Char)} {name : List Char} {auto : AutoJoinConfig}
    (hargs : parseArguments args = some (name, auto)) (hon : auto.enabled = true)
    (frames : List Frame) (hkeys : ∀ f ∈ frames, f.keys = []) :
    ∃ commands : List ClientCommand,
      ((ClientProgram.start E name auto : ClientProgram F).run E frames).sent =
          ClientCommand.stream commands ∧
        commands.filter ClientCommand.greets <+: [.hello (name.take (MAX_NAME_LENGTH - 1))] ∧
        (commands.filter ClientCommand.joins <+:
            [.choice auto.choice, .spawn auto.spawnX auto.spawnY] ∨
          commands.filter ClientCommand.joins <+:
            [.spawn auto.spawnX auto.spawnY, .choice auto.choice]) ∧
        (E.Reliable → commands.filter ClientCommand.joins <+:
          [.choice auto.choice, .spawn auto.spawnX auto.spawnY]) ∧
        ∀ command ∈ commands,
          command = .getState ∨ command.joins = true ∨ command.greets = true := by
  have hauto := parseArguments_auto hargs hon
  have hflags : auto.helloSent = false ∧ auto.choiceSent = false ∧ auto.spawnSent = false :=
    parseArguments_flags hargs
  have hconnected : Unattended E name auto []
      (ClientProgram.connected name auto : ClientProgram F) := by
    have hsaid : [] = auto.said := by simp [AutoJoinConfig.said, hflags]
    refine ⟨rfl, rfl, rfl, rfl, .inl hsaid, fun _ => ⟨hsaid, ?_⟩, List.nil_prefix, fun _ => rfl,
      fun _ h => absurd h List.not_mem_nil⟩
    show auto.spawnSent = true → _
    simp [hflags]
  obtain ⟨first, hstart⟩ := hconnected.requestState hE
  obtain ⟨more, hmore⟩ := hstart.run hE hauto hkeys
  change Unattended E name auto _ ((ClientProgram.start E name auto).run E frames) at hmore
  generalize (ClientProgram.start E name auto : ClientProgram F).run E frames = p at hmore ⊢
  have hconfig := hmore.config
  rw [AutoJoinConfig.mk.injEq] at hconfig
  have hjoins := hmore.joins
  have horder := hmore.order
  simp only [AutoJoinConfig.said, hconfig.2.1, hconfig.2.2.1, hconfig.2.2.2.1] at hjoins horder
  refine ⟨_, hmore.sent, hmore.greets, ?_, fun hreliable => ?_, hmore.others⟩
  · cases hchoice : p.autoJoin.choiceSent <;> cases hspawn : p.autoJoin.spawnSent <;>
      simp only [hchoice, hspawn] at hjoins <;> rcases hjoins with hjoins | hjoins <;>
        rw [hjoins] <;> simp
  · obtain ⟨hsaid, hafter⟩ := horder hreliable
    rw [hsaid]
    cases hchoice : p.autoJoin.choiceSent with
    | false =>
      have hspawn : p.autoJoin.spawnSent = false := by
        by_contra hspawn
        rw [hchoice] at hafter
        cases hafter (by simpa using hspawn)
      simp [hspawn]
    | true => cases p.autoJoin.spawnSent <;> simp

/-- A client whose fourth line cannot be sent. -/
def fourthFails : Surroundings where
  clock _ := 0
  sends k bytes := if k = 3 then [.failed] else [.accepted bytes.length]
  alnum _ := false

theorem fourthFails_wholeLines : fourthFails.WholeLines := by
  intro k bytes hfail
  cases bytes with
  | nil => simp [sendAll]
  | cons c bytes =>
    by_cases hk : k = 3
    · simp [fourthFails, hk, sendAll]
    · simp [fourthFails, hk, sendAll] at hfail

/-- The line for CHOICE cannot be sent at first, and the server confirms a type all the same:
SPAWN comes first. -/
theorem automatic_join_failing :
    (∃ commands : List ClientCommand,
      ((ClientProgram.start fourthFails "A".toList ⟨true, 'R', 1, 2, false, false, false⟩ :
          ClientProgram Exact).run fourthFails
        [⟨[], []⟩, ⟨[.data "WELCOME 1\nLOBBY_WAITING\nCHOICE_OK R\n".toList], []⟩,
          ⟨[], []⟩]).sent = ClientCommand.stream commands ∧
      (commands.filter ClientCommand.joins <+: [.choice 'R', .spawn 1 2] ∨
        commands.filter ClientCommand.joins <+: [.spawn 1 2, .choice 'R'])) ∧
    ((ClientProgram.start fourthFails "A".toList ⟨true, 'R', 1, 2, false, false, false⟩ :
          ClientProgram Exact).run fourthFails
        [⟨[], []⟩, ⟨[.data "WELCOME 1\nLOBBY_WAITING\nCHOICE_OK R\n".toList], []⟩,
          ⟨[], []⟩]).sent =
      "GET_STATE\nHELLO A\nGET_STATE\nSPAWN 1 2\nGET_STATE\nCHOICE R\nGET_STATE\n".toList := by
  have hargs : parseArguments ["A".toList, "r".toList, "1".toList, "2".toList] =
      some ("A".toList, ⟨true, 'R', 1, 2, false, false, false⟩) := rfl
  obtain ⟨commands, hsent, _, hjoins, _⟩ := automatic_join (F := Exact) fourthFails_wholeLines
    hargs rfl [⟨[], []⟩, ⟨[.data "WELCOME 1\nLOBBY_WAITING\nCHOICE_OK R\n".toList], []⟩,
      ⟨[], []⟩] (by simp)
  exact ⟨⟨commands, hsent, hjoins⟩, by decide +kernel⟩

end BattleRoyale
