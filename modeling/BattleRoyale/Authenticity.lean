import BattleRoyale.Network

/-!
# Nobody speaks for somebody else

What the server keeps of a player (the name, the type, the tile, a repick) was said on the
connection of this player, by a line that the server has processed since the connection was
accepted. A slot that is used again brings nothing along, and no command of one client
fills in anything for another one. Where the clients run the program of `client_text.c`,
each of these lines is a command of the client at the other end.
-/

namespace BattleRoyale

open Recorded Framing

variable {F : Type} [CFloat F]

section Origin

/-- One of the lines selects this handler, with such an argument. -/
def Says (command : Command) (lines : List (List Char)) (P : Option (List Char) → Prop) : Prop :=
  ∃ line ∈ lines, ∃ args, selectCommand (cString line) = some (command, args) ∧ P args

omit [CFloat F] in
theorem Says.mono {command : Command} {lines more : List (List Char)}
    {P : Option (List Char) → Prop} (h : Says command lines P) (hsub : lines ⊆ more) :
    Says command more P := by
  obtain ⟨line, hline, hsaid⟩ := h
  exact ⟨line, hsub hline, hsaid⟩

/-- What the server keeps of a player is in these lines. -/
structure Spoken (lines : List (List Char)) (p : Player F) : Prop where
  /-- The name. -/
  name : p.registered = true → Says .hello lines fun args =>
    ∃ rest, args.bind (scanWord (MAX_NAME_LENGTH - 1)) = some (p.name, rest)
  /-- The type, from the lobby or from a repick. -/
  choice : p.choiceChosen = true →
    Says .choice lines (fun args => parseRpsChoiceArg args = some p.choice) ∨
      Says .repick lines fun args => parseRpsChoiceArg args = some p.choice
  /-- A place that the range test lets pass. -/
  tile : p.spawnChosen = true → Says .spawn lines fun args =>
    ∃ x y : F, args.bind scanSpawn = some (x, y) ∧ badSpawn x y = false
  /-- A repick. -/
  repick : p.repickSubmitted = true →
    Says .repick lines fun args => parseRpsChoiceArg args = some p.repickChoice

theorem Spoken.mono {lines more : List (List Char)} {p : Player F} (h : Spoken lines p)
    (hsub : lines ⊆ more) : Spoken more p where
  name hp := (h.name hp).mono hsub
  choice hp := (h.choice hp).imp (Says.mono · hsub) (Says.mono · hsub)
  tile hp := (h.tile hp).mono hsub
  repick hp := (h.repick hp).mono hsub

omit [CFloat F] in
/-- The connection in a slot, and what is kept of its player. -/
def Player.persona (p : Player F) :
    Bool × ℕ × (Bool × List Char) × (Bool × Char) × Bool × Bool × Char :=
  (p.connected, p.id, (p.registered, p.name), (p.choiceChosen, p.choice), p.spawnChosen,
    p.repickSubmitted, p.repickChoice)

/-- A connected player was connected before, by the same connection, and nothing is kept
of it that was not said before. -/
def Follows (p q : Player F) : Prop :=
  q.connected = true →
    p.connected = true ∧ q.id = p.id ∧ ∀ lines, Spoken lines p → Spoken lines q

theorem Follows.trans {p q r : Player F} (hpq : Follows p q) (hqr : Follows q r) :
    Follows p r := by
  intro hr
  obtain ⟨hq, hid, hspoken⟩ := hqr hr
  obtain ⟨hp, hid', hspoken'⟩ := hpq hq
  exact ⟨hp, hid.trans hid', fun lines h => hspoken lines (hspoken' lines h)⟩

theorem follows_of_persona {p q : Player F} (h : q.persona = p.persona) : Follows p q := by
  simp only [Player.persona, Prod.mk.injEq] at h
  obtain ⟨hconn, hid, ⟨hreg, hname⟩, ⟨hchosen, hchoice⟩, hspawn, hsubmitted, hrepick⟩ := h
  intro hq
  refine ⟨hconn ▸ hq, hid, fun lines hp => ⟨?_, ?_, ?_, ?_⟩⟩
  · rw [hreg, hname]
    exact hp.name
  · rw [hchosen, hchoice]
    exact hp.choice
  · rw [hspawn]
    exact hp.tile
  · rw [hsubmitted, hrepick]
    exact hp.repick

/-- Replacing one entry. -/
theorem follows_setPlayer {s : ServerState F} {i : Slot} {p : Player F}
    (hp : Follows (s.players i) p) (j : Slot) :
    Follows (s.players j) ((s.setPlayer i p).players j) := by
  rw [ServerState.setPlayer_players]
  split
  · rename_i hji
    rw [hji]
    exact hp
  · exact follows_of_persona rfl

/-- The start of a round forgets a repick. -/
theorem enterRound_follows (p : Player F) : Follows p p.enterRound := by
  unfold Player.enterRound
  simp only
  split <;> exact fun hconn => ⟨hconn, rfl, fun lines hp =>
    ⟨hp.name, hp.choice, hp.tile, fun h => by cases h⟩⟩

/-- A repick that was submitted becomes the type. -/
theorem applyRepick_follows {p : Player F} (h : p.isAlive = true → p.repickSubmitted = true) :
    Follows p p.applyRepick := by
  unfold Player.applyRepick
  split
  · rename_i halive
    exact fun hconn => ⟨hconn, rfl, fun lines hp =>
      ⟨hp.name, fun _ => .inr (hp.repick (h halive)), hp.tile, fun h => by cases h⟩⟩
  · exact follows_of_persona rfl

/-- An action that takes over nothing. -/
theorem Action.follows {w : Server F} {e : Event F} {s : ServerState F} (h : Action w e s)
    (he : e.isUnsaid = true) (j : Slot) : Follows (w.state.players j) (s.players j) := by
  have hsame : Follows (w.state.players j) (w.state.players j) := follows_of_persona rfl
  cases h with
  | accept => cases he
  | receive => cases he
  | pop => cases he
  | flush => cases he
  | register => cases he
  | choose => cases he
  | spawn => cases he
  | submit => cases he
  | queue hconn hline hqueue =>
    rw [Player.queueVia_eq_some hqueue]
    exact follows_setPlayer (follows_of_persona (by rfl)) j
  | drop hconn =>
    refine follows_setPlayer ?_ j
    intro h
    cases h
  | enter hphase hplayer hcount => exact follows_setPlayer (follows_of_persona (by rfl)) j
  | resetProgress hreg hphase =>
    refine follows_setPlayer ?_ j
    exact fun hconn => ⟨hconn, rfl, fun lines hp =>
      ⟨hp.name, (fun h => by cases h), (fun h => by cases h), fun h => by cases h⟩⟩
  | start hphase horder => exact enterRound_follows _
  | applyRepicks hphase hall =>
    refine applyRepick_follows fun halive => ?_
    simp only [allAliveRepicked, Bool.and_eq_true, List.all_eq_true] at hall
    simpa [halive] using hall.1 j (List.mem_finRange j)
  | enterRepick hphase hround hresolved =>
    exact fun hconn => ⟨hconn, rfl, fun lines hp =>
      ⟨hp.name, hp.choice, hp.tile, fun h => by cases h⟩⟩
  | @tick dt hphase =>
    obtain ⟨alive, x, y, hp⟩ := (simulateChaseTick_chased w.state dt).player j
    rw [hp]
    exact follows_of_persona rfl
  | @pair a b x y hphase hround hresolved =>
    exact (follows_setPlayer (follows_of_persona (by rfl)) j).trans
      (follows_setPlayer (follows_of_persona (by rfl)) j)
  | clearRound hphase hresolved => exact follows_of_persona rfl
  | refuse hqueue => exact hsame
  | openLobby hreg hphase hidle => exact hsame
  | cancel hphase hempty => exact hsame
  | closeLobby hphase hcount htime => exact hsame
  | finish hphase horder hwhy => exact hsame
  | resolve hphase => exact hsame
  | reset hphase => exact hsame

/-- Any number of them. -/
theorem Mute.follows {w v : Server F} (h : Mute w v) (j : Slot) :
    Follows (w.state.players j) (v.state.players j) :=
  h.state_invariant (fun s => Follows (w.state.players j) (s.players j))
    (fun _ _ _ he hstep hs => hs.trans (hstep.follows he j)) (follows_of_persona rfl)

/-- What is kept of every connected player was said on its connection. -/
def AllSpoken (w : Server F) : Prop :=
  ∀ i, (w.state.players i).connected = true →
    Spoken (linesOf (w.state.players i).id w.log) (w.state.players i)

/-- What a handler takes over from a line is in it. -/
theorem Heeds.spoken {i : Slot} {line : List Char} {w v : Server F} (h : Heeds i line w v)
    (j : Slot) : (v.state.players j).connected = (w.state.players j).connected ∧
      (v.state.players j).id = (w.state.players j).id ∧
      ∀ lines, (j = i → line ∈ lines) → Spoken lines (w.state.players j) →
        Spoken lines (v.state.players j) := by
  rcases h with rfl | ⟨command, args, hselect, henters⟩
  · exact ⟨rfl, rfl, fun _ _ hspoken => hspoken⟩
  have hsaid : ∀ {lines P}, line ∈ lines → P args → Says command lines P :=
    fun hline hP => ⟨line, hline, args, hselect, hP⟩
  cases henters with
  | nothing => exact ⟨rfl, rfl, fun _ _ hspoken => hspoken⟩
  | hello hname hstep =>
    rw [System.record_state, ServerState.setPlayer_players]
    split
    · rename_i hji
      subst hji
      exact ⟨rfl, rfl, fun lines hline _ => ⟨fun _ => hsaid (hline rfl) ⟨_, hname⟩,
        (fun h => by cases h), (fun h => by cases h), fun h => by cases h⟩⟩
    · exact ⟨rfl, rfl, fun _ _ hspoken => hspoken⟩
  | choice hchoice hstep =>
    rw [System.record_state, ServerState.setPlayer_players]
    split
    · rename_i hji
      subst hji
      exact ⟨rfl, rfl, fun lines hline hspoken => ⟨hspoken.name,
        fun _ => .inl (hsaid (hline rfl) hchoice), hspoken.tile, hspoken.repick⟩⟩
    · exact ⟨rfl, rfl, fun _ _ hspoken => hspoken⟩
  | spawn htile hboard hstep =>
    rw [System.record_state, ServerState.setPlayer_players]
    split
    · rename_i hji
      subst hji
      exact ⟨rfl, rfl, fun lines hline hspoken => ⟨hspoken.name, hspoken.choice,
        fun _ => hsaid (hline rfl) ⟨_, _, htile, hboard⟩, hspoken.repick⟩⟩
    · exact ⟨rfl, rfl, fun _ _ hspoken => hspoken⟩
  | repick hchoice hstep =>
    rw [System.record_state, ServerState.setPlayer_players]
    split
    · rename_i hji
      subst hji
      exact ⟨rfl, rfl, fun lines hline hspoken => ⟨hspoken.name, hspoken.choice, hspoken.tile,
        fun _ => hsaid (hline rfl) hchoice⟩⟩
    · exact ⟨rfl, rfl, fun _ _ hspoken => hspoken⟩

/-- Nothing is kept of a new connection, and the others go on. -/
theorem Step.Opens.spoken {x : Step} {w v : Server F} (h : x.Opens w v) (hw : AllSpoken w) :
    AllSpoken v := by
  -- The transport changes the buffers of a slot.
  have hbuffers : ∀ {i : Slot} {p : Player F} {e : Event F},
      p.persona = (w.state.players i).persona →
        AllSpoken (w.record e (w.state.setPlayer i p)) := by
    intro i p e hp j hconn
    have hfollows : Follows (w.state.players j) ((w.state.setPlayer i p).players j) :=
      follows_setPlayer (follows_of_persona hp) j
    obtain ⟨hold, hid, hspoken⟩ := hfollows hconn
    have hmore := (hw j hold).mono
      (List.subset_append_left _ (linePart (w.state.players j).id ⟨e, w.state.setPlayer i p⟩))
    rw [System.record_state, hid]
    exact hspoken _ hmore
  cases h with
  | idle => exact hw
  | read hconn => exact hbuffers rfl
  | command hconn hpop => exact hbuffers rfl
  | write hconn => exact hbuffers rfl
  | accept hfree =>
    rename_i i fd
    intro j hconn
    simp only [System.record_state, ServerState.setPlayer_players] at hconn ⊢
    split
    · exact ⟨(fun h => by cases h), (fun h => by cases h), (fun h => by cases h),
        fun h => by cases h⟩
    · rename_i hji
      rw [if_neg hji] at hconn
      exact (hw j hconn).mono (List.subset_append_left _ _)

/-- Every step of the loop keeps it. -/
theorem Loop.step_spoken {l : Loop F} (hl : Inv l.server) (hS : AllSpoken l.server) {x : Step}
    (hx : x.inLoop = true) : AllSpoken (l.step x).server := by
  obtain ⟨v, u, hopens, hheeds, hmute⟩ := Loop.step_heeds hl hx
  have hv := hopens.spoken hS
  intro j hconn
  obtain ⟨hu, hid, hspoken⟩ := hmute.follows j hconn
  have hlines : ∀ n, linesOf n (l.step x).server.log = linesOf n u.log :=
    fun n => (hmute.quiet.histories n).2.1
  rw [hid, hlines]
  apply hspoken
  rcases hheeds with rfl | ⟨i, line, s, hpopped, hheeds⟩
  · exact hv j hu
  obtain ⟨hconnected, hsame, htaken⟩ := hheeds.spoken j
  rw [(hheeds.quiet.histories _).2.1, hsame]
  refine htaken _ ?_ (hv j (hconnected ▸ hu))
  -- The line was processed for the connection in the slot of the handler.
  rintro rfl
  subst hpopped
  refine List.mem_append_right _ ?_
  simp [linePart]

/-- In a reached state of the loop, all connected players. -/
theorem Reached.allSpoken {w : Server F} (h : Reached true w) : AllSpoken w := by
  obtain ⟨clock, start, steps, hsteps, rfl⟩ := h
  suffices hrun : ∀ l : Loop F, Inv l.server ∧ AllSpoken l.server →
      AllSpoken (l.run steps).server from
    hrun (Loop.init clock start) ⟨Inv.init clock, fun j hj => by cases hj⟩
  have hloop := hsteps rfl
  clear hsteps
  induction steps with
  | nil => exact fun l hl => hl.2
  | cons x steps ih =>
    intro l hl
    have hx := hloop x List.mem_cons_self
    exact ih (fun y hy => hloop y (List.mem_cons_of_mem _ hy)) (l.step x)
      ⟨Loop.step_inv hl.1 x, Loop.step_spoken hl.1 hl.2 hx⟩

end Origin

section Clients

/-- A type is read as itself. -/
theorem parseRpsChoiceArg_self {c : Char} (h : IsChoice c) :
    parseRpsChoiceArg (some [c]) = some c := by
  rcases h with rfl | rfl | rfl <;> rfl

variable {S : Setting} {N : Network F}

/-- A line that the server has processed for a client of the network is a command of it. -/
theorem Says.said {n : ℕ} {commands : List ClientCommand} (hsound : ∀ command ∈ commands,
      command.Sound (S.names n)) (hname : ∀ c ∈ S.names n, WordChar c)
    {lines : List (List Char)} (hlines : lines <+: commands.map ClientCommand.text)
    {handler : Command} {P : Option (List Char) → Prop} (h : Says handler lines P) :
    ∃ command ∈ commands, command.Sound (S.names n) ∧ command.command = handler ∧
      P command.args := by
  obtain ⟨line, hline, args, hselect, hP⟩ := h
  obtain ⟨command, hcommand, rfl⟩ := List.mem_map.mp (hlines.subset hline)
  have hcommandSound := hsound command hcommand
  rw [(hcommandSound.lineOf fun c hc => (hname c hc).lineChar).2.1,
    hcommandSound.selected hname] at hselect
  simp only [Option.some.injEq, Prod.mk.injEq] at hselect
  exact ⟨command, hcommand, hcommandSound, hselect.1, hselect.2 ▸ hP⟩

/-- In every order of the steps, what the server keeps of a connected player was said by the
client at the other end of its own connection: the name in a HELLO, the type in a CHOICE or
in a REPICK, and a tile of the board in a SPAWN. -/
theorem network_authentic (hnames : ∀ n, ∀ c ∈ S.names n, WordChar c) (h : N.Reachable S)
    {i : Slot} (hconn : (N.loop.server.state.players i).connected = true) :
    ∃ commands, (N.clients (N.loop.server.state.players i).id).sent =
        ClientCommand.stream commands ∧
      ((N.loop.server.state.players i).registered = true →
        .hello (N.loop.server.state.players i).name ∈ commands) ∧
      ((N.loop.server.state.players i).choiceChosen = true →
        .choice (N.loop.server.state.players i).choice ∈ commands ∨
          .repick (N.loop.server.state.players i).choice ∈ commands) ∧
      ((N.loop.server.state.players i).spawnChosen = true →
        ∃ x y, OnGrid x y ∧ .spawn x y ∈ commands) := by
  obtain ⟨commands, hspeaks⟩ := h.delivers.speaks (N.loop.server.state.players i).id
  have hsound := hspeaks.sound
  have hname := hnames (N.loop.server.state.players i).id
  have hprefix := h.delivers.linesOf hspeaks fun c hc => (hname c hc).lineChar
  have hspoken := h.delivers.reached.allSpoken i hconn
  refine ⟨commands, hspeaks.sent, fun hregistered => ?_, fun hchosen => ?_, fun hspawned => ?_⟩
  · obtain ⟨command, hcommand, hcsound, hkind, rest, hread⟩ :=
      (hspoken.name hregistered).said hsound hname hprefix
    cases command with
    | hello name =>
      obtain ⟨hne, hlength, hchars⟩ := hcsound
      have hself := scanWord_self ⟨hne, hlength, fun c hc =>
        (hchars c hc).elim NameChar.wordChar (hname c)⟩
      rw [ClientCommand.args, Option.bind_some, hself] at hread
      obtain rfl : name = _ := congrArg Prod.fst (Option.some.inj hread)
      exact hcommand
    | _ => cases hkind
  · rcases hspoken.choice hchosen with hsaid | hsaid
    · obtain ⟨command, hcommand, hcsound, hkind, hread⟩ := hsaid.said hsound hname hprefix
      cases command with
      | choice c =>
        rw [ClientCommand.args, parseRpsChoiceArg_self hcsound] at hread
        exact .inl (Option.some.inj hread ▸ hcommand)
      | _ => cases hkind
    · obtain ⟨command, hcommand, hcsound, hkind, hread⟩ := hsaid.said hsound hname hprefix
      cases command with
      | repick c =>
        rw [ClientCommand.args, parseRpsChoiceArg_self hcsound] at hread
        exact .inr (Option.some.inj hread ▸ hcommand)
      | _ => cases hkind
  · obtain ⟨command, hcommand, hcsound, hkind, _⟩ :=
      (hspoken.tile hspawned).said hsound hname hprefix
    cases command with
    | spawn x y => exact ⟨x, y, hcsound, hcommand⟩
    | _ => cases hkind

/-- The first client has pressed Enter, and the server has processed both of its lines. -/
def hallNamed : Network Exact where
  loop := (Loop.init (fun _ => 1) 0).run
    [.accept 3, .read 0 (.data "GET_STATE\nHELLO player\n".toList), .command 0, .command 0]
  clients := Function.update (fun _ => .start plainSurroundings "player".toList .off) 1
    ((ClientProgram.start plainSurroundings "player".toList .off).frame plainSurroundings
      ⟨[], [10]⟩)

theorem hallNamed_reachable : hallNamed.Reachable hall := by
  have hstart : (⟨Loop.init hall.clock hall.start,
      fun n => .start (hall.worlds n) (hall.names n) (hall.autos n)⟩ :
        Network Exact).Reachable hall := .init
  have hpressed := hstart.client (n := 1) (f := ⟨[], [10]⟩) (by decide +kernel)
    fun _ _ => .inr rfl
  have haccepted := hpressed.server (x := .accept 3) rfl fun _ _ h => by cases h
  have hread := haccepted.server (x := .read 0 (.data "GET_STATE\nHELLO player\n".toList)) rfl <| by
    rintro i result ⟨⟩ _
    decide +kernel
  have hasked := hread.server (x := .command 0) rfl fun _ _ h => by cases h
  exact hasked.server (x := .command 0) rfl fun _ _ h => by cases h

/-- Its name in the table is the one that it has said. -/
theorem network_authentic_hall :
    (hallNamed.loop.server.state.players 0).name = "player".toList ∧
      ∃ commands, (hallNamed.clients 1).sent = ClientCommand.stream commands ∧
        .hello "player".toList ∈ commands := by
  have hnames : ∀ n, ∀ c ∈ hall.names n, WordChar c := by simp [hall, WordChar, isSpace]
  have hconn : (hallNamed.loop.server.state.players 0).connected = true := by decide +kernel
  have hregistered : (hallNamed.loop.server.state.players 0).registered = true := by
    decide +kernel
  have hid : (hallNamed.loop.server.state.players 0).id = 1 := by decide +kernel
  have hname : (hallNamed.loop.server.state.players 0).name = "player".toList := by decide +kernel
  obtain ⟨commands, hsent, hsaid, _⟩ := network_authentic hnames hallNamed_reachable hconn
  rw [hid] at hsent
  have hhello := hsaid hregistered
  rw [hname] at hhello
  exact ⟨hname, commands, hsent, hhello⟩

end Clients

end BattleRoyale
