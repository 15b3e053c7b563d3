import BattleRoyale.Binary32
import BattleRoyale.Elimination
import BattleRoyale.Sessions
import BattleRoyale.Rematch

/-!
# Spawn positions are numbers

The range check of SPAWN rejects what is below zero or beyond the board. A coordinate that
is no number is neither, so it passes. While no client of an open lobby spells one, every
spawn position of the lobby is a number on the board.
-/

namespace BattleRoyale

open Recorded

section Chosen

variable {F : Type}

/-- Only registered players have a spawn position. -/
def ChosenByRegistered (s : ServerState F) : Prop :=
  ∀ i, (s.players i).isRegistered = false → (s.players i).spawnChosen = false

theorem ChosenByRegistered.setPlayer {s : ServerState F} (h : ChosenByRegistered s) {i : Slot}
    {p : Player F} (hp : p.isRegistered = false → p.spawnChosen = false) :
    ChosenByRegistered (s.setPlayer i p) := by
  intro j hj
  by_cases hij : j = i
  · subst hij
    rw [ServerState.setPlayer_self] at hj ⊢
    exact hp hj
  · rw [ServerState.setPlayer_of_ne _ _ hij] at hj ⊢
    exact h j hj

theorem ChosenByRegistered.of_kept {s t : ServerState F} (h : ChosenByRegistered s)
    (hkept : ∀ i, (t.players i).isRegistered = (s.players i).isRegistered ∧
      (t.players i).spawnChosen = (s.players i).spawnChosen) : ChosenByRegistered t := by
  intro i hi
  rw [(hkept i).2]
  exact h i ((hkept i).1 ▸ hi)

/-- The start of a round keeps who is registered and who has a spawn position. -/
theorem Player.enterRound_kept (p : Player F) :
    p.enterRound.isRegistered = p.isRegistered ∧ p.enterRound.spawnChosen = p.spawnChosen := by
  simp only [Player.enterRound]
  split <;> exact ⟨rfl, rfl⟩

variable [CFloat F]

/-- Every action keeps it. -/
theorem Action.chosenByRegistered {w : Server F} {e : Event F} {s : ServerState F}
    (h : Action w e s) (hw : ChosenByRegistered w.state) : ChosenByRegistered s := by
  cases h with
  | @accept i fd hfree =>
    have hset : ChosenByRegistered (w.state.setPlayer i (initPlayerSlot fd w.state.nextId)) :=
      hw.setPlayer fun _ => rfl
    exact hset
  | @receive i bytes hconn => exact hw.setPlayer (hw i)
  | @pop i line inbuf hconn hpop => exact hw.setPlayer (hw i)
  | @flush i n hconn => exact hw.setPlayer (hw i)
  | @queue i via line p hconn hline hqueue =>
    rw [Player.queueVia_eq_some hqueue]
    exact hw.setPlayer (hw i)
  | drop hconn => exact hw.setPlayer fun _ => rfl
  | register hconn hnew hvalid hunused => exact hw.setPlayer fun _ => rfl
  | @choose i choice hreg hout hchoice => exact hw.setPlayer (hw i)
  | spawn hreg hout hrange hfree =>
    exact hw.setPlayer fun hno => absurd (hreg.symm.trans hno) (by decide)
  | @submit i choice hphase halive hnew hchoice => exact hw.setPlayer (hw i)
  | @enter i hphase hplayer hcount => exact hw.setPlayer (hw i)
  | start hphase horder => exact hw.of_kept fun i => Player.enterRound_kept _
  | applyRepicks hphase hall =>
    refine hw.of_kept fun i => ?_
    show (w.state.players i).applyRepick.isRegistered = _ ∧
      (w.state.players i).applyRepick.spawnChosen = _
    simp only [Player.applyRepick]
    split <;> exact ⟨rfl, rfl⟩
  | enterRepick hphase hround hresolved => exact hw.of_kept fun i => ⟨rfl, rfl⟩
  | @tick dt hphase =>
    refine hw.of_kept fun i => ?_
    obtain ⟨alive, x, y, hp⟩ := (simulateChaseTick_chased w.state dt).player i
    rw [hp]
    exact ⟨rfl, rfl⟩
  | @pair a b x y hphase hround hresolved =>
    have ha : ChosenByRegistered
        (w.state.setPlayer a { w.state.players a with x := x, y := y }) := hw.setPlayer (hw a)
    exact ha.setPlayer (ha b)
  | clearRound hphase hresolved => exact hw.of_kept fun i => ⟨rfl, rfl⟩
  | resetProgress hreg hphase => exact hw.setPlayer fun _ => rfl
  | _ => exact hw

/-- The reset takes the spawn positions away. -/
theorem resetMatch_spawnChosen {w : Server F} (hphase : w.state.phase = .gameOver)
    (hw : ChosenByRegistered w.state) (j : Slot) :
    ((resetMatch w).state.players j).spawnChosen = false := by
  have hloop : ∀ (is : List Slot) (v : Server F), ChosenByRegistered v.state →
      v.state.phase = .lobbyOpen ∧ v.state.joinDeadline = 0 →
      (j ∈ is ∨ (v.state.players j).spawnChosen = false) →
      ((is.foldl resetPlayer v).state.players j).spawnChosen = false := by
    intro is
    induction is with
    | nil => exact fun v _ _ h => h.resolve_left List.not_mem_nil
    | cons i is ih =>
      intro v hv hidle hj
      have hany : Answers (fun _ : Event F => True) :=
        ⟨fun _ _ => trivial, fun _ _ => trivial, fun _ _ => trivial⟩
      obtain ⟨hpath, hnext⟩ := resetPlayer_path hany (i := i) trivial hidle
      have hkept : ChosenByRegistered (resetPlayer v i).state :=
        hpath.state_invariant ChosenByRegistered (fun _ _ _ _ h => h.chosenByRegistered) hv
      obtain ⟨hother, hself⟩ := resetPlayer_renewed v i
      refine ih _ hkept hnext ?_
      by_cases hij : j = i
      · subst hij
        right
        cases hreg : (v.state.players j).isRegistered with
        | false =>
          rw [resetPlayer, if_neg (by simp [hreg])]
          exact hv j hreg
        | true =>
          -- the client is renewed, or its slot was cleared
          cases hconn : ((resetPlayer v j).state.players j).connected with
          | true => exact congrArg Player.spawnChosen (hself (.inl hreg) hconn).1
          | false => exact hkept j (by simp [Player.isRegistered, hconn])
      · have hsame : ((resetPlayer v i).state.players j).spawnChosen =
            (v.state.players j).spawnChosen := by
          have hfields := congrArg Player.spawnChosen (hother j hij)
          exact hfields
        rw [hsame]
        exact hj.imp_left fun hmem => (List.mem_cons.mp hmem).resolve_left hij
  have hreset := Action.chosenByRegistered (.reset hphase) hw
  unfold resetMatch
  generalize hv : w.record .matchReset
    { w.state with
      phase := .lobbyOpen
      joinDeadline := 0
      setupDeadline := 0
      roundDeadline := 0
      roundNo := 0 } = v
  have hopened : v.state.phase = .lobbyOpen ∧ v.state.joinDeadline = 0 := by
    subst hv
    exact ⟨rfl, rfl⟩
  have hkept : ChosenByRegistered v.state := by
    subst hv
    exact hreset
  exact hloop slots v hkept hopened (.inl (mem_slots j))

end Chosen

section Numbers

/-- Spawn positions are numbers on the board. -/
def SpawnsOnBoard (s : ServerState Binary32) : Prop :=
  ∀ i, (s.players i).spawnChosen = true →
    (s.players i).x.Within GRID_W ∧ (s.players i).y.Within GRID_H

/-- In an open lobby spawn positions are numbers on the board. -/
def LobbyOnBoard (s : ServerState Binary32) : Prop := s.phase = .lobbyOpen → SpawnsOnBoard s

/-- The coordinates that a line asks for with SPAWN. -/
def spawnRequest (line : List Char) : Option (Binary32 × Binary32) :=
  match parseCommand (cString line) 16 with
  | some (cmd, some args) => if cmd = "SPAWN".toList then scanSpawn args else none
  | _ => none

/-- The line is a SPAWN that an open lobby accepts from the client of slot `i`, and spells a
coordinate that is no number. -/
def acceptsNan (s : ServerState Binary32) (i : Slot) (line : List Char) : Bool :=
  match spawnRequest line with
  | none => false
  | some (x, y) =>
    decide (s.phase = .lobbyOpen) && (s.players i).registered && !(s.players i).admitted &&
      !badSpawn x y && !spawnTaken s (CFloat.toInt x) (CFloat.toInt y) i &&
      (x == .nan || y == .nan)

/-- The entry is the arrival of such a line. -/
def isAcceptedNan (e : Entry (ServerState Binary32) (Event Binary32)) : Bool :=
  match e.event with
  | .popped i line => acceptsNan e.state i line
  | _ => false

/-- No line was accepted that spells such a coordinate. -/
def NansRefused (log : Log Binary32) : Prop := ∀ e ∈ log, isAcceptedNan e = false

/-- The event accepts no SPAWN and neither resets the match nor resolves a round. -/
def Event.isSpawnless {F : Type} (e : Event F) : Bool := e.inMatch && e.spawner.isNone

theorem Event.isServing.isSpawnless {F : Type} {e : Event F} (h : e.isServing = true) :
    e.isSpawnless = true := by
  cases e <;> first | rfl | cases h

theorem Answers.spawnless {F : Type} : Answers (fun e : Event F => e.isSpawnless = true) where
  nested _ h := Event.isServing.isSpawnless (Event.isNested.isServing h)
  queued _ _ := rfl
  refused _ _ := rfl

theorem SpawnsOnBoard.setPlayer {s : ServerState Binary32} (h : SpawnsOnBoard s) {i : Slot}
    {p : Player Binary32}
    (hp : p.spawnChosen = true → p.x.Within GRID_W ∧ p.y.Within GRID_H) :
    SpawnsOnBoard (s.setPlayer i p) := by
  intro j hj
  by_cases hij : j = i
  · subst hij
    rw [ServerState.setPlayer_self] at hj ⊢
    exact hp hj
  · rw [ServerState.setPlayer_of_ne _ _ hij] at hj ⊢
    exact h j hj

/-- Actions that accept no SPAWN keep the positions in an open lobby. -/
theorem Action.lobbyOnBoard {w : Server Binary32} {e : Event Binary32} {s : ServerState Binary32}
    (h : Action w e s) (he : e.isSpawnless = true) (hw : LobbyOnBoard w.state) :
    LobbyOnBoard s := by
  by_cases hopen : w.state.phase = .lobbyOpen
  swap
  · have hreset : e.isReset = false := by cases e <;> first | rfl | cases he
    exact fun hs => absurd hs (h.stays_closed hopen hreset)
  have hboard := hw hopen
  cases h with
  | @accept i fd hfree =>
    have hset : SpawnsOnBoard (w.state.setPlayer i (initPlayerSlot fd w.state.nextId)) :=
      hboard.setPlayer nofun
    exact fun _ => hset
  | @receive i bytes hconn => exact fun _ => hboard.setPlayer (hboard i)
  | @pop i line inbuf hconn hpop => exact fun _ => hboard.setPlayer (hboard i)
  | @flush i n hconn => exact fun _ => hboard.setPlayer (hboard i)
  | @queue i via line p hconn hline hqueue =>
    rw [Player.queueVia_eq_some hqueue]
    exact fun _ => hboard.setPlayer (hboard i)
  | refuse hqueue => exact hw
  | drop hconn => exact fun _ => hboard.setPlayer nofun
  | register hconn hnew hvalid hunused => exact fun _ => hboard.setPlayer nofun
  | @choose i choice hreg hout hchoice => exact fun _ => hboard.setPlayer (hboard i)
  | @openLobby i hreg hphase hidle => exact fun _ => hboard
  | @enter i hphase hplayer hcount => exact fun _ => hboard.setPlayer (hboard i)
  | cancel hphase hempty => exact fun _ => hboard
  | spawn hreg hout hrange hfree => cases he
  | submit hphase halive hnew hchoice => exact absurd (hphase.symm.trans hopen) (by decide)
  | closeLobby hphase hcount htime => exact nofun
  | start hphase horder => exact absurd hopen hphase
  | finish hphase horder hwhy => exact nofun
  | applyRepicks hphase hall => exact absurd (hphase.symm.trans hopen) (by decide)
  | enterRepick hphase hround hresolved => exact nofun
  | tick hphase => exact absurd (hphase.symm.trans hopen) (by decide)
  | resolve hphase => cases he
  | pair hphase hround hresolved => exact absurd hopen hphase
  | clearRound hphase hresolved => exact absurd hopen hphase
  | reset hphase => cases he
  | resetProgress hreg hphase => cases he

theorem LobbyOnBoard.along {w v : Server Binary32}
    (hpath : Path Action (fun e => e.isSpawnless = true) w v) (h : LobbyOnBoard w.state) :
    LobbyOnBoard v.state :=
  hpath.state_invariant LobbyOnBoard (fun _ _ _ he hstep => hstep.lobbyOnBoard he) h

/-- Serving a client accepts no SPAWN. -/
theorem LobbyOnBoard.serves {w v : Server Binary32} (hpath : Serves w v)
    (h : LobbyOnBoard w.state) : LobbyOnBoard v.state :=
  h.along (hpath.mono fun _ => Event.isServing.isSpawnless)

/-- A closed lobby stays closed within a match. -/
theorem LobbyOnBoard.of_closed {w v : Server Binary32} (hpath : Acts w v)
    (hclosed : w.state.phase ≠ .lobbyOpen) : LobbyOnBoard v.state := by
  have hstays : v.state.phase ≠ .lobbyOpen :=
    hpath.state_invariant (fun s => s.phase ≠ .lobbyOpen)
      (fun _ e _ he hstep hw => hstep.stays_closed hw (by cases e <;> first | rfl | cases he))
      hclosed
  exact fun hopen => absurd hopen hstays

/-- SPAWN without such a coordinate. -/
theorem handleSpawnCommand_onBoard {i : Slot} {args : Option (List Char)} {w : Server Binary32}
    (hw : Inv w) (hconn : (w.state.players i).connected = true)
    (hnan : (w.state.players i).registered = true → (w.state.players i).admitted = false →
      ∀ text (x y : Binary32), args = some text → scanSpawn text = some (x, y) →
      badSpawn x y = false → spawnTaken w.state (CFloat.toInt x) (CFloat.toInt y) i = false →
      ¬(x = .nan ∨ y = .nan))
    (h : LobbyOnBoard w.state) : LobbyOnBoard (handleSpawnCommand i args w).state := by
  rcases handleSpawnCommand_cases i args w with
    ⟨reason, heq⟩ | ⟨x, y, s, hs, ⟨hreg, hout, hparse, hrange, hfree⟩, hstep, heq⟩ <;> rw [heq]
  · exact h.serves (reply_serves _ hconn trivial)
  obtain ⟨text, htext, hscan⟩ := Option.bind_eq_some_iff.mp hparse
  obtain ⟨hx, hy⟩ := not_or.mp (hnan hreg hout text x y htext hscan hrange hfree)
  simp only [badSpawn, Bool.or_eq_false_iff] at hrange
  obtain ⟨⟨⟨hxlow, hxhigh⟩, hylow⟩, hyhigh⟩ := hrange
  have hside : Binary32.round ((10 : ℤ) : ℚ) = .finite ((10 : ℤ) : ℚ) := by decide +kernel
  have hspawned : LobbyOnBoard s := by
    subst hs
    exact fun hopen => (h hopen).setPlayer fun _ =>
      ⟨Binary32.within_of_not_lt hside hxlow hxhigh hx,
        Binary32.within_of_not_lt hside hylow hyhigh hy⟩
  have hstored : ((w.record (.spawned i) s).state.players i).connected = true := by
    simpa [hs] using hconn
  have hinv := (hstep hconn).inv hw
  have hreply := reply_serves (.spawnOk x y) hstored trivial
  have htold : LobbyOnBoard (reply (.spawnOk x y) i (w.record (.spawned i) s)).state :=
    LobbyOnBoard.serves hreply hspawned
  refine htold.along (maybeAdmitPlayer_path .spawnless rfl rfl (hinv.along hreply) ?_)
  subst hs
  exact (occupantsUnseen_spawned hw hfree).rebuffered hreply
    (reply_rebuffered (.spawnOk x y) i _)

/-- CHOICE accepts no SPAWN. -/
theorem handleChoiceCommand_onBoard {i : Slot} {args : Option (List Char)} {w : Server Binary32}
    (hw : Inv w) (hconn : (w.state.players i).connected = true)
    (h : LobbyOnBoard w.state) : LobbyOnBoard (handleChoiceCommand i args w).state := by
  rcases handleChoiceCommand_cases i args w with ⟨reason, heq⟩ | ⟨choice, s, hs, hstep, heq⟩ <;>
    rw [heq]
  · exact h.serves (reply_serves _ hconn trivial)
  have hchosen : LobbyOnBoard s := (hstep hconn).lobbyOnBoard rfl h
  have hstored : ((w.record (.chose i) s).state.players i).connected = true := by
    simpa [hs] using hconn
  have hinv := (hstep hconn).inv hw
  have hreply := reply_serves (.choiceOk choice) hstored trivial
  have htold : LobbyOnBoard (reply (.choiceOk choice) i (w.record (.chose i) s)).state :=
    LobbyOnBoard.serves hreply hchosen
  refine htold.along (maybeAdmitPlayer_path .spawnless rfl rfl (hinv.along hreply) ?_)
  exact (occupantsUnseen_chose _ i _).rebuffered hreply (reply_rebuffered (.choiceOk choice) i _)

/-- HELLO accepts no SPAWN. -/
theorem handleHelloCommand_onBoard {i : Slot} {args : Option (List Char)} {w : Server Binary32}
    (hconn : (w.state.players i).connected = true)
    (h : LobbyOnBoard w.state) : LobbyOnBoard (handleHelloCommand i args w).state := by
  rcases handleHelloCommand_cases i args w with ⟨reason, heq⟩ | ⟨name, s, hs, _, heq⟩ <;> rw [heq]
  · exact h.serves (reply_serves _ hconn trivial)
  have hregistered : LobbyOnBoard s := by
    subst hs
    exact fun hopen => (h hopen).setPlayer nofun
  have hnamed : ((w.record (.registered i) s).state.players i).connected = true := by
    simpa [hs, Player.resetProgress] using hconn
  have hwelcome := reply_serves (.welcome (s.players i).id) hnamed trivial
  have hgreeted := reply_connected (.welcome (s.players i).id) i hnamed
  have hspectating := reply_serves .spectating hgreeted trivial
  have hstatus := queueLobbyStatusForPlayer_serves (reply_connected .spectating i hgreeted)
  exact LobbyOnBoard.serves ((hwelcome.trans hspectating).trans hstatus) hregistered

/-- A command in an open lobby that spells no such coordinate. -/
theorem handleCommand_onBoard {i : Slot} {line : List Char} {w : Server Binary32} (hw : Inv w)
    (hopen : w.state.phase = .lobbyOpen) (hconn : (w.state.players i).connected = true)
    (hnan : acceptsNan w.state i line = false) (h : LobbyOnBoard w.state) :
    LobbyOnBoard (handleCommand i line w).state := by
  have hreply : ∀ line, LineOk w i .line line → LobbyOnBoard (reply line i w).state :=
    fun line hline => h.serves (reply_serves line hconn hline)
  unfold handleCommand
  split
  · exact hreply _ trivial
  rename_i cmd args hparse
  split
  · exact handleHelloCommand_onBoard hconn h
  split
  · exact h.serves (handleGetStateCommand_serves hw hconn)
  split
  · exact handleChoiceCommand_onBoard hw hconn h
  split
  · rename_i hspawn
    refine handleSpawnCommand_onBoard hw hconn
      (fun hreg hout text x y htext hscan hrange htaken hno => ?_) h
    subst hspawn htext
    have hrequest : spawnRequest line = some (x, y) := by
      rw [spawnRequest, hparse]
      exact (if_pos rfl).trans hscan
    rw [acceptsNan, hrequest] at hnan
    simp only [hopen, hreg, hout, hrange, htaken, decide_true, Bool.not_false, Bool.and_true,
      Bool.true_and, Bool.or_eq_false_iff, beq_eq_false_iff_ne] at hnan
    exact hno.elim hnan.1 hnan.2
  split
  · unfold handleRepickCommand
    rw [if_pos (by rw [hopen]; decide)]
    exact hreply _ trivial
  split
  · unfold handleRematchCommand
    rw [if_pos (by rw [hopen]; decide)]
    exact hreply _ trivial
  split
  · exact h.along (loseConnection_path .spawnless (fun _ => rfl) hw)
  · exact hreply _ trivial

/-- A new client has no spawn position. -/
theorem acceptNewClient_onBoard {fd : ℤ} {w : Server Binary32} (hw : Inv w)
    (h : LobbyOnBoard w.state) : LobbyOnBoard (acceptNewClient fd w).state := by
  unfold acceptNewClient addPlayer
  cases hfind : slots.find? (fun i => !(w.state.players i).connected) with
  | none => exact h
  | some i =>
    dsimp only
    have hfree := List.find?_some hfind
    have hstep : Action w (.accepted i) { w.state.setPlayer i (initPlayerSlot fd w.state.nextId)
        with nextId := w.state.nextId + 1 } := .accept (by simpa using hfree)
    have haccepted := hstep.lobbyOnBoard rfl h
    have hinv := hstep.inv hw
    generalize hu : w.record (.accepted i)
      { w.state.setPlayer i (initPlayerSlot fd w.state.nextId) with
        nextId := w.state.nextId + 1 } = u at hinv ⊢
    have hconn : (u.state.players i).connected = true := by
      subst hu
      simp [initPlayerSlot]
    have huboard : LobbyOnBoard u.state := by
      subst hu
      exact haccepted
    have hcall : Serves u (queueTo .line .info i u).2 := queueTo_path rfl rfl hconn trivial
    have htold := huboard.serves hcall
    have hcinv := hinv.along hcall
    split <;> rename_i v hq <;> rw [hq] at htold hcinv
    · exact htold
    · exact htold.along (dropPlayer_path .spawnless (fun _ => rfl) hcinv)

/-- The timers accept no SPAWN. -/
theorem advanceMatchTimers_onBoard {w : Server Binary32} (hw : Inv w)
    (h : LobbyOnBoard w.state) (now last dt : ℚ) :
    LobbyOnBoard (advanceMatchTimers now last dt w).1.state := by
  have hclosed : LobbyOnBoard (closeLobbyIfNeeded w).state := by
    rcases closeLobbyIfNeeded_cases hw with hsame | ⟨hclose, hpath⟩
    · rw [hsame]
      exact h
    · exact LobbyOnBoard.of_closed (Reacts.acts hpath) (by rw [closed]; exact nofun)
  have hcinv := hw.along (closeLobbyIfNeeded_acts hw)
  unfold advanceMatchTimers
  simp only
  generalize closeLobbyIfNeeded w = v at hclosed hcinv ⊢
  have hexpired : LobbyOnBoard (expireUnreadySetupPlayers v).state := by
    by_cases hopen : v.state.phase = .lobbyOpen
    · rw [expireUnreadySetupPlayers, if_pos (by rw [hopen]; decide)]
      exact hclosed
    · exact LobbyOnBoard.of_closed (expireUnreadySetupPlayers_acts hcinv) hopen
  have heinv := hcinv.along (expireUnreadySetupPlayers_acts hcinv)
  generalize expireUnreadySetupPlayers v = u at hexpired heinv ⊢
  split
  · exact hexpired
  rename_i hphase
  split
  · exact hexpired
  have hround : u.state.phase = .roundActive := not_not.mp hphase
  have hpath := chaseTick_acts heinv hround (CFloat.lit dt)
    (simulateChaseTick u.state (CFloat.lit dt)).2
  have hleft : u.state.phase ≠ .lobbyOpen := by
    rw [hround]
    decide
  have hticked := LobbyOnBoard.of_closed hpath hleft
  dsimp only
  exact hticked

/-- A command in an open lobby. -/
theorem commandPlayer_onBoard (i : Slot) {w : Server Binary32} (hw : Inv w)
    (hopen : w.state.phase = .lobbyOpen) (h : LobbyOnBoard w.state)
    (hnan : NansRefused (commandPlayer i w).log) : LobbyOnBoard (commandPlayer i w).state := by
  have hacts := commandPlayer_acts i hw
  unfold commandPlayer at hnan ⊢
  split
  · exact h
  rename_i hconn
  have hconn' : (w.state.players i).connected = true := by simpa using hconn
  rw [if_neg hconn] at hnan
  split
  · exact h
  rename_i line p hpop
  rw [hpop] at hnan
  dsimp only at hnan
  obtain ⟨inbuf, hp⟩ := popLine_eq hpop
  subst hp
  have hstep : Action w (.popped i line) (w.state.setPlayer i
      { w.state.players i with inbuf := inbuf }) := .pop hconn' hpop
  have hpopped := hstep.lobbyOnBoard rfl h
  have hinv := hstep.inv hw
  generalize hu : w.record (.popped i line) (w.state.setPlayer i
    { w.state.players i with inbuf := inbuf }) = u at hinv hnan ⊢
  have hentry : (⟨.popped i line, u.state⟩ : Entry (ServerState Binary32) (Event Binary32)) ∈
      u.log := by
    subst hu
    exact List.mem_cons_self
  have huopen : u.state.phase = .lobbyOpen := by
    subst hu
    exact hopen
  have huconn : (u.state.players i).connected = true := by
    subst hu
    simpa using hconn'
  have huboard : LobbyOnBoard u.state := by
    subst hu
    exact hpopped
  have hpath : Acts u (handleCommand i line u) :=
    (handleCommand_acts line hinv huconn).resolve_right
      fun hover => absurd (huopen.symm.trans hover.1) (by decide)
  have hrefused : acceptsNan u.state i line = false :=
    hnan ⟨.popped i line, u.state⟩ (hpath.log_subset hentry)
  exact handleCommand_onBoard hinv huopen huconn hrefused huboard

/-- One step, with the spawn positions of registered players only. -/
theorem Loop.step_onBoard {l : Loop Binary32} (hl : Inv l.server)
    (hchosen : ChosenByRegistered l.server.state) (h : LobbyOnBoard l.server.state) (x : Step)
    (hnan : NansRefused (l.step x).server.log) : LobbyOnBoard (l.step x).server.state := by
  by_cases hopen : l.server.state.phase = .lobbyOpen
  swap
  · rcases Loop.step_acts hl x with hpath | ⟨v, hpath, hover, hv⟩ | ⟨_, hround, hv⟩
    · exact LobbyOnBoard.of_closed hpath hopen
    · have hkept : ChosenByRegistered v.state :=
        hpath.state_invariant ChosenByRegistered (fun _ _ _ _ hw => hw.chosenByRegistered) hchosen
      rw [hv]
      intro _ j hj
      rw [resetMatch_spawnChosen hover hkept j] at hj
      cases hj
    · rw [hv]
      exact LobbyOnBoard.of_closed (resolveRound_acts hl hround) hopen
  cases x with
  | accept fd =>
    show LobbyOnBoard (acceptNewClient fd l.server).state
    exact acceptNewClient_onBoard hl h
  | read i result =>
    show LobbyOnBoard (readPlayer i result l.server).state
    unfold readPlayer
    split
    · exact h
    rename_i hconn
    dsimp only
    split
    · exact h.along (loseConnection_path .spawnless (fun _ => rfl) hl)
    · rename_i hrc
      rw [readIntoPlayerBuffer_eq (not_le.mp hrc)]
      exact (Action.receive (by simpa using hconn)).lobbyOnBoard rfl h
  | command i => exact commandPlayer_onBoard i hl hopen h hnan
  | write i results =>
    show LobbyOnBoard (writePlayer i results l.server).state
    unfold writePlayer
    split
    · exact h
    rename_i hconn
    dsimp only
    obtain ⟨n, hp⟩ := flushPlayerOutput_eq (l.server.state.players i) results
    rw [hp, take_sent]
    have hstep : Action l.server (.flushed i ((l.server.state.players i).outbuf.take n))
      (l.server.state.setPlayer i
        { l.server.state.players i with
          outbuf := (l.server.state.players i).outbuf.drop n }) :=
      .flush (by simpa using hconn)
    have hflushed := hstep.lobbyOnBoard rfl h
    split
    · exact LobbyOnBoard.along
        (loseConnection_path .spawnless (fun _ => rfl) (hstep.inv hl)) hflushed
    · exact hflushed
  | timers now => exact advanceMatchTimers_onBoard hl h now l.lastChaseTick CHASE_TICK_SECONDS
  | resolve =>
    have hskip : resolveActiveRound l.server = l.server :=
      if_neg (by rw [hopen]; decide)
    rw [Loop.step, hskip]
    exact h

/-- The steps of a run are actions. -/
theorem Loop.run_path {F : Type} [CFloat F] {l : Loop F} (hl : Inv l.server)
    (steps : List Step) : Path Action (fun _ => True) l.server (l.run steps).server := by
  induction steps generalizing l with
  | nil => exact .refl _
  | cons x steps ih => exact (Loop.step_path hl x).trans (ih (Loop.step_inv hl x))

/-- In every run that refuses SPAWN with a coordinate that is no number, the spawn positions
in an open lobby are numbers on the board. -/
theorem spawns_on_board {loopOnly : Bool} {w : Server Binary32} (hw : Reached loopOnly w)
    (hnan : NansRefused w.log) (hopen : w.state.phase = .lobbyOpen) : SpawnsOnBoard w.state := by
  obtain ⟨clock, start, steps, hsteps, rfl⟩ := hw
  clear hsteps
  suffices hrun : ∀ l : Loop Binary32, Inv l.server → ChosenByRegistered l.server.state →
      LobbyOnBoard l.server.state → NansRefused (l.run steps).server.log →
      LobbyOnBoard (l.run steps).server.state by
    refine hrun (Loop.init clock start) (Inv.init clock) (fun _ _ => rfl) (fun _ _ hi => ?_) hnan
      hopen
    cases hi
  clear hnan hopen
  induction steps with
  | nil => exact fun l _ _ h _ => h
  | cons x steps ih =>
    intro l hl hchosen h hnan
    have hinv := Loop.step_inv hl x
    have hpath := Loop.step_path hl x
    have hkept : ChosenByRegistered (l.step x).server.state :=
      hpath.state_invariant ChosenByRegistered (fun _ _ _ _ hv => hv.chosenByRegistered) hchosen
    have hearlier : NansRefused (l.step x).server.log :=
      fun e he => hnan e ((Loop.run_path hinv steps).log_subset he)
    exact ih (l.step x) hinv hkept (Loop.step_onBoard hl hchosen h x hearlier) hnan

end Numbers

/-- A server with coordinates of single precision, after some steps. -/
def floatServer (steps : List Step) : Server Binary32 :=
  ((Loop.init (fun _ => 1) 0).runForced steps).server

theorem floatServer_reached {steps : List Step} (h : steps.all Step.inLoop = true) :
    Reached true (floatServer steps) := by
  refine ⟨fun _ => 1, 0, steps, fun _ x hx => List.all_eq_true.mp h x hx, ?_⟩
  rw [floatServer, Loop.runForced_eq]

/-- A named client sends SPAWN. -/
def spawnOf (spot : String) : List Step :=
  .accept 3 :: (say 0 "HELLO A" ++ say 0 ("SPAWN " ++ spot))

/-- A client that asks for a tile of the board. -/
theorem spawns_on_board_one :
    SpawnsOnBoard (floatServer (spawnOf "2.5 7")).state := by
  have hrefused : (floatServer (spawnOf "2.5 7")).log.all (fun e => !isAcceptedNan e) = true := by
    decide +kernel
  refine spawns_on_board (floatServer_reached (by decide)) (fun e he => ?_) (by decide +kernel)
  simpa using List.all_eq_true.mp hrefused e he

/-- SPAWN accepts a coordinate that is no number. -/
theorem nan_spawn_accepted :
    Reached true (floatServer (spawnOf "nan 1")) ∧
      (floatServer (spawnOf "nan 1")).state.phase = .lobbyOpen ∧
      ¬SpawnsOnBoard (floatServer (spawnOf "nan 1")).state := by
  have hstate : (floatServer (spawnOf "nan 1")).state.phase = .lobbyOpen ∧
      ((floatServer (spawnOf "nan 1")).state.players 0).spawnChosen = true ∧
      ((floatServer (spawnOf "nan 1")).state.players 0).x = .nan := by decide +kernel
  obtain ⟨hopen, hchosen, hx⟩ := hstate
  refine ⟨floatServer_reached (by decide), hopen, fun h => ?_⟩
  obtain ⟨⟨q, hq, _⟩, _⟩ := h 0 hchosen
  rw [hx] at hq
  cases hq

end BattleRoyale
