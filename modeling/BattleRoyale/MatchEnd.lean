import BattleRoyale.Acknowledgements
import BattleRoyale.PhaseProgress
import BattleRoyale.Verdicts

/-!
# A running match ends with the last type

What one step of the loop may do to an active round. A chase tick and the loss of a player
are followed by a count of the types that are left, also when a broadcast loses the
player, so the round goes on only with two of them, and the match ends only when at most
one is left.
-/

namespace BattleRoyale

open Recorded

variable {F : Type}

/-- The event is a chase tick, or the loss of a player. -/
def Event.thins : Event F → Bool
  | .chaseTicked => true
  | .dropped .. => true
  | _ => false

/-- The players alive hold at least two different choices. -/
def TypesLeft (s : ServerState F) : Prop :=
  ∃ i j, (s.players i).isAlive = true ∧ (s.players j).isAlive = true ∧
    (s.players i).choice ≠ (s.players j).choice

/-- The players alive hold at most one choice. -/
def OneTypeLeft (s : ServerState F) : Prop :=
  ∀ i j, (s.players i).isAlive = true → (s.players j).isAlive = true →
    (s.players i).choice = (s.players j).choice

/-- The round runs, or the match has just ended. -/
def Fought (s : ServerState F) : Prop := s.phase = .roundActive ∨ s.phase = .gameOver

/-- A round that began before these entries is running or over. -/
def Fighting (old : Log F) (w : Server F) : Prop :=
  Fought w.state ∧ ∃ new, w.log = new ++ old

/-- It goes on with two types, if a chase tick or a loss is among the new entries. -/
def Contested (old : Log F) (w : Server F) : Prop :=
  Fought w.state ∧ ∃ new, w.log = new ++ old ∧
    (w.state.phase = .roundActive → (∃ x ∈ new, x.event.thins = true) → TypesLeft w.state)

/-- Types are left when the players alive stay alive and keep their choices. -/
theorem TypesLeft.of_kept {s t : ServerState F} (h : TypesLeft s)
    (hkept : ∀ i, (s.players i).isAlive = true → (t.players i).isAlive = true ∧
      (t.players i).choice = (s.players i).choice) : TypesLeft t := by
  obtain ⟨i, j, hi, hj, hne⟩ := h
  refine ⟨i, j, (hkept i hi).1, (hkept j hj).1, ?_⟩
  rwa [(hkept i hi).2, (hkept j hj).2]

/-- One more entry that thins nothing out. -/
theorem Contested.record {old : Log F} {w : Server F} (h : Contested old w) {e : Event F}
    {s : ServerState F} (he : e.thins = false) (hphase : s.phase = w.state.phase)
    (hkept : ∀ i, (w.state.players i).isAlive = true → (s.players i).isAlive = true ∧
      (s.players i).choice = (w.state.players i).choice) : Contested old (w.record e s) := by
  obtain ⟨hfought, new, hlog, hleft⟩ := h
  refine ⟨by simpa [Fought, hphase] using hfought, ⟨e, s⟩ :: new, by simp [hlog], ?_⟩
  rintro hround ⟨x, hx, hthins⟩
  rw [System.record_state, hphase] at hround
  rcases List.mem_cons.mp hx with rfl | hx
  · rw [he] at hthins
    cases hthins
  · exact (hleft hround ⟨x, hx, hthins⟩).of_kept hkept

/-- A contested round is fought. -/
theorem Contested.fighting {old : Log F} {w : Server F} (h : Contested old w) :
    Fighting old w :=
  ⟨h.1, h.2.imp fun _ hnew => hnew.1⟩

variable [CFloat F]

/-- Calls, quiet actions and registrations leave the phase and the players alive as they
are. -/
theorem Action.fighters {w : Server F} {e : Event F} {s : ServerState F} (h : Action w e s)
    (he : (∃ i via line, e = .queued i via line) ∨ (∃ i via line, e = .refused i via line) ∨
      e.isQuiet = true ∨ ∃ i, e = .registered i) :
    e.thins = false ∧ s.phase = w.state.phase ∧ ∀ i, (w.state.players i).isAlive = true →
      (s.players i).isAlive = true ∧ (s.players i).choice = (w.state.players i).choice := by
  have hset : ∀ (i : Slot) (p : Player F), ((w.state.players i).isAlive = true →
      p.isAlive = true ∧ p.choice = (w.state.players i).choice) → ∀ j,
      (w.state.players j).isAlive = true → ((w.state.setPlayer i p).players j).isAlive = true ∧
        ((w.state.setPlayer i p).players j).choice = (w.state.players j).choice := by
    intro i p hp j hj
    by_cases hji : j = i
    · subst hji
      rw [ServerState.setPlayer_self]
      exact hp hj
    · rw [ServerState.setPlayer_of_ne _ _ hji]
      exact ⟨hj, rfl⟩
  have hnew : ∀ i, (w.state.players i).connected = false ∨
      (w.state.players i).registered = false ∨ (w.state.players i).admitted = false →
      ¬(w.state.players i).isAlive = true := by
    rintro i hout halive
    simp only [Player.isAlive, Bool.and_eq_true] at halive
    rcases hout with hout | hout | hout <;> simp [hout] at halive
  cases h with
  | @accept i fd hfree =>
    exact ⟨rfl, rfl, hset i _ fun hp => absurd hp (hnew i (.inl hfree))⟩
  | receive hconn => exact ⟨rfl, rfl, hset _ _ fun hp => ⟨hp, rfl⟩⟩
  | pop hconn => exact ⟨rfl, rfl, hset _ _ fun hp => ⟨hp, rfl⟩⟩
  | flush hconn => exact ⟨rfl, rfl, hset _ _ fun hp => ⟨hp, rfl⟩⟩
  | queue hconn hline hqueue =>
    rw [Player.queueVia_eq_some hqueue]
    exact ⟨rfl, rfl, hset _ _ fun hp => ⟨hp, rfl⟩⟩
  | refuse hqueue => exact ⟨rfl, rfl, fun i hi => ⟨hi, rfl⟩⟩
  | @register i name hconn hunnamed hvalid hunused =>
    exact ⟨rfl, rfl, hset i _ fun hp => absurd hp (hnew i (.inr (.inl hunnamed)))⟩
  | @choose i choice hreg hout hchoice =>
    exact ⟨rfl, rfl, hset i _ fun hp => absurd hp (hnew i (.inr (.inr hout)))⟩
  | spawn hreg hout hrange hfree => exact ⟨rfl, rfl, hset _ _ fun hp => ⟨hp, rfl⟩⟩
  | _ => simp [Event.isQuiet] at he

/-- Within nested actions a fought round stays one. -/
theorem Action.fought {w : Server F} {e : Event F} {s : ServerState F} (h : Action w e s)
    (he : e.isNested = true) (hw : Fought w.state) : Fought s := by
  cases h with
  | cancel hphase hempty => rcases hw with hw | hw <;> rw [hw] at hphase <;> cases hphase
  | start hphase horder => exact .inl rfl
  | finish hphase horder hwhy => exact .inr rfl
  | applyRepicks hphase hall => rcases hw with hw | hw <;> rw [hw] at hphase <;> cases hphase
  | queue hconn hline hqueue => exact hw
  | refuse hqueue => exact hw
  | drop hconn => exact hw
  | _ => cases he

/-- So it does along a path of them. -/
theorem Fighting.along {old : Log F} {w v : Server F} (h : Fighting old w) (hpath : Reacts w v) :
    Fighting old v := by
  obtain ⟨hfought, new, hlog⟩ := h
  obtain ⟨more, hmore, _⟩ := hpath.log_eq
  refine ⟨hpath.state_invariant Fought (fun _ _ _ he hstep => hstep.fought he) hfought,
    more ++ new, ?_⟩
  rw [hmore, hlog, List.append_assoc]

/-- In an active round `reevaluate_state` counts the players and the types. -/
theorem reevaluateState_of_roundActive {w : Server F} (h : w.state.phase = .roundActive) :
    reevaluateState w = reevaluateRoundActive w := by
  show reevaluateBody _ w = _
  simp only [reevaluateBody, h]

/-- After the match `reevaluate_state` does nothing. -/
theorem reevaluateState_of_gameOver {w : Server F} (h : w.state.phase = .gameOver) :
    reevaluateState w = w := by
  show reevaluateBody _ w = _
  simp only [reevaluateBody, h]

omit [CFloat F] in
/-- The two counters of types agree. -/
theorem countAliveChoiceTypes_eq (s : ServerState F) :
    countAliveChoiceTypes s = countChoiceTypesAlive s := by
  unfold countAliveChoiceTypes countChoiceTypesAlive
  omega

/-- `reevaluate_state` ends the match or leaves two types. -/
theorem reevaluateState_contested {old : Log F} {w : Server F} (hw : Inv w)
    (h : Fighting old w) : Contested old (reevaluateState w) := by
  obtain ⟨hfought, new, hlog⟩ := h.along (reevaluateState_reacts w hw)
  refine ⟨hfought, new, hlog, fun hround _ => ?_⟩
  rcases h.1 with hactive | hover
  · rw [reevaluateState_of_roundActive hactive] at hround ⊢
    unfold reevaluateRoundActive at hround ⊢
    split
    · rename_i hend
      rw [if_pos hend, endGame_phase] at hround
      cases hround
    · rename_i hmany
      rw [countAliveChoiceTypes_eq] at hmany
      exact exists_two_types fun htypes => hmany (.inr htypes)
  · rw [reevaluateState_of_gameOver hover, hover] at hround
    cases hround

/-- The rule for a contested round. -/
theorem contested_restored (old : Log F) : Restored (Fighting old) (Contested old) := by
  refine Restored.of_actions (fun _ _ h => h.fighting) ?_ ?_ fun _ hw h =>
    reevaluateState_contested hw h
  · intro w e s _ hstep he
    obtain ⟨hthins, hphase, hkept⟩ := hstep.fighters (he.imp_right .inl)
    refine ⟨fun h => h.record hthins hphase hkept, ?_⟩
    rintro ⟨hfought, new, hlog⟩
    exact ⟨by simpa [Fought, hphase] using hfought, ⟨e, s⟩ :: new, by simp [hlog]⟩
  · rintro w i announce name s _ hstep ⟨hfought, new, hlog⟩
    have hphase : s.phase = w.state.phase := by cases hstep; rfl
    exact ⟨by simpa [Fought, hphase] using hfought, ⟨.dropped i announce name, s⟩ :: new,
      by simp [hlog]⟩

section Step

variable {old : Log F} {w : Server F}

/-- A quiet action. -/
theorem Contested.quiet (h : Contested old w) {e : Event F} {s : ServerState F}
    (hstep : Action w e s) (he : e.isQuiet = true) : Contested old (w.record e s) := by
  obtain ⟨hthins, hphase, hkept⟩ := hstep.fighters (.inr (.inr (.inl he)))
  exact h.record hthins hphase hkept

/-- A player who is ready asks too late. -/
theorem maybeAdmitPlayer_contested {i : Slot} (hw : Inv w) (h : Contested old w) :
    Contested old (maybeAdmitPlayer i w) := by
  unfold maybeAdmitPlayer
  simp only
  split
  · exact h
  rename_i hin
  simp only [Bool.or_eq_true, Bool.not_eq_true', not_or, Bool.not_eq_false] at hin
  split
  · exact h
  split
  · exact h
  split
  · exact (contested_restored old).refuseLobbyClosed hw hin.1 h
  · rename_i hopen
    rcases h.1 with hphase | hphase <;> rw [hphase] at hopen <;> simp at hopen

/-- CHOICE. -/
theorem handleChoiceCommand_contested {i : Slot} {args : Option (List Char)} (hw : Inv w)
    (hconn : (w.state.players i).connected = true) (h : Contested old w) :
    Contested old (handleChoiceCommand i args w) :=
  (contested_restored old).handleChoiceCommand (fun _ _ _ _ hstep he hv => hv.quiet hstep he)
    (fun _ hv _ => maybeAdmitPlayer_contested hv) hw hconn h

/-- SPAWN. -/
theorem handleSpawnCommand_contested {i : Slot} {args : Option (List Char)} (hw : Inv w)
    (hconn : (w.state.players i).connected = true) (h : Contested old w) :
    Contested old (handleSpawnCommand i args w) :=
  (contested_restored old).handleSpawnCommand (fun _ _ _ _ hstep he hv => hv.quiet hstep he)
    (fun _ hv _ => maybeAdmitPlayer_contested hv) hw hconn h

/-- One command in an active round. -/
theorem handleCommand_contested {i : Slot} {line : List Char} (hw : Inv w)
    (hconn : (w.state.players i).connected = true) (hphase : w.state.phase = .roundActive)
    (h : Contested old w) : Contested old (handleCommand i line w) := by
  have hrule := contested_restored old
  unfold handleCommand
  split
  · exact hrule.reply _ hw rfl hconn trivial h
  rename_i cmd args hparse
  split
  · refine hrule.hello (fun v j s _ hstep hv => ?_) hw hconn ?_ h
    · obtain ⟨hthins, hsame, hkept⟩ := hstep.fighters (.inr (.inr (.inr ⟨j, rfl⟩)))
      exact hv.record hthins hsame hkept
    · rintro text rfl c hc
      exact ne_of_mem_cString (parseCommand_args hparse hc)
  split
  · exact hrule.handleGetStateCommand hw hconn h
  split
  · exact handleChoiceCommand_contested hw hconn h
  split
  · exact handleSpawnCommand_contested hw hconn h
  split
  · unfold handleRepickCommand
    rw [if_pos (by simp [hphase])]
    exact hrule.reply _ hw rfl hconn trivial h
  split
  · unfold handleRematchCommand
    rw [if_pos (by simp [hphase])]
    exact hrule.reply _ hw rfl hconn trivial h
  split
  · exact hrule.loseConnection i hw h
  · exact hrule.reply _ hw rfl hconn trivial h

/-- A chase tick. -/
theorem chaseTick_contested (dt : F) (hw : Inv w) (hphase : w.state.phase = .roundActive)
    (h : Contested old w) :
    Contested old (if (simulateChaseTick w.state dt).2 then
      reevaluateState (broadcastPositions (w.record .chaseTicked (simulateChaseTick w.state dt).1))
    else broadcastPositions (w.record .chaseTicked (simulateChaseTick w.state dt).1)) := by
  have hstep : Action w .chaseTicked (simulateChaseTick w.state dt).1 := .tick hphase
  have hinv := hstep.inv hw
  have hround : (simulateChaseTick w.state dt).1.phase = .roundActive := by
    rw [(simulateChaseTick_chased w.state dt).table]
    exact hphase
  have hmany : ¬(simulateChaseTick w.state dt).2 = true →
      TypesLeft (simulateChaseTick w.state dt).1 := fun htypes =>
    exists_two_types (by simpa [simulateChaseTick] using htypes)
  generalize (simulateChaseTick w.state dt).1 = s at hinv hround hmany ⊢
  obtain ⟨_, new, hlog, _⟩ := h
  have hlog' : (w.record .chaseTicked s).log = (⟨.chaseTicked, s⟩ :: new) ++ old := by
    rw [System.record_log, hlog]
    rfl
  split
  · have hpath := broadcastPositions_reacts hinv
    have hfighting : Fighting old (w.record .chaseTicked s) := ⟨.inl hround, _, hlog'⟩
    exact reevaluateState_contested (hinv.along hpath) (hfighting.along hpath)
  · rename_i htypes
    exact (contested_restored old).broadcastPositions hinv
      ⟨.inl hround, _, hlog', fun _ _ => hmany htypes⟩

/-- A new connection has room for its greeting. -/
theorem acceptNewClient_contested (fd : ℤ) (hw : Inv w) (h : Contested old w) :
    Contested old (acceptNewClient fd w) := by
  unfold acceptNewClient addPlayer
  cases hfind : slots.find? (fun i => !(w.state.players i).connected) with
  | none => exact h
  | some i =>
    dsimp only
    have hfree := List.find?_some hfind
    have hstep : Action w (.accepted i)
        { w.state.setPlayer i (initPlayerSlot fd w.state.nextId) with
          nextId := w.state.nextId + 1 } := .accept (by simpa using hfree)
    have haccepted := h.quiet hstep rfl
    have hinv := hstep.inv hw
    have hroom : ((initPlayerSlot fd w.state.nextId : Player F).queueVia .line .info).isSome =
      true := rfl
    have hnew : ((w.record (.accepted i) { w.state.setPlayer i
        (initPlayerSlot fd w.state.nextId) with nextId := w.state.nextId + 1 }).state.players i) =
          initPlayerSlot fd w.state.nextId := ServerState.setPlayer_self ..
    generalize w.record (.accepted i)
      { w.state.setPlayer i (initPlayerSlot fd w.state.nextId) with
        nextId := w.state.nextId + 1 } = u at haccepted hinv hnew ⊢
    have hconn : (u.state.players i).connected = true := by
      rw [hnew]
      rfl
    have hcalled := (contested_restored old).reply .info hinv rfl hconn trivial haccepted
    unfold reply at hcalled
    split <;> rename_i v hq
    · rwa [hq] at hcalled
    · have hnone := (queueTo_false hq).1
      rw [hnew] at hnone
      rw [hnone] at hroom
      cases hroom

end Step

/-- A step of the loop from an active round. -/
theorem Loop.step_contested {l : Loop F} (hl : Inv l.server)
    (hphase : l.server.state.phase = .roundActive) {x : Step} (hx : x.inLoop = true) :
    Contested l.server.log (l.step x).server := by
  have hrule := contested_restored l.server.log
  have hstart : Contested l.server.log l.server :=
    ⟨.inl hphase, [], rfl, fun _ ⟨_, hx, _⟩ => absurd hx List.not_mem_nil⟩
  cases x with
  | accept fd => exact acceptNewClient_contested fd hl hstart
  | read i result =>
    show Contested _ (readPlayer i result l.server)
    unfold readPlayer
    split
    · exact hstart
    rename_i hconn
    dsimp only
    split
    · exact hrule.loseConnection i hl hstart
    · rename_i hrc
      rw [readIntoPlayerBuffer_eq (not_le.mp hrc)]
      exact hstart.quiet (.receive (by simpa using hconn)) rfl
  | command i =>
    show Contested _ (commandPlayer i l.server)
    unfold commandPlayer
    split
    · exact hstart
    rename_i hconn
    have hconn' : (l.server.state.players i).connected = true := by simpa using hconn
    split
    · exact hstart
    rename_i line p hpop
    obtain ⟨inbuf, rfl⟩ := popLine_eq hpop
    have hstep : Action l.server (.popped i line) (l.server.state.setPlayer i
        { l.server.state.players i with inbuf := inbuf }) := .pop hconn' hpop
    exact handleCommand_contested (hstep.inv hl) (by simpa using hconn') hphase
      (hstart.quiet hstep rfl)
  | write i results =>
    show Contested _ (writePlayer i results l.server)
    unfold writePlayer
    split
    · exact hstart
    rename_i hconn
    dsimp only
    obtain ⟨n, hp⟩ := flushPlayerOutput_eq (l.server.state.players i) results
    rw [hp, take_sent]
    have hstep : Action l.server (.flushed i ((l.server.state.players i).outbuf.take n))
      (l.server.state.setPlayer i
        { l.server.state.players i with
          outbuf := (l.server.state.players i).outbuf.drop n }) :=
      .flush (by simpa using hconn)
    split
    · exact hrule.loseConnection i (hstep.inv hl) (hstart.quiet hstep rfl)
    · exact hstart.quiet hstep rfl
  | timers now =>
    have hclosed : closeLobbyIfNeeded l.server = l.server := by
      simp [closeLobbyIfNeeded, hphase]
    have hexpired : expireUnreadySetupPlayers l.server = l.server := by
      simp [expireUnreadySetupPlayers, hphase]
    rw [Loop.step]
    unfold advanceMatchTimers
    simp only [hclosed, hexpired]
    rw [if_neg (not_not.mpr hphase)]
    split
    · exact hstart
    · dsimp only
      exact chaseTick_contested _ hl hphase hstart
  | resolve => cases hx

/-- No round is resolved, and whenever a match ended, at most one type was left. -/
structure WellEnded (w : Server F) : Prop where
  /-- The invariants hold. -/
  inv : Inv w
  /-- No round was resolved. -/
  unresolved : ¬RoundsResolved w.log
  /-- At every end, at most one type was left. -/
  ended : ∀ x ∈ w.log, x.event = .gameEnded → OneTypeLeft x.state

/-- Every action of the loop keeps that. -/
theorem Action.wellEnded {w : Server F} {e : Event F} {s : ServerState F} (h : Action w e s)
    (he : e.isResolving = false) (hw : WellEnded w) : WellEnded (w.record e s) := by
  refine ⟨h.inv hw.inv, h.unresolved he hw.inv hw.unresolved, fun x hx hend => ?_⟩
  rcases List.mem_cons.mp hx with rfl | hx
  · cases hend
    cases h with
    | finish hphase horder hwhy =>
      have hsame := sameChoice_of_finish hw.inv hw.unresolved hwhy
      exact fun i j hi hj =>
        hsame i j (Player.isContender_of_isAlive hi) (Player.isContender_of_isAlive hj)
  · exact hw.ended x hx hend

/-- So does a run of them. -/
theorem WellEnded.along {w v : Server F} (h : WellEnded w) (hpath : Runs w v) : WellEnded v :=
  hpath.invariant WellEnded (fun _ _ _ he hstep hw => hstep.wellEnded he hw) h

/-- It holds in every state that the loop reaches. -/
theorem Reached.wellEnded {w : Server F} (h : Reached true w) : WellEnded w := by
  obtain ⟨clock, hpath⟩ := h.path
  have hinit : WellEnded (Server.init clock : Server F) :=
    ⟨Inv.init clock, by simp [RoundsResolved, Server.init], by simp [Server.init]⟩
  exact hinit.along (hpath.mono fun _ he => he rfl)

/-- A step of the loop is a run. -/
theorem Loop.step_runs {l : Loop F} (hl : Inv l.server) {x : Step} (hx : x.inLoop = true) :
    Runs l.server (l.step x).server := by
  rcases Loop.step_acts hl x with hpath | ⟨v, hpath, hover, hv⟩ | ⟨hout, _, _⟩
  · exact hpath.runs
  · rw [hv]
    exact (Acts.runs hpath).trans (resetMatch_runs hover)
  · rw [hx] at hout
    cases hout

/-- A path that ends a match which was not over executes `end_game`. -/
theorem ended_of_path {P : Event F → Prop} {w v : Server F} (hpath : Path Action P w v)
    (hw : w.state.phase ≠ .gameOver) :
    ∃ new, v.log = new ++ w.log ∧
      (v.state.phase = .gameOver → ∃ x ∈ new, x.event = .gameEnded) := by
  induction hpath with
  | refl => exact ⟨[], rfl, fun hover => absurd hover hw⟩
  | @tail v e s _ _ hstep ih =>
    obtain ⟨new, hlog, hended⟩ := ih
    refine ⟨⟨e, s⟩ :: new, by simp [hlog], fun hover => ?_⟩
    rcases hstep.gameOver_of hover with hend | hold
    · refine ⟨_, List.mem_cons_self, ?_⟩
      cases e <;> first | rfl | cases hend
    · obtain ⟨x, hx, hevent⟩ := hended hold
      exact ⟨x, List.mem_cons_of_mem _ hx, hevent⟩

/-- A step of the loop from an active round: the round goes on after a chase tick or the
loss of a player only with two types left, the match is over only if `end_game` was
executed, and at most one type was left whenever it was. -/
theorem match_ends_with_one_type {l : Loop F} (h : Reached true l.server)
    (hphase : l.server.state.phase = .roundActive) (x : Step) (hx : x.inLoop = true) :
    ((∃ y ∈ added l.server (l.step x).server, y.event.thins = true) →
      (l.step x).server.state.phase = .roundActive → TypesLeft (l.step x).server.state) ∧
    ((l.step x).server.state.phase = .gameOver →
      ∃ y ∈ added l.server (l.step x).server, y.event = .gameEnded) ∧
    ∀ y ∈ added l.server (l.step x).server, y.event = .gameEnded → OneTypeLeft y.state := by
  obtain ⟨_, new, hlog, hleft⟩ := Loop.step_contested h.inv hphase hx
  obtain ⟨new', hlog', hended⟩ :=
    ended_of_path (Loop.step_runs h.inv hx) (by rw [hphase]; decide)
  have hnew : new' = new := List.append_cancel_right (hlog'.symm.trans hlog)
  rw [added_eq hlog]
  refine ⟨fun hthins hround => hleft hround hthins, hnew ▸ hended, fun y hy hend => ?_⟩
  have hdone := h.wellEnded.along (Loop.step_runs h.inv hx)
  exact hdone.ended y (by rw [hlog]; exact List.mem_append_left _ hy) hend

/-- The loop in the round of two players. -/
def duelRound : Loop Exact where
  server := serverAfter (lateClock 60) duel
  lastChaseTick := 0

/-- A chase tick in this round. -/
theorem match_ends_with_one_type_duel :
    ((∃ y ∈ added duelRound.server (duelRound.step (.timers 1)).server, y.event.thins = true) →
      (duelRound.step (.timers 1)).server.state.phase = .roundActive →
        TypesLeft (duelRound.step (.timers 1)).server.state) ∧
    ((duelRound.step (.timers 1)).server.state.phase = .gameOver →
      ∃ y ∈ added duelRound.server (duelRound.step (.timers 1)).server, y.event = .gameEnded) ∧
    ∀ y ∈ added duelRound.server (duelRound.step (.timers 1)).server, y.event = .gameEnded →
      OneTypeLeft y.state :=
  @match_ends_with_one_type Exact _ duelRound duel_reached duel_phase (.timers 1) rfl

end BattleRoyale
