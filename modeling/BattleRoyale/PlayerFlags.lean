import BattleRoyale.StepRefinement
import BattleRoyale.Exact

/-!
# The player table between steps

What a reader of the player table may rely on between two steps: the flags of a slot
agree with each other and with the phase, and names and identifiers tell the clients
apart. The parts that do not depend on the phase are invariants of single actions. The
others hold along the actions of a match without resolved rounds, and `reset_match`
establishes them again.
-/

namespace BattleRoyale

open Recorded

variable {F : Type}

/-- The flags of a connected slot that depend on the phase: nobody is alive in an open
lobby, where the admitted players wait, and who is alive takes part in an active round. -/
def PhaseFlags (phase : Phase) (p : Player F) : Prop :=
  p.connected = true →
    (phase = .lobbyOpen → p.alive = false ∧ p.admitted = p.waiting) ∧
      (phase = .roundActive → p.alive = true → p.inRound = true)

/-- The flags agree with the phase in every slot. -/
def AllPhaseFlags (s : ServerState F) : Prop := ∀ i, PhaseFlags s.phase (s.players i)

/-- Replacing one entry. -/
theorem AllPhaseFlags.setPlayer {s : ServerState F} (h : AllPhaseFlags s) {i : Slot}
    {p : Player F} (hp : PhaseFlags s.phase p) : AllPhaseFlags (s.setPlayer i p) := by
  intro j
  by_cases hj : j = i
  · subst hj
    rwa [ServerState.setPlayer_self]
  · rw [ServerState.setPlayer_of_ne _ _ hj]
    exact h j

/-- Phases in which nothing is said. -/
theorem PhaseFlags.of_phase {phase : Phase} {p : Player F} (hopen : phase ≠ .lobbyOpen)
    (hround : phase ≠ .roundActive) : PhaseFlags phase p :=
  fun _ => ⟨fun h => absurd h hopen, fun h => absurd h hround⟩

/-- A slot without progress. -/
theorem PhaseFlags.of_idle {phase : Phase} {p : Player F}
    (h : p.alive = false ∧ p.admitted = false ∧ p.waiting = false) : PhaseFlags phase p := by
  intro _
  refine ⟨fun _ => ⟨h.1, by rw [h.2.1, h.2.2]⟩, fun _ halive => ?_⟩
  rw [h.1] at halive
  cases halive

/-- A consistent slot that is alive is counted as alive. -/
theorem SlotOk.isAlive {roundNo : ℕ} {p : Player F} (h : SlotOk roundNo p)
    (hconn : p.connected = true) (halive : p.alive = true) : p.isAlive = true := by
  have hadmitted := h.lifted (.inl halive)
  have hready := h.ready hadmitted
  simp [Player.isAlive, hconn, hready.1, hadmitted, halive]

/-- `start_round` puts everybody who is alive into the round. -/
theorem PhaseFlags.enterRound {roundNo : ℕ} {p : Player F} (h : SlotInv roundNo p) :
    PhaseFlags .roundActive p.enterRound := by
  intro hconn
  refine ⟨nofun, fun _ => ?_⟩
  unfold Player.enterRound at hconn ⊢
  simp only at hconn ⊢
  split
  · exact fun _ => rfl
  · rename_i hout
    rw [if_neg hout] at hconn
    intro halive
    have hin := (h hconn).isAlive hconn halive
    have hadmitted := Player.isAdmitted_of_isAlive hin
    have hpair : (p.isAdmitted && (p.alive || p.waiting)) = true := by
      rw [hadmitted, show p.alive = true from halive]
      rfl
    exact absurd hpair hout

variable [CFloat F]

/-- Within a match without resolved rounds, every action keeps the flags in agreement
with the phase. -/
theorem Action.phaseFlags {w : Server F} {e : Event F} {s : ServerState F} (h : Action w e s)
    (he : e.inMatch = true) (hun : ¬RoundsResolved w.log) (hw : Inv w)
    (hflags : AllPhaseFlags w.state) : AllPhaseFlags s := by
  cases h with
  | @accept i fd hfree =>
    have hset : AllPhaseFlags (w.state.setPlayer i (initPlayerSlot fd w.state.nextId)) :=
      hflags.setPlayer (.of_idle ⟨rfl, rfl, rfl⟩)
    exact hset
  | @receive i bytes hconn => exact hflags.setPlayer (hflags i)
  | @pop i line inbuf hconn hpop => exact hflags.setPlayer (hflags i)
  | @flush i n hconn => exact hflags.setPlayer (hflags i)
  | @queue i via line p hconn hline hqueue =>
    rw [Player.queueVia_eq_some hqueue]
    exact hflags.setPlayer (hflags i)
  | refuse hqueue => exact hflags
  | drop hconn => exact hflags.setPlayer (.of_idle ⟨rfl, rfl, rfl⟩)
  | register hconn hnew hvalid hunused =>
    exact hflags.setPlayer (.of_idle ⟨rfl, rfl, rfl⟩)
  | @choose i choice hreg hout hchoice => exact hflags.setPlayer (hflags i)
  | @spawn i x y hreg hout hrange hfree => exact hflags.setPlayer (hflags i)
  | @submit i choice hphase halive hnew hchoice => exact hflags.setPlayer (hflags i)
  | openLobby hreg hphase hidle => exact hflags
  | @enter i hphase hplayer hcount =>
    refine hflags.setPlayer fun hconn => ⟨fun hopen => ⟨((hflags i hconn).1 hopen).1, rfl⟩, ?_⟩
    intro hround
    rw [hphase] at hround
    cases hround
  | cancel hphase hempty => exact hflags
  | closeLobby hphase hcount htime => exact fun i => .of_phase (by simp) (by simp)
  | start hphase horder => exact fun i => .enterRound (hw.slots i)
  | finish hphase horder hwhy => exact fun i => .of_phase (by simp) (by simp)
  | applyRepicks hphase hall => exact absurd (hw.resolved hphase) hun
  | enterRepick hphase hround hresolved => exact absurd hresolved hun
  | @tick dt hphase =>
    have hchase := simulateChaseTick_chased w.state dt
    have hround : (simulateChaseTick w.state dt).1.phase = .roundActive := by
      rw [hchase.table]
      exact hphase
    intro i hconn
    obtain ⟨alive, x, y, hp⟩ := hchase.player i
    have halive := hchase.alive_of i
    rw [hround]
    rw [hp] at hconn halive ⊢
    exact ⟨nofun, fun _ ha => (hflags i hconn).2 hphase (halive ha)⟩
  | resolve hphase => exact hflags
  | pair hphase hround hresolved => exact absurd hresolved hun
  | clearRound hphase hresolved => exact absurd hresolved hun
  | reset hphase => cases he
  | resetProgress hreg hphase => cases he

/-- After `reset_match` no connected client has flags of the last match. -/
theorem resetMatch_phaseFlags {w : Server F} (hw : Inv w) (hphase : w.state.phase = .gameOver) :
    AllPhaseFlags (resetMatch w).state := by
  intro i hconn
  have hinv := hw.along (resetMatch_runs hphase)
  obtain ⟨hopen, _, hnobody⟩ := resetMatch_state w
  have hslot := hinv.slots i hconn
  have hout : ((resetMatch w).state.players i).admitted = false := by
    by_contra hadmitted
    have hadmitted' : ((resetMatch w).state.players i).admitted = true := by
      simpa using hadmitted
    have hready := hslot.ready hadmitted'
    have hbusy : ((resetMatch w).state.players i).isAdmitted = true := by
      simp [Player.isAdmitted, hconn, hready.1, hadmitted']
    rw [hnobody i] at hbusy
    cases hbusy
  have hidle : ((resetMatch w).state.players i).alive = false ∧
      ((resetMatch w).state.players i).waiting = false := by
    constructor
    · by_contra halive
      have hadmitted := hslot.lifted (.inl (by simpa using halive))
      rw [hout] at hadmitted
      cases hadmitted
    · by_contra hwait
      have hadmitted := hslot.lifted (.inr (by simpa using hwait))
      rw [hout] at hadmitted
      cases hadmitted
  exact PhaseFlags.of_idle ⟨hidle.1, hout, hidle.2⟩ hconn

/-- The loop alone never resolves a round. -/
theorem Reached.unresolved {w : Server F} (h : Reached true w) : ¬RoundsResolved w.log := by
  obtain ⟨clock, hpath⟩ := h.path
  refine (hpath.invariant (fun v => Inv v ∧ ¬RoundsResolved v.log) ?_
    ⟨Inv.init clock, by simp [RoundsResolved, Server.init]⟩).2
  rintro v e s he hstep ⟨hv, hun⟩
  refine ⟨hstep.inv hv, ?_⟩
  rintro ⟨x, hx, hevent⟩
  rcases List.mem_cons.mp hx with rfl | hx
  · rcases hevent with rfl | rfl
    · cases he rfl
    · cases hstep with
      | applyRepicks hphase hall => exact hun (hv.resolved hphase)
  · exact hun ⟨x, hx, hevent⟩

/-- Between two steps of the loop the flags agree with the phase. -/
theorem Reached.phaseFlags {w : Server F} (h : Reached true w) : AllPhaseFlags w.state := by
  have hun := h.unresolved
  have hkept := (h.between (fun v => RoundsResolved v.log ∨ AllPhaseFlags v.state)
    ?_ ?_ ?_ ?_).2
  · exact hkept.resolve_left hun
  · intro clock
    exact .inr fun i => .of_idle ⟨rfl, rfl, rfl⟩
  · intro v u hv hflags hpath
    refine (hpath.invariant
      (fun v => Inv v ∧ (RoundsResolved v.log ∨ AllPhaseFlags v.state)) ?_ ⟨hv, hflags⟩).2
    rintro a e s he hstep ⟨ha, hkept⟩
    refine ⟨hstep.inv ha, ?_⟩
    by_cases hres : RoundsResolved a.log
    · exact .inl (hres.cons _)
    · exact .inr (hstep.phaseFlags he hres ha (hkept.resolve_left hres))
  · exact fun v hv _ hphase => .inr (resetMatch_phaseFlags hv hphase)
  · intro v hloop
    cases hloop

/-- Between two steps of the loop the flags of every connected client agree with each
other and with the phase. -/
theorem flags_consistent {w : Server F} (h : Reached true w) (i : Slot)
    (hconn : (w.state.players i).connected = true) :
    ((w.state.players i).admitted = true →
        (w.state.players i).registered = true ∧ (w.state.players i).choiceChosen = true ∧
          (w.state.players i).spawnChosen = true ∧ IsChoice (w.state.players i).choice) ∧
      ((w.state.players i).alive = true → (w.state.players i).admitted = true) ∧
      ((w.state.players i).waiting = true → (w.state.players i).admitted = true) ∧
      ¬((w.state.players i).alive = true ∧ (w.state.players i).waiting = true) ∧
      (w.state.phase = .lobbyOpen → (w.state.players i).alive = false ∧
        ((w.state.players i).admitted = true ↔ (w.state.players i).waiting = true)) ∧
      (w.state.phase = .roundActive → (w.state.players i).waiting = false ∧
        ((w.state.players i).alive = true → (w.state.players i).inRound = true)) := by
  have hinv := h.inv
  have hslot := hinv.slots i hconn
  have hphase := h.phaseFlags i hconn
  refine ⟨fun hadmitted => ?_, fun ha => hslot.lifted (.inl ha),
    fun hwait => hslot.lifted (.inr hwait), hslot.apart, fun hopen => ?_, fun hround => ?_⟩
  · obtain ⟨hreg, hchoice, hspawn⟩ := hslot.ready hadmitted
    exact ⟨hreg, hchoice, hspawn, hslot.chosen hchoice⟩
  · obtain ⟨halive, hsame⟩ := hphase.1 hopen
    exact ⟨halive, by rw [hsame]⟩
  · exact ⟨hslot.started (hinv.running (.inl hround)), hphase.2 hround⟩

/-- The players of a round. -/
theorem flags_consistent_duel :
    (serverAfter (lateClock 60) duel).state.phase = .roundActive ∧
      ∀ i, ((serverAfter (lateClock 60) duel).state.players i).connected = true →
        ((serverAfter (lateClock 60) duel).state.players i).waiting = false ∧
          (((serverAfter (lateClock 60) duel).state.players i).alive = true →
            ((serverAfter (lateClock 60) duel).state.players i).inRound = true) := by
  refine ⟨duel_phase, fun i hconn => ?_⟩
  obtain ⟨_, _, _, _, _, hround⟩ := flags_consistent duel_reached i hconn
  exact hround duel_phase

/-- Registered clients have different names, each of one to 31 characters without white
space, and connected clients have different identifiers below the next one. -/
structure ToldApart (s : ServerState F) : Prop where
  /-- Names are different. -/
  name_inj : ∀ i j, (s.players i).isRegistered = true → (s.players j).isRegistered = true →
    (s.players i).name = (s.players j).name → i = j
  /-- Names are neither empty nor too long. -/
  name_length : ∀ i, (s.players i).isRegistered = true →
    1 ≤ (s.players i).name.length ∧ (s.players i).name.length ≤ 31
  /-- Names are words. -/
  name_word : ∀ i, (s.players i).isRegistered = true →
    ∀ c ∈ (s.players i).name, isSpace c = false
  /-- Identifiers are different. -/
  id_inj : ∀ i j, (s.players i).connected = true → (s.players j).connected = true →
    (s.players i).id = (s.players j).id → i = j
  /-- The next identifier is new. -/
  id_lt : ∀ i, (s.players i).connected = true → (s.players i).id < s.nextId

omit [CFloat F] in
theorem Inv.toldApart {w : Server F} (hw : Inv w) : ToldApart w.state := by
  have hnamed : ∀ i, (w.state.players i).isRegistered = true →
      ValidName (w.state.players i).name := by
    intro i hi
    obtain ⟨hconn, hreg⟩ := Player.isRegistered_iff.mp hi
    exact (hw.slots i hconn).named hreg
  refine ⟨hw.identified.name_inj, fun i hi => ?_, fun i hi c hc => ?_, hw.identified.id_inj,
    hw.identified.id_lt⟩
  · obtain ⟨hne, hlen, _⟩ := hnamed i hi
    exact ⟨List.length_pos_iff.mpr hne, Nat.le_of_lt_succ hlen⟩
  · obtain ⟨_, _, hchars⟩ := hnamed i hi
    exact (hchars c hc).1

/-- In every state of a run, also between the actions of a step, the clients are told
apart. -/
theorem clients_told_apart {loopOnly : Bool} {w : Server F} (h : Reached loopOnly w) :
    ∀ x ∈ w.log, ToldApart x.state := by
  obtain ⟨clock, hpath⟩ := h.path
  have hinit : Inv (Server.init clock : Server F) := Inv.init clock
  refine (hpath.invariant (fun v => Inv v ∧ ∀ x ∈ v.log, ToldApart x.state) ?_
    ⟨hinit, ?_⟩).2
  · rintro v e s _ hstep ⟨hv, hold⟩
    have hnext := hstep.inv hv
    refine ⟨hnext, fun x hx => ?_⟩
    rcases List.mem_cons.mp hx with rfl | hx
    · exact hnext.toldApart
    · exact hold x hx
  · intro x hx
    rcases List.mem_singleton.mp hx with rfl
    exact hinit.toldApart

/-- The two clients of a match have different names at every moment. -/
theorem clients_told_apart_duel :
    (serverAfter (lateClock 60) duel).state.phase = .roundActive ∧
      ∀ x ∈ (serverAfter (lateClock 60) duel).log, (x.state.players 0).isRegistered = true →
      (x.state.players 1).isRegistered = true →
        (x.state.players 0).name ≠ (x.state.players 1).name := by
  refine ⟨duel_phase, fun x hx hfirst hsecond hsame => ?_⟩
  have hslot := (clients_told_apart duel_reached x hx).name_inj 0 1 hfirst hsecond hsame
  cases hslot

end BattleRoyale
