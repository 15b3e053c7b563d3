import BattleRoyale.Actions
import BattleRoyale.ChaseEffects

/-!
# Invariants of the abstract server

What every action keeps, and so every run of the server, at each of its recorded
states. The flags of a connected slot are consistent, identifiers and names are
unique, the round number follows the phase, and the announcements of a match do
not outnumber the executions that they announce.
-/

namespace BattleRoyale

open Recorded

variable {F : Type}

/-- The consistency of one connected slot, in a match that has started `roundNo`
rounds. -/
structure SlotOk (roundNo : ℕ) (p : Player F) : Prop where
  /-- Admission needs a name, a type and a position. -/
  ready : p.admitted = true →
    p.registered = true ∧ p.choiceChosen = true ∧ p.spawnChosen = true
  /-- An accepted type is rock, paper or scissors. -/
  chosen : p.choiceChosen = true → IsChoice p.choice
  /-- So is an accepted repick. -/
  repicked : p.repickSubmitted = true → IsChoice p.repickChoice
  /-- Who is alive or waiting is admitted. -/
  lifted : p.alive = true ∨ p.waiting = true → p.admitted = true
  /-- Nobody is alive and waiting. -/
  apart : ¬(p.alive = true ∧ p.waiting = true)
  /-- Nobody waits in a match with a round. -/
  started : roundNo ≠ 0 → p.waiting = false
  /-- An accepted name is well formed. -/
  named : p.registered = true → ValidName p.name

/-- The consistency of one slot: nothing is said about a free one. -/
def SlotInv (roundNo : ℕ) (p : Player F) : Prop := p.connected = true → SlotOk roundNo p

/-- The parts of a slot that identify its client. -/
def Player.card (p : Player F) : Bool × Bool × ℕ × List Char :=
  (p.connected, p.registered, p.id, p.name)

/-- Identifiers and names are unique. -/
structure Identified (s : ServerState F) : Prop where
  /-- The next identifier is new. -/
  id_lt : ∀ i, (s.players i).connected = true → (s.players i).id < s.nextId
  /-- Clients have different identifiers. -/
  id_inj : ∀ i j, (s.players i).connected = true → (s.players j).connected = true →
    (s.players i).id = (s.players j).id → i = j
  /-- Registered clients have different names. -/
  name_inj : ∀ i j, (s.players i).isRegistered = true → (s.players j).isRegistered = true →
    (s.players i).name = (s.players j).name → i = j

/-- What every recorded state of the server satisfies, together with its record. -/
structure Inv (w : Server F) : Prop where
  /-- The record starts with the current state. -/
  current : Current w
  /-- Connected slots are consistent. -/
  slots : ∀ i, SlotInv w.state.roundNo (w.state.players i)
  /-- Clients are told apart. -/
  identified : Identified w.state
  /-- No round has started before the match. -/
  idle : w.state.phase = .lobbyOpen ∨ w.state.phase = .setup → w.state.roundNo = 0
  /-- A round has started in the phases of a running match. -/
  running : w.state.phase = .roundActive ∨ w.state.phase = .repick → w.state.roundNo ≠ 0
  /-- Only a resolved round leads to a repick. -/
  resolved : w.state.phase = .repick → RoundsResolved w.log
  /-- Rounds are announced at most as often as they start. -/
  roundLines_le : ∀ i, roundLines i w.log ≤ roundStarts w.log
  /-- Results are announced at most as often as the match ends. -/
  verdictLines_le : ∀ i, verdictLines i w.log ≤ gameEnds w.log

/-- The consistency of a slot depends on its flags and texts only. -/
theorem SlotInv.buffers {roundNo : ℕ} {p : Player F} (h : SlotInv roundNo p)
    (inbuf outbuf : List Char) : SlotInv roundNo { p with inbuf := inbuf, outbuf := outbuf } :=
  fun hc => ⟨(h hc).ready, (h hc).chosen, (h hc).repicked, (h hc).lifted, (h hc).apart,
    (h hc).started, (h hc).named⟩

/-- Replacing one entry by a consistent one. -/
theorem slotInv_setPlayer {s : ServerState F} {roundNo : ℕ} {i : Slot} {p : Player F}
    (h : ∀ j, SlotInv roundNo (s.players j)) (hp : SlotInv roundNo p) (j : Slot) :
    SlotInv roundNo ((s.setPlayer i p).players j) := by
  by_cases hj : j = i
  · subst hj
    rwa [ServerState.setPlayer_self]
  · rw [ServerState.setPlayer_of_ne _ _ hj]
    exact h j

/-- Clients that keep their identity stay told apart. -/
theorem Identified.of_card {s t : ServerState F} (h : Identified s)
    (hcard : ∀ i, (t.players i).connected = true → (t.players i).card = (s.players i).card)
    (hnext : t.nextId = s.nextId) : Identified t := by
  have hconn : ∀ i, (t.players i).connected = true → (s.players i).connected = true ∧
      (t.players i).id = (s.players i).id := by
    intro i hi
    have hc := hcard i hi
    simp only [Player.card, Prod.mk.injEq] at hc
    exact ⟨hc.1 ▸ hi, hc.2.2.1⟩
  have hreg : ∀ i, (t.players i).isRegistered = true → (s.players i).isRegistered = true ∧
      (t.players i).name = (s.players i).name := by
    intro i hi
    simp only [Player.isRegistered, Bool.and_eq_true] at hi ⊢
    have hc := hcard i hi.1
    simp only [Player.card, Prod.mk.injEq] at hc
    exact ⟨⟨hc.1 ▸ hi.1, hc.2.1 ▸ hi.2⟩, hc.2.2.2⟩
  constructor
  · intro i hi
    rw [hnext, (hconn i hi).2]
    exact h.id_lt i (hconn i hi).1
  · intro i j hi hj hid
    rw [(hconn i hi).2, (hconn j hj).2] at hid
    exact h.id_inj i j (hconn i hi).1 (hconn j hj).1 hid
  · intro i j hi hj hname
    rw [(hreg i hi).2, (hreg j hj).2] at hname
    exact h.name_inj i j (hreg i hi).1 (hreg j hj).1 hname

/-- Replacing one entry by one with the same identity, or by a free one. -/
theorem Identified.setPlayer {s : ServerState F} (h : Identified s) {i : Slot} {p : Player F}
    (hp : p.connected = true → p.card = (s.players i).card) : Identified (s.setPlayer i p) := by
  refine h.of_card ?_ rfl
  intro j hj
  by_cases hji : j = i
  · subst hji
    rw [ServerState.setPlayer_self] at hj ⊢
    exact hp hj
  · rw [ServerState.setPlayer_of_ne _ _ hji]

/-- A new connection gets a new identifier. -/
theorem Identified.accept [CFloat F] {s : ServerState F} (h : Identified s) {i : Slot} {fd : ℤ} :
    Identified { s.setPlayer i (initPlayerSlot fd s.nextId) with nextId := s.nextId + 1 } := by
  have hold : ∀ j, j ≠ i → (s.setPlayer i (initPlayerSlot fd s.nextId)).players j =
      s.players j := fun j hj => ServerState.setPlayer_of_ne _ _ hj
  have hid : (initPlayerSlot fd s.nextId : Player F).id = s.nextId := rfl
  constructor
  · intro j hj
    by_cases hji : j = i
    · subst hji
      simp [initPlayerSlot]
    · simp only [hold j hji] at hj ⊢
      have hlt := h.id_lt j hj
      omega
  · intro j k hj hk heq
    by_cases hji : j = i <;> by_cases hki : k = i
    · rw [hji, hki]
    · subst hji
      simp only [hold k hki, ServerState.setPlayer_self, hid] at hk heq
      have hlt := h.id_lt k hk
      omega
    · subst hki
      simp only [hold j hji, ServerState.setPlayer_self, hid] at hj heq
      have hlt := h.id_lt j hj
      omega
    · simp only [hold j hji, hold k hki] at hj hk heq
      exact h.id_inj j k hj hk heq
  · intro j k hj hk hname
    have hfree : (initPlayerSlot fd s.nextId : Player F).isRegistered = false := rfl
    by_cases hji : j = i
    · subst hji
      simp only [ServerState.setPlayer_self, hfree, Bool.false_eq_true] at hj
    · by_cases hki : k = i
      · subst hki
        simp only [ServerState.setPlayer_self, hfree, Bool.false_eq_true] at hk
      · simp only [hold j hji, hold k hki] at hj hk hname
        exact h.name_inj j k hj hk hname

/-- A name that nobody has keeps the names different. -/
theorem Identified.register [CFloat F] {s : ServerState F} (h : Identified s) {i : Slot}
    {name : List Char} (hunused : findName s name = none) :
    Identified (s.setPlayer i
      { (s.players i).resetProgress with name := name, registered := true }) := by
  have hold : ∀ (p : Player F) j, j ≠ i → (s.setPlayer i p).players j = s.players j :=
    fun p j hj => ServerState.setPlayer_of_ne _ _ hj
  have hfresh : ∀ j, (s.players j).isRegistered = true → (s.players j).name ≠ name := by
    intro j hj hname
    have hnone := List.find?_eq_none.mp hunused j (mem_slots j)
    simp [hj, hname] at hnone
  constructor
  · intro j hj
    by_cases hji : j = i
    · subst hji
      simp only [ServerState.setPlayer_self, Player.resetProgress] at hj ⊢
      exact h.id_lt j hj
    · simp only [hold _ j hji] at hj ⊢
      exact h.id_lt j hj
  · have hcard : ∀ j, ((s.setPlayer i
        { (s.players i).resetProgress with name := name, registered := true }).players j).connected
          = (s.players j).connected ∧ ((s.setPlayer i
        { (s.players i).resetProgress with name := name, registered := true }).players j).id
          = (s.players j).id := by
      intro j
      by_cases hji : j = i
      · subst hji
        simp [Player.resetProgress]
      · simp [hold _ j hji]
    intro j k hj hk hid
    rw [(hcard j).1] at hj
    rw [(hcard k).1] at hk
    rw [(hcard j).2, (hcard k).2] at hid
    exact h.id_inj j k hj hk hid
  · intro j k hj hk hname
    by_cases hji : j = i <;> by_cases hki : k = i
    · rw [hji, hki]
    · subst hji
      simp only [hold _ k hki, ServerState.setPlayer_self] at hk hname
      exact absurd hname.symm (hfresh k hk)
    · subst hki
      simp only [hold _ j hji, ServerState.setPlayer_self] at hj hname
      exact absurd hname (hfresh j hj)
    · simp only [hold _ j hji, hold _ k hki] at hj hk hname
      exact h.name_inj j k hj hk hname

/-- Announcements stay below the executions when each new one had room. -/
theorem roundLines_cons_le {i : Slot} (log : Log F) {e : Event F} {s : ServerState F}
    (h : roundLines i log ≤ roundStarts log)
    (he : e.isRoundLine i = true → roundLines i log < roundStarts log) :
    roundLines i (⟨e, s⟩ :: log) ≤ roundStarts (⟨e, s⟩ :: log) := by
  unfold roundLines roundStarts at *
  cases hreset : e.isReset with
  | true => rw [countSince_cons_stop hreset, countSince_cons_stop hreset]
  | false =>
    rw [countSince_cons hreset, countSince_cons hreset]
    cases hline : e.isRoundLine i with
    | false =>
      simp only [Bool.false_eq_true, if_false]
      split <;> omega
    | true =>
      have hlt := he hline
      simp only [if_true]
      split <;> omega

/-- The same for the results of a match. -/
theorem verdictLines_cons_le {i : Slot} (log : Log F) {e : Event F} {s : ServerState F}
    (h : verdictLines i log ≤ gameEnds log)
    (he : e.isVerdictLine i = true → verdictLines i log < gameEnds log) :
    verdictLines i (⟨e, s⟩ :: log) ≤ gameEnds (⟨e, s⟩ :: log) := by
  unfold verdictLines gameEnds at *
  cases hreset : e.isReset with
  | true => rw [countSince_cons_stop hreset, countSince_cons_stop hreset]
  | false =>
    rw [countSince_cons hreset, countSince_cons hreset]
    cases hline : e.isVerdictLine i with
    | false =>
      simp only [Bool.false_eq_true, if_false]
      split <;> omega
    | true =>
      have hlt := he hline
      simp only [if_true]
      split <;> omega

/-- `start_round` keeps the connections. -/
theorem Player.enterRound_connected (p : Player F) : p.enterRound.connected = p.connected := by
  unfold enterRound
  simp only
  split <;> rfl

/-- What `start_round` does to a consistent slot. -/
theorem SlotInv.enterRound {roundNo : ℕ} {p : Player F} (h : SlotInv roundNo p) (n : ℕ) :
    SlotInv n p.enterRound := by
  intro hc
  have hcp : p.connected = true := p.enterRound_connected.symm.trans hc
  have hp := h hcp
  unfold Player.enterRound
  simp only
  split
  · rename_i hin
    simp only [Player.isAdmitted, Bool.and_eq_true] at hin
    exact ⟨hp.ready, hp.chosen, by simp, fun _ => hin.1.2, by simp, by simp, hp.named⟩
  · rename_i hin
    have hwait : p.waiting = false := by
      by_contra hw
      have hw' : p.waiting = true := by simpa using hw
      have hadm := hp.lifted (Or.inr hw')
      have hreg := (hp.ready hadm).1
      exact hin (by simp [Player.isAdmitted, hcp, hreg, hadm, hw'])
    exact ⟨hp.ready, hp.chosen, by simp, hp.lifted, hp.apart, fun _ => hwait, hp.named⟩

/-- What `finish_repicks` does to a consistent slot that has submitted if it is alive. -/
theorem SlotInv.applyRepick {roundNo : ℕ} {p : Player F} (h : SlotInv roundNo p)
    (hsub : p.isAlive = true → p.repickSubmitted = true) : SlotInv roundNo p.applyRepick := by
  unfold Player.applyRepick
  split
  · rename_i halive
    exact fun hc => ⟨(h hc).ready, fun _ => (h hc).repicked (hsub halive), by simp,
      (h hc).lifted, (h hc).apart, (h hc).started, (h hc).named⟩
  · exact h

variable [CFloat F]

/-- A `ROUND_START` line is queued only when a start is still to be announced. -/
theorem Action.roundLine {w : Server F} {e : Event F} {s : ServerState F} (h : Action w e s)
    {i : Slot} (he : e.isRoundLine i = true) : roundLines i w.log < roundStarts w.log := by
  cases h with
  | @queue j via line p _ hline _ =>
    cases via <;> cases line <;> simp only [Event.isRoundLine, Bool.false_eq_true] at he
    simp only [beq_iff_eq] at he
    subst he
    exact hline
  | _ => simp [Event.isRoundLine] at he

/-- A result line of `end_game` is queued only when an end is still to be announced. -/
theorem Action.verdictLine {w : Server F} {e : Event F} {s : ServerState F} (h : Action w e s)
    {i : Slot} (he : e.isVerdictLine i = true) : verdictLines i w.log < gameEnds w.log := by
  cases h with
  | @queue j via line p _ hline _ =>
    cases via <;> cases line <;> simp only [Event.isVerdictLine, Bool.false_eq_true] at he
    simp only [beq_iff_eq] at he
    subst he
    exact hline.2.2
  | _ => simp [Event.isVerdictLine] at he

/-- The consistency of slots is kept by every action. -/
theorem Action.slots {w : Server F} {e : Event F} {s : ServerState F} (h : Action w e s)
    (hw : Inv w) : ∀ i, SlotInv s.roundNo (s.players i) := by
  have hs := hw.slots
  cases h with
  | accept hfree =>
    exact slotInv_setPlayer hs fun _ => by
      constructor <;> simp [initPlayerSlot, Player.zero]
  | receive hconn => exact slotInv_setPlayer hs ((hs _).buffers _ _)
  | pop hconn => exact slotInv_setPlayer hs ((hs _).buffers _ _)
  | flush hconn => exact slotInv_setPlayer hs ((hs _).buffers _ _)
  | queue hconn hline hqueue =>
    rw [Player.queueVia_eq_some hqueue]
    exact slotInv_setPlayer hs ((hs _).buffers _ _)
  | refuse hqueue => exact hs
  | drop hconn => exact slotInv_setPlayer hs fun hc => by simp [Player.cleared, Player.zero] at hc
  | register hconn hnew hvalid hunused =>
    refine slotInv_setPlayer hs fun _ => ?_
    constructor <;> simp [Player.resetProgress, hvalid]
  | @choose i choice hreg hout hchoice =>
    refine slotInv_setPlayer hs fun hc => ?_
    have hp := hs i hc
    exact ⟨by simp [hout], fun _ => hchoice, hp.repicked, hp.lifted, hp.apart, hp.started,
      hp.named⟩
  | @spawn i x y hreg hout hrange hfree =>
    refine slotInv_setPlayer hs fun hc => ?_
    have hp := hs i hc
    exact ⟨by simp [hout], hp.chosen, hp.repicked, hp.lifted, hp.apart, hp.started, hp.named⟩
  | @submit i choice hphase halive hnew hchoice =>
    refine slotInv_setPlayer hs fun hc => ?_
    have hp := hs i hc
    exact ⟨hp.ready, hp.chosen, fun _ => hchoice, hp.lifted, hp.apart, hp.started, hp.named⟩
  | openLobby hreg hphase hidle => exact hs
  | @enter i hphase hplayer hcount =>
    refine slotInv_setPlayer hs fun hc => ?_
    have hp := hs i hc
    rcases hplayer with ⟨hreg, hout, hch, hsp, _⟩ | ⟨hgone, _⟩
    · have halive : (w.state.players i).alive = false := by
        by_contra ha
        have hadm := hp.lifted (Or.inl (by simpa using ha))
        simp [hout] at hadm
      have hround := hw.idle (Or.inl hphase)
      simp only [Player.isRegistered, Bool.and_eq_true] at hreg
      exact ⟨fun _ => ⟨hreg.2, hch, hsp⟩, hp.chosen, hp.repicked, fun _ => rfl, by simp [halive],
        fun hne => absurd hround hne, hp.named⟩
    · simp [hgone] at hc
  | cancel hphase hempty => exact hs
  | closeLobby hphase hcount htime => exact hs
  | start hphase horder => exact fun i => (hs i).enterRound _
  | finish hphase horder hwhy => exact hs
  | applyRepicks hphase hall =>
    refine fun i => (hs i).applyRepick fun halive => ?_
    simp only [allAliveRepicked, Bool.and_eq_true, List.all_eq_true] at hall
    simpa [halive] using hall.1 i (mem_slots i)
  | enterRepick hphase hround hresolved =>
    exact fun i hc => ⟨(hs i hc).ready, (hs i hc).chosen, by simp [Player.clearRepick],
      (hs i hc).lifted, (hs i hc).apart, (hs i hc).started, (hs i hc).named⟩
  | @tick dt hphase =>
    have hchase := simulateChaseTick_chased w.state dt
    intro i hc
    have hround : (simulateChaseTick w.state dt).1.roundNo = w.state.roundNo := by
      rw [hchase.table]
    obtain ⟨alive, x, y, hp⟩ := hchase.player i
    have halive := hchase.alive_of i
    rw [hround]
    rw [hp] at hc halive ⊢
    have hold := hs i hc
    exact ⟨hold.ready, hold.chosen, hold.repicked, fun h => hold.lifted (h.imp_left halive),
      fun h => hold.apart ⟨halive h.1, h.2⟩, hold.started, hold.named⟩
  | resolve hphase => exact hs
  | @pair a b x y hphase hround hresolved =>
    have hmoved : ∀ j, SlotInv w.state.roundNo
        ((w.state.setPlayer a { w.state.players a with x := x, y := y }).players j) :=
      slotInv_setPlayer hs fun hc => ⟨(hs a hc).ready, (hs a hc).chosen, (hs a hc).repicked,
        (hs a hc).lifted, (hs a hc).apart, (hs a hc).started, (hs a hc).named⟩
    refine slotInv_setPlayer hmoved fun hc => ?_
    have hp := hmoved b hc
    exact ⟨hp.ready, hp.chosen, hp.repicked, fun h => hp.lifted (Or.inr (by simpa using h)),
      by simp, hp.started, hp.named⟩
  | clearRound hphase hresolved =>
    exact fun i hc => ⟨(hs i hc).ready, (hs i hc).chosen, (hs i hc).repicked, (hs i hc).lifted,
      (hs i hc).apart, (hs i hc).started, (hs i hc).named⟩
  | reset hphase =>
    exact fun i hc => ⟨(hs i hc).ready, (hs i hc).chosen, (hs i hc).repicked, (hs i hc).lifted,
      (hs i hc).apart, by simp, (hs i hc).named⟩
  | @resetProgress i hreg hphase =>
    refine slotInv_setPlayer hs fun hc => ?_
    have hp := hs i hc
    exact ⟨by simp [Player.resetProgress], by simp [Player.resetProgress],
      by simp [Player.resetProgress], by simp [Player.resetProgress],
      by simp [Player.resetProgress], by simp [Player.resetProgress], hp.named⟩

/-- Identifiers and names stay unique. -/
theorem Action.identified {w : Server F} {e : Event F} {s : ServerState F} (h : Action w e s)
    (hw : Identified w.state) : Identified s := by
  cases h with
  | accept hfree => exact hw.accept
  | register hconn hnew hvalid hunused => exact hw.register hunused
  | queue hconn hline hqueue =>
    rw [Player.queueVia_eq_some hqueue]
    exact hw.setPlayer fun _ => rfl
  | drop hconn => exact hw.setPlayer fun hc => by simp [Player.cleared, Player.zero] at hc
  | refuse hqueue => exact hw
  | openLobby hreg hphase hidle => exact ⟨hw.id_lt, hw.id_inj, hw.name_inj⟩
  | cancel hphase hempty => exact ⟨hw.id_lt, hw.id_inj, hw.name_inj⟩
  | closeLobby hphase hcount htime => exact ⟨hw.id_lt, hw.id_inj, hw.name_inj⟩
  | finish hphase horder hwhy => exact ⟨hw.id_lt, hw.id_inj, hw.name_inj⟩
  | reset hphase => exact ⟨hw.id_lt, hw.id_inj, hw.name_inj⟩
  | resolve hphase => exact hw
  | start hphase horder =>
    refine hw.of_card (fun i _ => ?_) rfl
    simp only [startRound, Player.enterRound]
    split <;> rfl
  | applyRepicks hphase hall =>
    refine hw.of_card (fun i _ => ?_) rfl
    simp only [Player.applyRepick]
    split <;> rfl
  | enterRepick hphase hround hresolved => exact hw.of_card (fun i _ => rfl) rfl
  | clearRound hphase hresolved => exact hw.of_card (fun i _ => rfl) rfl
  | tick hphase =>
    have hchase := simulateChaseTick_chased w.state
    refine hw.of_card (fun i _ => ?_) ?_
    · obtain ⟨alive, x, y, hp⟩ := (hchase _).player i
      rw [hp]
      rfl
    · rw [(hchase _).table]
  | @pair a b x y hphase hround hresolved =>
    have hmoved : Identified (w.state.setPlayer a { w.state.players a with x := x, y := y }) :=
      hw.setPlayer fun _ => rfl
    exact hmoved.setPlayer fun _ => rfl
  | resetProgress hreg hphase => exact hw.setPlayer fun _ => rfl
  | _ => exact hw.setPlayer fun _ => rfl

/-- The invariants hold at the start. -/
theorem Inv.init (clock : ℕ → ℤ) : Inv (Server.init clock : Server F) where
  current := ⟨.started, [], rfl⟩
  slots i hc := by simp [Server.init, initServerState, Player.zero] at hc
  identified := by
    constructor <;> simp [Server.init, initServerState, Player.zero, Player.isRegistered]
  idle _ := rfl
  running h := by simp [Server.init, initServerState] at h
  resolved h := by simp [Server.init, initServerState] at h
  roundLines_le i := roundLines_cons_le []
    (by simp [roundLines, countSince, since]) (by simp [Event.isRoundLine])
  verdictLines_le i := verdictLines_cons_le []
    (by simp [verdictLines, countSince, since]) (by simp [Event.isVerdictLine])

/-- The phases after an action, as far as the round number is concerned. -/
theorem Action.rounds {w : Server F} {e : Event F} {s : ServerState F} (h : Action w e s)
    (hw : Inv w) :
    (s.phase = .lobbyOpen ∨ s.phase = .setup → s.roundNo = 0) ∧
      (s.phase = .roundActive ∨ s.phase = .repick → s.roundNo ≠ 0) ∧
      (s.phase = .repick → RoundsResolved w.log) := by
  have hidle := hw.idle
  have hrunning := hw.running
  have hresolved := hw.resolved
  cases h with
  | start hphase horder =>
    exact ⟨by simp [startRound], by simp [startRound], by simp [startRound]⟩
  | closeLobby hphase hcount htime => exact ⟨fun _ => hidle (Or.inl hphase), by simp, by simp⟩
  | finish hphase horder hwhy => exact ⟨by simp, by simp, by simp⟩
  | enterRepick hphase hround hres => exact ⟨by simp, fun _ => hround, fun _ => hres⟩
  | reset hphase => exact ⟨by simp, by simp, by simp⟩
  | tick hphase =>
    rw [(simulateChaseTick_chased w.state _).table]
    exact ⟨hidle, hrunning, hresolved⟩
  | _ => exact ⟨hidle, hrunning, hresolved⟩

/-- Every action keeps the invariants. -/
theorem Action.inv {w : Server F} {e : Event F} {s : ServerState F} (h : Action w e s)
    (hw : Inv w) : Inv (w.record e s) where
  current := current_record ..
  slots := h.slots hw
  identified := h.identified hw.identified
  idle := (h.rounds hw).1
  running := (h.rounds hw).2.1
  resolved hs := by
    obtain ⟨x, hx, he⟩ := (h.rounds hw).2.2 hs
    exact ⟨x, List.mem_cons_of_mem _ hx, he⟩
  roundLines_le i := roundLines_cons_le _ (hw.roundLines_le i) h.roundLine
  verdictLines_le i := verdictLines_cons_le _ (hw.verdictLines_le i) h.verdictLine

end BattleRoyale
