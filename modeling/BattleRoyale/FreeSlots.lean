import BattleRoyale.MatchLifecycle
import BattleRoyale.Exact

/-!
# Free slots stay cleared

A slot without a client has no flag set and empty buffers, and nothing is written to
it, unless a player who joins an idle lobby has no room for the line that opens the
countdown. The broadcast then drops that player, and `maybe_admit_player` goes on with
its slot.
-/

namespace BattleRoyale

open Recorded

variable {F : Type}

/-- No flag is set and the buffers are empty. -/
structure Player.Blank (p : Player F) : Prop where
  /-- No name. -/
  registered : p.registered = false
  /-- Not admitted. -/
  admitted : p.admitted = false
  /-- Not alive. -/
  alive : p.alive = false
  /-- Not waiting. -/
  waiting : p.waiting = false
  /-- Not in the round. -/
  inRound : p.inRound = false
  /-- No type. -/
  choiceChosen : p.choiceChosen = false
  /-- No position. -/
  spawnChosen : p.spawnChosen = false
  /-- Nothing received. -/
  inbuf : p.inbuf = []
  /-- Nothing to send. -/
  outbuf : p.outbuf = []

/-- Every free slot is blank. -/
def FreeSlotsBlank (s : ServerState F) : Prop :=
  ∀ i, (s.players i).connected = false → (s.players i).Blank

/-- The event is a write of a handler to the slot. -/
def Event.writesTo (i : Slot) : Event F → Bool
  | .accepted j => i == j
  | .received j _ => i == j
  | .popped j _ => i == j
  | .flushed j _ => i == j
  | .queued j _ _ => i == j
  | .registered j => i == j
  | .chose j => i == j
  | .spawned j => i == j
  | .repicked j => i == j
  | .admitted j => i == j
  | .progressReset j => i == j
  | _ => false

/-- Free slots are blank in the entry, and the entry is no write to a free slot. -/
def EntryBlank (x : Entry (ServerState F) (Event F)) : Prop :=
  FreeSlotsBlank x.state ∧ ∀ i, x.event.writesTo i = true → (x.state.players i).connected = true

/-- Writing to a slot that is in use. -/
theorem FreeSlotsBlank.setPlayer {s : ServerState F} (h : FreeSlotsBlank s) {i : Slot}
    {p : Player F} (hp : p.connected = true ∨ p.Blank) : FreeSlotsBlank (s.setPlayer i p) := by
  intro j hj
  by_cases hji : j = i
  · subst hji
    rw [ServerState.setPlayer_self] at hj ⊢
    exact hp.resolve_left (by simp [hj])
  · rw [ServerState.setPlayer_of_ne _ _ hji] at hj ⊢
    exact h j hj

/-- The only slot that was written to is in use. -/
theorem connected_of_write {s : ServerState F} {p : Player F} {i j : Slot}
    (hp : p.connected = true) (hij : (i == j) = true) :
    ((s.setPlayer j p).players i).connected = true := by
  rw [beq_iff_eq.mp hij, ServerState.setPlayer_self]
  exact hp

/-- `start_round` leaves blank slots blank. -/
theorem Player.Blank.enterRound {p : Player F} (h : p.Blank) : p.enterRound.Blank := by
  unfold Player.enterRound
  simp only
  split
  · rename_i hin
    simp [Player.isAdmitted, h.admitted] at hin
  · exact ⟨h.registered, h.admitted, h.alive, h.waiting, rfl, h.choiceChosen, h.spawnChosen,
      h.inbuf, h.outbuf⟩

variable [CFloat F]

/-- A cleared slot is blank. -/
theorem Player.cleared_blank : (Player.cleared : Player F).Blank :=
  ⟨rfl, rfl, rfl, rfl, rfl, rfl, rfl, rfl, rfl⟩

/-- No action of the loop touches a free slot, unless a joining player was dropped by the
broadcast that opens the countdown. -/
theorem Action.entryBlank {w : Server F} {e : Event F} {s : ServerState F} (h : Action w e s)
    (hun : ¬RoundsResolved w.log) (hroom : ∀ i, ¬JoinerFullAtOpening i w.log)
    (hblank : FreeSlotsBlank w.state) : EntryBlank ⟨e, s⟩ := by
  cases h with
  | @accept i fd hfree =>
    have hset : FreeSlotsBlank (w.state.setPlayer i (initPlayerSlot fd w.state.nextId)) :=
      hblank.setPlayer (.inl rfl)
    have hwrite : ∀ j, (j == i) = true →
        ((w.state.setPlayer i (initPlayerSlot fd w.state.nextId)).players j).connected = true :=
      fun j hj => connected_of_write rfl hj
    exact ⟨hset, hwrite⟩
  | receive hconn => exact ⟨hblank.setPlayer (.inl hconn), fun j hj => connected_of_write hconn hj⟩
  | pop hconn => exact ⟨hblank.setPlayer (.inl hconn), fun j hj => connected_of_write hconn hj⟩
  | flush hconn => exact ⟨hblank.setPlayer (.inl hconn), fun j hj => connected_of_write hconn hj⟩
  | queue hconn hline hqueue =>
    have hconn' := hconn.resolve_right fun hfull => hroom _ hfull.2
    rw [Player.queueVia_eq_some hqueue]
    exact ⟨hblank.setPlayer (.inl hconn'), fun j hj => connected_of_write hconn' hj⟩
  | refuse hqueue => exact ⟨hblank, fun _ hj => by cases hj⟩
  | drop hconn => exact ⟨hblank.setPlayer (.inr Player.cleared_blank), fun _ hj => by cases hj⟩
  | register hconn hnew hvalid hunused =>
    exact ⟨hblank.setPlayer (.inl hconn), fun j hj => connected_of_write hconn hj⟩
  | choose hreg hout hchoice =>
    have hconn := Player.connected_of_isRegistered hreg
    exact ⟨hblank.setPlayer (.inl hconn), fun j hj => connected_of_write hconn hj⟩
  | spawn hreg hout hrange hfree =>
    have hconn := Player.connected_of_isRegistered hreg
    exact ⟨hblank.setPlayer (.inl hconn), fun j hj => connected_of_write hconn hj⟩
  | submit hphase halive hnew hchoice =>
    have hconn := Player.connected_of_isAdmitted (Player.isAdmitted_of_isAlive halive)
    exact ⟨hblank.setPlayer (.inl hconn), fun j hj => connected_of_write hconn hj⟩
  | enter hphase hplayer hcount =>
    rcases hplayer with ⟨hreg, _⟩ | ⟨_, hfull⟩
    · have hconn := Player.connected_of_isRegistered hreg
      exact ⟨hblank.setPlayer (.inl hconn), fun j hj => connected_of_write hconn hj⟩
    · exact absurd hfull (hroom _)
  | start hphase horder =>
    refine ⟨fun j hj => ?_, fun _ hj => by cases hj⟩
    have hfree : (w.state.players j).connected = false := by
      rw [← Player.enterRound_connected]
      exact hj
    exact (hblank j hfree).enterRound
  | applyRepicks hphase hall =>
    refine ⟨fun j hj => ?_, fun _ hj => by cases hj⟩
    simp only [Player.applyRepick] at hj ⊢
    split at hj
    · rename_i halive
      rw [Player.connected_of_isAdmitted (Player.isAdmitted_of_isAlive halive)] at hj
      cases hj
    · rename_i halive
      rw [if_neg halive]
      exact hblank j hj
  | @tick dt hphase =>
    refine ⟨fun j hj => ?_, fun _ hj => by cases hj⟩
    have hchase := simulateChaseTick_chased w.state dt
    obtain ⟨alive, x, y, hp⟩ := hchase.player j
    have halive := hchase.alive_of j
    simp only at hj
    rw [hp] at hj halive ⊢
    have hold := hblank j hj
    refine ⟨hold.registered, hold.admitted, ?_, hold.waiting, hold.inRound, hold.choiceChosen,
      hold.spawnChosen, hold.inbuf, hold.outbuf⟩
    cases hnew : alive with
    | false => rfl
    | true =>
      have hwas := halive hnew
      rw [hold.alive] at hwas
      cases hwas
  | enterRepick hphase hround hresolved => exact absurd hresolved hun
  | pair hphase hround hresolved => exact absurd hresolved hun
  | clearRound hphase hresolved => exact absurd hresolved hun
  | resetProgress hreg hphase =>
    have hconn := Player.connected_of_isRegistered hreg
    exact ⟨hblank.setPlayer (.inl hconn), fun j hj => connected_of_write hconn hj⟩
  | _ => exact ⟨hblank, fun _ hj => by cases hj⟩

/-- The start of the server is blank. -/
theorem initServerState_blank : FreeSlotsBlank (initServerState : ServerState F) :=
  fun _ _ => ⟨rfl, rfl, rfl, rfl, rfl, rfl, rfl, rfl, rfl⟩

/-- In every run of the loop in which each player who opens the countdown has room for
the line that announces it, at every recorded moment, free slots are blank and no
handler writes to one. -/
theorem free_slots_cleared {w : Server F} (h : Reached true w)
    (hroom : ∀ i, ¬JoinerFullAtOpening i w.log) : ∀ x ∈ w.log, EntryBlank x := by
  obtain ⟨clock, hpath⟩ := h.path
  refine (hpath.invariant_of_log
    (fun v => Inv v ∧ ¬RoundsResolved v.log ∧ FreeSlotsBlank v.state ∧ ∀ x ∈ v.log, EntryBlank x)
    (fun log => ∀ i, ¬JoinerFullAtOpening i log) ?_ ?_ hroom ?_).2.2.2
  · exact fun x log hall i ⟨y, hy, hfull⟩ => hall i ⟨y, List.mem_cons_of_mem _ hy, hfull⟩
  · rintro v e s he hstep hfull ⟨hinv, hun, hblank, hold⟩
    have hentry := hstep.entryBlank hun
      (fun i ⟨y, hy, hf⟩ => hfull i ⟨y, List.mem_cons_of_mem _ hy, hf⟩) hblank
    refine ⟨hstep.inv hinv, hstep.unresolved (he rfl) hinv hun, hentry.1, fun x hx => ?_⟩
    rcases List.mem_cons.mp hx with rfl | hx
    · exact hentry
    · exact hold x hx
  · refine ⟨Inv.init clock, (Orderly.init clock).unresolved, initServerState_blank, fun x hx => ?_⟩
    rw [List.mem_singleton.mp hx]
    exact ⟨initServerState_blank, nofun⟩

/-- In the match of two players no free slot is written to. -/
theorem free_slots_cleared_duel : (serverAfter (lateClock 60) duel).state.phase = .roundActive ∧
    ∀ x ∈ (serverAfter (lateClock 60) duel).log, EntryBlank x :=
  ⟨duel_phase, free_slots_cleared duel_reached duel_state.2.2.2.2.2⟩

/-- A player joins an idle lobby with 19 bytes of room, two after the acknowledgement. -/
def joinOfFullClient : List Step :=
  .accept 3 :: (say 0 "HELLO A" ++ say 0 "CHOICE R" ++
    ((List.replicate 9 (flood 0 32 "REMATCH")).flatten ++ say 0 "SPAWN 2 2"))

theorem joinOfFullClient_slot :
    ((serverAfter (fun _ => 1) joinOfFullClient).state.players 0).connected = false ∧
      ((serverAfter (fun _ => 1) joinOfFullClient).state.players 0).admitted = true ∧
      ((serverAfter (fun _ => 1) joinOfFullClient).state.players 0).waiting = true ∧
      ((serverAfter (fun _ => 1) joinOfFullClient).state.players 0).outbuf.length = 13 := by
  decide +kernel

/-- Its slot is free then, and marked as admitted. -/
theorem free_slot_admitted :
    Reached true (serverAfter (fun _ => 1) joinOfFullClient) ∧
      ¬FreeSlotsBlank (serverAfter (fun _ => 1) joinOfFullClient).state := by
  refine ⟨reached_serverAfter _ (by simp [joinOfFullClient, Step.inLoop]), fun h => ?_⟩
  obtain ⟨hfree, hadmitted, _⟩ := joinOfFullClient_slot
  rw [(h 0 hfree).admitted] at hadmitted
  cases hadmitted

end BattleRoyale
