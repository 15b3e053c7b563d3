import BattleRoyale.StepRefinement
import BattleRoyale.Exact

/-!
# Spawn tiles in the open lobby

While the lobby is open, admitted players stand in different grid tiles, as long as no
player is admitted after a command that did not see an occupant of its tile: CHOICE does
not look at tiles at all, and SPAWN does not see an occupant that stands off the grid
points. The players that wait for the first round are told apart at every moment, the
admitted players of an open lobby between the steps.
-/

namespace BattleRoyale

open Recorded

variable {F : Type}

/-- The player is admitted and waits for the first round. -/
def Player.isWaiting (p : Player F) : Bool := p.isAdmitted && p.waiting

theorem Player.isWaiting_iff {p : Player F} :
    p.isWaiting = true ↔ p.isAdmitted = true ∧ p.waiting = true := by
  simp [isWaiting]

variable [CFloat F]

/-- Players that satisfy a test stand in different tiles. -/
def TilesApart (test : Player F → Bool) (s : ServerState F) : Prop :=
  ∀ i j, i ≠ j → test (s.players i) = true → test (s.players j) = true →
    (s.players i).tile ≠ (s.players j).tile

/-- Tiles stay apart when each player of the test passed it before in the same tile. -/
theorem TilesApart.of_kept {test : Player F → Bool} {s t : ServerState F}
    (h : TilesApart test s) (hkept : ∀ i, test (t.players i) = true →
      test (s.players i) = true ∧ (t.players i).tile = (s.players i).tile) :
    TilesApart test t := by
  intro i j hij hi hj
  rw [(hkept i hi).2, (hkept j hj).2]
  exact h i j hij (hkept i hi).1 (hkept j hj).1

/-- Replacing one entry that does not start to wait, and does not move while it waits. -/
theorem TilesApart.setPlayer {test : Player F → Bool} {s : ServerState F}
    (h : TilesApart test s) {i : Slot} {p : Player F}
    (hp : test p = true → test (s.players i) = true ∧ p.tile = (s.players i).tile) :
    TilesApart test (s.setPlayer i p) := by
  refine h.of_kept fun j hj => ?_
  by_cases hji : j = i
  · subst hji
    rw [ServerState.setPlayer_self] at hj ⊢
    exact hp hj
  · rw [ServerState.setPlayer_of_ne _ _ hji] at hj ⊢
    exact ⟨hj, rfl⟩

/-- Tiles are apart where nobody waits. -/
theorem tilesApart_of_round {s : ServerState F} {n : ℕ} (hslots : ∀ i, SlotInv n (s.players i))
    (hn : n ≠ 0) : TilesApart Player.isWaiting s := by
  intro i j _ hi
  obtain ⟨hadmitted, hwait⟩ := Player.isWaiting_iff.mp hi
  rw [(hslots i (Player.connected_of_isAdmitted hadmitted)).started hn] at hwait
  cases hwait

/-- Every action keeps the waiting players apart, unless it is an admission next to an
occupant of the tile whom the command before it had not seen. -/
theorem Action.tilesApart {w : Server F} {e : Event F} {s : ServerState F} (h : Action w e s)
    (hw : Inv w) (hclash : ¬TileClash (w.record e s).log)
    (hapart : TilesApart Player.isWaiting w.state) :
    TilesApart Player.isWaiting s := by
  have hnext := h.inv hw
  cases h with
  | @accept i fd hfree =>
    have hset : TilesApart Player.isWaiting
        (w.state.setPlayer i (initPlayerSlot fd w.state.nextId)) :=
      hapart.setPlayer fun hp => by
        simp [Player.isWaiting, Player.isAdmitted, initPlayerSlot, Player.zero] at hp
    exact hset
  | receive hconn => exact hapart.setPlayer fun hp => ⟨hp, rfl⟩
  | pop hconn => exact hapart.setPlayer fun hp => ⟨hp, rfl⟩
  | flush hconn => exact hapart.setPlayer fun hp => ⟨hp, rfl⟩
  | queue hconn hline hqueue =>
    rw [Player.queueVia_eq_some hqueue]
    exact hapart.setPlayer fun hp => ⟨hp, rfl⟩
  | drop hconn =>
    exact hapart.setPlayer fun hp => by
      simp [Player.isWaiting, Player.isAdmitted, Player.cleared, Player.zero] at hp
  | register hconn hnew hvalid hunused =>
    exact hapart.setPlayer fun hp => by
      simp [Player.isWaiting, Player.isAdmitted, Player.resetProgress] at hp
  | choose hreg hout hchoice => exact hapart.setPlayer fun hp => ⟨hp, rfl⟩
  | spawn hreg hout hrange hfree =>
    exact hapart.setPlayer fun hp => by
      simp [Player.isWaiting, Player.isAdmitted, hout] at hp
  | submit hphase halive hnew hchoice => exact hapart.setPlayer fun hp => ⟨hp, rfl⟩
  | @enter i hphase hplayer hcount =>
    rcases hplayer with ⟨hreg, _, _, _, hunseen⟩ | ⟨hgone, _⟩
    · -- The new player against the others, in both orders.
      have hnew : ∀ j, j ≠ i → (w.state.players j).isWaiting = true →
          (w.state.players j).tile ≠ (w.state.players i).tile := by
        intro j hj hwait htile
        have hadmitted := (Player.isWaiting_iff.mp hwait).1
        refine hclash (.inl ⟨i, j, hj, rfl, ?_, ?_, hunseen j hj hadmitted htile⟩)
        · show ((w.state.setPlayer i _).players i).connected = true
          rw [ServerState.setPlayer_self]
          exact Player.connected_of_isRegistered hreg
        · show ((w.state.setPlayer i _).players j).isAdmitted = true
          rwa [ServerState.setPlayer_of_ne _ _ hj]
      intro j k hjk hj hk
      by_cases hji : j = i <;> by_cases hki : k = i
      · exact absurd (hji.trans hki.symm) hjk
      · subst hji
        rw [ServerState.setPlayer_of_ne _ _ hki] at hk ⊢
        rw [ServerState.setPlayer_self]
        exact (hnew k hki hk).symm
      · subst hki
        rw [ServerState.setPlayer_of_ne _ _ hji] at hj ⊢
        rw [ServerState.setPlayer_self]
        exact hnew j hji hj
      · rw [ServerState.setPlayer_of_ne _ _ hji] at hj ⊢
        rw [ServerState.setPlayer_of_ne _ _ hki] at hk ⊢
        exact hapart j k hjk hj hk
    · exact hapart.setPlayer fun hp => by
        simp [Player.isWaiting, Player.isAdmitted, hgone] at hp
  | start hphase horder => exact tilesApart_of_round hnext.slots (Nat.succ_ne_zero _)
  | applyRepicks hphase hall =>
    exact tilesApart_of_round hnext.slots (hw.running (.inr hphase))
  | @tick dt hphase =>
    have hround : (simulateChaseTick w.state dt).1.roundNo ≠ 0 := by
      rw [(simulateChaseTick_chased w.state dt).table]
      exact hw.running (.inl hphase)
    have hslots := hnext.slots
    rw [System.record_state] at hslots
    generalize (simulateChaseTick w.state dt).1 = t at hround hslots ⊢
    exact tilesApart_of_round hslots hround
  | pair hphase hround hresolved => exact tilesApart_of_round hnext.slots hround
  | resetProgress hreg hphase =>
    exact hapart.setPlayer fun hp => by
      simp [Player.isWaiting, Player.isAdmitted, Player.resetProgress] at hp
  | _ => exact hapart.of_kept fun i hi => ⟨hi, rfl⟩

/-- In an open lobby every admitted player waits for the first round. -/
def AdmittedWait (s : ServerState F) : Prop :=
  s.phase = .lobbyOpen → ∀ i, (s.players i).isAdmitted = true → (s.players i).waiting = true

omit [CFloat F] in
/-- Replacing one entry by one that is not admitted, or waits, or was admitted and waits
as before. -/
theorem AdmittedWait.setPlayer {s : ServerState F} (h : AdmittedWait s) {i : Slot} {p : Player F}
    (hp : p.isAdmitted = true → p.waiting = true ∨
      ((s.players i).isAdmitted = true ∧ p.waiting = (s.players i).waiting)) :
    AdmittedWait (s.setPlayer i p) := by
  intro hopen j hj
  by_cases hji : j = i
  · subst hji
    rw [ServerState.setPlayer_self] at hj ⊢
    rcases hp hj with hwait | ⟨hold, hsame⟩
    · exact hwait
    · rw [hsame]
      exact h hopen j hold
  · rw [ServerState.setPlayer_of_ne _ _ hji] at hj ⊢
    exact h hopen j hj

/-- Within a match, players of an open lobby keep waiting. -/
theorem Action.admittedWait {w : Server F} {e : Event F} {s : ServerState F}
    (h : Action w e s) (he : e.inMatch = true) (hwait : AdmittedWait w.state) :
    AdmittedWait s := by
  -- The lobby was open before, since no action of a match opens it.
  by_cases hphase : w.state.phase = .lobbyOpen
  swap
  · exact fun hopen => absurd hopen (h.later he hphase)
  cases h with
  | @accept i fd hfree =>
    have hset : AdmittedWait (w.state.setPlayer i (initPlayerSlot fd w.state.nextId)) :=
      hwait.setPlayer fun hp => by simp [Player.isAdmitted, initPlayerSlot, Player.zero] at hp
    exact hset
  | receive hconn => exact hwait.setPlayer fun hp => .inr ⟨hp, rfl⟩
  | pop hconn => exact hwait.setPlayer fun hp => .inr ⟨hp, rfl⟩
  | flush hconn => exact hwait.setPlayer fun hp => .inr ⟨hp, rfl⟩
  | queue hconn hline hqueue =>
    rw [Player.queueVia_eq_some hqueue]
    exact hwait.setPlayer fun hp => .inr ⟨hp, rfl⟩
  | drop hconn =>
    exact hwait.setPlayer fun hp => by simp [Player.isAdmitted, Player.cleared, Player.zero] at hp
  | register hconn hnew hvalid hunused =>
    exact hwait.setPlayer fun hp => by simp [Player.isAdmitted, Player.resetProgress] at hp
  | choose hreg hout hchoice => exact hwait.setPlayer fun hp => .inr ⟨hp, rfl⟩
  | spawn hreg hout hrange hfree => exact hwait.setPlayer fun hp => .inr ⟨hp, rfl⟩
  | submit hrepick halive hnew hchoice => exact hwait.setPlayer fun hp => .inr ⟨hp, rfl⟩
  | enter hopen hplayer hcount => exact hwait.setPlayer fun _ => .inl rfl
  | start hlater horder => exact absurd hphase hlater
  | closeLobby hopen hcount htime => exact fun hlater => by cases hlater
  | finish hlater horder hwhy => exact absurd hphase hlater
  | applyRepicks hrepick hall => simp [hphase] at hrepick
  | enterRepick hlater hround hresolved => exact absurd hphase hlater
  | tick hround => simp [hphase] at hround
  | pair hlater hround hresolved => exact absurd hphase hlater
  | clearRound hlater hresolved => exact absurd hphase hlater
  | reset hover => cases he
  | resetProgress hreg hopen => cases he
  | _ => exact hwait

/-- In every open lobby that a run reaches, admitted players stand in different grid
tiles, if no player was admitted next to an occupant of its tile whom the command that
completed the join had not seen: any occupant for CHOICE, one off the grid points for
SPAWN. -/
theorem lobby_tiles_apart {loopOnly : Bool} {w : Server F} (h : Reached loopOnly w)
    (hclash : ¬TileClash w.log) (hopen : w.state.phase = .lobbyOpen) :
    TilesApart Player.isAdmitted w.state := by
  have hwait : AdmittedWait w.state := by
    refine (h.between (fun v => AdmittedWait v.state) ?_ ?_ ?_ ?_).2
    · intro clock _ i hi
      simp [Server.init, initServerState, Player.isAdmitted, Player.zero] at hi
    · exact fun v u _ hv hpath => hpath.state_invariant AdmittedWait
        (fun _ _ _ he hstep => hstep.admittedWait he) hv
    · intro v _ _ _ _ i hi
      rw [(resetMatch_state v).2.2 i] at hi
      cases hi
    · exact fun v _ _ hv _ => hv
  obtain ⟨clock, hpath⟩ := h.path
  have hearlier : ∀ (x : Entry (ServerState F) (Event F)) (log : Log F),
      ¬TileClash (x :: log) → ¬TileClash log := fun _ _ hno hlog => hno (.inr hlog)
  have hapart : TilesApart Player.isWaiting w.state := by
    refine (hpath.invariant_of_log (fun v => Inv v ∧ TilesApart Player.isWaiting v.state)
      (fun log => ¬TileClash log) hearlier ?_ hclash ?_).2
    · rintro v e s _ hstep hno ⟨hinv, hv⟩
      exact ⟨hstep.inv hinv, hstep.tilesApart hinv hno hv⟩
    · refine ⟨Inv.init clock, fun i j _ hi => ?_⟩
      simp [Server.init, initServerState, Player.isWaiting, Player.isAdmitted, Player.zero] at hi
  intro i j hij hi hj
  exact hapart i j hij (Player.isWaiting_iff.mpr ⟨hi, hwait hopen i hi⟩)
    (Player.isWaiting_iff.mpr ⟨hj, hwait hopen j hj⟩)

/-- The two players of a lobby stand in different tiles. -/
theorem lobby_tiles_apart_duel :
    TilesApart Player.isAdmitted (serverAfter (lateClock 60) duel.dropLast).state := by
  obtain ⟨hopen, _, hclash⟩ := duelLobby_state
  exact lobby_tiles_apart duelLobby_reached hclash hopen

/-- Two players join at the same point, off the grid points. -/
def sameSpawn : List Step := join 0 3 "A" "R" "2.5 2.5" ++ join 1 4 "B" "P" "2.5 2.5"

theorem sameSpawn_state :
    (serverAfter (fun _ => 1) sameSpawn).state.phase = .lobbyOpen ∧
      ((serverAfter (fun _ => 1) sameSpawn).state.players 0).isAdmitted = true ∧
      ((serverAfter (fun _ => 1) sameSpawn).state.players 1).isAdmitted = true ∧
      ((serverAfter (fun _ => 1) sameSpawn).state.players 0).tile =
        ((serverAfter (fun _ => 1) sameSpawn).state.players 1).tile := by
  decide +kernel

/-- Both are admitted to the open lobby in one tile. -/
theorem same_spawn_accepted :
    Reached true (serverAfter (fun _ => 1) sameSpawn) ∧
      (serverAfter (fun _ => 1) sameSpawn).state.phase = .lobbyOpen ∧
      ¬TilesApart Player.isAdmitted (serverAfter (fun _ => 1) sameSpawn).state := by
  obtain ⟨hopen, hfirst, hsecond, hsame⟩ := sameSpawn_state
  exact ⟨reached_serverAfter _ (by simp [sameSpawn]), hopen,
    fun h => h 0 1 (by decide) hfirst hsecond hsame⟩

end BattleRoyale
