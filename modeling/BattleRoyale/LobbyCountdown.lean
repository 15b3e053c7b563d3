import BattleRoyale.BetweenSteps
import BattleRoyale.Exact

/-!
# The countdown of the lobby

Between steps a countdown runs in an open lobby exactly when somebody is admitted. That
an empty lobby has no countdown is restored by every `reevaluate_state`. That a joined
player never waits without one fails when the broadcast that opens the countdown drops
another client: the re-entrant call finds the lobby empty and stops the countdown
before the joining player is admitted.
-/

namespace BattleRoyale

open Recorded

variable {F : Type}

/-- A countdown of an open lobby runs for somebody. -/
def CountdownForSomebody (s : ServerState F) : Prop :=
  s.phase = .lobbyOpen → s.joinDeadline ≠ 0 → ∃ i, (s.players i).isAdmitted = true

/-- An admitted player of an open lobby has a countdown. -/
def CountdownForAll (s : ServerState F) : Prop :=
  s.phase = .lobbyOpen → (∃ i, (s.players i).isAdmitted = true) → s.joinDeadline ≠ 0

/-- Nobody is admitted where the count is zero. -/
theorem admittedCount_eq_zero {s : ServerState F} :
    admittedCount s = 0 ↔ ∀ i, (s.players i).isAdmitted = false := by
  simp [admittedCount, List.countP_eq_zero]

/-- The countdown still runs for somebody where the same players are admitted. -/
theorem CountdownForSomebody.of_kept {s t : ServerState F} (h : CountdownForSomebody s)
    (hphase : t.phase = s.phase) (hdeadline : t.joinDeadline = s.joinDeadline)
    (hkept : ∀ i, (s.players i).isAdmitted = true → (t.players i).isAdmitted = true) :
    CountdownForSomebody t := by
  intro hopen hcount
  rw [hphase] at hopen
  rw [hdeadline] at hcount
  obtain ⟨i, hi⟩ := h hopen hcount
  exact ⟨i, hkept i hi⟩

/-- Replacing one entry that was not admitted, or still is. -/
theorem CountdownForSomebody.setPlayer {s : ServerState F} (h : CountdownForSomebody s) {i : Slot}
    {p : Player F} (hp : (s.players i).isAdmitted = true → p.isAdmitted = true) :
    CountdownForSomebody (s.setPlayer i p) := by
  refine h.of_kept rfl rfl fun j hj => ?_
  by_cases hji : j = i
  · subst hji
    rw [ServerState.setPlayer_self]
    exact hp hj
  · rwa [ServerState.setPlayer_of_ne _ _ hji]

/-- Nothing is said once the lobby is closed. -/
theorem CountdownForSomebody.of_closed {s : ServerState F} (h : s.phase ≠ .lobbyOpen) :
    CountdownForSomebody s := fun hopen => absurd hopen h

theorem CountdownForAll.of_closed {s : ServerState F} (h : s.phase ≠ .lobbyOpen) :
    CountdownForAll s := fun hopen => absurd hopen h

/-- Replacing one entry by one that is not admitted, or was. -/
theorem CountdownForAll.setPlayer {s : ServerState F} (h : CountdownForAll s) {i : Slot}
    {p : Player F} (hp : p.isAdmitted = true → (s.players i).isAdmitted = true) :
    CountdownForAll (s.setPlayer i p) := by
  rintro hopen ⟨j, hj⟩
  by_cases hji : j = i
  · subst hji
    rw [ServerState.setPlayer_self] at hj
    exact h hopen ⟨j, hp hj⟩
  · rw [ServerState.setPlayer_of_ne _ _ hji] at hj
    exact h hopen ⟨j, hj⟩

variable [CFloat F]

/-- Calls and quiet actions keep a countdown for somebody. -/
theorem Action.countdownForSomebody {w : Server F} {e : Event F} {s : ServerState F}
    (h : Action w e s) (he : (∃ i via line, e = .queued i via line) ∨
      (∃ i via line, e = .refused i via line) ∨ e.isQuiet = true ∨ ∃ i, e = .registered i)
    (hw : CountdownForSomebody w.state) : CountdownForSomebody s := by
  cases h with
  | @accept i fd hfree =>
    have hset : CountdownForSomebody (w.state.setPlayer i (initPlayerSlot fd w.state.nextId)) :=
      hw.setPlayer fun hp => by
        rw [Player.connected_of_isAdmitted hp] at hfree
        cases hfree
    exact hset
  | receive hconn => exact hw.setPlayer fun hp => hp
  | pop hconn => exact hw.setPlayer fun hp => hp
  | flush hconn => exact hw.setPlayer fun hp => hp
  | queue hconn hline hqueue =>
    rw [Player.queueVia_eq_some hqueue]
    exact hw.setPlayer fun hp => hp
  | refuse hqueue => exact hw
  | register hconn hnew hvalid hunused =>
    refine hw.setPlayer fun hp => ?_
    rw [(Player.isRegistered_iff.mp (Player.isRegistered_of_isAdmitted hp)).2] at hnew
    cases hnew
  | choose hreg hout hchoice => exact hw.setPlayer fun hp => hp
  | spawn hreg hout hrange hfree => exact hw.setPlayer fun hp => hp
  | _ => simp [Event.isQuiet] at he

/-- `reevaluate_state` stops the countdown of an empty lobby. -/
theorem reevaluateState_countdown {w : Server F} (hw : Inv w) :
    CountdownForSomebody (reevaluateState w).state := by
  by_cases hopen : w.state.phase = .lobbyOpen
  · rw [reevaluateState_of_lobbyOpen hopen]
    unfold reevaluateLobbyOpen
    split
    · exact fun _ hcount => absurd rfl hcount
    · rename_i hsome
      intro _ _
      by_contra hnone
      simp only [not_exists, Bool.not_eq_true] at hnone
      exact hsome (admittedCount_eq_zero.mpr hnone)
  · exact .of_closed (Acts.later (Reacts.acts (reevaluateState_reacts w hw)) hopen)

/-- What the broadcasts and handlers need to know. -/
theorem countdown_restored :
    Restored (fun _ : Server F => True) (fun w => CountdownForSomebody w.state) :=
  .of_actions (fun _ _ _ => trivial)
    (fun _ _ _ _ hstep he => ⟨hstep.countdownForSomebody (he.imp_right .inl), fun _ => trivial⟩)
    (fun _ _ _ _ _ _ _ _ => trivial) (fun _ hw _ => reevaluateState_countdown hw)

/-- The last part of the admission. A player who is still registered is the one for whom
the countdown runs. -/
theorem admitPlayer_countdown {i : Slot} {w : Server F} (hw : Inv w) (h : Admissible i w)
    (hS : (w.state.players i).isRegistered = true ∨ CountdownForSomebody w.state) :
    CountdownForSomebody (admitPlayer i w).state := by
  refine countdown_restored.admitPlayer hw h ?_
  rcases hS with hreg | hS
  · refine fun _ _ => ⟨i, ?_⟩
    simp only [admitted, System.record_state, ServerState.setPlayer_self]
    exact Player.isAdmitted_iff.mpr ⟨hreg, rfl⟩
  · refine hS.setPlayer fun hp => ?_
    have hreg := Player.isRegistered_iff.mp (Player.isRegistered_of_isAdmitted hp)
    simp [Player.isAdmitted, hreg.1, hreg.2]

/-- The admission, which may open the countdown. -/
theorem maybeAdmitPlayer_countdown {i : Slot} {w : Server F} (hw : Inv w)
    (htile : OccupantsUnseen w.state i w.log)
    (hS : CountdownForSomebody w.state) : CountdownForSomebody (maybeAdmitPlayer i w).state := by
  rcases maybeAdmitPlayer_cases hw htile with
    hsame | ⟨hconn, hrefused⟩ | ⟨hreg, _, hadm, hdone⟩ | ⟨hreg, hopened, hadm, hdone⟩
  · rwa [hsame]
  · rw [hrefused]
    exact countdown_restored.refuseLobbyClosed hw hconn hS
  · rw [hdone]
    exact admitPlayer_countdown hw hadm (.inl hreg)
  · rw [hdone]
    have hinv := hopened.inv hw
    have hphase : w.state.phase = .lobbyOpen := by cases hopened; assumption
    have hbroadcast := announced_reacts hinv hphase
    refine admitPlayer_countdown (hinv.along hbroadcast) hadm ?_
    -- The announcement drops nobody, or ends with the re-entrant call.
    by_cases hover : overflows (.lobbyOpen JOIN_WINDOW_SECONDS) (opened i w).state
    · exact .inr (countdown_restored.overflow _ hinv
        (fun _ => ⟨hphase, fun hclock => opened_joinDeadline i hclock⟩) hover trivial)
    · left
      have hstate : (announced i w).state = _ := queueBroadcast_of_fits hover
      rcases Player.afterBroadcast_cases (.lobbyOpen JOIN_WINDOW_SECONDS) (w.state.players i) with
        ⟨outbuf, hi⟩ | ⟨hconn, hfull, _⟩
      · have hi' : (announced i w).state.players i =
            { w.state.players i with outbuf := outbuf } := by
          rw [hstate]
          exact hi
        rw [hi']
        exact hreg
      · exact absurd ⟨i, hconn, hfull⟩ hover

/-- A countdown of an open lobby runs for somebody, between the steps of every run. -/
theorem countdown_upheld :
    Upheld (fun _ : Server F => True) (fun w => CountdownForSomebody w.state) where
  toRestored := countdown_restored
  quiet _ _ _ _ hstep he hS := hstep.countdownForSomebody (.inr (.inr (.inl he))) hS
  dropNew w i _ _ _ hstep hnew hS := by
    cases hstep with
    | drop hconn =>
      refine hS.setPlayer fun hp => ?_
      rw [(Player.isRegistered_iff.mp (Player.isRegistered_of_isAdmitted hp)).2] at hnew
      cases hnew
  hello _ _ _ hw hconn hargs hS := countdown_restored.hello
    (fun _ i _ _ hstep => hstep.countdownForSomebody (.inr (.inr (.inr ⟨i, rfl⟩))))
    hw hconn hargs hS
  admits _ _ hw htile hS := maybeAdmitPlayer_countdown hw htile hS
  repick w i args hw hconn hS := by
    by_cases hphase : w.state.phase = .repick
    · exact .of_closed (Acts.later (handleRepickCommand_acts hw hconn) (by simp [hphase]))
    · simp only [handleRepickCommand, hphase, ne_eq, not_false_eq_true, if_true]
      exact countdown_restored.reply _ hw rfl hconn trivial hS
  closes w hw hS := by
    rcases closeLobbyIfNeeded_cases hw with hsame | ⟨_, hpath⟩
    · rwa [hsame]
    · exact .of_closed (Acts.later (Reacts.acts hpath) (by simp [closed]))
  expires w hw hS := by
    by_cases hphase : w.state.phase = .setup
    · exact .of_closed (Acts.later (expireUnreadySetupPlayers_acts hw) (by simp [hphase]))
    · simpa [expireUnreadySetupPlayers, hphase] using hS
  ticks w dt hw hphase _ :=
    .of_closed (Acts.later (chaseTick_acts hw hphase dt _) (by simp [hphase]))
  resets w _ _ _ := fun _ hcount => absurd (resetMatch_state w).2.1 hcount

/-- Within a match, where the clock reads positive times, an admitted player of an open
lobby has a countdown, unless an opening dropped another client. -/
theorem Action.countdownForAll {w : Server F} {e : Event F} {s : ServerState F}
    (h : Action w e s) (he : e.inMatch = true) (hclock : ∀ n, 0 < w.env n)
    (hroom : ¬OtherFullAtOpening w.log) (hw : CountdownForAll w.state) : CountdownForAll s := by
  -- The lobby was open before, since no action of a match opens it.
  by_cases hphase : w.state.phase = .lobbyOpen
  swap
  · exact .of_closed (h.later he hphase)
  cases h with
  | @accept i fd hfree =>
    have hset : CountdownForAll (w.state.setPlayer i (initPlayerSlot fd w.state.nextId)) :=
      hw.setPlayer fun hp => by simp [Player.isAdmitted, initPlayerSlot, Player.zero] at hp
    exact hset
  | receive hconn => exact hw.setPlayer fun hp => hp
  | pop hconn => exact hw.setPlayer fun hp => hp
  | flush hconn => exact hw.setPlayer fun hp => hp
  | queue hconn hline hqueue =>
    rw [Player.queueVia_eq_some hqueue]
    exact hw.setPlayer fun hp => hp
  | refuse hqueue => exact hw
  | drop hconn =>
    exact hw.setPlayer fun hp => by simp [Player.isAdmitted, Player.cleared, Player.zero] at hp
  | register hconn hnew hvalid hunused =>
    exact hw.setPlayer fun hp => by simp [Player.isAdmitted, Player.resetProgress] at hp
  | choose hreg hout hchoice => exact hw.setPlayer fun hp => hp
  | spawn hreg hout hrange hfree => exact hw.setPlayer fun hp => hp
  | submit hrepick halive hnew hchoice => exact hw.setPlayer fun hp => hp
  | @openLobby i hreg hopen hidle => exact fun _ _ => opened_joinDeadline i hclock
  | @enter i hopen hplayer hcount =>
    rintro _ ⟨j, hj⟩
    by_cases hji : j = i
    · subst hji
      have hconn := Player.connected_of_isAdmitted hj
      rw [ServerState.setPlayer_self] at hconn
      exact (hcount hclock hconn).resolve_right hroom
    · rw [ServerState.setPlayer_of_ne _ _ hji] at hj
      exact hw hopen ⟨j, hj⟩
  | cancel hopen hempty =>
    rintro _ ⟨i, hi⟩
    rw [admittedCount_eq_zero.mp hempty i] at hi
    cases hi
  | start hlater horder => exact absurd hphase hlater
  | closeLobby hopen hcount htime => exact .of_closed (by simp)
  | finish hlater horder hwhy => exact absurd hphase hlater
  | applyRepicks hrepick hall => simp [hphase] at hrepick
  | enterRepick hlater hround hresolved => exact absurd hphase hlater
  | tick hround => simp [hphase] at hround
  | resolve hround => simp [hphase] at hround
  | pair hlater hround hresolved => exact absurd hphase hlater
  | clearRound hlater hresolved => exact absurd hphase hlater
  | reset hover => simp [hphase] at hover
  | resetProgress hreg hopen => cases he

/-- In every open lobby that a run of the loop reaches between two steps, a countdown runs
exactly when somebody is admitted, if the clock reads positive times and the line that
opens a countdown finds room with every client other than the joining player. -/
theorem countdown_iff_admitted {w : Server F} (h : Reached true w)
    (hclock : ∀ n, 0 < w.env n) (hroom : ¬OtherFullAtOpening w.log)
    (hopen : w.state.phase = .lobbyOpen) :
    w.state.joinDeadline ≠ 0 ↔ ∃ i, (w.state.players i).isAdmitted = true := by
  constructor
  · refine countdown_upheld.reached (fun clock _ hcount => absurd rfl hcount) ?_ h hopen
    exact fun _ hloop => by cases hloop
  · have hall := (h.between (fun v => (∀ n, 0 < v.env n) → ¬OtherFullAtOpening v.log →
      CountdownForAll v.state) ?_ ?_ ?_ ?_).2 hclock hroom
    · exact hall hopen
    · rintro clock _ _ _ ⟨i, hi⟩
      simp [Server.init, initServerState, Player.isAdmitted, Player.zero] at hi
    · intro v u _ hv hpath
      refine hpath.invariant (fun x : Server F => (∀ n, 0 < x.env n) → ¬OtherFullAtOpening x.log →
        CountdownForAll x.state) (fun x e s he hstep hx hpos hno => ?_) hv
      have hno' : ¬OtherFullAtOpening x.log := by
        rintro ⟨y, hy, hfull⟩
        exact hno ⟨y, List.mem_cons_of_mem _ hy, hfull⟩
      exact hstep.countdownForAll he hpos hno' (hx hpos hno')
    · rintro v _ _ _ _ _ _ ⟨i, hi⟩
      rw [(resetMatch_state v).2.2 i] at hi
      cases hi
    · exact fun _ hloop => by cases hloop

/-- In the lobby of two players a countdown runs for somebody. -/
theorem countdown_iff_admitted_duel :
    (serverAfter (lateClock 60) (duel.dropLast)).state.joinDeadline ≠ 0 ↔
      ∃ i, ((serverAfter (lateClock 60) (duel.dropLast)).state.players i).isAdmitted = true :=
  countdown_iff_admitted duelLobby_reached
    (fun n => by simp only [serverAfter_env, lateClock]; split <;> decide) duelLobby_state.2.1
    duelLobby_state.1

/-- A player is about to join, while another client has 13 bytes of room. -/
def joinBesideFullClient : List Step :=
  .accept 3 :: (say 0 "HELLO A" ++ say 0 "CHOICE R" ++ .accept 4 ::
    ((List.replicate 9 (flood 1 32 "REMATCH")).flatten ++ flood 1 3 "REMATCH" ++
      say 0 "SPAWN 2 2"))

theorem joinBesideFullClient_state :
    (serverAfter (fun _ => 1) joinBesideFullClient).state.phase = .lobbyOpen ∧
      (serverAfter (fun _ => 1) joinBesideFullClient).state.joinDeadline = 0 ∧
      ((serverAfter (fun _ => 1) joinBesideFullClient).state.players 0).isAdmitted = true := by
  decide +kernel

/-- The player then waits in a lobby that has no countdown. -/
theorem countdown_lost_beside_full_client :
    Reached true (serverAfter (fun _ => 1) joinBesideFullClient) ∧
      (∀ n, 0 < (serverAfter (fun _ => 1) joinBesideFullClient).env n) ∧
      (serverAfter (fun _ => 1) joinBesideFullClient).state.phase = .lobbyOpen ∧
      ¬((serverAfter (fun _ => 1) joinBesideFullClient).state.joinDeadline ≠ 0 ↔
        ∃ i, ((serverAfter (fun _ => 1) joinBesideFullClient).state.players i).isAdmitted =
          true) := by
  obtain ⟨hopen, hidle, hadmitted⟩ := joinBesideFullClient_state
  refine ⟨reached_serverAfter _ (by simp [joinBesideFullClient, Step.inLoop]), fun n => ?_,
    hopen, fun h => ?_⟩
  · rw [serverAfter_env]
    decide
  · exact h.mpr ⟨0, hadmitted⟩ hidle

end BattleRoyale
