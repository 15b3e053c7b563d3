import BattleRoyale.BetweenSteps
import BattleRoyale.Elimination
import BattleRoyale.Exact
import BattleRoyale.PlayerFlags
import BattleRoyale.Termination

/-!
# No phase waits for players that are gone

Between steps the server is never left in the setup, in a round with fewer than two
players alive, or in a repick that nobody alive has still to submit. Each loss of a
player is followed by `reevaluate_state`, which moves such a phase on. The exception is
`finish_repicks`: when its first broadcasts drop all but one of the players alive, the
re-entrant call ends the match, and the interrupted caller starts the round anyway.
-/

namespace BattleRoyale

open Recorded

variable {F : Type}

/-- No phase waits for players that are gone. -/
structure Settled (s : ServerState F) : Prop where
  /-- The setup is over. -/
  setup : s.phase ≠ .setup
  /-- A round has two players. -/
  round : s.phase = .roundActive → 2 ≤ activeAliveCount s
  /-- A repick has two players, and one of them has not submitted. -/
  repick : s.phase = .repick → 2 ≤ activeAliveCount s ∧
    ∃ i, (s.players i).isAlive = true ∧ (s.players i).repickSubmitted = false

/-- Before the first round of a match the admitted players wait. -/
def Gathered (s : ServerState F) : Prop :=
  s.roundNo = 0 → ∀ i, (s.players i).isAdmitted = true → (s.players i).waiting = true

/-- Everybody admitted is still in the match. -/
def AllContend (s : ServerState F) : Prop :=
  ∀ i, (s.players i).isAdmitted = true → (s.players i).isContender = true

theorem activeAliveCount_mono {s t : ServerState F}
    (h : ∀ i, (s.players i).isAlive = true → (t.players i).isAlive = true) :
    activeAliveCount s ≤ activeAliveCount t :=
  List.countP_mono_left fun i _ hi => h i hi

theorem Player.isContender_of_isAlive {p : Player F} (h : p.isAlive = true) :
    p.isContender = true := by
  obtain ⟨hadmitted, halive⟩ := Player.isAlive_iff.mp h
  simp [isContender, hadmitted, halive]

/-- `start_round` takes the contenders into the round. -/
theorem Player.enterRound_isAlive (p : Player F) : p.enterRound.isAlive = p.isContender := by
  unfold enterRound
  simp only
  split
  · rename_i hin
    have hcontender : p.isContender = true := hin
    rw [hcontender]
    simp only [Player.isAdmitted, Bool.and_eq_true, Bool.or_eq_true] at hin
    simp [isAlive, hin.1, hin.2]
  · rename_i hout
    have hcontender : p.isContender = false := Bool.eq_false_iff.mpr hout
    rw [hcontender]
    simp only [isContender, isAdmitted] at hcontender
    simp only [isAlive]
    cases hp : p.connected && p.registered && p.admitted with
    | false => simp
    | true => simp_all

/-- The end of a repick replaces types only. -/
theorem Player.applyRepick_flags (p : Player F) :
    p.applyRepick.isAdmitted = p.isAdmitted ∧ p.applyRepick.waiting = p.waiting ∧
      p.applyRepick.isContender = p.isContender ∧ p.applyRepick.isAlive = p.isAlive := by
  unfold applyRepick
  split <;> exact ⟨rfl, rfl, rfl, rfl⟩

/-- A round that two contenders enter. -/
theorem settled_startRound {now : ℤ} {s : ServerState F}
    (h : 2 ≤ slots.countP (fun i => (s.players i).isContender)) : Settled (startRound now s) where
  setup := nofun
  round _ := by simpa only [activeAliveCount, startRound, Player.enterRound_isAlive] using h
  repick := nofun

/-- Players alive contend. -/
theorem activeAliveCount_le_contenders (s : ServerState F) :
    activeAliveCount s ≤ slots.countP (fun i => (s.players i).isContender) :=
  List.countP_mono_left fun _ _ => Player.isContender_of_isAlive

/-- So do the admitted players before the first round. -/
theorem AllContend.admittedCount_le {s : ServerState F} (h : AllContend s) :
    admittedCount s ≤ slots.countP (fun i => (s.players i).isContender) :=
  List.countP_mono_left fun i _ => h i

theorem Gathered.allContend {s : ServerState F} (h : Gathered s) (hround : s.roundNo = 0) :
    AllContend s := fun i hi => by simp [Player.isContender, hi, h hround i hi]

/-- Nothing is to be settled in an open lobby, or after the end. -/
theorem Settled.of_phase {s : ServerState F} (h : s.phase = .lobbyOpen ∨ s.phase = .gameOver) :
    Settled s := by
  constructor
  · rcases h with h | h <;> simp [h]
  · intro hround
    rcases h with h | h <;> simp [h] at hround
  · intro hrepick
    rcases h with h | h <;> simp [h] at hrepick

/-- Whoever is alive stays alive, with the same submission. -/
theorem Settled.of_kept {s t : ServerState F} (h : Settled s) (hphase : t.phase = s.phase)
    (hkept : ∀ i, (s.players i).isAlive = true → (t.players i).isAlive = true ∧
      (t.players i).repickSubmitted = (s.players i).repickSubmitted) : Settled t where
  setup := hphase ▸ h.setup
  round hround := (h.round (hphase ▸ hround)).trans
    (activeAliveCount_mono fun i hi => (hkept i hi).1)
  repick hrepick := by
    obtain ⟨hcount, i, hi, hnew⟩ := h.repick (hphase ▸ hrepick)
    exact ⟨hcount.trans (activeAliveCount_mono fun i hi => (hkept i hi).1), i, (hkept i hi).1,
      (hkept i hi).2.trans hnew⟩

/-- Replacing one entry. -/
theorem Settled.setPlayer {s : ServerState F} (h : Settled s) {i : Slot} {p : Player F}
    (hp : (s.players i).isAlive = true →
      p.isAlive = true ∧ p.repickSubmitted = (s.players i).repickSubmitted) :
    Settled (s.setPlayer i p) := by
  refine h.of_kept rfl fun j hj => ?_
  by_cases hji : j = i
  · subst hji
    rw [ServerState.setPlayer_self]
    exact hp hj
  · rw [ServerState.setPlayer_of_ne _ _ hji]
    exact ⟨hj, rfl⟩

theorem Gathered.of_kept {s t : ServerState F} (h : Gathered s) (hround : t.roundNo = s.roundNo)
    (hkept : ∀ i, (t.players i).isAdmitted = true → (t.players i).waiting = true ∨
      ((s.players i).isAdmitted = true ∧ (t.players i).waiting = (s.players i).waiting)) :
    Gathered t := by
  intro hidle i hi
  rcases hkept i hi with hwait | ⟨hold, hsame⟩
  · exact hwait
  · rw [hsame]
    exact h (hround.symm.trans hidle) i hold

theorem Gathered.setPlayer {s : ServerState F} (h : Gathered s) {i : Slot} {p : Player F}
    (hp : p.isAdmitted = true → p.waiting = true ∨
      ((s.players i).isAdmitted = true ∧ p.waiting = (s.players i).waiting)) :
    Gathered (s.setPlayer i p) := by
  refine h.of_kept rfl fun j hj => ?_
  by_cases hji : j = i
  · subst hji
    rw [ServerState.setPlayer_self] at hj ⊢
    exact hp hj
  · rw [ServerState.setPlayer_of_ne _ _ hji] at hj ⊢
    exact .inr ⟨hj, rfl⟩

variable [CFloat F]

/-- Calls and quiet actions leave a settled phase settled. -/
theorem Action.settled {w : Server F} {e : Event F} {s : ServerState F} (h : Action w e s)
    (he : (∃ i via line, e = .queued i via line) ∨ (∃ i via line, e = .refused i via line) ∨
      e.isQuiet = true ∨ ∃ i, e = .registered i) (hw : Settled w.state) : Settled s := by
  cases h with
  | @accept i fd hfree =>
    have hset : Settled (w.state.setPlayer i (initPlayerSlot fd w.state.nextId)) :=
      hw.setPlayer fun hp => by
        rw [Player.connected_of_isAdmitted (Player.isAdmitted_of_isAlive hp)] at hfree
        cases hfree
    exact hset.of_kept rfl fun i hi => ⟨hi, rfl⟩
  | receive hconn => exact hw.setPlayer fun hp => ⟨hp, rfl⟩
  | pop hconn => exact hw.setPlayer fun hp => ⟨hp, rfl⟩
  | flush hconn => exact hw.setPlayer fun hp => ⟨hp, rfl⟩
  | queue hconn hline hqueue =>
    rw [Player.queueVia_eq_some hqueue]
    exact hw.setPlayer fun hp => ⟨hp, rfl⟩
  | refuse hqueue => exact hw
  | register hconn hnew hvalid hunused =>
    refine hw.setPlayer fun hp => ?_
    have hreg := Player.isRegistered_of_isAdmitted (Player.isAdmitted_of_isAlive hp)
    rw [(Player.isRegistered_iff.mp hreg).2] at hnew
    cases hnew
  | choose hreg hout hchoice => exact hw.setPlayer fun hp => ⟨hp, rfl⟩
  | spawn hreg hout hrange hfree => exact hw.setPlayer fun hp => ⟨hp, rfl⟩
  | _ => simp [Event.isQuiet] at he

/-- Within a match the admitted players wait until the first round. -/
theorem Action.gathered {w : Server F} {e : Event F} {s : ServerState F} (h : Action w e s)
    (he : e.inMatch = true) (hw : Gathered w.state) : Gathered s := by
  cases h with
  | @accept i fd hfree =>
    have hset : Gathered (w.state.setPlayer i (initPlayerSlot fd w.state.nextId)) :=
      hw.setPlayer fun hp => by simp [Player.isAdmitted, initPlayerSlot, Player.zero] at hp
    exact hset.of_kept rfl fun i hi => .inr ⟨hi, rfl⟩
  | receive hconn => exact hw.setPlayer fun hp => .inr ⟨hp, rfl⟩
  | pop hconn => exact hw.setPlayer fun hp => .inr ⟨hp, rfl⟩
  | flush hconn => exact hw.setPlayer fun hp => .inr ⟨hp, rfl⟩
  | queue hconn hline hqueue =>
    rw [Player.queueVia_eq_some hqueue]
    exact hw.setPlayer fun hp => .inr ⟨hp, rfl⟩
  | drop hconn =>
    exact hw.setPlayer fun hp => by simp [Player.isAdmitted, Player.cleared, Player.zero] at hp
  | register hconn hnew hvalid hunused =>
    exact hw.setPlayer fun hp => by simp [Player.isAdmitted, Player.resetProgress] at hp
  | choose hreg hout hchoice => exact hw.setPlayer fun hp => .inr ⟨hp, rfl⟩
  | spawn hreg hout hrange hfree => exact hw.setPlayer fun hp => .inr ⟨hp, rfl⟩
  | submit hrepick halive hnew hchoice => exact hw.setPlayer fun hp => .inr ⟨hp, rfl⟩
  | enter hopen hplayer hcount => exact hw.setPlayer fun _ => .inl rfl
  | start hlater horder => exact fun hidle => absurd hidle (Nat.succ_ne_zero _)
  | applyRepicks hrepick hall =>
    refine hw.of_kept rfl fun i hi => .inr ?_
    obtain ⟨hadmitted, hwaiting, _, _⟩ := (w.state.players i).applyRepick_flags
    exact ⟨hadmitted ▸ hi, hwaiting⟩
  | enterRepick hlater hround hresolved => exact fun hidle => absurd hidle hround
  | @tick dt hround =>
    have hchased := simulateChaseTick_chased w.state dt
    refine hw.of_kept (by rw [hchased.table]) fun i hi => .inr ?_
    obtain ⟨alive, x, y, hp⟩ := hchased.player i
    rw [hp] at hi ⊢
    exact ⟨hi, rfl⟩
  | pair hlater hround hresolved => exact fun hidle => absurd hidle hround
  | clearRound hlater hresolved => exact hw.of_kept rfl fun i hi => .inr ⟨hi, rfl⟩
  | reset hover => cases he
  | resetProgress hreg hopen => cases he
  | _ => exact hw

theorem Gathered.along {w v : Server F} (h : Gathered w.state) (hpath : Acts w v) :
    Gathered v.state :=
  hpath.state_invariant Gathered (fun _ _ _ he hstep => hstep.gathered he) h

/-- Nested actions take nobody but the dropped clients out of the match. -/
theorem Action.allContend {w : Server F} {e : Event F} {s : ServerState F} (h : Action w e s)
    (he : e.isNested = true) (hw : AllContend w.state) : AllContend s := by
  have hset : ∀ (i : Slot) (p : Player F),
      (p.isAdmitted = true → p.isContender = (w.state.players i).isContender ∧
        (w.state.players i).isAdmitted = true) → AllContend (w.state.setPlayer i p) := by
    intro i p hp j hj
    by_cases hji : j = i
    · subst hji
      rw [ServerState.setPlayer_self] at hj ⊢
      rw [(hp hj).1]
      exact hw j (hp hj).2
    · rw [ServerState.setPlayer_of_ne _ _ hji] at hj ⊢
      exact hw j hj
  cases h with
  | queue hconn hline hqueue =>
    rw [Player.queueVia_eq_some hqueue]
    exact hset _ _ fun hp => ⟨rfl, hp⟩
  | refuse hqueue => exact hw
  | drop hconn =>
    exact hset _ _ fun hp => by simp [Player.isAdmitted, Player.cleared, Player.zero] at hp
  | cancel hopen hempty => exact hw
  | start hlater horder =>
    intro i hi
    simp only [startRound] at hi ⊢
    have hcontender : (w.state.players i).isContender = true := by
      refine hw i ?_
      unfold Player.enterRound at hi
      simp only at hi
      split at hi <;> exact hi
    rw [← Player.enterRound_isAlive] at hcontender
    exact Player.isContender_of_isAlive hcontender
  | finish hlater horder hwhy => exact hw
  | applyRepicks hrepick hall =>
    intro i hi
    obtain ⟨hadmitted, _, hcontender, _⟩ := (w.state.players i).applyRepick_flags
    exact hcontender.trans (hw i (hadmitted ▸ hi))
  | _ => cases he

/-- The loop of `broadcast_positions` at one slot, on the table alone: whoever has no room
for the line is dropped. -/
def ServerState.offerPosition (s : ServerState F) (i : Slot) : ServerState F :=
  if (s.players i).isAdmitted then s.broadcast (s.players i).line else s

/-- At some end of a repick, at most one of the players alive had room for REPICK_DONE and
the positions after it, where nobody gets the line of a client that was dropped before. -/
def RepickersLost (log : Log F) : Prop :=
  ∃ x ∈ log, x.event = .repicksFinished ∧
    activeAliveCount (slots.foldl ServerState.offerPosition (x.state.broadcast .repickDone)) ≤ 1

/-- The phase is settled, unless a repick has ended so. -/
def Progresses (w : Server F) : Prop := ¬RepickersLost w.log → Settled w.state

/-- An old record stays part of the new one. -/
theorem RepickersLost.along {P : Event F → Prop} {w v : Server F} (h : RepickersLost w.log)
    (hpath : Path Action P w v) : RepickersLost v.log := by
  obtain ⟨x, hx, hlost⟩ := h
  exact ⟨x, hpath.log_subset hx, hlost⟩

/-- The progress lasts where the phase and the players alive do. -/
theorem Progresses.along {P : Event F → Prop} {w v : Server F} (h : Progresses w)
    (hpath : Path Action P w v) (hkept : Settled w.state → Settled v.state) : Progresses v :=
  fun hno => hkept (h fun hlost => hno (hlost.along hpath))

/-- After a broadcast whoever is alive was alive, with the same submission and phase. -/
theorem ServerState.broadcast_isAlive {line : ServerLine F} {s : ServerState F} {i : Slot}
    (h : ((s.broadcast line).players i).isAlive = true) : (s.players i).isAlive = true ∧
      ((s.broadcast line).players i).repickSubmitted = (s.players i).repickSubmitted := by
  simp only [ServerState.broadcast] at h ⊢
  rcases (s.players i).afterBroadcast_cases line with ⟨outbuf, hp⟩ | ⟨_, _, hp⟩
  · rw [hp] at h ⊢
    exact ⟨h, rfl⟩
  · simp [hp, Player.isAlive, Player.cleared, Player.zero] at h

/-- A broadcast without an overflow changes buffers only. -/
theorem Settled.broadcast {line : ServerLine F} {s : ServerState F} (h : Settled s)
    (hfits : ¬overflows line s) : Settled (s.broadcast line) := by
  refine h.of_kept rfl fun i hi => ?_
  have hconn := Player.connected_of_isAdmitted (Player.isAdmitted_of_isAlive hi)
  simp only [ServerState.broadcast]
  rcases (s.players i).afterBroadcast_cases line with ⟨outbuf, hp⟩ | ⟨_, hfull, _⟩
  · rw [hp]
    exact ⟨hi, rfl⟩
  · exact absurd ⟨i, hconn, hfull⟩ hfits

/-- The end of a match leaves the phase GAME_OVER. -/
theorem endGame_phase (w : Server F) : (endGame w).state.phase = .gameOver := by
  have hstep : ∀ (v : Server F) i, v.state.phase = .gameOver →
      (announceResult v i).state.phase = .gameOver := by
    intro v i hv
    unfold announceResult
    split
    swap
    · exact hv
    have hsame : (queueGameOverResult i v).2.state.phase = v.state.phase := by
      unfold queueGameOverResult
      split
      · rfl
      · rw [(queueTo_rebuffered _ _ _ _).table]
    split <;> rename_i u hq <;> rw [hq] at hsame
    · exact hsame.trans hv
    · unfold dropSilently dropSlot
      split <;> exact hsame.trans hv
  have hloop : ∀ (is : List Slot) (v : Server F), v.state.phase = .gameOver →
      (is.foldl announceResult v).state.phase = .gameOver := by
    intro is
    induction is with
    | nil => exact fun v hv => hv
    | cons i is ih => exact fun v hv => ih _ (hstep v i hv)
  exact hloop slots _ rfl

theorem endGame_progresses (w : Server F) : Progresses (endGame w) :=
  fun _ => .of_phase (.inr (endGame_phase w))

/-- A re-entrant call that settles every server with fewer than `n` clients. -/
structure Settles (n : ℕ) (r : Server F → Option (Server F)) (reeval : Server F → Server F) :
    Prop where
  /-- It performs nested actions only. -/
  reacts : Reactive reeval
  /-- It returns, and connects nobody. -/
  returns : ReturnsBelow n r reeval
  /-- It settles the phase. -/
  settles : ∀ v, Inv v → Gathered v.state → connectedCount v.state < n → Progresses (reeval v)
  /-- It does nothing in a repick of two players that somebody has still to submit. -/
  calm : ∀ v, v.state.phase = .repick → 2 ≤ activeAliveCount v.state →
    (∃ i, (v.state.players i).isAlive = true ∧ (v.state.players i).repickSubmitted = false) →
    reeval v = v

section Nested

variable {n : ℕ} {r : Server F → Option (Server F)} {reeval : Server F → Server F}

/-- A broadcast. -/
theorem queueBroadcastWith_settled (hre : Settles n r reeval) (line : ServerLine F)
    {w : Server F} (hw : Inv w) (hwait : Gathered w.state)
    (hline : ∀ i, LineOk w i .broadcast line) (hcount : connectedCount w.state ≤ n)
    (hS : Progresses w) : Progresses (queueBroadcastWith reeval line w) := by
  obtain ⟨v, hv, hdrop, hfit, hover⟩ := queueBroadcastWith_eq reeval line w
  have hpath : Reacts w v := hdrop ▸ offerAll_dropAll_reacts hline
  by_cases hfull : overflows line w.state
  · rw [hover hfull]
    have hless := (broadcast_shrinks line w.state).2 hfull
    rw [← hv] at hless
    exact hre.settles v (hw.along hpath) (hwait.along (Reacts.acts hpath))
      (hless.trans_le hcount)
  · rw [hfit hfull]
    refine hS.along hpath fun hsettled => ?_
    rw [hv]
    exact hsettled.broadcast hfull

/-- The broadcast of all positions. -/
theorem broadcastPositionsWith_settled (hre : Settles n r reeval) {w : Server F} (hw : Inv w)
    (hwait : Gathered w.state) (hcount : connectedCount w.state ≤ n) (hS : Progresses w) :
    Progresses (broadcastPositionsWith reeval w) := by
  have hloop : ∀ (is : List Slot) (v : Server F), Inv v → Gathered v.state →
      connectedCount v.state ≤ n → Progresses v →
        Progresses (is.foldl (broadcastPositionWith reeval) v) := by
    intro is
    induction is with
    | nil => exact fun v _ _ _ hv => hv
    | cons i is ih =>
      intro v hinv hgathered hless hv
      rw [List.foldl_cons]
      unfold broadcastPositionWith
      split
      · rename_i hadmitted
        have hline : ∀ j, LineOk v j .broadcast (v.state.players i).line :=
          fun _ => ⟨i, hadmitted, rfl⟩
        have hpath := queueBroadcastWith_reacts hre.reacts _ hinv hline
        have hshrinks := (queueBroadcastIn_eq hre.returns (v.state.players i).line hless).2
        exact ih _ (hinv.along hpath) (hgathered.along (Reacts.acts hpath))
          (hshrinks.count_le.trans hless)
          (queueBroadcastWith_settled hre _ hinv hgathered hline hless hv)
      · exact ih v hinv hgathered hless hv
  exact hloop slots w hw hwait hcount hS

/-- The start of a round that two contenders enter. -/
theorem startActiveRoundWith_settled (hre : Settles n r reeval) {w : Server F} (hw : Inv w)
    (hphase : w.state.phase ≠ .lobbyOpen)
    (horder : w.state.phase = .setup ∨ FullAtClosing w.log ∨ RoundsResolved w.log)
    (hcount : connectedCount w.state ≤ n)
    (htwo : 2 ≤ slots.countP (fun i => (w.state.players i).isContender)) :
    Progresses (startActiveRoundWith reeval w) := by
  have hstep : Action w .roundStarted (startRound w.time w.state) := .start hphase horder
  have hinv := hstep.inv hw
  have hstarted : Progresses (w.record .roundStarted (startRound w.time w.state)) :=
    fun _ => settled_startRound htwo
  have hwait : Gathered (w.record .roundStarted (startRound w.time w.state)).state :=
    fun hidle => absurd hidle (Nat.succ_ne_zero _)
  have hsame : connectedCount (w.record .roundStarted (startRound w.time w.state)).state ≤ n := by
    refine le_of_eq_of_le (List.countP_congr fun i _ => ?_) hcount
    simp [startRound, Player.enterRound_connected]
  have hpath := queueBroadcastWith_reacts hre.reacts
    (.roundStart (startRound w.time w.state).roundNo ROUND_SECONDS) hinv (roundStart_ok hw)
  have hshrinks := (queueBroadcastIn_eq hre.returns
    (.roundStart (startRound w.time w.state).roundNo ROUND_SECONDS) hsame).2
  exact broadcastPositionsWith_settled hre (hinv.along hpath) (hwait.along (Reacts.acts hpath))
    (hshrinks.count_le.trans hsame)
    (queueBroadcastWith_settled hre _ hinv hwait (roundStart_ok hw) hsame hstarted)

omit [CFloat F] in
/-- The phase of a repick, in which nobody alive has submitted. -/
def Unsubmitted (s : ServerState F) : Prop :=
  s.phase = .repick ∧ ∀ i, (s.players i).isAlive = true → (s.players i).repickSubmitted = false

/-- Broadcasts leave fewer players alive, and no submission. -/
theorem broadcast_unsubmitted (line : ServerLine F) {s : ServerState F} (h : Unsubmitted s) :
    Unsubmitted (s.broadcast line) :=
  ⟨h.1, fun i hi => (ServerState.broadcast_isAlive hi).2.trans
    (h.2 i (ServerState.broadcast_isAlive hi).1)⟩

theorem activeAliveCount_broadcast (line : ServerLine F) (s : ServerState F) :
    activeAliveCount (s.broadcast line) ≤ activeAliveCount s :=
  activeAliveCount_mono fun _ hi => (ServerState.broadcast_isAlive hi).1

theorem activeAliveCount_offerPositions (is : List Slot) (s : ServerState F) :
    activeAliveCount (is.foldl ServerState.offerPosition s) ≤ activeAliveCount s := by
  induction is generalizing s with
  | nil => exact le_rfl
  | cons i is ih =>
    refine (ih _).trans ?_
    unfold ServerState.offerPosition
    split
    · exact activeAliveCount_broadcast _ s
    · exact le_rfl

/-- A broadcast that leaves two players of a repick, without the re-entrant call. -/
theorem queueBroadcastWith_calm (hre : Settles n r reeval) (line : ServerLine F) {w : Server F}
    (hw : Unsubmitted w.state) (htwo : 2 ≤ activeAliveCount (w.state.broadcast line)) :
    (queueBroadcastWith reeval line w).state = w.state.broadcast line := by
  obtain ⟨v, hv, _, hfit, hover⟩ := queueBroadcastWith_eq reeval line w
  by_cases hfull : overflows line w.state
  · rw [hover hfull]
    have hleft := broadcast_unsubmitted line hw
    rw [← hv] at htwo hleft ⊢
    obtain ⟨i, _, hi⟩ := List.countP_pos_iff.mp (Nat.lt_of_lt_of_le Nat.zero_lt_two htwo)
    rw [hre.calm v hleft.1 htwo ⟨i, hi, hleft.2 i hi⟩]
  · rw [hfit hfull, hv]

/-- The positions that leave two players of a repick. -/
theorem foldl_broadcastPositionWith_calm (hre : Settles n r reeval) (is : List Slot) {w : Server F}
    (hw : Unsubmitted w.state)
    (htwo : 2 ≤ activeAliveCount (is.foldl ServerState.offerPosition w.state)) :
    (is.foldl (broadcastPositionWith reeval) w).state =
      is.foldl ServerState.offerPosition w.state := by
  induction is generalizing w with
  | nil => rfl
  | cons i is ih =>
    rw [List.foldl_cons] at htwo ⊢
    have hfirst := htwo.trans (activeAliveCount_offerPositions is _)
    have hone : (broadcastPositionWith reeval w i).state = w.state.offerPosition i ∧
        Unsubmitted (w.state.offerPosition i) := by
      unfold broadcastPositionWith
      unfold ServerState.offerPosition at hfirst ⊢
      split
      · rename_i hadmitted
        rw [if_pos hadmitted] at hfirst
        exact ⟨queueBroadcastWith_calm hre _ hw hfirst, broadcast_unsubmitted _ hw⟩
      · exact ⟨rfl, hw⟩
    rw [← hone.1] at htwo
    rw [ih (hone.1 ▸ hone.2) htwo, hone.1, List.foldl_cons]

omit [CFloat F] in
/-- The server right after the submitted choices were applied. -/
def repicked (w : Server F) : Server F :=
  w.record .repicksFinished
    { w.state with players := fun i => (w.state.players i).applyRepick }

omit [CFloat F] in
/-- Nobody has submitted for the next repick. -/
theorem repicked_unsubmitted {w : Server F} (hphase : w.state.phase = .repick) :
    Unsubmitted (repicked w).state := by
  refine ⟨hphase, fun i hi => ?_⟩
  simp only [repicked, System.record_state] at hi ⊢
  rw [(w.state.players i).applyRepick_flags.2.2.2] at hi
  simp [Player.applyRepick, hi]

/-- The end of a repick: the round starts with the players that are left. -/
theorem finishRepicksWith_settled (hre : Settles n r reeval) {w : Server F} (hw : Inv w)
    (hphase : w.state.phase = .repick) (hall : allAliveRepicked w.state = true)
    (hcount : connectedCount w.state ≤ n) : Progresses (finishRepicksWith reeval w) := by
  show Progresses (startActiveRoundWith reeval (broadcastPositionsWith reeval
    (queueBroadcastWith reeval .repickDone (repicked w))))
  intro hno
  have hstep : Action w .repicksFinished (repicked w).state := .applyRepicks hphase hall
  have hinv : Inv (repicked w) := hstep.inv hw
  have hless : connectedCount (repicked w).state ≤ n := by
    refine le_of_eq_of_le (List.countP_congr fun i _ => ?_) hcount
    simp only [repicked, System.record_state, Player.applyRepick]
    split <;> rfl
  have hdone := queueBroadcastWith_reacts hre.reacts .repickDone hinv fun _ => trivial
  have hpos := broadcastPositionsWith_reacts hre.reacts (hinv.along hdone)
  have hpath := hdone.trans hpos
  have hlater := Acts.later (Reacts.acts hpath) (by simp [repicked, hphase])
  have hresolved : RoundsResolved (repicked w).log := ⟨_, List.mem_cons_self, .inr rfl⟩
  have hstart := startActiveRoundWith_reacts hre.reacts (hinv.along hpath) hlater
    (.inr (.inr (hresolved.along hpath)))
  -- The record shows the table from which the broadcasts go on.
  have htwo : 2 ≤ activeAliveCount
      (slots.foldl ServerState.offerPosition ((repicked w).state.broadcast .repickDone)) := by
    by_contra hfew
    have hlost : RepickersLost (repicked w).log :=
      ⟨_, List.mem_cons_self, rfl, Nat.le_of_lt_succ (not_le.mp hfew)⟩
    exact hno (hlost.along (hpath.trans hstart))
  have hnew := repicked_unsubmitted hphase
  have hfirst := queueBroadcastWith_calm hre .repickDone hnew
    (htwo.trans (activeAliveCount_offerPositions slots _))
  have hleft := broadcast_unsubmitted .repickDone hnew
  rw [← hfirst] at htwo hleft
  have hsecond := foldl_broadcastPositionWith_calm hre slots hleft htwo
  have halive : 2 ≤ activeAliveCount (broadcastPositionsWith reeval
      (queueBroadcastWith reeval .repickDone (repicked w))).state := by
    unfold broadcastPositionsWith
    rwa [hsecond]
  have hshrinks := (queueBroadcastIn_eq hre.returns .repickDone hless).2.count_le
  have hmore := (broadcastPositionsIn_eq hre.returns (hshrinks.trans hless)).2.count_le
  exact startActiveRoundWith_settled hre (hinv.along hpath) hlater
    (.inr (.inr (hresolved.along hpath))) ((hmore.trans hshrinks).trans hless)
    (halive.trans (activeAliveCount_le_contenders _)) hno

omit [CFloat F] in
/-- Who is admitted is ready for the match. -/
theorem allAdmittedReady_of_inv {w : Server F} (hw : Inv w) (htwo : ¬admittedCount w.state < 2) :
    allAdmittedReady w.state = true := by
  simp only [allAdmittedReady, Bool.and_eq_true, List.all_eq_true, Bool.or_eq_true,
    Bool.not_eq_true', decide_eq_true_eq]
  refine ⟨fun i _ => ?_, not_lt.mp htwo⟩
  cases hi : (w.state.players i).isAdmitted with
  | false => exact .inl rfl
  | true =>
    have hadmitted := (Player.isAdmitted_iff.mp hi).2
    exact .inr (hw.slots i (Player.connected_of_isAdmitted hi) |>.ready hadmitted).2

omit [CFloat F] in
/-- Somebody alive has not submitted. -/
theorem exists_unsubmitted {s : ServerState F} (htwo : 2 ≤ activeAliveCount s)
    (hall : allAliveRepicked s ≠ true) :
    ∃ i, (s.players i).isAlive = true ∧ (s.players i).repickSubmitted = false := by
  by_contra hnone
  refine hall ?_
  simp only [not_exists, not_and, Bool.not_eq_false] at hnone
  obtain ⟨i, _, hi⟩ := List.countP_pos_iff.mp (Nat.lt_of_lt_of_le Nat.zero_lt_two htwo)
  simp only [allAliveRepicked, Bool.and_eq_true, List.all_eq_true, List.any_eq_true,
    Bool.or_eq_true, Bool.not_eq_true']
  refine ⟨fun j _ => ?_, i, mem_slots i, hi⟩
  cases hj : (s.players j).isAlive with
  | false => exact .inl rfl
  | true => exact .inr (hnone j hj)

/-- The body of `reevaluate_state`, in every phase. -/
theorem reevaluateBody_settled (hre : Settles n r reeval) {w : Server F} (hw : Inv w)
    (hwait : Gathered w.state) (hcount : connectedCount w.state ≤ n) :
    Progresses (reevaluateBody reeval w) := by
  unfold reevaluateBody
  split
  · rename_i hphase
    exact fun _ => .of_phase (.inr hphase)
  · rename_i hphase
    unfold reevaluateLobbyOpen
    split <;> exact fun _ => .of_phase (.inl hphase)
  · rename_i hphase
    unfold reevaluateSetup
    split
    · exact endGame_progresses w
    rename_i hmany
    rw [if_pos (allAdmittedReady_of_inv hw hmany)]
    exact startActiveRoundWith_settled hre hw (by simp [hphase]) (.inl hphase) hcount
      ((not_lt.mp hmany).trans (hwait.allContend (hw.idle (.inr hphase))).admittedCount_le)
  · rename_i hphase
    unfold reevaluateRepick
    split
    · exact endGame_progresses w
    rename_i hmany
    split
    · rename_i hall
      exact finishRepicksWith_settled hre hw hphase hall hcount
    · rename_i hall
      have htwo : 2 ≤ activeAliveCount w.state := not_le.mp hmany
      exact fun _ => ⟨by simp [hphase], by simp [hphase],
        fun _ => ⟨htwo, exists_unsubmitted htwo hall⟩⟩
  · rename_i hphase
    unfold reevaluateRoundActive
    split
    · exact endGame_progresses w
    · rename_i hmany
      exact fun _ => ⟨by simp [hphase], fun _ => not_le.mp (not_or.mp hmany).1, by simp [hphase]⟩

end Nested

/-- A repick that two players alive wait for is left alone. -/
theorem reevaluateWithin_calm (depth : ℕ) {w : Server F} (hphase : w.state.phase = .repick)
    (htwo : 2 ≤ activeAliveCount w.state)
    (hnew : ∃ i, (w.state.players i).isAlive = true ∧ (w.state.players i).repickSubmitted = false) :
    reevaluateWithin depth w = w := by
  cases depth with
  | zero => rfl
  | succ depth =>
    obtain ⟨i, hi, hopen⟩ := hnew
    have hall : allAliveRepicked w.state ≠ true := by
      intro hall
      simp only [allAliveRepicked, Bool.and_eq_true, List.all_eq_true] at hall
      have hsubmitted := hall.1 i (mem_slots i)
      simp [hi, hopen] at hsubmitted
    simp only [reevaluateWithin, reevaluateBody, hphase, reevaluateRepick]
    rw [if_neg (not_le.mpr htwo), if_neg hall]

/-- `reevaluate_state` settles the phase, by induction on the nesting depth. -/
theorem reevaluateWithin_settles (depth : ℕ) :
    Settles depth (reevaluateIn depth) (reevaluateWithin depth : Server F → Server F) := by
  induction depth with
  | zero =>
    exact ⟨reevaluateWithin_reacts 0, fun v hv => absurd hv (Nat.not_lt_zero _),
      fun v _ _ hv => absurd hv (Nat.not_lt_zero _), fun _ => reevaluateWithin_calm 0⟩
  | succ depth ih =>
    exact ⟨reevaluateWithin_reacts _, fun v hv => reevaluateIn_eq _ _ v hv hv,
      fun v hinv hwait hv => reevaluateBody_settled ih hinv hwait (Nat.le_of_lt_succ hv),
      fun _ => reevaluateWithin_calm _⟩

theorem reevaluateState_settles :
    Settles (MAX_PLAYERS + 1) (reevaluateIn (MAX_PLAYERS + 1))
      (reevaluateState : Server F → Server F) :=
  reevaluateWithin_settles _

omit [CFloat F] in
/-- There are never too many clients for it. -/
theorem connectedCount_le_levels (s : ServerState F) : connectedCount s ≤ MAX_PLAYERS + 1 :=
  (connectedCount_le s).trans (Nat.le_succ _)

/-- What holds between the steps. -/
def Advancing (w : Server F) : Prop := Gathered w.state ∧ Progresses w

/-- What the broadcasts and handlers need to know. -/
theorem advancing_restored : Restored (fun w : Server F => Gathered w.state) Advancing :=
  .of_actions (fun _ _ hS => hS.1)
    (fun w e s _ hstep he => by
      have hmatch : e.inMatch = true := by
        rcases he with ⟨i, via, line, rfl⟩ | ⟨i, via, line, rfl⟩ <;> rfl
      refine ⟨fun hS => ⟨hstep.gathered hmatch hS.1, ?_⟩, hstep.gathered hmatch⟩
      have hone : Acts w (w.record e s) := .single hmatch hstep
      exact hS.2.along hone (hstep.settled (he.imp_right .inl)))
    (fun _ _ _ _ _ _ hstep => hstep.gathered rfl)
    (fun w hw hwait => ⟨hwait.along (Reacts.acts (reevaluateState_reacts w hw)),
      reevaluateState_settles.settles w hw hwait (Nat.lt_succ_of_le (connectedCount_le w.state))⟩)

/-- One action that keeps a settled phase. -/
theorem Advancing.record {w : Server F} {e : Event F} {s : ServerState F} (h : Advancing w)
    (hstep : Action w e s) (he : e.inMatch = true) (hkept : Settled w.state → Settled s) :
    Advancing (w.record e s) := by
  have hone : Acts w (w.record e s) := .single he hstep
  exact ⟨h.1.along hone, h.2.along hone hkept⟩

/-- The admission. -/
theorem maybeAdmitPlayer_advancing {i : Slot} {w : Server F} (hw : Inv w)
    (htile : OccupantsUnseen w.state i w.log)
    (hS : Advancing w) : Advancing (maybeAdmitPlayer i w) := by
  refine advancing_restored.maybeAdmitPlayer hw htile (fun hopened => ?_)
    (fun v hadm hv => hv.record hadm.action rfl fun _ => .of_phase (.inl hadm.phase)) hS
  have hphase : w.state.phase = .lobbyOpen := by cases hopened; assumption
  have hstart : Advancing (opened i w) := hS.record hopened rfl fun _ => .of_phase (.inl hphase)
  exact advancing_restored.queueBroadcast _ (hopened.inv hw)
    (fun _ => ⟨hphase, fun hclock => opened_joinDeadline i hclock⟩) hstart

/-- REPICK: the last submission ends the repick, and any other one leaves somebody to
submit. -/
theorem handleRepickCommand_advancing {i : Slot} {args : Option (List Char)} {w : Server F}
    (hw : Inv w) (hconn : (w.state.players i).connected = true) (hS : Advancing w) :
    Advancing (handleRepickCommand i args w) := by
  have hrule : Restored (fun w : Server F => Gathered w.state) Advancing := advancing_restored
  refine ⟨hS.1.along (handleRepickCommand_acts hw hconn), ?_⟩
  rcases handleRepickCommand_cases i args w with
    ⟨reason, heq⟩ | ⟨choice, s, v, hs, hv, hphase, hstep, heq⟩ <;> rw [heq]
  · exact (hrule.reply (.error reason) hw rfl hconn trivial hS).2
  have hkept : ∀ j, (w.state.players j).isAlive = true → (s.players j).isAlive = true := by
    intro j hj
    subst hs
    by_cases hji : j = i
    · subst hji
      rw [ServerState.setPlayer_self]
      exact hj
    · rwa [ServerState.setPlayer_of_ne _ _ hji]
  have hrepick : s.phase = .repick := by
    rw [hs]
    exact hphase
  have hsubmit : Acts w (w.record (.repicked i) s) := .single rfl (hstep hconn).2
  have hsconn : (s.players i).connected = true :=
    Player.connected_of_isAdmitted (Player.isAdmitted_of_isAlive (hkept i (hstep hconn).1))
  have hreply : Serves (w.record (.repicked i) s)
      (reply (.repickOk choice) i (w.record (.repicked i) s)) := reply_serves _ hsconn trivial
  have hsame := reply_rebuffered (.repickOk choice) i (w.record (.repicked i) s)
  have hconn' : ((reply (.repickOk choice) i (w.record (.repicked i) s)).state.players
      i).connected = true := reply_connected (.repickOk choice) i hsconn
  rw [← hv] at hreply hsame hconn'
  have hpath := hsubmit.trans (Serves.acts hreply)
  have hinv := hw.along hpath
  have hvphase : v.state.phase = .repick := by
    rw [hsame.table]
    exact hrepick
  split
  · rename_i hall
    exact finishRepicksWith_settled reevaluateState_settles hinv hvphase hall
      (connectedCount_le_levels _)
  · rename_i hsome
    have hwaiting : Progresses v := hS.2.along hpath fun hsettled => by
      have htwo : 2 ≤ activeAliveCount v.state := by
        refine (hsettled.repick hphase).1.trans (activeAliveCount_mono fun j hj => ?_)
        rw [hsame.player j]
        exact hkept j hj
      exact ⟨by simp [hvphase], by simp [hvphase],
        fun _ => ⟨htwo, exists_unsubmitted htwo hsome⟩⟩
    exact (hrule.reply .repickWaiting hinv rfl hconn' trivial ⟨hS.1.along hpath, hwaiting⟩).2

/-- The closing of the lobby decides the match. -/
theorem closeLobbyIfNeeded_advancing {w : Server F} (hw : Inv w) (hS : Advancing w) :
    Advancing (closeLobbyIfNeeded w) := by
  refine ⟨hS.1.along (closeLobbyIfNeeded_acts hw), ?_⟩
  rcases closeLobbyIfNeeded_eq w with hsame | ⟨hclose, heq⟩
  · rw [hsame]
    exact hS.2
  have hidle : w.state.roundNo = 0 := by
    cases hclose with
    | closeLobby hphase hcount htime => exact hw.idle (.inl hphase)
  have hinv : Inv (closed w) := hclose.inv hw
  obtain ⟨htold, hlater, horder⟩ := closingTold_reacts hinv
  have hall : AllContend (closed w).state := hS.1.allContend hidle
  have hcontend : AllContend (closingTold w).state :=
    htold.state_invariant AllContend (fun _ _ _ he hstep => hstep.allContend he) hall
  have hinv' := hinv.along htold
  rw [heq]
  unfold decideSetup
  split
  · exact endGame_progresses _
  · rename_i hmany
    rw [if_pos (allAdmittedReady_of_inv hinv' hmany)]
    exact startActiveRoundWith_settled reevaluateState_settles hinv' hlater
      (horder.imp_right .inl) (connectedCount_le_levels _)
      ((not_lt.mp hmany).trans hcontend.admittedCount_le)

omit [CFloat F] in
/-- Two types alive are held by two players. -/
theorem exists_two_types {s : ServerState F} (h : ¬countChoiceTypesAlive s ≤ 1) :
    ∃ i j, (s.players i).isAlive = true ∧ (s.players j).isAlive = true ∧
      (s.players i).choice ≠ (s.players j).choice := by
  have hpair : ∀ c d, c ≠ d → typeAlive s c = true → typeAlive s d = true →
      ∃ i j, (s.players i).isAlive = true ∧ (s.players j).isAlive = true ∧
        (s.players i).choice ≠ (s.players j).choice := by
    intro c d hcd hc hd
    obtain ⟨i, _, hi⟩ := List.any_eq_true.mp hc
    obtain ⟨j, _, hj⟩ := List.any_eq_true.mp hd
    simp only [Bool.and_eq_true, beq_iff_eq] at hi hj
    exact ⟨i, j, hi.1, hj.1, by rwa [hi.2, hj.2]⟩
  unfold countChoiceTypesAlive at h
  cases hr : typeAlive s 'R' with
  | true =>
    cases hs : typeAlive s 'S' with
    | true => exact hpair 'R' 'S' (by decide) hr hs
    | false =>
      cases hp : typeAlive s 'P' with
      | true => exact hpair 'R' 'P' (by decide) hr hp
      | false => simp [hr, hs, hp] at h
  | false =>
    cases hs : typeAlive s 'S' with
    | true =>
      cases hp : typeAlive s 'P' with
      | true => exact hpair 'S' 'P' (by decide) hs hp
      | false => simp [hr, hs, hp] at h
    | false =>
      cases hp : typeAlive s 'P' <;> simp [hr, hs, hp] at h

omit [CFloat F] in
/-- So they are two players. -/
theorem two_le_activeAliveCount {s : ServerState F} (h : ¬countChoiceTypesAlive s ≤ 1) :
    2 ≤ activeAliveCount s := by
  obtain ⟨i, j, hi, hj, hne⟩ := exists_two_types h
  exact two_le_countP _ (fun hij => hne (by rw [hij])) hi hj

/-- A chase tick, which calls `reevaluate_state` when at most one type is left. -/
theorem chaseTick_advancing {w : Server F} (hw : Inv w) (hphase : w.state.phase = .roundActive)
    (dt : F) (hS : Advancing w) :
    Advancing (if (simulateChaseTick w.state dt).2 then
      reevaluateState (broadcastPositions (w.record .chaseTicked (simulateChaseTick w.state dt).1))
    else broadcastPositions (w.record .chaseTicked (simulateChaseTick w.state dt).1)) := by
  have hrule : Restored (fun w : Server F => Gathered w.state) Advancing := advancing_restored
  have hstep : Action w .chaseTicked (simulateChaseTick w.state dt).1 := .tick hphase
  have hinv := hstep.inv hw
  have hwait : Gathered (w.record .chaseTicked (simulateChaseTick w.state dt).1).state := by
    rw [System.record_state]
    exact hstep.gathered rfl hS.1
  split
  · have hpath := broadcastPositions_reacts hinv
    have hafter := Gathered.along hwait (Reacts.acts hpath)
    exact hrule.reeval _ (hinv.along hpath) hafter
  · rename_i htypes
    have hround : (simulateChaseTick w.state dt).1.phase = .roundActive := by
      rw [(simulateChaseTick_chased w.state dt).table]
      exact hphase
    have htwo : 2 ≤ activeAliveCount (simulateChaseTick w.state dt).1 :=
      two_le_activeAliveCount (by simpa [simulateChaseTick] using htypes)
    refine hrule.broadcastPositions hinv (hS.record hstep rfl fun _ => ?_)
    exact ⟨by simp [hround], fun _ => htwo, by simp [hround]⟩

/-- The start of the repick of two players alive. -/
theorem beginRepicks_advancing {w : Server F} (hw : Resolving w) (hwait : Gathered w.state)
    (htwo : 2 ≤ activeAliveCount w.state) : Advancing (beginRepicks w) := by
  have hrule : Restored (fun w : Server F => Gathered w.state) Advancing := advancing_restored
  have hstep : Action w .repicksBegun { w.state with
      phase := .repick, players := fun i => (w.state.players i).clearRepick } :=
    .enterRepick hw.later hw.round hw.resolved
  have hinv := hstep.inv hw.inv
  have hbegun : Advancing (w.record .repicksBegun { w.state with
      phase := .repick, players := fun i => (w.state.players i).clearRepick }) := by
    obtain ⟨i, _, hi⟩ := List.countP_pos_iff.mp (Nat.lt_of_lt_of_le Nat.zero_lt_two htwo)
    exact ⟨hstep.gathered rfl hwait, fun _ => ⟨nofun, nofun, fun _ => ⟨htwo, i, hi, rfl⟩⟩⟩
  exact hrule.broadcastPositions
    (hinv.along (queueBroadcast_reacts .repickStart hinv fun _ => trivial))
    (hrule.queueBroadcast .repickStart hinv (fun _ => trivial) hbegun)

/-- `resolve_round` ends the match, or goes on with two players alive. -/
theorem concludeRound_advancing {w : Server F} (hw : Resolving w) (hwait : Gathered w.state) :
    Advancing (concludeRound w) := by
  refine ⟨hwait.along (concludeRound_acts hw), ?_⟩
  have hclear : Acts w (w.record .roundCleared
      { w.state with players := fun i => { w.state.players i with inRound := false } }) :=
    .single rfl (.clearRound hw.later hw.resolved)
  have hpos := broadcastPositions_reacts (hw.along hclear).inv
  have hpath := hclear.trans (Reacts.acts hpos)
  have hend := hw.along hpath
  have hwait' := hwait.along hpath
  unfold concludeRound
  simp only
  generalize broadcastPositions (w.record .roundCleared
    { w.state with players := fun i => { w.state.players i with inRound := false } }) = v
    at hend hwait' ⊢
  split
  · exact endGame_progresses _
  rename_i hmany
  split
  · exact (beginRepicks_advancing hend hwait' (not_le.mp hmany)).2
  · have htwo := Nat.le_trans (not_le.mp hmany) (activeAliveCount_le_contenders _)
    have hstart := startActiveRoundWith_settled reevaluateState_settles hend.inv hend.later
      (.inr (.inr hend.resolved)) (connectedCount_le_levels _) htwo
    exact hstart

/-- `resolve_round` in an active round. -/
theorem resolveRound_advancing {w : Server F} (hw : Inv w) (hphase : w.state.phase = .roundActive)
    (hwait : Gathered w.state) : Advancing (resolveRound w) := by
  have hresolving : Resolving (w.record .resolving w.state) :=
    ⟨(Action.resolve hphase).inv hw, by simp [hphase], hw.running (.inl hphase),
      ⟨_, List.mem_cons_self, .inl rfl⟩⟩
  have hwait : Gathered (w.record .resolving w.state).state := by rwa [System.record_state]
  have hpairs := foldl_resolvePair_acts hresolving
    (buildPairs (w.record .resolving w.state).state (MAX_PLAYERS / 2)).1
  have hbye := announceBye_acts (hresolving.along hpairs).inv
    (buildPairs (w.record .resolving w.state).state (MAX_PLAYERS / 2)).2
  have hpath := hpairs.trans hbye
  have hafter := hwait.along hpath
  have hend := hresolving.along hpath
  have hdone := concludeRound_advancing hend hafter
  exact hdone

/-- The phase is settled between the steps of every run, unless a repick has lost its
players. -/
theorem advancing_upheld : Upheld (fun w : Server F => Gathered w.state) Advancing where
  toRestored := advancing_restored
  quiet _ _ _ _ hstep he hS :=
    hS.record hstep (by
      rename_i e _ _
      cases e <;> first | rfl | cases he) (hstep.settled (.inr (.inr (.inl he))))
  dropNew w i _ _ _ hstep hnew hS := hS.record hstep rfl fun hsettled => by
    cases hstep with
    | drop hconn =>
      refine hsettled.setPlayer fun hp => ?_
      have hreg := Player.isRegistered_of_isAdmitted (Player.isAdmitted_of_isAlive hp)
      rw [(Player.isRegistered_iff.mp hreg).2] at hnew
      cases hnew
  hello _ _ _ hw hconn hargs hS := advancing_restored.hello
    (fun _ i _ _ hstep hv =>
      hv.record hstep rfl (hstep.settled (.inr (.inr (.inr ⟨i, rfl⟩))))) hw hconn hargs hS
  admits _ _ hw htile hS := maybeAdmitPlayer_advancing hw htile hS
  repick _ _ _ hw hconn hS := handleRepickCommand_advancing hw hconn hS
  closes _ hw hS := closeLobbyIfNeeded_advancing hw hS
  expires w hw hS := by
    have hacts := expireUnreadySetupPlayers_acts hw
    refine ⟨hS.1.along hacts, fun hno => ?_⟩
    have hsettled : Settled w.state := hS.2 fun hlost => hno (hlost.along hacts)
    simpa [expireUnreadySetupPlayers, hsettled.setup] using hsettled
  ticks _ dt hw hphase hS := chaseTick_advancing hw hphase dt hS
  resets w _ _ _ := by
    refine ⟨fun _ i hi => ?_, fun _ => .of_phase (.inl (resetMatch_state w).1)⟩
    rw [(resetMatch_state w).2.2 i] at hi
    cases hi

/-- In every state that a run reaches between two steps, also one with steps of
`resolve_round`, the phase is never the setup, a round has two players alive, and a repick
has two of which one has still to submit, if at every end of a repick two of the players
alive have room for REPICK_DONE and the positions. -/
theorem phase_settled {loopOnly : Bool} {w : Server F} (h : Reached loopOnly w)
    (hroom : ¬RepickersLost w.log) : Settled w.state := by
  have hinit : ∀ clock, Advancing (Server.init clock : Server F) := by
    intro clock
    refine ⟨fun _ i hi => ?_, fun _ => .of_phase (.inl rfl)⟩
    simp [Server.init, initServerState, Player.isAdmitted, Player.zero] at hi
  exact (advancing_upheld.reached hinit
    (fun v _ hv hS hphase => resolveRound_advancing hv hphase hS.1) h).2 hroom

/-- The event is the end of a repick. -/
def Event.isRepicksFinished : Event F → Bool
  | .repicksFinished => true
  | _ => false

/-- Two players of one type tie, and both repick. -/
def repickOfTwo : List Step :=
  join 0 3 "A" "R" "2 2" ++ join 1 4 "B" "R" "5 5" ++ [.timers 0, .resolve] ++
    say 0 "REPICK R" ++ say 1 "REPICK P"

theorem repickOfTwo_state :
    ((serverAfter (lateClock 60) repickOfTwo).log.countP fun x =>
        x.event.isRepicksFinished) = 1 ∧
      ((serverAfter (lateClock 60) repickOfTwo).log.all fun x =>
        !x.event.isRepicksFinished || decide (1 < activeAliveCount
          (slots.foldl ServerState.offerPosition (x.state.broadcast .repickDone)))) = true := by
  decide +kernel

/-- The round after a repick. -/
theorem phase_settled_repick :
    ((serverAfter (lateClock 60) repickOfTwo).log.countP fun x =>
        x.event.isRepicksFinished) = 1 ∧
      Settled (serverAfter (lateClock 60) repickOfTwo).state := by
  obtain ⟨hfinished, hroom⟩ := repickOfTwo_state
  refine ⟨hfinished, phase_settled (@reached_serverAfter false _ repickOfTwo rfl) ?_⟩
  rintro ⟨x, hx, hevent, hfew⟩
  have hone := List.all_eq_true.mp hroom x hx
  simp only [hevent, Event.isRepicksFinished, Bool.not_true, Bool.false_or,
    decide_eq_true_eq] at hone
  omega

/-- Two players of one type tie. One of them fills its send buffer, and both repick. -/
def repickOfFullClient : List Step :=
  join 0 3 "A" "R" "2 2" ++ join 1 4 "B" "R" "5 5" ++ [.timers 0, .resolve] ++
    (List.replicate 8 (flood 0 32 "REMATCH")).flatten ++ flood 0 15 "REMATCH" ++
      say 0 "REPICK R" ++ say 1 "REPICK P"

theorem repickOfFullClient_state :
    (serverAfter (lateClock 60) repickOfFullClient).state.phase = .roundActive ∧
      activeAliveCount (serverAfter (lateClock 60) repickOfFullClient).state = 1 := by
  decide +kernel

/-- The full client falls on REPICK_DONE, the match ends, and its round starts with one
player. -/
theorem round_of_one_player :
    Reached false (serverAfter (lateClock 60) repickOfFullClient) ∧
      ¬Settled (serverAfter (lateClock 60) repickOfFullClient).state := by
  refine ⟨reached_serverAfter _ rfl, fun h => ?_⟩
  obtain ⟨hphase, hcount⟩ := repickOfFullClient_state
  exact absurd (h.round hphase) (by rw [hcount]; decide)

end BattleRoyale
