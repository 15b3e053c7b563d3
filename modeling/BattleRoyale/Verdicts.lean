import BattleRoyale.Elimination
import BattleRoyale.MatchLifecycle
import BattleRoyale.Exact

/-!
# Verdicts agree

In a run of the loop, all contenders share a choice from the end of a match to the
next reset. Then nobody can be eliminated any more, so a player who was told that it
won stays a contender as long as it is connected, and a player who was told that it
lost never becomes one again. No identifier is told both.
-/

namespace BattleRoyale

open Recorded

variable {F : Type}

/-- All contenders share a choice. -/
def SameChoice (s : ServerState F) : Prop :=
  ∀ i j, (s.players i).isContender = true → (s.players j).isContender = true →
    (s.players i).choice = (s.players j).choice

/-- A result line with this verdict was queued for this identifier in the current match. -/
def Told (v : Verdict) (n : ℕ) (log : Log F) : Prop :=
  ∃ x ∈ since Event.isReset log, ∃ i via,
    x.event = .queued i via (.gameOver v) ∧ (x.state.players i).id = n

/-- The verdicts of the current match at one moment: a WIN line is queued among
contenders of one choice only, and nobody has been told both results. -/
def VerdictsAgree (past : Log F) : Prop :=
  (∀ x rest, past = x :: rest → (∃ i via, x.event = .queued i via (.gameOver .win)) →
    SameChoice x.state) ∧
  ∀ n, ¬(Told .win n past ∧ Told .lose n past)

/-- One slot after an action, compared with the slot before it, when nobody can be
eliminated: a contender was one with the same choice, and a client that is still there
is as much a contender as before, unless its identifier is new. -/
structure Steadfast (nextId : ℕ) (p q : Player F) : Prop where
  /-- No new contenders, and no new choices. -/
  contender : q.isContender = true → p.isContender = true ∧ q.choice = p.choice
  /-- No contender is lost while it is connected. -/
  stays : q.connected = true →
    q.id = nextId ∨ (p.connected = true ∧ q.id = p.id ∧ q.isContender = p.isContender)

theorem Steadfast.same {nextId : ℕ} {p q : Player F} (h : q.connected = p.connected ∧
    q.id = p.id ∧ q.isContender = p.isContender ∧ q.choice = p.choice) :
    Steadfast nextId p q where
  contender hq := ⟨h.2.2.1 ▸ hq, h.2.2.2⟩
  stays hq := .inr ⟨h.1 ▸ hq, h.2.1, h.2.2.1⟩

/-- A player that was and is no contender. -/
theorem Steadfast.outsider {nextId : ℕ} {p q : Player F} (hp : p.isContender = false)
    (hq : q.isContender = false)
    (hid : q.connected = true → q.id = nextId ∨ (p.connected = true ∧ q.id = p.id)) :
    Steadfast nextId p q where
  contender h := by rw [hq] at h; cases h
  stays h := (hid h).imp_right fun hold => ⟨hold.1, hold.2, by rw [hp, hq]⟩

/-- Replacing one entry. -/
theorem steadfast_setPlayer {s : ServerState F} {nextId : ℕ} {i j : Slot} {p : Player F}
    (h : Steadfast nextId (s.players i) p) :
    Steadfast nextId (s.players j) ((s.setPlayer i p).players j) := by
  by_cases hj : j = i
  · subst hj
    rwa [ServerState.setPlayer_self]
  · rw [ServerState.setPlayer_of_ne _ _ hj]
    exact .same ⟨rfl, rfl, rfl, rfl⟩

/-- A player that is not admitted is no contender. -/
theorem Player.isContender_of_not_admitted {p : Player F} (h : p.admitted = false) :
    p.isContender = false := by
  simp [isContender, isAdmitted, h]

/-- A free slot holds no contender. -/
theorem Player.isContender_of_free {p : Player F} (h : p.connected = false) :
    p.isContender = false := by
  simp [isContender, isAdmitted, h]

/-- Players alive share a choice when at most one type is left. -/
theorem same_of_countAliveChoiceTypes {s : ServerState F} (h : countAliveChoiceTypes s ≤ 1)
    {i j : Slot} (hi : (s.players i).isAlive = true) (hj : (s.players j).isAlive = true)
    (hci : IsChoice (s.players i).choice) (hcj : IsChoice (s.players j).choice) :
    (s.players i).choice = (s.players j).choice := by
  have htype : ∀ k, (s.players k).isAlive = true → ∀ c, (s.players k).choice = c →
      typeAlive s c = true := by
    intro k hk c hc
    exact List.any_eq_true.mpr ⟨k, mem_slots k, by simp [hk, hc]⟩
  unfold countAliveChoiceTypes at h
  rcases hci with hi' | hi' | hi' <;> rcases hcj with hj' | hj' | hj' <;> rw [hi', hj']
  -- Two different choices would count as two types.
  all_goals
    have h1 := htype i hi _ hi'
    have h2 := htype j hj _ hj'
    simp only [h1, h2, Bool.toNat_true] at h
    omega

/-- What one more entry adds to the results of the match. -/
theorem told_cons {v : Verdict} {n : ℕ} {e : Event F} {s : ServerState F} {log : Log F}
    (he : e.isReset = false) (h : Told v n (⟨e, s⟩ :: log)) :
    (∃ i via, e = .queued i via (.gameOver v) ∧ (s.players i).id = n) ∨ Told v n log := by
  obtain ⟨x, hx, htold⟩ := h
  rw [since_cons he] at hx
  rcases List.mem_cons.mp hx with rfl | hx
  · exact .inl htold
  · exact .inr ⟨x, hx, htold⟩

/-- A reset begins a match without results. -/
theorem not_told_reset {v : Verdict} {n : ℕ} {e : Event F} {s : ServerState F} {log : Log F}
    (he : e.isReset = true) : ¬Told v n (⟨e, s⟩ :: log) := by
  rintro ⟨x, hx, _⟩
  rw [since_cons_stop he] at hx
  cases hx

/-- The verdict that `queue_game_over_result` computes. -/
theorem Player.isContender_of_verdict {p : Player F} {v : Verdict} (h : p.verdict = some v) :
    p.connected = true ∧ (v = .win → p.isContender = true) ∧
      (v = .lose → p.isContender = false) := by
  unfold verdict at h
  split at h
  · cases h
  rename_i hreg
  have hconn : p.connected = true := by
    simp only [Bool.or_eq_true, Bool.not_eq_true', not_or, Bool.not_eq_false] at hreg
    exact hreg.1
  split at h
  · rename_i hin
    rw [← Option.some.inj h]
    exact ⟨hconn, fun _ => hin, by simp⟩
  · rename_i hout
    split at h
    · rw [← Option.some.inj h]
      exact ⟨hconn, by simp, fun _ => by simpa [isContender] using hout⟩
    · rw [← Option.some.inj h]
      exact ⟨hconn, by simp, by simp⟩

/-- The contenders share a choice when the match ends. -/
theorem sameChoice_of_finish {w : Server F} (hw : Inv w) (hun : ¬RoundsResolved w.log)
    (hwhy : admittedCount w.state < 2 ∨ RoundsResolved w.log ∨
      (w.state.phase = .roundActive ∧
        (activeAliveCount w.state ≤ 1 ∨ countAliveChoiceTypes w.state ≤ 1))) :
    SameChoice w.state := by
  intro i j hi hj
  rcases hwhy with hfew | hres | ⟨hround, hdone⟩
  · by_cases hij : i = j
    · rw [hij]
    · have htwo := two_le_countP (fun k => (w.state.players k).isAdmitted) hij
        (Player.isAdmitted_of_isContender hi) (Player.isAdmitted_of_isContender hj)
      unfold admittedCount at hfew
      omega
  · exact absurd hres hun
  · -- Nobody waits in a round, so the contenders are the players alive.
    have halive : ∀ k, (w.state.players k).isContender = true →
        (w.state.players k).isAlive = true ∧ IsChoice (w.state.players k).choice := by
      intro k hk
      simp only [Player.isContender, Player.isAdmitted, Bool.and_eq_true, Bool.or_eq_true] at hk
      obtain ⟨⟨⟨hc, hr⟩, ha⟩, hin⟩ := hk
      have hok := hw.slots k hc
      have hwait := hok.started (hw.running (.inl hround))
      rcases hin with hlive | hwaiting
      · exact ⟨by simp [Player.isAlive, hc, hr, ha, hlive], hok.chosen (hok.ready ha).2.1⟩
      · rw [hwait] at hwaiting
        cases hwaiting
    rcases hdone with hone | htypes
    · by_cases hij : i = j
      · rw [hij]
      · have htwo := two_le_countP (fun k => (w.state.players k).isAlive) hij
          (halive i hi).1 (halive j hj).1
        unfold activeAliveCount at hone
        omega
    · exact same_of_countAliveChoiceTypes htypes (halive i hi).1 (halive j hj).1
        (halive i hi).2 (halive j hj).2

variable [CFloat F]

/-- When all contenders share a choice, an action of the loop after the closing of the
lobby keeps the contenders apart from disconnections. -/
theorem Action.steadfast {w : Server F} {e : Event F} {s : ServerState F} (h : Action w e s)
    (hw : Inv w) (hun : ¬RoundsResolved w.log) (hphase : w.state.phase ≠ .lobbyOpen)
    (hsame : SameChoice w.state) (i : Slot) :
    Steadfast w.state.nextId (w.state.players i) (s.players i) := by
  cases h with
  | accept hfree =>
    refine steadfast_setPlayer ?_
    exact .outsider (Player.isContender_of_free hfree) rfl fun _ => .inl rfl
  | receive hconn => exact steadfast_setPlayer (.same ⟨rfl, rfl, rfl, rfl⟩)
  | pop hconn => exact steadfast_setPlayer (.same ⟨rfl, rfl, rfl, rfl⟩)
  | flush hconn => exact steadfast_setPlayer (.same ⟨rfl, rfl, rfl, rfl⟩)
  | queue hconn hline hqueue =>
    rw [Player.queueVia_eq_some hqueue]
    exact steadfast_setPlayer (.same ⟨rfl, rfl, rfl, rfl⟩)
  | refuse hqueue => exact .same ⟨rfl, rfl, rfl, rfl⟩
  | drop hconn =>
    refine steadfast_setPlayer ⟨fun hq => ?_, fun hq => ?_⟩
    · simp [Player.isContender, Player.isAdmitted, Player.cleared, Player.zero] at hq
    · simp [Player.cleared, Player.zero] at hq
  | @register k name hconn hnew hvalid hunused =>
    refine steadfast_setPlayer (.outsider ?_ ?_ fun hq => .inr ⟨hconn, rfl⟩)
    · simp [Player.isContender, Player.isAdmitted, hnew]
    · simp [Player.isContender, Player.isAdmitted, Player.resetProgress]
  | choose hreg hout hchoice =>
    refine steadfast_setPlayer (.outsider (Player.isContender_of_not_admitted hout)
      (Player.isContender_of_not_admitted hout) fun hq => .inr ⟨hq, rfl⟩)
  | spawn hreg hout hrange hfree => exact steadfast_setPlayer (.same ⟨rfl, rfl, rfl, rfl⟩)
  | submit hrepick halive hnew hchoice => exact steadfast_setPlayer (.same ⟨rfl, rfl, rfl, rfl⟩)
  | start hlater horder =>
    have hstart : Steadfast w.state.nextId (w.state.players i) (w.state.players i).enterRound := by
      unfold Player.enterRound
      simp only
      split
      · rename_i hin
        have hp : (w.state.players i).isContender = true := hin
        refine ⟨fun _ => ⟨hp, rfl⟩, fun hq => .inr ⟨hq, rfl, ?_⟩⟩
        rw [hp]
        simp only [Bool.and_eq_true] at hin
        simp only [Player.isContender, Bool.and_eq_true, Bool.or_eq_true]
        exact ⟨hin.1, .inl (by simpa using hin.2)⟩
      · exact .same ⟨rfl, rfl, rfl, rfl⟩
    exact hstart
  | applyRepicks hrepick hall => exact absurd (hw.resolved hrepick) hun
  | enterRepick hlater hround hresolved => exact absurd hresolved hun
  | @tick dt hround =>
    have hchase := simulateChaseTick_chased w.state dt
    obtain ⟨alive, x, y, hp⟩ := hchase.player i
    have hkept : ((simulateChaseTick w.state dt).1.players i).alive =
        (w.state.players i).alive := by
      cases hold : (w.state.players i).alive with
      | false =>
        cases hnew : ((simulateChaseTick w.state dt).1.players i).alive with
        | false => rfl
        | true => rw [hchase.alive_of i hnew] at hold; cases hold
      | true =>
        cases hnew : ((simulateChaseTick w.state dt).1.players i).alive with
        | true => rfl
        | false =>
          -- A victim and its hunter are contenders, and contenders share a choice.
          obtain ⟨hvictim, j, hj, heat⟩ := hchase.eaten i hold hnew
          have hcontender : ∀ k, (w.state.players k).isAlive = true →
              (w.state.players k).isContender = true := by
            intro k hk
            simp only [Player.isAlive, Bool.and_eq_true] at hk
            simp [Player.isContender, Player.isAdmitted, hk.1.1.1, hk.1.1.2, hk.1.2, hk.2]
          rw [hsame j i (hcontender j hj) (hcontender i hvictim), not_canEat_self] at heat
          cases heat
    rw [hp] at hkept ⊢
    have hcontender : ({ w.state.players i with alive := alive, x := x, y := y } :
        Player F).isContender = (w.state.players i).isContender := by
      simp only [Player.isContender, Player.isAdmitted]
      rw [show alive = (w.state.players i).alive from hkept]
    exact .same ⟨rfl, rfl, hcontender, rfl⟩
  | pair hlater hround hresolved => exact absurd hresolved hun
  | clearRound hlater hresolved => exact absurd hresolved hun
  | openLobby hreg hopen hidle => exact absurd hopen hphase
  | enter hopen hplayer hcount => exact absurd hopen hphase
  | cancel hopen hempty => exact absurd hopen hphase
  | closeLobby hopen hcount htime => exact absurd hopen hphase
  | resetProgress hreg hopen => exact absurd hopen hphase
  | _ => exact .same ⟨rfl, rfl, rfl, rfl⟩

/-- The situation of the verdicts in a run of the loop. -/
structure Judged (w : Server F) : Prop where
  /-- The invariants hold. -/
  inv : Inv w
  /-- No round was resolved. -/
  unresolved : ¬RoundsResolved w.log
  /-- A match in an open lobby has not ended. -/
  idle : w.state.phase = .lobbyOpen → gameEnds w.log = 0
  /-- A finished match has ended. -/
  finished : w.state.phase = .gameOver → 0 < gameEnds w.log
  /-- From the end of a match on, the contenders share a choice. -/
  same : 0 < gameEnds w.log → SameChoice w.state
  /-- Results are told after the end. -/
  ended : ∀ v n, Told v n w.log → 0 < gameEnds w.log
  /-- Results are told to identifiers that were given. -/
  fresh : ∀ v n, Told v n w.log → n < w.state.nextId
  /-- Who was told that it won is a contender. -/
  win : ∀ n, Told .win n w.log → ∀ i, (w.state.players i).connected = true →
    (w.state.players i).id = n → (w.state.players i).isContender = true
  /-- Who was told that it lost is none. -/
  lose : ∀ n, Told .lose n w.log → ∀ i, (w.state.players i).connected = true →
    (w.state.players i).id = n → (w.state.players i).isContender = false
  /-- Nobody was told both. -/
  apart : ∀ n, ¬(Told .win n w.log ∧ Told .lose n w.log)

/-- A result line is queued for a client with that result, in the phase GAME_OVER, and
changes nothing but the client's buffer. -/
theorem Action.gameOverLine {w : Server F} {i : Slot} {via : Via} {v : Verdict}
    {s : ServerState F} (h : Action w (.queued i via (.gameOver v)) s) :
    w.state.phase = .gameOver ∧ (w.state.players i).verdict = some v ∧
      ∃ outbuf, s = w.state.setPlayer i { w.state.players i with outbuf := outbuf } := by
  cases h with
  | queue hconn hline hqueue =>
    rw [Player.queueVia_eq_some hqueue]
    cases via with
    | verdict => exact ⟨hline.1, hline.2.1, _, rfl⟩
    | checked => exact ⟨hline.1, hline.2, _, rfl⟩
    | line => exact hline.elim
    | broadcast => exact hline.elim

/-- Identifiers are not given back. -/
theorem Action.nextId_le {w : Server F} {e : Event F} {s : ServerState F} (h : Action w e s) :
    w.state.nextId ≤ s.nextId := by
  cases h with
  | accept hfree => exact Nat.le_succ _
  | @tick dt hround =>
    rw [(simulateChaseTick_chased w.state dt).table]
  | _ => exact le_rfl

/-- Only `end_game` enters the phase GAME_OVER. -/
theorem Action.gameOver_of {w : Server F} {e : Event F} {s : ServerState F} (h : Action w e s)
    (hs : s.phase = .gameOver) : e.isEnd = true ∨ w.state.phase = .gameOver := by
  cases h with
  | start hlater horder => cases hs
  | closeLobby hopen hcount htime => cases hs
  | finish hlater horder hwhy => exact .inl rfl
  | enterRepick hlater hround hresolved => cases hs
  | reset hover => cases hs
  | @tick dt hround =>
    rw [(simulateChaseTick_chased w.state dt).table] at hs
    exact .inr hs
  | _ => exact .inr hs

/-- A match ends outside of an open lobby, and for a reason. -/
theorem Action.of_isEnd {w : Server F} {e : Event F} {s : ServerState F} (h : Action w e s)
    (he : e.isEnd = true) : e.isReset = false ∧ w.state.phase ≠ .lobbyOpen ∧
      s = { w.state with phase := .gameOver } ∧
      (admittedCount w.state < 2 ∨ RoundsResolved w.log ∨
        (w.state.phase = .roundActive ∧
          (activeAliveCount w.state ≤ 1 ∨ countAliveChoiceTypes w.state ≤ 1))) := by
  cases h with
  | finish hlater horder hwhy => exact ⟨rfl, hlater, rfl, hwhy⟩
  | _ => cases he

/-- A reset opens an empty record of results. -/
theorem Judged.reset {w : Server F} (hw : Judged w) (hphase : w.state.phase = .gameOver) :
    Judged (w.record .matchReset
      { w.state with
        phase := .lobbyOpen
        joinDeadline := 0
        setupDeadline := 0
        roundDeadline := 0
        roundNo := 0 }) := by
  have hstep : Action w .matchReset _ := .reset hphase
  have hends : gameEnds (w.record .matchReset
      { w.state with
        phase := .lobbyOpen
        joinDeadline := 0
        setupDeadline := 0
        roundDeadline := 0
        roundNo := 0 }).log = 0 := countSince_cons_stop rfl
  refine ⟨hstep.inv hw.inv, hstep.unresolved rfl hw.inv hw.unresolved, fun _ => hends, ?_, ?_,
    ?_, ?_, ?_, ?_, ?_⟩
  · intro h
    cases h
  · intro h
    rw [hends] at h
    cases h
  · exact fun v n htold => absurd htold (not_told_reset rfl)
  · exact fun v n htold => absurd htold (not_told_reset rfl)
  · exact fun n htold => absurd htold (not_told_reset rfl)
  · exact fun n htold => absurd htold (not_told_reset rfl)
  · exact fun n htold => absurd htold.1 (not_told_reset rfl)

/-- The start of the server is judged. -/
theorem Judged.init (clock : ℕ → ℤ) : Judged (Server.init clock : Server F) := by
  have hnone : ∀ v n, ¬Told v n (Server.init clock : Server F).log := by
    rintro v n ⟨x, hx, i, via, he, _⟩
    have hstarted : x = ⟨.started, initServerState⟩ :=
      List.mem_singleton.mp ((List.takeWhile_sublist _).subset hx)
    rw [hstarted] at he
    cases he
  exact {
    inv := Inv.init clock
    unresolved := (Orderly.init clock).unresolved
    idle := fun _ => rfl
    finished := nofun
    same := nofun
    ended := fun v n h => absurd h (hnone v n)
    fresh := fun v n h => absurd h (hnone v n)
    win := fun n h => absurd h (hnone _ n)
    lose := fun n h => absurd h (hnone _ n)
    apart := fun n h => absurd h.1 (hnone _ n) }

/-- A result that was told before the action still fits the client, if it is there. -/
theorem Judged.kept {w : Server F} (hw : Judged w) {e : Event F} {s : ServerState F}
    (h : Action w e s) {v : Verdict} {n : ℕ} (htold : Told v n w.log) {i : Slot}
    (hconn : (s.players i).connected = true) (hid : (s.players i).id = n) :
    (w.state.players i).connected = true ∧ (w.state.players i).id = n ∧
      (s.players i).isContender = (w.state.players i).isContender := by
  have hended := hw.ended v n htold
  have hphase : w.state.phase ≠ .lobbyOpen := by
    intro hopen
    rw [hw.idle hopen] at hended
    cases hended
  rcases (h.steadfast hw.inv hw.unresolved hphase (hw.same hended) i).stays hconn with
    hnew | ⟨hold, hsame, hcontender⟩
  · have hlt := hw.fresh v n htold
    omega
  · exact ⟨hold, hsame ▸ hid, hcontender⟩

/-- The results of one more action of the match: the client that is told now, and the
clients that were told before. -/
theorem Judged.told {w : Server F} (hw : Judged w) {e : Event F} {s : ServerState F}
    (h : Action w e s) (hreset : e.isReset = false) {v : Verdict} {n : ℕ}
    (htold : Told v n (w.record e s).log) :
    0 < gameEnds w.log ∧ n < w.state.nextId ∧
      ∀ i, (s.players i).connected = true → (s.players i).id = n →
        (v = .win → (s.players i).isContender = true) ∧
          (v = .lose → (s.players i).isContender = false) := by
  rcases told_cons hreset htold with ⟨i, via, rfl, hid⟩ | hold
  · obtain ⟨hover, hverdict, outbuf, rfl⟩ := h.gameOverLine
    obtain ⟨hconn, hwin, hlose⟩ := Player.isContender_of_verdict hverdict
    rw [ServerState.setPlayer_self] at hid
    refine ⟨hw.finished hover, ?_, fun k hk hkid => ?_⟩
    · rw [← hid]
      exact hw.inv.identified.id_lt i hconn
    · -- Only the slot itself has the identifier.
      have hki : k = i := by
        by_contra hne
        rw [ServerState.setPlayer_of_ne _ _ hne] at hk hkid
        exact hne (hw.inv.identified.id_inj k i hk hconn (hkid.trans hid.symm))
      subst hki
      rw [ServerState.setPlayer_self]
      exact ⟨hwin, hlose⟩
  · refine ⟨hw.ended v n hold, hw.fresh v n hold, fun i hi hid => ?_⟩
    obtain ⟨hconn, hidold, hcontender⟩ := hw.kept h hold hi hid
    rw [hcontender]
    constructor
    · rintro rfl
      exact hw.win n hold i hconn hidold
    · rintro rfl
      exact hw.lose n hold i hconn hidold

/-- Every action of the loop keeps the verdicts in order. -/
theorem Action.judged {w : Server F} {e : Event F} {s : ServerState F} (h : Action w e s)
    (he : e.isResolving = false) (hw : Judged w) : Judged (w.record e s) := by
  cases hreset : e.isReset with
  | true =>
    cases h with
    | reset hover => exact hw.reset hover
    | _ => cases hreset
  | false =>
    have hends : gameEnds (w.record e s).log = gameEnds w.log + if e.isEnd then 1 else 0 :=
      gameEnds_cons hreset
    have hmono := h.nextId_le
    refine ⟨h.inv hw.inv, h.unresolved he hw.inv hw.unresolved, ?_, ?_, ?_, ?_, ?_, ?_, ?_, ?_⟩
    · intro hopen
      have hold : w.state.phase = .lobbyOpen := by
        by_contra hclosed
        exact h.stays_closed hclosed hreset hopen
      cases hend : e.isEnd with
      | true => exact absurd hold (h.of_isEnd hend).2.1
      | false =>
        rw [hends, hend, hw.idle hold]
        rfl
    · intro hover
      rcases h.gameOver_of hover with hend | hold
      · rw [hends, hend]
        exact Nat.succ_pos _
      · have hpos := hw.finished hold
        omega
    · intro hpos
      cases hend : e.isEnd with
      | true =>
        obtain ⟨_, _, rfl, hwhy⟩ := h.of_isEnd hend
        have hsame : SameChoice w.state := sameChoice_of_finish hw.inv hw.unresolved hwhy
        exact hsame
      | false =>
        rw [hends, hend] at hpos
        have hphase : w.state.phase ≠ .lobbyOpen := by
          intro hopen
          rw [hw.idle hopen] at hpos
          cases hpos
        have hsame := hw.same hpos
        intro i j hi hj
        obtain ⟨hi', hci⟩ :=
          (h.steadfast hw.inv hw.unresolved hphase hsame i).contender hi
        obtain ⟨hj', hcj⟩ :=
          (h.steadfast hw.inv hw.unresolved hphase hsame j).contender hj
        exact (hci.trans (hsame i j hi' hj')).trans hcj.symm
    · intro v n htold
      have hpos := (hw.told h hreset htold).1
      omega
    · intro v n htold
      exact (hw.told h hreset htold).2.1.trans_le hmono
    · exact fun n htold i hi hid => ((hw.told h hreset htold).2.2 i hi hid).1 rfl
    · exact fun n htold i hi hid => ((hw.told h hreset htold).2.2 i hi hid).2 rfl
    · -- A second result would contradict the first one at the moment it is told.
      rintro n ⟨hwin, hlose⟩
      have hclash : ∀ v i via, e = .queued i via (.gameOver v) → (s.players i).id ≠ n := by
        intro v i via hevent hid
        have hconn : (s.players i).connected = true := by
          subst hevent
          obtain ⟨_, hverdict, outbuf, rfl⟩ := h.gameOverLine
          rw [ServerState.setPlayer_self]
          exact (Player.isContender_of_verdict hverdict).1
        have h1 := ((hw.told h hreset hwin).2.2 i hconn hid).1 rfl
        have h2 := ((hw.told h hreset hlose).2.2 i hconn hid).2 rfl
        rw [h1] at h2
        cases h2
      rcases told_cons hreset hwin with ⟨i, via, hevent, hid⟩ | hwin'
      · exact absurd hid (hclash _ i via hevent)
      · rcases told_cons hreset hlose with ⟨i, via, hevent, hid⟩ | hlose'
        · exact absurd hid (hclash _ i via hevent)
        · exact hw.apart n ⟨hwin', hlose'⟩

/-- In every run of the loop, at every moment: when a WIN line is queued, all contenders
share a choice, and no identifier is told both results of a match. -/
theorem verdicts_agree {w : Server F} (h : Reached true w) :
    ∀ past, past <:+ w.log → VerdictsAgree past := by
  obtain ⟨clock, hpath⟩ := h.path
  have hnow : ∀ v : Server F, Judged v → VerdictsAgree v.log := by
    refine fun v hv => ⟨?_, hv.apart⟩
    rintro x rest hlog ⟨i, via, hevent⟩
    obtain ⟨e, rest', hcurrent⟩ := hv.inv.current
    have htold : Told .win (x.state.players i).id v.log := by
      refine ⟨x, ?_, i, via, hevent, rfl⟩
      rw [hlog, since_cons (by rw [hevent]; rfl)]
      exact List.mem_cons_self
    have hsame := hv.same (hv.ended _ _ htold)
    rw [hcurrent] at hlog
    have hx := (List.cons.inj hlog).1
    rw [← hx]
    exact hsame
  refine hpath.throughout Judged (fun _ => True) (fun _ _ _ => trivial)
    (fun v e s he hstep _ hv => hstep.judged (he rfl) hv) hnow trivial (Judged.init clock) ?_
  intro past hpast
  rcases List.suffix_cons_iff.mp hpast with rfl | hnil
  · exact hnow _ (Judged.init clock)
  · rw [List.suffix_nil.mp hnil]
    exact ⟨by simp, fun n htold => by obtain ⟨⟨x, hx, _⟩, _⟩ := htold; cases hx⟩

/-- The verdicts agree in the match of two players that has ended. -/
theorem verdicts_agree_duel : (serverAfter (lateClock 60) duelEnded).state.phase = .gameOver ∧
    ∀ past, past <:+ (serverAfter (lateClock 60) duelEnded).log → VerdictsAgree past :=
  ⟨duelEnded_state.1, verdicts_agree duelEnded_reached⟩

end BattleRoyale
