import BattleRoyale.StepRefinement
import BattleRoyale.Exact

/-!
# The life of a match

In a run of the loop, a match starts one round at most, ends once at most, and its
end is final, as long as nobody runs out of room on the two lines that close the
lobby. An overflow there re-enters `reevaluate_state`, which decides the match, and
`close_lobby_if_needed` then decides it again.
-/

namespace BattleRoyale

open Recorded

variable {F : Type}

/-- The phase moved away from GAME_OVER only by `reset_match`. -/
def EndKept (older newer : Entry (ServerState F) (Event F)) : Prop :=
  older.state.phase = .gameOver → newer.state.phase ≠ .gameOver → newer.event = .matchReset

/-- The progress of the current match, as the phase tells it. -/
def Progress (w : Server F) : Prop :=
  match w.state.phase with
  | .lobbyOpen => w.state.roundNo = 0 ∧ roundStarts w.log = 0 ∧ gameEnds w.log = 0
  | .setup => w.state.roundNo = 0 ∧ roundStarts w.log = 0 ∧ gameEnds w.log = 0
  | .roundActive => w.state.roundNo = 1 ∧ roundStarts w.log = 1 ∧ gameEnds w.log = 0
  | .repick => False
  | .gameOver => w.state.roundNo ≤ 1 ∧ roundStarts w.log ≤ 1 ∧ gameEnds w.log = 1

/-- What happens at most once in a match. -/
def OncePerMatch (past : Log F) : Prop :=
  roundStarts past ≤ 1 ∧ gameEnds past ≤ 1 ∧
    (∀ x rest, past = x :: rest → x.state.roundNo ≤ 1) ∧
    ∀ i, roundLines i past ≤ 1 ∧ verdictLines i past ≤ 1

/-- An entry that is neither a start, an end nor a reset leaves the progress alone. -/
theorem Progress.record {w : Server F} (h : Progress w) {e : Event F} {s : ServerState F}
    (hphase : s.phase = w.state.phase) (hround : s.roundNo = w.state.roundNo)
    (hreset : e.isReset = false) (hstart : e.isStart = false) (hend : e.isEnd = false) :
    Progress (w.record e s) := by
  unfold Progress at h ⊢
  rw [System.record_state, System.record_log, roundStarts_cons hreset, gameEnds_cons hreset,
    hphase, hround, hstart, hend]
  exact h

variable [CFloat F]

/-- The situation in a run of the loop without an overflow at a closing. -/
structure Orderly (w : Server F) : Prop where
  /-- The invariants hold. -/
  inv : Inv w
  /-- No round was resolved. -/
  unresolved : ¬RoundsResolved w.log
  /-- The match makes the progress that its phase tells. -/
  progress : Progress w

/-- An overflow at a closing stays in the record. -/
theorem FullAtClosing.of_cons (x : Entry (ServerState F) (Event F)) (log : Log F)
    (h : ¬FullAtClosing (x :: log)) : ¬FullAtClosing log :=
  fun ⟨y, hy, hfull⟩ => h ⟨y, List.mem_cons_of_mem _ hy, hfull⟩

/-- Nothing resolves a round except `resolve_round` and the repicks that follow it. -/
theorem Action.unresolved {w : Server F} {e : Event F} {s : ServerState F} (h : Action w e s)
    (he : e.isResolving = false) (hw : Inv w) (hun : ¬RoundsResolved w.log) :
    ¬RoundsResolved (w.record e s).log := by
  rintro ⟨x, hx, hevent⟩
  rcases List.mem_cons.mp hx with rfl | hx
  · rcases hevent with rfl | rfl
    · cases he
    · cases h with
      | applyRepicks hphase hall => exact hun (hw.resolved hphase)
  · exact hun ⟨x, hx, hevent⟩

/-- Every action of the loop makes the progress that the phase tells. -/
theorem Action.orderly {w : Server F} {e : Event F} {s : ServerState F} (h : Action w e s)
    (he : e.isResolving = false) (hroom : ¬FullAtClosing (w.record e s).log)
    (hw : Orderly w) : Orderly (w.record e s) := by
  refine ⟨h.inv hw.inv, h.unresolved he hw.inv hw.unresolved, ?_⟩
  have hprogress := hw.progress
  have hfull := FullAtClosing.of_cons _ _ hroom
  cases h with
  | start hphase horder =>
    -- Only SETUP is left as the phase before a start.
    rcases horder with hsetup | hover | hres
    · unfold Progress at hprogress ⊢
      rw [hsetup] at hprogress
      rw [System.record_state, System.record_log, roundStarts_cons rfl, gameEnds_cons rfl]
      simp only [startRound, Event.isStart, Event.isEnd, if_true, Bool.false_eq_true, if_false]
      omega
    · exact absurd hover hfull
    · exact absurd hres hw.unresolved
  | finish hphase horder hwhy =>
    have hbefore : w.state.roundNo ≤ 1 ∧ roundStarts w.log ≤ 1 ∧ gameEnds w.log = 0 := by
      unfold Progress at hprogress
      rcases horder with hsetup | hround | hover | hres
      · rw [hsetup] at hprogress
        omega
      · rw [hround] at hprogress
        omega
      · exact absurd hover hfull
      · exact absurd hres hw.unresolved
    unfold Progress
    rw [System.record_state, System.record_log, roundStarts_cons rfl, gameEnds_cons rfl]
    simp only [Event.isStart, Event.isEnd, if_true, Bool.false_eq_true, if_false]
    omega
  | closeLobby hphase hcount htime =>
    unfold Progress at hprogress ⊢
    rw [hphase] at hprogress
    rw [System.record_state, System.record_log, roundStarts_cons rfl, gameEnds_cons rfl]
    exact hprogress
  | reset hphase =>
    unfold Progress roundStarts gameEnds
    rw [System.record_state, System.record_log, countSince_cons_stop rfl,
      countSince_cons_stop rfl]
    exact ⟨rfl, rfl, rfl⟩
  | enterRepick hphase hround hresolved => exact absurd hresolved hw.unresolved
  | @tick dt hphase =>
    have htable := (simulateChaseTick_chased w.state dt).table
    generalize (simulateChaseTick w.state dt).1 = t at htable ⊢
    rw [htable]
    exact hprogress.record rfl rfl rfl rfl rfl
  | queue hconn hline hqueue => exact hprogress.record rfl rfl rfl rfl rfl
  | _ => exact hprogress.record rfl rfl rfl rfl rfl

/-- The start of the server is orderly. -/
theorem Orderly.init (clock : ℕ → ℤ) : Orderly (Server.init clock : Server F) where
  inv := Inv.init clock
  unresolved := by
    rintro ⟨x, hx, he⟩
    rw [List.mem_singleton.mp hx] at he
    simp at he
  progress := ⟨rfl, rfl, rfl⟩

/-- Once a match has ended, only `reset_match` moves the phase, in a run of the loop in
which every client has room for the two closing lines at each closing of the lobby. -/
theorem gameOver_kept {w : Server F} (h : Reached true w) (hroom : ¬FullAtClosing w.log) :
    Linked EndKept w.log := by
  obtain ⟨clock, hpath⟩ := h.path
  refine hpath.linked Orderly (fun log => ¬FullAtClosing log) FullAtClosing.of_cons
    (fun v e s he hstep hfull hv => hstep.orderly (he rfl) hfull hv) ?_ hroom
    (Orderly.init clock) (Inv.init clock).current (List.isChain_singleton _)
  intro v e s e' he hstep hfull hv hover hnot
  have hclosing := FullAtClosing.of_cons _ _ hfull
  simp only at hover hnot ⊢
  cases hstep with
  | start hphase horder =>
    rcases horder with hsetup | hcl | hres
    · simp [hover] at hsetup
    · exact absurd hcl hclosing
    · exact absurd hres hv.unresolved
  | closeLobby hphase hcount htime => simp [hover] at hphase
  | enterRepick hphase hround hresolved => exact absurd hresolved hv.unresolved
  | tick hphase => simp [hover] at hphase
  | finish hphase horder hwhy => exact absurd rfl hnot
  | reset hphase => rfl
  | _ => exact absurd hover hnot

/-- The end of a match is final in the match of two players. -/
theorem gameOver_kept_duel : (serverAfter (lateClock 60) duelEnded).state.phase = .gameOver ∧
    Linked EndKept (serverAfter (lateClock 60) duelEnded).log :=
  ⟨duelEnded_state.1, gameOver_kept duelEnded_reached duelEnded_state.2⟩

/-- Two players of one type join. At the closing one client has 9 bytes of room, and
another one 13. -/
def closingWithFullClients : List Step :=
  .accept 3 :: ((List.replicate 9 (flood 0 32 "REMATCH")).flatten ++ flood 0 2 "REMATCH" ++
    join 1 4 "A" "R" "2 2" ++ join 2 5 "B" "R" "5 5" ++
    .accept 6 :: ((List.replicate 9 (flood 3 32 "REMATCH")).flatten ++ flood 3 3 "REMATCH" ++
      [.timers 0]))

/-- The first client falls on `LOBBY_CLOSED` and the second one on the `ROUND_START` of the
nested start, which ends the match; then the interrupted caller starts a round again. -/
theorem closingWithFullClients_log :
    (serverAfter (lateClock 1000) closingWithFullClients).state.roundNo = 2 ∧
      ((serverAfter (lateClock 1000) closingWithFullClients).log[6]?.map
        fun x => (x.event.isReset, x.state.phase)) = some (false, .roundActive) ∧
      ((serverAfter (lateClock 1000) closingWithFullClients).log[7]?.map
        fun x => x.state.phase) = some .gameOver := by
  decide +kernel

omit [CFloat F] in
/-- Two neighbours of a record that show the phase leaving GAME_OVER. -/
theorem not_linked_endKept {log : Log F} (k : ℕ)
    (hnewer : (log[k]?.map fun x => (x.event.isReset, x.state.phase)) =
      some (false, .roundActive))
    (holder : (log[k + 1]?.map fun x => x.state.phase) = some .gameOver) :
    ¬Linked EndKept log := by
  intro h
  obtain ⟨newer, hn, hnewer⟩ := Option.map_eq_some_iff.mp hnewer
  obtain ⟨older, ho, holder⟩ := Option.map_eq_some_iff.mp holder
  obtain ⟨hlt, rfl⟩ := List.getElem?_eq_some_iff.mp hn
  obtain ⟨hlt', rfl⟩ := List.getElem?_eq_some_iff.mp ho
  simp only [Prod.mk.injEq] at hnewer
  have hevent := List.isChain_iff_getElem.mp h k hlt' holder (by simp [hnewer.2])
  rw [hevent] at hnewer
  cases hnewer.1

/-- The phase leaves GAME_OVER without a reset. -/
theorem gameOver_lost :
    Reached true (serverAfter (lateClock 1000) closingWithFullClients) ∧
      ¬Linked EndKept (serverAfter (lateClock 1000) closingWithFullClients).log :=
  ⟨reached_serverAfter _ (by simp [closingWithFullClients, Step.inLoop]),
    not_linked_endKept 6 closingWithFullClients_log.2.1 closingWithFullClients_log.2.2⟩

/-- At every moment of such a run, the current match has started one round and ended
once at most, and no client was told either of it twice. -/
theorem match_decided_once {w : Server F} (h : Reached true w) (hroom : ¬FullAtClosing w.log) :
    ∀ past, past <:+ w.log → OncePerMatch past := by
  obtain ⟨clock, hpath⟩ := h.path
  have hnow : ∀ v : Server F, Orderly v → OncePerMatch v.log := by
    intro v hv
    have hbound : v.state.roundNo ≤ 1 ∧ roundStarts v.log ≤ 1 ∧ gameEnds v.log ≤ 1 := by
      have hprogress := hv.progress
      unfold Progress at hprogress
      split at hprogress <;> first | exact hprogress.elim | omega
    refine ⟨hbound.2.1, hbound.2.2, fun x rest hlog => ?_, fun i => ?_⟩
    · obtain ⟨e, rest', hcurrent⟩ := hv.inv.current
      rw [hcurrent] at hlog
      have hx := (List.cons.inj hlog).1
      rw [← hx]
      exact hbound.1
    · exact ⟨(hv.inv.roundLines_le i).trans hbound.2.1, (hv.inv.verdictLines_le i).trans hbound.2.2⟩
  refine hpath.throughout Orderly (fun log => ¬FullAtClosing log) FullAtClosing.of_cons
    (fun v e s he hstep hfull hv => hstep.orderly (he rfl) hfull hv) hnow hroom
    (Orderly.init clock) ?_
  intro past hpast
  rcases List.suffix_cons_iff.mp hpast with rfl | hnil
  · exact hnow _ (Orderly.init clock)
  · rw [List.suffix_nil.mp hnil]
    exact ⟨by simp [roundStarts, countSince, since], by simp [gameEnds, countSince, since],
      by simp, fun i => by simp [roundLines, verdictLines, countSince, since]⟩

/-- The match of two players is decided once. -/
theorem match_decided_once_duel : (serverAfter (lateClock 60) duel).state.phase = .roundActive ∧
    ∀ past, past <:+ (serverAfter (lateClock 60) duel).log → OncePerMatch past :=
  ⟨duel_phase, match_decided_once duel_reached duel_room⟩

omit [CFloat F] in
/-- A second round in a match. -/
theorem not_oncePerMatch {w : Server F} (h : Inv w) (hround : 1 < w.state.roundNo) :
    ¬OncePerMatch w.log := by
  intro honce
  obtain ⟨e, rest, hlog⟩ := h.current
  have hle := honce.2.2.1 _ rest hlog
  exact absurd hround (not_lt.mpr hle)

/-- At that closing two rounds start in one match. -/
theorem match_decided_twice :
    Reached true (serverAfter (lateClock 1000) closingWithFullClients) ∧
      ¬OncePerMatch (serverAfter (lateClock 1000) closingWithFullClients).log := by
  have hreached : Reached true (serverAfter (lateClock 1000) closingWithFullClients) :=
    reached_serverAfter _ (by simp [closingWithFullClients, Step.inLoop])
  refine ⟨hreached, not_oncePerMatch hreached.inv ?_⟩
  rw [closingWithFullClients_log.1]
  decide

end BattleRoyale
