import BattleRoyale.PairResolution

/-!
# The end of a match during a repick

`finish_repicks` broadcasts the result and every position before it starts the round. When
a client without room is dropped on the way and at most one player alive is left, the
re-entrant call ends the match, but the interrupted caller does not look at the phase again
and starts a round.
-/

namespace BattleRoyale

open Recorded

variable {F : Type}

/-- A `ROUND_START` line was queued for the slot. -/
def Event.startsFor (i : Slot) : Event F → Bool
  | .queued j _ (.roundStart ..) => j == i
  | _ => false

/-- A `GAME_OVER` line was queued for the slot. -/
def Event.endsFor (i : Slot) : Event F → Bool
  | .queued j _ (.gameOver _) => j == i
  | _ => false

/-- Neither line was queued, and the match did not end. -/
def Event.isMute : Event F → Bool
  | .queued _ _ (.roundStart ..) => false
  | .queued _ _ (.gameOver _) => false
  | .gameEnded => false
  | _ => true

/-- The line is neither `ROUND_START` nor `GAME_OVER`. -/
def ServerLine.isPlain : ServerLine F → Bool
  | .roundStart .. => false
  | .gameOver _ => false
  | _ => true

theorem Event.eq_gameEnded {e : Event F} (h : e.isEnd = true) : e = .gameEnded := by
  cases e <;> first | rfl | cases h

theorem Event.silent_of_isMute {e : Event F} (h : e.isMute = true) :
    e ≠ .gameEnded ∧ ∀ i, e.startsFor i = false ∧ e.endsFor i = false := by
  refine ⟨fun hend => by simp [hend, isMute] at h, fun i => ?_⟩
  cases e with
  | queued j via line => cases line <;> first | exact ⟨rfl, rfl⟩ | cases h
  | _ => exact ⟨rfl, rfl⟩

/-- What a call has recorded about the two lines: no `ROUND_START`, and either the match has
ended and every registered client that is left was told, or it has not ended and nobody was
told that it has. -/
structure Course (w v : Server F) (ended : Bool) : Prop where
  /-- Nobody connects or registers. -/
  kept : ∀ i, (v.state.players i).connected = true → (w.state.players i).connected = true ∧
    (v.state.players i).registered = (w.state.players i).registered
  /-- The record. -/
  record : ∃ new, v.log = new ++ w.log ∧
    (∀ x ∈ new, ∀ i, x.event.startsFor i = false ∧
      (x.event.endsFor i = true → (w.state.players i).isRegistered = true)) ∧
    (ended = false → v.state.phase = w.state.phase ∧
      ∀ x ∈ new, x.event ≠ .gameEnded ∧ ∀ i, x.event.endsFor i = false) ∧
    (ended = true → v.state.phase = .gameOver ∧ (∃ x ∈ new, x.event = .gameEnded) ∧
      ∀ i, (v.state.players i).isRegistered = true → ∃ x ∈ new, x.event.endsFor i = true)

theorem Course.fewer {w v : Server F} {ended : Bool} (h : Course w v ended) {i : Slot}
    (hi : (v.state.players i).isRegistered = true) : (w.state.players i).isRegistered = true := by
  obtain ⟨hconn, hreg⟩ := Player.isRegistered_iff.mp hi
  obtain ⟨hconn', hreg'⟩ := h.kept i hconn
  exact Player.isRegistered_iff.mpr ⟨hconn', hreg'.symm.trans hreg⟩

theorem Course.refl (w : Server F) : Course w w false :=
  ⟨fun _ h => ⟨h, rfl⟩, [], rfl, by simp, fun _ => ⟨rfl, by simp⟩, nofun⟩

/-- One mute action that connects and registers nobody and keeps the phase. -/
theorem Course.mute {w : Server F} {e : Event F} {s : ServerState F} (he : e.isMute = true)
    (hphase : s.phase = w.state.phase)
    (hkept : ∀ i, (s.players i).connected = true → (w.state.players i).connected = true ∧
      (s.players i).registered = (w.state.players i).registered) :
    Course w (w.record e s) false := by
  obtain ⟨hend, hsilent⟩ := Event.silent_of_isMute he
  refine ⟨hkept, [⟨e, s⟩], rfl, ?_, fun _ => ⟨hphase, ?_⟩, nofun⟩
  · simpa using fun i => ⟨(hsilent i).1, fun h => by simp [(hsilent i).2] at h⟩
  · simpa using ⟨hend, fun i => (hsilent i).2⟩

/-- A part in which the match has not ended, and another one. -/
theorem Course.trans {u v w : Server F} {ended : Bool} (h : Course u v false)
    (h' : Course v w ended) : Course u w ended := by
  have hfewer : ∀ i, (v.state.players i).isRegistered = true →
      (u.state.players i).isRegistered = true := fun i => h.fewer
  obtain ⟨hkept, new, hlog, hlines, hrun, -⟩ := h
  obtain ⟨hkept', new', hlog', hlines', hrun', hover'⟩ := h'
  obtain ⟨hphase, hnone⟩ := hrun rfl
  refine ⟨fun i hi => ?_, new' ++ new, by rw [hlog', hlog, List.append_assoc], ?_,
    fun hended => ?_, fun hended => ?_⟩
  · obtain ⟨hconn, hreg⟩ := hkept' i hi
    exact ⟨(hkept i hconn).1, hreg.trans (hkept i hconn).2⟩
  · rintro x hx i
    rcases List.mem_append.mp hx with hx | hx
    · exact ⟨(hlines' x hx i).1, fun hi => hfewer i ((hlines' x hx i).2 hi)⟩
    · exact hlines x hx i
  · obtain ⟨hphase', hnone'⟩ := hrun' hended
    refine ⟨hphase'.trans hphase, fun x hx => ?_⟩
    rcases List.mem_append.mp hx with hx | hx
    · exact hnone' x hx
    · exact hnone x hx
  · obtain ⟨hphase', ⟨x, hx, hend⟩, htold⟩ := hover' hended
    refine ⟨hphase', ⟨x, List.mem_append_left _ hx, hend⟩, fun i hi => ?_⟩
    obtain ⟨y, hy, hline⟩ := htold i hi
    exact ⟨y, List.mem_append_left _ hy, hline⟩

/-- After the match has ended nothing more happens. -/
theorem Course.after {u v w : Server F} (h : Course u v true) (h' : Course v w false) :
    Course u w true := by
  have hfewer : ∀ i, (w.state.players i).isRegistered = true →
      (v.state.players i).isRegistered = true := fun i => h'.fewer
  obtain ⟨hkept, new, hlog, hlines, -, hover⟩ := h
  obtain ⟨hkept', new', hlog', hlines', hrun', -⟩ := h'
  obtain ⟨hphase, ⟨x, hx, hend⟩, htold⟩ := hover rfl
  obtain ⟨hphase', hnone⟩ := hrun' rfl
  refine ⟨fun i hi => ?_, new' ++ new, by rw [hlog', hlog, List.append_assoc], ?_, nofun,
    fun _ => ⟨hphase'.trans hphase, ⟨x, List.mem_append_right _ hx, hend⟩, fun i hi => ?_⟩⟩
  · obtain ⟨hconn, hreg⟩ := hkept' i hi
    exact ⟨(hkept i hconn).1, hreg.trans (hkept i hconn).2⟩
  · rintro x hx i
    rcases List.mem_append.mp hx with hx | hx
    · exact ⟨(hlines' x hx i).1, fun hi => by simp [(hnone x hx).2 i] at hi⟩
    · exact hlines x hx i
  · obtain ⟨y, hy, hline⟩ := htold i (hfewer i hi)
    exact ⟨y, List.mem_append_right _ hy, hline⟩

/-- The phase at the end tells whether the match has ended. -/
theorem Course.phase {w v : Server F} {ended : Bool} (h : Course w v ended) :
    v.state.phase = if ended then .gameOver else w.state.phase := by
  obtain ⟨-, new, -, -, hrun, hover⟩ := h
  cases ended with
  | false => exact (hrun rfl).1
  | true => exact (hover rfl).1

/-- The phases in which a re-entrant call ends the match or does nothing. -/
def Simple (s : ServerState F) : Prop :=
  s.phase = .gameOver ∨ s.phase = .roundActive ∨ Unsubmitted s

/-- From these phases the function records such a course, and after the end of the match
nothing. -/
def Courses (f : Server F → Server F) : Prop :=
  ∀ w, Simple w.state → ∃ ended, Course w (f w) ended ∧ Simple (f w).state ∧
    (w.state.phase = .gameOver → ended = false)

/-- One after another: the second one does nothing more when the first one has ended the
match. -/
theorem Courses.comp {f g : Server F → Server F} (hf : Courses f) (hg : Courses g) :
    Courses fun w => g (f w) := by
  intro w hw
  obtain ⟨ended, hcourse, hsimple, hover⟩ := hf w hw
  obtain ⟨ended', hcourse', hsimple', hover'⟩ := hg (f w) hsimple
  have hphase := hcourse.phase
  cases ended with
  | false => exact ⟨ended', hcourse.trans hcourse', hsimple', fun h => hover' (hphase.trans h)⟩
  | true =>
    obtain rfl := hover' hphase
    refine ⟨true, hcourse.after hcourse', hsimple', fun h => ?_⟩
    cases hover h

/-- A loop. -/
theorem Courses.foldl {α : Type} {f : Server F → α → Server F} (hf : ∀ a, Courses fun w => f w a)
    (as : List α) : Courses fun w => as.foldl f w := by
  induction as with
  | nil => exact fun w hw => ⟨false, .refl w, hw, fun _ => rfl⟩
  | cons a as ih => exact (hf a).comp ih

variable [CFloat F]

omit [CFloat F] in
/-- Only a client that is not registered has no result. -/
theorem Player.verdict_eq_none {p : Player F} : p.verdict = none ↔ p.isRegistered = false := by
  unfold verdict isRegistered
  cases hc : p.connected <;> cases hr : p.registered <;>
    simp only [Bool.not_true, Bool.not_false, Bool.or_true, Bool.true_or, Bool.or_self, if_true,
      Bool.false_and, Bool.and_false, Bool.true_and, Bool.false_eq_true, if_false]
  split
  · exact ⟨nofun, nofun⟩
  · split <;> exact ⟨nofun, nofun⟩

section Calls

/-- A call for a line connects and registers nobody. -/
theorem queueTo_kept (via : Via) (line : ServerLine F) (i : Slot) (w : Server F) (k : Slot)
    (hk : ((queueTo via line i w).2.state.players k).connected = true) :
    (w.state.players k).connected = true ∧ ((queueTo via line i w).2.state.players k).registered =
      (w.state.players k).registered := by
  rw [(queueTo_rebuffered via line i w).player k] at hk ⊢
  exact ⟨hk, rfl⟩

/-- One call for a line. -/
theorem queueTo_course (via : Via) {line : ServerLine F} (hline : line.isPlain = true)
    (i : Slot) (w : Server F) : Course w (queueTo via line i w).2 false := by
  have hsame := queueTo_rebuffered via line i w
  have hmute : (Event.queued i via line).isMute = true := by
    cases line <;> first | rfl | cases hline
  have hphase : (queueTo via line i w).2.state.phase = w.state.phase := by rw [hsame.table]
  have hkept := queueTo_kept via line i w
  unfold queueTo at hphase hkept ⊢
  split
  · rename_i p hp
    simp only [hp] at hphase hkept
    exact .mute hmute hphase hkept
  · exact .mute rfl rfl fun _ h => ⟨h, rfl⟩

/-- A silent drop. -/
theorem dropSilently_course (i : Slot) (w : Server F) : Course w (dropSilently i w) false := by
  unfold dropSilently dropSlot
  split
  · refine .mute rfl rfl fun k hk => ?_
    rw [ServerState.setPlayer_players] at hk
    rw [ServerState.setPlayer_players]
    split at hk
    · cases hk
    · rename_i hne
      rw [if_neg hne]
      exact ⟨hk, rfl⟩
  · exact .refl w

/-- The second loop of a broadcast. -/
theorem dropAll_course (is : List Slot) (w : Server F) : Course w (dropAll is w) false := by
  induction is generalizing w with
  | nil => exact .refl w
  | cons i is ih => exact (dropSilently_course i w).trans (ih _)

/-- The loops of a broadcast. -/
theorem offers_course {line : ServerLine F} (hline : line.isPlain = true) (w : Server F) :
    Course w (dropAll (offerAll line w).1 (offerAll line w).2) false := by
  have hoffers : ∀ (is : List Slot) (acc : List Slot × Server F),
      Course acc.2 (is.foldl (offerLine line) acc).2 false := by
    intro is
    induction is with
    | nil => exact fun acc => .refl _
    | cons i is ih =>
      intro acc
      refine Course.trans ?_ (ih _)
      have hcall := queueTo_course .broadcast hline i acc.2
      unfold offerLine
      split
      · split <;> rename_i v hq <;> rw [hq] at hcall <;> exact hcall
      · exact .refl _
  exact (hoffers slots ([], w)).trans (dropAll_course _ _)

/-- The result for one client: it is queued, or the client is dropped. -/
theorem announceResult_told (w : Server F) (i : Slot) :
    ∃ new, (announceResult w i).log = new ++ w.log ∧
      (announceResult w i).state.phase = w.state.phase ∧
      (∀ k, ((announceResult w i).state.players k).connected = true →
        (w.state.players k).connected = true ∧
          ((announceResult w i).state.players k).registered = (w.state.players k).registered) ∧
      (∀ x ∈ new, ∀ k, x.event.startsFor k = false ∧
        (x.event.endsFor k = true → (w.state.players k).isRegistered = true)) ∧
      (((announceResult w i).state.players i).isRegistered = true →
        ∃ x ∈ new, x.event.endsFor i = true) := by
  unfold announceResult
  split
  swap
  · rename_i hfree
    refine ⟨[], rfl, rfl, fun _ h => ⟨h, rfl⟩, by simp, fun hreg => ?_⟩
    exact absurd (Player.connected_of_isRegistered hreg) hfree
  rename_i hconn
  unfold queueGameOverResult
  cases hv : (w.state.players i).verdict with
  | none =>
    refine ⟨[], rfl, rfl, fun _ h => ⟨h, rfl⟩, by simp, fun hreg => ?_⟩
    rw [Player.verdict_eq_none.mp hv] at hreg
    cases hreg
  | some v =>
    have hregistered : (w.state.players i).isRegistered = true := by
      by_contra hnot
      rw [Player.verdict_eq_none.mpr (Bool.eq_false_iff.mpr hnot)] at hv
      cases hv
    have hkept := queueTo_kept .verdict (.gameOver v) i w
    have hphase : (queueTo .verdict (.gameOver v) i w).2.state.phase = w.state.phase := by
      rw [(queueTo_rebuffered .verdict (.gameOver v) i w).table]
    dsimp only
    split <;> rename_i u hq <;> rw [hq] at hkept hphase
    · obtain ⟨p, _, hu⟩ := queueTo_true hq
      refine ⟨[⟨.queued i .verdict (.gameOver v), _⟩], by rw [hu]; rfl, hphase, hkept, ?_, ?_⟩
      · rintro x hx k
        rw [List.mem_singleton.mp hx]
        refine ⟨rfl, fun hk => ?_⟩
        obtain rfl : i = k := by simpa [Event.endsFor] using hk
        exact hregistered
      · simp [Event.endsFor]
    · obtain ⟨_, hu⟩ := queueTo_false hq
      obtain ⟨hkept', new, hlog, hlines, hrun, -⟩ := dropSilently_course i u
      refine ⟨new ++ [⟨.refused i .verdict (.gameOver v), w.state⟩], ?_,
        (hrun rfl).1.trans hphase, fun k hk => ?_, ?_, fun hleft => ?_⟩
      · rw [hlog, hu, System.record_log, List.append_assoc]
        rfl
      · obtain ⟨hconn', hreg'⟩ := hkept' k hk
        exact ⟨(hkept k hconn').1, hreg'.trans (hkept k hconn').2⟩
      · rintro x hx k
        rcases List.mem_append.mp hx with hx | hx
        · exact ⟨(hlines x hx k).1, fun hk => by simp [((hrun rfl).2 x hx).2 k] at hk⟩
        · rw [List.mem_singleton.mp hx]
          exact ⟨rfl, nofun⟩
      · have hgone := dropSlot_connected false i u
        rw [show dropSlot false i u = dropSilently i u from rfl,
          Player.connected_of_isRegistered hleft] at hgone
        cases hgone

/-- `end_game` tells every registered client that it does not drop. -/
theorem endGame_course (w : Server F) : Course w (endGame w) true := by
  have hloop : ∀ (is : List Slot) (v : Server F),
      ∃ new, (is.foldl announceResult v).log = new ++ v.log ∧
        (is.foldl announceResult v).state.phase = v.state.phase ∧
        (∀ k, ((is.foldl announceResult v).state.players k).connected = true →
          (v.state.players k).connected = true ∧
            ((is.foldl announceResult v).state.players k).registered =
              (v.state.players k).registered) ∧
        (∀ x ∈ new, ∀ k, x.event.startsFor k = false ∧
          (x.event.endsFor k = true → (v.state.players k).isRegistered = true)) ∧
        ∀ i ∈ is, ((is.foldl announceResult v).state.players i).isRegistered = true →
          ∃ x ∈ new, x.event.endsFor i = true := by
    intro is
    induction is with
    | nil => exact fun v => ⟨[], rfl, rfl, fun _ h => ⟨h, rfl⟩, by simp, by simp⟩
    | cons i is ih =>
      intro v
      obtain ⟨new, hlog, hphase, hkept, hlines, htold⟩ := announceResult_told v i
      obtain ⟨new', hlog', hphase', hkept', hlines', htold'⟩ := ih (announceResult v i)
      refine ⟨new' ++ new, by rw [List.foldl_cons, hlog', hlog, List.append_assoc],
        hphase'.trans hphase, fun k hk => ?_, ?_, ?_⟩
      · obtain ⟨hconn, hreg⟩ := hkept' k hk
        exact ⟨(hkept k hconn).1, hreg.trans (hkept k hconn).2⟩
      · rintro x hx k
        rcases List.mem_append.mp hx with hx | hx
        · refine ⟨(hlines' x hx k).1, fun hk => ?_⟩
          obtain ⟨hconn, hreg⟩ := Player.isRegistered_iff.mp ((hlines' x hx k).2 hk)
          exact Player.isRegistered_iff.mpr
            ⟨(hkept k hconn).1, (hkept k hconn).2.symm.trans hreg⟩
        · exact hlines x hx k
      · rintro k hk hreg
        rcases List.mem_cons.mp hk with rfl | hk
        · obtain ⟨hconn, hreg'⟩ := Player.isRegistered_iff.mp hreg
          obtain ⟨hconn', hreg''⟩ := hkept' k hconn
          obtain ⟨x, hx, hline⟩ := htold
            (Player.isRegistered_iff.mpr ⟨hconn', hreg''.symm.trans hreg'⟩)
          exact ⟨x, List.mem_append_right _ hx, hline⟩
        · obtain ⟨x, hx, hline⟩ := htold' k hk hreg
          exact ⟨x, List.mem_append_left _ hx, hline⟩
  obtain ⟨new, hlog, hphase, hkept, hlines, htold⟩ :=
    hloop slots (w.record .gameEnded { w.state with phase := .gameOver })
  refine ⟨hkept, new ++ [⟨.gameEnded, { w.state with phase := .gameOver }⟩], ?_, ?_, nofun,
    fun _ => ⟨hphase, ⟨_, List.mem_append_right _ (List.mem_singleton_self _), rfl⟩,
      fun i hi => ?_⟩⟩
  · rw [List.append_assoc]
    exact hlog
  · rintro x hx k
    rcases List.mem_append.mp hx with hx | hx
    · exact hlines x hx k
    · rw [List.mem_singleton.mp hx]
      exact ⟨rfl, nofun⟩
  · obtain ⟨x, hx, hline⟩ := htold i (mem_slots i) hi
    exact ⟨x, List.mem_append_left _ hx, hline⟩

end Calls

section Reevaluation

/-- In a repick that nobody alive has submitted to, `reevaluate_state` ends the match when at
most one player is alive, and does nothing otherwise. -/
theorem reevaluateState_repick {w : Server F} (hw : Unsubmitted w.state) :
    reevaluateState w = if activeAliveCount w.state ≤ 1 then endGame w else w := by
  show reevaluateBody (reevaluateWithin MAX_PLAYERS) w = _
  unfold reevaluateBody
  simp only [hw.1, reevaluateRepick]
  split
  · rfl
  · rename_i hmany
    obtain ⟨i, _, hi⟩ := List.countP_pos_iff.mp
      (Nat.lt_of_lt_of_le Nat.zero_lt_two (not_le.mp hmany))
    have hopen : allAliveRepicked w.state = false := by
      simp only [allAliveRepicked, Bool.and_eq_false_iff, List.all_eq_false]
      exact .inl ⟨i, mem_slots i, by simp [hi, hw.2 i hi]⟩
    rw [hopen]
    rfl

/-- After the end of the match it does nothing. -/
theorem reevaluateState_over {w : Server F} (hw : w.state.phase = .gameOver) :
    reevaluateState w = w := by
  show reevaluateBody (reevaluateWithin MAX_PLAYERS) w = w
  simp only [reevaluateBody, hw]

/-- In a round it ends the match or does nothing. -/
theorem reevaluateState_round {w : Server F} (hw : w.state.phase = .roundActive) :
    reevaluateState w =
      if activeAliveCount w.state ≤ 1 ∨ countAliveChoiceTypes w.state ≤ 1 then endGame w
      else w := by
  show reevaluateBody (reevaluateWithin MAX_PLAYERS) w = _
  simp only [reevaluateBody, hw, reevaluateRoundActive]

theorem Simple.broadcast {s : ServerState F} (h : Simple s) (line : ServerLine F) :
    Simple (s.broadcast line) := by
  rcases h with h | h | h
  · exact .inl h
  · exact .inr (.inl h)
  · exact .inr (.inr (broadcast_unsubmitted line h))

/-- The re-entrant call. -/
theorem reevaluateState_courses : Courses (F := F) reevaluateState := by
  intro w hw
  have hend : Course w (endGame w) true ∧ Simple (endGame w).state :=
    ⟨endGame_course w, .inl (endGame_phase w)⟩
  rcases hw with h | h | h
  · rw [reevaluateState_over h]
    exact ⟨false, .refl w, .inl h, fun _ => rfl⟩
  · rw [reevaluateState_round h]
    split
    · exact ⟨true, hend.1, hend.2, by simp [h]⟩
    · exact ⟨false, .refl w, .inr (.inl h), fun _ => rfl⟩
  · rw [reevaluateState_repick h]
    split
    · exact ⟨true, hend.1, hend.2, by simp [h.1]⟩
    · exact ⟨false, .refl w, .inr (.inr h), fun _ => rfl⟩

/-- A broadcast of any other line. -/
theorem queueBroadcast_courses {line : ServerLine F} (hline : line.isPlain = true) :
    Courses (queueBroadcast line) := by
  intro w hw
  obtain ⟨v, hv, hloops, hfit, hover⟩ := queueBroadcastWith_eq reevaluateState line w
  have hcourse : Course w v false := hloops ▸ offers_course hline w
  have hsimple : Simple v.state := hv ▸ hw.broadcast line
  unfold queueBroadcast
  by_cases hfull : overflows line w.state
  · rw [hover hfull]
    obtain ⟨ended, hcourse', hsimple', hover'⟩ := reevaluateState_courses v hsimple
    exact ⟨ended, hcourse.trans hcourse', hsimple', fun h => hover' (hcourse.phase.trans h)⟩
  · rw [hfit hfull]
    exact ⟨false, hcourse, hsimple, fun _ => rfl⟩

/-- Positions. -/
theorem foldl_position_courses (is : List Slot) :
    Courses fun w : Server F => is.foldl (broadcastPositionWith reevaluateState) w := by
  refine Courses.foldl (fun i w hw => ?_) is
  unfold broadcastPositionWith
  dsimp only
  split
  · exact queueBroadcast_courses rfl w hw
  · exact ⟨false, .refl w, hw, fun _ => rfl⟩

/-- Nobody has a position. -/
theorem foldl_position_nobody (is : List Slot) {w : Server F}
    (hw : ∀ i, (w.state.players i).isRegistered = false) :
    is.foldl (broadcastPositionWith reevaluateState) w = w := by
  induction is with
  | nil => rfl
  | cons i is ih =>
    have hskip : broadcastPositionWith reevaluateState w i = w := by
      unfold broadcastPositionWith
      refine if_neg fun hi => ?_
      cases (hw i).symm.trans (Player.isRegistered_of_isAdmitted hi)
    rw [List.foldl_cons, hskip, ih]

end Reevaluation

section Condition

/-- The broadcast of a line drops somebody, and leaves at most one player alive. -/
def EndsRepick (line : ServerLine F) (s : ServerState F) : Prop :=
  overflows line s ∧ activeAliveCount (s.broadcast line) ≤ 1

/-- The broadcast of some position does, on the table that the lines before it have left. -/
def PositionsEndRepick : List Slot → ServerState F → Prop
  | [], _ => False
  | i :: is, s =>
    ((s.players i).isAdmitted = true ∧ EndsRepick (s.players i).line s) ∨
      PositionsEndRepick is (s.offerPosition i)

/-- REPICK_DONE or a position after it drops somebody and leaves at most one player alive. -/
def RepickLost (s : ServerState F) : Prop :=
  EndsRepick .repickDone s ∨ PositionsEndRepick slots (s.broadcast .repickDone)

/-- A broadcast during a repick without submissions. -/
theorem queueBroadcast_repick (line : ServerLine F) {w : Server F} (hw : Unsubmitted w.state) :
    (EndsRepick line w.state → (queueBroadcast line w).state.phase = .gameOver) ∧
      (¬EndsRepick line w.state →
        (queueBroadcast line w).state = w.state.broadcast line) := by
  obtain ⟨v, hv, _, hfit, hover⟩ := queueBroadcastWith_eq reevaluateState line w
  have hleft : Unsubmitted v.state := hv ▸ broadcast_unsubmitted line hw
  unfold queueBroadcast
  constructor
  · rintro ⟨hfull, hfew⟩
    rw [hover hfull, reevaluateState_repick hleft, hv, if_pos hfew]
    exact endGame_phase v
  · rintro hmany
    by_cases hfull : overflows line w.state
    · have hnot : ¬activeAliveCount (w.state.broadcast line) ≤ 1 := fun h => hmany ⟨hfull, h⟩
      rw [hover hfull, reevaluateState_repick hleft, hv, if_neg hnot, hv]
    · rw [hfit hfull, hv]

/-- The positions, during a repick without submissions. -/
theorem foldl_position_repick (is : List Slot) {w : Server F} (hw : Unsubmitted w.state) :
    (is.foldl (broadcastPositionWith reevaluateState) w).state.phase = .gameOver ↔
      PositionsEndRepick is w.state := by
  induction is generalizing w with
  | nil => simp [PositionsEndRepick, hw.1]
  | cons i is ih =>
    rw [List.foldl_cons, PositionsEndRepick]
    unfold broadcastPositionWith ServerState.offerPosition
    by_cases hi : (w.state.players i).isAdmitted = true
    · rw [if_pos hi, if_pos hi]
      obtain ⟨hends, hstays⟩ := queueBroadcast_repick (w.state.players i).line hw
      unfold queueBroadcast at hends hstays
      by_cases hlost : EndsRepick (w.state.players i).line w.state
      · have hover : Simple (queueBroadcastWith reevaluateState (w.state.players i).line
            w).state := .inl (hends hlost)
        obtain ⟨ended, hcourse, _, hnone⟩ := foldl_position_courses is _ hover
        rw [hnone (hends hlost)] at hcourse
        exact ⟨fun _ => .inl ⟨hi, hlost⟩, fun _ => hcourse.phase.trans (hends hlost)⟩
      · rw [← hstays hlost]
        have hleft : Unsubmitted (queueBroadcastWith reevaluateState
            (w.state.players i).line w).state := by
          rw [hstays hlost]
          exact broadcast_unsubmitted _ hw
        simp only [hi, hlost, and_false, false_or]
        exact ih hleft
    · simp only [hi, false_and, false_or, Bool.false_eq_true, if_false]
      exact ih hw

end Condition

section Table

/-- A slot after the result of the match: the line is queued, or the slot is cleared. -/
def Player.told (p : Player F) : Player F :=
  match p.verdict with
  | none => p
  | some v => (p.queueVia .verdict (.gameOver v)).getD Player.cleared

/-- The table after `end_game`. -/
def ServerState.ended (s : ServerState F) : ServerState F :=
  { s with phase := .gameOver, players := fun i => (s.players i).told }

theorem announceResult_state (w : Server F) (i : Slot) :
    (announceResult w i).state =
      { w.state with players := fun j =>
          if j = i then (w.state.players i).told else w.state.players j } := by
  unfold announceResult queueGameOverResult Player.told
  cases hv : (w.state.players i).verdict with
  | none =>
    have hsame : w.state =
        { w.state with players := fun j =>
            if j = i then w.state.players i else w.state.players j } := by
      refine ServerState.players_congr fun j => ?_
      split
      · rename_i hji
        rw [hji]
      · rfl
    split <;> exact hsame
  | some v =>
    have hconn : (w.state.players i).connected = true := by
      refine Player.connected_of_isRegistered ?_
      by_contra hnot
      rw [Player.verdict_eq_none.mpr (Bool.eq_false_iff.mpr hnot)] at hv
      cases hv
    rw [if_pos hconn]
    cases hq : (w.state.players i).queueVia .verdict (.gameOver v) with
    | some p =>
      simp only [queueTo, hq, Option.getD_some]
      exact ServerState.players_congr fun j => ServerState.setPlayer_players ..
    | none =>
      simp only [queueTo, hq, Option.getD_none, dropSilently]
      rw [dropSlot_of_connected (by rwa [System.record_state])]
      exact ServerState.players_congr fun j => ServerState.setPlayer_players ..

/-- Every slot in turn. -/
theorem foldl_announceResult_state {is : List Slot} (his : is.Nodup) (w : Server F) :
    (is.foldl announceResult w).state =
      { w.state with players := fun j =>
          if j ∈ is then (w.state.players j).told else w.state.players j } := by
  induction is generalizing w with
  | nil => rfl
  | cons i is ih =>
    obtain ⟨hi, his⟩ := List.nodup_cons.mp his
    rw [List.foldl_cons, ih his, announceResult_state]
    refine ServerState.players_congr fun j => ?_
    by_cases hji : j = i
    · subst hji
      simp [hi]
    · simp [hji]

/-- `end_game`, on the table. -/
theorem endGame_state (w : Server F) : (endGame w).state = w.state.ended := by
  unfold endGame ServerState.ended
  rw [foldl_announceResult_state slots_nodup]
  refine ServerState.players_congr fun j => ?_
  rw [if_pos (mem_slots j)]
  rfl

instance (line : ServerLine F) (s : ServerState F) : Decidable (overflows line s) :=
  inferInstanceAs (Decidable (∃ _ : Fin MAX_PLAYERS, _ ∧ _))

instance (line : ServerLine F) (s : ServerState F) : Decidable (EndsRepick line s) :=
  inferInstanceAs (Decidable (_ ∧ _))

/-- The table after a broadcast that may end a repick. -/
def ServerState.repickLine (line : ServerLine F) (s : ServerState F) : ServerState F :=
  if s.phase = .repick ∧ EndsRepick line s then (s.broadcast line).ended else s.broadcast line

/-- The table after the position of a slot. -/
def ServerState.repickPosition (s : ServerState F) (i : Slot) : ServerState F :=
  if (s.players i).isAdmitted then s.repickLine (s.players i).line else s

/-- The table on which `finish_repicks` starts the round. -/
def ServerState.atRestart (s : ServerState F) : ServerState F :=
  slots.foldl ServerState.repickPosition (s.repickLine .repickDone)

/-- The states in which such a broadcast is made. -/
def Restarting (s : ServerState F) : Prop := s.phase = .gameOver ∨ Unsubmitted s

theorem queueBroadcast_repickLine (line : ServerLine F) {w : Server F}
    (hw : Restarting w.state) :
    (queueBroadcast line w).state = w.state.repickLine line ∧
      Restarting (queueBroadcast line w).state := by
  obtain ⟨v, hv, _, hfit, hover⟩ := queueBroadcastWith_eq reevaluateState line w
  unfold ServerState.repickLine queueBroadcast
  rcases hw with hphase | hleft
  · have hsame : (queueBroadcastWith reevaluateState line w).state = w.state.broadcast line := by
      by_cases hfull : overflows line w.state
      · have hover' : v.state.phase = .gameOver := hv ▸ hphase
        rw [hover hfull, reevaluateState_over hover', hv]
      · rw [hfit hfull, hv]
    rw [if_neg (by simp [hphase]), hsame]
    exact ⟨rfl, .inl hphase⟩
  · have hcalm : Unsubmitted v.state := hv ▸ broadcast_unsubmitted line hleft
    by_cases hends : EndsRepick line w.state
    · obtain ⟨hfull, hfew⟩ := hends
      rw [if_pos ⟨hleft.1, hfull, hfew⟩, hover hfull, reevaluateState_repick hcalm, hv,
        if_pos hfew, endGame_state, hv]
      exact ⟨rfl, .inl rfl⟩
    · have hsame := (queueBroadcast_repick line hleft).2 hends
      unfold queueBroadcast at hsame
      rw [if_neg fun h => hends h.2, hsame]
      exact ⟨rfl, .inr (broadcast_unsubmitted line hleft)⟩

theorem broadcastPosition_repickPosition (i : Slot) {w : Server F} (hw : Restarting w.state) :
    (broadcastPositionWith reevaluateState w i).state = w.state.repickPosition i ∧
      Restarting (broadcastPositionWith reevaluateState w i).state := by
  unfold broadcastPositionWith ServerState.repickPosition
  by_cases hi : (w.state.players i).isAdmitted = true
  · rw [if_pos hi, if_pos hi]
    exact queueBroadcast_repickLine (w.state.players i).line hw
  · rw [if_neg hi, if_neg hi]
    exact ⟨rfl, hw⟩

theorem foldl_repickPosition (is : List Slot) {w : Server F} (hw : Restarting w.state) :
    (is.foldl (broadcastPositionWith reevaluateState) w).state =
      is.foldl ServerState.repickPosition w.state := by
  induction is generalizing w with
  | nil => rfl
  | cons i is ih =>
    obtain ⟨hsame, hleft⟩ := broadcastPosition_repickPosition i hw
    rw [List.foldl_cons, List.foldl_cons, ih hleft, hsame]

end Table

section Start

/-- The server when `finish_repicks` calls `start_active_round`. -/
def beforeStart (w : Server F) : Server F :=
  broadcastPositions (queueBroadcast .repickDone (repicked w))

/-- There is no room for the `ROUND_START` line of the next round. -/
def LacksRoom (s : ServerState F) (i : Slot) : Prop :=
  (s.players i).queueVia .broadcast (.roundStart (s.roundNo + 1) ROUND_SECONDS) = none

/-- Some client has no room for `ROUND_START`, and no registered one has. -/
def Unheard (s : ServerState F) : Prop :=
  (∃ i, (s.players i).connected = true ∧ LacksRoom s i) ∧
    ∀ i, (s.players i).isRegistered = true → LacksRoom s i

/-- If the match ended during the call, it stays at its end, and no client was sent
`ROUND_START` after `GAME_OVER`. -/
def EndIsFinal (w v : Server F) : Prop :=
  (∃ x ∈ added w v, x.event = .gameEnded) → v.state.phase = .gameOver ∧
    (added w v).Pairwise fun later earlier =>
      ∀ i, later.event.startsFor i = true → earlier.event.endsFor i = false

theorem beforeStart_eq (w : Server F) : beforeStart w =
    slots.foldl (broadcastPositionWith reevaluateState)
      (queueBroadcast .repickDone (repicked w)) := rfl

/-- Its table. -/
theorem beforeStart_state {w : Server F} (hphase : w.state.phase = .repick) :
    (beforeStart w).state = (repicked w).state.atRestart := by
  obtain ⟨hsame, hleft⟩ :=
    queueBroadcast_repickLine .repickDone (.inr (repicked_unsubmitted hphase))
  rw [beforeStart_eq, ServerState.atRestart, foldl_repickPosition slots hleft, hsame]

/-- The part before the start, and what tells whether it ends the match. -/
theorem beforeStart_course {w : Server F} (hphase : w.state.phase = .repick) :
    (∃ ended, Course w (beforeStart w) ended) ∧
      ((beforeStart w).state.phase = .gameOver ↔ RepickLost (repicked w).state) := by
  have hnew := repicked_unsubmitted hphase
  have happly : Course w (repicked w) false := by
    refine .mute rfl rfl fun i hi => ?_
    simp only [Player.applyRepick] at hi ⊢
    split at hi <;> rename_i halive <;>
      simpa only [halive, if_true, Bool.false_eq_true, if_false, and_true] using hi
  have hdone : Courses (queueBroadcast (.repickDone : ServerLine F)) :=
    queueBroadcast_courses rfl
  rw [beforeStart_eq, RepickLost]
  generalize slots = is
  constructor
  · obtain ⟨ended, hcourse, _⟩ := hdone.comp (foldl_position_courses is) (repicked w)
      (.inr (.inr hnew))
    exact ⟨ended, happly.trans hcourse⟩
  · obtain ⟨hends, hstays⟩ := queueBroadcast_repick .repickDone hnew
    by_cases hlost : EndsRepick .repickDone (repicked w).state
    · have hover := hends hlost
      obtain ⟨ended, hcourse, _, hnone⟩ :=
        foldl_position_courses is (queueBroadcast .repickDone (repicked w)) (.inl hover)
      rw [hnone hover] at hcourse
      exact ⟨fun _ => .inl hlost, fun _ => hcourse.phase.trans hover⟩
    · have hleft : Unsubmitted (queueBroadcast .repickDone (repicked w)).state := by
        rw [hstays hlost]
        exact broadcast_unsubmitted _ hnew
      rw [← hstays hlost]
      simp only [hlost, false_or]
      exact foldl_position_repick is hleft

/-- What the offers of `ROUND_START` record: a line for every client with room. -/
theorem foldl_offerLine_start (n : ℕ) (seconds : ℤ) {is : List Slot} (his : is.Nodup)
    (acc : List Slot) (w : Server F) :
    ∃ new, (is.foldl (offerLine (.roundStart n seconds)) (acc, w)).2.log = new ++ w.log ∧
      (∀ x ∈ new, x.event ≠ .gameEnded ∧ ∀ i, x.event.endsFor i = false) ∧
      ∀ i, (∃ x ∈ new, x.event.startsFor i = true) ↔
        i ∈ is ∧ (w.state.players i).connected = true ∧
          (w.state.players i).queueVia .broadcast (.roundStart n seconds) ≠ none := by
  induction is generalizing acc w with
  | nil => exact ⟨[], rfl, by simp, by simp⟩
  | cons i is ih =>
    obtain ⟨hi, his⟩ := List.nodup_cons.mp his
    -- one offer, and what it leaves to the others
    obtain ⟨acc', v, first, hone, hlog, hquiet, hfirst, hsame⟩ : ∃ acc' v first,
        offerLine (.roundStart n seconds) (acc, w) i = (acc', v) ∧ v.log = first ++ w.log ∧
          (∀ x ∈ first, x.event ≠ .gameEnded ∧ ∀ k, x.event.endsFor k = false) ∧
          (∀ k, (∃ x ∈ first, x.event.startsFor k = true) ↔
            k = i ∧ (w.state.players i).connected = true ∧
              (w.state.players i).queueVia .broadcast (.roundStart n seconds) ≠ none) ∧
          ∀ k, k ≠ i → v.state.players k = w.state.players k := by
      unfold offerLine
      dsimp only
      split
      · rename_i hconn
        split <;> rename_i v hq
        · obtain ⟨p, hroom, rfl⟩ := queueTo_true hq
          refine ⟨acc, _, [⟨.queued i .broadcast (.roundStart n seconds), _⟩], rfl, rfl, ?_, ?_,
            fun k hk => ServerState.setPlayer_of_ne _ _ hk⟩
          · simp [Event.endsFor]
          · rintro k
            simp only [List.mem_singleton, exists_eq_left, Event.startsFor, beq_iff_eq, hconn,
              hroom, ne_eq, reduceCtorEq, not_false_iff, and_true]
            exact eq_comm
        · obtain ⟨hnone, rfl⟩ := queueTo_false hq
          refine ⟨acc ++ [i], _, [⟨.refused i .broadcast (.roundStart n seconds), _⟩], rfl, rfl,
            ?_, ?_, fun k _ => rfl⟩
          · simp [Event.endsFor]
          · simp [Event.startsFor, hnone]
      · rename_i hfree
        exact ⟨acc, w, [], rfl, rfl, by simp, by simp [hfree], fun _ _ => rfl⟩
    obtain ⟨new, hlog', hquiet', hheard⟩ := ih his acc' v
    rw [List.foldl_cons, hone]
    refine ⟨new ++ first, by rw [hlog', hlog, List.append_assoc], ?_, fun k => ?_⟩
    · rintro x hx
      rcases List.mem_append.mp hx with hx | hx
      · exact hquiet' x hx
      · exact hquiet x hx
    · have hsplit : (∃ x ∈ new ++ first, x.event.startsFor k = true) ↔
          (∃ x ∈ new, x.event.startsFor k = true) ∨ ∃ x ∈ first, x.event.startsFor k = true := by
        simp [or_and_right, exists_or]
      rw [hsplit, hheard k, hfirst k, List.mem_cons]
      by_cases hki : k = i
      · subst hki
        simp [hi]
      · simp [hki, hsame k hki]

omit [CFloat F] in
theorem Player.enterRound_outbuf (p : Player F) : p.enterRound.outbuf = p.outbuf := by
  unfold enterRound
  dsimp only
  split <;> rfl

omit [CFloat F] in
theorem Player.enterRound_registration (p : Player F) :
    p.enterRound.isRegistered = p.isRegistered := by
  unfold enterRound
  dsimp only
  split <;> rfl

/-- Whether a line has room depends on the send buffer alone. -/
theorem Player.queueVia_enterRound {p : Player F} {line : ServerLine F} :
    p.enterRound.queueVia .broadcast line = none ↔ p.queueVia .broadcast line = none := by
  show p.enterRound.queueLine (cString (line.text.take (MAX_LINE - 1))) = none ↔
    p.queueLine (cString (line.text.take (MAX_LINE - 1))) = none
  generalize cString (line.text.take (MAX_LINE - 1)) = text
  unfold queueLine
  rw [p.enterRound_outbuf]
  split
  · exact ⟨fun _ => rfl, fun _ => rfl⟩
  · split
    · exact ⟨fun _ => rfl, fun _ => rfl⟩
    · exact ⟨nofun, nofun⟩

/-- The clients that the `ROUND_START` line drops. -/
theorem overflows_startRound (now : ℤ) (s : ServerState F) :
    overflows (.roundStart (s.roundNo + 1) ROUND_SECONDS) (startRound now s) ↔
      ∃ i, (s.players i).connected = true ∧ LacksRoom s i := by
  unfold overflows LacksRoom startRound
  simp only [Player.enterRound_connected, Player.queueVia_enterRound]

/-- The start of a round: `ROUND_START` for every client with room, and then a course. -/
theorem startActiveRound_record (u : Server F) :
    ∃ rest offers, (startActiveRound u).log = rest ++ (offers ++ u.log) ∧
      (∀ x ∈ rest, ∀ i, x.event.startsFor i = false) ∧
      ((∃ x ∈ rest, x.event = .gameEnded) → (startActiveRound u).state.phase = .gameOver) ∧
      (∀ x ∈ offers, x.event ≠ .gameEnded ∧ ∀ i, x.event.endsFor i = false) ∧
      ∀ i, (∃ x ∈ offers, x.event.startsFor i = true) ↔
        (u.state.players i).connected = true ∧ ¬LacksRoom u.state i := by
  have hstart : startActiveRound u = slots.foldl (broadcastPositionWith reevaluateState)
      (queueBroadcast (.roundStart (u.state.roundNo + 1) ROUND_SECONDS)
        (u.record .roundStarted (startRound u.time u.state))) := rfl
  obtain ⟨v, hv, hloops, hfit, hover⟩ := queueBroadcastWith_eq reevaluateState
    (.roundStart (u.state.roundNo + 1) ROUND_SECONDS)
    (u.record .roundStarted (startRound u.time u.state))
  have hround : Simple v.state := .inr (.inl (by rw [hv]; rfl))
  obtain ⟨offers, hlog, hquiet, hheard⟩ := foldl_offerLine_start (u.state.roundNo + 1)
    ROUND_SECONDS slots_nodup [] (u.record .roundStarted (startRound u.time u.state))
  have hdrops := dropAll_course
    (offerAll (.roundStart (u.state.roundNo + 1) ROUND_SECONDS)
      (u.record .roundStarted (startRound u.time u.state))).1
    (offerAll (.roundStart (u.state.roundNo + 1) ROUND_SECONDS)
      (u.record .roundStarted (startRound u.time u.state))).2
  rw [← hloops] at hdrops
  have htail : ∃ ended, Course v (startActiveRound u) ended := by
    rw [hstart]
    unfold queueBroadcast
    generalize slots = is
    by_cases hfull : overflows (.roundStart (u.state.roundNo + 1) ROUND_SECONDS)
        (u.record .roundStarted (startRound u.time u.state)).state
    · rw [hover hfull]
      obtain ⟨ended, hcourse, _⟩ :=
        reevaluateState_courses.comp (foldl_position_courses is) v hround
      exact ⟨ended, hcourse⟩
    · rw [hfit hfull]
      obtain ⟨ended, hcourse, _⟩ := foldl_position_courses is v hround
      exact ⟨ended, hcourse⟩
  obtain ⟨ended, hcourse⟩ := htail
  obtain ⟨_, rest, hrest, hlines, hrun, hended⟩ := hdrops.trans hcourse
  refine ⟨rest, offers ++ [⟨.roundStarted, startRound u.time u.state⟩], ?_,
    fun x hx i => (hlines x hx i).1, ?_, ?_, fun i => ?_⟩
  · have hunfold : offerAll (.roundStart (u.state.roundNo + 1) ROUND_SECONDS)
        (u.record .roundStarted (startRound u.time u.state)) = slots.foldl
          (offerLine (.roundStart (u.state.roundNo + 1) ROUND_SECONDS))
          ([], u.record .roundStarted (startRound u.time u.state)) := rfl
    rw [hrest, hunfold, hlog, System.record_log, List.append_assoc, List.singleton_append]
  · rintro ⟨x, hx, hend⟩
    cases ended with
    | false => exact absurd hend ((hrun rfl).2 x hx).1
    | true => exact (hended rfl).1
  · rintro x hx
    rcases List.mem_append.mp hx with hx | hx
    · exact hquiet x hx
    · rw [List.mem_singleton.mp hx]
      exact ⟨nofun, fun _ => rfl⟩
  · have hone : (∃ x ∈ offers ++ [⟨.roundStarted, startRound u.time u.state⟩],
        x.event.startsFor i = true) ↔ ∃ x ∈ offers, x.event.startsFor i = true := by
      simp [or_and_right, exists_or, Event.startsFor]
    rw [hone, hheard i]
    exact ⟨fun ⟨_, hconn, hroom⟩ => ⟨(Player.enterRound_connected _).symm.trans hconn,
        fun hlacks => hroom (Player.queueVia_enterRound.mpr hlacks)⟩,
      fun ⟨hconn, hroom⟩ => ⟨mem_slots i, (Player.enterRound_connected _).trans hconn,
        fun hlacks => hroom (Player.queueVia_enterRound.mp hlacks)⟩⟩

/-- The start of a round that no registered client has room for. -/
theorem startActiveRound_phase (u : Server F)
    (hfull : ∀ i, (u.state.players i).isRegistered = true → LacksRoom u.state i) :
    (startActiveRound u).state.phase = .gameOver ↔
      ∃ i, (u.state.players i).connected = true ∧ LacksRoom u.state i := by
  have hstart : startActiveRound u = slots.foldl (broadcastPositionWith reevaluateState)
      (queueBroadcast (.roundStart (u.state.roundNo + 1) ROUND_SECONDS)
        (u.record .roundStarted (startRound u.time u.state))) := rfl
  obtain ⟨v, hv, _, hfit, hover⟩ := queueBroadcastWith_eq reevaluateState
    (.roundStart (u.state.roundNo + 1) ROUND_SECONDS)
    (u.record .roundStarted (startRound u.time u.state))
  rw [System.record_state] at hv hfit hover
  rw [overflows_startRound] at hfit hover
  have hphase : v.state.phase = .roundActive := by rw [hv]; rfl
  have hgone : ∀ i, (v.state.players i).isRegistered = false := by
    rintro i
    by_contra hreg
    rw [Bool.not_eq_false, hv] at hreg
    have hcases := Player.afterBroadcast_cases
      (.roundStart (u.state.roundNo + 1) ROUND_SECONDS) (u.state.players i).enterRound
    rw [show ((startRound u.time u.state).broadcast
      (.roundStart (u.state.roundNo + 1) ROUND_SECONDS)).players i =
        (u.state.players i).enterRound.afterBroadcast
          (.roundStart (u.state.roundNo + 1) ROUND_SECONDS) from rfl] at hreg
    by_cases hroom : (u.state.players i).queueVia .broadcast
        (.roundStart (u.state.roundNo + 1) ROUND_SECONDS) = none
    · rw [Player.afterBroadcast] at hreg
      rw [Player.queueVia_enterRound.mpr hroom, Player.enterRound_connected] at hreg
      split at hreg
      · cases hreg
      · rename_i hfree
        rw [← Player.enterRound_connected] at hfree
        exact hfree (Player.connected_of_isRegistered hreg)
    · rcases hcases with ⟨outbuf, hsame⟩ | ⟨_, hnone, _⟩
      · rw [hsame] at hreg
        obtain ⟨hconn, hregistered⟩ := Player.isRegistered_iff.mp hreg
        have hbefore : (u.state.players i).enterRound.isRegistered = true :=
          Player.isRegistered_iff.mpr ⟨hconn, hregistered⟩
        rw [(u.state.players i).enterRound_registration] at hbefore
        exact hroom (hfull i hbefore)
      · exact hroom (Player.queueVia_enterRound.mp hnone)
  rw [hstart]
  unfold queueBroadcast
  generalize slots = is
  constructor
  · intro hend
    by_contra hfit'
    rw [hfit hfit', foldl_position_nobody is hgone, hphase] at hend
    cases hend
  · intro hlacks
    have hzero : activeAliveCount v.state = 0 := by
      refine List.countP_eq_zero.mpr fun i _ halive => ?_
      cases (hgone i).symm.trans
        (Player.isRegistered_of_isAdmitted (Player.isAdmitted_of_isAlive halive))
    rw [hover hlacks, reevaluateState_round hphase, if_pos (.inl (hzero.le.trans zero_le_one))]
    obtain ⟨ended, hcourse, _, hnone⟩ :=
      foldl_position_courses is (endGame v) (.inl (endGame_phase v))
    rw [hnone (endGame_phase v)] at hcourse
    exact hcourse.phase.trans (endGame_phase v)

omit [CFloat F] in
/-- The order of the two lines when the parts of a record are known. -/
theorem pairwise_starts {rest offers before : Log F}
    (hrest : ∀ x ∈ rest, ∀ i, x.event.startsFor i = false)
    (hoffers : ∀ x ∈ offers, ∀ i, x.event.endsFor i = false)
    (hbefore : ∀ x ∈ before, ∀ i, x.event.startsFor i = false) :
    ((rest ++ (offers ++ before)).Pairwise fun later earlier =>
      ∀ i, later.event.startsFor i = true → earlier.event.endsFor i = false) ↔
      ∀ x ∈ offers, ∀ y ∈ before, ∀ i, x.event.startsFor i = true →
        y.event.endsFor i = false := by
  have hsilent : ∀ {l : Log F}, (∀ x ∈ l, ∀ i, x.event.startsFor i = false) →
      l.Pairwise fun later earlier =>
        ∀ i, later.event.startsFor i = true → earlier.event.endsFor i = false := by
    rintro l h
    refine List.pairwise_of_forall_mem_list fun x hx y _ i hi => ?_
    rw [h x hx i] at hi
    cases hi
  rw [List.pairwise_append, List.pairwise_append]
  constructor
  · rintro ⟨_, ⟨_, _, h⟩, _⟩
    exact h
  · rintro h
    refine ⟨hsilent hrest, ⟨?_, hsilent hbefore, h⟩, fun x hx y _ i hi => ?_⟩
    · exact List.pairwise_of_forall_mem_list fun _ _ y hy i _ => hoffers y hy i
    · rw [hrest x hx i] at hi
      cases hi

/-- The end during a repick is final exactly if no line before the start of the round leaves
at most one player, or if the start drops every registered client. -/
theorem finishRepicks_final_iff {w : Server F} (hphase : w.state.phase = .repick) :
    EndIsFinal w (finishRepicks w) ↔
      ¬RepickLost (repicked w).state ∨ Unheard (repicked w).state.atRestart := by
  obtain ⟨⟨ended, hcourse⟩, hlost⟩ := beforeStart_course hphase
  obtain ⟨rest, offers, hlog, hrest, hover, hoffers, hheard⟩ :=
    startActiveRound_record (beforeStart w)
  have hover' := startActiveRound_phase (beforeStart w)
  rw [← beforeStart_state hphase, ← hlost]
  have hfinish : finishRepicks w = startActiveRound (beforeStart w) := rfl
  rw [hfinish]
  have hphase' := hcourse.phase
  have hkept := hcourse.kept
  generalize beforeStart w = u at *
  obtain ⟨_, before, hlog', hlines, hrun, hended⟩ := hcourse
  rw [hlog'] at hlog
  have hadded : added w (startActiveRound u) = rest ++ (offers ++ before) :=
    added_eq (by rw [hlog]; simp only [List.append_assoc])
  have horder := pairwise_starts hrest (fun x hx => (hoffers x hx).2)
    fun x hx i => (hlines x hx i).1
  unfold EndIsFinal
  rw [hadded, horder]
  cases ended with
  | false =>
    -- the match can end after the start only
    have hgoing : u.state.phase ≠ .gameOver := by
      rw [hphase', if_neg Bool.false_ne_true, hphase]
      nofun
    refine ⟨fun _ => .inl hgoing, fun _ hend => ⟨hover ?_, ?_⟩⟩
    · obtain ⟨x, hx, hend⟩ := hend
      rcases List.mem_append.mp hx with hx | hx
      · exact ⟨x, hx, hend⟩
      · rcases List.mem_append.mp hx with hx | hx
        · exact absurd hend (hoffers x hx).1
        · exact absurd hend ((hrun rfl).2 x hx).1
    · exact fun _ _ y hy i _ => ((hrun rfl).2 y hy).2 i
  | true =>
    obtain ⟨hgone, ⟨x, hx, hend⟩, htold⟩ := hended rfl
    have happens : ∃ x ∈ rest ++ (offers ++ before), x.event = .gameEnded :=
      ⟨x, List.mem_append_right _ (List.mem_append_right _ hx), hend⟩
    simp only [hgone, not_true_eq_false, false_or]
    constructor
    · rintro hfinal
      obtain ⟨hphase'', hquiet⟩ := hfinal happens
      have hfull : ∀ i, (u.state.players i).isRegistered = true → LacksRoom u.state i := by
        rintro i hi
        by_contra hroom
        obtain ⟨x, hx, hstart⟩ := (hheard i).mpr ⟨Player.connected_of_isRegistered hi, hroom⟩
        obtain ⟨y, hy, hline⟩ := htold i hi
        cases (hquiet x hx y hy i hstart).symm.trans hline
      exact ⟨(hover' hfull).mp hphase'', hfull⟩
    · rintro ⟨hsome, hfull⟩ _
      refine ⟨(hover' hfull).mpr hsome, fun x hx y hy i hstart => ?_⟩
      by_contra hline
      rw [Bool.not_eq_false] at hline
      -- a client that was told and is left is registered
      obtain ⟨hconn, hroom⟩ := (hheard i).mp ⟨x, hx, hstart⟩
      obtain ⟨_, hreg⟩ := Player.isRegistered_iff.mp ((hlines y hy i).2 hline)
      exact hroom (hfull i (Player.isRegistered_iff.mpr ⟨hconn, (hkept i hconn).2.trans hreg⟩))

end Start

section FullBuffer

/-- Two players of a repick who have submitted. The second one has read nothing for a long
time. -/
def twoRepicking : ServerState Exact where
  players i :=
    if i = 0 then { fighter 1 'A' 'R' 0 0 0 with
      inRound := false, repickSubmitted := true, repickChoice := 'P' }
    else if i = 1 then { fighter 2 'B' 'R' 1 0 8185 with
      inRound := false, repickSubmitted := true, repickChoice := 'S' }
    else Player.cleared
  nextId := 3
  roundNo := 1
  phase := .repick
  joinDeadline := 0
  setupDeadline := 0
  roundDeadline := 6

/-- The server in this state. -/
def twoRepickingServer : Server Exact where
  env := fun _ => 1
  state := twoRepicking
  log := [⟨.started, twoRepicking⟩]

theorem finishRepicks_final_iff_two :
    EndIsFinal twoRepickingServer (finishRepicks twoRepickingServer) ↔
      ¬RepickLost (repicked twoRepickingServer).state ∨
        Unheard (repicked twoRepickingServer).state.atRestart :=
  finishRepicks_final_iff rfl

/-- The REPICK_DONE line drops the second player, which ends the match, and the first one
starts another round. -/
theorem restart_after_end :
    twoRepickingServer.state.phase = .repick ∧ allAliveRepicked twoRepickingServer.state = true ∧
      ¬EndIsFinal twoRepickingServer (finishRepicks twoRepickingServer) := by
  have hrun : twoRepickingServer.state.phase = .repick ∧
      allAliveRepicked twoRepickingServer.state = true ∧
      ((added twoRepickingServer (finishRepicks twoRepickingServer)).any fun x =>
        x.event.isEnd) = true ∧
      (finishRepicks twoRepickingServer).state.phase = .roundActive := by
    decide +kernel
  obtain ⟨hphase, hall, hended, hround⟩ := hrun
  refine ⟨hphase, hall, fun h => ?_⟩
  obtain ⟨x, hx, hend⟩ := List.any_eq_true.mp hended
  obtain ⟨hover, _⟩ := h ⟨x, hx, Event.eq_gameEnded hend⟩
  cases hround.symm.trans hover

end FullBuffer

end BattleRoyale
