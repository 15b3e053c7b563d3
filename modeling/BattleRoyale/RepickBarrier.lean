import BattleRoyale.Undisturbed
import BattleRoyale.Library.Barrier

/-!
# The barrier of a repick

While no output buffer overflows, the commands REPICK, QUIT and lost connections act on the
table alone. Compared without buffers and deadlines, a repick is a barrier: the round starts
when the last player alive has submitted, or when the last one missing has left.
-/

namespace BattleRoyale

open Recorded Barrier

variable {F : Type}

/-- What may happen to a client during a repick. -/
inductive RepickEvent where
  /-- The command REPICK with an argument text. -/
  | repick (i : Slot) (args : Option (List Char))
  /-- The command QUIT. -/
  | quit (i : Slot)
  /-- The connection is lost. -/
  | lost (i : Slot)

/-- The slot of the client. -/
def RepickEvent.slot : RepickEvent → Slot
  | .repick i _ => i
  | .quit i => i
  | .lost i => i

/-- What the event means for the barrier. A REPICK with an invalid choice means nothing. -/
def RepickEvent.input : RepickEvent → Option (Input Slot Char)
  | .repick i args => (parseRpsChoiceArg args).map (.submit i)
  | .quit i => some (.leave i)
  | .lost i => some (.leave i)

/-- What the events mean for the barrier. -/
def inputs (es : List RepickEvent) : List (Input Slot Char) := es.filterMap RepickEvent.input

section Machine

/-- A table without buffers and without the deadline of the round. -/
def ServerState.flags (s : ServerState F) : ServerState F := { s.bare with roundDeadline := 0 }

/-- The round after a repick, with the submitted choices. -/
def ServerState.restart (s : ServerState F) : ServerState F :=
  { startRound 0 { s with players := fun i => (s.players i).applyRepick } with roundDeadline := 0 }

/-- `reevaluate_state` on the table, in a repick, in a round and after the match. -/
def ServerState.settle (s : ServerState F) : ServerState F :=
  match s.phase with
  | .repick =>
    if activeAliveCount s ≤ 1 then { s with phase := .gameOver }
    else if allAliveRepicked s then s.restart
    else s
  | .roundActive =>
    if activeAliveCount s ≤ 1 ∨ countAliveChoiceTypes s ≤ 1 then { s with phase := .gameOver }
    else s
  | _ => s

/-- The slot after a submission. -/
def Player.submitted (p : Player F) (choice : Char) : Player F :=
  { p with repickChoice := choice, repickSubmitted := true }

/-- REPICK with a valid choice, on the table. -/
def ServerState.submit (i : Slot) (choice : Char) (s : ServerState F) : ServerState F :=
  if s.phase = .repick ∧ (s.players i).isAlive = true ∧ (s.players i).repickSubmitted = false then
    let s := s.setPlayer i ((s.players i).submitted choice)
    if allAliveRepicked s then s.restart else s
  else s

/-- What a change of the phase records. -/
def phaseDeeds (p q : Phase) : List (Event F) :=
  match p, q with
  | .repick, .roundActive => [.roundStarted]
  | .repick, .gameOver => [.gameEnded]
  | .roundActive, .gameOver => [.gameEnded]
  | _, _ => []

/-- The flags after one entry is replaced. -/
theorem flags_setPlayer (s : ServerState F) (i : Slot) (p : Player F) :
    (s.setPlayer i p).flags = s.flags.setPlayer i p.bare := by
  unfold ServerState.flags
  rw [ServerState.bare_setPlayer]
  rfl

/-- A repick is applied whatever the buffers hold. -/
theorem Player.bare_applyRepick (p : Player F) : p.applyRepick.bare = p.bare.applyRepick := by
  unfold applyRepick bare
  dsimp only
  split <;> rename_i h
  · exact (if_pos h).symm
  · exact (if_neg h).symm

/-- The flags after the start of the next round. -/
theorem flags_restart (s : ServerState F) : s.restart.flags = s.flags.restart := by
  unfold ServerState.restart ServerState.flags startRound ServerState.bare
  simp only [Player.bare_enterRound, Player.bare_applyRepick]

/-- The flags after the repick is settled. -/
theorem flags_settle (s : ServerState F) : s.settle.flags = s.flags.settle := by
  unfold ServerState.settle
  rw [show s.flags.phase = s.phase from rfl,
    show activeAliveCount s.flags = activeAliveCount s from rfl,
    show allAliveRepicked s.flags = allAliveRepicked s from rfl,
    show countAliveChoiceTypes s.flags = countAliveChoiceTypes s from rfl]
  split
  · split
    · rfl
    · split
      · exact flags_restart s
      · rfl
  · split <;> rfl
  · rfl

/-- The flags after a repick is submitted. -/
theorem flags_submit (i : Slot) (choice : Char) (s : ServerState F) :
    (s.submit i choice).flags = s.flags.submit i choice := by
  unfold ServerState.submit
  dsimp only
  rw [show s.flags.phase = s.phase from rfl,
    show (s.flags.players i).isAlive = (s.players i).isAlive from rfl,
    show (s.flags.players i).repickSubmitted = (s.players i).repickSubmitted from rfl,
    show s.flags.setPlayer i ((s.flags.players i).submitted choice) =
      (s.setPlayer i ((s.players i).submitted choice)).flags from
        (flags_setPlayer s i ((s.players i).submitted choice)).symm]
  split
  · generalize s.setPlayer i ((s.players i).submitted choice) = t
    rw [show allAliveRepicked t.flags = allAliveRepicked t from rfl]
    split
    · exact flags_restart t
    · rfl
  · rfl

variable [CFloat F]

/-- A departure, on the table. -/
def ServerState.depart (i : Slot) (s : ServerState F) : ServerState F :=
  if (s.players i).connected then (s.setPlayer i Player.cleared).settle else s

/-- One event on the table. -/
def ServerState.repickStep (s : ServerState F) : RepickEvent → ServerState F
  | .repick i args =>
    match parseRpsChoiceArg args with
    | none => s
    | some choice => s.submit i choice
  | .quit i => s.depart i
  | .lost i => s.depart i

/-- The flags after a player has gone. -/
theorem flags_depart (i : Slot) (s : ServerState F) : (s.depart i).flags = s.flags.depart i := by
  unfold ServerState.depart
  rw [show (s.flags.players i).connected = (s.players i).connected from rfl]
  split
  · rw [flags_settle, flags_setPlayer]
    rfl
  · rfl

/-- Buffers and deadlines do not matter to the machine. -/
theorem flags_repickStep (s : ServerState F) (e : RepickEvent) :
    (s.repickStep e).flags = s.flags.repickStep e := by
  cases e with
  | repick i args =>
    unfold ServerState.repickStep
    dsimp only
    split
    · rfl
    · exact flags_submit i _ s
  | quit i => exact flags_depart i s
  | lost i => exact flags_depart i s

end Machine

section Calls

variable [CFloat F]

/-- The event at the server. Nothing comes from a slot that is free. -/
def RepickEvent.apply (w : Server F) (e : RepickEvent) : Server F :=
  if (w.state.players e.slot).connected then
    match e with
    | .repick i args => handleRepickCommand i args w
    | .quit i => handleQuitCommand i w
    | .lost i => loseConnection i w
  else w

/-- The server after the events. -/
def repickRun (w : Server F) (es : List RepickEvent) : Server F := es.foldl RepickEvent.apply w

/-- The phases of a repick and after it. -/
def Late (s : ServerState F) : Prop :=
  s.phase = .repick ∨ s.phase = .roundActive ∨ s.phase = .gameOver

/-- If no line is refused on the way, the table is the given one without buffers and
deadline, and the change of the phase is recorded. -/
structure Tabled (w v : Server F) (s : ServerState F) : Prop where
  /-- The record grows. -/
  log : Extends w v
  /-- Without refusals. -/
  run : Undisturbed w v →
    v.state.flags = s.flags ∧ deeds (added w v) = phaseDeeds w.state.phase s.phase

omit [CFloat F] in
/-- A phase that stays needs no deed. -/
theorem phaseDeeds_self (p : Phase) : (phaseDeeds p p : List (Event F)) = [] := by
  cases p <;> rfl

omit [CFloat F] in
/-- Tables that differ in their buffers only have the same flags. -/
theorem flags_of_bare {s t : ServerState F} (h : s.bare = t.bare) : s.flags = t.flags := by
  unfold ServerState.flags
  rw [h]

omit [CFloat F] in
/-- Smooth calls from a table to another one. -/
theorem Smooth.tabled {w v : Server F} {s t : ServerState F} {es : List (Event F)}
    (h : Smooth w v t es) (hs : t.flags = s.flags)
    (hes : es = phaseDeeds w.state.phase s.phase) : Tabled w v s :=
  ⟨h.log, fun hun => ⟨(flags_of_bare (h.run hun).1).trans hs, (h.run hun).2.trans hes⟩⟩

omit [CFloat F] in
/-- A part that does not change the phase, and the rest. -/
theorem Smooth.thenTabled {u v w : Server F} {s t : ServerState F} (h : Smooth u v s [])
    (hv : Extends v w) (hphase : s.phase = u.state.phase)
    (h' : v.state.bare = s.bare → Tabled v w t) : Tabled u w t := by
  refine ⟨h.log.trans hv, fun hun => ?_⟩
  obtain ⟨hfirst, hrest⟩ := hun.split h.log hv
  obtain ⟨hbare, hdeeds⟩ := h.run hfirst
  obtain ⟨hflags, hdeeds'⟩ := (h' hbare).run hrest
  have hsame : v.state.phase = u.state.phase :=
    (congrArg ServerState.phase hbare : v.state.bare.phase = s.bare.phase).trans hphase
  refine ⟨hflags, ?_⟩
  rw [added_trans h.log hv, deeds_append, hdeeds, hdeeds', List.append_nil, hsame]

omit [CFloat F] in
/-- The table up to its buffers. -/
theorem Tabled.congr {w v : Server F} {s t : ServerState F} (h : Tabled w v s)
    (hst : s.flags = t.flags) : Tabled w v t := by
  refine ⟨h.log, fun hun => ⟨(h.run hun).1.trans hst, ?_⟩⟩
  have hphase : s.flags.phase = t.flags.phase := congrArg ServerState.phase hst
  rw [(h.run hun).2]
  exact congrArg (phaseDeeds w.state.phase) hphase

/-- The end of the repick. -/
theorem finishRepicksWith_tabled {reeval : Server F → Server F}
    (hre : ∀ w, Extends w (reeval w)) {w : Server F} (hphase : w.state.phase = .repick) :
    Tabled w (finishRepicksWith reeval w) w.state.restart := by
  obtain ⟨now, hsmooth⟩ := finishRepicksWith_smooth hre w
  exact hsmooth.tabled rfl (by rw [hphase]; rfl)

/-- The end of the match. -/
theorem endGame_tabled {w : Server F}
    (hphase : w.state.phase = .repick ∨ w.state.phase = .roundActive) :
    Tabled w (endGame w) { w.state with phase := .gameOver } := by
  refine (endGame_smooth w).tabled rfl ?_
  rcases hphase with h | h <;> rw [h] <;> rfl

omit [CFloat F] in
/-- Nothing. -/
theorem Tabled.refl (w : Server F) : Tabled w w w.state :=
  (Smooth.refl w).tabled rfl (phaseDeeds_self _).symm

/-- `reevaluate_state`. -/
theorem reevaluateState_tabled {w : Server F} (hlate : Late w.state) :
    Tabled w (reevaluateState w) w.state.settle := by
  rcases hlate with h | h | h
  · have hbody : reevaluateState w = reevaluateRepick (reevaluateWithin MAX_PLAYERS) w := by
      show reevaluateBody (reevaluateWithin MAX_PLAYERS) w = _
      simp only [reevaluateBody, h]
    rw [hbody]
    unfold reevaluateRepick ServerState.settle
    rw [h]
    dsimp only
    split
    · exact endGame_tabled (.inl h)
    · split
      · exact finishRepicksWith_tabled (fun v => (reevaluateWithin_composed _ v).extends) h
      · exact .refl w
  · rw [reevaluateState_round h]
    unfold ServerState.settle
    rw [h]
    dsimp only
    split
    · exact endGame_tabled (.inr h)
    · exact .refl w
  · rw [reevaluateState_over h]
    unfold ServerState.settle
    rw [h]
    exact .refl w

omit [CFloat F] in
/-- The phase is seen in the flags. -/
theorem Late.of_flags {s t : ServerState F} (h : s.flags = t.flags) (hs : Late s) : Late t := by
  have hphase : s.flags.phase = t.flags.phase := congrArg ServerState.phase h
  have hsame : s.phase = t.phase := hphase
  unfold Late at hs ⊢
  rwa [← hsame]

/-- A refused command. -/
theorem reply_tabled (line : ServerLine F) (i : Slot) (w : Server F) :
    Tabled w (reply line i w) w.state :=
  (reply_smooth line i w).tabled rfl (phaseDeeds_self _).symm

/-- A command REPICK. -/
theorem handleRepickCommand_tabled {i : Slot} (args : Option (List Char)) {w : Server F}
    (hconn : (w.state.players i).connected = true) :
    Tabled w (handleRepickCommand i args w) (w.state.repickStep (.repick i args)) := by
  have hrefused : ∀ line : ServerLine F, (∀ choice, w.state.submit i choice = w.state) →
      Tabled w (reply line i w) (w.state.repickStep (.repick i args)) := by
    rintro line h
    unfold ServerState.repickStep
    dsimp only
    split
    · exact reply_tabled line i w
    · rw [h]
      exact reply_tabled line i w
  unfold handleRepickCommand
  dsimp only
  split
  · rename_i hphase
    exact hrefused _ fun choice => if_neg fun h => hphase h.1
  rename_i hphase
  rw [not_not] at hphase
  split
  · rename_i hdead
    refine hrefused _ fun choice => if_neg fun h => ?_
    have halive := h.2.1
    unfold Player.isAlive at halive
    simp only [Bool.or_eq_true, Bool.not_eq_true'] at hdead
    simp only [Bool.and_eq_true] at halive
    rcases hdead with (hr | hr) | hr <;> simp [hr] at halive
  rename_i hlive
  have halive : (w.state.players i).isAlive = true := by
    unfold Player.isAlive
    simp only [Bool.or_eq_true, Bool.not_eq_true', not_or, Bool.not_eq_false] at hlive
    simp [hconn, hlive]
  split
  · rename_i hdone
    exact hrefused _ fun choice => if_neg fun h => by simp [hdone] at h
  rename_i hopen
  rw [Bool.not_eq_true] at hopen
  unfold ServerState.repickStep
  split
  · rename_i hbad
    dsimp only
    rw [hbad]
    exact reply_tabled _ i w
  · rename_i choice hgood
    dsimp only
    rw [hgood]
    dsimp only
    have hsubmit : w.state.submit i choice =
        (let s := w.state.setPlayer i ((w.state.players i).submitted choice)
         if allAliveRepicked s then s.restart else s) := if_pos ⟨hphase, halive, hopen⟩
    rw [hsubmit]
    dsimp only
    -- the submission, its acknowledgement, and the end of the repick
    generalize hs : w.state.setPlayer i ((w.state.players i).submitted choice) = s
    have hset : w.state.setPlayer i { w.state.players i with
        repickChoice := choice, repickSubmitted := true } = s := hs
    rw [hset]
    have hphase' : s.phase = .repick := by rw [← hs]; exact hphase
    have hsaid : Smooth w (reply (.repickOk choice) i (w.record (.repicked i) s)) s [] :=
      (Smooth.record w (.repicked i) s).andThen (reply_smooth ..)
    generalize reply (.repickOk choice) i (w.record (.repicked i) s) = u at hsaid
    refine hsaid.thenTabled ?_ (hphase'.trans hphase.symm) fun hbare => ?_
    · split
      · exact (finishRepicksWith_composed reevaluateState_composed u).extends
      · exact (reply_smooth ..).log
    · rw [show allAliveRepicked u.state = allAliveRepicked u.state.bare from rfl, hbare,
        show allAliveRepicked s.bare = allAliveRepicked s from rfl]
      have hflags := flags_of_bare hbare
      split
      · refine (finishRepicksWith_tabled reevaluateState_extends ?_).congr ?_
        · exact (congrArg ServerState.phase hbare : u.state.bare.phase = s.bare.phase).trans hphase'
        · rw [flags_restart, flags_restart, hflags]
      · exact (reply_tabled _ i u).congr hflags

/-- A departure. -/
theorem departure_tabled {i : Slot} {w : Server F} (hlate : Late w.state)
    (hconn : (w.state.players i).connected = true) :
    Tabled w (reevaluateState (dropPlayer i true w)) (w.state.depart i) := by
  have hdrop := dropPlayer_smooth hconn
  unfold ServerState.depart
  rw [if_pos hconn]
  refine hdrop.thenTabled (reevaluateState_extends _) rfl fun hbare => ?_
  have hflags := flags_of_bare hbare
  refine (reevaluateState_tabled (Late.of_flags hflags.symm ?_)).congr ?_
  · exact hlate
  · rw [flags_settle, flags_settle, hflags]

/-- Every event does to the table what the machine does. -/
theorem RepickEvent.apply_tabled (e : RepickEvent) {w : Server F} (hlate : Late w.state) :
    Tabled w (RepickEvent.apply w e) (w.state.repickStep e) := by
  unfold RepickEvent.apply
  split
  · rename_i hconn
    cases e with
    | repick i args => exact handleRepickCommand_tabled args hconn
    | quit i => exact departure_tabled hlate hconn
    | lost i => exact departure_tabled hlate hconn
  · rename_i hfree
    have hidle : w.state.repickStep e = w.state := by
      cases e with
      | repick i args =>
        have hdead : ¬(w.state.players i).isAlive = true := fun h =>
          hfree (Player.connected_of_isAdmitted (Player.isAdmitted_of_isAlive h))
        unfold ServerState.repickStep
        dsimp only
        split
        · rfl
        · exact if_neg fun h => hdead h.2.1
      | quit i => exact if_neg hfree
      | lost i => exact if_neg hfree
    rw [hidle]
    exact .refl w

end Calls

section Gathering

/-- At most one player is alive. -/
theorem activeAliveCount_le_one_iff {s : ServerState F} : activeAliveCount s ≤ 1 ↔
    ∀ i j, (s.players i).isAlive = true → (s.players j).isAlive = true → i = j := by
  constructor
  · rintro hfew i j hi hj
    by_contra hij
    have htwo := two_le_countP (fun k => (s.players k).isAlive) hij hi hj
    exact absurd (htwo.trans hfew) (by decide)
  · intro hone
    have hnodup : (slots.filter fun i => (s.players i).isAlive).Nodup := slots_nodup.filter _
    unfold activeAliveCount
    rw [List.countP_eq_length_filter]
    rcases hl : slots.filter (fun i => (s.players i).isAlive) with _ | ⟨a, _ | ⟨b, rest⟩⟩
    · exact Nat.zero_le 1
    · exact le_refl 1
    · have halive : ∀ i ∈ a :: b :: rest, (s.players i).isAlive = true := by
        rintro i hi
        rw [← hl] at hi
        exact (List.mem_filter.mp hi).2
      rw [hl, List.nodup_cons] at hnodup
      refine absurd ?_ hnodup.1
      rw [hone a b (halive a List.mem_cons_self) (halive b (by simp))]
      exact List.mem_cons_self

/-- The players alive at the start of the repick. -/
def Members (s : ServerState F) (i : Slot) : Prop := (s.players i).isAlive = true

/-- The table while the barrier is open. -/
structure Gathering (s₀ s : ServerState F) (l : List (Input Slot Char)) : Prop where
  /-- The repick goes on. -/
  phase : s.phase = .repick
  /-- The number of the round. -/
  roundNo : s.roundNo = s₀.roundNo
  /-- The players alive are the members present. -/
  alive : ∀ i, (s.players i).isAlive = true ↔ Present (Members s₀) l i
  /-- Who has submitted. -/
  submitted : ∀ i, (s.players i).isAlive = true →
    (s.players i).repickSubmitted = (first i l).isSome
  /-- The first choice counts. -/
  choice : ∀ i c, (s.players i).isAlive = true → first i l = some c →
    (s.players i).repickChoice = c
  /-- Nobody begins to wait for a round. -/
  waiting : ∀ i, (s.players i).waiting = true → (s₀.players i).waiting = true

/-- The table after the barrier. -/
structure Restarted (s₀ t : ServerState F) (l : List (Input Slot Char)) : Prop where
  /-- The round is running. -/
  phase : t.phase = .roundActive
  /-- It is the next one. -/
  roundNo : t.roundNo = s₀.roundNo + 1
  /-- The members present play with their first choices. -/
  choice : ∀ i, Present (Members s₀) l i →
    (t.players i).isAlive = true ∧ first i l = some (t.players i).choice
  /-- Nobody else plays, but for players who were waiting for a round. -/
  only : ∀ i, (t.players i).isAlive = true → (s₀.players i).waiting = false →
    Present (Members s₀) l i

variable {F : Type} {s₀ s : ServerState F} {l : List (Input Slot Char)}

/-- At the start nobody has submitted. -/
theorem Gathering.start (h : Unsubmitted s) : Gathering s s [] where
  phase := h.1
  roundNo := rfl
  alive i := by simp [Present, Members]
  submitted i hi := h.2 i hi
  choice i c _ hc := by cases hc
  waiting _ := id

/-- Nobody is left to repick. -/
theorem Gathering.deserted_iff (h : Gathering s₀ s l) :
    Deserted (Members s₀) l ↔ activeAliveCount s ≤ 1 := by
  rw [activeAliveCount_le_one_iff]
  unfold Deserted
  simp only [h.alive]

/-- Everybody has repicked. -/
theorem Gathering.complete_iff (h : Gathering s₀ s l) :
    Complete (Members s₀) l ↔ ¬activeAliveCount s ≤ 1 ∧ allAliveRepicked s = true := by
  have hmany : (∃ i j, Present (Members s₀) l i ∧ Present (Members s₀) l j ∧ i ≠ j) ↔
      ¬activeAliveCount s ≤ 1 := by
    rw [← h.deserted_iff]
    unfold Deserted
    push Not
    rfl
  have hall : (∀ i, Present (Members s₀) l i → (first i l).isSome = true) ↔
      ∀ i, (s.players i).isAlive = true → (s.players i).repickSubmitted = true := by
    refine forall_congr' fun i => ?_
    rw [← h.alive i]
    exact forall_congr' fun hi => by rw [h.submitted i hi]
  unfold Complete
  rw [hmany, hall]
  refine and_congr_right fun htwo => ?_
  unfold allAliveRepicked
  rw [Bool.and_eq_true, List.all_eq_true, List.any_eq_true]
  constructor
  · intro hsub
    refine ⟨fun i _ => ?_, ?_⟩
    · by_cases hi : (s.players i).isAlive = true
      · simp [hsub i hi]
      · simp [hi]
    · obtain ⟨i, hi, halive⟩ := List.countP_pos_iff.mp
        (Nat.lt_of_lt_of_le Nat.zero_lt_two (not_le.mp htwo))
      exact ⟨i, hi, halive⟩
  · rintro ⟨hsub, _⟩ i hi
    simpa [hi] using hsub i (mem_slots i)

/-- A submission that is refused. -/
theorem Gathering.ignored (h : Gathering s₀ s l) {i : Slot} (c : Char)
    (hi : (s.players i).isAlive = true → (s.players i).repickSubmitted = true) :
    Gathering s₀ s (l ++ [.submit i c]) := by
  have hfirst : ∀ k, (s.players k).isAlive = true →
      first k (l ++ [.submit i c]) = first k l := by
    rintro k hk
    rw [first_submit]
    by_cases hki : i = k
    · subst hki
      obtain ⟨c', hc'⟩ := Option.isSome_iff_exists.mp ((h.submitted i hk).symm.trans (hi hk))
      rw [hc']
      rfl
    · rw [if_neg hki, Option.or_none]
  exact {
    phase := h.phase
    roundNo := h.roundNo
    alive := fun k => by rw [h.alive, present_submit]
    submitted := fun k hk => by rw [hfirst k hk, h.submitted k hk]
    choice := fun k c' hk hc' => h.choice k c' hk (hfirst k hk ▸ hc')
    waiting := h.waiting }

/-- A submission that is accepted. -/
theorem Gathering.taken (h : Gathering s₀ s l) {i : Slot} {c : Char}
    (halive : (s.players i).isAlive = true) (hopen : (s.players i).repickSubmitted = false) :
    Gathering s₀ (s.setPlayer i ((s.players i).submitted c)) (l ++ [.submit i c]) := by
  have hnone : first i l = none := by
    rw [← Option.not_isSome_iff_eq_none, ← h.submitted i halive, hopen]
    exact Bool.false_ne_true
  have hplayer : ∀ k, (s.setPlayer i ((s.players i).submitted c)).players k =
      if k = i then (s.players i).submitted c else s.players k := fun k =>
    ServerState.setPlayer_players ..
  refine ⟨h.phase, h.roundNo, fun k => ?_, fun k hk => ?_, fun k c' hk hc' => ?_, fun k hk => ?_⟩
  · rw [present_submit, ← h.alive k, hplayer]
    split
    · rename_i hki
      rw [hki]
      rfl
    · exact Iff.rfl
  · rw [hplayer] at hk ⊢
    rw [first_submit]
    split
    · rename_i hki
      rw [hki, hnone, if_pos rfl]
      rfl
    · rename_i hki
      rw [if_neg hki] at hk
      rw [if_neg fun hik => hki hik.symm, Option.or_none]
      exact h.submitted k hk
  · rw [hplayer] at hk ⊢
    rw [first_submit] at hc'
    split
    · rename_i hki
      rw [hki, hnone, if_pos rfl] at hc'
      exact Option.some.inj hc'
    · rename_i hki
      rw [if_neg hki] at hk
      rw [if_neg fun hik => hki hik.symm, Option.or_none] at hc'
      exact h.choice k c' hk hc'
  · rw [hplayer] at hk
    split at hk
    · rename_i hki
      exact hki ▸ h.waiting i hk
    · exact h.waiting k hk

/-- The start of a round keeps the types. -/
theorem Player.enterRound_choice (p : Player F) : p.enterRound.choice = p.choice := by
  unfold enterRound
  dsimp only
  split <;> rfl

/-- The restart of the round. -/
theorem Gathering.restart (h : Gathering s₀ s l) (hall : Complete (Members s₀) l) :
    Restarted s₀ s.restart l := by
  have hplayer : ∀ i, s.restart.players i = (s.players i).applyRepick.enterRound := fun _ => rfl
  refine ⟨rfl, congrArg (· + 1) h.roundNo, fun i hi => ?_, fun i hi hnot => ?_⟩
  · have halive := (h.alive i).mpr hi
    obtain ⟨c, hc⟩ := Option.isSome_iff_exists.mp (hall.2 i hi)
    have happlied : (s.players i).applyRepick.isAlive = true :=
      (s.players i).applyRepick_flags.2.2.2.trans halive
    constructor
    · rw [hplayer, Player.enterRound_isAlive]
      obtain ⟨hadm, hal⟩ := Player.isAlive_iff.mp happlied
      simp [Player.isContender, hadm, hal]
    · have hchoice : (s.restart.players i).choice = (s.players i).repickChoice := by
        rw [hplayer, Player.enterRound_choice]
        unfold Player.applyRepick
        rw [if_pos halive]
      rw [hchoice, h.choice i c halive hc, hc]
  · rw [hplayer, Player.enterRound_isAlive, (s.players i).applyRepick_flags.2.2.1] at hi
    have hquiet : (s.players i).waiting = false := by
      by_contra hwait
      rw [Bool.not_eq_false] at hwait
      cases hnot.symm.trans (h.waiting i hwait)
    refine (h.alive i).mp ?_
    unfold Player.isContender at hi
    rwa [hquiet, Bool.or_false] at hi

/-- What `reevaluate_state` does at the barrier. -/
theorem Gathering.settle (h : Gathering s₀ s l) :
    (¬Complete (Members s₀) l → ¬Deserted (Members s₀) l → s.settle = s) ∧
      (Complete (Members s₀) l → s.settle = s.restart) ∧
      (Deserted (Members s₀) l → s.settle.phase = .gameOver) := by
  rw [h.complete_iff, h.deserted_iff]
  unfold ServerState.settle
  rw [h.phase]
  dsimp only
  split
  · rename_i hfew
    exact ⟨fun _ hmany => absurd hfew hmany, fun hall => absurd hfew hall.1, fun _ => rfl⟩
  · rename_i hmany
    split
    · rename_i hall
      exact ⟨fun hopen => absurd ⟨hmany, hall⟩ hopen, fun _ => rfl, fun hfew => absurd hfew hmany⟩
    · rename_i hopen
      exact ⟨fun _ _ => rfl, fun hall => absurd hall.2 hopen, fun hfew => absurd hfew hmany⟩

/-- A departure from a free slot. -/
theorem Gathering.absent (h : Gathering s₀ s l) {i : Slot}
    (hfree : (s.players i).connected = false) : Gathering s₀ s (l ++ [.leave i]) := by
  have hdead : (s.players i).isAlive = false := by simp [Player.isAlive, hfree]
  refine ⟨h.phase, h.roundNo, fun k => ?_, fun k hk => ?_, fun k c hk hc => ?_, h.waiting⟩
  · rw [present_leave, ← h.alive k]
    refine ⟨fun hk => ⟨hk, ?_⟩, And.left⟩
    rintro rfl
    rw [hdead] at hk
    cases hk
  · rw [first_leave]
    exact h.submitted k hk
  · rw [first_leave] at hc
    exact h.choice k c hk hc

variable [CFloat F]

/-- The departure of a client. -/
theorem Gathering.departed (h : Gathering s₀ s l) (i : Slot) :
    Gathering s₀ (s.setPlayer i Player.cleared) (l ++ [.leave i]) := by
  have hplayer : ∀ k, (s.setPlayer i (Player.cleared : Player F)).players k =
      if k = i then Player.cleared else s.players k := fun k => ServerState.setPlayer_players ..
  have hother : ∀ k, ((s.setPlayer i (Player.cleared : Player F)).players k).isAlive = true →
      k ≠ i ∧ (s.setPlayer i (Player.cleared : Player F)).players k = s.players k := by
    rintro k hk
    rw [hplayer] at hk ⊢
    split at hk
    · cases hk
    · rename_i hki
      exact ⟨hki, if_neg hki⟩
  refine ⟨h.phase, h.roundNo, fun k => ?_, fun k hk => ?_, fun k c hk hc => ?_, fun k hk => ?_⟩
  · rw [present_leave, ← h.alive k]
    constructor
    · intro hk
      obtain ⟨hki, hsame⟩ := hother k hk
      exact ⟨hsame ▸ hk, hki⟩
    · rintro ⟨hk, hki⟩
      rw [hplayer, if_neg hki]
      exact hk
  · obtain ⟨_, hsame⟩ := hother k hk
    rw [first_leave, hsame]
    exact h.submitted k (hsame ▸ hk)
  · obtain ⟨_, hsame⟩ := hother k hk
    rw [hsame]
    exact h.choice k c (hsame ▸ hk) (by rwa [first_leave] at hc)
  · rw [hplayer] at hk
    split at hk
    · cases hk
    · exact h.waiting k hk

/-- One event at an open barrier: the table that it leaves is reevaluated. -/
theorem Gathering.step (h : Gathering s₀ s l) (hopen : ¬Complete (Members s₀) l)
    (hmany : ¬Deserted (Members s₀) l) (e : RepickEvent) :
    ∃ s', Gathering s₀ s' (l ++ e.input.toList) ∧ s.repickStep e = s'.settle := by
  have hstill := h.settle.1 hopen hmany
  have hleave : ∀ i, ∃ s', Gathering s₀ s' (l ++ [.leave i]) ∧ s.depart i = s'.settle := by
    intro i
    unfold ServerState.depart
    split
    · exact ⟨_, h.departed i, rfl⟩
    · rename_i hfree
      exact ⟨s, h.absent (Bool.not_eq_true _ ▸ hfree), hstill.symm⟩
  cases e with
  | repick i args =>
    unfold ServerState.repickStep RepickEvent.input
    dsimp only
    cases parseRpsChoiceArg args with
    | none => exact ⟨s, by simpa using h, hstill.symm⟩
    | some c =>
      unfold ServerState.submit
      dsimp only [Option.map_some, Option.toList_some]
      by_cases hgood : (s.players i).isAlive = true ∧ (s.players i).repickSubmitted = false
      · have hnext := h.taken (c := c) hgood.1 hgood.2
        refine ⟨_, hnext, ?_⟩
        rw [if_pos ⟨h.phase, hgood⟩]
        -- the submission leaves the players alive that there were
        have hmany' : ¬activeAliveCount (s.setPlayer i ((s.players i).submitted c)) ≤ 1 := by
          rw [← hnext.deserted_iff]
          intro hfew
          exact hmany fun j k hj hk => hfew j k (present_submit.mpr hj) (present_submit.mpr hk)
        unfold ServerState.settle
        rw [hnext.phase]
        dsimp only
        rw [if_neg hmany']
      · rw [if_neg fun hall => hgood hall.2]
        refine ⟨s, h.ignored c fun hi => ?_, hstill.symm⟩
        by_contra hsub
        exact hgood ⟨hi, Bool.not_eq_true _ ▸ hsub⟩
  | quit i => exact hleave i
  | lost i => exact hleave i

/-- No prefix of the events completes the barrier or deserts it. -/
def Undecided (s₀ : ServerState F) (es : List RepickEvent) : Prop :=
  ∀ p, p <+: es → ¬Complete (Members s₀) (inputs p) ∧ ¬Deserted (Members s₀) (inputs p)

omit [CFloat F] in
/-- What is undecided after an event was undecided before it. -/
theorem Undecided.init {es : List RepickEvent} {e : RepickEvent}
    (h : Undecided s₀ (es ++ [e])) : Undecided s₀ es :=
  fun p hp => h p (hp.trans (List.prefix_append es [e]))

omit [CFloat F] in
/-- The input of one more event. -/
theorem inputs_concat (es : List RepickEvent) (e : RepickEvent) :
    inputs (es ++ [e]) = inputs es ++ e.input.toList := by
  unfold inputs
  rw [List.filterMap_append]
  cases h : e.input <;> simp [h]

/-- While the barrier is open. -/
theorem Undecided.gathering (h₀ : Unsubmitted s₀) {es : List RepickEvent}
    (h : Undecided s₀ es) : Gathering s₀ (es.foldl ServerState.repickStep s₀) (inputs es) := by
  induction es using List.reverseRecOn with
  | nil => exact .start h₀
  | append_singleton es e ih =>
    have hbefore := h.init
    obtain ⟨hopen, hmany⟩ := hbefore es (List.prefix_refl es)
    obtain ⟨s', hgather, hstep⟩ := (ih hbefore).step hopen hmany e
    obtain ⟨hopen', hmany'⟩ := h (es ++ [e]) (List.prefix_refl _)
    rw [inputs_concat] at hopen' hmany' ⊢
    rw [List.foldl_append, List.foldl_cons, List.foldl_nil, hstep,
      hgather.settle.1 hopen' hmany']
    exact hgather

/-- The event that completes the barrier. -/
theorem Undecided.restarted (h₀ : Unsubmitted s₀) {es : List RepickEvent} {e : RepickEvent}
    (h : Undecided s₀ es) (hall : Complete (Members s₀) (inputs (es ++ [e]))) :
    Restarted s₀ ((es ++ [e]).foldl ServerState.repickStep s₀) (inputs (es ++ [e])) := by
  obtain ⟨hopen, hmany⟩ := h es (List.prefix_refl es)
  obtain ⟨s', hgather, hstep⟩ := (h.gathering h₀).step hopen hmany e
  rw [inputs_concat] at hall ⊢
  rw [List.foldl_append, List.foldl_cons, List.foldl_nil, hstep, hgather.settle.2.1 hall]
  exact hgather.restart hall

/-- The event that deserts it. -/
theorem Undecided.deserted (h₀ : Unsubmitted s₀) {es : List RepickEvent} {e : RepickEvent}
    (h : Undecided s₀ es) (hfew : Deserted (Members s₀) (inputs (es ++ [e]))) :
    ((es ++ [e]).foldl ServerState.repickStep s₀).phase = .gameOver := by
  obtain ⟨hopen, hmany⟩ := h es (List.prefix_refl es)
  obtain ⟨s', hgather, hstep⟩ := (h.gathering h₀).step hopen hmany e
  rw [inputs_concat] at hfew
  rw [List.foldl_append, List.foldl_cons, List.foldl_nil, hstep]
  exact hgather.settle.2.2 hfew

end Gathering

section Order

variable [CFloat F]

/-- Lists of events that differ in the order of submissions by different clients. -/
inductive Reordered : List RepickEvent → List RepickEvent → Prop
  | refl (es : List RepickEvent) : Reordered es es
  | swap (pre post : List RepickEvent) {i j : Slot} (a b : Option (List Char)) : i ≠ j →
      Reordered (pre ++ .repick i a :: .repick j b :: post)
        (pre ++ .repick j b :: .repick i a :: post)
  | trans {es fs gs : List RepickEvent} : Reordered es fs → Reordered fs gs → Reordered es gs

/-- The client cannot submit. -/
def Idle (s : ServerState F) (i : Slot) : Prop :=
  ¬(s.phase = .repick ∧ (s.players i).isAlive = true ∧ (s.players i).repickSubmitted = false)

omit [CFloat F] in
/-- A repick of somebody who need not repick changes nothing. -/
theorem submit_idle {s : ServerState F} {i : Slot} (h : Idle s i) (c : Char) :
    s.submit i c = s := if_neg h

omit [CFloat F] in
/-- Whoever cannot submit cannot after another submission either. -/
theorem Idle.after {s : ServerState F} {i j : Slot} (h : Idle s i) (hij : i ≠ j) (c : Char) :
    Idle (s.submit j c) i := by
  by_cases hj : Idle s j
  · rwa [submit_idle hj]
  · unfold Idle at hj
    rw [not_not] at hj
    unfold ServerState.submit
    rw [if_pos hj]
    dsimp only
    split
    · exact fun hall => by cases hall.1
    · unfold Idle
      rw [ServerState.setPlayer_of_ne _ _ hij]
      exact h

omit [CFloat F] in
/-- Submissions by different clients commute. -/
theorem submit_comm {s : ServerState F} {i j : Slot} (hij : i ≠ j) (c d : Char) :
    (s.submit i c).submit j d = (s.submit j d).submit i c := by
  by_cases hi : Idle s i
  · rw [submit_idle hi, submit_idle (hi.after hij d)]
  by_cases hj : Idle s j
  · rw [submit_idle hj, submit_idle (hj.after hij.symm c)]
  unfold Idle at hi hj
  rw [not_not] at hi hj
  -- the first submission cannot be the last one
  have hone : ∀ {k m : Slot} (x : Char), k ≠ m →
      (s.phase = .repick ∧ (s.players k).isAlive = true ∧
        (s.players k).repickSubmitted = false) →
      (s.phase = .repick ∧ (s.players m).isAlive = true ∧
        (s.players m).repickSubmitted = false) →
      s.submit k x = s.setPlayer k ((s.players k).submitted x) := by
    rintro k m x hkm hk hm
    unfold ServerState.submit
    rw [if_pos hk]
    dsimp only
    rw [if_neg]
    unfold allAliveRepicked
    rw [Bool.and_eq_true, List.all_eq_true]
    rintro ⟨hall, _⟩
    have hsub := hall m (mem_slots m)
    rw [ServerState.setPlayer_of_ne _ _ hkm.symm, hm.2.1, hm.2.2] at hsub
    cases hsub
  -- the second one is accepted all the same
  have htwo : ∀ {k m : Slot} (p : Player F) (x : Char), m ≠ k →
      (s.phase = .repick ∧ (s.players m).isAlive = true ∧
        (s.players m).repickSubmitted = false) →
      (s.setPlayer k p).submit m x =
        (let t := (s.setPlayer k p).setPlayer m ((s.players m).submitted x)
         if allAliveRepicked t then t.restart else t) := by
    rintro k m p x hmk hm
    unfold ServerState.submit
    rw [ServerState.setPlayer_of_ne _ _ hmk]
    exact if_pos hm
  rw [hone c hij hi hj, hone d hij.symm hj hi, htwo _ d hij.symm hj, htwo _ c hij hi]
  have hsame : (s.setPlayer i ((s.players i).submitted c)).setPlayer j
      ((s.players j).submitted d) =
      (s.setPlayer j ((s.players j).submitted d)).setPlayer i ((s.players i).submitted c) := by
    unfold ServerState.setPlayer
    dsimp only
    rw [Function.update_comm hij.symm]
  rw [hsame]

/-- The order of the submissions does not matter to the table. -/
theorem Reordered.foldl_eq {es fs : List RepickEvent} (h : Reordered es fs) (s : ServerState F) :
    es.foldl ServerState.repickStep s = fs.foldl ServerState.repickStep s := by
  induction h with
  | refl => rfl
  | swap pre post a b hij =>
    rw [List.foldl_append, List.foldl_append, List.foldl_cons, List.foldl_cons, List.foldl_cons,
      List.foldl_cons]
    refine congrArg (fun t => post.foldl ServerState.repickStep t) ?_
    generalize pre.foldl ServerState.repickStep s = t
    unfold ServerState.repickStep
    dsimp only
    cases parseRpsChoiceArg a <;> cases parseRpsChoiceArg b
    · rfl
    · rfl
    · rfl
    · exact submit_comm hij _ _
  | trans _ _ ih ih' => exact ih.trans ih'

end Order

section Run

variable [CFloat F]

/-- What the machine records for some events, the last one first. -/
def runDeeds (s : ServerState F) : List RepickEvent → List (Event F)
  | [] => []
  | e :: es => runDeeds (s.repickStep e) es ++ phaseDeeds s.phase (s.repickStep e).phase

/-- The deeds of a run in two parts. -/
theorem runDeeds_append (s : ServerState F) (es fs : List RepickEvent) :
    runDeeds s (es ++ fs) =
      runDeeds (es.foldl ServerState.repickStep s) fs ++ runDeeds s es := by
  induction es generalizing s with
  | nil => simp [runDeeds]
  | cons e es ih =>
    rw [List.cons_append, runDeeds, runDeeds, ih, List.foldl_cons, List.append_assoc]

omit [CFloat F] in
/-- The phase after the repick is settled. -/
theorem settle_phase (s : ServerState F) :
    (s.phase = .gameOver → s.settle.phase = .gameOver) ∧
      (s.phase = .roundActive → s.settle.phase = .roundActive ∨ s.settle.phase = .gameOver) ∧
      (Late s → Late s.settle) := by
  unfold ServerState.settle
  split <;> rename_i h
  · refine ⟨fun h' => by simp [h] at h', fun h' => by simp [h] at h', fun hlate => ?_⟩
    split
    · exact .inr (.inr rfl)
    · split
      · exact .inr (.inl rfl)
      · exact hlate
  · refine ⟨fun h' => by simp [h] at h', fun _ => ?_, fun hlate => ?_⟩
    · split
      · exact .inr rfl
      · exact .inl h
    · split
      · exact .inr (.inr rfl)
      · exact hlate
  · exact ⟨id, .inl, id⟩

/-- A round and the end of the match are not left for a repick. -/
theorem repickStep_phase (s : ServerState F) (e : RepickEvent) :
    (s.phase = .gameOver → (s.repickStep e).phase = .gameOver) ∧
      (s.phase = .roundActive →
        (s.repickStep e).phase = .roundActive ∨ (s.repickStep e).phase = .gameOver) ∧
      (Late s → Late (s.repickStep e)) := by
  have hdepart : ∀ i, (s.phase = .gameOver → (s.depart i).phase = .gameOver) ∧
      (s.phase = .roundActive → (s.depart i).phase = .roundActive ∨
        (s.depart i).phase = .gameOver) ∧ (Late s → Late (s.depart i)) := by
    intro i
    unfold ServerState.depart
    split
    · exact settle_phase (s.setPlayer i Player.cleared)
    · exact ⟨id, .inl, id⟩
  cases e with
  | repick i args =>
    unfold ServerState.repickStep
    dsimp only
    split
    · exact ⟨id, .inl, id⟩
    · unfold ServerState.submit
      split
      · rename_i hall
        refine ⟨fun h => by simp [hall.1] at h, fun h => by simp [hall.1] at h, fun hlate => ?_⟩
        dsimp only
        split
        · exact .inr (.inl rfl)
        · exact hlate
      · exact ⟨id, .inl, id⟩
  | quit i => exact hdepart i
  | lost i => exact hdepart i

/-- After the end of the match nothing is recorded. -/
theorem runDeeds_over {s : ServerState F} (h : s.phase = .gameOver) (es : List RepickEvent) :
    (es.foldl ServerState.repickStep s).phase = .gameOver ∧ runDeeds s es = [] := by
  induction es generalizing s with
  | nil => exact ⟨h, rfl⟩
  | cons e es ih =>
    have hnext := (repickStep_phase s e).1 h
    obtain ⟨hphase, hdeeds⟩ := ih hnext
    rw [List.foldl_cons, runDeeds, hdeeds, h, hnext]
    exact ⟨hphase, rfl⟩

/-- After the start of the round only the end of the match may be recorded. -/
theorem runDeeds_round {s : ServerState F} (h : s.phase = .roundActive)
    (es : List RepickEvent) : runDeeds s es = [] ∨ runDeeds s es = [.gameEnded] := by
  induction es generalizing s with
  | nil => exact .inl rfl
  | cons e es ih =>
    rw [runDeeds]
    rcases (repickStep_phase s e).2.1 h with hnext | hnext
    · rw [h, hnext, show (phaseDeeds .roundActive .roundActive : List (Event F)) = [] from rfl,
        List.append_nil]
      exact ih hnext
    · rw [(runDeeds_over hnext es).2, h, hnext]
      exact .inr rfl

/-- While the repick goes on nothing is recorded. -/
theorem runDeeds_repick {s : ServerState F} (hs : s.phase = .repick) {es : List RepickEvent}
    (h : (es.foldl ServerState.repickStep s).phase = .repick) : runDeeds s es = [] := by
  have hstays : ∀ (es : List RepickEvent) (t : ServerState F), t.phase = .roundActive →
      (es.foldl ServerState.repickStep t).phase ≠ .repick := by
    intro es
    induction es with
    | nil => exact fun t ht => by simp [ht]
    | cons e es ih =>
      intro t ht
      rw [List.foldl_cons]
      rcases (repickStep_phase t e).2.1 ht with hnext | hnext
      · exact ih _ hnext
      · rw [(runDeeds_over hnext es).1]
        nofun
  induction es generalizing s with
  | nil => rfl
  | cons e es ih =>
    rw [List.foldl_cons] at h
    rw [runDeeds]
    rcases (repickStep_phase s e).2.2 (.inl hs) with hnext | hnext | hnext
    · rw [ih hnext h, hs, hnext]
      rfl
    · exact absurd h (hstays es _ hnext)
    · rw [(runDeeds_over hnext es).1] at h
      cases h

/-- An event extends the record. -/
theorem RepickEvent.apply_extends (w : Server F) (e : RepickEvent) :
    Extends w (RepickEvent.apply w e) := by
  unfold RepickEvent.apply
  split
  · cases e with
    | repick i args => exact (handleRepickCommand_composed i args w).extends
    | quit i => exact (dropPlayer_composed i true w).extends.trans (reevaluateState_extends _)
    | lost i => exact (loseConnection_composed i w).extends
  · exact .refl w

/-- A run extends the record. -/
theorem repickRun_extends (w : Server F) (es : List RepickEvent) :
    Extends w (repickRun w es) := by
  unfold repickRun
  induction es generalizing w with
  | nil => exact .refl w
  | cons e es ih => exact (RepickEvent.apply_extends w e).trans (ih _)

/-- A run in two parts. -/
theorem repickRun_append (w : Server F) (es fs : List RepickEvent) :
    repickRun w (es ++ fs) = repickRun (repickRun w es) fs := List.foldl_append ..

/-- A run in which no line is refused is a run of the machine. -/
theorem repickRun_machine {w : Server F} (hlate : Late w.state) {es : List RepickEvent}
    (hun : Undisturbed w (repickRun w es)) :
    (repickRun w es).state.flags = es.foldl ServerState.repickStep w.state.flags ∧
      deeds (added w (repickRun w es)) = runDeeds w.state.flags es := by
  induction es generalizing w with
  | nil => exact ⟨rfl, by rw [repickRun, List.foldl_nil, added_self]; rfl⟩
  | cons e es ih =>
    have hfirst := RepickEvent.apply_extends w e
    have hrest := repickRun_extends (RepickEvent.apply w e) es
    have hsplit : repickRun w (e :: es) = repickRun (RepickEvent.apply w e) es := rfl
    rw [hsplit] at hun ⊢
    obtain ⟨hone, hlater⟩ := hun.split hfirst hrest
    obtain ⟨hflags, hdeeds⟩ := (RepickEvent.apply_tabled e hlate).run hone
    have hlate' : Late (RepickEvent.apply w e).state :=
      Late.of_flags hflags.symm ((repickStep_phase w.state e).2.2 hlate)
    obtain ⟨hflags', hdeeds'⟩ := ih hlate' hlater
    rw [added_trans hfirst hrest, deeds_append, hdeeds, hdeeds', hflags', hflags,
      flags_repickStep]
    have hphase : (w.state.flags.repickStep e).phase = (w.state.repickStep e).phase := by
      rw [← flags_repickStep]
      rfl
    refine ⟨rfl, ?_⟩
    rw [runDeeds, hphase]
    rfl

omit [CFloat F] in
/-- The first event that decides the barrier, if any. -/
theorem undecided_or {s₀ : ServerState F} (h : Unsubmitted s₀) (htwo : 2 ≤ activeAliveCount s₀)
    (es : List RepickEvent) : Undecided s₀ es ∨ ∃ pre e post, es = pre ++ e :: post ∧
      Undecided s₀ pre ∧ (Complete (Members s₀) (inputs (pre ++ [e])) ∨
        Deserted (Members s₀) (inputs (pre ++ [e]))) := by
  induction es using List.reverseRecOn with
  | nil =>
    refine .inl fun p hp => ?_
    rw [List.prefix_nil.mp hp]
    have hstart := Gathering.start h
    have hmany : ¬Deserted (Members s₀) (inputs []) := by
      rw [show inputs [] = [] from rfl, hstart.deserted_iff]
      omega
    refine ⟨fun hall => ?_, hmany⟩
    obtain ⟨⟨i, _, hi, _⟩, hsub⟩ := hall
    cases hsub i hi
  | append_singleton es e ih =>
    rcases ih with hopen | ⟨pre, x, post, rfl, hpre, hlast⟩
    · by_cases hlast : Complete (Members s₀) (inputs (es ++ [e])) ∨
          Deserted (Members s₀) (inputs (es ++ [e]))
      · exact .inr ⟨es, e, [], rfl, hopen, hlast⟩
      · refine .inl fun p hp => ?_
        rcases List.prefix_concat_iff.mp hp with rfl | hp
        · exact not_or.mp hlast
        · exact hopen p hp
    · exact .inr ⟨pre, x, post ++ [e], by simp, hpre, hlast⟩

/-- What a repick does, told by the events. -/
structure BarrierKept (w : Server F) (es : List RepickEvent) : Prop where
  /-- Either no event decides, or there is a first one. -/
  cases : Undecided w.state es ∨ ∃ pre e post, es = pre ++ e :: post ∧ Undecided w.state pre ∧
    (Complete (Members w.state) (inputs (pre ++ [e])) ∨
      Deserted (Members w.state) (inputs (pre ++ [e])))
  /-- Before that the repick goes on. -/
  waits : Undecided w.state es →
    (repickRun w es).state.phase = .repick ∧ deeds (added w (repickRun w es)) = []
  /-- When two or more players are alive and all of them have submitted for the first time, the
  round starts with their first valid choices, and no other round starts. -/
  starts : ∀ pre e post, es = pre ++ e :: post → Undecided w.state pre →
    Complete (Members w.state) (inputs (pre ++ [e])) →
    deeds (added w (repickRun w pre)) = [] ∧
      deeds (added w (repickRun w (pre ++ [e]))) = [.roundStarted] ∧
      Restarted w.state (repickRun w (pre ++ [e])).state (inputs (pre ++ [e])) ∧
      (deeds (added w (repickRun w es))).countP Event.isStart = 1
  /-- When at most one player is alive first, the match ends and no round starts. -/
  ends : ∀ pre e post, es = pre ++ e :: post → Undecided w.state pre →
    Deserted (Members w.state) (inputs (pre ++ [e])) →
    (repickRun w (pre ++ [e])).state.phase = .gameOver ∧
      (repickRun w es).state.phase = .gameOver ∧
      deeds (added w (repickRun w es)) = [.gameEnded]
  /-- The order of the submissions does not matter. -/
  order : ∀ fs, Reordered es fs → Undisturbed w (repickRun w fs) →
    (repickRun w fs).state.flags = (repickRun w es).state.flags

/-- The event that decides is the only one that records anything so far. -/
theorem Undecided.runDeeds {s₀ : ServerState F} (h₀ : Unsubmitted s₀) {es : List RepickEvent}
    (h : Undecided s₀ es) (e : RepickEvent) :
    runDeeds s₀ (es ++ [e]) =
      phaseDeeds .repick ((es ++ [e]).foldl ServerState.repickStep s₀).phase := by
  have hgather := h.gathering h₀
  rw [runDeeds_append, runDeeds_repick h₀.1 hgather.phase, List.append_nil, List.foldl_append]
  simp only [BattleRoyale.runDeeds, List.nil_append, hgather.phase, List.foldl_cons,
    List.foldl_nil]

/-- A prefix of a run in which no line is refused is a run of the machine. -/
theorem repickRun_prefix {w : Server F} (hlate : Late w.state) {pre post : List RepickEvent}
    (hun : Undisturbed w (repickRun w (pre ++ post))) :
    (repickRun w pre).state.flags = pre.foldl ServerState.repickStep w.state.flags ∧
      (repickRun w pre).state.phase = (pre.foldl ServerState.repickStep w.state.flags).phase ∧
      deeds (added w (repickRun w pre)) = runDeeds w.state.flags pre := by
  rw [repickRun_append] at hun
  obtain ⟨hflags, hdeeds⟩ := repickRun_machine hlate
    (hun.split (repickRun_extends w pre) (repickRun_extends _ post)).1
  refine ⟨hflags, ?_, hdeeds⟩
  rw [← hflags]
  rfl

section Barrier

variable {w : Server F} (hw : Unsubmitted w.state) {pre post : List RepickEvent}

include hw

/-- Before the decision. -/
theorem repickRun_undecided (hun : Undisturbed w (repickRun w (pre ++ post)))
    (hpre : Undecided w.state pre) :
    (repickRun w pre).state.phase = .repick ∧ deeds (added w (repickRun w pre)) = [] := by
  have hstart : Unsubmitted w.state.flags := hw
  have hgather := Undecided.gathering hstart hpre
  obtain ⟨_, hphase, hdeeds⟩ := repickRun_prefix (.inl hw.1) hun
  rw [hphase, hdeeds]
  exact ⟨hgather.phase, runDeeds_repick hstart.1 hgather.phase⟩

/-- The last submission, or the departure of the last player missing. -/
theorem repickRun_complete {e : RepickEvent}
    (hun : Undisturbed w (repickRun w (pre ++ [e] ++ post))) (hpre : Undecided w.state pre)
    (hall : Complete (Members w.state) (inputs (pre ++ [e]))) :
    deeds (added w (repickRun w (pre ++ [e]))) = [.roundStarted] ∧
      Restarted w.state (repickRun w (pre ++ [e])).state (inputs (pre ++ [e])) ∧
      (deeds (added w (repickRun w (pre ++ [e] ++ post)))).countP Event.isStart = 1 := by
  have hstart : Unsubmitted w.state.flags := hw
  have hround := Undecided.restarted hstart hpre hall
  obtain ⟨hflags, _, hdeeds⟩ := repickRun_prefix (.inl hw.1) hun
  have hlast := Undecided.runDeeds hstart hpre e
  rw [hround.phase] at hlast
  refine ⟨hdeeds.trans hlast, ?_, ?_⟩
  · rw [← hflags] at hround
    exact ⟨hround.phase, hround.roundNo, hround.choice, hround.only⟩
  · rw [(repickRun_machine (.inl hw.1) hun).2, runDeeds_append, hlast]
    rcases runDeeds_round hround.phase post with h | h <;> rw [h] <;> rfl

/-- The departure that leaves at most one player. -/
theorem repickRun_deserted {e : RepickEvent}
    (hun : Undisturbed w (repickRun w (pre ++ [e] ++ post))) (hpre : Undecided w.state pre)
    (hfew : Deserted (Members w.state) (inputs (pre ++ [e]))) :
    (repickRun w (pre ++ [e])).state.phase = .gameOver ∧
      (repickRun w (pre ++ [e] ++ post)).state.phase = .gameOver ∧
      deeds (added w (repickRun w (pre ++ [e] ++ post))) = [.gameEnded] := by
  have hstart : Unsubmitted w.state.flags := hw
  have hover := Undecided.deserted hstart hpre hfew
  obtain ⟨hstays, hnone⟩ := runDeeds_over hover post
  obtain ⟨_, hphase, _⟩ := repickRun_prefix (.inl hw.1) hun
  have hun' : Undisturbed w (repickRun w (pre ++ [e] ++ post ++ [])) := by rwa [List.append_nil]
  obtain ⟨_, hphase', hdeeds⟩ := repickRun_prefix (.inl hw.1) hun'
  refine ⟨hphase.trans hover, ?_, ?_⟩
  · rw [hphase', List.foldl_append]
    exact hstays
  · rw [hdeeds, runDeeds_append, Undecided.runDeeds hstart hpre e, hover, hnone]
    rfl

end Barrier

/-- The barrier of a repick, over every interleaving of commands REPICK, QUIT and lost
connections in which no line is refused. -/
theorem repick_barrier {w : Server F} (hw : Unsubmitted w.state)
    (htwo : 2 ≤ activeAliveCount w.state) {es : List RepickEvent}
    (hsent : ∀ x ∈ added w (repickRun w es), x.event.fails = false) : BarrierKept w es := by
  have hlast : ∀ {pre e post}, es = pre ++ e :: post →
      es = pre ++ [e] ++ post ∧ Undisturbed w (repickRun w (pre ++ [e] ++ post)) := by
    rintro pre e post rfl
    rw [List.append_assoc]
    exact ⟨rfl, hsent⟩
  have hwhole : Undisturbed w (repickRun w (es ++ [])) := by rwa [List.append_nil]
  refine ⟨undecided_or hw htwo es, repickRun_undecided hw hwhole, ?_, ?_, ?_⟩
  · intro pre e post hes hpre hall
    obtain ⟨hsplit, hun⟩ := hlast hes
    obtain ⟨hrecord, hround, honce⟩ := repickRun_complete hw hun hpre hall
    have hquiet := repickRun_undecided hw (show Undisturbed w (repickRun w (pre ++ e :: post)) from
      hes ▸ hsent) hpre
    exact ⟨hquiet.2, hrecord, hround, hsplit ▸ honce⟩
  · intro pre e post hes hpre hfew
    obtain ⟨hsplit, hun⟩ := hlast hes
    rw [hsplit]
    exact repickRun_deserted hw hun hpre hfew
  · intro fs hfs hun
    rw [(repickRun_machine (.inl hw.1) hun).1, (repickRun_machine (.inl hw.1) hsent).1]
    exact (hfs.foldl_eq w.state.flags).symm

end Run

section Example

/-- Two players of a repick who have not submitted. -/
def twoWaiting : ServerState Exact :=
  { twoRepicking with
    players := fun i =>
      if i = 0 then { fighter 1 'A' 'R' 0 0 0 with inRound := false }
      else if i = 1 then { fighter 2 'B' 'R' 1 0 0 with inRound := false }
      else Player.cleared }

/-- The server in this state. -/
def twoWaitingServer : Server Exact where
  env := fun _ => 1
  state := twoWaiting
  log := [⟨.started, twoWaiting⟩]

/-- Two players who wait for each other. -/
theorem repick_barrier_two : BarrierKept twoWaitingServer
    [.repick 0 (some ['p']), .repick 0 (some ['s']), .repick 1 (some ['X']),
      .repick 1 (some ['S'])] :=
  repick_barrier ⟨rfl, by decide +kernel⟩ (by decide +kernel) (by decide +kernel)

end Example

end BattleRoyale
