import BattleRoyale.BroadcastOrder
import BattleRoyale.RepickEnd

/-!
# Calls in which no line is refused

When every `queue_line` of a call succeeds, nobody is dropped for a full buffer and
`reevaluate_state` is never entered again, so the call does to the table what its own
assignments do. Tables are compared without their buffers. Of the record three events are
kept: the start of a round, the end of the match and the resolution of a pair.
-/

namespace BattleRoyale

open Recorded

variable {F : Type}

/-- `queue_line` failed. -/
def Event.fails : Event F → Bool
  | .refused .. => true
  | _ => false

/-- The start of a round, the end of the match or the resolution of a pair. -/
def Event.isDeed : Event F → Bool
  | .roundStarted => true
  | .gameEnded => true
  | .pairResolved .. => true
  | _ => false

/-- These events of a part of the record, the last one first. -/
def deeds (l : Log F) : List (Event F) := (l.map (·.event)).filter Event.isDeed

/-- The deeds of a record in two parts. -/
theorem deeds_append (l l' : Log F) : deeds (l ++ l') = deeds l ++ deeds l' := by
  simp [deeds]

/-- A deed in the record. -/
theorem mem_deeds {l : Log F} {e : Event F} (he : e.isDeed = true) :
    e ∈ deeds l ↔ ∃ x ∈ l, x.event = e := by
  simp [deeds, he]

/-- A slot without its buffers. -/
def Player.bare (p : Player F) : Player F := { p with inbuf := [], outbuf := [] }

/-- A table without its buffers. -/
def ServerState.bare (s : ServerState F) : ServerState F :=
  { s with players := fun i => (s.players i).bare }

/-- Tables that differ in their buffers only have players that do. -/
theorem ServerState.bare_player {s t : ServerState F} (h : s.bare = t.bare) (i : Slot) :
    (s.players i).bare = (t.players i).bare := congrFun (congrArg ServerState.players h) i

/-- New contents of the buffers make no difference. -/
theorem Rebuffered.bare {s t : ServerState F} (h : Rebuffered s t) : t.bare = s.bare := by
  rw [h.table]
  refine ServerState.players_congr fun i => ?_
  show (t.players i).bare = (s.players i).bare
  rw [h.player i]
  rfl

/-- The start of a round does not look at the buffers. -/
theorem Player.bare_enterRound (p : Player F) : p.enterRound.bare = p.bare.enterRound := by
  unfold enterRound bare
  dsimp only
  split <;> rename_i h
  · exact (if_pos h).symm
  · exact (if_neg h).symm

/-- The same for the whole table. -/
theorem startRound_bare (now : ℤ) (s : ServerState F) :
    (startRound now s).bare = startRound now s.bare := by
  unfold startRound ServerState.bare
  simp only [Player.bare_enterRound]

/-- Replacing a slot. -/
theorem ServerState.bare_setPlayer (s : ServerState F) (i : Slot) (p : Player F) :
    (s.setPlayer i p).bare = s.bare.setPlayer i p.bare := by
  refine ServerState.players_congr fun j => ?_
  show ((s.setPlayer i p).players j).bare = (s.bare.setPlayer i p.bare).players j
  rw [setPlayer_players, setPlayer_players]
  split <;> rfl

/-- The second server has recorded more. -/
def Extends (w v : Server F) : Prop := ∃ new, v.log = new ++ w.log

/-- Nothing is recorded. -/
theorem Extends.refl (w : Server F) : Extends w w := ⟨[], rfl⟩

/-- One event is recorded. -/
theorem Extends.record (w : Server F) (e : Event F) (s : ServerState F) :
    Extends w (w.record e s) := ⟨[⟨e, s⟩], rfl⟩

/-- One extension after another. -/
theorem Extends.trans {u v w : Server F} (h : Extends u v) (h' : Extends v w) : Extends u w := by
  obtain ⟨new, hlog⟩ := h
  obtain ⟨new', hlog'⟩ := h'
  exact ⟨new' ++ new, by rw [hlog', hlog, List.append_assoc]⟩

/-- The record afterwards. -/
theorem Extends.log {w v : Server F} (h : Extends w v) : v.log = added w v ++ w.log := by
  obtain ⟨new, hlog⟩ := h
  rw [added_eq hlog, hlog]

/-- What two calls add to the record. -/
theorem added_trans {u v w : Server F} (h : Extends u v) (h' : Extends v w) :
    added u w = added v w ++ added u v :=
  added_eq (by rw [h'.log, h.log, List.append_assoc])

/-- Nothing is added. -/
theorem added_self (w : Server F) : added w w = [] := added_eq (by rfl)

/-- One event is added. -/
theorem added_record (w : Server F) (e : Event F) (s : ServerState F) :
    added w (w.record e s) = [⟨e, s⟩] := added_eq rfl

/-- No line was refused in between. -/
def Undisturbed (w v : Server F) : Prop := ∀ x ∈ added w v, x.event.fails = false

/-- Both parts of an undisturbed run are undisturbed. -/
theorem Undisturbed.split {u v w : Server F} (h : Undisturbed u w) (hu : Extends u v)
    (hv : Extends v w) : Undisturbed u v ∧ Undisturbed v w := by
  unfold Undisturbed at h ⊢
  rw [added_trans hu hv] at h
  exact ⟨fun x hx => h x (List.mem_append_right _ hx),
    fun x hx => h x (List.mem_append_left _ hx)⟩

/-- If no line is refused on the way, the table is the given one without its buffers, and
these events are recorded. -/
structure Smooth (w v : Server F) (s : ServerState F) (es : List (Event F)) : Prop where
  /-- The record grows. -/
  log : Extends w v
  /-- Without refusals. -/
  run : Undisturbed w v → v.state.bare = s.bare ∧ deeds (added w v) = es

/-- No call. -/
theorem Smooth.refl (w : Server F) : Smooth w w w.state [] :=
  ⟨.refl w, fun _ => ⟨rfl, by rw [added_self]; rfl⟩⟩

/-- One part after another. -/
theorem Smooth.trans {u v w : Server F} {s t : ServerState F} {es es' : List (Event F)}
    (h : Smooth u v s es) (hv : Extends v w)
    (h' : v.state.bare = s.bare → Smooth v w t es') : Smooth u w t (es' ++ es) := by
  refine ⟨h.log.trans hv, fun hun => ?_⟩
  obtain ⟨hfirst, hrest⟩ := hun.split h.log hv
  obtain ⟨hbare, hdeeds⟩ := h.run hfirst
  obtain ⟨hbare', hdeeds'⟩ := (h' hbare).run hrest
  exact ⟨hbare', by rw [added_trans h.log hv, deeds_append, hdeeds, hdeeds']⟩

/-- The table may be given by another one with other buffers. -/
theorem Smooth.congr {w v : Server F} {s t : ServerState F} {es : List (Event F)}
    (h : Smooth w v s es) (hst : s.bare = t.bare) : Smooth w v t es :=
  ⟨h.log, fun hun => ⟨(h.run hun).1.trans hst, (h.run hun).2⟩⟩

/-- A part that leaves the table as it is. -/
theorem Smooth.andThen {u v w : Server F} {s : ServerState F} {es : List (Event F)}
    (h : Smooth u v s es) (h' : Smooth v w v.state []) : Smooth u w s es :=
  h.trans h'.log fun hbare => h'.congr hbare

/-- One action. -/
theorem Smooth.record (w : Server F) (e : Event F) (s : ServerState F) :
    Smooth w (w.record e s) s ([e].filter Event.isDeed) := by
  refine ⟨.record w e s, fun _ => ⟨rfl, ?_⟩⟩
  rw [added_record]
  rfl

variable [CFloat F]

/-- What a step is made of extends the record. -/
theorem InTurn.extends {w v : Server F} (h : InTurn w v) : Extends w v := by
  induction h with
  | refl => exact .refl w
  | quiet _ _ _ ih => exact ih.trans (.record ..)
  | broadcast line _ ih =>
    obtain ⟨new, hlog, _⟩ := broadcast_heard line _
    exact ih.trans ⟨new, hlog⟩

/-- Calls extend the record. -/
theorem Composed.extends {w v : Server F} (h : Composed w v) : Extends w v := h.inTurn.extends

section Calls

/-- One call for a line: without refusals it succeeds. -/
theorem queueTo_smooth (via : Via) (line : ServerLine F) (i : Slot) (w : Server F) :
    Smooth w (queueTo via line i w).2 w.state [] ∧
      (Undisturbed w (queueTo via line i w).2 → (queueTo via line i w).1 = true) := by
  have hbare := (queueTo_rebuffered via line i w).bare
  unfold queueTo at hbare ⊢
  split
  · rename_i p hp
    simp only [hp] at hbare
    exact ⟨(Smooth.record w _ _).congr hbare, fun _ => rfl⟩
  · refine ⟨(Smooth.record w _ _).congr rfl, fun hun => ?_⟩
    have hfail := hun ⟨.refused i via line, w.state⟩ (by rw [added_record]; simp)
    cases hfail

/-- A reply, if it is not refused. -/
theorem reply_smooth (line : ServerLine F) (i : Slot) (w : Server F) :
    Smooth w (reply line i w) w.state [] := (queueTo_smooth .line line i w).1

/-- Several lines. -/
theorem queueSeq_smooth (via : Via) (lines : List (Server F → ServerLine F)) (i : Slot)
    (w : Server F) : Smooth w (queueSeq via lines i w).2 w.state [] ∧
      (Undisturbed w (queueSeq via lines i w).2 → (queueSeq via lines i w).1 = true) := by
  induction lines generalizing w with
  | nil => exact ⟨.refl w, fun _ => rfl⟩
  | cons line lines ih =>
    obtain ⟨hone, hsent⟩ := queueTo_smooth via (line w) i w
    unfold queueSeq
    split <;> rename_i v hq <;> rw [hq] at hone hsent
    · obtain ⟨hrest, hall⟩ := ih v
      exact ⟨hone.trans hrest.log fun hbare => hrest.congr hbare,
        fun hun => hall (hun.split hone.log hrest.log).2⟩
    · exact ⟨hone, fun hun => hsent hun⟩

/-- A drop that was not for a full buffer. -/
theorem dropSlot_smooth (announce : Bool) {i : Slot} {w : Server F}
    (hconn : (w.state.players i).connected = true) :
    Smooth w (dropSlot announce i w) (w.state.setPlayer i Player.cleared) [] := by
  rw [dropSlot_of_connected hconn]
  exact .record ..

/-- The first loop of a broadcast remembers a slot only when a line is refused. -/
theorem foldl_offerLine_smooth (line : ServerLine F) (is : List Slot) (acc : List Slot)
    (w : Server F) : Smooth w (is.foldl (offerLine line) (acc, w)).2 w.state [] ∧
      (Undisturbed w (is.foldl (offerLine line) (acc, w)).2 →
        (is.foldl (offerLine line) (acc, w)).1 = acc) := by
  induction is generalizing acc w with
  | nil => exact ⟨.refl w, fun _ => rfl⟩
  | cons i is ih =>
    obtain ⟨hone, hsent⟩ := queueTo_smooth .broadcast line i w
    rw [List.foldl_cons]
    unfold offerLine
    dsimp only
    split
    · split <;> rename_i v hq <;> rw [hq] at hone hsent
      · obtain ⟨hrest, hkept⟩ := ih acc v
        exact ⟨hone.trans hrest.log fun hbare => hrest.congr hbare,
          fun hun => hkept (hun.split hone.log hrest.log).2⟩
      · obtain ⟨hrest, _⟩ := ih (acc ++ [i]) v
        exact ⟨hone.trans hrest.log fun hbare => hrest.congr hbare,
          fun hun => by cases hsent (hun.split hone.log hrest.log).1⟩
    · exact ih acc w

section Nested

variable {reeval : Server F → Server F} (hre : ∀ w, Extends w (reeval w))

include hre

/-- A broadcast leaves the table as it is. -/
theorem queueBroadcastWith_smooth (line : ServerLine F) (w : Server F) :
    Smooth w (queueBroadcastWith reeval line w) w.state [] := by
  have hunfold : offerAll line w = slots.foldl (offerLine line) ([], w) := rfl
  obtain ⟨hoffers, hnone⟩ := foldl_offerLine_smooth line slots [] w
  rw [← hunfold] at hoffers hnone
  have hdrops : ∀ is (v : Server F), Extends v (reeval (dropAll is v)) := fun is v =>
    Extends.trans (Composed.foldl (fun u j => dropSlot_composed false j u) is v).extends (hre _)
  unfold queueBroadcastWith
  split
  · rename_i v hq
    rw [hq] at hoffers
    exact hoffers
  · rename_i toDrop v hne hq
    rw [hq] at hoffers hnone
    refine ⟨hoffers.log.trans (hdrops _ v), fun hun => ?_⟩
    exact absurd (hnone (hun.split hoffers.log (hdrops _ v)).1) hne

/-- Positions do. -/
theorem broadcastPositionsWith_smooth (w : Server F) :
    Smooth w (broadcastPositionsWith reeval w) w.state [] := by
  have hloop : ∀ (is : List Slot) (v : Server F),
      Smooth v (is.foldl (broadcastPositionWith reeval) v) v.state [] := by
    intro is
    induction is with
    | nil => exact .refl
    | cons i is ih =>
      intro v
      have hone : Smooth v (broadcastPositionWith reeval v i) v.state [] := by
        unfold broadcastPositionWith
        split
        · exact queueBroadcastWith_smooth hre _ v
        · exact .refl v
      exact hone.andThen (ih _)
  exact hloop slots w

/-- The start of a round. -/
theorem startActiveRoundWith_smooth (w : Server F) :
    Smooth w (startActiveRoundWith reeval w) (startRound w.time w.state) [.roundStarted] :=
  ((Smooth.record w .roundStarted _).andThen (queueBroadcastWith_smooth hre _ _)).andThen
    (broadcastPositionsWith_smooth hre _)

/-- The end of a repick: the submitted choices, and a round. -/
theorem finishRepicksWith_smooth (w : Server F) : ∃ now,
    Smooth w (finishRepicksWith reeval w) (startRound now (repicked w).state) [.roundStarted] := by
  have hbefore : Smooth w (broadcastPositionsWith reeval
      (queueBroadcastWith reeval .repickDone (repicked w))) (repicked w).state [] :=
    ((Smooth.record w .repicksFinished _).andThen (queueBroadcastWith_smooth hre _ _)).andThen
      (broadcastPositionsWith_smooth hre _)
  have hround := startActiveRoundWith_smooth hre (broadcastPositionsWith reeval
    (queueBroadcastWith reeval .repickDone (repicked w)))
  exact ⟨_, hbefore.trans hround.log fun hbare =>
    hround.congr (by rw [startRound_bare, startRound_bare, hbare])⟩

end Nested

/-- `reevaluate_state` extends the record. -/
theorem reevaluateState_extends (w : Server F) : Extends w (reevaluateState w) :=
  (reevaluateState_composed w).extends

/-- A broadcast, if no line is refused. -/
theorem queueBroadcast_smooth (line : ServerLine F) (w : Server F) :
    Smooth w (queueBroadcast line w) w.state [] :=
  queueBroadcastWith_smooth reevaluateState_extends line w

/-- The positions, if no line is refused. -/
theorem broadcastPositions_smooth (w : Server F) :
    Smooth w (broadcastPositions w) w.state [] :=
  broadcastPositionsWith_smooth reevaluateState_extends w

/-- The start of a round, if no line is refused. -/
theorem startActiveRound_smooth (w : Server F) :
    Smooth w (startActiveRound w) (startRound w.time w.state) [.roundStarted] :=
  startActiveRoundWith_smooth reevaluateState_extends w

/-- Snapshots do. -/
theorem broadcastGameState_smooth (w : Server F) :
    Smooth w (broadcastGameState w) w.state [] := by
  have hloop : ∀ (is : List Slot) (acc : Bool × Server F),
      Smooth acc.2 (is.foldl offerGameState acc).2 acc.2.state [] ∧
        (Undisturbed acc.2 (is.foldl offerGameState acc).2 →
          (is.foldl offerGameState acc).1 = acc.1) := by
    intro is
    induction is with
    | nil => exact fun acc => ⟨.refl _, fun _ => rfl⟩
    | cons i is ih =>
      intro acc
      obtain ⟨hone, hsent⟩ : Smooth acc.2 (offerGameState acc i).2 acc.2.state [] ∧
          (Undisturbed acc.2 (offerGameState acc i).2 → (offerGameState acc i).1 = acc.1) := by
        obtain ⟨hseq, hall⟩ := queueSeq_smooth .checked (snapshotLines acc.2.state i) i acc.2
        unfold offerGameState queueGameStateForPlayer
        split
        · split <;> rename_i v hq <;> rw [hq] at hseq hall
          · exact ⟨hseq, fun _ => rfl⟩
          · have hdrop : Extends v (dropSilently i v) := (dropSlot_composed false i v).extends
            refine ⟨⟨hseq.log.trans hdrop, fun hun => ?_⟩, fun hun => ?_⟩ <;>
              cases hall (hun.split hseq.log hdrop).1
        · exact ⟨.refl _, fun _ => rfl⟩
      obtain ⟨hrest, hkept⟩ := ih (offerGameState acc i)
      rw [List.foldl_cons]
      refine ⟨hone.trans hrest.log fun hbare => hrest.congr hbare, fun hun => ?_⟩
      obtain ⟨hfirst, hlater⟩ := hun.split hone.log hrest.log
      exact (hkept hlater).trans (hsent hfirst)
  obtain ⟨hall, hkept⟩ := hloop slots (false, w)
  unfold broadcastGameState broadcastGameStateWith
  generalize slots = is at hall hkept ⊢
  split <;> rename_i v hq <;> rw [hq] at hall hkept
  · exact hall
  · have hnext : Extends v (reevaluateState v) := reevaluateState_extends v
    refine ⟨hall.log.trans hnext, fun hun => ?_⟩
    cases hkept (hun.split hall.log hnext).1

/-- The end of the match. -/
theorem endGame_smooth (w : Server F) :
    Smooth w (endGame w) { w.state with phase := .gameOver } [.gameEnded] := by
  have hloop : ∀ (is : List Slot) (v : Server F),
      Smooth v (is.foldl announceResult v) v.state [] := by
    intro is
    induction is with
    | nil => exact .refl
    | cons i is ih =>
      intro v
      have hone : Smooth v (announceResult v i) v.state [] := by
        unfold announceResult queueGameOverResult
        split
        · cases (v.state.players i).verdict with
          | none => exact .refl v
          | some result =>
            obtain ⟨hcall, hsent⟩ := queueTo_smooth .verdict (.gameOver result) i v
            dsimp only
            split <;> rename_i u hq <;> rw [hq] at hcall hsent
            · exact hcall
            · have hdrop : Extends u (dropSilently i u) := (dropSlot_composed false i u).extends
              refine ⟨hcall.log.trans hdrop, fun hun => ?_⟩
              cases hsent (hun.split hcall.log hdrop).1
        · exact .refl v
      exact hone.andThen (ih _)
  exact (Smooth.record w .gameEnded _).andThen (hloop slots _)

/-- The table at the start of a repick. -/
def ServerState.beginRepicks (s : ServerState F) : ServerState F :=
  { s with phase := .repick, players := fun i => (s.players i).clearRepick }

/-- The start of a repick. -/
theorem beginRepicks_smooth (w : Server F) :
    Smooth w (beginRepicks w) w.state.beginRepicks [] :=
  ((Smooth.record w .repicksBegun _).andThen (queueBroadcast_smooth _ _)).andThen
    (broadcastPositions_smooth _)

/-- A client leaves. -/
theorem dropPlayer_smooth {i : Slot} {w : Server F}
    (hconn : (w.state.players i).connected = true) :
    Smooth w (dropPlayer i true w) (w.state.setPlayer i Player.cleared) [] := by
  have hdrop := dropSlot_smooth true hconn
  unfold dropPlayer
  dsimp only
  split
  · exact (hdrop.andThen (queueBroadcast_smooth _ _)).andThen (broadcastGameState_smooth _)
  · exact hdrop

end Calls

end BattleRoyale
