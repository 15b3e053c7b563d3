import BattleRoyale.Composition
import BattleRoyale.SnapshotRoundTrip

/-!
# Snapshots in the stream of a client

The lines of a snapshot are queued in a row, and a client without room for one of them is
dropped. So in the lines that a connection was sent, every STATE_BEGIN opens a complete
snapshot.
-/

namespace BattleRoyale

open Recorded

variable {F : Type}

/-- The event clears slot `i`. -/
def Event.drops (i : Slot) : Event F → Bool
  | .dropped j _ _ => decide (j = i)
  | _ => false

/-- The event queues a line for slot `i` that opens a snapshot. -/
def Event.beginsFor (i : Slot) : Event F → Bool
  | .queued j _ line => decide (j = i) && line.beginsSnapshot
  | _ => false

/-- The line that an entry has queued for slot `i`. -/
def sentLine (i : Slot) (x : Entry (ServerState F) (Event F)) : List (ServerLine F) :=
  match x.event with
  | .queued j _ line => if j = i then [line] else []
  | _ => []

/-- The lines that entries have queued for slot `i`, in order. -/
def sentLines (i : Slot) (log : Log F) : List (ServerLine F) := gather (sentLine i) log

/-- The lines complete a snapshot of this state for slot `i`: the lines about the phase, a
`PLAYER` line for each admitted player, and STATE_END. -/
def CompletesSnapshot (s : ServerState F) (i : Slot) (lines : List (ServerLine F)) : Prop :=
  ∃ phase rest, lines =
      phase ++ (admittedSlots s).map (fun k => (s.players k).line) ++ .stateEnd :: rest ∧
    List.Forall₂ (fun line source => ∃ w : Server F, line = source w) phase (phaseLines s i)

/-- In the lines for slot `i` every STATE_BEGIN opens a complete snapshot of the state in
which it was queued, unless the connection was dropped since. -/
def SnapshotsWhole (i : Slot) (log : Log F) : Prop :=
  ∀ after before via s, log = after ++ ⟨.queued i via .stateBegin, s⟩ :: before →
    (∀ x ∈ after, x.event.drops i = false) → CompletesSnapshot s i (sentLines i after)

section Log

/-- Later lines do not matter. -/
theorem CompletesSnapshot.append {s : ServerState F} {i : Slot} {lines : List (ServerLine F)}
    (h : CompletesSnapshot s i lines) (more : List (ServerLine F)) :
    CompletesSnapshot s i (lines ++ more) := by
  obtain ⟨phase, rest, rfl, hphase⟩ := h
  exact ⟨phase, rest ++ more, by simp, hphase⟩

/-- An entry that opens no snapshot for the slot. -/
theorem SnapshotsWhole.cons {i : Slot} {log : Log F} {x : Entry (ServerState F) (Event F)}
    (h : SnapshotsWhole i log) (hx : x.event.beginsFor i = false) :
    SnapshotsWhole i (x :: log) := by
  intro after before via s hlog hafter
  cases after with
  | nil =>
    obtain ⟨rfl, _⟩ := List.cons.inj hlog
    simp [Event.beginsFor, ServerLine.beginsSnapshot] at hx
  | cons y after =>
    obtain ⟨rfl, hrest⟩ := List.cons.inj hlog
    exact (h after before via s hrest fun z hz => hafter z (List.mem_cons_of_mem _ hz)).append _

/-- Entries that open no snapshot for the slot. -/
theorem SnapshotsWhole.append {i : Slot} {log new : Log F} (h : SnapshotsWhole i log)
    (hnew : ∀ x ∈ new, x.event.beginsFor i = false) : SnapshotsWhole i (new ++ log) := by
  induction new with
  | nil => exact h
  | cons x new ih =>
    obtain ⟨hx, hrest⟩ := List.forall_mem_cons.mp hnew
    exact (ih hrest).cons hx

/-- A complete snapshot. -/
theorem SnapshotsWhole.snapshot {i : Slot} {log new : Log F} {via : Via} {s : ServerState F}
    (h : SnapshotsWhole i log) (hnew : ∀ x ∈ new, x.event.beginsFor i = false)
    (hcomplete : CompletesSnapshot s i (sentLines i new)) :
    SnapshotsWhole i (new ++ ⟨.queued i via .stateBegin, s⟩ :: log) := by
  intro after before via' t hlog hafter
  rcases List.append_eq_append_iff.mp hlog with ⟨mid, rfl, hmid⟩ | ⟨mid, rfl, hmid⟩
  · cases mid with
    | nil =>
      obtain ⟨hentry, _⟩ := List.cons.inj hmid
      cases hentry
      rw [List.append_nil]
      exact hcomplete
    | cons y mid =>
      -- an earlier snapshot, which was complete before
      obtain ⟨rfl, hlog'⟩ := List.cons.inj hmid
      have hdrops : ∀ x ∈ mid, x.event.drops i = false := fun x hx =>
        hafter x (List.mem_append_right _ (List.mem_cons_of_mem _ hx))
      have hearlier := h mid before via' t hlog' hdrops
      rw [sentLines, gather_append, gather_cons, List.append_assoc]
      exact hearlier.append _
  · cases mid with
    | nil =>
      obtain ⟨hentry, _⟩ := List.cons.inj hmid
      cases hentry
      rw [List.append_nil] at hcomplete
      exact hcomplete
    | cons y mid =>
      obtain ⟨rfl, _⟩ := List.cons.inj hmid
      have hno := hnew _ (List.mem_append_right _ List.mem_cons_self)
      simp [Event.beginsFor, ServerLine.beginsSnapshot] at hno

/-- The connection is dropped. -/
theorem SnapshotsWhole.dropped {i : Slot} {log : Log F} {announce : Bool} {name : List Char}
    {s : ServerState F} : SnapshotsWhole i (⟨.dropped i announce name, s⟩ :: log) := by
  intro after before via t hlog hafter
  cases after with
  | nil =>
    obtain ⟨hentry, _⟩ := List.cons.inj hlog
    cases hentry
  | cons y after =>
    obtain ⟨rfl, _⟩ := List.cons.inj hlog
    have hno := hafter _ List.mem_cons_self
    simp [Event.drops] at hno

end Log

section Pieces

/-- A call that changes buffers only changes nothing that a snapshot shows. -/
theorem Rebuffered.snapshotLines {s t : ServerState F} (h : Rebuffered s t) (i : Slot) :
    phaseLines t i = phaseLines s i ∧ admittedSlots t = admittedSlots s ∧
      ∀ k, (t.players k).line = (s.players k).line := by
  have hverdict : (t.players i).verdict = (s.players i).verdict := by
    rw [h.player i]
    rfl
  refine ⟨?_, ?_, fun k => ?_⟩
  · rw [phaseLines, phaseLines, hverdict, h.table]
  · refine List.filter_congr fun k _ => ?_
    rw [h.player k]
    rfl
  · rw [h.player k]
    rfl

/-- The lines of a snapshot after its first. -/
def snapshotRest (s : ServerState F) (i : Slot) : List (Server F → ServerLine F) :=
  phaseLines s i ++ (admittedSlots s).map (fun k _ => (s.players k).line) ++ [fun _ => .stateEnd]

theorem snapshotLines_eq (s : ServerState F) (i : Slot) :
    snapshotLines s i = (fun _ => .stateBegin) :: snapshotRest s i := by
  rw [snapshotLines, snapshotRest, List.append_assoc, List.singleton_append, List.cons_append,
    List.append_assoc]
  rfl

/-- No later line opens a snapshot. -/
theorem snapshotRest_plain (s : ServerState F) (i : Slot) :
    ∀ line ∈ snapshotRest s i, ∀ w, (line w).beginsSnapshot = false := by
  intro line hline w
  rcases List.mem_append.mp hline with hline | hline
  · rcases List.mem_append.mp hline with hline | hline
    · unfold phaseLines at hline
      repeat' split at hline
      all_goals simp only [List.mem_cons, List.not_mem_nil, or_false] at hline
      all_goals rcases hline with rfl | rfl <;> rfl
    · obtain ⟨k, _, rfl⟩ := List.mem_map.mp hline
      rfl
  · rw [List.mem_singleton.mp hline]
    rfl

/-- Lines that were made from the sources of a snapshot complete it. -/
theorem completesSnapshot_of_forall₂ {s : ServerState F} {i : Slot} {lines : List (ServerLine F)}
    (h : List.Forall₂ (fun line source => ∃ w : Server F, line = source w) lines
      (snapshotRest s i)) : CompletesSnapshot s i lines := by
  rw [snapshotRest, List.append_assoc] at h
  have hphase := List.forall₂_take_append lines _ _ h
  have hlater := List.forall₂_drop_append lines _ _ h
  rw [← List.take_append_drop (phaseLines s i).length lines]
  generalize lines.take (phaseLines s i).length = phase at hphase ⊢
  generalize lines.drop (phaseLines s i).length = later at hlater ⊢
  have hplayers := List.forall₂_take_append later _ _ hlater
  have hend := List.forall₂_drop_append later _ _ hlater
  rw [← List.take_append_drop ((admittedSlots s).map fun k (_ : Server F) =>
    (s.players k).line).length later]
  generalize later.take _ = players at hplayers ⊢
  generalize later.drop _ = last at hend ⊢
  rw [List.forall₂_map_right_iff] at hplayers
  have hlines : players = (admittedSlots s).map fun k => (s.players k).line := by
    rw [← List.forall₂_eq_eq_eq, List.forall₂_map_right_iff]
    exact hplayers.imp fun _ _ ⟨_, hline⟩ => hline
  obtain ⟨line, rest, ⟨_, rfl⟩, hrest, rfl⟩ := List.forall₂_cons_right_iff.mp hend
  rw [hlines, ← List.append_assoc]
  exact ⟨phase, rest, rfl, hphase⟩

variable [CFloat F]

/-- The calls of `queue_line` for one client, and the lines that they queue. -/
theorem queueSeq_log (via : Via) (j : Slot) (lines : List (Server F → ServerLine F))
    (w : Server F) : ∃ new, (queueSeq via lines j w).2.log = new ++ w.log ∧
      (∀ x ∈ new, (∃ line ∈ lines, ∃ u, x.event = .queued j via (line u)) ∨
        ∃ line, x.event = .refused j via line) ∧
      ((queueSeq via lines j w).1 = true →
        List.Forall₂ (fun line source => ∃ u : Server F, line = source u) (sentLines j new)
          lines) := by
  induction lines generalizing w with
  | nil => exact ⟨[], rfl, fun _ h => absurd h List.not_mem_nil, fun _ => .nil⟩
  | cons line lines ih =>
    unfold queueSeq
    cases hq : queueTo via (line w) j w with
    | mk ok v =>
      cases ok with
      | true =>
        obtain ⟨p, _, hv⟩ := queueTo_true hq
        obtain ⟨new, hlog, hnew, hsent⟩ := ih v
        refine ⟨new ++ [⟨.queued j via (line w), w.state.setPlayer j p⟩], ?_, ?_, fun hall => ?_⟩
        · simp only
          rw [hlog, hv, List.append_assoc]
          rfl
        · intro x hx
          rcases List.mem_append.mp hx with hx | hx
          · refine (hnew x hx).imp_left ?_
            rintro ⟨l, hl, hu⟩
            exact ⟨l, List.mem_cons_of_mem _ hl, hu⟩
          · rw [List.mem_singleton.mp hx]
            exact .inl ⟨line, List.mem_cons_self, w, rfl⟩
        · rw [sentLines, gather_append]
          have hfirst : gather (sentLine j)
              [(⟨.queued j via (line w), w.state.setPlayer j p⟩ : Entry _ (Event F))] =
              [line w] := by simp [gather, sentLine]
          rw [hfirst]
          exact .cons ⟨w, rfl⟩ (hsent hall)
      | false =>
        obtain ⟨_, hv⟩ := queueTo_false hq
        refine ⟨[⟨.refused j via (line w), w.state⟩], ?_, ?_, fun hall => by cases hall⟩
        · simp only
          rw [hv]
          rfl
        · intro x hx
          rw [List.mem_singleton.mp hx]
          exact .inr ⟨line w, rfl⟩

/-- A snapshot with room for all of its lines. -/
theorem queueSnapshot_whole {j : Slot} {w v : Server F}
    (hq : queueSeq .checked (snapshotLines w.state j) j w = (true, v))
    (h : SnapshotsWhole j w.log) : SnapshotsWhole j v.log := by
  rw [snapshotLines_eq, queueSeq] at hq
  have hsame := queueTo_rebuffered .checked .stateBegin j w
  cases hbegin : queueTo .checked .stateBegin j w with
  | mk ok u =>
    rw [hbegin] at hq hsame
    cases ok with
    | false => cases hq
    | true =>
      obtain ⟨p, _, hu⟩ := queueTo_true hbegin
      obtain ⟨new, hlog, hnew, hall⟩ := queueSeq_log .checked j (snapshotRest w.state j) u
      simp only at hq
      rw [hq] at hlog hall
      have hulog : u.log = ⟨.queued j .checked .stateBegin, u.state⟩ :: w.log := by
        subst hu
        rfl
      obtain ⟨hphase, hadmitted, hplayer⟩ := hsame.snapshotLines j
      have hrest : snapshotRest u.state j = snapshotRest w.state j := by
        rw [snapshotRest, snapshotRest, hphase, hadmitted]
        simp only [hplayer]
      have hplain : ∀ x ∈ new, x.event.beginsFor j = false := by
        intro x hx
        rcases hnew x hx with ⟨line, hline, t, he⟩ | ⟨line, he⟩
        · rw [he]
          simp [Event.beginsFor, snapshotRest_plain _ _ line hline t]
        · rw [he]
          rfl
      have hvlog : v.log = new ++ ⟨.queued j .checked .stateBegin, u.state⟩ :: w.log := by
        rw [← hulog]
        exact hlog
      rw [hvlog]
      exact h.snapshot hplain (completesSnapshot_of_forall₂ (hrest ▸ hall rfl))

/-- A snapshot for slot `j`, or the drop of its client. -/
theorem sendSnapshot_whole {i j : Slot} {w : Server F}
    (hconn : (w.state.players j).connected = true) (h : SnapshotsWhole i w.log) :
    SnapshotsWhole i (sendSnapshot j w).log := by
  have hsame := queueSeq_rebuffered .checked (snapshotLines w.state j) j w
  have hsent := queueSeq_log .checked j (snapshotLines w.state j) w
  unfold sendSnapshot queueGameStateForPlayer
  cases hq : queueSeq .checked (snapshotLines w.state j) j w with
  | mk ok v =>
    rw [hq] at hsame hsent
    obtain ⟨new, hlog, hnew, hall⟩ := hsent
    have hlog' : v.log = new ++ w.log := hlog
    have hdrop : dropSilently j v = v.record (.dropped j false (v.state.players j).name)
        (v.state.setPlayer j Player.cleared) := by
      refine dropSlot_of_connected ?_
      rw [hsame.player j]
      exact hconn
    by_cases hij : j = i
    swap
    · -- nothing of this is for slot `i`
      have hother : ∀ x ∈ new, x.event.beginsFor i = false := by
        intro x hx
        rcases hnew x hx with ⟨line, _, u, he⟩ | ⟨line, he⟩
        · rw [he]
          simp [Event.beginsFor, hij]
        · rw [he]
          rfl
      have hlater : SnapshotsWhole i v.log := hlog' ▸ h.append hother
      cases ok with
      | true => exact hlater
      | false =>
        simp only
        rw [hdrop]
        exact hlater.cons rfl
    subst hij
    cases ok with
    | false =>
      simp only
      rw [hdrop]
      exact .dropped
    | true =>
      have hv : SnapshotsWhole j v.log := queueSnapshot_whole hq h
      exact hv

/-- A broadcast of another line. -/
theorem broadcast_whole {i : Slot} {line : ServerLine F} (hline : line.beginsSnapshot = false)
    {w : Server F} (h : SnapshotsWhole i w.log) :
    SnapshotsWhole i (dropAll (offerAll line w).1 (offerAll line w).2).log := by
  have hoffer : ∀ (is : List Slot) (acc : List Slot × Server F), SnapshotsWhole i acc.2.log →
      SnapshotsWhole i (is.foldl (offerLine line) acc).2.log := by
    intro is
    induction is with
    | nil => exact fun acc hacc => hacc
    | cons j is ih =>
      intro acc hacc
      refine ih _ ?_
      unfold offerLine queueTo
      split
      · cases (acc.2.state.players j).queueVia .broadcast line with
        | none => exact hacc.cons rfl
        | some p => exact hacc.cons (by simp [Event.beginsFor, hline])
      · exact hacc
  have hdrop : ∀ (js : List Slot) (v : Server F), SnapshotsWhole i v.log →
      SnapshotsWhole i (dropAll js v).log := by
    intro js
    induction js with
    | nil => exact fun v hv => hv
    | cons j js ih =>
      intro v hv
      refine ih _ ?_
      show SnapshotsWhole i (dropSlot false j v).log
      unfold dropSlot
      split
      · exact hv.cons rfl
      · exact hv
  have hoffered : SnapshotsWhole i (offerAll line w).2.log := by
    unfold offerAll
    exact hoffer slots ([], w) h
  exact hdrop _ _ hoffered

/-- What is composed of pieces keeps snapshots whole. -/
theorem Composed.snapshotsWhole {i : Slot} {w v : Server F} (h : Composed w v)
    (hw : SnapshotsWhole i w.log) : SnapshotsWhole i v.log := by
  induction h with
  | refl => exact hw
  | @quiet v e s _ _ hb _ ih =>
    refine ih.cons ?_
    cases e with
    | queued j via line =>
      have hline : line.beginsSnapshot = false := hb
      simp [Event.beginsFor, hline]
    | _ => rfl
  | broadcast line _ hline ih => exact broadcast_whole hline ih
  | snapshot j _ hconn ih => exact sendSnapshot_whole hconn ih

/-- In every run, in the lines of every connection that was not dropped since, STATE_BEGIN is
followed by the rest of the snapshot before any other line. -/
theorem snapshots_whole {loopOnly : Bool} {w : Server F} (hw : Reached loopOnly w) (i : Slot) :
    SnapshotsWhole i w.log := by
  obtain ⟨clock, hcomposed⟩ := hw.composed
  refine hcomposed.snapshotsWhole fun after before via s hlog _ => ?_
  rcases List.append_eq_cons_iff.mp hlog.symm with ⟨rfl, hentry⟩ | ⟨rest, _, hnil⟩
  · cases (List.cons.inj hentry).1
  · simp at hnil

/-- The snapshots of two players whose match has begun. -/
theorem snapshots_whole_duel : SnapshotsWhole 0 (serverAfter (lateClock 60) duel).log :=
  snapshots_whole duel_reached 0

end Pieces

end BattleRoyale
