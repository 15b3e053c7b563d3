import BattleRoyale.Actions

/-!
# What a broadcast does

The two loops of `queue_broadcast`, before any re-entrant call, in one equation:
every connected client gets the line or is cleared.
-/

namespace BattleRoyale

open Recorded

variable {F : Type} [CFloat F]

/-- The outcome of a broadcast for one slot. -/
def Player.afterBroadcast (line : ServerLine F) (p : Player F) : Player F :=
  if p.connected then (p.queueVia .broadcast line).getD Player.cleared else p

/-- The outcome of a broadcast for the whole table. -/
def ServerState.broadcast (line : ServerLine F) (s : ServerState F) : ServerState F :=
  { s with players := fun i => (s.players i).afterBroadcast line }

/-- A connected client has no room for the line. -/
def overflows (line : ServerLine F) (s : ServerState F) : Prop :=
  ∃ i, (s.players i).connected = true ∧ (s.players i).queueVia .broadcast line = none

/-- Two states that differ in the contents of the buffers only. -/
structure Rebuffered (s t : ServerState F) : Prop where
  /-- Only the player table changes. -/
  table : t = { s with players := t.players }
  /-- Only the buffers of a player change. -/
  player : ∀ i, t.players i =
    { s.players i with inbuf := (t.players i).inbuf, outbuf := (t.players i).outbuf }

/-- The events of the two loops of a broadcast. -/
def BroadcastEvent (line : ServerLine F) (e : Event F) : Prop :=
  (∃ i, e = .queued i .broadcast line) ∨ (∃ i, e = .refused i .broadcast line) ∨
    ∃ i name, e = .dropped i false name

omit [CFloat F] in
theorem Rebuffered.refl (s : ServerState F) : Rebuffered s s := ⟨rfl, fun _ => rfl⟩

omit [CFloat F] in
theorem Rebuffered.trans {s t u : ServerState F} (h : Rebuffered s t) (h' : Rebuffered t u) :
    Rebuffered s u where
  table := by
    have htable := h.table
    rw [h'.table, htable]
  player i := by
    rw [h'.player i, h.player i]

omit [CFloat F] in
/-- Replacing the buffers of one entry. -/
theorem Rebuffered.setPlayer (s : ServerState F) (i : Slot) (inbuf outbuf : List Char) :
    Rebuffered s (s.setPlayer i { s.players i with inbuf := inbuf, outbuf := outbuf }) where
  table := rfl
  player j := by
    by_cases hj : j = i
    · subst hj
      simp
    · rw [ServerState.setPlayer_of_ne _ _ hj]

/-- A queued line leaves everything but the send buffer. -/
theorem queueTo_true {via : Via} {line : ServerLine F} {i : Slot} {w v : Server F}
    (h : queueTo via line i w = (true, v)) :
    ∃ p, (w.state.players i).queueVia via line = some p ∧
      v = w.record (.queued i via line) (w.state.setPlayer i p) := by
  unfold queueTo at h
  split at h
  · rename_i p hp
    exact ⟨p, hp, (congrArg Prod.snd h).symm⟩
  · cases h

/-- A refused line changes nothing. -/
theorem queueTo_false {via : Via} {line : ServerLine F} {i : Slot} {w v : Server F}
    (h : queueTo via line i w = (false, v)) :
    (w.state.players i).queueVia via line = none ∧
      v = w.record (.refused i via line) w.state := by
  unfold queueTo at h
  split at h
  · cases h
  · rename_i hp
    exact ⟨hp, (congrArg Prod.snd h).symm⟩

/-- The call `drop_player(s, i, 0)` in a slot that is in use. -/
theorem dropSlot_of_connected {announce : Bool} {i : Slot} {w : Server F}
    (h : (w.state.players i).connected = true) :
    dropSlot announce i w = w.record (.dropped i announce (w.state.players i).name)
      (w.state.setPlayer i Player.cleared) := by
  simp [dropSlot, h]

theorem dropSlot_of_free {announce : Bool} {i : Slot} {w : Server F}
    (h : (w.state.players i).connected = false) : dropSlot announce i w = w := by
  simp [dropSlot, h]

/-- After `drop_player` the slot is free. -/
theorem dropSlot_connected (announce : Bool) (i : Slot) (w : Server F) :
    ((dropSlot announce i w).state.players i).connected = false := by
  cases h : (w.state.players i).connected with
  | true => simp [dropSlot_of_connected h, Player.cleared, Player.zero]
  | false => rw [dropSlot_of_free h, h]

/-- The first loop of a broadcast: what it does to the slots that it visits, and
which slots it remembers. -/
theorem foldl_offerLine (line : ServerLine F) (is : List Slot) (his : is.Nodup)
    (acc : List Slot) (w : Server F) :
    (is.foldl (offerLine line) (acc, w)).1 =
        acc ++ is.filter (fun i => (w.state.players i).connected &&
          ((w.state.players i).queueVia .broadcast line).isNone) ∧
      (is.foldl (offerLine line) (acc, w)).2.state =
        { w.state with players := fun i =>
            if i ∈ is ∧ (w.state.players i).connected = true then
              ((w.state.players i).queueVia .broadcast line).getD (w.state.players i)
            else w.state.players i } := by
  induction is generalizing acc w with
  | nil => simp
  | cons i is ih =>
    obtain ⟨hi, his⟩ := List.nodup_cons.mp his
    -- The rest of the loop does not see what this iteration did to slot `i`.
    have hne : ∀ j ∈ is, j ≠ i := fun j hj hji => hi (hji ▸ hj)
    rw [List.foldl_cons]
    cases hc : (w.state.players i).connected with
    | false =>
      have hstep : offerLine line (acc, w) i = (acc, w) := by simp [offerLine, hc]
      rw [hstep]
      obtain ⟨h1, h2⟩ := ih his acc w
      refine ⟨by rw [h1]; simp [hc], ?_⟩
      rw [h2]
      refine ServerState.players_congr fun j => ?_
      by_cases hji : j = i
      · subst hji
        simp [hc]
      · by_cases hj : j ∈ is <;> simp [hji, hj]
    | true =>
      cases hq : (w.state.players i).queueVia .broadcast line with
      | none =>
        have hstep : offerLine line (acc, w) i =
            (acc ++ [i], w.record (.refused i .broadcast line) w.state) := by
          simp [offerLine, hc, queueTo, hq]
        rw [hstep]
        obtain ⟨h1, h2⟩ := ih his (acc ++ [i]) (w.record (.refused i .broadcast line) w.state)
        refine ⟨by rw [h1]; simp [hc, hq], ?_⟩
        rw [h2]
        refine ServerState.players_congr fun j => ?_
        by_cases hji : j = i
        · subst hji
          simp [hi, hq]
        · by_cases hj : j ∈ is <;> simp [hji, hj]
      | some p =>
        have hstep : offerLine line (acc, w) i =
            (acc, w.record (.queued i .broadcast line) (w.state.setPlayer i p)) := by
          simp [offerLine, hc, queueTo, hq]
        rw [hstep]
        obtain ⟨h1, h2⟩ := ih his acc
          (w.record (.queued i .broadcast line) (w.state.setPlayer i p))
        constructor
        · rw [h1]
          simp only [System.record_state, List.filter_cons, hc, hq, Option.isNone_some,
            Bool.and_false, Bool.false_eq_true, if_false]
          congr 1
          refine List.filter_congr fun j hj => ?_
          rw [ServerState.setPlayer_of_ne _ _ (hne j hj)]
        · rw [h2]
          refine ServerState.players_congr fun j => ?_
          by_cases hji : j = i
          · subst hji
            simp [hi, hc, hq]
          · by_cases hj : j ∈ is <;> simp [hji, hj, ServerState.setPlayer_players]

/-- The second loop of a broadcast clears the remembered slots. -/
theorem dropAll_state (is : List Slot) (w : Server F) :
    (dropAll is w).state =
      { w.state with players := fun i =>
        if i ∈ is ∧ (w.state.players i).connected = true then Player.cleared
        else w.state.players i } := by
  induction is generalizing w with
  | nil => simp [dropAll]
  | cons i is ih =>
    have hunfold : dropAll (i :: is) w = dropAll is (dropSilently i w) := rfl
    rw [hunfold, ih]
    cases hc : (w.state.players i).connected with
    | false =>
      rw [dropSilently, dropSlot_of_free hc]
      refine ServerState.players_congr fun j => ?_
      by_cases hji : j = i
      · subst hji
        simp [hc]
      · by_cases hj : j ∈ is <;> simp [hji, hj]
    | true =>
      rw [dropSilently, dropSlot_of_connected hc]
      refine ServerState.players_congr fun j => ?_
      by_cases hji : j = i
      · subst hji
        simp [hc, Player.cleared, Player.zero]
      · by_cases hj : j ∈ is <;> simp [hji, hj, ServerState.setPlayer_players]

/-- The table after the two loops of a broadcast. -/
theorem dropAll_offerAll_state (line : ServerLine F) (w : Server F) :
    (dropAll (offerAll line w).1 (offerAll line w).2).state = w.state.broadcast line := by
  obtain ⟨h1, h2⟩ := foldl_offerLine line slots slots_nodup [] w
  have hunfold : offerAll line w = slots.foldl (offerLine line) ([], w) := rfl
  rw [dropAll_state, hunfold, h1, h2, ServerState.broadcast]
  refine ServerState.players_congr fun i => ?_
  cases hc : (w.state.players i).connected with
  | false => simp [Player.afterBroadcast, hc]
  | true =>
    cases hq : (w.state.players i).queueVia .broadcast line with
    | none => simp [Player.afterBroadcast, hc, hq]
    | some p => simp [Player.afterBroadcast, hc, hq]

/-- The slots that a broadcast drops. -/
theorem offerAll_eq_nil_iff (line : ServerLine F) (w : Server F) :
    (offerAll line w).1 = [] ↔ ¬overflows line w.state := by
  have h1 := (foldl_offerLine line slots slots_nodup [] w).1
  have hunfold : offerAll line w = slots.foldl (offerLine line) ([], w) := rfl
  rw [hunfold, h1, List.nil_append, List.filter_eq_nil_iff, overflows]
  simp only [mem_slots, true_implies, Bool.and_eq_true, Option.isNone_iff_eq_none, not_exists]

/-- A broadcast is its two loops, and a re-entrant call when somebody was dropped. -/
theorem queueBroadcastWith_eq (reeval : Server F → Server F) (line : ServerLine F)
    (w : Server F) :
    ∃ v : Server F, v.state = w.state.broadcast line ∧
      v = dropAll (offerAll line w).1 (offerAll line w).2 ∧
      (¬overflows line w.state → queueBroadcastWith reeval line w = v) ∧
      (overflows line w.state → queueBroadcastWith reeval line w = reeval v) := by
  refine ⟨_, dropAll_offerAll_state line w, rfl, ?_, ?_⟩
  · intro h
    rw [← offerAll_eq_nil_iff line w] at h
    unfold queueBroadcastWith
    split
    · rename_i v hv
      simp [hv, dropAll]
    · rename_i toDrop v hne hv
      rw [hv] at h
      exact absurd h hne
  · intro h
    unfold queueBroadcastWith
    split
    · rename_i v hv
      exact absurd h ((offerAll_eq_nil_iff line w).mp (by rw [hv]))
    · rename_i toDrop v hne hv
      rw [hv]

/-- A client with room keeps its slot. -/
theorem Player.afterBroadcast_of_some {line : ServerLine F} {p q : Player F}
    (hc : p.connected = true) (h : p.queueVia .broadcast line = some q) :
    p.afterBroadcast line = q := by
  simp [afterBroadcast, hc, h]

/-- A client without room is cleared. -/
theorem Player.afterBroadcast_of_none {line : ServerLine F} {p : Player F}
    (hc : p.connected = true) (h : p.queueVia .broadcast line = none) :
    p.afterBroadcast line = Player.cleared := by
  simp [afterBroadcast, hc, h]

/-- A free slot is skipped. -/
theorem Player.afterBroadcast_of_free {line : ServerLine F} {p : Player F}
    (hc : p.connected = false) : p.afterBroadcast line = p := by
  simp [afterBroadcast, hc]

/-- After a broadcast a slot is as before up to its send buffer, or cleared. -/
theorem Player.afterBroadcast_cases (line : ServerLine F) (p : Player F) :
    (∃ outbuf, p.afterBroadcast line = { p with outbuf := outbuf }) ∨
      (p.connected = true ∧ p.queueVia .broadcast line = none ∧
        p.afterBroadcast line = Player.cleared) := by
  by_cases hc : p.connected = true
  · cases hq : p.queueVia .broadcast line with
    | none => exact Or.inr ⟨hc, rfl, afterBroadcast_of_none hc hq⟩
    | some q =>
      left
      rw [afterBroadcast_of_some hc hq, queueVia_eq_some hq]
      exact ⟨_, rfl⟩
  · exact Or.inl ⟨p.outbuf, afterBroadcast_of_free (by simpa using hc)⟩

end BattleRoyale
