import BattleRoyale.Composition
import BattleRoyale.Exact

/-!
# The order of broadcasts

A broadcast is offered to everybody before anybody is dropped, and the re-entrant call
comes last. So the record of a step is made of complete broadcasts and of actions that
broadcast nothing, however deep the calls are nested. Between steps any two clients have
therefore been queued the same broadcasts since the later one of them connected.
-/

namespace BattleRoyale

open Recorded

variable {F : Type}

variable [CFloat F]

/-- Complete broadcasts, and other actions that connect nobody but a new client. -/
inductive InTurn : Server F → Server F → Prop
  | refl (w : Server F) : InTurn w w
  | quiet {w v : Server F} {e : Event F} {s : ServerState F} : InTurn w v →
      e.isBroadcast = false →
      (∀ k, e.accepts k = false → (s.players k).connected = true →
        (v.state.players k).connected = true) → InTurn w (v.record e s)
  | broadcast {w v : Server F} (line : ServerLine F) : InTurn w v →
      InTurn w (dropAll (offerAll line v).1 (offerAll line v).2)

section Calls

/-- One after another. -/
theorem InTurn.trans {u v w : Server F} (h : InTurn u v) (hnext : InTurn v w) :
    InTurn u w := by
  induction hnext with
  | refl => exact h
  | quiet _ he hs ih => exact .quiet ih he hs
  | broadcast line _ ih => exact .broadcast line ih

/-- One call of `queue_line` outside of a broadcast. -/
theorem queueTo_inTurn (via : Via) (hvia : via ≠ .broadcast) (line : ServerLine F) (i : Slot)
    (w : Server F) : InTurn w (queueTo via line i w).2 := by
  have hquiet : (Event.queued i via line).isBroadcast = false := by
    cases via with
    | broadcast => exact absurd rfl hvia
    | _ => rfl
  unfold queueTo
  split
  · rename_i p hp
    rw [Player.queueVia_eq_some hp]
    refine .quiet (.refl w) hquiet fun k _ hk => ?_
    rw [ServerState.setPlayer_players] at hk
    split at hk
    · rename_i hki
      rw [hki]
      exact hk
    · exact hk
  · exact .quiet (.refl w) rfl fun _ _ h => h

/-- Several lines in a row. -/
theorem queueSeq_inTurn (via : Via) (hvia : via ≠ .broadcast)
    (lines : List (Server F → ServerLine F)) (i : Slot) (w : Server F) :
    InTurn w (queueSeq via lines i w).2 := by
  induction lines generalizing w with
  | nil => exact .refl w
  | cons line lines ih =>
    have hcall := queueTo_inTurn via hvia (line w) i w
    unfold queueSeq
    split <;> rename_i v hq <;> rw [hq] at hcall
    · exact hcall.trans (ih v)
    · exact hcall

/-- A snapshot broadcasts nothing. -/
theorem sendSnapshot_inTurn (i : Slot) (w : Server F) : InTurn w (sendSnapshot i w) := by
  have hlines : InTurn w (queueGameStateForPlayer i w).2 := queueSeq_inTurn .checked nofun _ i w
  unfold sendSnapshot
  split <;> rename_i v hq <;> rw [hq] at hlines
  · exact hlines
  unfold dropSilently dropSlot
  split
  · refine hlines.trans (.quiet (.refl v) rfl fun k _ hk => ?_)
    rw [ServerState.setPlayer_players] at hk
    split at hk
    · cases hk
    · exact hk
  · exact hlines

/-- What is composed of such pieces goes in turn. -/
theorem Composed.inTurn {w v : Server F} (h : Composed w v) : InTurn w v := by
  induction h with
  | refl => exact .refl _
  | quiet _ he _ hs ih => exact .quiet ih he hs
  | broadcast line _ _ ih => exact .broadcast line ih
  | snapshot i _ _ ih => exact ih.trans (sendSnapshot_inTurn i _)

/-- A run goes in turn. -/
theorem Reached.inTurn {loopOnly : Bool} {w : Server F} (h : Reached loopOnly w) :
    ∃ clock, InTurn (Server.init clock) w := by
  obtain ⟨clock, hcomposed⟩ := h.composed
  exact ⟨clock, hcomposed.inTurn⟩

end Calls

section Heard

/-- The line of `queue_broadcast` that an entry has queued for a slot, if it has. -/
def heard (i : Slot) (x : Entry (ServerState F) (Event F)) : List (List Char) :=
  match x.event with
  | .queued j .broadcast line => if j = i then [Via.broadcast.sent line] else []
  | _ => []

/-- One of two slots was taken by a connection. -/
def Event.acceptsEither (i j : Slot) (e : Event F) : Bool := e.accepts i || e.accepts j

/-- The broadcasts for slot `i` since the later one of two clients connected. -/
def heardSince (i j : Slot) (log : Log F) (k : Slot) : List (List Char) :=
  gather (heard k) (since (Event.acceptsEither i j) log)

/-- Any two clients have been queued the same broadcasts since both are there. -/
def Synced (w : Server F) : Prop :=
  ∀ i j, (w.state.players i).connected = true → (w.state.players j).connected = true →
    heardSince i j w.log i = heardSince i j w.log j

theorem heard_eq_nil {x : Entry (ServerState F) (Event F)} (h : x.event.isBroadcast = false)
    (i : Slot) : heard i x = [] := by
  unfold heard
  split
  · rename_i hx
    rw [hx] at h
    cases h
  · rfl

/-- An action that broadcasts nothing keeps the clients together. -/
theorem Synced.quiet {w : Server F} (h : Synced w) {e : Event F} {s : ServerState F}
    (he : e.isBroadcast = false)
    (hs : ∀ k, e.accepts k = false → (s.players k).connected = true →
      (w.state.players k).connected = true) : Synced (w.record e s) := by
  intro i j hi hj
  unfold heardSince
  cases hstop : e.acceptsEither i j with
  | true =>
    -- One of the two is new: nothing was broadcast since.
    rw [System.record_log, since_cons_stop hstop]
    rfl
  | false =>
    obtain ⟨hai, haj⟩ := Bool.or_eq_false_iff.mp hstop
    rw [System.record_log, since_cons hstop, gather_cons, gather_cons, heard_eq_nil he,
      heard_eq_nil he, List.append_nil, List.append_nil]
    exact h i j (hs i hai hi) (hs j haj hj)

/-- The first loop of a broadcast: each client with room is queued the line once. -/
theorem foldl_offerLine_heard (line : ServerLine F) (is : List Slot) (his : is.Nodup)
    (acc : List Slot) (w : Server F) :
    ∃ new, (is.foldl (offerLine line) (acc, w)).2.log = new ++ w.log ∧
      (∀ x ∈ new, ∀ i, x.event.accepts i = false) ∧
      ∀ i, gather (heard i) new =
        if i ∈ is ∧ (w.state.players i).connected = true ∧
          ((w.state.players i).queueVia .broadcast line).isSome = true
        then [Via.broadcast.sent line] else [] := by
  induction is generalizing acc w with
  | nil => exact ⟨[], rfl, fun _ h => absurd h List.not_mem_nil, fun i => by simp [gather]⟩
  | cons i is ih =>
    obtain ⟨hi, his⟩ := List.nodup_cons.mp his
    rw [List.foldl_cons]
    by_cases hc : (w.state.players i).connected = true
    swap
    · have hskip : offerLine line (acc, w) i = (acc, w) := by simp [offerLine, hc]
      rw [hskip]
      obtain ⟨new, hlog, haccepts, hnew⟩ := ih his acc w
      refine ⟨new, hlog, haccepts, fun k => ?_⟩
      rw [hnew k]
      refine if_congr ?_ rfl rfl
      constructor
      · exact fun h => ⟨List.mem_cons_of_mem _ h.1, h.2⟩
      · rintro ⟨hk, hconn, hroom⟩
        rcases List.mem_cons.mp hk with rfl | hk
        · exact absurd hconn hc
        · exact ⟨hk, hconn, hroom⟩
    cases hq : (w.state.players i).queueVia .broadcast line with
    | none =>
      have hstep : offerLine line (acc, w) i =
          (acc ++ [i], w.record (.refused i .broadcast line) w.state) := by
        simp [offerLine, hc, queueTo, hq]
      rw [hstep]
      obtain ⟨new, hlog, haccepts, hnew⟩ :=
        ih his (acc ++ [i]) (w.record (.refused i .broadcast line) w.state)
      refine ⟨new ++ [⟨.refused i .broadcast line, w.state⟩], ?_, ?_, fun k => ?_⟩
      · rw [hlog, System.record_log, List.append_assoc]
        rfl
      · rintro x hx k
        rcases List.mem_append.mp hx with hx | hx
        · exact haccepts x hx k
        · rw [List.mem_singleton.mp hx]
          rfl
      · rw [gather_append, hnew k]
        show [] ++ _ = _
        rw [List.nil_append]
        refine if_congr ?_ rfl rfl
        constructor
        · exact fun h => ⟨List.mem_cons_of_mem _ h.1, h.2⟩
        · rintro ⟨hk, hconn, hroom⟩
          rcases List.mem_cons.mp hk with rfl | hk
          · rw [hq] at hroom
            cases hroom
          · exact ⟨hk, hconn, hroom⟩
    | some p =>
      have hstep : offerLine line (acc, w) i =
          (acc, w.record (.queued i .broadcast line) (w.state.setPlayer i p)) := by
        simp [offerLine, hc, queueTo, hq]
      rw [hstep]
      obtain ⟨new, hlog, haccepts, hnew⟩ :=
        ih his acc (w.record (.queued i .broadcast line) (w.state.setPlayer i p))
      refine ⟨new ++ [⟨.queued i .broadcast line, w.state.setPlayer i p⟩], ?_, ?_, fun k => ?_⟩
      · rw [hlog, System.record_log, List.append_assoc]
        rfl
      · rintro x hx k
        rcases List.mem_append.mp hx with hx | hx
        · exact haccepts x hx k
        · rw [List.mem_singleton.mp hx]
          rfl
      · rw [gather_append, hnew k]
        by_cases hki : k = i
        · subst hki
          rw [if_neg fun h => hi h.1, if_pos ⟨List.mem_cons_self, hc, by rw [hq]; rfl⟩]
          exact (List.append_nil _).trans (if_pos rfl)
        · have hother : heard k (⟨.queued i .broadcast line, w.state.setPlayer i p⟩ :
              Entry (ServerState F) (Event F)) = [] := if_neg fun h => hki h.symm
          rw [gather_cons, hother]
          show [] ++ _ = _
          rw [List.nil_append, System.record_state, ServerState.setPlayer_of_ne _ _ hki]
          refine if_congr ?_ rfl rfl
          constructor
          · exact fun h => ⟨List.mem_cons_of_mem _ h.1, h.2⟩
          · rintro ⟨hk, hrest⟩
            exact ⟨(List.mem_cons.mp hk).resolve_left hki, hrest⟩

/-- The second loop of a broadcast queues nothing. -/
theorem dropAll_heard (is : List Slot) (w : Server F) :
    ∃ new, (dropAll is w).log = new ++ w.log ∧ (∀ x ∈ new, ∀ i, x.event.accepts i = false) ∧
      ∀ i, gather (heard i) new = [] := by
  have hpath : Path Action (fun e => ∃ i name, e = .dropped i false name) w (dropAll is w) :=
    dropAll_path (fun i name => ⟨i, name, rfl⟩) is w
  obtain ⟨new, hlog, hnew⟩ := hpath.log_eq
  refine ⟨new, hlog, fun x hx k => ?_, fun k => gather_eq_nil fun x hx => ?_⟩
  · obtain ⟨i, name, he⟩ := hnew x hx
    rw [he]
    rfl
  · obtain ⟨i, name, he⟩ := hnew x hx
    exact heard_eq_nil (by rw [he]; rfl) k

/-- A complete broadcast is queued once for everybody who is still there. -/
theorem broadcast_heard (line : ServerLine F) (w : Server F) :
    ∃ new, (dropAll (offerAll line w).1 (offerAll line w).2).log = new ++ w.log ∧
      (∀ x ∈ new, ∀ i, x.event.accepts i = false) ∧
      ∀ i, ((dropAll (offerAll line w).1 (offerAll line w).2).state.players i).connected = true →
        (w.state.players i).connected = true ∧
          gather (heard i) new = [Via.broadcast.sent line] := by
  obtain ⟨offered, hoffered, haccepts, hheard⟩ :=
    foldl_offerLine_heard line slots slots_nodup [] w
  have hunfold : offerAll line w = slots.foldl (offerLine line) ([], w) := rfl
  rw [← hunfold] at hoffered
  obtain ⟨dropped, hdropped, haccepts', hsilent⟩ :=
    dropAll_heard (offerAll line w).1 (offerAll line w).2
  refine ⟨dropped ++ offered, ?_, fun x hx => ?_, fun i hi => ?_⟩
  · rw [hdropped, hoffered, List.append_assoc]
  · rcases List.mem_append.mp hx with hx | hx
    · exact haccepts' x hx
    · exact haccepts x hx
  · rw [dropAll_offerAll_state] at hi
    obtain ⟨hconn, hroom⟩ := ServerState.broadcast_of_connected hi
    have hsome : ((w.state.players i).queueVia .broadcast line).isSome = true := by
      cases hq : (w.state.players i).queueVia .broadcast line with
      | some p => rfl
      | none =>
        have hcleared : (w.state.broadcast line).players i = Player.cleared :=
          Player.afterBroadcast_of_none hconn hq
        rw [hcleared] at hi
        cases hi
    refine ⟨hconn, ?_⟩
    rw [gather_append, hheard i, hsilent i, if_pos ⟨mem_slots i, hconn, hsome⟩]
    rfl

/-- A complete broadcast keeps the clients together. -/
theorem Synced.broadcast {w : Server F} (h : Synced w) (line : ServerLine F) :
    Synced (dropAll (offerAll line w).1 (offerAll line w).2) := by
  intro i j hi hj
  obtain ⟨new, hlog, haccepts, hheard⟩ := broadcast_heard line w
  obtain ⟨hci, hgi⟩ := hheard i hi
  obtain ⟨hcj, hgj⟩ := hheard j hj
  have hstop : ∀ x ∈ new, Event.acceptsEither i j x.event = false := by
    intro x hx
    rw [Event.acceptsEither, haccepts x hx i, haccepts x hx j]
    rfl
  unfold heardSince
  rw [hlog, since_append hstop, gather_append, gather_append, hgi, hgj]
  exact congrArg (· ++ [Via.broadcast.sent line]) (h i j hci hcj)

/-- Complete broadcasts and other actions keep the clients together. -/
theorem InTurn.synced {w v : Server F} (h : InTurn w v) (hw : Synced w) : Synced v := by
  induction h with
  | refl => exact hw
  | quiet _ he hs ih => exact ih.quiet he hs
  | broadcast line _ ih => exact ih.broadcast line

/-- Any two clients that are connected between two steps have been queued the same
broadcasts, in the same order, since the later one of them connected. -/
theorem broadcasts_in_order {loopOnly : Bool} {w : Server F} (hw : Reached loopOnly w)
    (i j : Slot) (hi : (w.state.players i).connected = true)
    (hj : (w.state.players j).connected = true) :
    heardSince i j w.log i = heardSince i j w.log j := by
  obtain ⟨clock, hturns⟩ := hw.inTurn
  refine hturns.synced (fun k _ hk _ => ?_) i j hi hj
  cases hk

/-- The two players of a duel, since the second one connected. -/
theorem broadcasts_in_order_duel :
    heardSince 0 1 (serverAfter (lateClock 60) duel).log 0 =
      heardSince 0 1 (serverAfter (lateClock 60) duel).log 1 := by
  obtain ⟨_, hfirst, hsecond, _⟩ := duel_state
  exact broadcasts_in_order duel_reached 0 1
    (Player.connected_of_isAdmitted (Player.isAdmitted_of_isAlive hfirst))
    (Player.connected_of_isAdmitted (Player.isAdmitted_of_isAlive hsecond))

end Heard

end BattleRoyale
