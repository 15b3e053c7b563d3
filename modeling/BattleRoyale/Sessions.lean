import BattleRoyale.Transport

/-!
# Sessions

A slot is used by one connection after the other, and a connection is named by its
identifier. The record is read once more with an eye on one identifier: the bytes received
and the lines processed while it occupied its slot, the bytes queued and the bytes sent.
Lines come from the bytes of the same session and bytes sent were queued in it, at every
moment of every run.
-/

namespace BattleRoyale

open Recorded Framing

variable {F : Type}

section Histories

/-- The bytes that an entry has received for a connection. -/
def receivedPart (n : ℕ) (x : Entry (ServerState F) (Event F)) : List Char :=
  match x.event with
  | .received i bytes => if (x.state.players i).id = n then bytes else []
  | _ => []

/-- The line that an entry has taken from a connection. -/
def linePart (n : ℕ) (x : Entry (ServerState F) (Event F)) : List (List Char) :=
  match x.event with
  | .popped i line => if (x.state.players i).id = n then [line] else []
  | _ => []

/-- The bytes that an entry has sent on a connection. -/
def sentPart (n : ℕ) (x : Entry (ServerState F) (Event F)) : List Char :=
  match x.event with
  | .flushed i bytes => if (x.state.players i).id = n then bytes else []
  | _ => []

variable [CFloat F]

/-- The bytes that an entry has queued for a connection. -/
def queuedPart (n : ℕ) (x : Entry (ServerState F) (Event F)) : List Char :=
  match x.event with
  | .queued i via line => if (x.state.players i).id = n then via.sent line ++ ['\n'] else []
  | _ => []

/-- All bytes received on a connection. -/
def receivedBy (n : ℕ) (log : Log F) : List Char := gather (receivedPart n) log

/-- All lines taken from a connection. -/
def linesOf (n : ℕ) (log : Log F) : List (List Char) := gather (linePart n) log

/-- All bytes sent on a connection. -/
def sentTo (n : ℕ) (log : Log F) : List Char := gather (sentPart n) log

/-- All bytes queued for a connection. -/
def queuedFor (n : ℕ) (log : Log F) : List Char := gather (queuedPart n) log

end Histories

/-- The slot that an entry of the transport is about. -/
def Event.channel : Event F → Option Slot
  | .received i _ => some i
  | .popped i _ => some i
  | .flushed i _ => some i
  | .queued i _ _ => some i
  | _ => none

/-- The parts of a slot that belong to its connection. -/
def Player.session (p : Player F) : Bool × ℕ × List Char × List Char :=
  (p.connected, p.id, p.inbuf, p.outbuf)

section Parts

variable [CFloat F] {n : ℕ} {x : Entry (ServerState F) (Event F)}

/-- An entry that is not about the transport contributes nothing. -/
theorem parts_of_quiet (h : x.event.channel = none) :
    receivedPart n x = [] ∧ linePart n x = [] ∧ sentPart n x = [] ∧ queuedPart n x = [] := by
  obtain ⟨e, s⟩ := x
  cases e <;> first | exact ⟨rfl, rfl, rfl, rfl⟩ | cases h

/-- An entry about another connection contributes nothing. -/
theorem parts_of_other {i : Slot} (h : x.event.channel = some i)
    (hid : (x.state.players i).id ≠ n) :
    receivedPart n x = [] ∧ linePart n x = [] ∧ sentPart n x = [] ∧ queuedPart n x = [] := by
  obtain ⟨e, s⟩ := x
  cases e with
  | received j bytes =>
    cases h
    exact ⟨if_neg hid, rfl, rfl, rfl⟩
  | popped j line =>
    cases h
    exact ⟨rfl, if_neg hid, rfl, rfl⟩
  | flushed j bytes =>
    cases h
    exact ⟨rfl, rfl, if_neg hid, rfl⟩
  | queued j via line =>
    cases h
    exact ⟨rfl, rfl, rfl, if_neg hid⟩
  | _ => cases h

end Parts

/-- What the histories say about the client of a slot: its lines are those of its bytes,
the rest waits in the receive buffer, and the bytes queued for it were sent or wait in the
send buffer. -/
structure SessionOk [CFloat F] (p : Player F) (log : Log F) : Prop where
  /-- Lines processed and lines waiting are the lines of the bytes received. -/
  lines : linesOf p.id log ++ (frames '\n' p.inbuf).1.map (lineOf MAX_LINE) =
    (frames '\n' (receivedBy p.id log)).1.map (lineOf MAX_LINE)
  /-- So is the unterminated rest. -/
  tail : (frames '\n' p.inbuf).2 = (frames '\n' (receivedBy p.id log)).2
  /-- Bytes sent and bytes waiting are the bytes queued. -/
  bytes : sentTo p.id log ++ p.outbuf = queuedFor p.id log

/-- The sessions of all connected clients, and what keeps them apart. -/
structure Sessions [CFloat F] (w : Server F) : Prop where
  /-- The session of a connected client. -/
  session : ∀ i, (w.state.players i).connected = true → SessionOk (w.state.players i) w.log
  /-- A connected client has a positive identifier. -/
  id_pos : ∀ i, (w.state.players i).connected = true → 0 < (w.state.players i).id
  /-- A free slot has none, and no received bytes. -/
  free : ∀ i, (w.state.players i).connected = false →
    (w.state.players i).id = 0 ∧ (w.state.players i).inbuf = []
  /-- Identifiers in the record have been given away. -/
  given : 0 < w.state.nextId ∧
    ∀ x ∈ w.log, ∀ i, x.event.channel = some i → (x.state.players i).id < w.state.nextId

variable [CFloat F]

/-- A session to which an entry contributes nothing. -/
theorem SessionOk.quiet {p q : Player F} {log : Log F} (h : SessionOk p log)
    (hsame : q.session = p.session) {x : Entry (ServerState F) (Event F)}
    (hx : receivedPart q.id x = [] ∧ linePart q.id x = [] ∧ sentPart q.id x = [] ∧
      queuedPart q.id x = []) : SessionOk q (x :: log) := by
  simp only [Player.session, Prod.mk.injEq] at hsame
  obtain ⟨_, hid, hin, hout⟩ := hsame
  obtain ⟨hreceived, hline, hsent, hqueued⟩ := hx
  constructor
  · rw [linesOf, receivedBy, gather_cons, gather_cons, hline, hreceived, List.append_nil,
      List.append_nil, hid, hin]
    exact h.lines
  · rw [receivedBy, gather_cons, hreceived, List.append_nil, hid, hin]
    exact h.tail
  · rw [sentTo, queuedFor, gather_cons, gather_cons, hsent, hqueued, List.append_nil,
      List.append_nil, hid, hout]
    exact h.bytes

/-- An action that is not about the transport leaves all sessions as they are, and frees a
slot by clearing it. -/
theorem Sessions.quiet {w : Server F} (h : Sessions w) {e : Event F} {s : ServerState F}
    (he : e.channel = none) (hnext : w.state.nextId ≤ s.nextId)
    (hslot : ∀ i, (s.players i).session = (w.state.players i).session ∨
      ((s.players i).connected = false ∧ (s.players i).id = 0 ∧ (s.players i).inbuf = [])) :
    Sessions (w.record e s) where
  session i hi := by
    rcases hslot i with hsame | ⟨hgone, _⟩
    · have hconn : (w.state.players i).connected = true := by
        simp only [Player.session, Prod.mk.injEq] at hsame
        rw [← hsame.1]
        exact hi
      exact (h.session i hconn).quiet hsame (parts_of_quiet he)
    · rw [System.record_state, hgone] at hi
      cases hi
  id_pos i hi := by
    rcases hslot i with hsame | ⟨hgone, _⟩
    · simp only [Player.session, Prod.mk.injEq] at hsame
      rw [System.record_state] at hi ⊢
      rw [hsame.2.1]
      exact h.id_pos i (hsame.1 ▸ hi)
    · rw [System.record_state, hgone] at hi
      cases hi
  free i hi := by
    rw [System.record_state] at hi ⊢
    rcases hslot i with hsame | ⟨_, hfree⟩
    · simp only [Player.session, Prod.mk.injEq] at hsame
      rw [hsame.2.1, hsame.2.2.1]
      exact h.free i (hsame.1 ▸ hi)
    · exact hfree
  given := by
    refine ⟨h.given.1.trans_le hnext, fun x hx i hchannel => ?_⟩
    rcases List.mem_cons.mp hx with rfl | hx
    · rw [he] at hchannel
      cases hchannel
    · exact (h.given.2 x hx i hchannel).trans_le hnext

/-- An action of the transport at one slot: it keeps the identity of the slot, and the
session there has to be looked at. -/
theorem Sessions.transport {w : Server F} (h : Sessions w) (hw : Inv w) {e : Event F}
    {i : Slot} {p : Player F} (he : e.channel = some i)
    (hp : p.connected = (w.state.players i).connected ∧ p.id = (w.state.players i).id)
    (hfree : p.connected = false → p.inbuf = [])
    (hsession : (w.state.players i).connected = true →
      SessionOk (w.state.players i) w.log →
        SessionOk p (⟨e, w.state.setPlayer i p⟩ :: w.log)) :
    Sessions (w.record e (w.state.setPlayer i p)) where
  session j hj := by
    rw [System.record_state, ServerState.setPlayer_players] at hj ⊢
    rw [System.record_log]
    by_cases hji : j = i
    · subst hji
      rw [if_pos rfl] at hj ⊢
      have hconn := hp.1 ▸ hj
      exact hsession hconn (h.session j hconn)
    · rw [if_neg hji] at hj ⊢
      refine (h.session j hj).quiet rfl (parts_of_other he ?_)
      rw [ServerState.setPlayer_self, hp.2]
      -- The other slot belongs to another connection, or to none.
      intro hid
      cases hconn : (w.state.players i).connected with
      | true => exact hji (hw.identified.id_inj j i hj hconn hid.symm)
      | false =>
        have hpos := h.id_pos j hj
        rw [← hid, (h.free i hconn).1] at hpos
        omega
  id_pos j hj := by
    rw [System.record_state, ServerState.setPlayer_players] at hj ⊢
    split
    · rename_i hji
      rw [if_pos hji, hp.1] at hj
      rw [hp.2]
      exact h.id_pos i hj
    · rename_i hji
      rw [if_neg hji] at hj
      exact h.id_pos j hj
  free j hj := by
    rw [System.record_state, ServerState.setPlayer_players] at hj ⊢
    split
    · rename_i hji
      rw [if_pos hji] at hj
      refine ⟨?_, hfree hj⟩
      rw [hp.2]
      exact (h.free i (hp.1 ▸ hj)).1
    · rename_i hji
      rw [if_neg hji] at hj
      exact h.free j hj
  given := by
    refine ⟨h.given.1, fun x hx j hchannel => ?_⟩
    rcases List.mem_cons.mp hx with rfl | hx
    · rw [he] at hchannel
      cases hchannel
      rw [ServerState.setPlayer_self, hp.2]
      cases hconn : (w.state.players i).connected with
      | true => exact hw.identified.id_lt i hconn
      | false =>
        rw [(h.free i hconn).1]
        exact h.given.1
    · exact h.given.2 x hx j hchannel

/-- Received bytes extend the stream. -/
theorem SessionOk.receive {p : Player F} {log : Log F} (h : SessionOk p log) {i : Slot}
    {bytes : List Char} {s : ServerState F} (hid : (s.players i).id = p.id) :
    SessionOk { p with inbuf := p.inbuf ++ bytes } (⟨.received i bytes, s⟩ :: log) := by
  have hpart : receivedPart p.id (⟨.received i bytes, s⟩ : Entry (ServerState F) (Event F)) =
      bytes := by simp [receivedPart, hid]
  refine ⟨?_, ?_, ?_⟩
  · show linesOf p.id log ++ [] ++ _ = _
    rw [receivedBy, gather_cons, hpart, List.append_nil, frames_append p.inbuf,
      frames_append (gather (receivedPart p.id) log), List.map_append, List.map_append,
      ← List.append_assoc, h.lines, h.tail]
    rfl
  · rw [receivedBy, gather_cons, hpart, frames_append p.inbuf,
      frames_append (gather (receivedPart p.id) log), h.tail]
    rfl
  · show sentTo p.id log ++ [] ++ p.outbuf = queuedFor p.id log ++ []
    rw [List.append_nil, List.append_nil]
    exact h.bytes

omit [CFloat F] in
/-- The line taken is the first segment of the buffer. -/
theorem Player.popLine_frames {p : Player F} {line inbuf : List Char} {n : ℕ}
    (h : p.popLine n = some (line, { p with inbuf := inbuf })) :
    ∃ segment, line = lineOf n segment ∧
      frames '\n' p.inbuf = (segment :: (frames '\n' inbuf).1, (frames '\n' inbuf).2) := by
  have hmem : '\n' ∈ p.inbuf := by
    by_contra hmem
    rw [popLine_eq_none.mpr hmem] at h
    cases h
  obtain ⟨segment, rest, hinbuf, hsegment⟩ := List.eq_append_cons_of_mem hmem
  rw [popLine_append n hsegment hinbuf] at h
  simp only [Option.some.injEq, Prod.mk.injEq] at h
  have hrest : rest = inbuf := congrArg Player.inbuf h.2
  subst hrest
  exact ⟨segment, h.1.symm, by rw [hinbuf, frames_append_sep hsegment]⟩

/-- A line taken is the next one of the stream. -/
theorem SessionOk.pop {p : Player F} {log : Log F} (h : SessionOk p log) {i : Slot}
    {line inbuf : List Char} {s : ServerState F} (hid : (s.players i).id = p.id)
    (hpop : p.popLine MAX_LINE = some (line, { p with inbuf := inbuf })) :
    SessionOk { p with inbuf := inbuf } (⟨.popped i line, s⟩ :: log) := by
  obtain ⟨segment, rfl, hframes⟩ := Player.popLine_frames hpop
  have hpart : linePart p.id
      (⟨.popped i (lineOf MAX_LINE segment), s⟩ : Entry (ServerState F) (Event F)) =
        [lineOf MAX_LINE segment] := by simp [linePart, hid]
  have hlines := h.lines
  have htail := h.tail
  rw [hframes] at hlines htail
  refine ⟨?_, ?_, ?_⟩
  · rw [linesOf, gather_cons, hpart]
    show _ = (frames '\n' (receivedBy p.id log ++ [])).1.map _
    rw [List.append_nil, ← hlines, List.map_cons]
    simp only [linesOf, List.append_assoc, List.singleton_append]
  · show _ = (frames '\n' (receivedBy p.id log ++ [])).2
    rw [List.append_nil]
    exact htail
  · show sentTo p.id log ++ [] ++ p.outbuf = queuedFor p.id log ++ []
    rw [List.append_nil, List.append_nil]
    exact h.bytes

/-- Bytes sent come from the head of the send buffer. -/
theorem SessionOk.flush {p : Player F} {log : Log F} (h : SessionOk p log) {i : Slot} {n : ℕ}
    {s : ServerState F} (hid : (s.players i).id = p.id) :
    SessionOk { p with outbuf := p.outbuf.drop n }
      (⟨.flushed i (p.outbuf.take n), s⟩ :: log) := by
  have hpart : sentPart p.id
      (⟨.flushed i (p.outbuf.take n), s⟩ : Entry (ServerState F) (Event F)) =
        p.outbuf.take n := by simp [sentPart, hid]
  refine ⟨?_, ?_, ?_⟩
  · show linesOf p.id log ++ [] ++ _ = (frames '\n' (receivedBy p.id log ++ [])).1.map _
    rw [List.append_nil, List.append_nil]
    exact h.lines
  · show _ = (frames '\n' (receivedBy p.id log ++ [])).2
    rw [List.append_nil]
    exact h.tail
  · rw [sentTo, gather_cons, hpart]
    show _ = queuedFor p.id log ++ []
    rw [List.append_nil, List.append_assoc, List.take_append_drop]
    exact h.bytes

/-- A queued line extends the send buffer. -/
theorem SessionOk.queue {p : Player F} {log : Log F} (h : SessionOk p log) {i : Slot}
    {via : Via} {line : ServerLine F} {s : ServerState F} (hid : (s.players i).id = p.id) :
    SessionOk { p with outbuf := p.outbuf ++ (via.sent line ++ ['\n']) }
      (⟨.queued i via line, s⟩ :: log) := by
  have hpart : queuedPart p.id
      (⟨.queued i via line, s⟩ : Entry (ServerState F) (Event F)) =
        via.sent line ++ ['\n'] := by simp [queuedPart, hid]
  refine ⟨?_, ?_, ?_⟩
  · show linesOf p.id log ++ [] ++ _ = (frames '\n' (receivedBy p.id log ++ [])).1.map _
    rw [List.append_nil, List.append_nil]
    exact h.lines
  · show _ = (frames '\n' (receivedBy p.id log ++ [])).2
    rw [List.append_nil]
    exact h.tail
  · rw [queuedFor, gather_cons, hpart]
    show sentTo p.id log ++ [] ++ _ = _
    rw [List.append_nil, ← List.append_assoc, h.bytes]
    rfl

/-- A new connection starts with an empty session: nobody had its identifier. -/
theorem Sessions.accept {w : Server F} (h : Sessions w) {i : Slot} {fd : ℤ} :
    Sessions (w.record (.accepted i)
      { w.state.setPlayer i (initPlayerSlot fd w.state.nextId) with
        nextId := w.state.nextId + 1 }) := by
  have hfresh : ∀ x ∈ w.log,
      receivedPart w.state.nextId x = [] ∧ linePart w.state.nextId x = [] ∧
        sentPart w.state.nextId x = [] ∧ queuedPart w.state.nextId x = [] := by
    intro x hx
    cases hchannel : x.event.channel with
    | none => exact parts_of_quiet hchannel
    | some j =>
      have hlt := h.given.2 x hx j hchannel
      exact parts_of_other hchannel (by omega)
  have hplayers : ∀ j, ((w.state.setPlayer i
      (initPlayerSlot fd w.state.nextId)).players j) =
        if j = i then initPlayerSlot fd w.state.nextId else w.state.players j :=
    fun j => ServerState.setPlayer_players ..
  constructor
  · intro j hj
    simp only [System.record_state, System.record_log, hplayers] at hj ⊢
    by_cases hji : j = i
    · rw [if_pos hji]
      have hquiet : ∀ (x : Entry (ServerState F) (Event F)), x.event = .accepted i →
          receivedPart w.state.nextId x = [] ∧ linePart w.state.nextId x = [] ∧
            sentPart w.state.nextId x = [] ∧ queuedPart w.state.nextId x = [] :=
        fun x hx => parts_of_quiet (by rw [hx]; rfl)
      have hall : ∀ {α : Type} {part : Entry (ServerState F) (Event F) → List α},
          (∀ x ∈ w.log, part x = []) →
          (∀ x : Entry (ServerState F) (Event F), x.event = .accepted i → part x = []) →
          ∀ s, gather part (⟨.accepted i, s⟩ :: w.log) = [] := by
        intro α part hold hnew s
        rw [gather_cons, gather_eq_nil hold, hnew _ rfl]
        rfl
      have hid : (initPlayerSlot fd w.state.nextId : Player F).id = w.state.nextId := rfl
      constructor
      · rw [hid, linesOf, receivedBy, hall (fun x hx => (hfresh x hx).2.1)
          fun x hx => (hquiet x hx).2.1, hall (fun x hx => (hfresh x hx).1)
          fun x hx => (hquiet x hx).1]
        rfl
      · rw [hid, receivedBy, hall (fun x hx => (hfresh x hx).1) fun x hx => (hquiet x hx).1]
        rfl
      · rw [hid, sentTo, queuedFor, hall (fun x hx => (hfresh x hx).2.2.1)
          fun x hx => (hquiet x hx).2.2.1, hall (fun x hx => (hfresh x hx).2.2.2)
          fun x hx => (hquiet x hx).2.2.2]
        rfl
    · rw [if_neg hji] at hj ⊢
      exact (h.session j hj).quiet rfl (parts_of_quiet rfl)
  · intro j hj
    simp only [System.record_state, hplayers] at hj ⊢
    split
    · exact h.given.1
    · rename_i hji
      rw [if_neg hji] at hj
      exact h.id_pos j hj
  · intro j hj
    simp only [System.record_state, hplayers] at hj ⊢
    split
    · rename_i hji
      rw [if_pos hji] at hj
      cases hj
    · rename_i hji
      rw [if_neg hji] at hj
      exact h.free j hj
  · refine ⟨Nat.succ_pos _, fun x hx j hchannel => ?_⟩
    rcases List.mem_cons.mp hx with rfl | hx
    · cases hchannel
    · exact (h.given.2 x hx j hchannel).trans (Nat.lt_succ_self _)

omit [CFloat F] in
/-- Replacing one entry by one with the same session. -/
theorem session_setPlayer {s : ServerState F} {i : Slot} {p : Player F}
    (hp : p.session = (s.players i).session) (j : Slot) :
    ((s.setPlayer i p).players j).session = (s.players j).session := by
  rw [ServerState.setPlayer_players]
  split
  · rename_i hji
    rw [hp, hji]
  · rfl

/-- Every action keeps the sessions. -/
theorem Action.sessions {w : Server F} {e : Event F} {s : ServerState F} (h : Action w e s)
    (hw : Inv w) (hS : Sessions w) : Sessions (w.record e s) := by
  cases h with
  | accept hfree => exact hS.accept
  | @receive i bytes hconn =>
    refine hS.transport hw rfl ⟨rfl, rfl⟩ (fun hgone => ?_) fun _ hok => hok.receive (by simp)
    rw [show (w.state.players i).connected = false from hgone] at hconn
    cases hconn
  | @pop i line inbuf hconn hpop =>
    refine hS.transport hw rfl ⟨rfl, rfl⟩ (fun hgone => ?_) fun _ hok => hok.pop (by simp) hpop
    rw [show (w.state.players i).connected = false from hgone] at hconn
    cases hconn
  | @flush i n hconn =>
    exact hS.transport hw rfl ⟨rfl, rfl⟩ (fun hgone => (hS.free i hgone).2)
      fun _ hok => hok.flush (by simp)
  | @queue i via line p hconn hline hqueue =>
    rw [Player.queueVia_eq_some hqueue]
    exact hS.transport hw rfl ⟨rfl, rfl⟩ (fun hgone => (hS.free i hgone).2)
      fun _ hok => hok.queue (by simp)
  | refuse hqueue => exact hS.quiet rfl le_rfl fun _ => .inl rfl
  | @drop i announce hconn =>
    refine hS.quiet rfl le_rfl fun j => ?_
    rw [ServerState.setPlayer_players]
    split
    · exact .inr ⟨rfl, rfl, rfl⟩
    · exact .inl rfl
  | register hconn hnew hvalid hunused =>
    exact hS.quiet rfl le_rfl fun j => .inl (session_setPlayer (by rfl) j)
  | choose hreg hout hchoice =>
    exact hS.quiet rfl le_rfl fun j => .inl (session_setPlayer (by rfl) j)
  | spawn hreg hout hrange hfree =>
    exact hS.quiet rfl le_rfl fun j => .inl (session_setPlayer (by rfl) j)
  | submit hphase halive hnew hchoice =>
    exact hS.quiet rfl le_rfl fun j => .inl (session_setPlayer (by rfl) j)
  | openLobby hreg hphase hidle => exact hS.quiet rfl le_rfl fun _ => .inl rfl
  | enter hphase hplayer hcount =>
    exact hS.quiet rfl le_rfl fun j => .inl (session_setPlayer (by rfl) j)
  | cancel hphase hempty => exact hS.quiet rfl le_rfl fun _ => .inl rfl
  | closeLobby hphase hcount htime => exact hS.quiet rfl le_rfl fun _ => .inl rfl
  | start hphase horder =>
    refine hS.quiet rfl le_rfl fun j => .inl ?_
    simp only [startRound, Player.enterRound]
    split <;> rfl
  | finish hphase horder hwhy => exact hS.quiet rfl le_rfl fun _ => .inl rfl
  | applyRepicks hphase hall =>
    refine hS.quiet rfl le_rfl fun j => .inl ?_
    simp only [Player.applyRepick]
    split <;> rfl
  | enterRepick hphase hround hresolved => exact hS.quiet rfl le_rfl fun _ => .inl rfl
  | @tick dt hphase =>
    have hchase := simulateChaseTick_chased w.state dt
    refine hS.quiet rfl (by rw [hchase.table]) fun j => .inl ?_
    obtain ⟨alive, x, y, hp⟩ := hchase.player j
    rw [hp]
    rfl
  | resolve hphase => exact hS.quiet rfl le_rfl fun _ => .inl rfl
  | @pair a b x y hphase hround hresolved =>
    exact hS.quiet rfl le_rfl fun j =>
      .inl ((session_setPlayer (by rfl) j).trans (session_setPlayer (by rfl) j))
  | clearRound hphase hresolved => exact hS.quiet rfl le_rfl fun _ => .inl rfl
  | reset hphase => exact hS.quiet rfl le_rfl fun _ => .inl rfl
  | resetProgress hreg hphase =>
    exact hS.quiet rfl le_rfl fun j => .inl (session_setPlayer (by rfl) j)

/-- A step is a path of actions. -/
theorem Loop.step_path {l : Loop F} (hl : Inv l.server) (x : Step) :
    Path Action (fun _ => True) l.server (l.step x).server := by
  rcases Loop.step_acts hl x with hpath | ⟨v, hpath, hover, hv⟩ | ⟨_, hphase, hv⟩
  · exact hpath.mono fun _ _ => trivial
  · rw [hv]
    exact (hpath.mono fun _ _ => trivial).trans ((resetMatch_runs hover).mono fun _ _ => trivial)
  · rw [hv]
    exact (Path.single trivial (.resolve hphase)).trans
      ((resolveRound_acts hl hphase).mono fun _ _ => trivial)

/-- Every step keeps the sessions. -/
theorem Loop.step_sessions {l : Loop F} (hl : Inv l.server) (hS : Sessions l.server) (x : Step) :
    Sessions (l.step x).server :=
  ((Loop.step_path hl x).invariant (fun v => Inv v ∧ Sessions v)
    (fun _ _ _ _ hstep hv => ⟨hstep.inv hv.1, hstep.sessions hv.1 hv.2⟩) ⟨hl, hS⟩).2

/-- There are no sessions at the start. -/
theorem Sessions.init (clock : ℕ → ℤ) : Sessions (Server.init clock : Server F) where
  session i hi := by cases hi
  id_pos i hi := by cases hi
  free i _ := ⟨rfl, rfl⟩
  given := by
    refine ⟨Nat.one_pos, fun x hx i hchannel => ?_⟩
    rcases List.mem_singleton.mp hx with rfl
    cases hchannel

/-- The sessions of every reached state. -/
theorem Reached.sessions {loopOnly : Bool} {w : Server F} (h : Reached loopOnly w) :
    Sessions w := by
  obtain ⟨clock, hpath⟩ := h.path
  exact (hpath.invariant (fun v => Inv v ∧ Sessions v)
    (fun v e s _ hstep hv => ⟨hstep.inv hv.1, hstep.sessions hv.1 hv.2⟩)
    ⟨Inv.init clock, .init clock⟩).2

/-- The inner loop of `process_player_reads`, for so many passes: it takes lines from the
slot without a look at the connection. -/
def readLines (i : Slot) : ℕ → Server F → Server F
  | 0, w => w
  | passes + 1, w =>
    match (w.state.players i).popLine MAX_LINE with
    | none => w
    | some (line, p) =>
      readLines i passes
        (handleCommand i line (w.record (.popped i line) (w.state.setPlayer i p)))

/-- One pass without the look at the connection is a step: a free slot has no line. -/
theorem commandPlayer_eq {w : Server F} (hS : Sessions w) (i : Slot) :
    commandPlayer i w =
      match (w.state.players i).popLine MAX_LINE with
      | none => w
      | some (line, p) =>
        handleCommand i line (w.record (.popped i line) (w.state.setPlayer i p)) := by
  unfold commandPlayer
  cases hconn : (w.state.players i).connected with
  | true => rfl
  | false =>
    have hnone : (w.state.players i).popLine MAX_LINE = none := by
      rw [Player.popLine_eq_none, (hS.free i hconn).2]
      exact List.not_mem_nil
    rw [hnone]
    rfl

/-- The steps that the inner loop takes. -/
theorem readLines_eq (i : Slot) (passes : ℕ) {l : Loop F} (hl : Inv l.server)
    (hS : Sessions l.server) :
    readLines i passes l.server = (l.run (List.replicate passes (.command i))).server := by
  induction passes generalizing l with
  | zero => rfl
  | succ passes ih =>
    have hstep : (l.step (.command i)).server = commandPlayer i l.server := rfl
    have hinv := Loop.step_inv hl (.command i)
    have hnext := Loop.step_sessions hl hS (.command i)
    have hrest := ih hinv hnext
    rw [hstep, commandPlayer_eq hS i] at hrest
    rw [readLines]
    show _ = ((l.step (.command i)).run (List.replicate passes (.command i))).server
    cases hpop : (l.server.state.players i).popLine MAX_LINE with
    | none =>
      -- Without a line the remaining steps do nothing.
      rw [hpop] at hrest
      rw [← hrest]
      cases passes with
      | zero => rfl
      | succ passes => rw [readLines, hpop]
    | some found =>
      rw [hpop] at hrest
      exact hrest

/-- The sessions at the moment of an entry, with the record up to it. -/
structure Isolated (x : Entry (ServerState F) (Event F)) (past : Log F) : Prop where
  /-- Lines are processed for a client that occupies its slot. -/
  processed : ∀ i line, x.event = .popped i line → (x.state.players i).connected = true
  /-- Bytes are sent to a client that occupies its slot. -/
  sent : ∀ i bytes, x.event = .flushed i bytes → (x.state.players i).connected = true
  /-- The histories of every connected client. -/
  session : ∀ i, (x.state.players i).connected = true → SessionOk (x.state.players i) past

/-- The moment after an action. -/
theorem Action.isolated {w : Server F} {e : Event F} {s : ServerState F} (h : Action w e s)
    (hw : Inv w) (hS : Sessions w) : Isolated ⟨e, s⟩ (⟨e, s⟩ :: w.log) where
  processed i line he := by
    cases h with
    | pop hconn hpop =>
      cases he
      simpa using hconn
    | _ => cases he
  sent i bytes he := by
    cases h with
    | flush hconn =>
      cases he
      simpa using hconn
    | _ => cases he
  session := (h.sessions hw hS).session

/-- Session isolation, at every moment of every run. Lines processed and bytes sent belong
to a client that occupies its slot. The lines processed for the connection in a slot,
followed by those that wait, are the lines of the bytes received on that connection, and
the bytes sent on it, followed by those that wait, are the bytes queued for it. The inner
loop of `process_player_reads`, which does not look at the connection again, takes the
steps that do. -/
theorem sessions_isolated {loopOnly : Bool} {w : Server F} (h : Reached loopOnly w) :
    (∀ x rest, x :: rest <:+ w.log → Isolated x (x :: rest)) ∧
      ∀ i passes last, readLines i passes w =
        (Loop.run ⟨w, last⟩ (List.replicate passes (.command i))).server := by
  refine ⟨?_, fun i passes last => ?_⟩
  · obtain ⟨clock, hpath⟩ := h.path
    refine (hpath.invariant (fun v => Inv v ∧ Sessions v ∧
      ∀ x rest, x :: rest <:+ v.log → Isolated x (x :: rest)) ?_
      ⟨Inv.init clock, .init clock, ?_⟩).2.2
    · rintro v e s _ hstep ⟨hv, hS, hold⟩
      refine ⟨hstep.inv hv, hstep.sessions hv hS, fun x rest hsuffix => ?_⟩
      rcases List.suffix_cons_iff.mp hsuffix with heq | hsuffix
      · cases heq
        exact hstep.isolated hv hS
      · exact hold x rest hsuffix
    · intro x rest hsuffix
      rcases List.suffix_cons_iff.mp hsuffix with heq | hsuffix
      · cases heq
        refine ⟨nofun, nofun, fun i hi => ?_⟩
        cases hi
      · exact absurd (List.eq_nil_of_suffix_nil hsuffix) (by simp)
  · have hl : Inv (⟨w, last⟩ : Loop F).server := h.inv
    have hS : Sessions (⟨w, last⟩ : Loop F).server := h.sessions
    exact readLines_eq i passes hl hS

/-- A client in a slot that was used before: its first line is its own. -/
def reusedSlot : List Step :=
  [.accept 3, .read 0 (.data "HELLO A\nQUIT\nHELLO B\n".toList), .command 0, .command 0,
    .accept 4] ++ say 0 "HELLO C"

/-- The second client of the slot has said one line, and the first one two: the third line
of the first client was not processed. -/
theorem sessions_isolated_reusedSlot :
    linesOf 2 (serverAfter (fun _ => 1) reusedSlot).log = ["HELLO C".toList] ∧
      linesOf 1 (serverAfter (fun _ => 1) reusedSlot).log = ["HELLO A".toList, "QUIT".toList] ∧
      ∀ x rest, x :: rest <:+ (serverAfter (fun _ => 1) reusedSlot).log →
        Isolated x (x :: rest) := by
  have hreached : Reached true (serverAfter (fun _ => 1) reusedSlot) :=
    reached_serverAfter _ (by simp [reusedSlot, Step.inLoop])
  have hlines : linesOf 2 (serverAfter (fun _ => 1) reusedSlot).log = ["HELLO C".toList] ∧
      linesOf 1 (serverAfter (fun _ => 1) reusedSlot).log =
        ["HELLO A".toList, "QUIT".toList] := by
    decide +kernel
  exact ⟨hlines.1, hlines.2, (sessions_isolated hreached).1⟩

end BattleRoyale
