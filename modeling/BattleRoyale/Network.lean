import BattleRoyale.InputOutput
import BattleRoyale.Understanding
import BattleRoyale.Library.Delivery

/-!
# The server and its clients

One server with any number of clients, each running the program of `client_text.c` at the
other end of its connection. A connection hands over the bytes in the order in which they
were sent, in pieces of any size and at any time, and may end at any time; a line of a client
that cannot be sent as a whole is not sent. However the
steps of the server and the frames of the clients interleave, the lines that the server
processes for a client are first ones of those that this client has said, and the lines
that a client handles are first ones of those that the server has queued for it. With such
clients the server never complains about the form of a command.
-/

namespace BattleRoyale

open Recorded Framing

variable {F : Type} [CFloat F]

section Streams

/-- The histories of all connections, those that have ended included. -/
structure Streams (w : Server F) : Prop where
  /-- Lines processed are first ones of the bytes received. -/
  lines : ∀ n, linesOf n w.log <+:
    (frames '\n' (receivedBy n w.log)).1.map (lineOf MAX_LINE)
  /-- Bytes sent are first ones of the bytes queued. -/
  bytes : ∀ n, sentTo n w.log <+: queuedFor n w.log
  /-- Bytes queued are whole lines. -/
  queued : ∀ n, Closed '\n' MAX_LINE (queuedFor n w.log)

/-- A line that was queued is not too long. -/
theorem Player.queueVia_length {p q : Player F} {via : Via} {line : ServerLine F}
    (h : p.queueVia via line = some q) : (via.sent line).length ≤ MAX_LINE := by
  have hshort : ∀ {text : List Char}, p.queueLine text = some q → text.length ≤ MAX_LINE := by
    intro text htext
    have hlength := (queueLine_eq_some.mp htext).1
    omega
  cases via with
  | line => exact hshort h
  | broadcast => exact hshort h
  | checked =>
    simp only [queueVia, queueLineChecked] at h
    split at h
    · cases h
    · exact hshort h
  | verdict =>
    simp only [queueVia, queueLineChecked] at h
    split at h
    · cases h
    · exact hshort h

/-- What an action queues is a whole line. -/
theorem Action.queuedPart_closed {w : Server F} {e : Event F} {s : ServerState F}
    (h : Action w e s) (n : ℕ) :
    Closed '\n' MAX_LINE (queuedPart n (⟨e, s⟩ : Entry (ServerState F) (Event F))) := by
  cases h with
  | queue hconn hline hqueue =>
    simp only [queuedPart]
    split
    · exact .message (Player.queueVia_length hqueue)
    · exact .nil
  | _ => exact .nil

/-- Every action keeps the histories. -/
theorem Action.streams {w : Server F} {e : Event F} {s : ServerState F} (h : Action w e s)
    (hw : Inv w) (hS : Sessions w) (hT : Streams w) : Streams (w.record e s) := by
  have hsession := (h.sessions hw hS).session
  have hisolated := h.isolated hw hS
  -- The connection of the entry is in its slot, unless only a line is queued.
  have hcases : ∀ n, (∃ i, (s.players i).connected = true ∧ (s.players i).id = n) ∨
      (linePart n (⟨e, s⟩ : Entry (ServerState F) (Event F)) = [] ∧
        sentPart n (⟨e, s⟩ : Entry (ServerState F) (Event F)) = []) := by
    intro n
    by_cases hn : ∃ i, (s.players i).connected = true ∧ (s.players i).id = n
    · exact .inl hn
    right
    cases e with
    | popped i line =>
      have hconn : (s.players i).connected = true := hisolated.processed i line rfl
      exact ⟨if_neg fun hid => hn ⟨i, hconn, hid⟩, rfl⟩
    | flushed i bytes =>
      have hconn : (s.players i).connected = true := hisolated.sent i bytes rfl
      exact ⟨rfl, if_neg fun hid => hn ⟨i, hconn, hid⟩⟩
    | _ => exact ⟨rfl, rfl⟩
  refine ⟨fun n => ?_, fun n => ?_, fun n => (hT.queued n).append (h.queuedPart_closed n)⟩
  · rcases hcases n with ⟨i, hconn, rfl⟩ | ⟨hline, _⟩
    · exact ⟨_, (hsession i hconn).lines⟩
    · have hsame : linesOf n (w.record e s).log = linesOf n w.log := by
        show linesOf n w.log ++ linePart n _ = _
        rw [hline, List.append_nil]
      rw [hsame]
      exact (hT.lines n).trans ((frames_mono (List.prefix_append _ _)).map _)
  · rcases hcases n with ⟨i, hconn, rfl⟩ | ⟨_, hsent⟩
    · exact ⟨_, (hsession i hconn).bytes⟩
    · have hsame : sentTo n (w.record e s).log = sentTo n w.log := by
        show sentTo n w.log ++ sentPart n _ = _
        rw [hsent, List.append_nil]
      rw [hsame]
      exact (hT.bytes n).trans (List.prefix_append _ _)

/-- There are no histories at the start. -/
theorem Streams.init (clock : ℕ → ℤ) : Streams (Server.init clock : Server F) :=
  ⟨fun _ => List.nil_prefix, fun _ => List.nil_prefix, fun _ => .nil⟩

/-- Every step keeps them. -/
theorem Loop.step_streams {l : Loop F} (hl : Inv l.server) (hS : Sessions l.server)
    (hT : Streams l.server) (x : Step) : Streams (l.step x).server :=
  ((Loop.step_path hl x).invariant (fun v => Inv v ∧ Sessions v ∧ Streams v)
    (fun _ _ _ _ hstep hv => ⟨hstep.inv hv.1, hstep.sessions hv.1 hv.2.1,
      hstep.streams hv.1 hv.2.1 hv.2.2⟩) ⟨hl, hS, hT⟩).2.2

/-- Bytes sent stay sent. -/
theorem Loop.step_sentTo {l : Loop F} (hl : Inv l.server) (x : Step) (n : ℕ) :
    sentTo n l.server.log <+: sentTo n (l.step x).server.log := by
  obtain ⟨new, hlog, _⟩ := (Loop.step_path hl x).log_eq
  rw [hlog, sentTo, sentTo, gather_append]
  exact List.prefix_append _ _

/-- Bytes are received in a read of the connection. -/
theorem Loop.step_receivedBy {l : Loop F} (hl : Inv l.server) {x : Step}
    (hx : x.inLoop = true) (n : ℕ) :
    receivedBy n (l.step x).server.log = receivedBy n l.server.log ∨
      ∃ i result, x = .read i result ∧ (l.server.state.players i).connected = true ∧
        (l.server.state.players i).id = n ∧
        receivedBy n (l.step x).server.log = receivedBy n l.server.log ++ result.bytes := by
  obtain ⟨v, hopens, hquiet⟩ := Loop.step_io hl hx
  rw [(hquiet.histories n).1]
  cases hopens with
  | idle => exact .inl rfl
  | accept hfree => exact .inl (List.append_nil _)
  | command hconn hpop => exact .inl (List.append_nil _)
  | write hconn => exact .inl (List.append_nil _)
  | read hconn =>
    rename_i i result
    by_cases hid : (l.server.state.players i).id = n
    · refine .inr ⟨i, result, rfl, hconn, hid, ?_⟩
      show receivedBy n l.server.log ++ receivedPart n _ = _
      simp [receivedPart, hid]
    · left
      show receivedBy n l.server.log ++ receivedPart n _ = _
      simp [receivedPart, hid]

end Streams

section Listening

namespace ClientProgram

variable {E : Surroundings} {p : ClientProgram F}

/-- What the client has received and handled, and the players that it knows. -/
def ear (p : ClientProgram F) :
    (Player F × List Char × List (List Char)) × (Slot → ClientPlayer F) :=
  ((p.net, p.received, p.heard), p.client.state.players)

omit [CFloat F] in
/-- A command changes the status line at most. -/
theorem sendCommandChecked_players (results : List SendResult) (text : List Char)
    (c : Client F) : (sendCommandChecked results text c).2.state.players = c.state.players := by
  unfold sendCommandChecked
  split
  · rfl
  · split <;> rfl

omit [CFloat F] in
@[simp] theorem send_ear (command : ClientCommand) (p : ClientProgram F) :
    (p.send E command).2.ear = p.ear :=
  congrArg (Prod.mk (p.net, p.received, p.heard))
    (sendCommandChecked_players _ command.text p.client)

omit [CFloat F] in
@[simp] theorem requestState_ear (p : ClientProgram F) :
    (p.requestState E).ear = p.ear := by
  have hsend := send_ear (E := E) .getState p
  unfold requestState
  split <;> rename_i q hq <;> rw [hq] at hsend <;> exact hsend

omit [CFloat F] in
@[simp] theorem sendAndRefresh_ear (command : ClientCommand) (p : ClientProgram F) :
    (p.sendAndRefresh E command).2.ear = p.ear := by
  have hsend := send_ear (E := E) command p
  unfold sendAndRefresh
  split <;> rename_i q hq <;> rw [hq] at hsend <;> exact hsend

omit [CFloat F] in
@[simp] theorem hello_ear (p : ClientProgram F) : (p.hello E).ear = p.ear := by
  have hplayers : ∀ results, (BattleRoyale.maybeSendHello results p.client).2.state.players =
      p.client.state.players := by
    intro results
    unfold BattleRoyale.maybeSendHello
    split
    · rfl
    simp only
    generalize hpending : ({ p.client with state := _ } : Client F) = q
    have hq : q.state.players = p.client.state.players := by
      subst hpending
      rfl
    have hsend := sendCommandChecked_players results
      ("HELLO ".toList ++ p.client.nameInput.take (MAX_NAME_LENGTH - 1)) q
    split <;> rename_i c hc <;> rw [hc] at hsend <;> exact hsend.trans hq
  exact congrArg (Prod.mk (p.net, p.received, p.heard)) (hplayers _)

omit [CFloat F] in
/-- The automatic join. -/
theorem autoJoinFrame_ear (p : ClientProgram F) : (p.autoJoinFrame E).ear = p.ear := by
  have hhello : ∀ q : ClientProgram F, (q.autoHello E).ear = q.ear := by
    intro q
    unfold autoHello
    simp only
    split
    · exact hello_ear q
    · rfl
  have hchoice : ∀ q : ClientProgram F, (q.autoChoice E).ear = q.ear := by
    intro q
    have hsend := sendAndRefresh_ear (E := E) (.choice q.autoJoin.choice) q
    unfold autoChoice
    split
    · rfl
    · split <;> rename_i r hr <;> rw [hr] at hsend <;> exact hsend
  have hspawn : ∀ q : ClientProgram F, (q.autoSpawn E).ear = q.ear := by
    intro q
    have hsend := sendAndRefresh_ear (E := E) (.spawn q.autoJoin.spawnX q.autoJoin.spawnY) q
    unfold autoSpawn
    split
    · split <;> rename_i r hr <;> rw [hr] at hsend <;> exact hsend
    · rfl
  unfold autoJoinFrame
  split
  · rfl
  simp only
  split
  · rw [hspawn, hchoice, hhello]
  · exact hhello p

omit [CFloat F] in
/-- A key for the name box. -/
theorem editName_ear {ch : ℤ} {q : ClientProgram F} (h : p.editName E ch = some q) :
    q.ear = p.ear := by
  unfold editName at h
  split_ifs at h <;> cases h <;> first | rfl | exact hello_ear p

omit [CFloat F] in
/-- A key outside of it. -/
theorem pressOther_ear (ch : ℤ) (p : ClientProgram F) : (p.pressOther E ch).ear = p.ear := by
  have hchoice : ∀ c, (p.pressChoice E c).ear = p.ear := by
    intro c
    unfold pressChoice
    simp only
    split_ifs <;> simp
  unfold pressOther
  split
  · rfl
  split
  · rfl
  split
  · rfl
  split
  · rfl
  split
  · exact hello_ear p
  split
  · exact sendAndRefresh_ear .rematch p
  split
  · exact hchoice 'R'
  split
  · exact hchoice 'P'
  split
  · exact hchoice 'S'
  split
  · split
    · exact sendAndRefresh_ear _ p
    · rfl
  · rfl

omit [CFloat F] in
/-- One key. -/
theorem press_ear (ch : ℤ) (p : ClientProgram F) : (p.press E ch).ear = p.ear := by
  unfold press
  simp only
  split_ifs
  · rfl
  · exact requestState_ear p
  · rfl
  · split
    · rename_i q hq
      exact editName_ear hq
    · exact pressOther_ear ch p
  · exact pressOther_ear ch p

omit [CFloat F] in
/-- The keys of a frame. -/
theorem pressAll_ear (keys : List ℤ) (p : ClientProgram F) : (pressAll E keys p).ear = p.ear := by
  induction keys generalizing p with
  | nil => rfl
  | cons ch keys ih =>
    rw [pressAll]
    split
    · exact (ih _).trans (press_ear ch p)
    · exact press_ear ch p

/-- The lines handled are those of the bytes received, and the rest waits. -/
structure Listens (p : ClientProgram F) : Prop where
  /-- The lines. -/
  heard : p.heard = (frames '\n' p.received).1.map (lineOf MAX_LINE)
  /-- The rest. -/
  rest : p.net.inbuf = (frames '\n' p.received).2

omit [CFloat F] in
theorem Listens.same {q : ClientProgram F} (h : p.Listens) (hear : q.ear = p.ear) :
    q.Listens := by
  simp only [ear, Prod.mk.injEq] at hear
  obtain ⟨⟨hnet, hreceived, hheard⟩, _⟩ := hear
  exact ⟨by rw [hheard, hreceived]; exact h.heard, by rw [hnet, hreceived]; exact h.rest⟩

/-- The lines of one read: as many passes as there are bytes take them all. -/
theorem hearLines_eq (clock : ℕ → ℚ) {passes : ℕ} {p : ClientProgram F}
    (hpasses : p.net.inbuf.length ≤ passes) :
    (hearLines clock passes p).heard =
        p.heard ++ (frames '\n' p.net.inbuf).1.map (lineOf MAX_LINE) ∧
      (hearLines clock passes p).net.inbuf = (frames '\n' p.net.inbuf).2 ∧
      (hearLines clock passes p).received = p.received := by
  induction passes generalizing p with
  | zero =>
    have hempty : p.net.inbuf = [] := List.eq_nil_of_length_eq_zero (Nat.le_zero.mp hpasses)
    rw [hempty]
    exact ⟨(List.append_nil _).symm, hempty, rfl⟩
  | succ passes ih =>
    unfold hearLines
    cases hpop : p.net.popLine MAX_LINE with
    | none =>
      rw [frames_of_not_mem (Player.popLine_eq_none.mp hpop)]
      exact ⟨(List.append_nil _).symm, rfl, rfl⟩
    | some found =>
      obtain ⟨line, net⟩ := found
      obtain ⟨inbuf, rfl⟩ := popLine_eq hpop
      obtain ⟨segment, rfl, hframes⟩ := Player.popLine_frames hpop
      have hshort := Player.popLine_length hpop
      obtain ⟨hheard, hrest, hreceived⟩ := @ih
        (hear clock (lineOf MAX_LINE segment) { p with net := { p.net with inbuf := inbuf } })
        (Nat.le_of_lt_succ (hshort.trans_le hpasses))
      refine ⟨?_, ?_, hreceived⟩
      · refine hheard.trans ?_
        rw [hframes, List.map_cons]
        simp only [hear, List.append_assoc, List.singleton_append]
      · refine hrest.trans ?_
        rw [hframes]
        rfl

/-- The network of a frame, while what arrives is a part of a stream in segments that are
not too long: no read fails for want of room, and all lines are handled. -/
theorem Listens.pump (clock : ℕ → ℚ) {stream : List Char}
    (hstream : Closed '\n' MAX_LINE stream) (results : List RecvResult) (h : p.Listens)
    (hbytes : p.received ++ (results.map RecvResult.bytes).flatten <+: stream) :
    (p.pump clock results).Listens ∧
      (p.pump clock results).received <+: p.received ++ (results.map RecvResult.bytes).flatten := by
  induction results generalizing p with
  | nil => exact ⟨h, List.prefix_append _ _⟩
  | cons result results ih =>
    rw [List.map_cons, List.flatten_cons, ← List.append_assoc] at hbytes ⊢
    have harrived : p.received <+: stream :=
      ((List.prefix_append _ _).trans (List.prefix_append _ _)).trans hbytes
    have hroom : p.net.inbuf.length ≤ 256 := by
      rw [h.rest]
      exact hstream.tail_length_le harrived
    have hread : (p.net.readIntoPlayerBuffer result).2 =
        { p.net with inbuf := p.net.inbuf ++ result.bytes } := by
      cases result with
      | data bytes =>
        have hlength : (bytes.take 256).length ≤ 256 := List.length_take_le _ _
        simp only [Player.readIntoPlayerBuffer, RecvResult.bytes]
        rw [if_neg (show ¬1024 ≤ _ by omega)]
      | _ => simp [Player.readIntoPlayerBuffer, RecvResult.bytes]
    have hempty : (p.net.readIntoPlayerBuffer result).1 ≤ 0 → result.bytes = [] := by
      intro hrc
      cases result with
      | data bytes =>
        have hlength : (bytes.take 256).length ≤ 256 := List.length_take_le _ _
        simp only [Player.readIntoPlayerBuffer] at hrc
        rw [if_neg (show ¬1024 ≤ _ by omega)] at hrc
        exact List.eq_nil_of_length_eq_zero (by simpa [RecvResult.bytes] using hrc)
      | _ => rfl
    unfold ClientProgram.pump
    simp only [hread]
    split
    · rename_i hrc
      rw [hempty hrc, List.append_nil]
      exact ⟨h.same (by simp [ear, Client.setStatus, ClientState.setStatus]),
        List.prefix_append _ _⟩
    · generalize hq : hearLines (F := F) clock _ _ = q
      obtain ⟨hheard, hrest, hreceived⟩ := hearLines_eq clock (Nat.le_refl
        ({ p with
            net := { p.net with inbuf := p.net.inbuf ++ result.bytes }
            received := p.received ++ result.bytes } : ClientProgram F).net.inbuf.length)
      rw [hq] at hheard hrest hreceived
      have hlistens : q.Listens := by
        constructor
        · rw [hheard, hreceived, frames_append p.received, List.map_append, ← h.heard, ← h.rest]
        · rw [hrest, hreceived, frames_append p.received, ← h.rest]
      have hnext := ih hlistens (by rw [hreceived]; exact hbytes)
      rw [hreceived] at hnext
      exact hnext

/-- Of a frame, only its network matters here. -/
theorem frame_ear (E : Surroundings) (p : ClientProgram F) (f : Frame) :
    (p.frame E f).ear = p.ear ∨ (p.frame E f).ear = (p.pump E.clock f.received).ear := by
  have hrequest : ∀ q : ClientProgram F, (q.requestFrame E).ear = q.ear := by
    intro q
    unfold requestFrame
    split
    · exact requestState_ear q
    · rfl
  have hkeys : (pressAll E f.keys
      (((p.pump E.clock f.received).autoJoinFrame E).requestFrame E)).ear =
        (p.pump E.clock f.received).ear := by
    rw [pressAll_ear, hrequest, autoJoinFrame_ear]
  unfold ClientProgram.frame
  split
  · exact .inl rfl
  right
  simp only
  split
  · exact hkeys
  · exact (send_ear .quit _).trans hkeys

/-- One frame. -/
theorem Listens.frame (E : Surroundings) {stream : List Char}
    (hstream : Closed '\n' MAX_LINE stream) (f : Frame) (h : p.Listens)
    (hbytes : p.received ++ (f.received.map RecvResult.bytes).flatten <+: stream) :
    (p.frame E f).Listens ∧
      (p.frame E f).received <+:
        p.received ++ (f.received.map RecvResult.bytes).flatten := by
  have hreceived : ∀ {q r : ClientProgram F}, q.ear = r.ear → q.received = r.received :=
    fun hear => congrArg (fun e => e.1.2.1) hear
  rcases frame_ear E p f with hear | hear <;> rw [hreceived hear]
  · exact ⟨h.same hear, List.prefix_append _ _⟩
  · obtain ⟨hlistens, harrived⟩ := h.pump E.clock hstream f.received hbytes
    exact ⟨hlistens.same hear, harrived⟩

/-- The client before its first frame. -/
theorem start_ear (E : Surroundings) (name : List Char) (auto : AutoJoinConfig) :
    (ClientProgram.start E name auto : ClientProgram F).ear =
      ((Player.zero, [], []), ClientState.zero.players) :=
  requestState_ear _

end ClientProgram

end Listening

/-- A server and, for the identifier of each connection, the client at its other end. -/
structure Network (F : Type) where
  /-- The loop of the server. -/
  loop : Loop F
  /-- The clients. -/
  clients : ℕ → ClientProgram F

/-- How the programs are started. -/
structure Setting where
  /-- The clock of the server. -/
  clock : ℕ → ℤ
  /-- The time of its first tick. -/
  start : ℚ
  /-- What surrounds the clients. -/
  worlds : ℕ → Surroundings
  /-- The names to start with. -/
  names : ℕ → List Char
  /-- The automatic joins. -/
  autos : ℕ → AutoJoinConfig
  /-- Both are those of a command line. -/
  started : ∀ n, ∃ args, parseArguments args = some (names n, autos n)
  /-- A line that cannot be sent as a whole is not sent. -/
  whole : ∀ n, (worlds n).WholeLines

/-- What the programs reach, in any order of their steps. A read of the server returns bytes
that the client has sent, and a read of a client returns bytes that the server has sent: the
next ones, and as many of them as the connection has at that time. The keys are those of
ASCII, and others that do not count as alphanumeric. -/
inductive Network.Reachable (S : Setting) : Network F → Prop
  | init : Reachable S
      ⟨Loop.init S.clock S.start, fun n => .start (S.worlds n) (S.names n) (S.autos n)⟩
  | server {N : Network F} {x : Step} (h : Reachable S N) (hx : x.inLoop = true)
      (hbytes : ∀ i result, x = .read i result →
        (N.loop.server.state.players i).connected = true →
          receivedBy (N.loop.server.state.players i).id N.loop.server.log ++ result.bytes <+:
            (N.clients (N.loop.server.state.players i).id).sent) :
      Reachable S { N with loop := N.loop.step x }
  | client {N : Network F} {n : ℕ} {f : Frame} (h : Reachable S N)
      (hbytes : (N.clients n).received ++ (f.received.map RecvResult.bytes).flatten <+:
        sentTo n N.loop.server.log)
      (hkeys : ∀ ch ∈ f.keys, (S.worlds n).Plain ch) :
      Reachable S { N with
        clients := Function.update N.clients n ((N.clients n).frame (S.worlds n) f) }

/-- The two directions of every connection. -/
structure Network.Delivers (S : Setting) (N : Network F) : Prop where
  /-- The server has taken steps of its loop. -/
  runs : ∃ steps : List Step, (∀ x ∈ steps, x.inLoop = true) ∧
    N.loop = (Loop.init S.clock S.start).run steps
  /-- Its histories. -/
  streams : Streams N.loop.server
  /-- It receives what the client has sent. -/
  received : ∀ n, receivedBy n N.loop.server.log <+: (N.clients n).sent
  /-- The client says commands. -/
  speaks : ∀ n, ∃ commands, (N.clients n).Speaks (S.names n) commands
  /-- It handles what it receives. -/
  listens : ∀ n, (N.clients n).Listens
  /-- It receives what the server has sent. -/
  arrived : ∀ n, (N.clients n).received <+: sentTo n N.loop.server.log

section Delivery

variable {S : Setting} {N : Network F}

theorem Network.Delivers.reached (h : N.Delivers S) : Reached true N.loop.server := by
  obtain ⟨steps, hsteps, hloop⟩ := h.runs
  exact ⟨S.clock, S.start, steps, fun _ => hsteps, congrArg Loop.server hloop⟩

/-- Before the first step. -/
theorem Network.delivers_init :
    (⟨Loop.init S.clock S.start, fun n => .start (S.worlds n) (S.names n) (S.autos n)⟩ :
      Network F).Delivers S where
  runs := ⟨[], fun _ h => absurd h List.not_mem_nil, rfl⟩
  streams := .init S.clock
  received _ := List.nil_prefix
  speaks n := by
    obtain ⟨args, hargs⟩ := S.started n
    exact ClientProgram.start_speaks (S.whole n) hargs
  listens n := by
    have hear := ClientProgram.start_ear (F := F) (S.worlds n) (S.names n) (S.autos n)
    simp only [ClientProgram.ear, Prod.mk.injEq] at hear
    obtain ⟨⟨hnet, hreceived, hheard⟩, _⟩ := hear
    exact ⟨by rw [hheard, hreceived]; rfl, by rw [hnet, hreceived]; rfl⟩
  arrived n := by
    have hear := ClientProgram.start_ear (F := F) (S.worlds n) (S.names n) (S.autos n)
    simp only [ClientProgram.ear, Prod.mk.injEq] at hear
    show ClientProgram.received _ <+: _
    rw [hear.1.2.1]
    exact List.nil_prefix

/-- A step of the server. -/
theorem Network.Delivers.server (h : N.Delivers S) {x : Step} (hx : x.inLoop = true)
    (hbytes : ∀ i result, x = .read i result →
      (N.loop.server.state.players i).connected = true →
        receivedBy (N.loop.server.state.players i).id N.loop.server.log ++ result.bytes <+:
          (N.clients (N.loop.server.state.players i).id).sent) :
    ({ N with loop := N.loop.step x } : Network F).Delivers S where
  runs := by
    obtain ⟨steps, hsteps, hloop⟩ := h.runs
    refine ⟨steps ++ [x], fun y hy => ?_, ?_⟩
    · rcases List.mem_append.mp hy with hy | hy
      · exact hsteps y hy
      · rw [List.mem_singleton.mp hy]
        exact hx
    · rw [hloop, Loop.run, Loop.run, List.foldl_append]
      rfl
  streams := Loop.step_streams h.reached.inv h.reached.sessions h.streams x
  received n := by
    rcases Loop.step_receivedBy h.reached.inv hx n with
      hsame | ⟨i, result, hread, hconn, rfl, hmore⟩
    · rw [hsame]
      exact h.received n
    · rw [hmore]
      exact hbytes i result hread hconn
  speaks := h.speaks
  listens := h.listens
  arrived n := (h.arrived n).trans (Loop.step_sentTo h.reached.inv x n)

/-- A frame of a client. -/
theorem Network.Delivers.client (h : N.Delivers S) {n : ℕ} {f : Frame}
    (hbytes : (N.clients n).received ++ (f.received.map RecvResult.bytes).flatten <+:
      sentTo n N.loop.server.log) (hkeys : ∀ ch ∈ f.keys, (S.worlds n).Plain ch) :
    ({ N with clients := Function.update N.clients n ((N.clients n).frame (S.worlds n) f) } :
      Network F).Delivers S := by
  obtain ⟨commands, hspeaks⟩ := h.speaks n
  obtain ⟨more, hmore⟩ := ClientProgram.frame_goes (S.whole n) (N.clients n) hkeys commands
    hspeaks
  have hsent : (N.clients n).sent <+: ((N.clients n).frame (S.worlds n) f).sent := by
    rw [hspeaks.sent, hmore.sent]
    simp only [ClientCommand.stream, List.map_append, List.flatten_append]
    exact List.prefix_append _ _
  obtain ⟨hlistens, harrived⟩ := (h.listens n).frame (S.worlds n) (h.streams.queued n) f
    (hbytes.trans (h.streams.bytes n))
  -- The other clients are as they were.
  have hother : ∀ {P : ℕ → ClientProgram F → Prop}, P n ((N.clients n).frame (S.worlds n) f) →
      (∀ m, P m (N.clients m)) →
        ∀ m, P m (Function.update N.clients n ((N.clients n).frame (S.worlds n) f) m) := by
    intro P hn hall m
    by_cases hmn : m = n
    · subst hmn
      rwa [Function.update_self]
    · rw [Function.update_of_ne hmn]
      exact hall m
  refine ⟨h.runs, h.streams, ?_, ?_, ?_, ?_⟩
  · exact hother (P := fun m p => receivedBy m N.loop.server.log <+: p.sent)
      ((h.received n).trans hsent) h.received
  · exact hother (P := fun m p => ∃ said, p.Speaks (S.names m) said) ⟨_, hmore⟩ h.speaks
  · exact hother (P := fun _ p => p.Listens) hlistens h.listens
  · exact hother (P := fun m p => p.received <+: sentTo m N.loop.server.log)
      (harrived.trans hbytes) h.arrived

/-- Every reachable network delivers. -/
theorem Network.Reachable.delivers (h : N.Reachable S) : N.Delivers S := by
  induction h with
  | init => exact Network.delivers_init
  | server _ hx hbytes ih => exact ih.server hx hbytes
  | client _ hbytes hkeys ih => exact ih.client hbytes hkeys

/-- The lines that the server has processed for a client are ones that it has said. -/
theorem Network.Delivers.linesOf (h : N.Delivers S) {n : ℕ} {commands : List ClientCommand}
    (hspeaks : (N.clients n).Speaks (S.names n) commands) (hname : ∀ c ∈ S.names n, LineChar c) :
    linesOf n N.loop.server.log <+: commands.map ClientCommand.text := by
  have hlines := fun command hcommand => (hspeaks.sound command hcommand).lineOf hname
  have hframes : (frames '\n' (N.clients n).sent).1 = commands.map ClientCommand.text := by
    have hmessages : frames '\n' ((commands.map ClientCommand.text).map (· ++ ['\n'])).flatten =
        (commands.map ClientCommand.text, []) :=
      frames_messages (List.forall_mem_map.mpr fun command hcommand =>
        (hlines command hcommand).2.2)
    rw [List.map_map] at hmessages
    rw [hspeaks.sent]
    exact congrArg Prod.fst hmessages
  have hsaid : (frames '\n' (N.clients n).sent).1.map (lineOf MAX_LINE) =
      commands.map ClientCommand.text := by
    rw [hframes, List.map_map]
    exact List.map_congr_left fun command hcommand => (hlines command hcommand).1
  rw [← hsaid]
  exact (h.streams.lines n).trans ((frames_mono (h.received n)).map _)

end Delivery

/-- Clients without arguments. -/
def hall : Setting where
  clock _ := 1
  start := 0
  worlds _ := plainSurroundings
  names _ := "player".toList
  autos _ := .off
  started _ := ⟨[], rfl⟩
  whole _ := plainSurroundings_reliable.wholeLines

/-- The first client connects and asks for the state, and 40 bytes are sent to it. -/
def hallLoop : Loop Binary32 :=
  (Loop.init (fun _ => 1) 0).run
    [.accept 3, .read 0 (.data "GET_STATE\n".toList), .command 0, .write 0 [.accepted 40]]

/-- The client receives them. -/
def hallAnswered : Network Binary32 where
  loop := hallLoop
  clients := Function.update (fun _ => .start plainSurroundings "player".toList .off) 1
    ((ClientProgram.start plainSurroundings "player".toList .off).frame plainSurroundings
      ⟨[.data (sentTo 1 hallLoop.server.log)], []⟩)

theorem hallAnswered_reachable : hallAnswered.Reachable hall := by
  have hstart : (⟨Loop.init hall.clock hall.start,
      fun n => .start (hall.worlds n) (hall.names n) (hall.autos n)⟩ :
        Network Binary32).Reachable hall := .init
  have haccepted := hstart.server (x := .accept 3) rfl fun _ _ h => by cases h
  have hread := haccepted.server (x := .read 0 (.data "GET_STATE\n".toList)) rfl <| by
    rintro i result ⟨⟩ _
    decide +kernel
  have hdone := hread.server (x := .command 0) rfl fun _ _ h => by cases h
  have hwritten := hdone.server (x := .write 0 [.accepted 40]) rfl fun _ _ h => by cases h
  exact hwritten.client (n := 1) (by decide +kernel) fun _ h => absurd h List.not_mem_nil

section Understanding

/-- A line that is processed is the next one of its client. -/
theorem Loop.step_linesOf {l : Loop F} (hl : Inv l.server) {i : Slot} {line : List Char}
    {p : Player F} (hconn : (l.server.state.players i).connected = true)
    (hpop : (l.server.state.players i).popLine MAX_LINE = some (line, p)) :
    linesOf (l.server.state.players i).id (l.step (.command i)).server.log =
      linesOf (l.server.state.players i).id l.server.log ++ [line] := by
  obtain ⟨inbuf, rfl⟩ := popLine_eq hpop
  have hstep : (l.step (.command i)).server = handleCommand i line
      (l.server.record (.popped i line) (l.server.state.setPlayer i
        { l.server.state.players i with inbuf := inbuf })) := by
    show commandPlayer i l.server = _
    unfold commandPlayer
    simp only [hconn, Bool.not_true, Bool.false_eq_true, if_false, hpop]
  have hquiet := handleCommand_quiet (i := i) line ((Action.pop hconn hpop).inv hl)
    (by simpa using hconn)
  rw [hstep, (hquiet.histories _).2.1]
  show linesOf _ l.server.log ++ linePart _ _ = _
  simp [linePart]

/-- Steps without a line. -/
theorem Loop.step_printed_of_ne {l : Loop F} {x : Step} (hx : ∀ i, x ≠ .command i)
    (hw : Bounded l.server) : Printed l.server (l.step x).server := by
  cases x with
  | accept fd => exact acceptNewClient_printed fd hw
  | read i result =>
    show Printed l.server (readPlayer i result l.server)
    unfold readPlayer
    split
    · exact .refl _
    dsimp only
    split
    · exact loseConnection_printed i hw
    · rename_i hdata
      refine .assignSlot hw rfl (.inl ?_)
      rw [readIntoPlayerBuffer_eq (not_le.mp hdata)]
  | command i => exact absurd rfl (hx i)
  | write i results =>
    show Printed l.server (writePlayer i results l.server)
    unfold writePlayer
    split
    · exact .refl _
    dsimp only
    have hname : ((l.server.state.players i).flushPlayerOutput results).2.name =
        (l.server.state.players i).name := by
      obtain ⟨n, hsent⟩ := flushPlayerOutput_eq (l.server.state.players i) results
      rw [hsent]
    generalize hu : l.server.record (.flushed i _) _ = u
    have hflushed : Printed l.server u := hu ▸ .assignSlot hw rfl (.inl hname)
    split
    · exact hflushed.trans (loseConnection_printed i (hflushed.bounded hw))
    · exact hflushed
  | timers now =>
    have htimers := advanceMatchTimers_printed now l.lastChaseTick CHASE_TICK_SECONDS hw
    rwa [Loop.step]
  | resolve =>
    show Printed l.server (resolveActiveRound l.server)
    unfold resolveActiveRound
    split
    · exact resolveRound_printed hw
    · exact .refl _

/-- One step, in which a line that is processed is not complained about. -/
theorem Loop.step_content {l : Loop F} (hl : Inv l.server) (hw : Bounded l.server) (x : Step)
    (hcommand : ∀ i line p, x = .command i →
      (l.server.state.players i).connected = true →
      (l.server.state.players i).popLine MAX_LINE = some (line, p) →
        Content (l.server.record (.popped i line) (l.server.state.setPlayer i p))
          (handleCommand i line
            (l.server.record (.popped i line) (l.server.state.setPlayer i p))))
    (hold : ∀ y ∈ l.server.log, y.event.complains = false) :
    ∀ y ∈ (l.step x).server.log, y.event.complains = false := by
  by_cases hx : ∃ i, x = .command i
  swap
  · have hprinted := l.step_printed_of_ne (fun i hi => hx ⟨i, hi⟩) hw
    obtain ⟨_, new, hlog, _⟩ := hprinted.kept
    have hcontent := hprinted.content
    rw [Content, added_eq hlog] at hcontent
    rw [hlog]
    exact List.forall_mem_append.mpr ⟨hcontent, hold⟩
  obtain ⟨i, rfl⟩ := hx
  show ∀ y ∈ (commandPlayer i l.server).log, _
  unfold commandPlayer
  split
  · exact hold
  rename_i hconn
  split
  · exact hold
  rename_i line p hpop
  have hconnected : (l.server.state.players i).connected = true := by simpa using hconn
  have hcontent := hcommand i line p rfl hconnected hpop
  obtain ⟨inbuf, rfl⟩ := popLine_eq hpop
  obtain ⟨new, hlog, _⟩ := (handleCommand_quiet (i := i) line
    ((Action.pop hconnected hpop).inv hl) (by simpa using hconnected)).log_eq
  rw [Content, added_eq hlog] at hcontent
  rw [hlog]
  exact List.forall_mem_append.mpr ⟨hcontent, List.forall_mem_cons.mpr ⟨rfl, hold⟩⟩

/-- With clients that were started with names of word characters the server understands all
that it processes, in every order of the steps: each line is a command that the client at the
other end has said, and selects the handler that it is meant for with its argument, and
nothing that the server has sent or tried to send to anybody is a complaint about the form of
a command. -/
theorem network_understood {S : Setting} (hnames : ∀ n, ∀ c ∈ S.names n, WordChar c)
    {N : Network Binary32} (h : N.Reachable S) :
    (∀ n, ∃ commands, (N.clients n).sent = ClientCommand.stream commands ∧
      ∀ line ∈ linesOf n N.loop.server.log, ∃ command ∈ commands,
        command.Sound (S.names n) ∧ line = command.text ∧
          selectCommand (cString line) = some (command.command, command.args)) ∧
    ∀ x ∈ N.loop.server.log, x.event.complains = false := by
  have hline : ∀ {M : Network Binary32}, M.Reachable S → ∀ n, ∃ commands,
      (M.clients n).sent = ClientCommand.stream commands ∧
        ∀ line ∈ linesOf n M.loop.server.log, ∃ command ∈ commands,
          command.Sound (S.names n) ∧ line = command.text := by
    intro M hM n
    obtain ⟨commands, hspeaks⟩ := hM.delivers.speaks n
    refine ⟨commands, hspeaks.sent, fun line hmem => ?_⟩
    have hlines := hM.delivers.linesOf hspeaks fun c hc => (hnames n c hc).lineChar
    obtain ⟨command, hcommand, rfl⟩ := List.mem_map.mp (hlines.subset hmem)
    exact ⟨command, hcommand, hspeaks.sound command hcommand, rfl⟩
  refine ⟨fun n => ?_, ?_⟩
  · obtain ⟨commands, hsent, hall⟩ := hline h n
    refine ⟨commands, hsent, fun line hmem => ?_⟩
    obtain ⟨command, hcommand, hsound, rfl⟩ := hall line hmem
    have htext := (hsound.lineOf fun c hc => (hnames n c hc).lineChar).2.1
    exact ⟨command, hcommand, hsound, rfl, by rw [htext]; exact hsound.selected (hnames n)⟩
  induction h with
  | init => exact fun x hx => by rw [List.mem_singleton.mp hx]; rfl
  | client _ _ _ ih => exact ih
  | @server N x hN hx hbytes ih =>
    have hreached := hN.delivers.reached
    have hbounded := hreached.lines_sourced.1
    refine Loop.step_content hreached.inv hbounded x ?_ ih
    rintro i line p rfl hconn hpop
    -- The line is the last one that is processed for its client.
    have hmem : line ∈ linesOf (N.loop.server.state.players i).id
        (N.loop.step (.command i)).server.log := by
      rw [Loop.step_linesOf hreached.inv hconn hpop]
      exact List.mem_append_right _ List.mem_cons_self
    obtain ⟨_, _, hall⟩ := hline (hN.server hx hbytes) (N.loop.server.state.players i).id
    obtain ⟨command, _, hsound, rfl⟩ := hall line hmem
    exact hsound.content (hnames _) i
      (Called.bounded (.inr ⟨_, p, hpop, rfl⟩) hbounded)

/-- What the server has understood of the first client. -/
theorem network_understood_hall :
    (∃ commands, (hallAnswered.clients 1).sent = ClientCommand.stream commands ∧
      ∃ command ∈ commands, "GET_STATE".toList = command.text ∧
        selectCommand "GET_STATE".toList = some (command.command, command.args)) ∧
    ∀ x ∈ hallLoop.server.log, x.event.complains = false := by
  have hnames : ∀ n, ∀ c ∈ hall.names n, WordChar c := by simp [hall, WordChar, isSpace]
  obtain ⟨hlines, hcontent⟩ := network_understood hnames hallAnswered_reachable
  have hline : linesOf 1 hallAnswered.loop.server.log = ["GET_STATE".toList] := by decide +kernel
  obtain ⟨commands, hsent, hall⟩ := hlines 1
  obtain ⟨command, hcommand, _, htext, hselect⟩ :=
    hall "GET_STATE".toList (by rw [hline]; simp)
  exact ⟨⟨commands, hsent, command, hcommand, htext, hselect⟩, hcontent⟩

end Understanding

end BattleRoyale
