import BattleRoyale.InputOutput
import BattleRoyale.PhaseProgress

/-!
# The loop of `main`

The server reaches its steps through `select`: one pass of the loop asks for the sockets of
all clients, accepts at most one client, serves every socket that is ready, slot by slot,
and looks at the timers. What the system calls of a pass return is an input. A pass is a
sequence of steps, so whatever holds for the steps in any order holds for the program. The
order in which a pass takes them adds that no complete line waits between two passes, and
that no countdown is overdue.
-/

namespace BattleRoyale

open Recorded Framing

variable {F : Type}

/-- What `select` returns. -/
inductive SelectResult where
  /-- It was interrupted by a signal. -/
  | interrupted
  /-- Any other error. -/
  | failed
  /-- These descriptors can be read, and these can be written. -/
  | ready (reads writes : Finset ℤ)

/-- What `accept` and `net_set_nonblocking` return for a new connection. -/
inductive AcceptResult where
  /-- There is no connection. -/
  | failed
  /-- The socket cannot be made non-blocking and is closed. -/
  | blocking
  /-- A connection. -/
  | client (fd : ℤ)

/-- What the system calls of one pass return. -/
structure Calls where
  /-- The call of `select`. -/
  ready : SelectResult
  /-- The call of `accept`. -/
  accepted : AcceptResult
  /-- The call of `recv` for each slot. -/
  received : Slot → RecvResult
  /-- The calls of `send` for each slot. -/
  sent : Slot → List SendResult
  /-- What `now_seconds` returns. -/
  now : ℚ

/-- The arguments of `select`. -/
structure SelectSets where
  /-- The greatest descriptor. -/
  maxfd : ℤ
  /-- The descriptors to be read. -/
  readfds : Finset ℤ
  /-- The descriptors to be written. -/
  writefds : Finset ℤ
  deriving DecidableEq

/-- The loop of `build_select_sets` at one slot. -/
def addSelect (s : ServerState F) (sets : SelectSets) (i : Slot) : SelectSets :=
  let p := s.players i
  if !p.connected then sets
  else
    { readfds := insert p.fd sets.readfds
      writefds := if p.hasPendingOutput then insert p.fd sets.writefds else sets.writefds
      maxfd := if sets.maxfd < p.fd then p.fd else sets.maxfd }

/-- `build_select_sets`. -/
def buildSelectSets (listenFd : ℤ) (s : ServerState F) : SelectSets :=
  slots.foldl (addSelect s) ⟨listenFd, {listenFd}, ∅⟩

/-- `connected_player_count`. -/
def connectedPlayerCount (s : ServerState F) : ℕ :=
  slots.countP fun i => (s.players i).connected

variable [CFloat F]

/-- `accept_new_clients`: its return value, and the server after it. -/
def acceptNewClients (listenFd : ℤ) (readfds : Finset ℤ) (result : AcceptResult)
    (w : Server F) : Bool × Server F :=
  if listenFd ∉ readfds then (false, w)
  else
    match result with
    | .failed => (false, w)
    | .blocking => (false, w)
    | .client fd => ((addPlayer fd w).1.isSome, acceptNewClient fd w)

/-- The loop of `process_player_reads` at one slot. Every pass of the inner loop shortens
the receive buffer, so its length bounds their number. -/
def serveReads (readfds : Finset ℤ) (received : Slot → RecvResult) (w : Server F) (i : Slot) :
    Server F :=
  let p := w.state.players i
  if !p.connected then w
  else if p.fd ∉ readfds then w
  else
    let (rc, p) := p.readIntoPlayerBuffer (received i)
    if rc ≤ 0 then loseConnection i w
    else
      readLines i p.inbuf.length
        (w.record (.received i (received i).bytes) (w.state.setPlayer i p))

/-- `process_player_reads`. -/
def processPlayerReads (readfds : Finset ℤ) (received : Slot → RecvResult) (w : Server F) :
    Server F := slots.foldl (serveReads readfds received) w

/-- The loop of `process_player_writes` at one slot. -/
def serveWrites (writefds : Finset ℤ) (sent : Slot → List SendResult) (w : Server F) (i : Slot) :
    Server F :=
  if !(w.state.players i).connected then w
  else if (w.state.players i).fd ∉ writefds then w
  else writePlayer i (sent i) w

/-- `process_player_writes`. -/
def processPlayerWrites (writefds : Finset ℤ) (sent : Slot → List SendResult) (w : Server F) :
    Server F := slots.foldl (serveWrites writefds sent) w

/-- What a pass does for its clients when `select` reports these descriptors: whether a
client was accepted, and the server before the timers. -/
def serveReady (listenFd : ℤ) (reads writes : Finset ℤ) (c : Calls) (w : Server F) :
    Bool × Server F :=
  let sets := buildSelectSets listenFd w.state
  -- `select` leaves in the sets what is ready of them
  let readfds := sets.readfds ∩ reads
  let writefds := sets.writefds ∩ writes
  let (accepted, w) := acceptNewClients listenFd readfds c.accepted w
  let w := processPlayerReads readfds c.received w
  (accepted, processPlayerWrites writefds c.sent w)

/-- The variables of `main`, and whether its loop goes on. -/
structure Main (F : Type) where
  /-- The server state and the time of the last chase tick. -/
  loop : Loop F
  /-- A client has been accepted. -/
  sawClient : Bool
  /-- The loop has not been left. -/
  running : Bool

/-- Before the first pass. -/
def Main.init (clock : ℕ → ℤ) (start : ℚ) : Main F := ⟨Loop.init clock start, false, true⟩

/-- One pass of the loop, with the flag that `RPS_TEST_AUTO_EXIT` sets. -/
def Main.pass (autoExit : Bool) (listenFd : ℤ) (m : Main F) (c : Calls) : Main F :=
  if !m.running then m
  else
    match c.ready with
    | .interrupted => m
    | .failed => { m with running := false }
    | .ready reads writes =>
      let (accepted, w) := serveReady listenFd reads writes c m.loop.server
      let sawClient := accepted || m.sawClient
      let loop := (Loop.mk w m.loop.lastChaseTick).step (.timers c.now)
      { loop := loop
        sawClient := sawClient
        running := !(autoExit && sawClient && connectedPlayerCount loop.server.state = 0) }

/-- Passes in order. -/
def Main.run (autoExit : Bool) (listenFd : ℤ) (m : Main F) (cs : List Calls) : Main F :=
  cs.foldl (Main.pass autoExit listenFd) m

section Passes

/-- The step serves a client that is already there. -/
def Step.serves : Step → Bool
  | .read .. => true
  | .command _ => true
  | .write .. => true
  | _ => false

theorem Step.serves.inLoop {x : Step} (h : x.serves = true) : x.inLoop = true := by
  cases x <;> first | rfl | cases h

/-- A run in two parts. -/
theorem Loop.run_append (l : Loop F) (first second : List Step) :
    l.run (first ++ second) = (l.run first).run second := List.foldl_append

/-- Steps that serve clients, one after another. -/
def Taken (w v : Server F) : Prop :=
  ∃ steps : List Step, (∀ x ∈ steps, x.serves = true) ∧
    ∀ last, (Loop.mk w last).run steps = ⟨v, last⟩

theorem Taken.refl (w : Server F) : Taken w w := ⟨[], by simp, fun _ => rfl⟩

theorem Taken.trans {u v w : Server F} (huv : Taken u v) (hvw : Taken v w) : Taken u w := by
  obtain ⟨first, hfirst, hrun⟩ := huv
  obtain ⟨second, hsecond, hrest⟩ := hvw
  refine ⟨first ++ second, fun x hx => (List.mem_append.mp hx).elim (hfirst x) (hsecond x),
    fun last => ?_⟩
  rw [Loop.run_append, hrun last, hrest last]

/-- What holds between two passes and is kept by every step. -/
structure Sound (w : Server F) : Prop where
  /-- The invariants of the state. -/
  inv : Inv w
  /-- The sessions. -/
  sessions : Sessions w

/-- Every step keeps it. -/
theorem Sound.run {l : Loop F} (h : Sound l.server) (steps : List Step) :
    Sound (l.run steps).server := by
  induction steps generalizing l with
  | nil => exact h
  | cons x steps ih =>
    exact ih ⟨Loop.step_inv h.inv x, Loop.step_sessions h.inv h.sessions x⟩

theorem Sound.taken {w v : Server F} (h : Sound w) (htaken : Taken w v) : Sound v := by
  obtain ⟨steps, _, hrun⟩ := htaken
  have hv := Sound.run (l := ⟨w, 0⟩) h steps
  rwa [hrun 0] at hv

/-- The inner loop of `process_player_reads`. -/
theorem readLines_taken (i : Slot) (passes : ℕ) {w : Server F} (h : Sound w) :
    Taken w (readLines i passes w) := by
  refine ⟨List.replicate passes (.command i), ?_, fun last => ?_⟩
  · intro x hx
    rw [List.eq_of_mem_replicate hx]
    rfl
  · have hserver := readLines_eq i passes (l := ⟨w, last⟩) h.inv h.sessions
    have hlast : ∀ (n : ℕ) (l : Loop F),
        (l.run (List.replicate n (.command i))).lastChaseTick = l.lastChaseTick := by
      intro n
      induction n with
      | zero => exact fun _ => rfl
      | succ n ih => exact fun l => ih (l.step (.command i))
    rw [show readLines i passes w = _ from hserver]
    exact congrArg (Loop.mk _) (hlast passes ⟨w, last⟩)

/-- No complete line waits in a receive buffer. -/
def Drained (s : ServerState F) : Prop := ∀ i, '\n' ∉ (s.players i).inbuf

omit [CFloat F] in
/-- A slot with the same intake holds the same bytes. -/
theorem inbuf_of_intake {p q : Player F} (h : p.intake = q.intake) : p.inbuf = q.inbuf := by
  simp only [Player.intake, Prod.mk.injEq] at h
  exact h.2.2.2

/-- What follows from the transport makes no line complete. -/
theorem Quiet.drained {w v : Server F} (h : Quiet w v) {j : Slot}
    (hw : '\n' ∉ (w.state.players j).inbuf) : '\n' ∉ (v.state.players j).inbuf := by
  rcases h.intake j with hsame | ⟨_, hempty⟩
  · rwa [inbuf_of_intake hsame]
  · rw [hempty]
    exact List.not_mem_nil

/-- The inner loop leaves no complete line, and the other slots as they are. -/
theorem readLines_drained (i : Slot) {passes : ℕ} {w : Server F} (h : Sound w)
    (hpasses : (w.state.players i).inbuf.length ≤ passes)
    (hothers : ∀ j, j ≠ i → '\n' ∉ (w.state.players j).inbuf) :
    Drained (readLines i passes w).state := by
  induction passes generalizing w with
  | zero =>
    intro j
    by_cases hj : j = i
    · subst hj
      rw [readLines, List.length_eq_zero_iff.mp (Nat.le_zero.mp hpasses)]
      exact List.not_mem_nil
    · exact hothers j hj
  | succ passes ih =>
    rw [readLines]
    split
    · rename_i hnone
      intro j
      by_cases hj : j = i
      · subst hj
        exact Player.popLine_eq_none.mp hnone
      · exact hothers j hj
    · rename_i line p hpop
      have hlonger := Player.popLine_length hpop
      obtain ⟨inbuf, rfl⟩ := popLine_eq hpop
      have hconn : (w.state.players i).connected = true := by
        cases hconn : (w.state.players i).connected with
        | true => rfl
        | false =>
          rw [(h.sessions.free i hconn).2] at hlonger
          simp at hlonger
      have hstep : Action w (.popped i line) _ := .pop hconn hpop
      have hpopped : Sound (w.record (.popped i line) (w.state.setPlayer i
          { w.state.players i with inbuf := inbuf })) :=
        ⟨hstep.inv h.inv, hstep.sessions h.inv h.sessions⟩
      have hquiet := handleCommand_quiet line hpopped.inv
        (by simpa using hconn : ((w.record (.popped i line) (w.state.setPlayer i
          { w.state.players i with inbuf := inbuf })).state.players i).connected = true)
      have hsound : Sound (handleCommand i line (w.record (.popped i line)
          (w.state.setPlayer i { w.state.players i with inbuf := inbuf }))) :=
        ⟨hpopped.inv.along hquiet, (hquiet.invariant (fun v => Inv v ∧ Sessions v)
          (fun _ _ _ _ hs hv => ⟨hs.inv hv.1, hs.sessions hv.1 hv.2⟩)
          ⟨hpopped.inv, hpopped.sessions⟩).2⟩
      refine ih hsound ?_ fun j hj => hquiet.drained ?_
      · rcases hquiet.intake i with hsame | ⟨_, hempty⟩
        · rw [inbuf_of_intake hsame, System.record_state, ServerState.setPlayer_self]
          show inbuf.length ≤ passes
          have hshort : inbuf.length < (w.state.players i).inbuf.length := hlonger
          omega
        · rw [hempty]
          exact Nat.zero_le _
      · rw [System.record_state, ServerState.setPlayer_of_ne _ _ hj]
        exact hothers j hj

/-- A step that reads nothing makes no line complete. -/
theorem Loop.step_drained {l : Loop F} (hl : Inv l.server) {x : Step} (hx : x.inLoop = true)
    (hread : ∀ i result, x ≠ .read i result) (h : Drained l.server.state) :
    Drained (l.step x).server.state := by
  obtain ⟨v, hopens, hquiet⟩ := Loop.step_io hl hx
  suffices hv : Drained v.state from fun j => hquiet.drained (hv j)
  intro j
  cases hopens with
  | idle => exact h j
  | @accept _ i fd hfree =>
    show '\n' ∉ ((l.server.state.setPlayer i _).players j).inbuf
    rw [ServerState.setPlayer_players]
    split
    · exact List.not_mem_nil
    · exact h j
  | read hconn => exact absurd rfl (hread _ _)
  | @command _ i line inbuf hconn hpop =>
    rw [Player.popLine_eq_none.mpr (h i)] at hpop
    cases hpop
  | @write _ i results n hconn =>
    rw [System.record_state, ServerState.setPlayer_players]
    split
    · rename_i hji
      rw [hji] at *
      exact h i
    · exact h j

/-- One slot of `process_player_reads`: steps, after which no complete line waits. -/
theorem serveReads_spec (readfds : Finset ℤ) (received : Slot → RecvResult) {w : Server F}
    (h : Sound w) (hdrained : Drained w.state) (i : Slot) :
    Taken w (serveReads readfds received w i) ∧
      Drained (serveReads readfds received w i).state := by
  have hread : Taken w (readPlayer i (received i) w) :=
    ⟨[.read i (received i)], by simp [Step.serves], fun _ => rfl⟩
  unfold serveReads
  simp only
  split
  · exact ⟨.refl w, hdrained⟩
  rename_i hconn
  have hconn' : (w.state.players i).connected = true := by simpa using hconn
  split
  · exact ⟨.refl w, hdrained⟩
  split
  · rename_i hlost
    have heq : readPlayer i (received i) w = loseConnection i w := by
      simp [readPlayer, hconn', hlost]
    rw [heq] at hread
    exact ⟨hread, fun j => (loseConnection_mute i h.inv).quiet.drained (hdrained j)⟩
  · rename_i hkept
    generalize hp : ((w.state.players i).readIntoPlayerBuffer (received i)).2 = p at *
    have heq : readPlayer i (received i) w =
        w.record (.received i (received i).bytes) (w.state.setPlayer i p) := by
      simp [readPlayer, hconn', hkept, hp]
    rw [heq] at hread
    have hsound := h.taken hread
    refine ⟨hread.trans (readLines_taken i _ hsound), readLines_drained i hsound ?_ ?_⟩
    · rw [System.record_state, ServerState.setPlayer_self]
    · intro j hj
      rw [System.record_state, ServerState.setPlayer_of_ne _ _ hj]
      exact hdrained j

/-- One slot of `process_player_writes`. -/
theorem serveWrites_spec (writefds : Finset ℤ) (sent : Slot → List SendResult) {w : Server F}
    (h : Sound w) (hdrained : Drained w.state) (i : Slot) :
    Taken w (serveWrites writefds sent w i) ∧ Drained (serveWrites writefds sent w i).state := by
  unfold serveWrites
  split
  · exact ⟨.refl w, hdrained⟩
  split
  · exact ⟨.refl w, hdrained⟩
  · exact ⟨⟨[.write i (sent i)], by simp [Step.serves], fun _ => rfl⟩,
      Loop.step_drained (l := ⟨w, 0⟩) (x := .write i (sent i)) h.inv rfl (by simp) hdrained⟩

/-- A loop over the slots. -/
theorem foldl_taken {f : Server F → Slot → Server F}
    (hf : ∀ w i, Sound w → Drained w.state → Taken w (f w i) ∧ Drained (f w i).state)
    (is : List Slot) {w : Server F} (h : Sound w) (hdrained : Drained w.state) :
    Taken w (is.foldl f w) ∧ Drained (is.foldl f w).state := by
  induction is generalizing w with
  | nil => exact ⟨.refl w, hdrained⟩
  | cons i is ih =>
    obtain ⟨htaken, hnext⟩ := hf w i h hdrained
    obtain ⟨hrest, hlast⟩ := ih (h.taken htaken) hnext
    exact ⟨htaken.trans hrest, hlast⟩

/-- `accept_new_clients` is at most one step, and reports whether a client took a slot. -/
theorem acceptNewClients_spec (listenFd : ℤ) (readfds : Finset ℤ) (result : AcceptResult)
    (w : Server F) :
    acceptNewClients listenFd readfds result w = (false, w) ∨
      ∃ fd, acceptNewClients listenFd readfds result w =
        ((addPlayer fd w).1.isSome, acceptNewClient fd w) := by
  unfold acceptNewClients
  split
  · exact .inl rfl
  · cases result with
    | failed => exact .inl rfl
    | blocking => exact .inl rfl
    | client fd => exact .inr ⟨fd, rfl⟩

end Passes

/-- A pass that is not interrupted. -/
theorem Main.pass_ready (autoExit : Bool) (listenFd : ℤ) {m : Main F} {c : Calls}
    {reads writes : Finset ℤ} (hrunning : m.running = true)
    (hready : c.ready = .ready reads writes) :
    let before := serveReady listenFd reads writes c m.loop.server
    let loop := (Loop.mk before.2 m.loop.lastChaseTick).step (.timers c.now)
    m.pass autoExit listenFd c =
      { loop := loop
        sawClient := before.1 || m.sawClient
        running := !(autoExit && (before.1 || m.sawClient) &&
          connectedPlayerCount loop.server.state = 0) } := by
  simp only [pass, hrunning, hready, Bool.not_true, Bool.false_eq_true, if_false]

/-- Before the timers a pass has accepted at most one client and served the others. -/
theorem serveReady_spec (listenFd : ℤ) (reads writes : Finset ℤ) (c : Calls) {w : Server F}
    (h : Sound w) (hdrained : Drained w.state) :
    ∃ u v, serveReady listenFd reads writes c w = (u.1, v) ∧ Taken u.2 v ∧ Drained v.state ∧
      (u = (false, w) ∨ ∃ fd, u = ((addPlayer fd w).1.isSome, acceptNewClient fd w)) := by
  generalize hu : acceptNewClients listenFd
    ((buildSelectSets listenFd w.state).readfds ∩ reads) c.accepted w = u
  have hentered := acceptNewClients_spec listenFd
    ((buildSelectSets listenFd w.state).readfds ∩ reads) c.accepted w
  rw [hu] at hentered
  have hu' : Sound u.2 ∧ Drained u.2.state := by
    rcases hentered with heq | ⟨fd, heq⟩ <;> rw [heq]
    · exact ⟨h, hdrained⟩
    · exact ⟨Sound.run (l := ⟨w, 0⟩) h [.accept fd],
        Loop.step_drained (l := ⟨w, 0⟩) (x := .accept fd) h.inv rfl (by simp) hdrained⟩
  obtain ⟨hread, hreads⟩ := foldl_taken (fun _ i hv hd =>
    serveReads_spec ((buildSelectSets listenFd w.state).readfds ∩ reads) c.received hv hd i)
    slots hu'.1 hu'.2
  obtain ⟨hwrite, hwrites⟩ := foldl_taken (fun _ i hv hd =>
    serveWrites_spec ((buildSelectSets listenFd w.state).writefds ∩ writes) c.sent hv hd i)
    slots (hu'.1.taken hread) hreads
  refine ⟨u, _, ?_, hread.trans hwrite, hwrites, hentered⟩
  simp only [serveReady, hu]
  rfl

/-- A pass is a sequence of steps of the loop that leaves no complete line waiting. -/
theorem Main.pass_spec (autoExit : Bool) (listenFd : ℤ) {m : Main F} (h : Sound m.loop.server)
    (hdrained : Drained m.loop.server.state) (c : Calls) :
    ∃ steps : List Step, (∀ x ∈ steps, x.inLoop = true) ∧
      (m.pass autoExit listenFd c).loop = m.loop.run steps ∧
      Drained (m.pass autoExit listenFd c).loop.server.state := by
  cases hrunning : m.running with
  | false => exact ⟨[], by simp, by simp [pass, hrunning, Loop.run], by simpa [pass, hrunning]⟩
  | true =>
    cases hready : c.ready with
    | interrupted =>
      exact ⟨[], by simp, by simp [pass, hrunning, hready, Loop.run],
        by simpa [pass, hrunning, hready]⟩
    | failed =>
      exact ⟨[], by simp, by simp [pass, hrunning, hready, Loop.run],
        by simpa [pass, hrunning, hready]⟩
    | ready reads writes =>
      obtain ⟨u, v, hserve, ⟨steps, hsteps, hrun⟩, hv, hentered⟩ :=
        serveReady_spec listenFd reads writes c h hdrained
      rw [pass_ready autoExit listenFd hrunning hready, hserve]
      have hsound : Sound v := by
        have hu : Sound u.2 := by
          rcases hentered with rfl | ⟨fd, rfl⟩
          · exact h
          · exact Sound.run (l := m.loop) h [.accept fd]
        exact hu.taken ⟨steps, hsteps, hrun⟩
      have hserves : ∀ x ∈ steps ++ [.timers c.now], x.inLoop = true := by
        intro x hx
        rcases List.mem_append.mp hx with hx | hx
        · exact Step.serves.inLoop (hsteps x hx)
        · rw [List.mem_singleton.mp hx]
          rfl
      have hlast : (Loop.mk u.2 m.loop.lastChaseTick).run (steps ++ [.timers c.now]) =
          (Loop.mk v m.loop.lastChaseTick).step (.timers c.now) := by
        rw [Loop.run_append, hrun]
        rfl
      have hend : Drained ((Loop.mk v m.loop.lastChaseTick).step (.timers c.now)).server.state :=
        Loop.step_drained (l := ⟨v, m.loop.lastChaseTick⟩) (x := .timers c.now) hsound.inv rfl
          (by simp) hv
      rcases hentered with rfl | ⟨fd, rfl⟩
      · exact ⟨_, hserves, hlast.symm, hend⟩
      · have hfirst : m.loop.run (.accept fd :: (steps ++ [.timers c.now])) =
            (Loop.mk (acceptNewClient fd m.loop.server) m.loop.lastChaseTick).run
              (steps ++ [.timers c.now]) := rfl
        refine ⟨_, ?_, (hfirst.trans hlast).symm, hend⟩
        intro x hx
        rcases List.mem_cons.mp hx with rfl | hx
        · rfl
        · exact hserves x hx

/-- Between two passes. -/
theorem Main.run_spec (autoExit : Bool) (listenFd : ℤ) (cs : List Calls) {m : Main F}
    (h : Sound m.loop.server) (hdrained : Drained m.loop.server.state) :
    ∃ steps : List Step, (∀ x ∈ steps, x.inLoop = true) ∧
      (m.run autoExit listenFd cs).loop = m.loop.run steps ∧
      Drained (m.run autoExit listenFd cs).loop.server.state := by
  induction cs generalizing m with
  | nil => exact ⟨[], by simp, rfl, hdrained⟩
  | cons c cs ih =>
    obtain ⟨first, hfirst, hpass, hnext⟩ := pass_spec autoExit listenFd h hdrained c
    have hsound : Sound (m.pass autoExit listenFd c).loop.server := hpass ▸ Sound.run h first
    obtain ⟨rest, hrest, hrun, hlast⟩ := ih hsound hnext
    refine ⟨first ++ rest, fun x hx => (List.mem_append.mp hx).elim (hfirst x) (hrest x), ?_,
      hlast⟩
    rw [hpass] at hrun
    rw [Loop.run_append, ← hrun]
    rfl

/-- The first pass begins without clients. -/
theorem Sound.init (clock : ℕ → ℤ) (start : ℚ) : Sound (Loop.init clock start : Loop F).server :=
  ⟨Inv.init clock, .init clock⟩

/-- The program takes steps of the loop, whatever its system calls return, and between two
passes no client has to wait for another event to be heard: the lines processed for it are
all complete lines of the bytes received from it, and its receive buffer holds the rest. -/
theorem main_passes (autoExit : Bool) (listenFd : ℤ) (clock : ℕ → ℤ) (start : ℚ)
    (cs : List Calls) :
    let m := (Main.init clock start : Main F).run autoExit listenFd cs
    (∃ steps : List Step, (∀ x ∈ steps, x.inLoop = true) ∧
        m.loop = (Loop.init clock start).run steps) ∧
      ∀ i, (m.loop.server.state.players i).connected = true →
        let id := (m.loop.server.state.players i).id
        let stream := frames '\n' (receivedBy id m.loop.server.log)
        linesOf id m.loop.server.log = stream.1.map (lineOf MAX_LINE) ∧
          (m.loop.server.state.players i).inbuf = stream.2 := by
  intro m
  obtain ⟨steps, hsteps, hrun, hdrained⟩ := Main.run_spec autoExit listenFd cs
    (m := (Main.init clock start : Main F)) (Sound.init clock start) fun _ => List.not_mem_nil
  have hrun' : m.loop = (Loop.init clock start).run steps := hrun
  refine ⟨⟨steps, hsteps, hrun'⟩, fun i hconn => ?_⟩
  have hsessions : Sessions m.loop.server := by
    rw [hrun']
    exact (Sound.run (Sound.init clock start) steps).sessions
  have hsession := hsessions.session i hconn
  have hlines := hsession.lines
  have htail := hsession.tail
  rw [frames_of_not_mem (hdrained i)] at hlines htail
  rw [List.map_nil, List.append_nil] at hlines
  exact ⟨hlines, htail⟩

section Exit

/-- A client has been accepted. -/
def Welcomed (log : Log F) : Prop := ∃ x ∈ log, ∃ i, x.event = .accepted i

/-- Actions that accept nobody. -/
theorem Path.welcomed {w v : Server F}
    (h : Path Action (fun e => ∀ i, e ≠ .accepted i) w v) : Welcomed v.log ↔ Welcomed w.log := by
  obtain ⟨new, hlog, hnew⟩ := h.log_eq
  rw [hlog]
  constructor
  · rintro ⟨x, hx, i, he⟩
    rcases List.mem_append.mp hx with hx | hx
    · exact absurd he (hnew x hx i)
    · exact ⟨x, hx, i, he⟩
  · rintro ⟨x, hx, hi⟩
    exact ⟨x, List.mem_append_right _ hx, hi⟩

theorem Quiet.welcomed {w v : Server F} (h : Quiet w v) : Welcomed v.log ↔ Welcomed w.log :=
  Path.welcomed (h.mono fun e he i hi => by
    rw [hi] at he
    cases he)

/-- Only `accept_new_clients` accepts. -/
theorem Loop.step_welcomed {l : Loop F} (hl : Inv l.server) {x : Step} (hx : x.inLoop = true)
    (haccept : ∀ fd, x ≠ .accept fd) :
    Welcomed (l.step x).server.log ↔ Welcomed l.server.log := by
  obtain ⟨v, hopens, hquiet⟩ := Loop.step_io hl hx
  refine hquiet.welcomed.trans (Path.welcomed (hopens.path ?_))
  intro e _ hfd i hi
  obtain ⟨fd, hx⟩ := hfd i hi
  exact haccept fd hx

/-- Steps are a path. -/
theorem Taken.path {w v : Server F} (hw : Sound w) (h : Taken w v) :
    Path Action (fun _ => True) w v := by
  obtain ⟨steps, hsteps, hrun⟩ := h
  suffices hall : ∀ l : Loop F, Sound l.server →
      Path Action (fun _ => True) l.server (l.run steps).server by
    have hpath := hall ⟨w, 0⟩ hw
    rwa [hrun 0] at hpath
  clear hsteps hrun
  induction steps with
  | nil => exact fun _ _ => .refl _
  | cons x steps ih =>
    exact fun l hl => (Loop.step_path hl.inv x).trans (ih (l.step x) (Sound.run hl [x]))

theorem Taken.welcomed {w v : Server F} (hw : Sound w) (h : Taken w v) :
    Welcomed v.log ↔ Welcomed w.log := by
  obtain ⟨steps, hsteps, hrun⟩ := h
  suffices hall : ∀ l : Loop F, Sound l.server →
      (Welcomed (l.run steps).server.log ↔ Welcomed l.server.log) by
    have hboth := hall ⟨w, 0⟩ hw
    rwa [hrun 0] at hboth
  clear hrun
  induction steps with
  | nil => exact fun _ _ => .rfl
  | cons x steps ih =>
    intro l hl
    have hserves := hsteps x List.mem_cons_self
    have hrest := ih (fun y hy => hsteps y (List.mem_cons_of_mem _ hy)) (l.step x)
      (Sound.run hl [x])
    refine hrest.trans (Loop.step_welcomed hl.inv (Step.serves.inLoop hserves) ?_)
    rintro fd rfl
    cases hserves

/-- A client that finds a slot is accepted, and the return value says so. -/
theorem acceptNewClient_welcomed (fd : ℤ) {w : Server F} (hw : Sound w) :
    Welcomed (acceptNewClient fd w).log ↔ (addPlayer fd w).1.isSome = true ∨ Welcomed w.log := by
  cases hfind : slots.find? (fun i => !(w.state.players i).connected) with
  | none => simp [acceptNewClient, addPlayer, hfind]
  | some i =>
    have hsome : (addPlayer fd w).1.isSome = true := by simp [addPlayer, hfind]
    simp only [hsome, true_or, iff_true]
    exact (acceptNewClient_mute hw.inv hfind).quiet.welcomed.mpr ⟨_, List.mem_cons_self, i, rfl⟩

omit [CFloat F] in
/-- No slot is counted. -/
theorem connectedPlayerCount_eq_zero (s : ServerState F) :
    connectedPlayerCount s = 0 ↔ ∀ i, (s.players i).connected = false := by
  simp [connectedPlayerCount, List.countP_eq_zero, mem_slots]

/-- What the variables of `main` say. -/
structure Main.Known (autoExit : Bool) (m : Main F) : Prop where
  /-- The server is sound. -/
  sound : Sound m.loop.server
  /-- No complete line waits. -/
  drained : Drained m.loop.server.state
  /-- The flag tells whether a client has been accepted. -/
  seen : m.sawClient = true ↔ Welcomed m.loop.server.log
  /-- The loop has been left when the last of its clients was gone. -/
  left : m.running = false ↔ autoExit = true ∧ Welcomed m.loop.server.log ∧
    ∀ i, (m.loop.server.state.players i).connected = false

/-- A pass in which `select` does not fail keeps it. -/
theorem Main.Known.pass {autoExit : Bool} {m : Main F} (h : m.Known autoExit) (listenFd : ℤ)
    {c : Calls} (hselect : c.ready ≠ .failed) : (m.pass autoExit listenFd c).Known autoExit := by
  cases hrunning : m.running with
  | false =>
    have hsame : m.pass autoExit listenFd c = m := by simp [Main.pass, hrunning]
    rwa [hsame]
  | true =>
    cases hready : c.ready with
    | interrupted =>
      have hsame : m.pass autoExit listenFd c = m := by simp [Main.pass, hrunning, hready]
      rwa [hsame]
    | failed => exact absurd hready hselect
    | ready reads writes =>
      obtain ⟨steps, _, hpass, hdrained⟩ :=
        Main.pass_spec autoExit listenFd h.sound h.drained c
      have hsound : Sound (m.pass autoExit listenFd c).loop.server :=
        hpass ▸ Sound.run h.sound steps
      obtain ⟨u, v, hserve, htaken, _, hentered⟩ :=
        serveReady_spec listenFd reads writes c h.sound h.drained
      have hu : Sound u.2 ∧ (Welcomed u.2.log ↔ u.1 = true ∨ Welcomed m.loop.server.log) := by
        rcases hentered with rfl | ⟨fd, rfl⟩
        · exact ⟨h.sound, by simp⟩
        · exact ⟨Sound.run (l := m.loop) h.sound [.accept fd],
            acceptNewClient_welcomed fd h.sound⟩
      have htimers := Loop.step_welcomed (l := ⟨v, m.loop.lastChaseTick⟩) (x := .timers c.now)
        (hu.1.taken htaken).inv rfl (by simp)
      have hserver := Main.pass_ready autoExit listenFd hrunning hready
      simp only [hserve] at hserver
      rw [hserver] at hsound hdrained ⊢
      have hseen : (u.1 || m.sawClient) = true ↔
          Welcomed ((Loop.mk v m.loop.lastChaseTick).step (.timers c.now)).server.log := by
        rw [htimers, htaken.welcomed hu.1, hu.2, Bool.or_eq_true, h.seen]
      refine ⟨hsound, hdrained, hseen, ?_⟩
      simp only [Bool.not_eq_eq_eq_not, Bool.not_false, Bool.and_eq_true, decide_eq_true_eq,
        hseen, connectedPlayerCount_eq_zero, and_assoc]

/-- The loop of the tests: however long the run is and whatever the system calls return, as
long as `select` does not fail, the loop has been left exactly if the environment asks for
it, a client has been accepted since the start, and no client is connected. -/
theorem main_exit (autoExit : Bool) (listenFd : ℤ) (clock : ℕ → ℤ) (start : ℚ)
    (cs : List Calls) (hselect : ∀ c ∈ cs, c.ready ≠ .failed) :
    let m := (Main.init clock start : Main F).run autoExit listenFd cs
    m.running = false ↔ autoExit = true ∧
      (∃ x ∈ m.loop.server.log, ∃ i, x.event = .accepted i) ∧
        ∀ i, (m.loop.server.state.players i).connected = false := by
  have hinit : (Main.init clock start : Main F).Known autoExit := by
    refine ⟨Sound.init clock start, fun _ => List.not_mem_nil, ?_, ?_⟩ <;>
      simp [Main.init, Welcomed, Loop.init, Server.init]
  suffices hrun : ∀ m : Main F, m.Known autoExit → (m.run autoExit listenFd cs).Known autoExit from
    (hrun _ hinit).left
  induction cs with
  | nil => exact fun _ h => h
  | cons c cs ih =>
    obtain ⟨hc, hcs⟩ := List.forall_mem_cons.mp hselect
    exact fun m h => ih hcs _ (h.pass listenFd hc)

/-- A client connects and leaves again. -/
def shortVisit : List Calls :=
  [⟨.ready {3} ∅, .client 4, fun _ => .wouldBlock, fun _ => [], 0⟩,
    ⟨.ready {4} ∅, .failed, fun _ => .closed, fun _ => [], 0⟩]

/-- After it the loop has been left. -/
theorem main_exit_shortVisit :
    let m := (Main.init (fun _ => 1) 0 : Main Exact).run true 3 shortVisit
    (∃ x ∈ m.loop.server.log, ∃ i, x.event = .accepted i) ∧
      ∀ i, (m.loop.server.state.players i).connected = false :=
  ((main_exit true 3 (fun _ => 1) 0 shortVisit (by simp [shortVisit])).mp
    (by decide +kernel)).2

end Exit

section Timers

/-- The timers after the join window. -/
theorem advanceMatchTimers_after {w : Server F} (hw : Inv w) (now last dt : ℚ) :
    Acts (closeLobbyIfNeeded w) (advanceMatchTimers now last dt w).1 := by
  have hclose := closeLobbyIfNeeded_acts hw
  have hexpire := expireUnreadySetupPlayers_acts (hw.along hclose)
  unfold advanceMatchTimers
  simp only
  split
  · exact hexpire
  rename_i hphase
  split
  · exact hexpire
  refine hexpire.trans ?_
  dsimp only
  exact chaseTick_acts ((hw.along hclose).along hexpire) (not_not.mp hphase) _ _

/-- If the lobby is open after the timers, they had nothing to do, and the countdown, if
there is one, was not over. -/
theorem advanceMatchTimers_open (now last dt : ℚ) {w : Server F} (hw : Inv w)
    (hopen : (advanceMatchTimers now last dt w).1.state.phase = .lobbyOpen) :
    (advanceMatchTimers now last dt w).1 = w ∧
      (w.state.joinDeadline = 0 ∨ w.time < w.state.joinDeadline) := by
  have hphase : w.state.phase = .lobbyOpen := by
    by_contra hphase
    exact (advanceMatchTimers_acts hw now last dt).later hphase hopen
  by_cases htime : w.state.joinDeadline = 0 ∨ w.time < w.state.joinDeadline
  · have hsame : closeLobbyIfNeeded w = w := by
      rcases htime with htime | htime
      · simp [closeLobbyIfNeeded, htime]
      · simp [closeLobbyIfNeeded, htime]
    refine ⟨?_, htime⟩
    simp [advanceMatchTimers, hsame, expireUnreadySetupPlayers, hphase]
  · -- the lobby would be closed, and does not open again
    obtain ⟨hcount, htime⟩ := not_or.mp htime
    have hclose : Action w .lobbyClosed (closed w).state :=
      .closeLobby hphase hcount (not_lt.mp htime)
    have hinv : Inv (closed w) := hclose.inv hw
    obtain ⟨htold, hlater, horder⟩ := closingTold_reacts hinv
    have hdecided := decideSetup_reacts (hinv.along htold) hlater horder
    have hclosed : (closeLobbyIfNeeded w).state.phase ≠ .lobbyOpen := by
      have heq : closeLobbyIfNeeded w = decideSetup (closingTold w) := by
        unfold closeLobbyIfNeeded
        rw [if_neg (not_not.mpr hphase), if_neg hcount, if_neg htime]
        rfl
      rw [heq]
      exact Acts.later (Reacts.acts hdecided) hlater
    exact absurd hopen ((advanceMatchTimers_after hw now last dt).later hclosed)

/-- A pass looks at the timers: whenever `select` has not failed in it, the phase is not the
setup afterwards, and if a countdown runs in the lobby, the clock was read during this pass
and was still before its end. -/
theorem main_timers (autoExit : Bool) (listenFd : ℤ) (clock : ℕ → ℤ) (start : ℚ)
    (cs : List Calls) (c : Calls) (reads writes : Finset ℤ)
    (hready : c.ready = .ready reads writes) :
    let m := (Main.init clock start : Main F).run autoExit listenFd cs
    let after := m.pass autoExit listenFd c
    m.running = true →
      after.loop.server.state.phase ≠ .setup ∧
        (after.loop.server.state.phase = .lobbyOpen →
          after.loop.server.state.joinDeadline ≠ 0 →
            ∃ n, m.loop.server.log.length ≤ n ∧ n ≤ after.loop.server.log.length ∧
              clock n < after.loop.server.state.joinDeadline) := by
  intro m after hrunning
  obtain ⟨steps, hsteps, hrun, hdrained⟩ := Main.run_spec autoExit listenFd cs
    (m := (Main.init clock start : Main F)) (Sound.init clock start) fun _ => List.not_mem_nil
  have hrun' : m.loop = (Loop.init clock start).run steps := hrun
  have hsound : Sound m.loop.server := hrun' ▸ Sound.run (Sound.init clock start) steps
  obtain ⟨more, hmore, hpass, _⟩ := Main.pass_spec autoExit listenFd hsound hdrained c
  have hreached : Reached true after.loop.server := by
    refine ⟨clock, start, steps ++ more,
      fun _ x hx => (List.mem_append.mp hx).elim (hsteps x) (hmore x), ?_⟩
    rw [Loop.run_append, ← hrun', ← hpass]
  refine ⟨(phase_settled hreached ?_).setup, fun hopen hcount => ?_⟩
  · rintro ⟨x, hx, hfinished, _⟩
    exact hreached.unresolved ⟨x, hx, .inr hfinished⟩
  obtain ⟨u, v, hserve, htaken, _, hentered⟩ :=
    serveReady_spec listenFd reads writes c hsound hdrained
  have hu : Sound u.2 ∧ Path Action (fun _ => True) m.loop.server u.2 := by
    rcases hentered with rfl | ⟨fd, rfl⟩
    · exact ⟨hsound, .refl _⟩
    · exact ⟨Sound.run (l := m.loop) hsound [.accept fd],
        Loop.step_path (l := m.loop) hsound.inv (.accept fd)⟩
  have hv := hu.1.taken htaken
  have hserver : after.loop = (Loop.mk v m.loop.lastChaseTick).step (.timers c.now) := by
    have hpass := Main.pass_ready autoExit listenFd hrunning hready
    simp only [hserve] at hpass
    exact congrArg Main.loop hpass
  rw [hserver] at hopen hcount ⊢
  obtain ⟨hsame, htime⟩ := advanceMatchTimers_open c.now m.loop.lastChaseTick CHASE_TICK_SECONDS
    hv.inv hopen
  have hloop : ((Loop.mk v m.loop.lastChaseTick).step (.timers c.now)).server = v := hsame
  rw [hloop] at hcount ⊢
  have henv : v.env = clock := by
    rw [← hloop, ← hserver, hpass, hrun', ← Loop.run_append,
      (Loop.run_env (Inv.init clock) _).2]
    rfl
  refine ⟨v.log.length, ?_, le_rfl, ?_⟩
  · obtain ⟨new, hnew, _⟩ := (hu.2.trans (htaken.path hu.1)).log_eq
    rw [hnew, List.length_append]
    omega
  · have hleft := htime.resolve_left hcount
    rwa [Server.time, henv] at hleft

/-- A client that joins by the lines of one read. -/
def quickJoin : List Calls :=
  [⟨.ready {3} ∅, .client 4, fun _ => .wouldBlock, fun _ => [], 0⟩,
    ⟨.ready {4} ∅, .failed, fun _ => .data "HELLO A\nCHOICE R\nSPAWN 1 1\n".toList,
      fun _ => [], 0⟩]

/-- A pass in which nothing is ready. -/
def idlePass : Calls := ⟨.ready ∅ ∅, .failed, fun _ => .wouldBlock, fun _ => [], 0⟩

/-- The countdown runs, and a pass without any event finds that it is not over. -/
theorem main_timers_quickJoin :
    let m := (Main.init (fun _ => 1) 0 : Main Exact).run false 3 quickJoin
    ∃ n, m.loop.server.log.length ≤ n ∧
      n ≤ (m.pass false 3 idlePass).loop.server.log.length ∧
        1 < (m.pass false 3 idlePass).loop.server.state.joinDeadline :=
  (main_timers false 3 (fun _ => 1) 0 quickJoin idlePass ∅ ∅ rfl (by decide +kernel)).2
    (by decide +kernel) (by decide +kernel)

end Timers

end BattleRoyale
