import BattleRoyale.ServerCommands

/-!
# The event loop

The functions of `server.c` that touch the state. A step is the part of the loop
body that serves one connection, one pending line, one flush or one timer call.
The loop body is a sequence of steps; a run may take the steps in any order.
-/

namespace BattleRoyale

open Recorded

variable {F : Type} [CFloat F]

/-- Simulated seconds in a chase tick. -/
def CHASE_TICK_SECONDS : ℚ := 16667 / 1000000

/-- The variables of `main`. -/
structure Loop (F : Type) where
  /-- The server state with its record. -/
  server : Server F
  /-- The time of the last chase tick. -/
  lastChaseTick : ℚ

/-- One step of the loop. -/
inductive Step where
  /-- `accept_new_clients` with a new socket. -/
  | accept (fd : ℤ)
  /-- The read of `process_player_reads` from one socket. -/
  | read (i : Slot) (result : RecvResult)
  /-- One iteration of the inner loop of `process_player_reads`: one complete line. -/
  | command (i : Slot)
  /-- `process_player_writes` for one socket. -/
  | write (i : Slot) (results : List SendResult)
  /-- `advance_match_timers` at the given time. -/
  | timers (now : ℚ)
  /-- `resolve_round` in an active round, which the loop never calls. -/
  | resolve
  deriving DecidableEq

/-- The step occurs in the loop. -/
def Step.inLoop : Step → Bool
  | .resolve => false
  | _ => true

/-- `accept_new_clients` after `accept` and `net_set_nonblocking` succeeded. -/
def acceptNewClient (fd : ℤ) (w : Server F) : Server F :=
  match addPlayer fd w with
  | (none, w) => w
  | (some i, w) =>
    match queueTo .line .info i w with
    | (true, w) => w
    | (false, w) => dropPlayer i false w

/-- A lost connection in `process_player_reads` and `process_player_writes`. -/
def loseConnection (i : Slot) (w : Server F) : Server F := reevaluateState (dropPlayer i true w)

/-- The read from one socket. -/
def readPlayer (i : Slot) (result : RecvResult) (w : Server F) : Server F :=
  if !(w.state.players i).connected then w
  else
    let (rc, p) := (w.state.players i).readIntoPlayerBuffer result
    if rc ≤ 0 then loseConnection i w
    else w.record (.received i result.bytes) (w.state.setPlayer i p)

/-- One iteration of the loop over the complete lines of a player. -/
def commandPlayer (i : Slot) (w : Server F) : Server F :=
  if !(w.state.players i).connected then w
  else
    match (w.state.players i).popLine MAX_LINE with
    | none => w
    | some (line, p) => handleCommand i line (w.record (.popped i line) (w.state.setPlayer i p))

/-- The flush to one socket. -/
def writePlayer (i : Slot) (results : List SendResult) (w : Server F) : Server F :=
  if !(w.state.players i).connected then w
  else
    let (rc, p) := (w.state.players i).flushPlayerOutput results
    let sent := (w.state.players i).outbuf.length - p.outbuf.length
    let w := w.record (.flushed i ((w.state.players i).outbuf.take sent)) (w.state.setPlayer i p)
    if rc < 0 then loseConnection i w else w

/-- `resolve_round`, taken in an active round only. -/
def resolveActiveRound (w : Server F) : Server F :=
  if w.state.phase = .roundActive then resolveRound w else w

/-- One step. -/
def Loop.step (l : Loop F) : Step → Loop F
  | .accept fd => { l with server := acceptNewClient fd l.server }
  | .read i result => { l with server := readPlayer i result l.server }
  | .command i => { l with server := commandPlayer i l.server }
  | .write i results => { l with server := writePlayer i results l.server }
  | .timers now =>
    let (w, last) := advanceMatchTimers now l.lastChaseTick CHASE_TICK_SECONDS l.server
    { server := w, lastChaseTick := last }
  | .resolve => { l with server := resolveActiveRound l.server }

/-- The server before the first step, for a clock. -/
def Server.init (clock : ℕ → ℤ) : Server F where
  env := clock
  state := initServerState
  log := [⟨.started, initServerState⟩]

/-- The loop before the first step. -/
def Loop.init (clock : ℕ → ℤ) (start : ℚ) : Loop F where
  server := Server.init clock
  lastChaseTick := start

/-- A run: the steps in order. -/
def Loop.run (l : Loop F) (steps : List Step) : Loop F := steps.foldl Loop.step l

/-- The loop after some steps of a run from the start; with `loopOnly`, only after
steps that occur in the loop. -/
def Reached (loopOnly : Bool) (w : Server F) : Prop :=
  ∃ (clock : ℕ → ℤ) (start : ℚ) (steps : List Step),
    (loopOnly = true → ∀ x ∈ steps, x.inLoop = true) ∧
      w = ((Loop.init clock start).run steps).server

end BattleRoyale
