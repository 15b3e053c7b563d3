import BattleRoyale.ChaseSimulation
import BattleRoyale.Protocol
import BattleRoyale.Library.Recorded

/-!
# The state engine

The functions of `server_state.c`. The mutual recursion of the source goes
through `reevaluate_state`, so every function that may re-enter it takes the
re-entrant call as its argument `reeval` (the names ending in `With`);
`reevaluateState` ties the knot with one level for each player slot and one more.
Every assignment and every call of `queue_line` is recorded with the state that
it leaves. `time(NULL)` may advance between any two recorded actions.
-/

namespace BattleRoyale

open Recorded

/-- The atomic actions that are recorded. -/
inductive Event (F : Type) where
  /-- The server started. -/
  | started
  /-- A connection took a slot. -/
  | accepted (i : Slot)
  /-- Bytes were received. -/
  | received (i : Slot) (bytes : List Char)
  /-- A line was taken from the receive buffer. -/
  | popped (i : Slot) (line : List Char)
  /-- The socket accepted bytes. -/
  | flushed (i : Slot) (bytes : List Char)
  /-- A line was queued. -/
  | queued (i : Slot) (via : Via) (line : ServerLine F)
  /-- `queue_line` failed. -/
  | refused (i : Slot) (via : Via) (line : ServerLine F)
  /-- `drop_player` cleared a slot that had this name. -/
  | dropped (i : Slot) (announce : Bool) (name : List Char)
  /-- HELLO was accepted. -/
  | registered (i : Slot)
  /-- CHOICE was accepted. -/
  | chose (i : Slot)
  /-- SPAWN was accepted. -/
  | spawned (i : Slot)
  /-- REPICK was accepted. -/
  | repicked (i : Slot)
  /-- The first join started the countdown. -/
  | lobbyOpened (i : Slot)
  /-- A player was admitted. -/
  | admitted (i : Slot)
  /-- An empty lobby lost its countdown, which was this deadline. -/
  | countdownCancelled (was : ℤ)
  /-- The countdown expired and the setup began. -/
  | lobbyClosed
  /-- `start_round`. -/
  | roundStarted
  /-- `finish_repicks` applied the submitted choices. -/
  | repicksFinished
  /-- `begin_repicks` changed the phase and cleared the submissions. -/
  | repicksBegun
  /-- `end_game` changed the phase. -/
  | gameEnded
  /-- `simulate_chase_tick`. -/
  | chaseTicked
  /-- `resolve_round` begins. -/
  | resolving
  /-- `resolve_round` moved the winner of a pair and eliminated the loser. -/
  | pairResolved (winner loser : Slot)
  /-- `resolve_round` cleared the round flags. -/
  | roundCleared
  /-- `reset_match` changed the phase and the deadlines. -/
  | matchReset
  /-- `reset_match` cleared the progress of a player. -/
  | progressReset (i : Slot)

/-- The server with the record of its actions. The environment is the clock: the
reading of `time(NULL)` after each number of recorded actions. -/
abbrev Server (F : Type) : Type := System (ℕ → ℤ) (ServerState F) (Event F)

variable {F : Type}

/-- The call `time(NULL)`. -/
def Server.time (w : Server F) : ℤ := w.env w.log.length

/-- Seconds until a deadline, at least zero. -/
def secondsLeft (deadline : ℤ) (w : Server F) : ℤ :=
  let rem := deadline - w.time
  if 0 < rem then rem else 0

variable [CFloat F]

/-- One call of `queue_line` for the player of a slot; true stands for success. -/
def queueTo (via : Via) (line : ServerLine F) (i : Slot) (w : Server F) : Bool × Server F :=
  match (w.state.players i).queueVia via line with
  | some p => (true, w.record (.queued i via line) (w.state.setPlayer i p))
  | none => (false, w.record (.refused i via line) w.state)

/-- Several lines for one player, up to the first failure. Each line is formatted
when its turn comes. -/
def queueSeq (via : Via) : List (Server F → ServerLine F) → Slot → Server F → Bool × Server F
  | [], _, w => (true, w)
  | line :: lines, i, w =>
    match queueTo via (line w) i w with
    | (true, w) => queueSeq via lines i w
    | (false, w) => (false, w)

/-- `drop_player` up to its announcement. -/
def dropSlot (announce : Bool) (i : Slot) (w : Server F) : Server F :=
  if (w.state.players i).connected then
    w.record (.dropped i announce (w.state.players i).name) (w.state.setPlayer i Player.cleared)
  else w

/-- The call `drop_player(s, i, 0)`, which announces nothing. -/
def dropSilently (i : Slot) (w : Server F) : Server F := dropSlot false i w

/-- The first loop of `queue_broadcast` at one slot: queue the line or remember the slot. -/
def offerLine (line : ServerLine F) (acc : List Slot × Server F) (i : Slot) :
    List Slot × Server F :=
  if (acc.2.state.players i).connected then
    match queueTo .broadcast line i acc.2 with
    | (true, w) => (acc.1, w)
    | (false, w) => (acc.1 ++ [i], w)
  else acc

/-- The first loop of `queue_broadcast`: the slots to drop, and the server. -/
def offerAll (line : ServerLine F) (w : Server F) : List Slot × Server F :=
  slots.foldl (offerLine line) ([], w)

/-- The second loop of `queue_broadcast`. -/
def dropAll (toDrop : List Slot) (w : Server F) : Server F :=
  toDrop.foldl (fun w i => dropSilently i w) w

/-- `queue_broadcast`. -/
def queueBroadcastWith (reeval : Server F → Server F) (line : ServerLine F) (w : Server F) :
    Server F :=
  match offerAll line w with
  | ([], w) => w
  | (toDrop, w) => reeval (dropAll toDrop w)

/-- The verdict of `queue_game_over_result`, if it sends one. -/
def Player.verdict (p : Player F) : Option Verdict :=
  if !p.connected || !p.registered then none
  else if p.isAdmitted && (p.alive || p.waiting) then some .win
  else if p.isAdmitted then some .lose
  else some .watched

/-- `queue_game_over_result`. -/
def queueGameOverResult (i : Slot) (w : Server F) : Bool × Server F :=
  match (w.state.players i).verdict with
  | none => (true, w)
  | some v => queueTo .verdict (.gameOver v) i w

/-- The lines of a snapshot that depend on the phase. -/
def phaseLines (s : ServerState F) (dst : Slot) : List (Server F → ServerLine F) :=
  match s.phase with
  | .lobbyOpen =>
    if s.joinDeadline = 0 then [fun _ => .lobbyWaiting]
    else [fun w => .lobbyOpen (secondsLeft s.joinDeadline w)]
  | .setup =>
    [fun _ => .lobbyClosed, fun w => .setupOpen (toInt32 (secondsLeft s.setupDeadline w))]
  | .roundActive =>
    [fun _ => .lobbyClosed,
      fun w => .roundStart s.roundNo (toInt32 (secondsLeft s.roundDeadline w))]
  | .repick => [fun _ => .lobbyClosed, fun _ => .repickStart]
  | .gameOver =>
    match (s.players dst).verdict with
    | none => []
    | some v => [fun _ => .gameOver v]

/-- The lines of a snapshot: no call of `queue_line` on the way changes what the
later lines are made of. -/
def snapshotLines (s : ServerState F) (dst : Slot) : List (Server F → ServerLine F) :=
  [fun _ => .stateBegin] ++ phaseLines s dst ++
    (slots.filter (fun i => (s.players i).isAdmitted)).map (fun i _ => (s.players i).line) ++
    [fun _ => .stateEnd]

/-- `queue_game_state_for_player`. -/
def queueGameStateForPlayer (dst : Slot) (w : Server F) : Bool × Server F :=
  queueSeq .checked (snapshotLines w.state dst) dst w

/-- The loop of `broadcast_game_state` at one slot, with the flag `dropped`. -/
def offerGameState (acc : Bool × Server F) (i : Slot) : Bool × Server F :=
  if (acc.2.state.players i).isRegistered then
    match queueGameStateForPlayer i acc.2 with
    | (true, w) => (acc.1, w)
    | (false, w) => (true, dropSilently i w)
  else acc

/-- `broadcast_game_state`. -/
def broadcastGameStateWith (reeval : Server F → Server F) (w : Server F) : Server F :=
  match slots.foldl offerGameState (false, w) with
  | (false, w) => w
  | (true, w) => reeval w

/-- The loop of `broadcast_positions` at one slot. -/
def broadcastPositionWith (reeval : Server F → Server F) (w : Server F) (i : Slot) : Server F :=
  if (w.state.players i).isAdmitted then
    queueBroadcastWith reeval (w.state.players i).line w
  else w

/-- `broadcast_positions`. -/
def broadcastPositionsWith (reeval : Server F → Server F) (w : Server F) : Server F :=
  slots.foldl (broadcastPositionWith reeval) w

/-- `start_active_round`. -/
def startActiveRoundWith (reeval : Server F → Server F) (w : Server F) : Server F :=
  let w := w.record .roundStarted (startRound w.time w.state)
  let w := queueBroadcastWith reeval (.roundStart w.state.roundNo ROUND_SECONDS) w
  broadcastPositionsWith reeval w

/-- What the loop of `finish_repicks` does to one slot. -/
def Player.applyRepick (p : Player F) : Player F :=
  if p.isAlive then
    { p with choice := p.repickChoice, repickSubmitted := false, repickChoice := '\x00' }
  else p

/-- `finish_repicks`. -/
def finishRepicksWith (reeval : Server F → Server F) (w : Server F) : Server F :=
  let w := w.record .repicksFinished
    { w.state with players := fun i => (w.state.players i).applyRepick }
  let w := queueBroadcastWith reeval .repickDone w
  let w := broadcastPositionsWith reeval w
  startActiveRoundWith reeval w

/-- What the loop of `begin_repicks` does to one slot. -/
def Player.clearRepick (p : Player F) : Player F :=
  { p with inRound := false, repickSubmitted := false, repickChoice := '\x00' }

/-- `begin_repicks`. -/
def beginRepicksWith (reeval : Server F → Server F) (w : Server F) : Server F :=
  let w := w.record .repicksBegun
    { w.state with phase := .repick, players := fun i => (w.state.players i).clearRepick }
  let w := queueBroadcastWith reeval .repickStart w
  broadcastPositionsWith reeval w

/-- Every player alive has submitted a repick, and somebody is alive. -/
def allAliveRepicked (s : ServerState F) : Bool :=
  slots.all (fun i => !(s.players i).isAlive || (s.players i).repickSubmitted) &&
    slots.any (fun i => (s.players i).isAlive)

/-- The loop of `end_game` at one slot. -/
def announceResult (w : Server F) (i : Slot) : Server F :=
  if (w.state.players i).connected then
    match queueGameOverResult i w with
    | (true, w) => w
    | (false, w) => dropSilently i w
  else w

/-- `end_game`. -/
def endGame (w : Server F) : Server F :=
  slots.foldl announceResult (w.record .gameEnded { w.state with phase := .gameOver })

/-- `reevaluate_lobby_open`. -/
def reevaluateLobbyOpen (w : Server F) : Server F :=
  if admittedCount w.state = 0 then
    w.record (.countdownCancelled w.state.joinDeadline) { w.state with joinDeadline := 0 }
  else w

/-- `reevaluate_setup`. -/
def reevaluateSetup (reeval : Server F → Server F) (w : Server F) : Server F :=
  if admittedCount w.state < 2 then endGame w
  else if allAdmittedReady w.state then startActiveRoundWith reeval w
  else w

/-- `reevaluate_repick`. -/
def reevaluateRepick (reeval : Server F → Server F) (w : Server F) : Server F :=
  if activeAliveCount w.state ≤ 1 then endGame w
  else if allAliveRepicked w.state then finishRepicksWith reeval w
  else w

/-- `reevaluate_round_active`. -/
def reevaluateRoundActive (w : Server F) : Server F :=
  if activeAliveCount w.state ≤ 1 ∨ countAliveChoiceTypes w.state ≤ 1 then endGame w else w

/-- The body of `reevaluate_state`. -/
def reevaluateBody (reeval : Server F → Server F) (w : Server F) : Server F :=
  match w.state.phase with
  | .gameOver => w
  | .lobbyOpen => reevaluateLobbyOpen w
  | .setup => reevaluateSetup reeval w
  | .repick => reevaluateRepick reeval w
  | .roundActive => reevaluateRoundActive w

/-- `reevaluate_state`, nested at most so deep. -/
def reevaluateWithin : ℕ → Server F → Server F
  | 0, w => w
  | depth + 1, w => reevaluateBody (reevaluateWithin depth) w

/-- `reevaluate_state`. -/
def reevaluateState : Server F → Server F := reevaluateWithin (MAX_PLAYERS + 1)

/-- `queue_broadcast`. -/
def queueBroadcast : ServerLine F → Server F → Server F := queueBroadcastWith reevaluateState

/-- `broadcast_game_state`. -/
def broadcastGameState : Server F → Server F := broadcastGameStateWith reevaluateState

/-- `broadcast_positions`. -/
def broadcastPositions : Server F → Server F := broadcastPositionsWith reevaluateState

/-- `start_active_round`. -/
def startActiveRound : Server F → Server F := startActiveRoundWith reevaluateState

/-- `finish_repicks`. -/
def finishRepicks : Server F → Server F := finishRepicksWith reevaluateState

/-- `begin_repicks`. -/
def beginRepicks : Server F → Server F := beginRepicksWith reevaluateState

/-- `drop_player`. -/
def dropPlayer (i : Slot) (announce : Bool) (w : Server F) : Server F :=
  let p := w.state.players i
  if p.connected && announce && p.registered then
    broadcastGameState (queueBroadcast (.left p.name) (dropSlot announce i w))
  else dropSlot announce i w

/-- The reply `ERROR lobby_closed` of `maybe_admit_player`. -/
def refuseLobbyClosed (i : Slot) (w : Server F) : Server F :=
  match queueTo .checked (.error .lobbyClosed) i w with
  | (true, w) => w
  | (false, w) => reevaluateState (dropSilently i w)

/-- The last part of `maybe_admit_player`, which admits the player. -/
def admitPlayer (i : Slot) (w : Server F) : Server F :=
  let w := w.record (.admitted i)
    (w.state.setPlayer i { w.state.players i with admitted := true, waiting := true })
  match queueTo .checked .joinedMatch i w with
  | (false, w) => reevaluateState (dropSilently i w)
  | (true, w) =>
    let w := queueBroadcast (.joined (w.state.players i).name) w
    broadcastGameState w

/-- `maybe_admit_player`. -/
def maybeAdmitPlayer (i : Slot) (w : Server F) : Server F :=
  let p := w.state.players i
  if !p.connected || !p.registered then w
  else if p.admitted then w
  else if !p.choiceChosen || !p.spawnChosen then w
  else if w.state.phase ≠ .lobbyOpen then refuseLobbyClosed i w
  else if w.state.joinDeadline = 0 then
    let w := w.record (.lobbyOpened i)
      { w.state with joinDeadline := w.time + JOIN_WINDOW_SECONDS }
    admitPlayer i (queueBroadcast (.lobbyOpen JOIN_WINDOW_SECONDS) w)
  else if w.state.joinDeadline ≤ w.time then refuseLobbyClosed i w
  else admitPlayer i w

/-- The assignments of `reset_player_progress`, and of the loop of `reset_match`. -/
def Player.resetProgress (p : Player F) : Player F :=
  { p with
    admitted := false
    alive := false
    waiting := false
    inRound := false
    choiceChosen := false
    spawnChosen := false
    repickSubmitted := false
    repickChoice := '\x00'
    choice := '\x00'
    x := CFloat.lit (-1)
    y := CFloat.lit (-1) }

/-- The lines that `reset_match` sends to each registered client. -/
def resetLines : List (Server F → ServerLine F) :=
  [fun _ => .matchReset, fun _ => .spectating, fun _ => .chooseType,
    fun _ => .chooseSpawn GRID_W GRID_H, fun _ => .lobbyWaiting]

/-- The loop of `reset_match` at one slot. -/
def resetPlayer (w : Server F) (i : Slot) : Server F :=
  if (w.state.players i).isRegistered then
    let w := w.record (.progressReset i)
      (w.state.setPlayer i (w.state.players i).resetProgress)
    match queueSeq .checked resetLines i w with
    | (true, w) => w
    | (false, w) => dropSilently i w
  else w

/-- `reset_match`. -/
def resetMatch (w : Server F) : Server F :=
  slots.foldl resetPlayer (w.record .matchReset
    { w.state with
      phase := .lobbyOpen
      joinDeadline := 0
      setupDeadline := 0
      roundDeadline := 0
      roundNo := 0 })

/-- The last part of `close_lobby_if_needed`, which decides the match. -/
def decideSetup (w : Server F) : Server F :=
  if admittedCount w.state < 2 then endGame w
  else if allAdmittedReady w.state then startActiveRound w
  else queueBroadcast .waitingForOthers w

/-- `close_lobby_if_needed`. -/
def closeLobbyIfNeeded (w : Server F) : Server F :=
  if w.state.phase ≠ .lobbyOpen then w
  else if w.state.joinDeadline = 0 then w
  else if w.time < w.state.joinDeadline then w
  else
    let w := w.record .lobbyClosed
      { w.state with phase := .setup, setupDeadline := w.time + SETUP_SECONDS }
    let w := queueBroadcast .lobbyClosed w
    let w := queueBroadcast (.setupOpen SETUP_SECONDS) w
    decideSetup w

/-- The loop of `expire_unready_setup_players` at one slot. -/
def expirePlayer (w : Server F) (i : Slot) : Server F :=
  let p := w.state.players i
  if p.isAdmitted && (!p.choiceChosen || !p.spawnChosen) then dropPlayer i true w else w

/-- `expire_unready_setup_players`. -/
def expireUnreadySetupPlayers (w : Server F) : Server F :=
  if w.state.phase ≠ .setup then w
  else if w.state.setupDeadline = 0 then w
  else if w.time < w.state.setupDeadline then w
  else
    let w := slots.foldl expirePlayer w
    if admittedCount w.state < 2 then endGame w
    else if allAdmittedReady w.state then startActiveRound w
    else w

/-- `advance_match_timers`, with the time of the last chase tick. -/
def advanceMatchTimers (now lastChaseTick chaseTickSeconds : ℚ) (w : Server F) :
    Server F × ℚ :=
  let w := closeLobbyIfNeeded w
  let w := expireUnreadySetupPlayers w
  if w.state.phase ≠ .roundActive then (w, lastChaseTick)
  else if now - lastChaseTick < chaseTickSeconds then (w, lastChaseTick)
  else
    let tick := simulateChaseTick w.state (CFloat.lit chaseTickSeconds)
    let w := w.record .chaseTicked tick.1
    let w := broadcastPositions w
    (if tick.2 then reevaluateState w else w, now)

/-- One pair of `resolve_round` in which the first player beats the second. -/
def resolveWin (pair : Pair) (winner loser : Slot) (w : Server F) : Server F :=
  let pw := w.state.players winner
  let pl := w.state.players loser
  let s := w.state.setPlayer winner { pw with x := pl.x, y := pl.y }
  let w := w.record (.pairResolved winner loser)
    (s.setPlayer loser
      { s.players loser with
        alive := false, inRound := false, x := CFloat.lit (-1), y := CFloat.lit (-1) })
  let a := w.state.players pair.a
  let b := w.state.players pair.b
  let win := w.state.players winner
  let w := queueBroadcast (.pairWinner a.name b.name a.choice b.choice win.name win.x win.y) w
  if (w.state.players loser).connected then
    match queueTo .checked .eliminated loser w with
    | (true, w) => w
    | (false, w) => dropSilently loser w
  else w

/-- The loop of `resolve_round` at one pair. -/
def resolvePair (w : Server F) (pair : Pair) : Server F :=
  let a := w.state.players pair.a
  let b := w.state.players pair.b
  let r := rpsResult a.choice b.choice
  if r = 1 then resolveWin pair pair.a pair.b w
  else if r = -1 then resolveWin pair pair.b pair.a w
  else queueBroadcast (.pairTie a.name b.name a.choice b.choice) w

/-- The announcement of the player who is left over. -/
def announceBye : Option Slot → Server F → Server F
  | none, w => w
  | some i, w => queueBroadcast (.bye (w.state.players i).name) w

/-- The last part of `resolve_round`, after the pairs. -/
def concludeRound (w : Server F) : Server F :=
  let w := w.record .roundCleared
    { w.state with players := fun i => { w.state.players i with inRound := false } }
  let w := broadcastPositions w
  if activeAliveCount w.state ≤ 1 then endGame w
  else if allAliveSameChoice w.state then beginRepicks w
  else startActiveRound w

/-- `resolve_round`. -/
def resolveRound (w : Server F) : Server F :=
  let w := w.record .resolving w.state
  let (pairs, bye) := buildPairs w.state (MAX_PLAYERS / 2)
  concludeRound (announceBye bye (pairs.foldl resolvePair w))

end BattleRoyale
