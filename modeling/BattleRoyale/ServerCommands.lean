import BattleRoyale.ServerState

/-!
# Commands

The functions of `server_commands.c`: the parser for one line of a client and
the handlers behind it. An argument text is `none` where the source passes a
null pointer.
-/

namespace BattleRoyale

open Recorded

/-- `parse_command` for a command buffer of the given size: the command word and
the argument text. -/
def parseCommand (line : List Char) (cmdSize : ℕ) : Option (List Char × Option (List Char)) :=
  match line with
  | [] => none
  | _ =>
    match line.dropWhile (· ≠ ' ') with
    | [] => some (line.take (cmdSize - 1), none)
    | _ :: rest =>
      let cmd := line.takeWhile (· ≠ ' ')
      if cmd.length = 0 ∨ cmdSize ≤ cmd.length then none
      else
        match rest.dropWhile (· = ' ') with
        | [] => some (cmd, none)
        | args => some (cmd, some args)

/-- Lower case letters become upper case. -/
def upper (c : Char) : Char :=
  if 'a' ≤ c ∧ c ≤ 'z' then Char.ofNat (c.toNat - 'a'.toNat + 'A'.toNat) else c

/-- `parse_rps_choice_arg`. -/
def parseRpsChoiceArg : Option (List Char) → Option Char
  | some [c] =>
    let choice := upper c
    if choice ≠ 'R' ∧ choice ≠ 'P' ∧ choice ≠ 'S' then none else some choice
  | _ => none

variable {F : Type} [CFloat F]

/-- A direct call of `queue_line` whose result is ignored. -/
def reply (line : ServerLine F) (i : Slot) (w : Server F) : Server F :=
  (queueTo .line line i w).2

/-- `require_registered_not_admitted`. -/
def requireRegisteredNotAdmitted (i : Slot) (w : Server F) : Bool × Server F :=
  let p := w.state.players i
  if !p.registered then (false, reply (.error .registerFirst) i w)
  else if p.admitted then (false, reply (.error .alreadyJoined) i w)
  else (true, w)

/-- `queue_lobby_status_for_player`. -/
def queueLobbyStatusForPlayer (i : Slot) (w : Server F) : Server F :=
  if w.state.phase = .lobbyOpen then
    let w := reply .chooseType i w
    let w := reply (.chooseSpawn GRID_W GRID_H) i w
    if w.state.joinDeadline = 0 then reply .lobbyWaiting i w
    else reply (.lobbyOpen (secondsLeft w.state.joinDeadline w)) i w
  else reply .lobbyClosed i w

/-- `find_name`. -/
def findName (s : ServerState F) (name : List Char) : Option Slot :=
  slots.find? (fun i => (s.players i).isRegistered && (s.players i).name == name)

/-- `spawn_taken`: the coordinates are already cast to `int`. -/
def spawnTaken (s : ServerState F) (x y : ℤ) (ignore : Slot) : Bool :=
  slots.any (fun i => decide (i ≠ ignore) && (s.players i).isAdmitted &&
    (s.players i).spawnChosen && CFloat.eq (s.players i).x (CFloat.ofInt x) &&
    CFloat.eq (s.players i).y (CFloat.ofInt y))

/-- `init_player_slot`. -/
def initPlayerSlot (fd : ℤ) (id : ℕ) : Player F :=
  { (Player.zero : Player F) with
    fd := fd
    id := id
    connected := true
    x := CFloat.lit (-1)
    y := CFloat.lit (-1) }

/-- `add_player`: the slot taken, if there is one. -/
def addPlayer (fd : ℤ) (w : Server F) : Option Slot × Server F :=
  match slots.find? (fun i => !(w.state.players i).connected) with
  | none => (none, w)
  | some i =>
    (some i, w.record (.accepted i)
      { w.state.setPlayer i (initPlayerSlot fd w.state.nextId) with
        nextId := w.state.nextId + 1 })

/-- `handle_hello_command`. -/
def handleHelloCommand (i : Slot) (args : Option (List Char)) (w : Server F) : Server F :=
  let p := w.state.players i
  if p.registered then reply (.error .alreadyRegistered) i w
  else
    match args.bind (scanWord (MAX_NAME_LENGTH - 1)) with
    | none => reply (.error .usageHelloName) i w
    | some (name, _) =>
      if (findName w.state name).isSome then reply (.error .duplicateName) i w
      else
        let w := w.record (.registered i)
          (w.state.setPlayer i { p.resetProgress with name := name, registered := true })
        let w := reply (.welcome (w.state.players i).id) i w
        let w := reply .spectating i w
        queueLobbyStatusForPlayer i w

/-- `handle_choice_command`. -/
def handleChoiceCommand (i : Slot) (args : Option (List Char)) (w : Server F) : Server F :=
  match requireRegisteredNotAdmitted i w with
  | (false, w) => w
  | (true, w) =>
    match parseRpsChoiceArg args with
    | none => reply (.error .badChoice) i w
    | some choice =>
      let w := w.record (.chose i)
        (w.state.setPlayer i
          { w.state.players i with choice := choice, choiceChosen := true })
      maybeAdmitPlayer i (reply (.choiceOk choice) i w)

/-- The conversion `%f %f` of SPAWN's argument text. -/
def scanSpawn (args : List Char) : Option (F × F) :=
  match CFloat.scan (skipSpace args) with
  | none => none
  | some (x, rest) =>
    match CFloat.scan (skipSpace rest) with
    | none => none
    | some (y, _) => some (x, y)

/-- The range check of `handle_spawn_command`. -/
def badSpawn (x y : F) : Bool :=
  CFloat.lt x (CFloat.lit 0) || CFloat.le (CFloat.ofInt GRID_W) x ||
    CFloat.lt y (CFloat.lit 0) || CFloat.le (CFloat.ofInt GRID_H) y

/-- `handle_spawn_command`. -/
def handleSpawnCommand (i : Slot) (args : Option (List Char)) (w : Server F) : Server F :=
  match requireRegisteredNotAdmitted i w with
  | (false, w) => w
  | (true, w) =>
    match args.bind scanSpawn with
    | none => reply (.error .usageSpawnXY) i w
    | some (x, y) =>
      if badSpawn x y then reply (.error .badSpawn) i w
      else if spawnTaken w.state (CFloat.toInt x) (CFloat.toInt y) i then
        reply (.error .spawnTaken) i w
      else
        let w := w.record (.spawned i)
          (w.state.setPlayer i { w.state.players i with x := x, y := y, spawnChosen := true })
        maybeAdmitPlayer i (reply (.spawnOk x y) i w)

/-- `handle_repick_command`. -/
def handleRepickCommand (i : Slot) (args : Option (List Char)) (w : Server F) : Server F :=
  let p := w.state.players i
  if w.state.phase ≠ .repick then reply (.error .notInRepickPhase) i w
  else if !p.registered || !p.admitted || !p.alive then reply (.error .notAlive) i w
  else if p.repickSubmitted then reply (.error .alreadyRepicked) i w
  else
    match parseRpsChoiceArg args with
    | none => reply (.error .badChoice) i w
    | some choice =>
      let w := w.record (.repicked i)
        (w.state.setPlayer i { p with repickChoice := choice, repickSubmitted := true })
      let w := reply (.repickOk choice) i w
      if allAliveRepicked w.state then finishRepicks w else reply .repickWaiting i w

/-- `handle_get_state_command`. -/
def handleGetStateCommand (i : Slot) (w : Server F) : Server F :=
  match queueGameStateForPlayer i w with
  | (true, w) => w
  | (false, w) => reevaluateState (dropSilently i w)

/-- `handle_rematch_command`. -/
def handleRematchCommand (i : Slot) (w : Server F) : Server F :=
  if w.state.phase ≠ .gameOver then reply (.error .rematchNotAvailable) i w
  else resetMatch w

/-- `handle_quit_command`. -/
def handleQuitCommand (i : Slot) (w : Server F) : Server F :=
  reevaluateState (dropPlayer i true w)

/-- `handle_command` for the bytes that `pop_line` stored. -/
def handleCommand (i : Slot) (line : List Char) (w : Server F) : Server F :=
  match parseCommand (cString line) 16 with
  | none => reply (.error .badCommand) i w
  | some (cmd, args) =>
    if cmd = "HELLO".toList then handleHelloCommand i args w
    else if cmd = "GET_STATE".toList then handleGetStateCommand i w
    else if cmd = "CHOICE".toList then handleChoiceCommand i args w
    else if cmd = "SPAWN".toList then handleSpawnCommand i args w
    else if cmd = "REPICK".toList then handleRepickCommand i args w
    else if cmd = "REMATCH".toList then handleRematchCommand i w
    else if cmd = "QUIT".toList then handleQuitCommand i w
    else reply (.error .badCommand) i w

end BattleRoyale
