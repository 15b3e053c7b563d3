import BattleRoyale.Common
import BattleRoyale.Text

/-!
# Lines that the server sends

One constructor stands for one format string of the server together with its
arguments, and `ServerLine.text` is what `vsnprintf` makes of them.
-/

namespace BattleRoyale

/-- The refusals, in the order of the handlers that send them. -/
inductive ErrorReason where
  /-- The command word is missing, too long or unknown. -/
  | badCommand
  /-- CHOICE or SPAWN before HELLO. -/
  | registerFirst
  /-- CHOICE or SPAWN after the admission. -/
  | alreadyJoined
  /-- A second HELLO. -/
  | alreadyRegistered
  /-- HELLO without a name. -/
  | usageHelloName
  /-- The name belongs to another client. -/
  | duplicateName
  /-- Not one of the three types. -/
  | badChoice
  /-- SPAWN without two numbers. -/
  | usageSpawnXY
  /-- The position is off the board. -/
  | badSpawn
  /-- The position belongs to an admitted player. -/
  | spawnTaken
  /-- REPICK outside of a repick. -/
  | notInRepickPhase
  /-- REPICK by a player who is out. -/
  | notAlive
  /-- A second REPICK. -/
  | alreadyRepicked
  /-- REMATCH while a match is open or running. -/
  | rematchNotAvailable
  /-- The join window has passed. -/
  | lobbyClosed
  deriving DecidableEq, Repr

/-- The word that follows `ERROR`. -/
def ErrorReason.text : ErrorReason → List Char
  | badCommand => "bad_command".toList
  | registerFirst => "register_first".toList
  | alreadyJoined => "already_joined".toList
  | alreadyRegistered => "already_registered".toList
  | usageHelloName => "usage_HELLO_name".toList
  | duplicateName => "duplicate_name".toList
  | badChoice => "bad_choice".toList
  | usageSpawnXY => "usage_SPAWN_x_y".toList
  | badSpawn => "bad_spawn".toList
  | spawnTaken => "spawn_taken".toList
  | notInRepickPhase => "not_in_repick_phase".toList
  | notAlive => "not_alive".toList
  | alreadyRepicked => "already_repicked".toList
  | rematchNotAvailable => "rematch_not_available".toList
  | lobbyClosed => "lobby_closed".toList

/-- The three forms of the result line. -/
inductive Verdict where
  /-- For an admitted player who is alive or waiting. -/
  | win
  /-- For any other admitted player. -/
  | lose
  /-- For a registered spectator. -/
  | watched
  deriving DecidableEq, Repr

/-- The text of a result line. -/
def Verdict.text : Verdict → List Char
  | win => "GAME_OVER WIN".toList
  | lose => "GAME_OVER LOSE".toList
  | watched => "GAME_OVER".toList

/-- The lines of the server, one constructor for each format string. -/
inductive ServerLine (F : Type) where
  /-- Greeting of a new connection. -/
  | info
  /-- A refusal. -/
  | error (reason : ErrorReason)
  /-- HELLO was accepted. -/
  | welcome (id : ℕ)
  /-- The client watches the match. -/
  | spectating
  /-- Prompt for CHOICE. -/
  | chooseType
  /-- Prompt for SPAWN. -/
  | chooseSpawn (width height : ℤ)
  /-- The lobby is open and no countdown runs. -/
  | lobbyWaiting
  /-- The lobby is open and closes in this many seconds. -/
  | lobbyOpen (seconds : ℤ)
  /-- The lobby is closed. -/
  | lobbyClosed
  /-- The setup countdown. -/
  | setupOpen (seconds : ℤ)
  /-- Some admitted player is not ready. -/
  | waitingForOthers
  /-- CHOICE was accepted. -/
  | choiceOk (choice : Char)
  /-- SPAWN was accepted. -/
  | spawnOk (x y : F)
  /-- REPICK was accepted. -/
  | repickOk (choice : Char)
  /-- REPICK was accepted and others are missing. -/
  | repickWaiting
  /-- The client was admitted. -/
  | joinedMatch
  /-- A player was admitted. -/
  | joined (name : List Char)
  /-- A client left. -/
  | left (name : List Char)
  /-- Head of a snapshot. -/
  | stateBegin
  /-- End of a snapshot. -/
  | stateEnd
  /-- One admitted player. -/
  | player (name : List Char) (choice : Char) (x y : F) (alive waiting : Bool)
  /-- A round starts. -/
  | roundStart (roundNo : ℕ) (seconds : ℤ)
  /-- A repick starts. -/
  | repickStart
  /-- A repick is complete. -/
  | repickDone
  /-- A pair with a winner. -/
  | pairWinner (a b : List Char) (choiceA choiceB : Char) (winner : List Char) (x y : F)
  /-- A pair without a winner. -/
  | pairTie (a b : List Char) (choiceA choiceB : Char)
  /-- The player without an opponent. -/
  | bye (name : List Char)
  /-- The client lost its pair. -/
  | eliminated
  /-- The result of the match. -/
  | gameOver (verdict : Verdict)
  /-- A new match begins. -/
  | matchReset

variable {F : Type} [CFloat F]

/-- The formatted text, without the newline that `queue_line` adds. -/
def ServerLine.text : ServerLine F → List Char
  | info => "INFO connected_send_HELLO_name".toList
  | error reason => "ERROR ".toList ++ reason.text
  | welcome id => "WELCOME ".toList ++ decimal id
  | spectating => "SPECTATING".toList
  | chooseType => "CHOOSE_TYPE".toList
  | chooseSpawn width height => "CHOOSE_SPAWN ".toList ++ decimal width ++ [' '] ++ decimal height
  | lobbyWaiting => "LOBBY_WAITING".toList
  | lobbyOpen seconds => "LOBBY_OPEN ".toList ++ decimal seconds
  | lobbyClosed => "LOBBY_CLOSED".toList
  | setupOpen seconds => "SETUP_OPEN ".toList ++ decimal seconds
  | waitingForOthers => "WAITING_FOR_OTHERS".toList
  | choiceOk choice => "CHOICE_OK ".toList ++ [choice]
  | spawnOk x y => "SPAWN_OK ".toList ++ CFloat.fixed 1 x ++ [' '] ++ CFloat.fixed 1 y
  | repickOk choice => "REPICK_OK ".toList ++ [choice]
  | repickWaiting => "REPICK_WAITING".toList
  | joinedMatch => "JOINED_MATCH".toList
  | joined name => "JOINED ".toList ++ name
  | left name => "LEFT ".toList ++ name
  | stateBegin => "STATE_BEGIN".toList
  | stateEnd => "STATE_END".toList
  | player name choice x y alive waiting =>
    "PLAYER ".toList ++ name ++ [' ', choice, ' '] ++ CFloat.fixed 3 x ++ [' '] ++
      CFloat.fixed 3 y ++ [' '] ++ flag alive ++ [' '] ++ flag waiting
  | roundStart roundNo seconds =>
    "ROUND_START ".toList ++ decimal roundNo ++ [' '] ++ decimal seconds
  | repickStart => "REPICK_START".toList
  | repickDone => "REPICK_DONE".toList
  | pairWinner a b choiceA choiceB winner x y =>
    "PAIR ".toList ++ a ++ [' '] ++ b ++ [' ', choiceA, ' ', choiceB] ++ " WINNER ".toList ++
      winner ++ " MOVE ".toList ++ CFloat.fixed 3 x ++ [' '] ++ CFloat.fixed 3 y
  | pairTie a b choiceA choiceB =>
    "PAIR ".toList ++ a ++ [' '] ++ b ++ [' ', choiceA, ' ', choiceB] ++ " TIE".toList
  | bye name => "BYE ".toList ++ name
  | eliminated => "ELIMINATED lost".toList
  | gameOver verdict => verdict.text
  | matchReset => "MATCH_RESET".toList

/-- The `PLAYER` line of a table entry. -/
def Player.line (p : Player F) : ServerLine F :=
  .player p.name (if p.choiceChosen then p.choice else '?') p.x p.y p.alive p.waiting

end BattleRoyale
