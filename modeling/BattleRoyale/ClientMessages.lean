import BattleRoyale.Common
import BattleRoyale.Text

/-!
# The client's picture of the match

The line parser of `client_text_messages.c` and the parts of `client_state.h` that it
reads and writes. The two parsers try their formats in order, and the first one that fits
decides. The time of the client, `rps_now_seconds`, is an argument.
-/

namespace BattleRoyale

/-- A player as the client knows it. -/
structure ClientPlayer (F : Type) where
  /-- The entry is in use. -/
  used : Bool
  /-- The name. -/
  name : List Char
  /-- The last known type. -/
  choice : Char
  /-- The last known horizontal position. -/
  x : F
  /-- The last known vertical position. -/
  y : F
  /-- The flag `alive` of the last snapshot. -/
  alive : ℤ
  /-- The flag `waiting` of the last snapshot. -/
  waiting : ℤ
  deriving DecidableEq

/-- The client's state, as far as server lines are concerned. -/
structure ClientState (F : Type) where
  /-- The players of the last snapshot. -/
  players : Slot → ClientPlayer F
  /-- The status line. -/
  statusText : List Char
  /-- The name that was sent last. -/
  pendingName : List Char
  /-- The registered name. -/
  myName : List Char
  /-- One after a victory, minus one after a defeat. -/
  matchResult : ℤ
  /-- The server knows the client's name. -/
  nameRegistered : Bool
  /-- A HELLO has not been answered. -/
  nameCheckPending : Bool
  /-- A repick runs. -/
  repickPhase : Bool
  /-- The match is over. -/
  gameOver : Bool
  /-- CHOICE and SPAWN make sense. -/
  canAttemptJoin : Bool
  /-- The client takes part in the match. -/
  joinedMatch : Bool
  /-- CHOICE was accepted. -/
  choiceConfirmed : Bool
  /-- SPAWN was accepted. -/
  spawnConfirmed : Bool
  /-- The client's type. -/
  selectedChoice : Char
  /-- End of the join countdown, zero when none runs. -/
  lobbyEndTime : ℚ
  /-- End of the setup countdown, zero when none runs. -/
  setupEndTime : ℚ
  /-- End of the round, zero when none runs. -/
  roundEndTime : ℚ

variable {F : Type} [CFloat F]

/-- An entry after `memset` to zero. -/
def ClientPlayer.zero : ClientPlayer F where
  used := false
  name := []
  choice := '\x00'
  x := CFloat.lit 0
  y := CFloat.lit 0
  alive := 0
  waiting := 0

/-- `find_player`. -/
def findPlayer (players : Slot → ClientPlayer F) (name : List Char) : Option Slot :=
  slots.find? (fun i => (players i).used && (players i).name == name)

/-- The entry of a player that is seen for the first time. -/
def ClientPlayer.fresh (name : List Char) : ClientPlayer F :=
  { (ClientPlayer.zero : ClientPlayer F) with
    used := true
    name := name.take (MAX_NAME_LENGTH - 1)
    choice := '?'
    x := CFloat.lit (-1)
    y := CFloat.lit (-1) }

/-- `get_or_add_player`: the table and the index of the player in it, if there is room. -/
def getOrAddPlayer (players : Slot → ClientPlayer F) (name : List Char) :
    Option Slot × (Slot → ClientPlayer F) :=
  match findPlayer players name with
  | some i => (some i, players)
  | none =>
    match slots.find? (fun i => !(players i).used) with
    | some i => (some i, Function.update players i (.fresh name))
    | none => (none, players)

/-- `clear_players`. -/
def clearPlayers : Slot → ClientPlayer F := fun _ => .zero

/-- `snprintf` to the status line. -/
def ClientState.setStatus (c : ClientState F) (text : List Char) : ClientState F :=
  { c with statusText := text.take 255 }

/-- A format that is one word and `%31s`. -/
def scanNamed (word line : List Char) : Option (List Char) :=
  (scanLiteral word line).bind fun rest =>
    (scanWord (MAX_NAME_LENGTH - 1) rest).map fun (name, _) => name

/-- A format that is one word and `%d` or `%ld`. -/
def scanCounted (word line : List Char) : Option ℤ :=
  (scanLiteral word line).bind fun rest => (scanInt rest).map fun (n, _) => n

/-- The format `PLAYER %31s %c %f %f %d %d`, as the entry that it describes. -/
def scanPlayerLine (line : List Char) : Option (ClientPlayer F) :=
  (scanLiteral "PLAYER".toList line).bind fun rest =>
  (scanWord (MAX_NAME_LENGTH - 1) rest).bind fun (name, rest) =>
  (scanChar rest).bind fun (choice, rest) =>
  (CFloat.scan (skipSpace rest)).bind fun (x, rest) =>
  (CFloat.scan (skipSpace rest)).bind fun (y, rest) =>
  (scanInt rest).bind fun (alive, rest) =>
  (scanInt rest).map fun (waiting, _) =>
    { used := true, name := name, choice := choice, x := x, y := y, alive := alive,
      waiting := waiting }

/-- The format `ROUND_START %d %d`. -/
def scanRoundStart (line : List Char) : Option (ℤ × ℤ) :=
  (scanLiteral "ROUND_START".toList line).bind fun rest =>
  (scanInt rest).bind fun (roundNo, rest) =>
  (scanInt rest).map fun (seconds, _) => (roundNo, seconds)

/-- The names and types of a `PAIR` line. -/
def scanPair (line : List Char) :
    Option (List Char × List Char × Char × Char × List Char) :=
  (scanLiteral "PAIR".toList line).bind fun rest =>
  (scanWord (MAX_NAME_LENGTH - 1) rest).bind fun (a, rest) =>
  (scanWord (MAX_NAME_LENGTH - 1) rest).bind fun (b, rest) =>
  (scanChar rest).bind fun (choiceA, rest) =>
  (scanChar rest).map fun (choiceB, rest) => (a, b, choiceA, choiceB, rest)

/-- The rest of the format of a pair with a winner. -/
def scanWinner (rest : List Char) : Option (List Char × F × F) :=
  (scanLiteral "WINNER".toList (skipSpace rest)).bind fun rest =>
  (scanWord (MAX_NAME_LENGTH - 1) rest).bind fun (winner, rest) =>
  (scanLiteral "MOVE".toList (skipSpace rest)).bind fun rest =>
  (CFloat.scan (skipSpace rest)).bind fun (x, rest) =>
  (CFloat.scan (skipSpace rest)).map fun (y, _) => (winner, x, y)

/-- The format `SPAWN_OK %f %f`. -/
def scanSpawnOk (line : List Char) : Option (F × F) :=
  (scanLiteral "SPAWN_OK".toList line).bind fun rest =>
  (CFloat.scan (skipSpace rest)).bind fun (x, rest) =>
  (CFloat.scan (skipSpace rest)).map fun (y, _) => (x, y)

/-- What a `PLAYER` line does. -/
def ClientState.showPlayer (c : ClientState F) (e : ClientPlayer F) : ClientState F :=
  let (idx, players) := getOrAddPlayer c.players e.name
  let players := match idx with
    | some i => Function.update players i
        { players i with
          choice := e.choice, x := e.x, y := e.y, alive := e.alive, waiting := e.waiting }
    | none => players
  { c with
    players := players
    selectedChoice :=
      if e.name = c.myName ∧ (e.choice = 'R' ∨ e.choice = 'P' ∨ e.choice = 'S') then e.choice
      else c.selectedChoice }

/-- What the line of a pair with a winner does. -/
def ClientState.showWinner (c : ClientState F) (a b winner : List Char) (x y : F) :
    ClientState F :=
  let loser := if winner = a then b else a
  let players := match findPlayer c.players winner with
    | some i => Function.update c.players i
        { c.players i with x := x, y := y, alive := 1, waiting := 0 }
    | none => c.players
  let players := match findPlayer c.players loser with
    | some i => Function.update players i
        { players i with
          alive := 0, waiting := 0, x := CFloat.lit (-1), y := CFloat.lit (-1) }
    | none => players
  { c with players := players }.setStatus (winner ++ " beat ".toList ++ loser)

/-- The last part of `parse_state_snapshot_line`. -/
def parseResultLine (line : List Char) (c : ClientState F) : ClientState F :=
  match scanNamed "BYE".toList line with
  | some name => c.setStatus (name ++ " got a bye".toList)
  | none =>
    match scanNamed "GAME_OVER".toList line with
    | none => c
    | some result =>
      let c := { c with gameOver := true, roundEndTime := 0 }
      if result = "WIN".toList then
        { c with matchResult := 1 }.setStatus "You won. Press M for rematch.".toList
      else if result = "LOSE".toList then
        { c with matchResult := -1 }.setStatus "You lost. Press M for rematch.".toList
      else { c with matchResult := 0 }.setStatus "Game over. Press M for rematch.".toList

/-- `parse_state_snapshot_line`. -/
def parseStateSnapshotLine (now : ℚ) (line : List Char) (c : ClientState F) : ClientState F :=
  if line = "STATE_BEGIN".toList then { c with players := clearPlayers }
  else if line = "STATE_END".toList then c
  else
    match scanPlayerLine line with
    | some e => c.showPlayer e
    | none =>
      match scanRoundStart line with
      | some (_, seconds) =>
        { c with
          repickPhase := false
          roundEndTime := if 0 < seconds then now + seconds else 0
          setupEndTime := 0 }.setStatus "Match started".toList
      | none =>
        if line = "REPICK_START".toList then
          { c with repickPhase := true }.setStatus "Repick phase. Press R, P, or S.".toList
        else if line = "REPICK_DONE".toList then
          { c with repickPhase := false }.setStatus "Repick finished".toList
        else if "PAIR ".toList.isPrefixOf line then
          match scanPair line with
          | none => parseResultLine line c
          | some (a, b, _, _, rest) =>
            match scanWinner rest with
            | some (winner, x, y) => c.showWinner a b winner x y
            | none => c.setStatus (a ++ " and ".toList ++ b ++ " tied".toList)
        else parseResultLine line c

/-- The last part of `parse_general_line`: refusals, joins and departures. -/
def parseNoticeLine (line : List Char) (c : ClientState F) : ClientState F :=
  if "WAITING_FOR_OTHERS".toList.isPrefixOf line then
    c.setStatus "Waiting for other admitted players.".toList
  else if "ERROR spawn_taken".toList.isPrefixOf line then
    { c with spawnConfirmed := false }.setStatus "Spawn taken. Click another tile.".toList
  else if "ERROR lobby_closed".toList.isPrefixOf line then
    { c with canAttemptJoin := false }.setStatus
      "Too late to join this match. Spectating only.".toList
  else if "ERROR already_joined".toList.isPrefixOf line then
    c.setStatus "Already joined this match.".toList
  else if "ERROR rematch_not_available".toList.isPrefixOf line then
    c.setStatus "Rematch only works after GAME_OVER.".toList
  else if "ERROR duplicate_name".toList.isPrefixOf line then
    { c with nameCheckPending := false, nameRegistered := false }.setStatus
      "Name is taken. Try another name.".toList
  else if "ERROR already_registered".toList.isPrefixOf line then
    { c with nameCheckPending := false, nameRegistered := true }.setStatus
      "Name already registered on this connection.".toList
  else if "ERROR register_first".toList.isPrefixOf line then
    { c with nameRegistered := false }.setStatus "Set your name first.".toList
  else if "JOINED ".toList.isPrefixOf line then
    match scanNamed "JOINED".toList line with
    | some name => c.setStatus (name ++ " joined the match".toList)
    | none => c
  else
    match scanNamed "LEFT".toList line with
    | some name =>
      let players := match findPlayer c.players name with
        | some i => Function.update c.players i { c.players i with used := false }
        | none => c.players
      { c with players := players }.setStatus (name ++ " left".toList)
    | none => if "ERROR ".toList.isPrefixOf line then c.setStatus line else c

/-- The middle part of `parse_general_line`: the prompts of the lobby and their answers. -/
def parseLobbyLine (now : ℚ) (line : List Char) (c : ClientState F) : ClientState F :=
  if line = "LOBBY_WAITING".toList then
    { c with canAttemptJoin := true, lobbyEndTime := 0 }.setStatus
      "Lobby idle. Be the first player to join.".toList
  else
    match scanCounted "LOBBY_OPEN".toList line with
    | some seconds =>
      { c with canAttemptJoin := true, lobbyEndTime := now + seconds }.setStatus
        "Lobby open. Choose type and click a spawn tile.".toList
    | none =>
      if line = "LOBBY_CLOSED".toList then
        { c with canAttemptJoin := false, lobbyEndTime := 0 }.setStatus
          "Lobby closed. Spectating only.".toList
      else
        match scanCounted "SETUP_OPEN".toList line with
        | some seconds =>
          { c with setupEndTime := now + seconds }.setStatus
            "Setup locked. Waiting for admitted players.".toList
        | none =>
          if line = "CHOOSE_TYPE".toList ∨ "CHOOSE_SPAWN".toList.isPrefixOf line then
            { c with canAttemptJoin := true }
          else
            match (scanLiteral "CHOICE_OK".toList line).bind scanChar with
            | some (choice, _) =>
              { c with selectedChoice := choice, choiceConfirmed := true }.setStatus
                ("Choice confirmed: ".toList ++ [choice])
            | none =>
              match (scanSpawnOk line : Option (F × F)) with
              | some (x, y) =>
                { c with spawnConfirmed := true }.setStatus
                  ("Spawn confirmed at (".toList ++ CFloat.fixed 1 x ++ [','] ++
                    CFloat.fixed 1 y ++ [')'])
              | none =>
                if line = "JOINED_MATCH".toList then
                  { c with joinedMatch := true, canAttemptJoin := false }.setStatus
                    "You joined the current match.".toList
                else parseNoticeLine line c

/-- `parse_general_line`. -/
def parseGeneralLine (now : ℚ) (line : List Char) (c : ClientState F) : ClientState F :=
  match scanCounted "WELCOME".toList line with
  | some _ =>
    let myName := if c.pendingName = [] then c.myName else c.pendingName
    { c with myName := myName, nameRegistered := true, nameCheckPending := false }.setStatus
      ("Registered as ".toList ++ if myName = [] then c.pendingName else myName)
  | none =>
    if line = "MATCH_RESET".toList then
      { c with
        players := clearPlayers
        repickPhase := false
        gameOver := false
        canAttemptJoin := true
        joinedMatch := false
        choiceConfirmed := false
        spawnConfirmed := false
        selectedChoice := '\x00'
        lobbyEndTime := 0
        setupEndTime := 0
        roundEndTime := 0
        matchResult := 0 }.setStatus "Match reset. You are spectating again.".toList
    else if line = "SPECTATING".toList then
      c.setStatus "Spectating. Pick a type and click a tile if lobby is open.".toList
    else parseLobbyLine now line c

/-- The parser of a dispatch entry. -/
inductive LineParser where
  /-- `parse_general_line`. -/
  | general
  /-- `parse_state_snapshot_line`. -/
  | snapshot
  deriving DecidableEq, Repr

/-- An entry of the dispatch table. -/
structure DispatchEntry where
  /-- The word at the head of the line. -/
  token : List Char
  /-- The word is the whole line. -/
  exact : Bool
  /-- Who parses the line. -/
  parser : LineParser
  deriving DecidableEq, Repr

/-- The table of `handle_server_line`. -/
def dispatch : List DispatchEntry := [
  ⟨"WELCOME ".toList, false, .general⟩,
  ⟨"MATCH_RESET".toList, true, .general⟩,
  ⟨"SPECTATING".toList, true, .general⟩,
  ⟨"LOBBY_WAITING".toList, true, .general⟩,
  ⟨"LOBBY_OPEN ".toList, false, .general⟩,
  ⟨"LOBBY_CLOSED".toList, true, .general⟩,
  ⟨"SETUP_OPEN ".toList, false, .general⟩,
  ⟨"CHOOSE_TYPE".toList, true, .general⟩,
  ⟨"CHOOSE_SPAWN".toList, false, .general⟩,
  ⟨"CHOICE_OK ".toList, false, .general⟩,
  ⟨"SPAWN_OK ".toList, false, .general⟩,
  ⟨"JOINED_MATCH".toList, true, .general⟩,
  ⟨"WAITING_FOR_OTHERS".toList, false, .general⟩,
  ⟨"JOINED ".toList, false, .general⟩,
  ⟨"LEFT ".toList, false, .general⟩,
  ⟨"ERROR ".toList, false, .general⟩,
  ⟨"STATE_BEGIN".toList, true, .snapshot⟩,
  ⟨"STATE_END".toList, true, .snapshot⟩,
  ⟨"PLAYER ".toList, false, .snapshot⟩,
  ⟨"ROUND_START ".toList, false, .snapshot⟩,
  ⟨"REPICK_START".toList, true, .snapshot⟩,
  ⟨"REPICK_DONE".toList, true, .snapshot⟩,
  ⟨"PAIR ".toList, false, .snapshot⟩,
  ⟨"BYE ".toList, false, .snapshot⟩,
  ⟨"GAME_OVER ".toList, false, .snapshot⟩]

/-- `line_matches`. -/
def lineMatches (line : List Char) (entry : DispatchEntry) : Bool :=
  if entry.exact then line == entry.token else entry.token.isPrefixOf line

/-- `handle_server_line`. -/
def handleServerLine (now : ℚ) (line : List Char) (c : ClientState F) : ClientState F :=
  match dispatch.find? (lineMatches line) with
  | none => c
  | some ⟨_, _, .general⟩ => parseGeneralLine now line c
  | some ⟨_, _, .snapshot⟩ => parseStateSnapshotLine now line c

/-- Lines in order, with the time of the client at each of them. -/
def ClientState.feed (clock : ℕ → ℚ) : List (List Char) → ClientState F → ClientState F
  | [], c => c
  | line :: lines, c =>
    ClientState.feed (fun k => clock (k + 1)) lines (handleServerLine (clock 0) line c)

end BattleRoyale
