import BattleRoyale.NameHandshake
import BattleRoyale.CommandWords

/-!
# The terminal client

The program of `client_text.c` without its drawing: the command line, one frame of its loop
with the network, the automatic join and the keyboard, and the commands that it sends. The
bytes that arrive, the keys that are pressed and the results of `send` are inputs. Whatever
arrives and is typed, all that the client says are commands that it may say, unless a line
breaks off or a character outside of ASCII counts as alphanumeric.
-/

namespace BattleRoyale

variable {F : Type}

/-- The code of `getch` for the arrow down. -/
def KEY_DOWN : ℤ := 258
/-- The arrow up. -/
def KEY_UP : ℤ := 259
/-- The arrow to the left. -/
def KEY_LEFT : ℤ := 260
/-- The arrow to the right. -/
def KEY_RIGHT : ℤ := 261
/-- Backspace. -/
def KEY_BACKSPACE : ℤ := 263
/-- Enter on the keypad. -/
def KEY_ENTER : ℤ := 343

/-- The automatic join of a client that was started with a type and a tile. -/
structure AutoJoinConfig where
  /-- The client joins on its own. -/
  enabled : Bool
  /-- The type. -/
  choice : Char
  /-- The column of the tile. -/
  spawnX : ℤ
  /-- The row of the tile. -/
  spawnY : ℤ
  /-- HELLO was sent. -/
  helloSent : Bool
  /-- CHOICE was sent. -/
  choiceSent : Bool
  /-- SPAWN was sent. -/
  spawnSent : Bool

/-- After `memset` to zero. -/
def AutoJoinConfig.off : AutoJoinConfig := ⟨false, '\x00', 0, 0, false, false, false⟩

section Arguments

/-- The code of a letter or a digit of ASCII, or of `_`. -/
def isNameCode (code : ℤ) : Bool :=
  (decide (48 ≤ code) && decide (code ≤ 57)) || (decide (65 ≤ code) && decide (code ≤ 90)) ||
    (decide (97 ≤ code) && decide (code ≤ 122)) || decide (code = 95)

/-- `is_valid_name_char` for a code of `getch`. What `isalnum` says of a code outside of ASCII,
such as that of a function key, depends on the platform. -/
def isValidNameChar (alnum : ℤ → Bool) (ch : ℤ) : Bool :=
  if 0 ≤ ch ∧ ch < 128 then isNameCode ch else alnum ch

/-- `parse_choice_arg`. -/
def parseChoiceArg : List Char → Option Char
  | [c] =>
    let choice := upper c
    if choice ≠ 'R' ∧ choice ≠ 'P' ∧ choice ≠ 'S' then none else some choice
  | _ => none

/-- `parse_spawn_arg`: `strtol` reads the whole text, and the value is below the limit. -/
def parseSpawnArg (value : List Char) (maxExclusive : ℤ) : Option ℤ :=
  match scanInt value with
  | some (parsed, []) => if parsed < 0 ∨ maxExclusive ≤ parsed then none else some parsed
  | _ => none

/-- The arguments for a type and a tile. -/
def parseAutoJoin (choice x y : List Char) : Option AutoJoinConfig :=
  (parseChoiceArg choice).bind fun choice =>
  (parseSpawnArg x GRID_W).bind fun x =>
  (parseSpawnArg y GRID_H).map fun y =>
    { AutoJoinConfig.off with enabled := true, choice := choice, spawnX := x, spawnY := y }

/-- The command line of `main` after the program's name: the name to start with, and the
automatic join. -/
def parseArguments : List (List Char) → Option (List Char × AutoJoinConfig)
  | [name, choice, x, y] => (parseAutoJoin choice x y).map fun auto => (name, auto)
  | [choice, x, y] => (parseAutoJoin choice x y).map fun auto => ("player".toList, auto)
  | [name] => some (name, .off)
  | [] => some ("player".toList, .off)
  | _ => none

end Arguments

/-- `clamp_int`. -/
def clampInt (value minValue maxValue : ℤ) : ℤ :=
  if value < minValue then minValue else if maxValue < value then maxValue else value

/-- What a client meets with from outside, apart from the network and the keyboard. -/
structure Surroundings where
  /-- The clock at each line that is handled. -/
  clock : ℕ → ℚ
  /-- The results of `send` in each call of `send_line`, for the bytes of its line. -/
  sends : ℕ → List Char → List SendResult
  /-- What `isalnum` says of codes outside of ASCII. -/
  alnum : ℤ → Bool

/-- The variables of the client's `main`, with the bytes that went through its socket and
the lines that it has handled. -/
structure ClientProgram (F : Type) where
  /-- The state on the screen. -/
  client : Client F
  /-- The buffers of the connection. -/
  net : Player F
  /-- The automatic join. -/
  autoJoin : AutoJoinConfig
  /-- The loop goes on. -/
  running : Bool
  /-- The column of the cursor. -/
  cursorX : ℤ
  /-- The row of the cursor. -/
  cursorY : ℤ
  /-- The name is being edited. -/
  nameEditActive : Bool
  /-- All bytes sent. -/
  sent : List Char
  /-- The number of attempts to send a command. -/
  attempts : ℕ
  /-- All bytes received. -/
  received : List Char
  /-- All lines handled. -/
  heard : List (List Char)

/-- The commands of the client. -/
inductive ClientCommand where
  /-- `HELLO %s`. -/
  | hello (name : List Char)
  /-- `GET_STATE`. -/
  | getState
  /-- `CHOICE %c`. -/
  | choice (c : Char)
  /-- `SPAWN %d %d`. -/
  | spawn (x y : ℤ)
  /-- `REPICK %c`. -/
  | repick (c : Char)
  /-- `REMATCH`. -/
  | rematch
  /-- `QUIT`. -/
  | quit
  deriving DecidableEq

/-- The formatted command. -/
def ClientCommand.text : ClientCommand → List Char
  | hello name => "HELLO ".toList ++ name
  | getState => "GET_STATE".toList
  | choice c => "CHOICE ".toList ++ [c]
  | spawn x y => "SPAWN ".toList ++ decimal x ++ [' '] ++ decimal y
  | repick c => "REPICK ".toList ++ [c]
  | rematch => "REMATCH".toList
  | quit => "QUIT".toList

namespace ClientProgram

/-- `send_command_checked`: whether the command was sent. -/
def send (E : Surroundings) (command : ClientCommand) (p : ClientProgram F) :
    Bool × ClientProgram F :=
  let results := E.sends p.attempts (command.text ++ ['\n'])
  let ((bytes, done), c) := sendCommandChecked results command.text p.client
  (done, { p with client := c, sent := p.sent ++ bytes, attempts := p.attempts + 1 })

/-- GET_STATE, after which no other one is due. -/
def requestState (E : Surroundings) (p : ClientProgram F) : ClientProgram F :=
  match p.send E .getState with
  | (true, p) => { p with client := { p.client with stateRequestSent := true } }
  | (false, p) => p

/-- A command after which GET_STATE is due. -/
def sendAndRefresh (E : Surroundings) (command : ClientCommand) (p : ClientProgram F) :
    Bool × ClientProgram F :=
  match p.send E command with
  | (true, p) => (true, { p with client := { p.client with stateRequestSent := false } })
  | (false, p) => (false, p)

/-- `maybe_send_hello`. -/
def hello (E : Surroundings) (p : ClientProgram F) : ClientProgram F :=
  let name := p.client.nameInput.take (MAX_NAME_LENGTH - 1)
  let results := E.sends p.attempts ((ClientCommand.hello name).text ++ ['\n'])
  let (bytes, c) := BattleRoyale.maybeSendHello results p.client
  { p with client := c, sent := p.sent ++ bytes, attempts := p.attempts + 1 }

/-- CHOICE and SPAWN make sense. -/
def canJoin (p : ClientProgram F) : Bool :=
  let s := p.client.state
  s.nameRegistered && !s.gameOver && s.canAttemptJoin && !s.joinedMatch && !s.repickPhase

/-- HELLO of the automatic join. -/
def autoHello (E : Surroundings) (p : ClientProgram F) : ClientProgram F :=
  let s := p.client.state
  if !s.nameRegistered && !s.nameCheckPending && !p.autoJoin.helloSent &&
      !p.client.nameInput.isEmpty then
    { p.hello E with autoJoin := { p.autoJoin with helloSent := true } }
  else p

/-- CHOICE of the automatic join. -/
def autoChoice (E : Surroundings) (p : ClientProgram F) : ClientProgram F :=
  if p.autoJoin.choiceSent then p
  else
    match p.sendAndRefresh E (.choice p.autoJoin.choice) with
    | (true, q) => { q with autoJoin := { p.autoJoin with choiceSent := true } }
    | (false, q) => q

/-- SPAWN of the automatic join. -/
def autoSpawn (E : Surroundings) (p : ClientProgram F) : ClientProgram F :=
  if p.client.state.choiceConfirmed && !p.autoJoin.spawnSent then
    match p.sendAndRefresh E (.spawn p.autoJoin.spawnX p.autoJoin.spawnY) with
    | (true, q) => { q with autoJoin := { p.autoJoin with spawnSent := true } }
    | (false, q) => q
  else p

/-- The automatic join in one frame. -/
def autoJoinFrame (E : Surroundings) (p : ClientProgram F) : ClientProgram F :=
  if !p.autoJoin.enabled then p
  else
    let p := p.autoHello E
    if p.canJoin then (p.autoChoice E).autoSpawn E else p

/-- The request of a snapshot in one frame. -/
def requestFrame (E : Surroundings) (p : ClientProgram F) : ClientProgram F :=
  if !p.client.stateRequestSent then p.requestState E else p

/-- The key is a letter, in either case. -/
def isLetter (c : Char) (ch : ℤ) : Bool :=
  decide (ch = (c.toNat : ℤ)) || decide (ch = ((upper c).toNat : ℤ))

/-- The key is Enter. -/
def isEnter (ch : ℤ) : Bool := decide (ch = 10) || decide (ch = 13) || decide (ch = KEY_ENTER)

/-- The key deletes a character. -/
def isBackspace (ch : ℤ) : Bool :=
  decide (ch = KEY_BACKSPACE) || decide (ch = 127) || decide (ch = 8)

/-- The string of a key, `(char)ch` and the end. -/
def typed (ch : ℤ) : List Char := cString [Char.ofNat (ch % 256).toNat]

/-- A key for the name box, if it is one. -/
def editName (E : Surroundings) (ch : ℤ) (p : ClientProgram F) : Option (ClientProgram F) :=
  if ch = 27 then some { p with nameEditActive := false }
  else if isBackspace ch then
    some { p with client := { p.client with nameInput := p.client.nameInput.dropLast } }
  else if isEnter ch then some (p.hello E)
  else if isValidNameChar E.alnum ch then
    if p.client.nameInput.length < MAX_NAME_LENGTH - 1 then
      some { p with client := { p.client with nameInput := p.client.nameInput ++ typed ch } }
    else some p
  else none

/-- The keys for a type: REPICK in a repick, and otherwise CHOICE. -/
def pressChoice (E : Surroundings) (c : Char) (p : ClientProgram F) : ClientProgram F :=
  let s := p.client.state
  if !s.gameOver && s.repickPhase then (p.sendAndRefresh E (.repick c)).2
  else if p.canJoin then (p.sendAndRefresh E (.choice c)).2
  else p

/-- A key outside of the name box. -/
def pressOther (E : Surroundings) (ch : ℤ) (p : ClientProgram F) : ClientProgram F :=
  if ch = KEY_LEFT then { p with cursorX := clampInt (p.cursorX - 1) 0 (GRID_W - 1) }
  else if ch = KEY_RIGHT then { p with cursorX := clampInt (p.cursorX + 1) 0 (GRID_W - 1) }
  else if ch = KEY_UP then { p with cursorY := clampInt (p.cursorY - 1) 0 (GRID_H - 1) }
  else if ch = KEY_DOWN then { p with cursorY := clampInt (p.cursorY + 1) 0 (GRID_H - 1) }
  else if isLetter 'h' ch && !p.client.state.nameRegistered then p.hello E
  else if isLetter 'm' ch && p.client.state.gameOver then (p.sendAndRefresh E .rematch).2
  else if isLetter 'r' ch then p.pressChoice E 'R'
  else if isLetter 'p' ch then p.pressChoice E 'P'
  else if isLetter 's' ch then p.pressChoice E 'S'
  else if (decide (ch = 32) || isEnter ch) && p.canJoin then
    if p.client.state.choiceConfirmed then (p.sendAndRefresh E (.spawn p.cursorX p.cursorY)).2
    else p
  else p

/-- One key. -/
def press (E : Surroundings) (ch : ℤ) (p : ClientProgram F) : ClientProgram F :=
  let unnamed := !p.client.state.nameRegistered
  if isLetter 'q' ch then { p with running := false }
  else if isLetter 'g' ch then p.requestState E
  else if unnamed && isLetter 'u' ch then { p with nameEditActive := !p.nameEditActive }
  else
    match (if unnamed && p.nameEditActive then p.editName E ch else none) with
    | some q => q
    | none => p.pressOther E ch

/-- The keys of one frame. -/
def pressAll (E : Surroundings) : List ℤ → ClientProgram F → ClientProgram F
  | [], p => p
  | ch :: keys, p =>
    let p := p.press E ch
    if p.running then pressAll E keys p else p

variable [CFloat F]

/-- One line for `handle_server_line`, which reads it as a string, at the time of the client's
clock for this line. -/
def hear (clock : ℕ → ℚ) (line : List Char) (p : ClientProgram F) : ClientProgram F :=
  { p with
    client := { p.client with
      state := handleServerLine (clock p.heard.length) (cString line) p.client.state }
    heard := p.heard ++ [line] }

/-- The inner loop of `pump_client_network`, for so many passes. -/
def hearLines (clock : ℕ → ℚ) : ℕ → ClientProgram F → ClientProgram F
  | 0, p => p
  | passes + 1, p =>
    match p.net.popLine MAX_LINE with
    | none => p
    | some (line, net) => hearLines clock passes (hear clock line { p with net := net })

/-- `pump_client_network`, for the results of `recv` while `select` finds the socket ready.
Every pass of the inner loop shortens the buffer, so its length bounds their number. -/
def pump (clock : ℕ → ℚ) : List RecvResult → ClientProgram F → ClientProgram F
  | [], p => p
  | result :: results, p =>
    let (rc, net) := p.net.readIntoPlayerBuffer result
    let p := { p with net := net, received := p.received ++ result.bytes }
    if rc ≤ 0 then
      let c := p.client.setStatus "Disconnected from server".toList
      { p with client := { c with state := { c.state with gameOver := true } } }
    else pump clock results (hearLines clock net.inbuf.length p)

end ClientProgram

/-- What happens in one frame. -/
structure Frame where
  /-- The results of `recv`. -/
  received : List RecvResult
  /-- The keys. -/
  keys : List ℤ

/-- One frame of the loop; the one that ends the loop also says QUIT. -/
def ClientProgram.frame [CFloat F] (E : Surroundings) (p : ClientProgram F) (f : Frame) :
    ClientProgram F :=
  if !p.running then p
  else
    let p := pressAll E f.keys (((p.pump E.clock f.received).autoJoinFrame E).requestFrame E)
    if p.running then p else (p.send E .quit).2

/-- The client when it has connected, with these arguments. -/
def ClientProgram.connected [CFloat F] (initialName : List Char) (auto : AutoJoinConfig) :
    ClientProgram F where
  client := initClientState initialName
  net := Player.zero
  autoJoin := auto
  running := true
  cursorX := 0
  cursorY := 0
  nameEditActive := !auto.enabled
  sent := []
  attempts := 0
  received := []
  heard := []

/-- The client before its first frame. -/
def ClientProgram.start [CFloat F] (E : Surroundings) (initialName : List Char)
    (auto : AutoJoinConfig) : ClientProgram F := (connected initialName auto).requestState E

/-- Frames in order. -/
def ClientProgram.run [CFloat F] (E : Surroundings) (p : ClientProgram F)
    (frames : List Frame) : ClientProgram F := frames.foldl (frame E) p

section Commands

/-- A letter or a digit of ASCII, or `_`. -/
def NameChar (c : Char) : Prop := isNameCode (c.toNat : ℤ) = true

/-- The key is one of ASCII, or `isalnum` does not let it into the name. -/
def Surroundings.Plain (E : Surroundings) (ch : ℤ) : Prop :=
  (0 ≤ ch ∧ ch < 128) ∨ E.alnum ch = false

/-- A line that `send` does not take as a whole is not sent at all. -/
def Surroundings.WholeLines (E : Surroundings) : Prop :=
  ∀ k bytes, (sendAll (E.sends k bytes) bytes).2 = false →
    (sendAll (E.sends k bytes) bytes).1 = []

/-- Every `send` succeeds, and takes all bytes. -/
def Surroundings.Reliable (E : Surroundings) : Prop :=
  ∀ k bytes, (sendAll (E.sends k bytes) bytes).2 = true

theorem Surroundings.Reliable.wholeLines {E : Surroundings} (h : E.Reliable) : E.WholeLines :=
  fun k bytes hfail => by rw [h k bytes] at hfail; cases hfail

/-- If all bytes were accepted, they are the bytes of the line. -/
theorem sendAll_true {results : List SendResult} {bytes : List Char}
    (h : (sendAll results bytes).2 = true) : (sendAll results bytes).1 = bytes := by
  fun_induction sendAll results bytes with
  | case1 => rfl
  | case2 => cases h
  | case3 n results c bytes hn sent done hrest ih =>
    rw [hrest] at ih
    have hsent : sent = (c :: bytes).drop n := ih h
    rw [hsent, List.take_append_drop]
  | case4 => cases h

/-- A socket that takes every line at once, on a platform whose `isalnum` knows ASCII only. -/
def plainSurroundings : Surroundings where
  clock _ := 0
  sends _ bytes := [.accepted bytes.length]
  alnum _ := false

theorem plainSurroundings_reliable : plainSurroundings.Reliable := by
  intro k bytes
  cases bytes with
  | nil => simp [sendAll]
  | cons c bytes => simp [plainSurroundings, sendAll]

/-- The character of a key for the name box. -/
theorem nameChar_typed {E : Surroundings} {ch : ℤ} (hplain : E.Plain ch)
    (h : isValidNameChar E.alnum ch = true) : ∀ c ∈ ClientProgram.typed ch, NameChar c := by
  unfold isValidNameChar at h
  split at h
  · rename_i hrange
    obtain ⟨n, rfl⟩ := Int.eq_ofNat_of_zero_le hrange.1
    have hvalid : n.isValidChar := .inl (by omega)
    have hcode : (Char.ofNat n).toNat = n := by
      rw [Char.ofNat, dif_pos hvalid]
      rfl
    have hbyte : ((n : ℤ) % 256).toNat = n := by omega
    intro c hc
    rw [ClientProgram.typed, hbyte] at hc
    rw [List.mem_singleton.mp ((List.takeWhile_subset _) hc), NameChar, hcode]
    exact h
  · rename_i hrange
    rw [hplain.resolve_left hrange] at h
    cases h

/-- A tile of the grid. -/
def OnGrid (x y : ℤ) : Prop := (0 ≤ x ∧ x < GRID_W) ∧ 0 ≤ y ∧ y < GRID_H

instance (x y : ℤ) : Decidable (OnGrid x y) := inferInstanceAs (Decidable (_ ∧ _))

/-- What a client that was started with this name may say. -/
def ClientCommand.Sound (initial : List Char) : ClientCommand → Prop
  | .hello name =>
    name ≠ [] ∧ name.length < MAX_NAME_LENGTH ∧ ∀ c ∈ name, NameChar c ∨ c ∈ initial
  | .choice c => IsChoice c
  | .spawn x y => OnGrid x y
  | .repick c => IsChoice c
  | _ => True

/-- The number of a column or of a row has one digit. -/
theorem decimal_digit {x : ℤ} (hx : 0 ≤ x ∧ x < 10) : ∃ d, d.isDigit = true ∧ decimal x = [d] := by
  obtain ⟨n, rfl⟩ := Int.eq_ofNat_of_zero_le hx.1
  have hn : n < 10 := by omega
  clear hx
  interval_cases n <;> exact ⟨_, rfl, rfl⟩

/-- Every command fits into a line. -/
theorem ClientCommand.Sound.length {initial : List Char} {command : ClientCommand}
    (h : command.Sound initial) : command.text.length < MAX_LINE - 2 := by
  cases command with
  | hello name =>
    have hname : name.length < 32 := h.2.1
    show ("HELLO ".toList ++ name).length < 254
    have hword : "HELLO ".toList.length = 6 := rfl
    rw [List.length_append, hword]
    omega
  | spawn x y =>
    obtain ⟨d, _, hx⟩ := decimal_digit h.1
    obtain ⟨e, _, hy⟩ := decimal_digit h.2
    have hword : "SPAWN ".toList.length = 6 := rfl
    show ("SPAWN ".toList ++ decimal x ++ [' '] ++ decimal y).length < 254
    simp only [hx, hy, List.length_append, List.length_singleton, hword]
    decide
  | getState => decide
  | choice c => exact Nat.lt_of_le_of_lt (Nat.le_refl 8) (by decide)
  | repick c => exact Nat.lt_of_le_of_lt (Nat.le_refl 8) (by decide)
  | rematch => decide
  | quit => decide

/-- The bytes of commands. -/
def ClientCommand.stream (commands : List ClientCommand) : List Char :=
  (commands.map fun command => command.text ++ ['\n']).flatten

/-- What a client that was started with this name has said, and what it may say next. -/
structure ClientProgram.Speaks (initial : List Char) (commands : List ClientCommand)
    (p : ClientProgram F) : Prop where
  /-- The bytes sent are these commands. -/
  sent : p.sent = ClientCommand.stream commands
  /-- Each of them is one that the client may say. -/
  sound : ∀ command ∈ commands, command.Sound initial
  /-- The name fits into its field. -/
  name_length : p.client.nameInput.length < MAX_NAME_LENGTH
  /-- It was typed, or is the one from the start. -/
  name_chars : ∀ c ∈ p.client.nameInput, NameChar c ∨ c ∈ initial
  /-- The cursor is on the grid. -/
  cursor : OnGrid p.cursorX p.cursorY
  /-- The automatic join has a type and a tile. -/
  auto : p.autoJoin.enabled = true →
    IsChoice p.autoJoin.choice ∧ OnGrid p.autoJoin.spawnX p.autoJoin.spawnY

namespace ClientProgram

variable {E : Surroundings} {initial : List Char} {commands : List ClientCommand}
  {p : ClientProgram F}

/-- One more command. -/
theorem stream_concat (commands : List ClientCommand) (command : ClientCommand) :
    ClientCommand.stream (commands ++ [command]) =
      ClientCommand.stream commands ++ (command.text ++ ['\n']) := by
  simp [ClientCommand.stream]

/-- What the client is and does apart from its commands. -/
def inputs (p : ClientProgram F) : List Char × ℤ × ℤ × Bool × Char × ℤ × ℤ :=
  (p.client.nameInput, p.cursorX, p.cursorY, p.autoJoin.enabled, p.autoJoin.choice,
    p.autoJoin.spawnX, p.autoJoin.spawnY)

/-- Nothing is said and no input changes. -/
theorem Speaks.same (h : p.Speaks initial commands) {q : ClientProgram F}
    (hsent : q.sent = p.sent) (hinputs : q.inputs = p.inputs) : q.Speaks initial commands := by
  simp only [inputs, Prod.mk.injEq] at hinputs
  obtain ⟨hname, hx, hy, henabled, hchoice, hspawnX, hspawnY⟩ := hinputs
  exact ⟨by rw [hsent, h.sent], h.sound, by rw [hname]; exact h.name_length,
    by rw [hname]; exact h.name_chars, by rw [hx, hy]; exact h.cursor,
    by rw [henabled, hchoice, hspawnX, hspawnY]; exact h.auto⟩

/-- One command is said and no input changes. -/
theorem Speaks.more (h : p.Speaks initial commands) {command : ClientCommand}
    (hsound : command.Sound initial) {q : ClientProgram F}
    (hsent : q.sent = p.sent ++ (command.text ++ ['\n'])) (hinputs : q.inputs = p.inputs) :
    q.Speaks initial (commands ++ [command]) := by
  simp only [inputs, Prod.mk.injEq] at hinputs
  obtain ⟨hname, hx, hy, henabled, hchoice, hspawnX, hspawnY⟩ := hinputs
  refine ⟨by rw [hsent, h.sent, stream_concat], ?_, by rw [hname]; exact h.name_length,
    by rw [hname]; exact h.name_chars, by rw [hx, hy]; exact h.cursor,
    by rw [henabled, hchoice, hspawnX, hspawnY]; exact h.auto⟩
  intro other hother
  rcases List.mem_append.mp hother with hother | hother
  · exact h.sound other hother
  · rw [List.mem_singleton.mp hother]
    exact hsound

/-- The client has said the command, or nothing of it if it failed, and no input changes. -/
structure Tries (command : ClientCommand) (done : Bool) (p q : ClientProgram F) : Prop where
  /-- The bytes sent. -/
  sent : q.sent = p.sent ++ if done then command.text ++ ['\n'] else []
  /-- The inputs. -/
  inputs : q.inputs = p.inputs

/-- `send_line` with a line of such a length. -/
theorem sendCommandChecked_whole (hE : E.WholeLines) {text : List Char}
    (hlength : text.length < MAX_LINE - 2) (k : ℕ) (c : Client F) :
    let r := sendCommandChecked (E.sends k (text ++ ['\n'])) text c
    r.1.1 = (if r.1.2 then text ++ ['\n'] else []) ∧ r.2.nameInput = c.nameInput ∧
      r.1.2 = (sendAll (E.sends k (text ++ ['\n'])) (text ++ ['\n'])).2 := by
  have hline : ¬MAX_LINE ≤ text.length := by
    have hshort : text.length < 254 := hlength
    show ¬256 ≤ _
    omega
  simp only [sendCommandChecked, sendLine, if_neg hline, if_neg (not_le.mpr hlength)]
  cases hsend : sendAll (E.sends k (text ++ ['\n'])) (text ++ ['\n']) with
  | mk bytes done =>
    cases done with
    | true =>
      refine ⟨?_, rfl, rfl⟩
      have hall := sendAll_true (congrArg Prod.snd hsend)
      rwa [hsend] at hall
    | false =>
      refine ⟨?_, rfl, rfl⟩
      have hnone := hE k _ (congrArg Prod.snd hsend)
      rwa [hsend] at hnone

/-- A command of the client. -/
theorem send_tries (hE : E.WholeLines) {command : ClientCommand} (h : command.Sound initial)
    (p : ClientProgram F) : Tries command (p.send E command).1 p (p.send E command).2 := by
  obtain ⟨hsent, hname, _⟩ := sendCommandChecked_whole hE h.length p.attempts p.client
  refine ⟨congrArg (p.sent ++ ·) hsent, ?_⟩
  exact congrArg (fun name => (name, p.inputs.2)) hname

/-- What is shown and which GET_STATE is due makes no difference. -/
theorem Tries.same {command : ClientCommand} {done : Bool} {p q r : ClientProgram F}
    (h : Tries command done p q) (hsent : r.sent = q.sent) (hinputs : r.inputs = q.inputs) :
    Tries command done p r := ⟨hsent.trans h.sent, hinputs.trans h.inputs⟩

/-- GET_STATE. -/
theorem requestState_tries (hE : E.WholeLines) (p : ClientProgram F) :
    ∃ done, Tries .getState done p (p.requestState E) := by
  have hsound : ClientCommand.getState.Sound [] := trivial
  have htries := send_tries hE hsound p
  refine ⟨(p.send E .getState).1, ?_⟩
  unfold ClientProgram.requestState
  split <;> rename_i q hq <;> rw [hq] at htries ⊢
  · exact htries.same rfl rfl
  · exact htries

/-- A command after which GET_STATE is due. -/
theorem sendAndRefresh_tries (hE : E.WholeLines) {command : ClientCommand}
    (h : command.Sound initial) (p : ClientProgram F) :
    Tries command (p.sendAndRefresh E command).1 p (p.sendAndRefresh E command).2 := by
  have htries := send_tries hE h p
  unfold ClientProgram.sendAndRefresh
  split <;> rename_i q hq <;> rw [hq] at htries
  · exact htries.same rfl rfl
  · exact htries

/-- `maybe_send_hello` says HELLO with the name from the name box, or nothing. -/
theorem hello_tries (hE : E.WholeLines) (hlength : p.client.nameInput.length < MAX_NAME_LENGTH) :
    (p.client.nameInput ≠ [] ∧ ∃ done, Tries (.hello p.client.nameInput) done p (p.hello E)) ∨
      ((p.hello E).sent = p.sent ∧ (p.hello E).inputs = p.inputs) := by
  have hsmall : p.client.nameInput.length < 32 := hlength
  have htake : p.client.nameInput.take (MAX_NAME_LENGTH - 1) = p.client.nameInput :=
    List.take_of_length_le (show _ ≤ 31 by omega)
  unfold ClientProgram.hello BattleRoyale.maybeSendHello
  rw [htake]
  split
  · exact .inr ⟨List.append_nil _, rfl⟩
  rename_i hguard
  have hne : p.client.nameInput ≠ [] := fun hempty => hguard (by simp [hempty])
  have htext : ("HELLO ".toList ++ p.client.nameInput).length < MAX_LINE - 2 := by
    have hword : "HELLO ".toList.length = 6 := rfl
    rw [List.length_append, hword]
    show _ < 254
    omega
  simp only
  generalize hpending : ({ p.client with state := _ } : Client F) = c
  have hc : c.nameInput = p.client.nameInput := by
    subst hpending
    rfl
  obtain ⟨hsent, hname, _⟩ := sendCommandChecked_whole hE htext p.attempts c
  refine .inl ⟨hne, ?_⟩
  have hcommand : (ClientCommand.hello p.client.nameInput).text =
      "HELLO ".toList ++ p.client.nameInput := rfl
  rw [hcommand]
  split <;> rename_i bytes q hq <;> rw [hq] at hsent hname
  · exact ⟨false, congrArg (p.sent ++ ·) hsent,
      congrArg (fun name => (name, p.inputs.2)) (hname.trans hc)⟩
  · exact ⟨true, congrArg (p.sent ++ ·) hsent,
      congrArg (fun name => (name, p.inputs.2)) (hname.trans hc)⟩

/-- From one state of the client to another it has said some commands that it may say. -/
def Goes (initial : List Char) (p q : ClientProgram F) : Prop :=
  ∀ commands, p.Speaks initial commands → ∃ more, q.Speaks initial (commands ++ more)

theorem Goes.refl (initial : List Char) (p : ClientProgram F) : Goes initial p p :=
  fun _ h => ⟨[], by rwa [List.append_nil]⟩

theorem Goes.trans {p q r : ClientProgram F} (hpq : Goes initial p q) (hqr : Goes initial q r) :
    Goes initial p r := by
  intro commands h
  obtain ⟨first, hfirst⟩ := hpq commands h
  obtain ⟨second, hsecond⟩ := hqr _ hfirst
  exact ⟨first ++ second, by rwa [← List.append_assoc]⟩

/-- A change of what the client shows. -/
theorem Goes.same {p q : ClientProgram F} (hsent : q.sent = p.sent)
    (hinputs : q.inputs = p.inputs) :
    Goes initial p q := fun _ h => ⟨[], by
  rw [List.append_nil]
  exact h.same hsent hinputs⟩

/-- A command that the client may say, if it is said. -/
theorem Tries.speaks {command : ClientCommand} {done : Bool} {p q : ClientProgram F}
    (h : Tries command done p q) (hsound : command.Sound initial)
    (hspeaks : p.Speaks initial commands) :
    q.Speaks initial (commands ++ if done then [command] else []) := by
  have hsent := h.sent
  cases done with
  | true => exact hspeaks.more hsound hsent h.inputs
  | false =>
    simp only [Bool.false_eq_true, if_false, List.append_nil] at hsent ⊢
    exact hspeaks.same hsent h.inputs

/-- Such a command on the way. -/
theorem Tries.goes {command : ClientCommand} {done : Bool} {p q : ClientProgram F}
    (h : Tries command done p q) (hsound : command.Sound initial) : Goes initial p q :=
  fun _ hspeaks => ⟨_, h.speaks hsound hspeaks⟩

/-- GET_STATE. -/
theorem requestState_goes (hE : E.WholeLines) (p : ClientProgram F) :
    Goes initial p (p.requestState E) := by
  obtain ⟨done, htries⟩ := requestState_tries hE p
  exact htries.goes trivial

/-- Another command. -/
theorem sendAndRefresh_goes (hE : E.WholeLines) (p : ClientProgram F) {command : ClientCommand}
    (hsound : command.Sound initial) : Goes initial p (p.sendAndRefresh E command).2 :=
  (sendAndRefresh_tries hE hsound p).goes hsound

/-- `maybe_send_hello`. -/
theorem hello_goes (hE : E.WholeLines) (p : ClientProgram F) : Goes initial p (p.hello E) := by
  intro commands h
  rcases hello_tries hE h.name_length with ⟨hne, done, htries⟩ | ⟨hsent, hinputs⟩
  · have hsound : (ClientCommand.hello p.client.nameInput).Sound initial :=
      ⟨hne, h.name_length, h.name_chars⟩
    exact htries.goes hsound commands h
  · exact Goes.same hsent hinputs commands h

/-- A clamped column is on the grid. -/
theorem clampInt_tile (value : ℤ) :
    0 ≤ clampInt value 0 (GRID_W - 1) ∧ clampInt value 0 (GRID_W - 1) < GRID_W := by
  unfold clampInt GRID_W
  split_ifs <;> omega

/-- A key for a type. -/
theorem pressChoice_goes (hE : E.WholeLines) (p : ClientProgram F) {c : Char}
    (hc : IsChoice c) : Goes initial p (p.pressChoice E c) := by
  unfold pressChoice
  simp only
  split
  · exact sendAndRefresh_goes hE p (show (ClientCommand.repick c).Sound initial from hc)
  · split
    · exact sendAndRefresh_goes hE p (show (ClientCommand.choice c).Sound initial from hc)
    · exact .refl initial p

/-- The cursor moves to another tile. -/
theorem cursor_goes {p q : ClientProgram F} (hsent : q.sent = p.sent)
    (hinputs : q.inputs = { p with cursorX := q.cursorX, cursorY := q.cursorY }.inputs)
    (hcursor : OnGrid p.cursorX p.cursorY → OnGrid q.cursorX q.cursorY) : Goes initial p q := by
  intro commands h
  have hmoved : { p with cursorX := q.cursorX, cursorY := q.cursorY }.Speaks initial commands :=
    ⟨h.sent, h.sound, h.name_length, h.name_chars, hcursor h.cursor, h.auto⟩
  exact ⟨[], by
    rw [List.append_nil]
    exact hmoved.same hsent hinputs⟩

/-- A key outside of the name box. -/
theorem pressOther_goes (hE : E.WholeLines) (ch : ℤ) (p : ClientProgram F) :
    Goes initial p (p.pressOther E ch) := by
  unfold pressOther
  split
  · exact cursor_goes rfl rfl fun h => ⟨clampInt_tile _, h.2⟩
  split
  · exact cursor_goes rfl rfl fun h => ⟨clampInt_tile _, h.2⟩
  split
  · exact cursor_goes rfl rfl fun h => ⟨h.1, clampInt_tile _⟩
  split
  · exact cursor_goes rfl rfl fun h => ⟨h.1, clampInt_tile _⟩
  split
  · exact hello_goes hE p
  split
  · exact sendAndRefresh_goes hE p (show ClientCommand.rematch.Sound initial from trivial)
  split
  · exact pressChoice_goes hE p (.inl rfl)
  split
  · exact pressChoice_goes hE p (.inr (.inl rfl))
  split
  · exact pressChoice_goes hE p (.inr (.inr rfl))
  split
  · split
    · exact fun commands h => sendAndRefresh_goes hE p
        (show (ClientCommand.spawn p.cursorX p.cursorY).Sound initial from h.cursor) commands h
    · exact .refl initial p
  · exact .refl initial p

/-- A change of the name that keeps it within its field and its characters. -/
theorem rename_goes {p : ClientProgram F} {name : List Char}
    (hlength : p.client.nameInput.length < MAX_NAME_LENGTH → name.length < MAX_NAME_LENGTH)
    (hchars : ∀ c ∈ name, c ∈ p.client.nameInput ∨ NameChar c) :
    Goes initial p { p with client := { p.client with nameInput := name } } := by
  intro commands h
  refine ⟨[], by rw [List.append_nil]; exact h.sent, by rw [List.append_nil]; exact h.sound,
    hlength h.name_length, fun c hc => ?_, h.cursor, h.auto⟩
  exact (hchars c hc).elim (h.name_chars c) .inl

/-- A key in the name box. -/
theorem editName_goes (hE : E.WholeLines) {ch : ℤ} (hplain : E.Plain ch)
    {p q : ClientProgram F} (h : p.editName E ch = some q) : Goes initial p q := by
  unfold editName at h
  split at h
  · cases h
    exact .same rfl rfl
  split at h
  · cases h
    refine rename_goes (fun hlength => ?_) fun c hc => .inl (List.dropLast_subset _ hc)
    rw [List.length_dropLast]
    omega
  split at h
  · cases h
    exact hello_goes hE p
  split at h
  · rename_i hvalid
    split at h
    · rename_i hroom
      cases h
      refine rename_goes (fun _ => ?_) fun c hc => ?_
      · have hshort : p.client.nameInput.length < 31 := hroom
        have hone : (typed ch).length ≤ 1 := (List.takeWhile_prefix _).length_le
        show (p.client.nameInput ++ typed ch).length < 32
        rw [List.length_append]
        omega
      · rcases List.mem_append.mp hc with hc | hc
        · exact .inl hc
        · exact .inr (nameChar_typed hplain hvalid c hc)
    · cases h
      exact .refl initial p
  · cases h

/-- One key. -/
theorem press_goes (hE : E.WholeLines) {ch : ℤ} (hplain : E.Plain ch) (p : ClientProgram F) :
    Goes initial p (p.press E ch) := by
  unfold press
  simp only
  split
  · exact .same rfl rfl
  split
  · exact requestState_goes hE p
  split
  · exact .same rfl rfl
  split
  · rename_i q hq
    split at hq
    · exact editName_goes hE hplain hq
    · cases hq
  · exact pressOther_goes hE ch p

/-- The keys of a frame. -/
theorem pressAll_goes (hE : E.WholeLines) {keys : List ℤ} (hkeys : ∀ ch ∈ keys, E.Plain ch)
    (p : ClientProgram F) : Goes initial p (pressAll E keys p) := by
  induction keys generalizing p with
  | nil => exact .refl initial p
  | cons ch keys ih =>
    obtain ⟨hplain, hkeys⟩ := List.forall_mem_cons.mp hkeys
    rw [pressAll]
    split
    · exact (press_goes hE hplain p).trans (ih hkeys (p.press E ch))
    · exact press_goes hE hplain p

/-- `maybe_send_hello` does not touch the automatic join. -/
theorem hello_autoJoin (p : ClientProgram F) : (p.hello E).autoJoin = p.autoJoin := rfl

/-- HELLO of the automatic join. -/
theorem autoHello_goes (hE : E.WholeLines) (p : ClientProgram F) :
    Goes initial p (p.autoHello E) := by
  unfold autoHello
  simp only
  split
  · exact (hello_goes hE p).trans (.same rfl (by simp only [inputs, hello_autoJoin]))
  · exact .refl initial p

/-- A command does not touch the automatic join. -/
theorem sendAndRefresh_autoJoin (E : Surroundings) (command : ClientCommand)
    (p : ClientProgram F) :
    (p.sendAndRefresh E command).2.autoJoin = p.autoJoin := by
  have hsend : (p.send E command).2.autoJoin = p.autoJoin := rfl
  unfold sendAndRefresh
  split <;> rename_i q hq <;> rw [hq] at hsend <;> exact hsend

/-- A command of the automatic join, after which its flag is set. -/
theorem Tries.flagged {command : ClientCommand} {done : Bool} {p q r : ClientProgram F}
    (h : Tries command done p q) (hsound : command.Sound initial)
    (hjoin : q.autoJoin = p.autoJoin) (hsent : r.sent = q.sent)
    (hinputs : r.inputs = { q with autoJoin := p.autoJoin }.inputs)
    (hspeaks : p.Speaks initial commands) : ∃ more, r.Speaks initial (commands ++ more) := by
  have hsame : r.inputs = q.inputs := by rw [hinputs, ← hjoin]
  exact (h.same hsent hsame).goes hsound commands hspeaks

/-- CHOICE of the automatic join. -/
theorem autoChoice_goes (hE : E.WholeLines) {p : ClientProgram F}
    (hon : p.autoJoin.enabled = true) : Goes initial p (p.autoChoice E) := by
  intro commands h
  have hsound : (ClientCommand.choice p.autoJoin.choice).Sound initial := (h.auto hon).1
  have htries := sendAndRefresh_tries hE hsound p
  have hsame := sendAndRefresh_autoJoin E (.choice p.autoJoin.choice) p
  unfold autoChoice
  split
  · exact ⟨[], by rwa [List.append_nil]⟩
  · split <;> rename_i q hq <;> rw [hq] at htries hsame
    · exact htries.flagged hsound hsame rfl rfl h
    · exact htries.goes hsound commands h

/-- SPAWN of the automatic join. -/
theorem autoSpawn_goes (hE : E.WholeLines) {p : ClientProgram F}
    (hon : p.autoJoin.enabled = true) : Goes initial p (p.autoSpawn E) := by
  intro commands h
  have hsound : (ClientCommand.spawn p.autoJoin.spawnX p.autoJoin.spawnY).Sound initial :=
    (h.auto hon).2
  have htries := sendAndRefresh_tries hE hsound p
  have hsame := sendAndRefresh_autoJoin E
    (.spawn p.autoJoin.spawnX p.autoJoin.spawnY) p
  unfold autoSpawn
  split
  · split <;> rename_i q hq <;> rw [hq] at htries hsame
    · exact htries.flagged hsound hsame rfl rfl h
    · exact htries.goes hsound commands h
  · exact ⟨[], by rwa [List.append_nil]⟩

/-- Whether the automatic join is on. -/
theorem autoHello_enabled (p : ClientProgram F) :
    (p.autoHello E).autoJoin.enabled = p.autoJoin.enabled := by
  unfold autoHello
  simp only
  split <;> rfl

/-- CHOICE does not switch it off. -/
theorem autoChoice_enabled (p : ClientProgram F) :
    (p.autoChoice E).autoJoin.enabled = p.autoJoin.enabled := by
  have hsend := sendAndRefresh_autoJoin E (.choice p.autoJoin.choice) p
  unfold autoChoice
  split
  · rfl
  · split
    · rfl
    · rename_i q hq
      rw [hq] at hsend
      exact congrArg AutoJoinConfig.enabled hsend

/-- The automatic join. -/
theorem autoJoinFrame_goes (hE : E.WholeLines) (p : ClientProgram F) :
    Goes initial p (p.autoJoinFrame E) := by
  unfold autoJoinFrame
  split
  · exact .refl initial p
  rename_i hon
  have henabled : (p.autoHello E).autoJoin.enabled = true := by
    rw [autoHello_enabled]
    simpa using hon
  simp only
  split
  · exact ((autoHello_goes hE p).trans (autoChoice_goes hE henabled)).trans
      (autoSpawn_goes hE (by rw [autoChoice_enabled, henabled]))
  · exact autoHello_goes hE p

/-- The request of a snapshot. -/
theorem requestFrame_goes (hE : E.WholeLines) (p : ClientProgram F) :
    Goes initial p (p.requestFrame E) := by
  unfold requestFrame
  split
  · exact requestState_goes hE p
  · exact .refl initial p

variable [CFloat F]

/-- The lines of one read. -/
theorem hearLines_goes (clock : ℕ → ℚ) (passes : ℕ) (p : ClientProgram F) :
    Goes initial p (hearLines clock passes p) := by
  induction passes generalizing p with
  | zero => exact .refl initial p
  | succ passes ih =>
    rw [hearLines]
    split
    · exact .refl initial p
    · rename_i line net _
      have hhear : Goes initial p (hear clock line { p with net := net }) := .same rfl rfl
      exact hhear.trans (ih _)

/-- The network of a frame. -/
theorem pump_goes (clock : ℕ → ℚ) (results : List RecvResult) (p : ClientProgram F) :
    Goes initial p (p.pump clock results) := by
  induction results generalizing p with
  | nil => exact .refl initial p
  | cons result results ih =>
    rw [pump]
    simp only
    split
    · exact .same rfl rfl
    · have hread : Goes initial p { p with
        net := (p.net.readIntoPlayerBuffer result).2
        received := p.received ++ result.bytes } := .same rfl rfl
      exact (hread.trans (hearLines_goes clock _ _)).trans (ih _)

/-- One frame. -/
theorem frame_goes (hE : E.WholeLines) (p : ClientProgram F) {f : Frame}
    (hkeys : ∀ ch ∈ f.keys, E.Plain ch) : Goes initial p (p.frame E f) := by
  have hpump : Goes initial p (p.pump E.clock f.received) := pump_goes E.clock f.received p
  have hbody := ((hpump.trans (autoJoinFrame_goes hE _)).trans (requestFrame_goes hE _)).trans
    (pressAll_goes hE hkeys _)
  unfold frame
  split
  · exact .refl initial p
  simp only
  split
  · exact hbody
  · have hsound : ClientCommand.quit.Sound initial := trivial
    exact hbody.trans ((send_tries hE hsound _).goes hsound)

/-- A run. -/
theorem run_goes (hE : E.WholeLines) {frames : List Frame}
    (hkeys : ∀ f ∈ frames, ∀ ch ∈ f.keys, E.Plain ch) (p : ClientProgram F) :
    Goes initial p (p.run E frames) := by
  induction frames generalizing p with
  | nil => exact .refl initial p
  | cons f frames ih =>
    obtain ⟨hframe, hkeys⟩ := List.forall_mem_cons.mp hkeys
    exact (frame_goes hE p hframe).trans (ih hkeys _)

end ClientProgram

/-- The arguments of an automatic join are a type and a tile. -/
theorem parseAutoJoin_eq_some {choice x y : List Char} {auto : AutoJoinConfig}
    (h : parseAutoJoin choice x y = some auto) :
    IsChoice auto.choice ∧ OnGrid auto.spawnX auto.spawnY := by
  obtain ⟨c, hc, h⟩ := Option.bind_eq_some_iff.mp h
  obtain ⟨spawnX, hx, h⟩ := Option.bind_eq_some_iff.mp h
  obtain ⟨spawnY, hy, rfl⟩ := Option.map_eq_some_iff.mp h
  have hrange : ∀ {value : List Char} {n : ℤ}, parseSpawnArg value 10 = some n →
      0 ≤ n ∧ n < 10 := by
    intro value n hn
    unfold parseSpawnArg at hn
    split at hn
    · split at hn
      · cases hn
      · cases hn
        omega
    · cases hn
  refine ⟨?_, hrange hx, hrange hy⟩
  unfold parseChoiceArg at hc
  split at hc
  · simp only at hc
    split at hc
    · cases hc
    · rename_i hletter
      cases hc
      simp only [not_and_or, not_not] at hletter
      exact hletter
  · cases hc

/-- Nothing has been said yet. -/
theorem parseArguments_flags {args : List (List Char)} {name : List Char} {auto : AutoJoinConfig}
    (h : parseArguments args = some (name, auto)) :
    auto.helloSent = false ∧ auto.choiceSent = false ∧ auto.spawnSent = false := by
  have hjoin : ∀ {choice x y : List Char} {found : AutoJoinConfig},
      parseAutoJoin choice x y = some found →
        found.helloSent = false ∧ found.choiceSent = false ∧ found.spawnSent = false := by
    intro choice x y found hfound
    obtain ⟨c, _, hfound⟩ := Option.bind_eq_some_iff.mp hfound
    obtain ⟨spawnX, _, hfound⟩ := Option.bind_eq_some_iff.mp hfound
    obtain ⟨spawnY, _, rfl⟩ := Option.map_eq_some_iff.mp hfound
    exact ⟨rfl, rfl, rfl⟩
  unfold parseArguments at h
  split at h
  · obtain ⟨found, hfound, heq⟩ := Option.map_eq_some_iff.mp h
    obtain rfl : found = auto := congrArg Prod.snd heq
    exact hjoin hfound
  · obtain ⟨found, hfound, heq⟩ := Option.map_eq_some_iff.mp h
    obtain rfl : found = auto := congrArg Prod.snd heq
    exact hjoin hfound
  · cases h
    exact ⟨rfl, rfl, rfl⟩
  · cases h
    exact ⟨rfl, rfl, rfl⟩
  · cases h

/-- The automatic join of a command line. -/
theorem parseArguments_auto {args : List (List Char)} {name : List Char} {auto : AutoJoinConfig}
    (h : parseArguments args = some (name, auto)) (hon : auto.enabled = true) :
    IsChoice auto.choice ∧ OnGrid auto.spawnX auto.spawnY := by
  unfold parseArguments at h
  split at h
  · obtain ⟨found, hfound, heq⟩ := Option.map_eq_some_iff.mp h
    obtain rfl : found = auto := congrArg Prod.snd heq
    exact parseAutoJoin_eq_some hfound
  · obtain ⟨found, hfound, heq⟩ := Option.map_eq_some_iff.mp h
    obtain rfl : found = auto := congrArg Prod.snd heq
    exact parseAutoJoin_eq_some hfound
  · cases h
    cases hon
  · cases h
    cases hon
  · cases h

/-- The client before its first frame. -/
theorem ClientProgram.start_speaks [CFloat F] {E : Surroundings} (hE : E.WholeLines)
    {args : List (List Char)} {name : List Char} {auto : AutoJoinConfig}
    (h : parseArguments args = some (name, auto)) :
    ∃ commands, (ClientProgram.start E name auto : ClientProgram F).Speaks name commands := by
  have hgrid : OnGrid 0 0 := by decide
  have hlength : (name.take (MAX_NAME_LENGTH - 1)).length < MAX_NAME_LENGTH :=
    (List.length_take_le _ _).trans_lt (by decide)
  have hconnected : (connected name auto : ClientProgram F).Speaks name [] :=
    ⟨rfl, fun _ h => absurd h List.not_mem_nil, hlength,
      fun c hc => .inr (List.take_subset _ _ hc), hgrid, parseArguments_auto h⟩
  exact ⟨_, (requestState_goes hE _ _ hconnected).choose_spec⟩

/-- Whatever arrives and whatever plain keys are pressed, a client that was started with a
command line says nothing but commands that it may say. -/
theorem ClientProgram.run_speaks [CFloat F] {E : Surroundings} (hE : E.WholeLines)
    {args : List (List Char)} {name : List Char} {auto : AutoJoinConfig}
    (h : parseArguments args = some (name, auto)) {frames : List Frame}
    (hkeys : ∀ f ∈ frames, ∀ ch ∈ f.keys, E.Plain ch) :
    ∃ commands, ((ClientProgram.start E name auto : ClientProgram F).run E frames).Speaks
      name commands := by
  obtain ⟨commands, hstart⟩ : ∃ commands,
      (ClientProgram.start E name auto : ClientProgram F).Speaks name commands :=
    start_speaks hE h
  obtain ⟨more, hmore⟩ := run_goes hE hkeys _ _ hstart
  exact ⟨_, hmore⟩

end Commands

end BattleRoyale
