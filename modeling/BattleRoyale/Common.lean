import Mathlib

/-!
# Players and server state

The constants and records of `common.h`. A slot array is a function on the
slot numbers, flags are booleans, ids and round numbers are unbounded, and the
two network buffers are the lists of the bytes in use, so that `inbuf_used` and
`outbuf_used` are list lengths. Coordinates live in an arbitrary type with the
operations that the server performs on a C `float`.
-/

namespace BattleRoyale

/-- The number of player slots. -/
abbrev MAX_PLAYERS : ℕ := 32
/-- Size of a name field, its terminator included. -/
abbrev MAX_NAME_LENGTH : ℕ := 32
/-- Size of a formatted line, its terminator included. -/
abbrev MAX_LINE : ℕ := 256
/-- Capacity of a player's receive buffer. -/
abbrev INBUF_SIZE : ℕ := 1024
/-- Capacity of a player's send buffer. -/
abbrev OUTBUF_SIZE : ℕ := 8192
/-- Width of the spawn grid. -/
abbrev GRID_W : ℤ := 10
/-- Height of the spawn grid. -/
abbrev GRID_H : ℤ := 10
/-- Length of the join countdown. -/
abbrev JOIN_WINDOW_SECONDS : ℤ := 60
/-- Length of the setup countdown. -/
abbrev SETUP_SECONDS : ℤ := 20
/-- Length announced for a round. -/
abbrev ROUND_SECONDS : ℤ := 5

instance : NeZero MAX_PLAYERS := ⟨by decide⟩

/-- A position in the player table. -/
abbrev Slot : Type := Fin MAX_PLAYERS

/-- The slots in the order in which every loop of the server visits them. -/
def slots : List Slot := List.finRange MAX_PLAYERS

/-- The phase of a match. -/
inductive Phase where
  /-- Waiting for players to submit CHOICE and SPAWN. -/
  | lobbyOpen
  /-- Lobby closed, admitted players finalizing setup. -/
  | setup
  /-- Active elimination round. -/
  | roundActive
  /-- Tie breaker in which alive players pick again. -/
  | repick
  /-- Match ended, a rematch may reset back to the lobby. -/
  | gameOver
  deriving DecidableEq, Repr

/-- The operations that the server performs on `float` coordinates. Comparisons
are boolean, so that an instance may have values that compare with nothing. -/
class CFloat (F : Type) where
  /-- The value of a literal, or of a `double` converted to `float`. -/
  lit : ℚ → F
  /-- Conversion from `int`. -/
  ofInt : ℤ → F
  /-- The cast to `int`, which drops the fractional part. -/
  toInt : F → ℤ
  /-- The operator `<`. -/
  lt : F → F → Bool
  /-- The operator `<=`. -/
  le : F → F → Bool
  /-- The operator `==`. -/
  eq : F → F → Bool
  /-- Addition. -/
  add : F → F → F
  /-- Subtraction. -/
  sub : F → F → F
  /-- Multiplication. -/
  mul : F → F → F
  /-- Division. -/
  div : F → F → F
  /-- The library function `sqrtf`. -/
  sqrtf : F → F
  /-- The text that `printf` writes for `%.{digits}f`. -/
  fixed : ℕ → F → List Char
  /-- What `scanf` reads for `%f` at the head of a text, and the text after it. -/
  scan : List Char → Option (F × List Char)

/-- One entry of the player table. -/
structure Player (F : Type) where
  /-- Socket of the connection. -/
  fd : ℤ
  /-- Identifier of the connection. -/
  id : ℕ
  /-- The slot is in use. -/
  connected : Bool
  /-- A name was accepted. -/
  registered : Bool
  /-- The player takes part in the current match. -/
  admitted : Bool
  /-- Still in the running match. -/
  alive : Bool
  /-- Admitted, and the match has not started yet. -/
  waiting : Bool
  /-- Takes part in the current round. -/
  inRound : Bool
  /-- CHOICE was accepted. -/
  choiceChosen : Bool
  /-- SPAWN was accepted. -/
  spawnChosen : Bool
  /-- REPICK was accepted in the current repick. -/
  repickSubmitted : Bool
  /-- The submitted repick. -/
  repickChoice : Char
  /-- The registered name. -/
  name : List Char
  /-- Rock, paper or scissors. -/
  choice : Char
  /-- Horizontal position. -/
  x : F
  /-- Vertical position. -/
  y : F
  /-- Bytes received and not yet consumed. -/
  inbuf : List Char
  /-- Bytes queued and not yet sent. -/
  outbuf : List Char

/-- The server's state. -/
structure ServerState (F : Type) where
  /-- The fixed player table. -/
  players : Slot → Player F
  /-- The next connection identifier. -/
  nextId : ℕ
  /-- Rounds started in the current match. -/
  roundNo : ℕ
  /-- The current phase. -/
  phase : Phase
  /-- End of the join countdown, zero when none runs. -/
  joinDeadline : ℤ
  /-- End of the setup countdown. -/
  setupDeadline : ℤ
  /-- Announced end of the round. -/
  roundDeadline : ℤ

variable {F : Type}

/-- The registration predicate of `game.h`. -/
def Player.isRegistered (p : Player F) : Bool := p.connected && p.registered

/-- The admission predicate of `game.h`. -/
def Player.isAdmitted (p : Player F) : Bool := p.connected && p.registered && p.admitted

/-- The survival predicate of `game.h`. -/
def Player.isAlive (p : Player F) : Bool :=
  p.connected && p.registered && p.admitted && p.alive

theorem Player.isRegistered_iff {p : Player F} :
    p.isRegistered = true ↔ p.connected = true ∧ p.registered = true := by
  simp [isRegistered]

theorem Player.isAdmitted_iff {p : Player F} :
    p.isAdmitted = true ↔ p.isRegistered = true ∧ p.admitted = true := by
  simp [isAdmitted, isRegistered]

theorem Player.isAlive_iff {p : Player F} :
    p.isAlive = true ↔ p.isAdmitted = true ∧ p.alive = true := by
  simp [isAlive, isAdmitted]

/-- A registered client is connected. -/
theorem Player.connected_of_isRegistered {p : Player F} (h : p.isRegistered = true) :
    p.connected = true := (isRegistered_iff.mp h).1

/-- An admitted client is registered. -/
theorem Player.isRegistered_of_isAdmitted {p : Player F} (h : p.isAdmitted = true) :
    p.isRegistered = true := (isAdmitted_iff.mp h).1

/-- An admitted client is connected. -/
theorem Player.connected_of_isAdmitted {p : Player F} (h : p.isAdmitted = true) :
    p.connected = true := connected_of_isRegistered (isRegistered_of_isAdmitted h)

/-- A player alive is admitted. -/
theorem Player.isAdmitted_of_isAlive {p : Player F} (h : p.isAlive = true) :
    p.isAdmitted = true := (isAlive_iff.mp h).1

/-- Replace the entry of one slot. -/
def ServerState.setPlayer (s : ServerState F) (i : Slot) (p : Player F) : ServerState F :=
  { s with players := Function.update s.players i p }

@[simp] theorem ServerState.setPlayer_self (s : ServerState F) (i : Slot) (p : Player F) :
    (s.setPlayer i p).players i = p := Function.update_self ..

theorem ServerState.setPlayer_of_ne (s : ServerState F) {i j : Slot} (p : Player F) (h : j ≠ i) :
    (s.setPlayer i p).players j = s.players j := Function.update_of_ne h ..

/-- Looking a slot up after a replacement. -/
theorem ServerState.setPlayer_players (s : ServerState F) (i j : Slot) (p : Player F) :
    (s.setPlayer i p).players j = if j = i then p else s.players j :=
  Function.update_apply ..

@[simp] theorem ServerState.setPlayer_phase (s : ServerState F) (i : Slot) (p : Player F) :
    (s.setPlayer i p).phase = s.phase := rfl

@[simp] theorem ServerState.setPlayer_nextId (s : ServerState F) (i : Slot) (p : Player F) :
    (s.setPlayer i p).nextId = s.nextId := rfl

@[simp] theorem ServerState.setPlayer_roundNo (s : ServerState F) (i : Slot) (p : Player F) :
    (s.setPlayer i p).roundNo = s.roundNo := rfl

@[simp] theorem ServerState.setPlayer_joinDeadline (s : ServerState F) (i : Slot)
    (p : Player F) : (s.setPlayer i p).joinDeadline = s.joinDeadline := rfl

/-- Two tables that agree in every slot make the same state. -/
theorem ServerState.players_congr {s : ServerState F} {f g : Slot → Player F}
    (h : ∀ i, f i = g i) : { s with players := f } = { s with players := g } := by
  rw [funext h]

@[simp] theorem mem_slots (i : Slot) : i ∈ slots := List.mem_finRange i

theorem slots_nodup : slots.Nodup := List.nodup_finRange _

section Floats

variable [CFloat F]

/-- A slot's bytes after `memset` to zero. -/
def Player.zero : Player F where
  fd := 0
  id := 0
  connected := false
  registered := false
  admitted := false
  alive := false
  waiting := false
  inRound := false
  choiceChosen := false
  spawnChosen := false
  repickSubmitted := false
  repickChoice := '\x00'
  name := []
  choice := '\x00'
  x := CFloat.lit 0
  y := CFloat.lit 0
  inbuf := []
  outbuf := []

/-- What `drop_player` leaves in a slot. -/
def Player.cleared : Player F :=
  { (Player.zero : Player F) with x := CFloat.lit (-1), y := CFloat.lit (-1) }

/-- The state built by `init_server_state`. -/
def initServerState : ServerState F where
  players := fun _ => Player.zero
  nextId := 1
  roundNo := 0
  phase := .lobbyOpen
  joinDeadline := 0
  setupDeadline := 0
  roundDeadline := 0

end Floats

end BattleRoyale
