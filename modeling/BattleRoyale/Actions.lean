import BattleRoyale.Server

/-!
# The abstract server

The server seen as a system of guarded atomic actions: what one action may do,
whoever performs it. `Action w e s` says that in `w` the action `e` may happen
and leaves the state `s`. The guards are what the source has checked by the time
it acts. Where the source acts on a check that an overflow may have overtaken,
the guard allows both cases, and in the second one it points at the record: the
entry that shows a client without room for the line that was broadcast.
-/

namespace BattleRoyale

open Recorded

variable {F : Type}

/-- A record of the server. -/
abbrev Log (F : Type) : Type := List (Entry (ServerState F) (Event F))

/-- The event begins a new match. -/
def Event.isReset : Event F → Bool
  | .matchReset => true
  | _ => false

/-- The event is an execution of `start_round`. -/
def Event.isStart : Event F → Bool
  | .roundStarted => true
  | _ => false

/-- The event is an execution of `end_game`. -/
def Event.isEnd : Event F → Bool
  | .gameEnded => true
  | _ => false

/-- The event queues a broadcast `ROUND_START` line for the slot. -/
def Event.isRoundLine (i : Slot) : Event F → Bool
  | .queued j .broadcast (.roundStart _ _) => i == j
  | _ => false

/-- The event queues a result line of `end_game` for the slot. -/
def Event.isVerdictLine (i : Slot) : Event F → Bool
  | .queued j .verdict (.gameOver _) => i == j
  | _ => false

/-- The event is the begin of `resolve_round`. -/
def Event.isResolving : Event F → Bool
  | .resolving => true
  | _ => false

/-- The event is neither one of `reset_match` nor the begin of `resolve_round`. -/
def Event.inMatch : Event F → Bool
  | .matchReset => false
  | .progressReset _ => false
  | .resolving => false
  | _ => true

/-- The event may occur in a re-entrant call of `reevaluate_state`, or in a broadcast. -/
def Event.isNested : Event F → Bool
  | .queued _ .broadcast _ => true
  | .queued _ .verdict _ => true
  | .refused _ .broadcast _ => true
  | .refused _ .verdict _ => true
  | .dropped _ false _ => true
  | .countdownCancelled _ => true
  | .roundStarted => true
  | .repicksFinished => true
  | .gameEnded => true
  | _ => false

theorem Event.isNested.inMatch {e : Event F} (h : e.isNested = true) : e.inMatch = true := by
  cases e <;> first | rfl | cases h

/-- Executions of `start_round` in the current match. -/
def roundStarts (log : Log F) : ℕ := countSince Event.isReset Event.isStart log

/-- Executions of `end_game` in the current match. -/
def gameEnds (log : Log F) : ℕ := countSince Event.isReset Event.isEnd log

/-- Broadcast `ROUND_START` lines queued for the slot in the current match. -/
def roundLines (i : Slot) (log : Log F) : ℕ := countSince Event.isReset (Event.isRoundLine i) log

/-- Result lines that `end_game` queued for the slot in the current match. -/
def verdictLines (i : Slot) (log : Log F) : ℕ :=
  countSince Event.isReset (Event.isVerdictLine i) log

/-- Rock, paper or scissors. -/
def IsChoice (c : Char) : Prop := c = 'R' ∨ c = 'P' ∨ c = 'S'

/-- What `%31s` stores: between one and 31 characters, none of them white space or
the terminator. -/
def ValidName (name : List Char) : Prop :=
  name ≠ [] ∧ name.length < MAX_NAME_LENGTH ∧ ∀ c ∈ name, isSpace c = false ∧ c ≠ '\x00'

/-- Rounds were resolved in this run, or repicks finished. The loop does neither. -/
def RoundsResolved (log : Log F) : Prop :=
  ∃ x ∈ log, x.event = .resolving ∨ x.event = .repicksFinished

variable [CFloat F]

/-- The broadcasts that close the lobby. -/
def closingLines : List (ServerLine F) := [.lobbyClosed, .setupOpen SETUP_SECONDS]

/-- The broadcast that starts the countdown. -/
def openingLines : List (ServerLine F) := [.lobbyOpen JOIN_WINDOW_SECONDS]

/-- At some closing of the lobby, a connected client had no room for the two lines. -/
def FullAtClosing (log : Log F) : Prop :=
  ∃ x ∈ log, x.event = .lobbyClosed ∧
    ∃ j, (x.state.players j).connected = true ∧ (x.state.players j).takes closingLines = false

/-- At some opening of the countdown by the player of slot `i`, that player had no
room for the line. -/
def JoinerFullAtOpening (i : Slot) (log : Log F) : Prop :=
  ∃ x ∈ log, x.event = .lobbyOpened i ∧ (x.state.players i).takes openingLines = false

/-- At some opening of the countdown, a connected client other than the joining
player had no room for the line. -/
def OtherFullAtOpening (log : Log F) : Prop :=
  ∃ x ∈ log, ∃ i, x.event = .lobbyOpened i ∧
    ∃ j, j ≠ i ∧ (x.state.players j).connected = true ∧
      (x.state.players j).takes openingLines = false

/-- The grid tile of a player: the integer parts of its coordinates. -/
def Player.tile (p : Player F) : ℤ × ℤ := (CFloat.toInt p.x, CFloat.toInt p.y)

/-- The player stands on whole coordinates. -/
def Player.onGrid (p : Player F) : Bool :=
  CFloat.eq p.x (CFloat.ofInt (CFloat.toInt p.x)) &&
    CFloat.eq p.y (CFloat.ofInt (CFloat.toInt p.y))

omit [CFloat F] in
/-- The event is an accepted CHOICE or SPAWN of the player of slot `i`. -/
def Event.isJoinCommand (i : Slot) : Event F → Bool
  | .chose j => i == j
  | .spawned j => i == j
  | _ => false

/-- The last accepted CHOICE or SPAWN of slot `i` left it in the tile of the admitted player
of slot `j`, and the code could not see that: CHOICE does not look, and SPAWN looks past an
occupant off the grid points. -/
def Unseen (i j : Slot) (log : Log F) : Prop :=
  ∃ x, log.find? (fun x => x.event.isJoinCommand i) = some x ∧
    (x.state.players j).isAdmitted = true ∧
    (x.state.players j).tile = (x.state.players i).tile ∧
    (x.event = .spawned i → (x.state.players j).onGrid = false)

/-- Every admitted player in the tile of slot `i` was unseen when its command was accepted. -/
def OccupantsUnseen (s : ServerState F) (i : Slot) (log : Log F) : Prop :=
  ∀ j, j ≠ i → (s.players j).isAdmitted = true →
    (s.players j).tile = (s.players i).tile → Unseen i j log

/-- At some admission the command that completed the join had not seen an admitted player
of the same tile, who is still there. -/
def TileClash : Log F → Prop
  | [] => False
  | x :: log =>
    (∃ i j, j ≠ i ∧ x.event = .admitted i ∧ (x.state.players i).connected = true ∧
      (x.state.players j).isAdmitted = true ∧ Unseen i j log) ∨ TileClash log

section Decidable

/-- The event is the closing of a lobby. -/
def Event.isClosing : Event F → Bool
  | .lobbyClosed => true
  | _ => false

/-- The player whose join opened the countdown. -/
def Event.opener : Event F → Option Slot
  | .lobbyOpened i => some i
  | _ => none

/-- The player who was admitted. -/
def Event.entrant : Event F → Option Slot
  | .admitted i => some i
  | _ => none

/-- The player whose SPAWN was accepted. -/
def Event.spawner : Event F → Option Slot
  | .spawned i => some i
  | _ => none

omit [CFloat F] in
theorem Event.isClosing_iff {e : Event F} : e.isClosing = true ↔ e = .lobbyClosed := by
  cases e <;> simp [isClosing]

omit [CFloat F] in
theorem Event.opener_iff {e : Event F} {i : Slot} : e.opener = some i ↔ e = .lobbyOpened i := by
  cases e <;> simp [opener]

omit [CFloat F] in
theorem Event.entrant_iff {e : Event F} {i : Slot} : e.entrant = some i ↔ e = .admitted i := by
  cases e <;> simp [entrant]

omit [CFloat F] in
theorem Event.spawner_iff {e : Event F} {i : Slot} : e.spawner = some i ↔ e = .spawned i := by
  cases e <;> simp [spawner]

instance (log : Log F) : Decidable (FullAtClosing log) :=
  decidable_of_iff (∃ x ∈ log, x.event.isClosing = true ∧
    ∃ j, (x.state.players j).connected = true ∧ (x.state.players j).takes closingLines = false) <| by
      simp only [Event.isClosing_iff, FullAtClosing]

instance (i : Slot) (log : Log F) : Decidable (JoinerFullAtOpening i log) :=
  decidable_of_iff (∃ x ∈ log, x.event.opener = some i ∧
    (x.state.players i).takes openingLines = false) <| by
      simp only [Event.opener_iff, JoinerFullAtOpening]

instance (log : Log F) : Decidable (OtherFullAtOpening log) :=
  decidable_of_iff (∃ x ∈ log, ∃ i, x.event.opener = some i ∧
    ∃ j, j ≠ i ∧ (x.state.players j).connected = true ∧
      (x.state.players j).takes openingLines = false) <| by
      simp only [Event.opener_iff, OtherFullAtOpening]

instance (i j : Slot) (log : Log F) : Decidable (Unseen i j log) :=
  decidable_of_iff ((log.find? fun x => x.event.isJoinCommand i).any fun x =>
    (x.state.players j).isAdmitted && ((x.state.players j).tile == (x.state.players i).tile) &&
      (!(x.event.spawner == some i) || !(x.state.players j).onGrid)) <| by
      simp only [Unseen, Option.any_eq_true, Bool.and_eq_true, Bool.or_eq_true, beq_iff_eq,
        Bool.not_eq_true', beq_eq_false_iff_ne, ne_eq, Event.spawner_iff, and_assoc,
        ← imp_iff_not_or]

instance TileClash.decide : (log : Log F) → Decidable (TileClash log)
  | [] => isFalse id
  | x :: log =>
    have := TileClash.decide log
    decidable_of_iff ((∃ i, x.event.entrant = some i ∧ (x.state.players i).connected = true ∧
      ∃ j, j ≠ i ∧ (x.state.players j).isAdmitted = true ∧ Unseen i j log) ∨ TileClash log) <| by
        simp only [Event.entrant_iff, TileClash]
        refine or_congr_left ⟨?_, ?_⟩
        · rintro ⟨i, he, hi, j, hj, hadmitted, hunseen⟩
          exact ⟨i, j, hj, he, hi, hadmitted, hunseen⟩
        · rintro ⟨i, j, hj, he, hi, hadmitted, hunseen⟩
          exact ⟨i, he, hi, j, hj, hadmitted, hunseen⟩

end Decidable

/-- When a line may be queued. A round is announced only once for each start, and a
result only in the phase that has one, as `queue_game_over_result` computes it. The
status of the lobby is told as it is; where the clock reads a time before the epoch,
a countdown may end at zero. A `PLAYER` line is the entry of an admitted player, and
only a name that is not in use is said to have left. -/
def LineOk (w : Server F) (i : Slot) : Via → ServerLine F → Prop
  | .broadcast, .roundStart _ _ => roundLines i w.log < roundStarts w.log
  | .verdict, .gameOver v =>
    w.state.phase = .gameOver ∧ (w.state.players i).verdict = some v ∧
      verdictLines i w.log < gameEnds w.log
  | .checked, .gameOver v =>
    w.state.phase = .gameOver ∧ (w.state.players i).verdict = some v
  | _, .gameOver _ => False
  | _, .lobbyWaiting => w.state.phase = .lobbyOpen ∧ w.state.joinDeadline = 0
  | _, .lobbyOpen _ =>
    w.state.phase = .lobbyOpen ∧ ((∀ n, 0 < w.env n) → w.state.joinDeadline ≠ 0)
  | _, .lobbyClosed => w.state.phase ≠ .lobbyOpen
  | _, .player name choice x y alive waiting =>
    ∃ k, (w.state.players k).isAdmitted = true ∧
      (w.state.players k).line = .player name choice x y alive waiting
  | _, .left name =>
    ∀ k, (w.state.players k).isRegistered = true → (w.state.players k).name ≠ name
  | _, .pairWinner .. => RoundsResolved w.log
  | .broadcast, .stateBegin => False
  | .broadcast, .matchReset => False
  | _, _ => True

/-- The atomic actions of the server. -/
inductive Action : Server F → Event F → ServerState F → Prop
  | accept {w : Server F} {i : Slot} {fd : ℤ}
      (hfree : (w.state.players i).connected = false) :
      Action w (.accepted i)
        { w.state.setPlayer i (initPlayerSlot fd w.state.nextId) with
          nextId := w.state.nextId + 1 }
  | receive {w : Server F} {i : Slot} {bytes : List Char}
      (hconn : (w.state.players i).connected = true) :
      Action w (.received i bytes)
        (w.state.setPlayer i
          { w.state.players i with inbuf := (w.state.players i).inbuf ++ bytes })
  | pop {w : Server F} {i : Slot} {line inbuf : List Char}
      (hconn : (w.state.players i).connected = true)
      (hpop : (w.state.players i).popLine MAX_LINE =
        some (line, { w.state.players i with inbuf := inbuf })) :
      Action w (.popped i line) (w.state.setPlayer i { w.state.players i with inbuf := inbuf })
  | flush {w : Server F} {i : Slot} {n : ℕ}
      (hconn : (w.state.players i).connected = true) :
      Action w (.flushed i ((w.state.players i).outbuf.take n))
        (w.state.setPlayer i
          { w.state.players i with outbuf := (w.state.players i).outbuf.drop n })
  | queue {w : Server F} {i : Slot} {via : Via} {line : ServerLine F} {p : Player F}
      (hconn : (w.state.players i).connected = true ∨
        (line = .joinedMatch ∧ JoinerFullAtOpening i w.log))
      (hline : LineOk w i via line)
      (hqueue : (w.state.players i).queueVia via line = some p) :
      Action w (.queued i via line) (w.state.setPlayer i p)
  | refuse {w : Server F} {i : Slot} {via : Via} {line : ServerLine F}
      (hqueue : (w.state.players i).queueVia via line = none) :
      Action w (.refused i via line) w.state
  | drop {w : Server F} {i : Slot} {announce : Bool}
      (hconn : (w.state.players i).connected = true) :
      Action w (.dropped i announce (w.state.players i).name)
        (w.state.setPlayer i Player.cleared)
  | register {w : Server F} {i : Slot} {name : List Char}
      (hconn : (w.state.players i).connected = true)
      (hnew : (w.state.players i).registered = false)
      (hvalid : ValidName name) (hunused : findName w.state name = none) :
      Action w (.registered i)
        (w.state.setPlayer i
          { (w.state.players i).resetProgress with name := name, registered := true })
  | choose {w : Server F} {i : Slot} {choice : Char}
      (hreg : (w.state.players i).isRegistered = true)
      (hout : (w.state.players i).admitted = false) (hchoice : IsChoice choice) :
      Action w (.chose i)
        (w.state.setPlayer i { w.state.players i with choice := choice, choiceChosen := true })
  | spawn {w : Server F} {i : Slot} {x y : F}
      (hreg : (w.state.players i).isRegistered = true)
      (hout : (w.state.players i).admitted = false) (hrange : badSpawn x y = false)
      (hfree : spawnTaken w.state (CFloat.toInt x) (CFloat.toInt y) i = false) :
      Action w (.spawned i)
        (w.state.setPlayer i { w.state.players i with x := x, y := y, spawnChosen := true })
  | submit {w : Server F} {i : Slot} {choice : Char}
      (hphase : w.state.phase = .repick) (halive : (w.state.players i).isAlive = true)
      (hnew : (w.state.players i).repickSubmitted = false) (hchoice : IsChoice choice) :
      Action w (.repicked i)
        (w.state.setPlayer i
          { w.state.players i with repickChoice := choice, repickSubmitted := true })
  | openLobby {w : Server F} {i : Slot}
      (hreg : (w.state.players i).isRegistered = true)
      (hphase : w.state.phase = .lobbyOpen) (hidle : w.state.joinDeadline = 0) :
      Action w (.lobbyOpened i)
        { w.state with joinDeadline := w.time + JOIN_WINDOW_SECONDS }
  | enter {w : Server F} {i : Slot}
      (hphase : w.state.phase = .lobbyOpen)
      (hplayer : ((w.state.players i).isRegistered = true ∧
          (w.state.players i).admitted = false ∧
          (w.state.players i).choiceChosen = true ∧ (w.state.players i).spawnChosen = true ∧
          OccupantsUnseen w.state i w.log) ∨
        ((w.state.players i).connected = false ∧ JoinerFullAtOpening i w.log))
      (hcount : (∀ n, 0 < w.env n) → (w.state.players i).connected = true →
        w.state.joinDeadline ≠ 0 ∨ OtherFullAtOpening w.log) :
      Action w (.admitted i)
        (w.state.setPlayer i { w.state.players i with admitted := true, waiting := true })
  | cancel {w : Server F} (hphase : w.state.phase = .lobbyOpen)
      (hempty : admittedCount w.state = 0) :
      Action w (.countdownCancelled w.state.joinDeadline) { w.state with joinDeadline := 0 }
  | closeLobby {w : Server F} (hphase : w.state.phase = .lobbyOpen)
      (hcount : w.state.joinDeadline ≠ 0) (htime : w.state.joinDeadline ≤ w.time) :
      Action w .lobbyClosed
        { w.state with phase := .setup, setupDeadline := w.time + SETUP_SECONDS }
  | start {w : Server F} (hphase : w.state.phase ≠ .lobbyOpen)
      (horder : w.state.phase = .setup ∨ FullAtClosing w.log ∨ RoundsResolved w.log) :
      Action w .roundStarted (startRound w.time w.state)
  | finish {w : Server F} (hphase : w.state.phase ≠ .lobbyOpen)
      (horder : w.state.phase = .setup ∨ w.state.phase = .roundActive ∨
        FullAtClosing w.log ∨ RoundsResolved w.log)
      (hwhy : admittedCount w.state < 2 ∨ RoundsResolved w.log ∨
        (w.state.phase = .roundActive ∧
          (activeAliveCount w.state ≤ 1 ∨ countAliveChoiceTypes w.state ≤ 1))) :
      Action w .gameEnded { w.state with phase := .gameOver }
  | applyRepicks {w : Server F} (hphase : w.state.phase = .repick)
      (hall : allAliveRepicked w.state = true) :
      Action w .repicksFinished
        { w.state with players := fun i => (w.state.players i).applyRepick }
  | enterRepick {w : Server F} (hphase : w.state.phase ≠ .lobbyOpen)
      (hround : w.state.roundNo ≠ 0) (hresolved : RoundsResolved w.log) :
      Action w .repicksBegun
        { w.state with phase := .repick, players := fun i => (w.state.players i).clearRepick }
  | tick {w : Server F} {dt : F} (hphase : w.state.phase = .roundActive) :
      Action w .chaseTicked (simulateChaseTick w.state dt).1
  | resolve {w : Server F} (hphase : w.state.phase = .roundActive) :
      Action w .resolving w.state
  | pair {w : Server F} {a b : Slot} {x y : F} (hphase : w.state.phase ≠ .lobbyOpen)
      (hround : w.state.roundNo ≠ 0) (hresolved : RoundsResolved w.log) :
      Action w (.pairResolved a b)
        ((w.state.setPlayer a { w.state.players a with x := x, y := y }).setPlayer b
          { (w.state.setPlayer a { w.state.players a with x := x, y := y }).players b with
            alive := false, inRound := false, x := CFloat.lit (-1), y := CFloat.lit (-1) })
  | clearRound {w : Server F} (hphase : w.state.phase ≠ .lobbyOpen)
      (hresolved : RoundsResolved w.log) :
      Action w .roundCleared
        { w.state with players := fun i => { w.state.players i with inRound := false } }
  | reset {w : Server F} (hphase : w.state.phase = .gameOver) :
      Action w .matchReset
        { w.state with
          phase := .lobbyOpen
          joinDeadline := 0
          setupDeadline := 0
          roundDeadline := 0
          roundNo := 0 }
  | resetProgress {w : Server F} {i : Slot}
      (hreg : (w.state.players i).isRegistered = true)
      (hphase : w.state.phase = .lobbyOpen) :
      Action w (.progressReset i)
        (w.state.setPlayer i (w.state.players i).resetProgress)

end BattleRoyale
