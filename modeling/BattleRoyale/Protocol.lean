import BattleRoyale.Messages

/-!
# Buffered line transport

The functions of `protocol.c` on one player. The results of `send` and `recv`
are inputs. The server reaches `queue_line` in three ways, which cut the
formatted text at different lengths; `Via` tells them apart.
-/

namespace BattleRoyale

variable {F : Type}

/-- The last part of `queue_line`: append a formatted line and its newline, or
refuse it (`none`) for its length or for lack of room. -/
def Player.queueLine (p : Player F) (text : List Char) : Option (Player F) :=
  if MAX_LINE - 2 ≤ text.length then none
  else if OUTBUF_SIZE < p.outbuf.length + (text.length + 1) then none
  else some { p with outbuf := p.outbuf ++ (text ++ ['\n']) }

/-- The way in which a line reaches `queue_line`. -/
inductive Via where
  /-- A direct call of `queue_line`, whose result the caller ignores or tests. -/
  | line
  /-- `queue_line_checked`. -/
  | checked
  /-- `queue_broadcast`. -/
  | broadcast
  /-- `queue_line_checked` for the result lines of `end_game`. -/
  | verdict
  deriving DecidableEq, Repr

/-- `queue_line_checked`, which formats on its own and refuses a line that its
buffer cannot hold. -/
def Player.queueLineChecked (p : Player F) (text : List Char) : Option (Player F) :=
  if MAX_LINE ≤ text.length then none else p.queueLine (cString text)

/-- `queue_broadcast` for one client, which formats on its own and cuts. -/
def Player.queueLineCut (p : Player F) (text : List Char) : Option (Player F) :=
  p.queueLine (cString (text.take (MAX_LINE - 1)))

/-- Queue a line in the given way. -/
def Player.queueVia [CFloat F] (p : Player F) : Via → ServerLine F → Option (Player F)
  | .line, l => p.queueLine l.text
  | .checked, l => p.queueLineChecked l.text
  | .broadcast, l => p.queueLineCut l.text
  | .verdict, l => p.queueLineChecked l.text

/-- The bytes that a successful call adds before the newline. -/
def Via.sent [CFloat F] : Via → ServerLine F → List Char
  | .line, l => l.text
  | .checked, l => cString l.text
  | .broadcast, l => cString (l.text.take (MAX_LINE - 1))
  | .verdict, l => cString l.text

/-- All of the lines, broadcast one after another, fit into the buffer. -/
def Player.takes [CFloat F] (p : Player F) (lines : List (ServerLine F)) : Bool :=
  (lines.foldlM (fun (q : Player F) l => q.queueVia .broadcast l) p).isSome

/-- The predicate `player_has_pending_output`. -/
def Player.hasPendingOutput (p : Player F) : Bool := 0 < p.outbuf.length

/-- The result of one call of `send`. -/
inductive SendResult where
  /-- So many of the offered bytes were accepted. -/
  | accepted (n : ℕ)
  /-- The socket would block. -/
  | wouldBlock
  /-- Any other error. -/
  | failed
  deriving DecidableEq, Repr

/-- `flush_player_output` for the results of its successive calls of `send`. The
first component is its return value. Where the results run out, the socket
blocks. -/
def Player.flushPlayerOutput (p : Player F) : List SendResult → ℤ × Player F
  | [] => if p.outbuf = [] then (1, p) else (0, p)
  | r :: rest =>
    if p.outbuf = [] then (1, p)
    else
      match r with
      | .accepted n =>
        if n = 0 then (-1, p)
        else Player.flushPlayerOutput { p with outbuf := p.outbuf.drop n } rest
      | .wouldBlock => (0, p)
      | .failed => (-1, p)

/-- The result of one call of `recv` for 256 bytes. -/
inductive RecvResult where
  /-- Received bytes. -/
  | data (bytes : List Char)
  /-- The peer closed the connection. -/
  | closed
  /-- Nothing to read. -/
  | wouldBlock
  /-- Any other error. -/
  | failed
  deriving DecidableEq, Repr

/-- The bytes that `recv` stores. -/
def RecvResult.bytes : RecvResult → List Char
  | .data bytes => bytes.take 256
  | _ => []

/-- `read_into_player_buffer`: its return value and the player after it. -/
def Player.readIntoPlayerBuffer (p : Player F) : RecvResult → ℤ × Player F
  | .closed => (0, p)
  | .wouldBlock => (1, p)
  | .failed => (-1, p)
  | .data bytes =>
    let tmp := bytes.take 256
    if INBUF_SIZE ≤ p.inbuf.length + tmp.length then (-1, p)
    else ((tmp.length : ℤ), { p with inbuf := p.inbuf ++ tmp })

/-- `pop_line`: the first complete line without its newline and one carriage
return, cut to the caller's buffer, and the player without it. -/
def Player.popLine (p : Player F) (outSize : ℕ) : Option (List Char × Player F) :=
  match p.inbuf.dropWhile (· ≠ '\n') with
  | [] => none
  | _ :: rest =>
    let segment := p.inbuf.takeWhile (· ≠ '\n')
    let line := if segment.getLast? = some '\r' then segment.dropLast else segment
    some (line.take (outSize - 1), { p with inbuf := rest })

/-- A line is queued by appending it. -/
theorem Player.queueLine_eq_some {p q : Player F} {text : List Char} :
    p.queueLine text = some q ↔
      text.length < MAX_LINE - 2 ∧ p.outbuf.length + (text.length + 1) ≤ OUTBUF_SIZE ∧
        q = { p with outbuf := p.outbuf ++ (text ++ ['\n']) } := by
  unfold queueLine
  split
  · simp only [reduceCtorEq, false_iff]
    omega
  · split
    · simp only [reduceCtorEq, false_iff]
      omega
    · constructor
      · intro h
        exact ⟨by omega, by omega, (Option.some.inj h).symm⟩
      · rintro ⟨_, _, rfl⟩
        rfl

/-- Whatever the way, a queued line only extends the send buffer. -/
theorem Player.queueVia_eq_some [CFloat F] {p q : Player F} {via : Via} {l : ServerLine F}
    (h : p.queueVia via l = some q) :
    q = { p with outbuf := p.outbuf ++ (via.sent l ++ ['\n']) } := by
  cases via with
  | line => exact (queueLine_eq_some.mp h).2.2
  | broadcast => exact (queueLine_eq_some.mp h).2.2
  | checked =>
    simp only [queueVia, queueLineChecked] at h
    split at h
    · cases h
    · exact (queueLine_eq_some.mp h).2.2
  | verdict =>
    simp only [queueVia, queueLineChecked] at h
    split at h
    · cases h
    · exact (queueLine_eq_some.mp h).2.2

end BattleRoyale
