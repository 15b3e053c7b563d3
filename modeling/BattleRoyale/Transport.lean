import BattleRoyale.Exact
import BattleRoyale.Library.Framing

/-!
# The two directions of a connection

What one player receives and sends, over any number of calls. The lines that are taken
from the receive buffer are the segments of the received stream, however `recv` cuts it.
The bytes that `send` has accepted and those in the send buffer are together the lines
that were queued, in order, however `send` behaves.
-/

namespace BattleRoyale

open Framing

variable {F : Type}

/-- The line that `pop_line` makes of a segment: without one carriage return at its end,
and cut to the caller's buffer. -/
def lineOf (outSize : ℕ) (segment : List Char) : List Char :=
  (if segment.getLast? = some '\r' then segment.dropLast else segment).take (outSize - 1)

/-- No complete line is left. -/
theorem Player.popLine_eq_none {p : Player F} {n : ℕ} : p.popLine n = none ↔ '\n' ∉ p.inbuf := by
  unfold popLine
  split
  · rename_i hnone
    simp only [List.dropWhile_eq_nil_iff, ne_eq, decide_eq_true_eq] at hnone
    simp only [true_iff]
    exact fun hmem => hnone _ hmem rfl
  · rename_i b rest hrest
    simp only [reduceCtorEq, false_iff, not_not]
    by_contra hmem
    have hall : p.inbuf.dropWhile (· ≠ '\n') = [] := by
      simp only [List.dropWhile_eq_nil_iff, ne_eq, decide_eq_true_eq]
      rintro c hc rfl
      exact hmem hc
    rw [hall] at hrest
    cases hrest

/-- A complete line is taken from the head of the buffer. -/
theorem Player.popLine_append {p : Player F} {segment rest : List Char} (n : ℕ)
    (hsegment : '\n' ∉ segment) (hinbuf : p.inbuf = segment ++ '\n' :: rest) :
    p.popLine n = some (lineOf n segment, { p with inbuf := rest }) := by
  have hhead : ∀ c ∈ segment, decide (c ≠ '\n') = true := by
    intro c hc
    simp only [ne_eq, decide_eq_true_eq]
    rintro rfl
    exact hsegment hc
  have hdrop : p.inbuf.dropWhile (· ≠ '\n') = '\n' :: rest := by
    rw [hinbuf, List.dropWhile_append_of_pos hhead]
    simp
  have htake : p.inbuf.takeWhile (· ≠ '\n') = segment := by
    rw [hinbuf, List.takeWhile_append_of_pos hhead]
    simp
  unfold popLine
  rw [hdrop]
  simp only [htake, lineOf]

/-- Taking a line shortens the buffer. -/
theorem Player.popLine_length {p q : Player F} {n : ℕ} {line : List Char}
    (h : p.popLine n = some (line, q)) : q.inbuf.length < p.inbuf.length := by
  have hmem : '\n' ∈ p.inbuf := by
    by_contra hmem
    rw [popLine_eq_none.mpr hmem] at h
    cases h
  obtain ⟨segment, rest, hinbuf, hsegment⟩ := List.eq_append_cons_of_mem hmem
  rw [popLine_append n hsegment hinbuf] at h
  simp only [Option.some.injEq, Prod.mk.injEq] at h
  rw [← h.2, hinbuf, List.length_append, List.length_cons]
  show rest.length < _
  omega

/-- The inner loop of `process_player_reads`: all complete lines, and the player after it. -/
def Player.drain (p : Player F) : List (List Char) × Player F :=
  match _h : p.popLine MAX_LINE with
  | none => ([], p)
  | some (line, q) =>
    let (lines, r) := q.drain
    (line :: lines, r)
termination_by p.inbuf.length
decreasing_by exact Player.popLine_length _h

/-- Alternating `read_into_player_buffer` with the inner loop, for the chunks that `recv`
returns: all lines and the player at the end, or `none` when a read reports an error. -/
def Player.receive (p : Player F) : List (List Char) → Option (List (List Char) × Player F)
  | [] => some ([], p)
  | chunk :: chunks =>
    let (rc, q) := p.readIntoPlayerBuffer (.data chunk)
    if rc ≤ 0 then none
    else
      let (lines, r) := q.drain
      (r.receive chunks).map fun (later, t) => (lines ++ later, t)

/-- Draining cuts the buffer into its frames. -/
theorem Player.drain_eq (p : Player F) :
    p.drain = ((frames '\n' p.inbuf).1.map (lineOf MAX_LINE),
      { p with inbuf := (frames '\n' p.inbuf).2 }) := by
  induction hn : p.inbuf.length using Nat.strong_induction_on generalizing p with
  | _ n ih =>
    subst hn
    by_cases hmem : '\n' ∈ p.inbuf
    · obtain ⟨segment, rest, hinbuf, hsegment⟩ := List.eq_append_cons_of_mem hmem
      have hpop := popLine_append MAX_LINE hsegment hinbuf
      have hrest := ih _ (popLine_length hpop) _ rfl
      rw [drain]
      split <;> rename_i hq
      · rw [hpop] at hq
        cases hq
      · rw [hpop] at hq
        simp only [Option.some.injEq, Prod.mk.injEq] at hq
        obtain ⟨rfl, rfl⟩ := hq
        rw [hrest, hinbuf, frames_append_sep hsegment]
        rfl
    · have hnone : p.popLine MAX_LINE = none := popLine_eq_none.mpr hmem
      rw [drain]
      split <;> rename_i hq
      · rw [frames_of_not_mem hmem]
        rfl
      · rw [hnone] at hq
        cases hq

/-- A chunk that fits is appended. -/
theorem Player.readIntoPlayerBuffer_data {p : Player F} {chunk : List Char}
    (hsize : chunk.length ≤ 256) (hroom : p.inbuf.length + chunk.length < INBUF_SIZE) :
    p.readIntoPlayerBuffer (.data chunk) =
      ((chunk.length : ℤ), { p with inbuf := p.inbuf ++ chunk }) := by
  have htake : chunk.take 256 = chunk := List.take_of_length_le hsize
  simp only [readIntoPlayerBuffer, htake]
  rw [if_neg (by omega)]

/-- Receiving, from a buffer that holds part of a segment. -/
theorem Player.receive_eq (chunks : List (List Char)) {p : Player F} (hopen : '\n' ∉ p.inbuf)
    (hchunks : ∀ c ∈ chunks, 1 ≤ c.length ∧ c.length ≤ 256)
    (hsegments : ∀ s ∈ segments '\n' (p.inbuf ++ chunks.flatten), s.length ≤ 767) :
    p.receive chunks =
      some ((frames '\n' (p.inbuf ++ chunks.flatten)).1.map (lineOf MAX_LINE),
        { p with inbuf := (frames '\n' (p.inbuf ++ chunks.flatten)).2 }) := by
  induction chunks generalizing p with
  | nil =>
    rw [receive, List.flatten_nil, List.append_nil, frames_of_not_mem hopen]
    rfl
  | cons chunk chunks ih =>
    obtain ⟨hpos, hsize⟩ := hchunks chunk List.mem_cons_self
    -- The buffer holds the begin of one segment, so the chunk fits.
    have hroom : p.inbuf.length + chunk.length < INBUF_SIZE := by
      obtain ⟨s, hs, hle⟩ := exists_segment_of_not_mem hopen (chunk :: chunks).flatten
      have hlength := hsegments s hs
      show p.inbuf.length + chunk.length < 1024
      omega
    rw [List.flatten_cons, ← List.append_assoc] at hsegments ⊢
    rw [segments_append] at hsegments
    have hrest := @ih { p with inbuf := (frames '\n' (p.inbuf ++ chunk)).2 } (not_mem_tail _)
      (fun c hc => hchunks c (List.mem_cons_of_mem _ hc))
      fun s hs => hsegments s (List.mem_append_right _ hs)
    rw [frames_append (p.inbuf ++ chunk)]
    simp only [receive, readIntoPlayerBuffer_data hsize hroom, drain_eq]
    rw [if_neg (by omega), hrest]
    simp only [Option.map_some, List.map_append]

/-- Receive framing: whatever the stream is, as long as its segments are at most 767 bytes
long, and however `recv` cuts it into chunks, no read reports an error, the lines are the
segments of the stream, and its tail stays in the buffer. -/
theorem receive_lines (p : Player F) (hempty : p.inbuf = []) (chunks : List (List Char))
    (hchunks : ∀ c ∈ chunks, 1 ≤ c.length ∧ c.length ≤ 256)
    (hsegments : ∀ s ∈ segments '\n' chunks.flatten, s.length ≤ 767) :
    p.receive chunks =
      some ((frames '\n' chunks.flatten).1.map (lineOf MAX_LINE),
        { p with inbuf := (frames '\n' chunks.flatten).2 }) := by
  have hopen : '\n' ∉ p.inbuf := by simp [hempty]
  have h := Player.receive_eq chunks hopen hchunks
    (by rwa [hempty, List.nil_append])
  rwa [hempty, List.nil_append] at h

/-- A stream in five chunks: a carriage return and its newline apart, a line in one
chunk with the end of another, and a tail. -/
theorem receive_lines_chunks :
    (Player.zero : Player Exact).receive
        ["HELLO A\r".toList, "\nCHO".toList, "ICE R\nQUIT\n".toList, "\r\n".toList,
          "GET".toList] =
      some (["HELLO A".toList, "CHOICE R".toList, "QUIT".toList, []],
        { (Player.zero : Player Exact) with inbuf := "GET".toList }) :=
  receive_lines Player.zero rfl _ (by decide) (by decide)

/-- A call on the player of a connection. -/
inductive SendCall where
  /-- `queue_line` with this formatted text. -/
  | queueLine (text : List Char)
  /-- `flush_player_output`, with the answers of `send` to what it is given. -/
  | flushPlayerOutput (send : ℕ → List Char → SendResult)

/-- `flush_player_output` with at most so many passes of its loop, from the given call of
`send` on: its return value, the bytes that its calls of `send` accepted, and the player
after it; `none` when the passes do not suffice. -/
def Player.flushWithin (send : ℕ → List Char → SendResult) :
    ℕ → ℕ → Player F → Option (ℤ × List Char × Player F)
  | 0, _, _ => none
  | passes + 1, k, p =>
    if p.outbuf = [] then some (1, [], p)
    else
      match send k p.outbuf with
      | .accepted n =>
        if n = 0 then some (-1, [], p)
        else
          (Player.flushWithin send passes (k + 1) { p with outbuf := p.outbuf.drop n }).map
            fun (rc, later, q) => (rc, p.outbuf.take n ++ later, q)
      | .wouldBlock => some (0, [], p)
      | .failed => some (-1, [], p)

/-- A player with the history of its calls. -/
structure Sending (F : Type) where
  /-- The player. -/
  player : Player F
  /-- The texts whose `queue_line` returned 0. -/
  queued : List (List Char)
  /-- The bytes that `send` has accepted, in order. -/
  sent : List Char

/-- One call: its return value and what it leaves, or `none` if it does not return. -/
def Sending.call (s : Sending F) : SendCall → Option (ℤ × Sending F)
  | .queueLine text =>
    match s.player.queueLine text with
    | none => some (-1, s)
    | some p => some (0, { s with player := p, queued := s.queued ++ [text] })
  | .flushPlayerOutput send =>
    (s.player.flushWithin send (s.player.outbuf.length + 1) 0).map fun (rc, accepted, p) =>
      (rc, { s with player := p, sent := s.sent ++ accepted })

/-- Calls in order. -/
def Sending.run (s : Sending F) : List SendCall → Option (Sending F)
  | [] => some s
  | c :: calls => (s.call c).bind fun (_, t) => t.run calls

/-- The loop of `flush_player_output` stops: each pass that does not stop it shortens the
buffer. It is the flush for the answers that `send` gave. What `send` accepted in it and
what it leaves in the buffer are the buffer before it, and it reports success exactly when
it leaves nothing. -/
theorem Player.flushWithin_eq (send : ℕ → List Char → SendResult) {passes : ℕ} (k : ℕ)
    {p : Player F} (hpasses : p.outbuf.length < passes) :
    ∃ rc accepted rest results,
      p.flushWithin send passes k = some (rc, accepted, { p with outbuf := rest }) ∧
      p.flushPlayerOutput results = (rc, { p with outbuf := rest }) ∧
      accepted ++ rest = p.outbuf ∧ (rc = 1 ↔ rest = []) := by
  induction passes generalizing k p with
  | zero => omega
  | succ passes ih =>
    by_cases hempty : p.outbuf = []
    · refine ⟨1, [], p.outbuf, [], ?_, ?_, rfl, by simp [hempty]⟩
      · rw [flushWithin, if_pos hempty]
      · rw [flushPlayerOutput, if_pos hempty]
    have hpos : 0 < p.outbuf.length := List.length_pos_iff.mpr hempty
    cases hsend : send k p.outbuf with
    | wouldBlock =>
      refine ⟨0, [], p.outbuf, [], ?_, ?_, rfl, by simp [hempty]⟩
      · simp [flushWithin, hempty, hsend]
      · simp [flushPlayerOutput, hempty]
    | failed =>
      refine ⟨-1, [], p.outbuf, [.failed], ?_, ?_, rfl, by simp [hempty]⟩
      · simp [flushWithin, hempty, hsend]
      · simp [flushPlayerOutput, hempty]
    | accepted n =>
      by_cases hn : n = 0
      · refine ⟨-1, [], p.outbuf, [.accepted 0], ?_, ?_, rfl, by simp [hempty]⟩
        · simp [flushWithin, hempty, hsend, hn]
        · simp [flushPlayerOutput, hempty]
      · have hshort : (p.outbuf.drop n).length < passes := by
          rw [List.length_drop]
          omega
        obtain ⟨rc, later, rest, results, hwithin, hflush, hparts, hrc⟩ :=
          @ih (k + 1) { p with outbuf := p.outbuf.drop n } hshort
        refine ⟨rc, p.outbuf.take n ++ later, rest, .accepted n :: results, ?_, ?_, ?_, hrc⟩
        · simp only [flushWithin, if_neg hempty, hsend, if_neg hn, hwithin, Option.map_some]
        · simp only [flushPlayerOutput, if_neg hempty, if_neg hn]
          exact hflush
        · rw [List.append_assoc, hparts, List.take_append_drop]

/-- The stream of a connection: sent bytes and waiting bytes are the queued lines. -/
structure Sending.Framed (s : Sending F) : Prop where
  /-- The bytes are the queued lines, each with its newline. -/
  stream : s.sent ++ s.player.outbuf = (s.queued.map (· ++ ['\n'])).flatten
  /-- The waiting bytes fit into the buffer. -/
  bounded : s.player.outbuf.length ≤ OUTBUF_SIZE

/-- A call returns. It keeps the stream, a refused line changes nothing, and a flush
reports success exactly when nothing is waiting. -/
theorem Sending.call_framed {s : Sending F} (h : s.Framed) (c : SendCall) :
    ∃ rc t, s.call c = some (rc, t) ∧ t.Framed ∧
      (∀ text, c = .queueLine text → rc = 0 ∧ t.queued = s.queued ++ [text] ∨
        rc = -1 ∧ t.queued = s.queued ∧ t.player.outbuf = s.player.outbuf) ∧
      (∀ send, c = .flushPlayerOutput send →
        t.queued = s.queued ∧ (rc = 1 ↔ t.player.outbuf = [])) := by
  cases c with
  | queueLine text =>
    cases hq : s.player.queueLine text with
    | none =>
      refine ⟨-1, s, by simp [call, hq], h, ?_, nofun⟩
      exact fun _ _ => .inr ⟨rfl, rfl, rfl⟩
    | some p =>
      obtain ⟨_, hroom, rfl⟩ := Player.queueLine_eq_some.mp hq
      refine ⟨0, _, by rw [call, hq], ⟨?_, ?_⟩, ?_, nofun⟩
      · simp only [List.map_append, List.map_cons, List.map_nil, List.flatten_append,
          List.flatten_cons, List.flatten_nil, List.append_nil, ← h.stream, List.append_assoc]
      · simpa using hroom
      · rintro _ ⟨⟩
        exact .inl ⟨rfl, rfl⟩
  | flushPlayerOutput send =>
    obtain ⟨rc, accepted, rest, _, hwithin, _, hparts, hrc⟩ :=
      Player.flushWithin_eq send 0 (Nat.lt_succ_self s.player.outbuf.length)
    refine ⟨rc, _, by rw [call, hwithin]; rfl, ⟨?_, ?_⟩, nofun, ?_⟩
    · simp only [List.append_assoc, hparts]
      exact h.stream
    · have hshort : rest.length ≤ s.player.outbuf.length := by simp [← hparts]
      exact hshort.trans h.bounded
    · exact fun _ _ => ⟨rfl, hrc⟩

/-- All calls return, and the stream is framed after them. -/
theorem Sending.run_framed {s : Sending F} (h : s.Framed) (calls : List SendCall) :
    ∃ t, s.run calls = some t ∧ t.Framed := by
  induction calls generalizing s with
  | nil => exact ⟨s, rfl, h⟩
  | cons c calls ih =>
    obtain ⟨rc, t, hcall, ht, _⟩ := call_framed h c
    obtain ⟨u, hrun, hu⟩ := ih ht
    exact ⟨u, by simp [run, hcall, hrun], hu⟩

end BattleRoyale
