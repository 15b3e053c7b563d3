import BattleRoyale.ClientProgram
import BattleRoyale.LineLengths
import BattleRoyale.Refusals

/-!
# The server understands the client

The client formats its commands and the server takes them apart, each with code of its own.
Whatever the client says is found by the handler that it is meant for, with an argument that
this handler can read, so that the server never complains about the form of a command: it
refuses for what the state of the match is, or not at all.
-/

namespace BattleRoyale

open Recorded Framing

/-- The handler that a command is meant for. -/
def ClientCommand.command : ClientCommand → Command
  | hello _ => .hello
  | getState => .getState
  | choice _ => .choice
  | spawn .. => .spawn
  | repick _ => .repick
  | rematch => .rematch
  | quit => .quit

/-- The argument text for it. -/
def ClientCommand.args : ClientCommand → Option (List Char)
  | hello name => some name
  | choice c => some [c]
  | spawn x y => some (decimal x ++ ' ' :: decimal y)
  | repick c => some [c]
  | _ => none

/-- A character that ends neither a word, nor a line, nor a string. -/
def WordChar (c : Char) : Prop := isSpace c = false ∧ c ≠ '\x00'

section Wire

/-- Characters that can be typed are of this kind. -/
theorem NameChar.wordChar {c : Char} (h : NameChar c) : WordChar c := by
  have hne : ∀ d : Char, isNameCode (d.toNat : ℤ) = false → c ≠ d := by
    rintro d hd rfl
    rw [NameChar, hd] at h
    cases h
  refine ⟨?_, hne _ (by decide)⟩
  simp only [isSpace, Bool.or_eq_false_iff, beq_eq_false_iff_ne]
  exact ⟨⟨⟨⟨⟨hne _ (by decide), hne _ (by decide)⟩, hne _ (by decide)⟩, hne _ (by decide)⟩,
    hne _ (by decide)⟩, hne _ (by decide)⟩

/-- So are the letters of the types. -/
theorem IsChoice.wordChar {c : Char} (h : IsChoice c) : WordChar c := by
  rcases h with rfl | rfl | rfl <;> exact ⟨rfl, by decide⟩

/-- And the digits. -/
theorem wordChar_digit {c : Char} (h : c.isDigit = true) : WordChar c := by
  refine ⟨not_isSpace_of_isDigit h, ?_⟩
  rintro rfl
  cases h

/-- A character of a line of the client. -/
def LineChar (c : Char) : Prop := c ≠ '\n' ∧ c ≠ '\r' ∧ c ≠ '\x00'

theorem WordChar.lineChar {c : Char} (h : WordChar c) : LineChar c := by
  refine ⟨?_, ?_, h.2⟩ <;> rintro rfl <;> exact absurd h.1 (by decide)

/-- What the client says is one line each. -/
theorem ClientCommand.Sound.lineChar {initial : List Char} {command : ClientCommand}
    (h : command.Sound initial) (hinitial : ∀ c ∈ initial, LineChar c) :
    ∀ c ∈ command.text, LineChar c := by
  have hword : ∀ word : List Char, (word.all fun c => c ≠ '\n' ∧ c ≠ '\r' ∧ c ≠ '\x00') = true →
      ∀ c ∈ word, LineChar c := by
    intro word hall c hc
    simpa [LineChar] using List.all_eq_true.mp hall c hc
  have hone : ∀ {word : List Char} {d : Char}, (word.all fun c => c ≠ '\n' ∧ c ≠ '\r' ∧
      c ≠ '\x00') = true → LineChar d → ∀ c ∈ word ++ [d], LineChar c := by
    intro word d hall hd c hc
    rcases List.mem_append.mp hc with hc | hc
    · exact hword word hall c hc
    · rw [List.mem_singleton.mp hc]
      exact hd
  cases command with
  | hello name =>
    intro c hc
    rcases List.mem_append.mp hc with hc | hc
    · exact hword "HELLO ".toList rfl c hc
    · exact (h.2.2 c hc).elim (fun hname => hname.wordChar.lineChar) (hinitial c)
  | getState => exact hword _ rfl
  | choice d => exact hone rfl (IsChoice.wordChar h).lineChar
  | spawn x y =>
    obtain ⟨d, hd, hx⟩ := decimal_digit h.1
    obtain ⟨e, he, hy⟩ := decimal_digit h.2
    intro c hc
    have hc : c ∈ "SPAWN ".toList ++ decimal x ++ [' '] ++ decimal y := hc
    generalize hspawn : "SPAWN ".toList = word at hc
    rw [hx, hy] at hc
    simp only [List.mem_append, List.mem_singleton] at hc
    rcases hc with ((hc | rfl) | rfl) | rfl
    · exact hword word (hspawn ▸ rfl) c hc
    · exact (wordChar_digit hd).lineChar
    · exact ⟨by decide, by decide, by decide⟩
    · exact (wordChar_digit he).lineChar
  | repick d => exact hone rfl (IsChoice.wordChar h).lineChar
  | rematch => exact hword _ rfl
  | quit => exact hword _ rfl

/-- The server pops the line as it was sent. -/
theorem ClientCommand.Sound.lineOf {initial : List Char} {command : ClientCommand}
    (h : command.Sound initial) (hinitial : ∀ c ∈ initial, LineChar c) :
    BattleRoyale.lineOf MAX_LINE command.text = command.text ∧
      cString command.text = command.text ∧ '\n' ∉ command.text := by
  have hchars := h.lineChar hinitial
  have hlength : command.text.length < 254 := h.length
  refine ⟨?_, ?_, fun hmem => (hchars _ hmem).1 rfl⟩
  · have hlast : command.text.getLast? ≠ some '\r' :=
      fun hlast => (hchars _ (List.mem_of_getLast? hlast)).2.1 rfl
    rw [BattleRoyale.lineOf, if_neg hlast]
    exact List.take_of_length_le (show _ ≤ 255 by omega)
  · exact List.takeWhile_eq_self_iff.mpr fun c hc => decide_eq_true (hchars c hc).2.2

/-- A text that does not begin with a blank is an argument as it is. -/
theorem argumentText_word {c : Char} (hc : WordChar c) (rest : List Char) :
    argumentText (c :: rest) = some (c :: rest) := by
  have hblank : c ≠ ' ' := by
    rintro rfl
    exact absurd hc.1 (by decide)
  simp [argumentText, hblank]

/-- The line selects the handler that it is meant for, with its argument. -/
theorem ClientCommand.Sound.selected {initial : List Char} {command : ClientCommand}
    (h : command.Sound initial) (hinitial : ∀ c ∈ initial, WordChar c) :
    selectCommand command.text = some (command.command, command.args) := by
  rw [selectCommand_eq_some]
  cases command with
  | hello name =>
    obtain ⟨hne, _, hchars⟩ := h
    obtain ⟨c, rest, rfl⟩ := List.exists_cons_of_ne_nil hne
    have hc := (hchars c List.mem_cons_self).elim NameChar.wordChar (hinitial c)
    exact .inr ⟨c :: rest, rfl, (argumentText_word hc rest).symm⟩
  | getState => exact .inl ⟨rfl, rfl⟩
  | choice c => exact .inr ⟨[c], rfl, (argumentText_word (IsChoice.wordChar h) []).symm⟩
  | spawn x y =>
    obtain ⟨d, hd, hx⟩ := decimal_digit h.1
    refine .inr ⟨decimal x ++ ' ' :: decimal y, ?_, ?_⟩
    · have hword : "SPAWN ".toList = Command.spawn.word ++ [' '] := rfl
      show "SPAWN ".toList ++ decimal x ++ [' '] ++ decimal y = _
      rw [hword]
      simp only [List.append_assoc, List.cons_append, List.nil_append]
      rfl
    · simp only [args, hx, List.cons_append, List.nil_append]
      exact (argumentText_word (wordChar_digit hd) _).symm
  | repick c => exact .inr ⟨[c], rfl, (argumentText_word (IsChoice.wordChar h) []).symm⟩
  | rematch => exact .inl ⟨rfl, rfl⟩
  | quit => exact .inl ⟨rfl, rfl⟩

end Wire

/-- The reason is the form of the command. -/
def ErrorReason.isForm : ErrorReason → Bool
  | badCommand => true
  | usageHelloName => true
  | badChoice => true
  | usageSpawnXY => true
  | badSpawn => true
  | _ => false

/-- The entry is about an `ERROR` line for the form of a command. -/
def Event.complains {F : Type} : Event F → Bool
  | .queued _ _ (.error reason) => reason.isForm
  | .refused _ _ (.error reason) => reason.isForm
  | _ => false

section Refusals

variable {F : Type} [CFloat F]

/-- The server has complained about nothing from one state to the other. -/
def Content (w v : Server F) : Prop := ∀ x ∈ added w v, x.event.complains = false

/-- A refusal for another reason. -/
theorem content_reply {reason : ErrorReason} (hreason : reason.isForm = false) (i : Slot)
    (w : Server F) : Content w (reply (.error reason) i w) := by
  have hentry : ∃ x : Entry (ServerState F) (Event F),
      (reply (.error reason) i w).log = [x] ++ w.log ∧ x.event.complains = false := by
    unfold reply queueTo
    split
    · exact ⟨_, rfl, hreason⟩
    · exact ⟨_, rfl, hreason⟩
  obtain ⟨x, hlog, hx⟩ := hentry
  unfold Content
  rw [added_eq hlog]
  exact List.forall_mem_singleton.mpr hx

/-- What sends only lines with values from the state. -/
theorem Printed.content {w v : Server F} (h : Printed w v) : Content w v := by
  intro x hx
  have hrefuses := h.not_refuses x hx
  obtain ⟨e, s⟩ := x
  cases e with
  | queued i via line =>
    cases line with
    | error reason => cases reason <;> first | rfl | cases hrefuses
    | _ => rfl
  | refused i via line =>
    cases line with
    | error reason => cases reason <;> first | rfl | cases hrefuses
    | _ => rfl
  | _ => rfl

/-- The check before CHOICE and SPAWN fails for the state of the client. -/
theorem requireRegisteredNotAdmitted_reason {i : Slot} {w v : Server F}
    (h : requireRegisteredNotAdmitted i w = (false, v)) : Content w v := by
  unfold requireRegisteredNotAdmitted at h
  simp only at h
  split at h
  · obtain rfl : _ = v := congrArg Prod.snd h
    exact content_reply rfl i w
  · split at h
    · obtain rfl : _ = v := congrArg Prod.snd h
      exact content_reply rfl i w
    · cases h

/-- HELLO with a word. -/
theorem handleHelloCommand_content {i : Slot} {name : List Char}
    (hname : (scanWord (MAX_NAME_LENGTH - 1) name).isSome = true) {w : Server F} (hw : Bounded w) :
    Content w (handleHelloCommand i (some name) w) := by
  unfold handleHelloCommand
  simp only [Option.bind_some]
  split
  · exact content_reply rfl i w
  split
  · rename_i hnone
    rw [hnone] at hname
    cases hname
  rename_i word rest hword
  split
  · exact content_reply rfl i w
  have hlength := scanWord_length hword
  generalize hu : w.record (.registered i) _ = u
  have hregister : Printed w u := by
    subst hu
    refine .act (.refl w) rfl ⟨fun k => ?_, hw.deadline⟩
    rw [System.record_state, ServerState.setPlayer_players]
    split
    · exact Nat.lt_succ_of_le hlength
    · exact hw.names k
  have hwelcome : Printed w (reply (.welcome (u.state.players i).id) i u) :=
    hregister.trans (reply_printed _ i ⟨i, rfl⟩)
  have hspectating := hwelcome.trans (reply_printed .spectating i trivial)
  exact (hspectating.trans
    (queueLobbyStatusForPlayer_printed i (hspectating.bounded hw))).content

/-- CHOICE with a type. -/
theorem handleChoiceCommand_content {i : Slot} {c : Char} (hc : IsChoice c) {w : Server F}
    (hw : Bounded w) : Content w (handleChoiceCommand i (some [c]) w) := by
  have hparse : parseRpsChoiceArg (some [c]) = some c := by
    rcases hc with rfl | rfl | rfl <;> rfl
  unfold handleChoiceCommand
  split <;> rename_i v hcheck
  · exact requireRegisteredNotAdmitted_reason hcheck
  obtain ⟨rfl, _⟩ := requireRegisteredNotAdmitted_true hcheck
  rw [hparse]
  simp only
  generalize hu : v.record (.chose i) _ = u
  have hchose : Printed v u := hu ▸ .assignSlot hw rfl (.inl rfl)
  have hok := hchose.trans (reply_printed (.choiceOk c) i trivial)
  exact (hok.trans (maybeAdmitPlayer_printed i (hok.bounded hw))).content

/-- SPAWN with two numbers on the board. -/
theorem handleSpawnCommand_content {i : Slot} {text : List Char} {x y : F}
    (htext : scanSpawn text = some (x, y)) (hboard : badSpawn x y = false) {w : Server F}
    (hw : Bounded w) : Content w (handleSpawnCommand i (some text) w) := by
  unfold handleSpawnCommand
  split <;> rename_i v hcheck
  · exact requireRegisteredNotAdmitted_reason hcheck
  obtain ⟨rfl, _⟩ := requireRegisteredNotAdmitted_true hcheck
  simp only [Option.bind_some, htext, hboard, Bool.false_eq_true, if_false]
  split
  · exact content_reply rfl i v
  generalize hu : v.record (.spawned i) _ = u
  have hspawned : Printed v u := hu ▸ .assignSlot hw rfl (.inl rfl)
  have hplace : Formed v.env u.state (.spawnOk x y : ServerLine F) := by
    subst hu
    rw [System.record_state]
    exact ⟨i, by rw [ServerState.setPlayer_self], by rw [ServerState.setPlayer_self]⟩
  have henv : u.env = v.env := hu ▸ rfl
  have hok := hspawned.trans (reply_printed (.spawnOk x y) i (henv ▸ hplace))
  exact (hok.trans (maybeAdmitPlayer_printed i (hok.bounded hw))).content

/-- REPICK with a type. -/
theorem handleRepickCommand_content {i : Slot} {c : Char} (hc : IsChoice c) {w : Server F}
    (hw : Bounded w) : Content w (handleRepickCommand i (some [c]) w) := by
  have hparse : parseRpsChoiceArg (some [c]) = some c := by
    rcases hc with rfl | rfl | rfl <;> rfl
  unfold handleRepickCommand
  simp only
  split
  · exact content_reply rfl i w
  split
  · exact content_reply rfl i w
  split
  · exact content_reply rfl i w
  rw [hparse]
  simp only
  generalize hu : w.record (.repicked i) _ = u
  have hsubmit : Printed w u := hu ▸ .assignSlot hw rfl (.inl rfl)
  have hok := hsubmit.trans (reply_printed (.repickOk c) i trivial)
  split
  · exact (hok.trans (finishRepicksWith_printed (fun _ => reevaluateState_printed)
      (hok.bounded hw))).content
  · exact (hok.trans (reply_printed .repickWaiting i trivial)).content

end Refusals

/-- The numbers of a tile are read, and are on the board. -/
theorem scanSpawn_tile {x y : ℤ} (h : OnGrid x y) : ∃ a b : Binary32,
    scanSpawn (decimal x ++ ' ' :: decimal y) = some (a, b) ∧ badSpawn a b = false := by
  have hall : ∀ m n : Fin 10,
      (scanSpawn (decimal ((m : ℕ) : ℤ) ++ ' ' :: decimal ((n : ℕ) : ℤ)) :
        Option (Binary32 × Binary32)).any (fun p => !badSpawn p.1 p.2) = true := by
    decide +kernel
  obtain ⟨⟨hx, hxlt⟩, hy, hylt⟩ := h
  obtain ⟨m, rfl⟩ := Int.eq_ofNat_of_zero_le hx
  obtain ⟨n, rfl⟩ := Int.eq_ofNat_of_zero_le hy
  have hm : m < 10 := by
    have hlt : (m : ℤ) < 10 := hxlt
    omega
  have hn : n < 10 := by
    have hlt : (n : ℤ) < 10 := hylt
    omega
  have hread := hall ⟨m, hm⟩ ⟨n, hn⟩
  rw [Option.any_eq_true] at hread
  obtain ⟨p, hp, hgood⟩ := hread
  exact ⟨p.1, p.2, hp, by simpa using hgood⟩

/-- A command of the client is not refused for its form, in any state of the server. -/
theorem ClientCommand.Sound.content {initial : List Char} {command : ClientCommand}
    (h : command.Sound initial) (hinitial : ∀ c ∈ initial, WordChar c) (i : Slot)
    {w : Server Binary32} (hw : Bounded w) : Content w (handleCommand i command.text w) := by
  have htext := (h.lineOf fun c hc => (hinitial c hc).lineChar).2.1
  rw [handleCommand_selected, htext, h.selected hinitial]
  cases command with
  | hello name =>
    have hvalid : ValidName name := ⟨h.1, h.2.1, fun c hc =>
      (h.2.2 c hc).elim NameChar.wordChar (hinitial c)⟩
    exact handleHelloCommand_content (by rw [scanWord_self hvalid]; rfl) hw
  | getState => exact (handleGetStateCommand_printed i hw).content
  | choice c => exact handleChoiceCommand_content h hw
  | spawn x y =>
    obtain ⟨a, b, htext, hboard⟩ := scanSpawn_tile h
    exact handleSpawnCommand_content htext hboard hw
  | repick c => exact handleRepickCommand_content h hw
  | rematch =>
    show Content w (handleRematchCommand i w)
    unfold handleRematchCommand
    split
    · exact content_reply rfl i w
    · exact (resetMatch_printed hw).content
  | quit => exact (loseConnection_printed i hw).content

/-- The server understands every client that was started with a name of word characters,
or with the default one, if no line breaks off and no key outside of ASCII gets into the
name: whatever arrives at the client, its bytes are lines that the server pops as they were
sent, each line selects the handler that it is meant for, with its argument, and the server,
in any state that it reaches, never answers by a complaint about the form of the command, but
only for the state of the match. -/
theorem client_understood {F : Type} [CFloat F] {E : Surroundings} (hE : E.WholeLines)
    {args : List (List Char)} {name : List Char} {auto : AutoJoinConfig}
    (hargs : parseArguments args = some (name, auto)) (hname : ∀ c ∈ name, WordChar c)
    (frames : List Frame) (hkeys : ∀ f ∈ frames, ∀ ch ∈ f.keys, E.Plain ch) :
    ∃ commands : List ClientCommand,
      ((ClientProgram.start E name auto : ClientProgram F).run E frames).sent =
          ClientCommand.stream commands ∧
        ∀ command ∈ commands,
          lineOf MAX_LINE command.text = command.text ∧ '\n' ∉ command.text ∧
          selectCommand (cString command.text) = some (command.command, command.args) ∧
          ∀ (loopOnly : Bool) (w v : Server Binary32) (i : Slot), Reached loopOnly w →
            Called i w v → Content v (handleCommand i command.text v) := by
  obtain ⟨commands, hspeaks⟩ := ClientProgram.run_speaks (F := F) hE hargs hkeys
  refine ⟨commands, hspeaks.sent, fun command hcommand => ?_⟩
  have hsound := hspeaks.sound command hcommand
  obtain ⟨hline, htext, hnewline⟩ := hsound.lineOf fun c hc => (hname c hc).lineChar
  refine ⟨hline, hnewline, by rw [htext]; exact hsound.selected hname, ?_⟩
  intro loopOnly w v i hw hv
  exact hsound.content hname i (hv.bounded hw.lines_sourced.1)

/-- A client without arguments presses Enter, a function key, and Enter again, types a
character and quits. -/
theorem client_understood_default :
    ∃ commands : List ClientCommand,
      ((ClientProgram.start plainSurroundings "player".toList .off : ClientProgram Exact).run
          plainSurroundings [⟨[], [10, 266, 10]⟩, ⟨[], [97, 113]⟩]).sent =
            ClientCommand.stream commands ∧
        ∀ command ∈ commands,
          selectCommand (cString command.text) = some (command.command, command.args) := by
  have hargs : parseArguments [] = some ("player".toList, .off) := rfl
  have hname : ∀ c ∈ "player".toList, WordChar c := by simp [WordChar, isSpace]
  obtain ⟨commands, hsent, hall⟩ := client_understood (F := Exact)
    plainSurroundings_reliable.wholeLines hargs hname
    [⟨[], [10, 266, 10]⟩, ⟨[], [97, 113]⟩] fun f _ ch _ => .inr rfl
  exact ⟨commands, hsent, fun command hcommand => (hall command hcommand).2.2.1⟩

end BattleRoyale
