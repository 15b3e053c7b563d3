import BattleRoyale.ServerCommands

/-!
# Which handler a line runs

`parse_command` cuts a line without a space to the size of its buffer, and refuses a first
word that does not fit there. `handle_command` nevertheless tells the seven commands by
their whole words, for lines of any length. The argument of CHOICE and of REPICK is one
letter after any number of spaces.
-/

namespace BattleRoyale

open Recorded

/-- The commands of `handle_command`. -/
inductive Command where
  | hello
  | getState
  | choice
  | spawn
  | repick
  | rematch
  | quit
  deriving DecidableEq, Repr

/-- The commands in the order of the tests. -/
def commands : List Command := [.hello, .getState, .choice, .spawn, .repick, .rematch, .quit]

/-- The word of a command. -/
def Command.word : Command → List Char
  | .hello => "HELLO".toList
  | .getState => "GET_STATE".toList
  | .choice => "CHOICE".toList
  | .spawn => "SPAWN".toList
  | .repick => "REPICK".toList
  | .rematch => "REMATCH".toList
  | .quit => "QUIT".toList

/-- The handler of a command. -/
def Command.run {F : Type} [CFloat F] (command : Command) (i : Slot) (args : Option (List Char))
    (w : Server F) : Server F :=
  match command with
  | .hello => handleHelloCommand i args w
  | .getState => handleGetStateCommand i w
  | .choice => handleChoiceCommand i args w
  | .spawn => handleSpawnCommand i args w
  | .repick => handleRepickCommand i args w
  | .rematch => handleRematchCommand i w
  | .quit => handleQuitCommand i w

/-- The handler that a line selects, with the argument text for it. -/
def selectCommand (text : List Char) : Option (Command × Option (List Char)) :=
  (parseCommand text 16).bind fun (cmd, args) =>
    (commands.find? fun command => cmd = command.word).map fun command => (command, args)

/-- One test of the chain in `handle_command`. -/
theorem find_word (cmd : List Char) (command : Command) (rest : List Command) :
    (command :: rest).find? (fun command => cmd = command.word) =
      if cmd = command.word then some command
      else rest.find? fun command => cmd = command.word := by
  by_cases h : cmd = command.word
  · rw [if_pos h]
    exact List.find?_cons_of_pos (by simpa using h)
  · rw [if_neg h]
    exact List.find?_cons_of_neg (by simpa using h)

/-- `handle_command` runs the handler that the line selects, and refuses every other line. -/
theorem handleCommand_selected {F : Type} [CFloat F] (i : Slot) (line : List Char)
    (w : Server F) : handleCommand i line w =
      match selectCommand (cString line) with
      | none => reply (.error .badCommand) i w
      | some (command, args) => command.run i args w := by
  unfold handleCommand selectCommand
  cases parseCommand (cString line) 16 with
  | none => rfl
  | some parsed =>
    obtain ⟨cmd, args⟩ := parsed
    simp only [Option.bind_some, commands, find_word, List.find?_nil]
    show (if cmd = Command.hello.word then _ else if cmd = Command.getState.word then _
      else if cmd = Command.choice.word then _ else if cmd = Command.spawn.word then _
      else if cmd = Command.repick.word then _ else if cmd = Command.rematch.word then _
      else if cmd = Command.quit.word then _ else _) = _
    -- The words stay opaque here: the two chains make the same tests.
    generalize Command.hello.word = hello, Command.getState.word = getState,
      Command.choice.word = choice, Command.spawn.word = spawn,
      Command.repick.word = repick, Command.rematch.word = rematch,
      Command.quit.word = quit
    split_ifs <;> rfl

/-- Command words are short, and have no space. -/
theorem Command.word_length (command : Command) : command.word.length ≤ 9 := by
  cases command <;> decide

theorem Command.word_pos (command : Command) : 0 < command.word.length := by
  cases command <;> decide

theorem Command.space_not_mem (command : Command) : ' ' ∉ command.word := by
  cases command <;> decide

/-- Different commands have different words. -/
theorem Command.word_injective : Function.Injective Command.word := by
  intro c d h
  cases c <;> cases d <;> first | rfl | exact absurd h (by decide)

/-- A word names at most one command. -/
theorem find_word_eq_some {cmd : List Char} {command : Command} :
    (commands.find? fun command => cmd = command.word) = some command ↔ cmd = command.word := by
  constructor
  · rintro h
    simpa using List.find?_some h
  · rintro rfl
    have hmem : command ∈ commands := by cases command <;> decide
    cases hfind : commands.find? fun other => command.word = other.word with
    | none => simpa using List.find?_eq_none.mp hfind command hmem
    | some other =>
      have hsame : command.word = other.word := by simpa using List.find?_some hfind
      rw [Command.word_injective hsame]

/-- The test of the loops that look for a space. -/
theorem ne_space {word : List Char} (h : ' ' ∉ word) :
    ∀ c ∈ word, decide (c ≠ ' ') = true := by
  rintro c hc
  have hne : c ≠ ' ' := fun hspace => h (hspace ▸ hc)
  simpa using hne

/-- The first word of a text. -/
theorem takeWhile_spaced {word : List Char} (h : ' ' ∉ word) (rest : List Char) :
    (word ++ ' ' :: rest).takeWhile (· ≠ ' ') = word := by
  rw [List.takeWhile_append_of_pos (ne_space h), List.takeWhile_cons_of_neg (by simp),
    List.append_nil]

/-- A line without a space is cut to the buffer. -/
theorem parseCommand_unspaced {text : List Char} (hne : text ≠ []) (hspace : ' ' ∉ text) (n : ℕ) :
    parseCommand text n = some (text.take (n - 1), none) := by
  have hall : text.dropWhile (· ≠ ' ') = [] := List.dropWhile_eq_nil_iff.mpr (ne_space hspace)
  unfold parseCommand
  cases text with
  | nil => exact absurd rfl hne
  | cons c rest => simp only [hall]

/-- What follows after a command word and a space, without more leading spaces. -/
def argumentText (rest : List Char) : Option (List Char) :=
  match rest.dropWhile (· = ' ') with
  | [] => none
  | args => some args

/-- A line with a space is cut there, when its first word is not empty and fits. -/
theorem parseCommand_spaced {word : List Char} (hspace : ' ' ∉ word) (rest : List Char) (n : ℕ) :
    parseCommand (word ++ ' ' :: rest) n =
      if word.length = 0 ∨ n ≤ word.length then none else some (word, argumentText rest) := by
  have hdrop : (word ++ ' ' :: rest).dropWhile (· ≠ ' ') = ' ' :: rest := by
    rw [List.dropWhile_append_of_pos (ne_space hspace), List.dropWhile_cons_of_neg (by simp)]
  unfold parseCommand argumentText
  split
  · rename_i hnil
    simp at hnil
  · simp only [hdrop, takeWhile_spaced hspace]
    cases rest.dropWhile (· = ' ') <;> rfl

/-- A line selects a command by its whole word, alone or with an argument text. -/
theorem selectCommand_eq_some {text : List Char} {command : Command} {args : Option (List Char)} :
    selectCommand text = some (command, args) ↔ (text = command.word ∧ args = none) ∨
      ∃ rest, text = command.word ++ ' ' :: rest ∧ args = argumentText rest := by
  have hcut : ∀ cmd args', parseCommand text 16 = some (cmd, args') →
      (selectCommand text = some (command, args) ↔ cmd = command.word ∧ args' = args) := by
    rintro cmd args' hparse
    have hfound : selectCommand text =
        (commands.find? fun command => cmd = command.word).map (·, args') := by
      simp only [selectCommand, hparse, Option.bind_some]
    rw [hfound, Option.map_eq_some_iff]
    constructor
    · rintro ⟨found, hfind, hsame⟩
      cases hsame
      exact ⟨find_word_eq_some.mp hfind, rfl⟩
    · rintro ⟨hword, rfl⟩
      exact ⟨command, find_word_eq_some.mpr hword, rfl⟩
  by_cases hspace : ' ' ∈ text
  · obtain ⟨word, rest, rfl, hword⟩ := List.eq_append_cons_of_mem hspace
    have hsplit : ∀ rest', word ++ ' ' :: rest = command.word ++ ' ' :: rest' →
        word = command.word ∧ rest = rest' := by
      rintro rest' heq
      have hfirst := congrArg (List.takeWhile (· ≠ ' ')) heq
      rw [takeWhile_spaced hword, takeWhile_spaced command.space_not_mem] at hfirst
      subst hfirst
      exact ⟨rfl, (List.cons.inj (List.append_cancel_left heq)).2⟩
    have hwhole : word ++ ' ' :: rest ≠ command.word := by
      rintro heq
      exact command.space_not_mem (heq ▸ hspace)
    have hparse := parseCommand_spaced hword rest 16
    by_cases hfits : word.length = 0 ∨ 16 ≤ word.length
    · -- No command word is empty or that long.
      rw [if_pos hfits] at hparse
      have hnone : selectCommand (word ++ ' ' :: rest) = none := by
        simp only [selectCommand, hparse, Option.bind_none]
      rw [hnone]
      constructor
      · rintro h
        cases h
      · rintro (⟨heq, _⟩ | ⟨rest', heq, _⟩)
        · exact absurd heq hwhole
        · have hlow := command.word_pos
          have hhigh := command.word_length
          rw [← (hsplit rest' heq).1] at hlow hhigh
          omega
    · rw [if_neg hfits] at hparse
      rw [hcut _ _ hparse]
      constructor
      · rintro ⟨rfl, rfl⟩
        exact .inr ⟨rest, rfl, rfl⟩
      · rintro (⟨heq, _⟩ | ⟨rest', heq, rfl⟩)
        · exact absurd heq hwhole
        · obtain ⟨hsame, rfl⟩ := hsplit rest' heq
          exact ⟨hsame, rfl⟩
  · have hnever : ∀ rest, text ≠ command.word ++ ' ' :: rest := by
      rintro rest rfl
      exact hspace (by simp)
    by_cases hne : text = []
    · subst hne
      have hword : ([] : List Char) ≠ command.word := by
        rintro heq
        have hlow := command.word_pos
        rw [← heq] at hlow
        cases hlow
      simp [selectCommand, parseCommand, hword]
    rw [hcut _ _ (parseCommand_unspaced hne hspace 16)]
    -- Cutting to fifteen characters makes no word out of a longer line.
    have htake : text.take (16 - 1) = command.word ↔ text = command.word := by
      have hshort := command.word_length
      constructor
      · rintro h
        have hlen := congrArg List.length h
        rw [List.length_take] at hlen
        rw [← h, List.take_of_length_le (by omega)]
      · rintro rfl
        exact List.take_of_length_le (by omega)
    rw [htake]
    constructor
    · rintro ⟨hword, rfl⟩
      exact .inl ⟨hword, rfl⟩
    · rintro (⟨hword, rfl⟩ | ⟨rest, heq, _⟩)
      · exact ⟨hword, rfl⟩
      · exact absurd heq (hnever rest)

/-- A line selects a command just when it is the command word or starts with it and a
space. -/
theorem selectCommand_iff {text : List Char} {command : Command} :
    (∃ args, selectCommand text = some (command, args)) ↔
      text = command.word ∨ (command.word ++ [' ']) <+: text := by
  constructor
  · rintro ⟨args, h⟩
    rcases selectCommand_eq_some.mp h with ⟨heq, _⟩ | ⟨rest, heq, _⟩
    · exact .inl heq
    · exact .inr ⟨rest, by simp [heq]⟩
  · rintro (heq | ⟨rest, heq⟩)
    · exact ⟨none, selectCommand_eq_some.mpr (.inl ⟨heq, rfl⟩)⟩
    · exact ⟨argumentText rest, selectCommand_eq_some.mpr (.inr ⟨rest, by simp [← heq], rfl⟩)⟩

/-- An argument text of one character that is no space. -/
theorem argumentText_eq_some {rest : List Char} {c : Char} (hc : c ≠ ' ') :
    argumentText rest = some [c] ↔ ∃ n, rest = List.replicate n ' ' ++ [c] := by
  induction rest with
  | nil => simp [argumentText]
  | cons d rest ih =>
    by_cases hd : d = ' '
    · subst hd
      have hskip : argumentText (' ' :: rest) = argumentText rest := by simp [argumentText]
      rw [hskip, ih]
      constructor
      · rintro ⟨n, rfl⟩
        exact ⟨n + 1, rfl⟩
      · rintro ⟨n, heq⟩
        cases n with
        | zero => exact absurd (List.cons.inj heq).1.symm hc
        | succ n => exact ⟨n, (List.cons.inj heq).2⟩
    · have hstop : argumentText (d :: rest) = some (d :: rest) := by simp [argumentText, hd]
      rw [hstop, Option.some_inj]
      constructor
      · rintro heq
        exact ⟨0, heq⟩
      · rintro ⟨n, heq⟩
        cases n with
        | zero => exact heq
        | succ n => exact absurd (List.cons.inj heq).1 hd

/-- The letters of a choice. -/
def choiceLetters : List Char := ['R', 'P', 'S', 'r', 'p', 's']

/-- Only those letters become a choice. -/
theorem upper_choice (c : Char) :
    (upper c = 'R' ∨ upper c = 'P' ∨ upper c = 'S') ↔ c ∈ choiceLetters := by
  unfold upper
  split
  · rename_i hletter
    obtain ⟨hlow, hhigh⟩ := hletter
    have hlow' : 97 ≤ c.toNat := hlow
    have hhigh' : c.toNat ≤ 122 := hhigh
    rw [← Char.ofNat_toNat c]
    generalize c.toNat = n at hlow' hhigh'
    interval_cases n <;> decide
  · rename_i hother
    have hlower : ∀ d, 'a' ≤ d ∧ d ≤ 'z' → c ≠ d := by
      rintro d hd rfl
      exact hother hd
    simp [choiceLetters, hlower 'r' (by decide), hlower 'p' (by decide), hlower 's' (by decide)]

/-- A choice is one letter. -/
theorem parseRpsChoiceArg_eq_some {args : Option (List Char)} {choice : Char} :
    parseRpsChoiceArg args = some choice ↔
      ∃ c ∈ choiceLetters, args = some [c] ∧ choice = upper c := by
  have hone : ∀ c, parseRpsChoiceArg (some [c]) = some choice ↔
      c ∈ choiceLetters ∧ choice = upper c := by
    rintro c
    rw [← upper_choice]
    simp only [parseRpsChoiceArg]
    split
    · rename_i hbad
      constructor
      · rintro h
        cases h
      · rintro ⟨hgood, _⟩
        tauto
    · rename_i hgood
      rw [Option.some_inj]
      constructor
      · rintro rfl
        exact ⟨by tauto, rfl⟩
      · rintro ⟨_, rfl⟩
        rfl
  constructor
  · rintro h
    match args, h with
    | some [c], h =>
      obtain ⟨hletter, hchoice⟩ := (hone c).mp h
      exact ⟨c, hletter, rfl, hchoice⟩
  · rintro ⟨c, hletter, rfl, hchoice⟩
    exact (hone c).mpr ⟨hletter, hchoice⟩

/-- A line runs the handler of a command just when it is the command word or starts with
the word and a space, whatever its length, and no other line does anything but refuse. The
argument of CHOICE and of REPICK is accepted just when the rest of the line is one or more
spaces and one letter of a choice. -/
theorem handleCommand_by_word {F : Type} [CFloat F] :
    (∀ (i : Slot) (line : List Char) (w : Server F), handleCommand i line w =
      match selectCommand (cString line) with
      | none => reply (.error .badCommand) i w
      | some (command, args) => command.run i args w) ∧
    (∀ (line : List Char) (command : Command),
      (∃ args, selectCommand (cString line) = some (command, args)) ↔
        cString line = command.word ∨ (command.word ++ [' ']) <+: cString line) ∧
    ∀ (line : List Char) (command : Command) (args : Option (List Char)) (choice : Char),
      selectCommand (cString line) = some (command, args) →
      (parseRpsChoiceArg args = some choice ↔ ∃ n, ∃ c ∈ choiceLetters,
        cString line = command.word ++ List.replicate (n + 1) ' ' ++ [c] ∧ choice = upper c) := by
  refine ⟨fun i line w => handleCommand_selected i line w, fun line command => selectCommand_iff,
    fun line command args choice h => ?_⟩
  rw [parseRpsChoiceArg_eq_some]
  have hnospace : ∀ c ∈ choiceLetters, c ≠ ' ' := by simp [choiceLetters]
  rcases selectCommand_eq_some.mp h with ⟨heq, rfl⟩ | ⟨rest, heq, rfl⟩
  · constructor
    · rintro ⟨c, _, hnone, _⟩
      cases hnone
    · rintro ⟨n, c, _, hline, _⟩
      have hlen := congrArg List.length (heq.symm.trans hline)
      simp at hlen
  · rw [heq]
    constructor
    · rintro ⟨c, hletter, hargs, hchoice⟩
      obtain ⟨n, rfl⟩ := (argumentText_eq_some (hnospace c hletter)).mp hargs
      exact ⟨n, c, hletter, by simp [List.replicate_succ], hchoice⟩
    · rintro ⟨n, c, hletter, hline, hchoice⟩
      rw [List.append_assoc, List.replicate_succ] at hline
      have hrest : rest = List.replicate n ' ' ++ [c] :=
        (List.cons.inj (List.append_cancel_left hline)).2
      exact ⟨c, hletter, (argumentText_eq_some (hnospace c hletter)).mpr ⟨n, hrest⟩, hchoice⟩

end BattleRoyale
