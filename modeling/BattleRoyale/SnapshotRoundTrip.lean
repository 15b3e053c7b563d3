import BattleRoyale.ClientView

/-!
# The round trip of a snapshot

A snapshot that fits into the send buffer leaves the client with the admitted players of
the server, in the order of the slots. The first part reads one `PLAYER` line back, the
second adds one player to the client's table, and the third goes through the snapshot.
-/

namespace BattleRoyale

open Recorded

variable {F : Type} [CFloat F]

/-- What `scanf` makes of a coordinate that `printf` wrote with three decimals. -/
structure ReadsBack (rounded : F → F) : Prop where
  /-- The text has no terminator. -/
  clean : ∀ x : F, '\x00' ∉ CFloat.fixed 3 x
  /-- The text does not start with white space. -/
  head : ∀ (x : F) rest, skipSpace (CFloat.fixed 3 x ++ rest) = CFloat.fixed 3 x ++ rest
  /-- Before a blank it is read as a whole. -/
  scan : ∀ (x : F) rest,
    CFloat.scan (CFloat.fixed 3 x ++ ' ' :: rest) = some (rounded x, ' ' :: rest)

/-- The entry of a player in the client's table. -/
def Player.entry (rounded : F → F) (p : Player F) : ClientPlayer F where
  used := true
  name := p.name
  choice := p.choice
  x := rounded p.x
  y := rounded p.y
  alive := if p.alive then 1 else 0
  waiting := if p.waiting then 1 else 0

section Line

/-- A blank is skipped. -/
theorem skipSpace_blank (rest : List Char) : skipSpace (' ' :: rest) = skipSpace rest := rfl

/-- Nothing is skipped before a character that is not white space. -/
theorem skipSpace_cons {c : Char} (h : isSpace c = false) (rest : List Char) :
    skipSpace (c :: rest) = c :: rest := by
  rw [skipSpace, List.dropWhile_cons_of_neg (by rw [h]; decide)]

/-- A digit is not white space. -/
theorem not_isSpace_of_isDigit {c : Char} (h : c.isDigit = true) : isSpace c = false := by
  refine Bool.eq_false_iff.mpr fun hspace => ?_
  simp only [isSpace, Bool.or_eq_true, beq_iff_eq] at hspace
  rcases hspace with ((((rfl | rfl) | rfl) | rfl) | rfl) | rfl <;> exact absurd h (by decide)

/-- A name after a blank. -/
theorem scanWord_name {name : List Char} (h : ValidName name) (rest : List Char) :
    scanWord (MAX_NAME_LENGTH - 1) (' ' :: (name ++ ' ' :: rest)) = some (name, ' ' :: rest) := by
  obtain ⟨hne, hlen, hchars⟩ := h
  have hskip : skipSpace (' ' :: (name ++ ' ' :: rest)) = name ++ ' ' :: rest := by
    cases name with
    | nil => exact absurd rfl hne
    | cons c cs =>
      rw [skipSpace_blank, List.cons_append, skipSpace_cons (hchars c List.mem_cons_self).1]
  have hword : (name ++ ' ' :: rest).takeWhile (fun c => !isSpace c) = name := by
    rw [List.takeWhile_append_of_pos fun c hc => by rw [(hchars c hc).1]; rfl]
    exact List.append_nil name
  have htake : name.take (MAX_NAME_LENGTH - 1) = name := List.take_of_length_le (by omega)
  simp only [scanWord, hskip, hword, htake, List.isEmpty_eq_false_iff.mpr hne,
    Bool.false_eq_true, if_false, List.drop_left]

/-- A type after a blank. -/
theorem scanChar_choice {c : Char} (h : isSpace c = false) (rest : List Char) :
    scanChar (' ' :: c :: rest) = some (c, rest) := by
  rw [scanChar, skipSpace_blank, skipSpace_cons h]

/-- A flag before a blank. -/
theorem scanInt_flag (b : Bool) (rest : List Char) :
    scanInt (' ' :: (flag b ++ ' ' :: rest)) = some (if b then 1 else 0, ' ' :: rest) := by
  cases b <;> rfl

/-- A flag at the end. -/
theorem scanInt_flag_end (b : Bool) :
    scanInt (' ' :: flag b) = some (if b then 1 else 0, []) := by
  cases b <;> rfl

omit [CFloat F] in
/-- The types are not white space. -/
theorem IsChoice.notSpace {c : Char} (h : IsChoice c) : isSpace c = false := by
  rcases h with rfl | rfl | rfl <;> rfl

/-- The text of a `PLAYER` line, word by word. -/
theorem player_text (p : Player F) (h : p.choiceChosen = true) :
    p.line.text = "PLAYER".toList ++ ' ' :: (p.name ++ ' ' :: p.choice :: ' ' ::
      (CFloat.fixed 3 p.x ++ ' ' :: (CFloat.fixed 3 p.y ++ ' ' ::
        (flag p.alive ++ ' ' :: flag p.waiting)))) := by
  have htext : p.line.text = "PLAYER ".toList ++ p.name ++
      [' ', if p.choiceChosen then p.choice else '?', ' '] ++ CFloat.fixed 3 p.x ++ [' '] ++
      CFloat.fixed 3 p.y ++ [' '] ++ flag p.alive ++ [' '] ++ flag p.waiting := rfl
  have hword : "PLAYER ".toList = "PLAYER".toList ++ [' '] := by decide
  rw [htext, h, if_pos rfl, hword]
  simp only [List.append_assoc, List.cons_append, List.nil_append]

/-- What `sscanf` reads from a `PLAYER` line. -/
theorem scanPlayerLine_text {rounded : F → F} (hR : ReadsBack rounded) {p : Player F}
    (hname : ValidName p.name) (hchosen : p.choiceChosen = true) (hchoice : IsChoice p.choice) :
    scanPlayerLine p.line.text = some (p.entry rounded) := by
  have hscan : ∀ (x : F) rest, CFloat.scan (skipSpace (' ' :: (CFloat.fixed 3 x ++ ' ' :: rest))) =
      some (rounded x, ' ' :: rest) := by
    intro x rest
    rw [skipSpace_blank, hR.head, hR.scan]
  have hword : ∀ rest, scanLiteral "PLAYER".toList ("PLAYER".toList ++ rest) = some rest := by
    intro rest
    rw [scanLiteral, if_pos (List.isPrefixOf_iff_prefix.mpr (List.prefix_append _ _)),
      List.drop_left]
  rw [player_text p hchosen, scanPlayerLine, hword, Option.bind_some, scanWord_name hname,
    Option.bind_some]
  simp only
  rw [scanChar_choice hchoice.notSpace, Option.bind_some]
  simp only
  rw [hscan, Option.bind_some]
  simp only
  rw [hscan, Option.bind_some]
  simp only
  rw [scanInt_flag, Option.bind_some]
  simp only
  rw [scanInt_flag_end, Option.map_some]
  rfl

/-- The text of a `PLAYER` line is a C string. -/
theorem cString_player {rounded : F → F} (hR : ReadsBack rounded) {p : Player F}
    (hname : ValidName p.name) (hchosen : p.choiceChosen = true) (hchoice : IsChoice p.choice) :
    cString p.line.text = p.line.text := by
  have hflag : ∀ b, '\x00' ∉ flag b := by decide
  have hletter : '\x00' ≠ p.choice := by
    rintro h
    rw [← h] at hchoice
    exact absurd hchoice (by unfold IsChoice; decide)
  have hletters : '\x00' ∉ p.name := fun h => (hname.2.2 _ h).2 rfl
  have hword : '\x00' ∉ "PLAYER".toList := by decide
  have hblank : '\x00' ≠ ' ' := by decide
  refine List.takeWhile_eq_self_iff.mpr fun c hc => ?_
  refine decide_eq_true fun hzero => ?_
  rw [hzero, player_text p hchosen] at hc
  simp only [List.mem_append, List.mem_cons, hflag, hletter, hletters, hword, hblank, hR.clean,
    or_self] at hc

/-- A `PLAYER` line shows its player. -/
theorem handleServerLine_player {rounded : F → F} (hR : ReadsBack rounded) {p : Player F}
    (hname : ValidName p.name) (hchosen : p.choiceChosen = true) (hchoice : IsChoice p.choice)
    (now : ℚ) (c : ClientState F) :
    handleServerLine now p.line.text c = c.showPlayer (p.entry rounded) := by
  have hfind : dispatch.find? (lineMatches p.line.text) =
      some ⟨"PLAYER ".toList, false, .snapshot⟩ := by
    rw [player_text p hchosen]
    rfl
  have hbegin : p.line.text ≠ "STATE_BEGIN".toList := by
    rw [player_text p hchosen]
    intro h
    cases h
  have hend : p.line.text ≠ "STATE_END".toList := by
    rw [player_text p hchosen]
    intro h
    cases h
  rw [handleServerLine, hfind]
  simp only
  rw [parseStateSnapshotLine, if_neg hbegin, if_neg hend,
    scanPlayerLine_text hR hname hchosen hchoice]

end Line

section Table

/-- The client's table with these entries at its front and the others unused. -/
def tableOf (entries : List (ClientPlayer F)) : Slot → ClientPlayer F :=
  fun i => entries.getD i.val .zero

/-- Entries that the client can hold side by side. -/
structure Roster (entries : List (ClientPlayer F)) : Prop where
  /-- They are in use. -/
  used : ∀ e ∈ entries, e.used = true
  /-- Their names fit. -/
  short : ∀ e ∈ entries, e.name.length < MAX_NAME_LENGTH
  /-- Their names differ. -/
  apart : (entries.map ClientPlayer.name).Nodup
  /-- The table has room for them. -/
  room : entries.length ≤ MAX_PLAYERS

/-- An entry at the front of the table. -/
theorem tableOf_lt {entries : List (ClientPlayer F)} {i : Slot} (h : i.val < entries.length) :
    tableOf entries i = entries[i.val] := by
  rw [tableOf, List.getD_eq_getElem _ _ h]

/-- An entry behind the front is unused. -/
theorem tableOf_ge {entries : List (ClientPlayer F)} {i : Slot} (h : entries.length ≤ i.val) :
    tableOf entries i = .zero := by
  rw [tableOf, List.getD_eq_default _ _ h]

/-- One more entry behind the others. -/
theorem tableOf_concat {entries : List (ClientPlayer F)} {e : ClientPlayer F}
    (h : entries.length < MAX_PLAYERS) :
    Function.update (tableOf entries) ⟨entries.length, h⟩ e = tableOf (entries ++ [e]) := by
  funext i
  by_cases hi : i = ⟨entries.length, h⟩
  · subst hi
    rw [Function.update_self, tableOf, List.getD_append_right _ _ _ _ le_rfl, Nat.sub_self]
    rfl
  · have hval : i.val ≠ entries.length := fun hval => hi (Fin.ext hval)
    rw [Function.update_of_ne hi]
    rcases Nat.lt_or_gt_of_ne hval with hlt | hgt
    · rw [tableOf, tableOf, List.getD_append _ _ _ _ hlt]
    · rw [tableOf_ge (Nat.le_of_lt hgt), tableOf_ge (by
        rw [List.length_append, List.length_singleton]
        omega)]

/-- A player with a new name is not found. -/
theorem findPlayer_tableOf {entries : List (ClientPlayer F)} {name : List Char}
    (h : name ∉ entries.map ClientPlayer.name) : findPlayer (tableOf entries) name = none := by
  refine List.find?_eq_none.mpr fun i _ hi => ?_
  obtain ⟨hused, hname⟩ := Bool.and_eq_true_iff.mp hi
  rcases Nat.lt_or_ge i.val entries.length with hlt | hge
  · rw [tableOf_lt hlt] at hname
    exact h (List.mem_map.mpr ⟨_, List.getElem_mem hlt, beq_iff_eq.mp hname⟩)
  · rw [tableOf_ge hge] at hused
    cases hused

/-- The first unused entry is behind the used ones. -/
theorem find_unused_tableOf {entries : List (ClientPlayer F)}
    (hused : ∀ e ∈ entries, e.used = true) (h : entries.length < MAX_PLAYERS) :
    slots.find? (fun i => !(tableOf entries i).used) = some ⟨entries.length, h⟩ := by
  have hslot : ∀ (k : ℕ) (hk : k < slots.length), slots[k] = ⟨k, by simpa [slots] using hk⟩ :=
    fun k hk => by simp [slots]
  have hlen : entries.length < slots.length := by simpa [slots] using h
  refine List.find?_eq_some_iff_getElem.mpr ⟨?_, entries.length, hlen, hslot _ hlen, ?_⟩
  · rw [tableOf_ge le_rfl]
    rfl
  · intro k hk
    rw [hslot k (hk.trans hlen), tableOf_lt hk, hused _ (List.getElem_mem hk)]
    rfl

/-- Showing a player with a new name adds its entry. -/
theorem showPlayer_tableOf {c : ClientState F} {entries : List (ClientPlayer F)}
    {e : ClientPlayer F} (hc : c.players = tableOf entries) (h : Roster (entries ++ [e])) :
    (c.showPlayer e).players = tableOf (entries ++ [e]) := by
  have hroom : entries.length < MAX_PLAYERS := by
    have hlen := h.room
    rw [List.length_append, List.length_singleton] at hlen
    omega
  have hnew : e.name ∉ entries.map ClientPlayer.name := by
    have hapart := h.apart
    rw [List.map_append, List.map_singleton, List.nodup_append] at hapart
    exact fun hmem => hapart.2.2 _ hmem _ (List.mem_singleton.mpr rfl) rfl
  have hused : e.used = true := h.used e (by simp)
  have hname : e.name.take (MAX_NAME_LENGTH - 1) = e.name := by
    have hshort := h.short e (by simp)
    exact List.take_of_length_le (by omega)
  have hfound : getOrAddPlayer (tableOf entries) e.name =
      (some ⟨entries.length, hroom⟩,
        Function.update (tableOf entries) ⟨entries.length, hroom⟩ (.fresh e.name)) := by
    rw [getOrAddPlayer, findPlayer_tableOf hnew]
    simp only
    rw [find_unused_tableOf (fun x hx => h.used x (List.mem_append_left _ hx)) hroom]
  have hentry : { (ClientPlayer.fresh e.name : ClientPlayer F) with
      choice := e.choice, x := e.x, y := e.y, alive := e.alive, waiting := e.waiting } = e := by
    rw [ClientPlayer.fresh, hname]
    cases e
    cases hused
    rfl
  rw [ClientState.showPlayer, hc, hfound]
  simp only [Function.update_self, Function.update_idem]
  rw [hentry, tableOf_concat hroom]

/-- Lines that show players one after another. -/
theorem feed_showPlayer {lines : List (List Char)} {more : List (ClientPlayer F)}
    (hlines : List.Forall₂ (fun line e => ∀ (now : ℚ) (c : ClientState F),
      handleServerLine now line c = c.showPlayer e) lines more)
    {entries : List (ClientPlayer F)} (h : Roster (entries ++ more)) (clock : ℕ → ℚ)
    {c : ClientState F} (hc : c.players = tableOf entries) :
    (c.feed clock lines).players = tableOf (entries ++ more) := by
  induction hlines generalizing entries clock c with
  | nil => rw [List.append_nil]; exact hc
  | @cons line e lines more hline _ ih =>
    have hsplit : entries ++ e :: more = (entries ++ [e]) ++ more := by
      rw [List.append_assoc, List.singleton_append]
    have hfront : Roster (entries ++ [e]) := by
      rw [hsplit] at h
      refine ⟨fun x hx => h.used x (List.mem_append_left _ hx),
        fun x hx => h.short x (List.mem_append_left _ hx), ?_, ?_⟩
      · have hapart := h.apart
        rw [List.map_append] at hapart
        exact (List.nodup_append.mp hapart).1
      · have hroom := h.room
        rw [List.length_append] at hroom
        omega
    rw [ClientState.feed, hline, hsplit]
    rw [hsplit] at h
    exact ih h _ (showPlayer_tableOf hc hfront)

end Table

section Snapshot

/-- The slots of the admitted players. -/
def admittedSlots (s : ServerState F) : List Slot :=
  slots.filter (fun i => (s.players i).isAdmitted)

omit [CFloat F] in
/-- The admitted players make a roster. -/
theorem roster_admitted {w : Server F} (hw : Inv w) (rounded : F → F) :
    Roster ((admittedSlots w.state).map fun i => (w.state.players i).entry rounded) where
  used e he := by
    obtain ⟨i, _, rfl⟩ := List.mem_map.mp he
    rfl
  short e he := by
    obtain ⟨i, hi, rfl⟩ := List.mem_map.mp he
    have hreg := Player.isRegistered_of_isAdmitted (List.mem_filter.mp hi).2
    obtain ⟨hconn, hregistered⟩ := Player.isRegistered_iff.mp hreg
    exact ((hw.slots i hconn).named hregistered).2.1
  apart := by
    rw [List.map_map]
    refine List.Nodup.map_on ?_ (slots_nodup.filter _)
    intro i hi j hj hname
    exact hw.identified.name_inj i j (Player.isRegistered_of_isAdmitted (List.mem_filter.mp hi).2)
      (Player.isRegistered_of_isAdmitted (List.mem_filter.mp hj).2) hname
  room := by
    rw [List.length_map]
    exact (List.length_filter_le _ _).trans_eq (by simp [slots])

/-- The line of an admitted player shows it. -/
theorem handleServerLine_admitted {rounded : F → F} (hR : ReadsBack rounded) {w : Server F}
    (hw : Inv w) {i : Slot} (hi : i ∈ admittedSlots w.state) (now : ℚ) (c : ClientState F) :
    handleServerLine now (Via.checked.sent (w.state.players i).line) c =
      c.showPlayer ((w.state.players i).entry rounded) := by
  obtain ⟨hreg, hadmitted⟩ := Player.isAdmitted_iff.mp (List.mem_filter.mp hi).2
  obtain ⟨hconn, hregistered⟩ := Player.isRegistered_iff.mp hreg
  have hslot := hw.slots i hconn
  obtain ⟨_, hchosen, _⟩ := hslot.ready hadmitted
  have hname := hslot.named hregistered
  have hchoice := hslot.chosen hchosen
  have hsent : Via.checked.sent (w.state.players i).line = (w.state.players i).line.text :=
    cString_player hR hname hchosen hchoice
  rw [hsent, handleServerLine_player hR hname hchosen hchoice]

/-- The lines between the head of a snapshot and its players leave the players alone. -/
theorem headedBy_phaseLines (s : ServerState F) (dst : Slot) :
    ∀ line ∈ phaseLines s dst, ∀ u, headedBy playerWords (line u).text = false := by
  have hpair : ∀ {f g : Server F → ServerLine F},
      (∀ u, headedBy playerWords (f u).text = false) →
      (∀ u, headedBy playerWords (g u).text = false) →
      ∀ line ∈ [f, g], ∀ u, headedBy playerWords (line u).text = false := by
    intro f g hf hg
    exact List.forall_mem_cons.mpr ⟨hf, List.forall_mem_singleton.mpr hg⟩
  unfold phaseLines
  cases s.phase with
  | lobbyOpen =>
    simp only
    split
    · exact List.forall_mem_singleton.mpr fun _ => rfl
    · exact List.forall_mem_singleton.mpr fun _ => rfl
  | setup => exact hpair (fun _ => rfl) (fun _ => rfl)
  | roundActive => exact hpair (fun _ => rfl) (fun _ => rfl)
  | repick => exact hpair (fun _ => rfl) (fun _ => rfl)
  | gameOver =>
    cases (s.players dst).verdict with
    | none => exact fun _ h => absurd h List.not_mem_nil
    | some v => exact List.forall_mem_singleton.mpr fun _ => by cases v <;> rfl

/-- The lines of admitted players show them. -/
theorem shows_admitted {rounded : F → F} (hR : ReadsBack rounded) {w : Server F} (hw : Inv w)
    (is : List Slot) (his : ∀ i ∈ is, i ∈ admittedSlots w.state) {sent : List (List Char)}
    (h : List.Forall₂ (fun text (line : Server F → ServerLine F) =>
      ∃ u, text = Via.checked.sent (line u)) sent (is.map fun i _ => (w.state.players i).line)) :
    List.Forall₂ (fun line e => ∀ (now : ℚ) (c : ClientState F),
      handleServerLine now line c = c.showPlayer e) sent
      (is.map fun i => (w.state.players i).entry rounded) := by
  induction is generalizing sent with
  | nil =>
    cases h
    exact .nil
  | cons i is ih =>
    cases h with
    | cons hline hrest =>
      obtain ⟨_, rfl⟩ := hline
      refine .cons (handleServerLine_admitted hR hw (his i List.mem_cons_self)) ?_
      exact ih (fun j hj => his j (List.mem_cons_of_mem _ hj)) hrest

/-- A client that is sent a whole snapshot, whatever it knew before, knows the admitted
players in the order of the slots and nobody else. -/
theorem snapshot_round_trip {rounded : F → F} (hR : ReadsBack rounded) {loopOnly : Bool}
    {w : Server F} (hw : Reached loopOnly w) (dst : Slot)
    (hroom : (queueGameStateForPlayer dst w).1 = true) (c : ClientState F) (clock : ℕ → ℚ) :
    (c.feed clock (linesFor dst (added w (queueGameStateForPlayer dst w).2))).players =
      tableOf ((admittedSlots w.state).map fun i => (w.state.players i).entry rounded) := by
  obtain ⟨sent, hsends, hsent⟩ :=
    Sends.queueSeq (snapshotLines w.state dst) (Prod.ext hroom rfl)
  have hlines : snapshotLines w.state dst = (fun _ => .stateBegin) :: (phaseLines w.state dst ++
      ((admittedSlots w.state).map (fun i _ => (w.state.players i).line) ++
        [fun _ => .stateEnd])) := by
    rw [snapshotLines, List.append_assoc, List.append_assoc]
    rfl
  rw [queueGameStateForPlayer, hsends.eq]
  rw [hlines] at hsent
  cases hsent with
  | @cons head _ rest _ hhead hrest =>
    obtain ⟨_, rfl⟩ := hhead
    have hphase := headedBy_sent (List.forall₂_take_append _ _ _ hrest)
      (headedBy_phaseLines w.state dst)
    have hrest' := List.forall₂_drop_append _ _ _ hrest
    have hshown := shows_admitted hR hw.inv _ (fun _ hi => hi)
      (List.forall₂_take_append _ _ _ hrest')
    have hend := headedBy_sent (List.forall₂_drop_append _ _ _ hrest')
      (List.forall_mem_singleton.mpr fun _ => (rfl : headedBy playerWords _ = false))
    rw [← List.take_append_drop (phaseLines w.state dst).length rest,
      ← List.take_append_drop ((admittedSlots w.state).map
        (fun i (_ : Server F) => (w.state.players i).line)).length
        (rest.drop (phaseLines w.state dst).length)]
    rw [ClientState.feed, feed_append, feed_append, feed_players _ _ _ hend]
    -- The head clears the table, and the lines of the phase leave it so.
    exact feed_showPlayer hshown (show Roster ([] ++ _) from roster_admitted hw.inv rounded) _
      (feed_players _ _ _ hphase)

/-- Exact coordinates are read back with three decimals. -/
theorem Exact.readsBack : ReadsBack Exact.rounded where
  clean x h := by
    rcases Exact.mem_fixed h with h | h | h
    · exact absurd h (by decide)
    · exact absurd h (by decide)
    · exact absurd h (by decide)
  head x rest := by
    have hne : Exact.fixed 3 x ≠ [] := by
      unfold Exact.fixed
      simp
    show skipSpace (Exact.fixed 3 x ++ rest) = Exact.fixed 3 x ++ rest
    cases htext : Exact.fixed 3 x with
    | nil => exact absurd htext hne
    | cons c text =>
      have hc : isSpace c = false := by
        have hmem : c ∈ Exact.fixed 3 x := htext ▸ List.mem_cons_self
        rcases Exact.mem_fixed hmem with rfl | rfl | hdigit
        · rfl
        · rfl
        · exact not_isSpace_of_isDigit hdigit
      rw [List.cons_append, skipSpace_cons hc]
  scan := Exact.scan_fixed

/-- The two players of a duel, in the eyes of one of them. -/
theorem snapshot_round_trip_duel :
    (queueGameStateForPlayer 0 (serverAfter (lateClock 60) duel)).1 = true ∧
      ∀ (c : ClientState Exact) (clock : ℕ → ℚ),
        (c.feed clock (linesFor 0 (added (serverAfter (lateClock 60) duel)
          (queueGameStateForPlayer 0 (serverAfter (lateClock 60) duel)).2))).players =
        tableOf
          [⟨true, "A".toList, 'R', ⟨2⟩, ⟨2⟩, 1, 0⟩, ⟨true, "B".toList, 'S', ⟨5⟩, ⟨5⟩, 1, 0⟩] := by
  have hsnapshot : (queueGameStateForPlayer 0 (serverAfter (lateClock 60) duel)).1 = true ∧
      ((admittedSlots (serverAfter (lateClock 60) duel).state).map fun i =>
        ((serverAfter (lateClock 60) duel).state.players i).entry Exact.rounded) =
      [⟨true, "A".toList, 'R', ⟨2⟩, ⟨2⟩, 1, 0⟩, ⟨true, "B".toList, 'S', ⟨5⟩, ⟨5⟩, 1, 0⟩] := by
    decide +kernel
  refine ⟨hsnapshot.1, fun c clock => ?_⟩
  rw [snapshot_round_trip Exact.readsBack duel_reached 0 hsnapshot.1 c clock, hsnapshot.2]

end Snapshot

end BattleRoyale
