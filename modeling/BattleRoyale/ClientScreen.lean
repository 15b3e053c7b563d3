import BattleRoyale.Network
import BattleRoyale.SnapshotRoundTrip

/-!
# What the client shows

The table of players in the client, in every run and whatever arrives, and what the drawing
functions of `client_text.c` make of it. The list names nobody twice. After a whole snapshot
each cell of the grid shows the type of the first admitted player in the order of the slots
who stands there and has not been eliminated.
-/

namespace BattleRoyale

open Recorded Framing

variable {F : Type} [CFloat F]

/-- `to_grid_coord`. -/
def toGridCoord (value : F) : ℤ :=
  if CFloat.lt value (CFloat.lit 0) then -1
  else CFloat.toInt (CFloat.add value (CFloat.lit (1 / 2)))

/-- `choice_label`. -/
def choiceLabel (choice : Char) : List Char :=
  match choice with
  | 'R' => "Rock".toList
  | 'P' => "Paper".toList
  | 'S' => "Scissors".toList
  | _ => "-".toList

/-- The entry is drawn in this cell of the grid. -/
def ClientPlayer.standsIn (p : ClientPlayer F) (x y : ℤ) : Bool :=
  p.used && (decide (p.alive ≠ 0) || decide (p.waiting ≠ 0)) &&
    decide (toGridCoord p.x = x) && decide (toGridCoord p.y = y)

/-- How it is drawn. -/
def ClientPlayer.marker (p : ClientPlayer F) : Char :=
  if p.choice = '\x00' then '?' else p.choice

/-- The marker of a cell: that of the first entry that is drawn there. -/
def gridMarker (players : Slot → ClientPlayer F) (x y : ℤ) : Char :=
  match slots.find? (fun i => (players i).standsIn x y) with
  | none => '.'
  | some i => (players i).marker

/-- The text of a cell, with the cursor or without it. -/
def gridCell (cursor : Bool) (marker : Char) : List Char :=
  if cursor then ['[', marker, ']'] else [' ', marker, ' ']

/-- `draw_grid`: the rows and columns of the screen, and the texts there. -/
def drawGrid (c : ClientState F) (top left cursorX cursorY : ℤ) : List (ℤ × ℤ × List Char) :=
  (top - 1, left, "Grid (".toList ++ decimal GRID_W ++ ['x'] ++ decimal GRID_H ++ [')']) ::
    (List.range GRID_H.toNat).flatMap fun (y : ℕ) => (List.range GRID_W.toNat).map fun (x : ℕ) =>
      (top + y, left + x * 3,
        gridCell (decide ((x : ℤ) = cursorX ∧ (y : ℤ) = cursorY)) (gridMarker c.players x y))

/-- The conversion `%-{width}s`. -/
def padRight (width : ℕ) (text : List Char) : List Char :=
  text ++ List.replicate (width - text.length) ' '

/-- The width of `%{width}.1f`. -/
def padLeft (width : ℕ) (text : List Char) : List Char :=
  List.replicate (width - text.length) ' ' ++ text

/-- The row of a player. -/
def ClientPlayer.row (p : ClientPlayer F) : List Char :=
  let life := if p.alive ≠ 0 then "alive".toList
    else if p.waiting ≠ 0 then "waiting".toList else "out".toList
  padRight 10 p.name ++ [' '] ++ padRight 9 (choiceLabel p.choice) ++ " (".toList ++
    padLeft 4 (CFloat.fixed 1 p.x) ++ [','] ++ padLeft 4 (CFloat.fixed 1 p.y) ++ ") ".toList ++
    padRight 7 life

/-- The players of the list, while there are rows. -/
def shownPlayers (c : ClientState F) (maxRows : ℤ) : List (ClientPlayer F) :=
  ((slots.filter fun i => (c.players i).used).map c.players).take (maxRows - 1).toNat

/-- `draw_player_list`. -/
def drawPlayerList (c : ClientState F) (top left maxRows : ℤ) : List (ℤ × ℤ × List Char) :=
  (top, left, "Players".toList) ::
    (shownPlayers c maxRows).mapIdx fun k p => (top + 1 + k, left, p.row)

section Table

/-- The entries in use have valid names, each its own. -/
structure TableOk (players : Slot → ClientPlayer F) : Prop where
  /-- The names. -/
  named : ∀ i, (players i).used = true → ValidName (players i).name
  /-- They differ. -/
  apart : ∀ i j, (players i).used = true → (players j).used = true →
    (players i).name = (players j).name → i = j

/-- The empty table. -/
theorem TableOk.clear : TableOk (clearPlayers : Slot → ClientPlayer F) :=
  ⟨(fun _ h => by cases h), fun _ _ h => by cases h⟩

omit [CFloat F] in
/-- An entry that keeps its name, or is given up. -/
theorem TableOk.update {players : Slot → ClientPlayer F} (h : TableOk players) {i : Slot}
    {e : ClientPlayer F}
    (he : e.used = true → (players i).used = true ∧ e.name = (players i).name) :
    TableOk (Function.update players i e) := by
  have hentry : ∀ j, (Function.update players i e j).used = true →
      (players j).used = true ∧ (Function.update players i e j).name = (players j).name := by
    intro j hj
    by_cases hji : j = i
    · subst hji
      rw [Function.update_self] at hj ⊢
      exact he hj
    · rw [Function.update_of_ne hji] at hj ⊢
      exact ⟨hj, rfl⟩
  refine ⟨fun j hj => ?_, fun j k hj hk hname => ?_⟩
  · obtain ⟨hused, hsame⟩ := hentry j hj
    rw [hsame]
    exact h.named j hused
  · obtain ⟨hjused, hjname⟩ := hentry j hj
    obtain ⟨hkused, hkname⟩ := hentry k hk
    exact h.apart j k hjused hkused (hjname ▸ hkname ▸ hname)

/-- A player that is found or added. -/
theorem TableOk.getOrAddPlayer {players : Slot → ClientPlayer F} (h : TableOk players)
    {name : List Char} (hname : ValidName name) :
    TableOk (getOrAddPlayer players name).2 := by
  unfold BattleRoyale.getOrAddPlayer
  split
  · exact h
  rename_i hnone
  split
  swap
  · exact h
  rename_i i hfree
  have hunused : (players i).used = false := by simpa using List.find?_some hfree
  have hshort : name.take (MAX_NAME_LENGTH - 1) = name :=
    List.take_of_length_le (Nat.le_sub_one_of_lt hname.2.1)
  have hnew : ∀ j, (players j).used = true → (players j).name ≠ name := by
    intro j hused hsame
    have hmiss := List.find?_eq_none.mp hnone j (List.mem_finRange j)
    simp [hused, hsame] at hmiss
  have hentry : ∀ j, j ≠ i → Function.update players i (.fresh name) j = players j :=
    fun j hji => Function.update_of_ne hji _ _
  have hfresh : (Function.update players i (.fresh name) i).name = name := by
    rw [Function.update_self]
    exact hshort
  show TableOk (Function.update players i (.fresh name))
  refine ⟨fun j hj => ?_, fun j k hj hk hsame => ?_⟩
  · by_cases hji : j = i
    · subst hji
      rw [hfresh]
      exact hname
    · rw [hentry j hji] at hj ⊢
      exact h.named j hj
  · by_cases hji : j = i <;> by_cases hki : k = i
    · rw [hji, hki]
    · subst hji
      rw [hfresh, hentry k hki] at hsame
      rw [hentry k hki] at hk
      exact absurd hsame.symm (hnew k hk)
    · subst hki
      rw [hfresh, hentry j hji] at hsame
      rw [hentry j hji] at hj
      exact absurd hsame (hnew j hj)
    · rw [hentry j hji, hentry k hki] at hsame
      rw [hentry j hji] at hj
      rw [hentry k hki] at hk
      exact h.apart j k hj hk hsame

/-- The entry of a `PLAYER` line has a valid name. -/
theorem scanPlayerLine_name {line : List Char} (hline : ∀ c ∈ line, c ≠ '\x00')
    {e : ClientPlayer F} (h : scanPlayerLine line = some e) : ValidName e.name := by
  obtain ⟨rest, hrest, h⟩ := Option.bind_eq_some_iff.mp h
  obtain ⟨⟨name, more⟩, hword, h⟩ := Option.bind_eq_some_iff.mp h
  have hsub : ∀ c ∈ rest, c ≠ '\x00' := by
    unfold scanLiteral at hrest
    split at hrest
    · cases hrest
      exact fun c hc => hline c (List.drop_subset _ _ hc)
    · cases hrest
  have hname := scanWord_validName hsub hword
  obtain ⟨_, _, h⟩ := Option.bind_eq_some_iff.mp h
  obtain ⟨_, _, h⟩ := Option.bind_eq_some_iff.mp h
  obtain ⟨_, _, h⟩ := Option.bind_eq_some_iff.mp h
  obtain ⟨_, _, h⟩ := Option.bind_eq_some_iff.mp h
  obtain ⟨_, _, rfl⟩ := Option.map_eq_some_iff.mp h
  exact hname

/-- A `PLAYER` line. -/
theorem TableOk.showPlayer {c : ClientState F} (h : TableOk c.players) {e : ClientPlayer F}
    (hname : ValidName e.name) : TableOk (c.showPlayer e).players := by
  have hadded := h.getOrAddPlayer hname
  unfold ClientState.showPlayer
  cases hfound : BattleRoyale.getOrAddPlayer c.players e.name with
  | mk idx players =>
    rw [hfound] at hadded
    cases idx with
    | none => exact hadded
    | some i => exact hadded.update fun hused => ⟨hused, rfl⟩

/-- The line of a pair with a winner. -/
theorem TableOk.showWinner {c : ClientState F} (h : TableOk c.players) (a b winner : List Char)
    (x y : F) : TableOk (c.showWinner a b winner x y).players := by
  unfold ClientState.showWinner
  simp only [ClientState.setStatus]
  split
  · split
    · refine (h.update ?_).update ?_ <;> exact fun hused => ⟨hused, rfl⟩
    · exact h.update fun hused => ⟨hused, rfl⟩
  · split
    · exact h.update fun hused => ⟨hused, rfl⟩
    · exact h

/-- A line for the snapshot parser. -/
theorem TableOk.parseStateSnapshotLine {c : ClientState F} (h : TableOk c.players) (now : ℚ)
    {line : List Char} (hline : ∀ c ∈ line, c ≠ '\x00') :
    TableOk (parseStateSnapshotLine now line c).players := by
  have hresult : TableOk (parseResultLine line c).players := by
    have hsame : (parseResultLine line c).players = c.players := by
      unfold parseResultLine
      repeat' split
      all_goals rfl
    rwa [hsame]
  unfold BattleRoyale.parseStateSnapshotLine
  split
  · exact .clear
  split
  · exact h
  split
  · rename_i e he
    exact h.showPlayer (scanPlayerLine_name hline he)
  split
  · exact h
  split
  · exact h
  split
  · exact h
  split
  · split
    · exact hresult
    · split
      · exact h.showWinner ..
      · exact h
  · exact hresult

omit [CFloat F] in
/-- A notice: a player who left is given up. -/
theorem TableOk.parseNoticeLine {c : ClientState F} (h : TableOk c.players) (line : List Char) :
    TableOk (parseNoticeLine line c).players := by
  cases hleft : scanNamed "LEFT".toList line with
  | none =>
    rw [(parseNoticeLine_picture line c).2 hleft]
    exact h
  | some name =>
    have hgone : ∀ i, TableOk (Function.update c.players i { c.players i with used := false }) :=
      fun i => h.update fun hused => by cases hused
    unfold BattleRoyale.parseNoticeLine
    rw [hleft]
    repeat' split
    all_goals first | exact h | exact hgone _

/-- A line for the general parser. -/
theorem TableOk.parseGeneralLine {c : ClientState F} (h : TableOk c.players) (now : ℚ)
    (line : List Char) : TableOk (parseGeneralLine now line c).players := by
  by_cases hreset : line = "MATCH_RESET".toList
  · unfold BattleRoyale.parseGeneralLine
    split
    · exact h
    · rw [if_pos hreset]
      exact .clear
  · rcases parseGeneralLine_cases now c hreset with hsame | hnotice
    · have hplayers : (BattleRoyale.parseGeneralLine now line c).players = c.players :=
        congrArg Prod.fst hsame
      rwa [hplayers]
    · rw [hnotice]
      exact h.parseNoticeLine line

/-- Any line. -/
theorem TableOk.handleServerLine {c : ClientState F} (h : TableOk c.players) (now : ℚ)
    {line : List Char} (hline : ∀ c ∈ line, c ≠ '\x00') :
    TableOk (handleServerLine now line c).players := by
  unfold BattleRoyale.handleServerLine
  split
  · exact h
  · exact h.parseGeneralLine now line
  · exact h.parseStateSnapshotLine now hline

namespace ClientProgram

/-- The lines of one read. -/
theorem hearLines_table (clock : ℕ → ℚ) (passes : ℕ) {p : ClientProgram F}
    (h : TableOk p.client.state.players) :
    TableOk (hearLines clock passes p).client.state.players := by
  induction passes generalizing p with
  | zero => exact h
  | succ passes ih =>
    rw [hearLines]
    split
    · exact h
    · exact ih (h.handleServerLine _ fun c hc => ne_of_mem_cString hc)

/-- The network of a frame. -/
theorem pump_table (clock : ℕ → ℚ) (results : List RecvResult) {p : ClientProgram F}
    (h : TableOk p.client.state.players) : TableOk (p.pump clock results).client.state.players := by
  induction results generalizing p with
  | nil => exact h
  | cons result results ih =>
    rw [pump]
    simp only
    split
    · exact h
    · exact ih (hearLines_table clock _ h)

/-- One frame. -/
theorem frame_table (E : Surroundings) {p : ClientProgram F} (f : Frame)
    (h : TableOk p.client.state.players) : TableOk (p.frame E f).client.state.players := by
  have hplayers : ∀ {q r : ClientProgram F}, q.ear = r.ear →
      q.client.state.players = r.client.state.players := fun hear => congrArg Prod.snd hear
  rcases frame_ear E p f with hear | hear <;> rw [hplayers hear]
  · exact h
  · exact pump_table E.clock f.received h

/-- A run. -/
theorem run_table (E : Surroundings) (frames : List Frame) {p : ClientProgram F}
    (h : TableOk p.client.state.players) :
    TableOk (p.run E frames).client.state.players := by
  induction frames generalizing p with
  | nil => exact h
  | cons f frames ih => exact ih (frame_table E f h)

end ClientProgram

/-- The name is the first word of the row. -/
theorem ClientPlayer.row_name {p : ClientPlayer F} (h : ValidName p.name) :
    p.row.takeWhile (fun c => !isSpace c) = p.name := by
  obtain ⟨rest, hrest⟩ : ∃ rest, p.row =
      p.name ++ (List.replicate (10 - p.name.length) ' ' ++ ' ' :: rest) :=
    ⟨_, by simp only [ClientPlayer.row, padRight, List.append_assoc, List.singleton_append]; rfl⟩
  have hblank : (List.replicate (10 - p.name.length) ' ' ++ ' ' :: rest).takeWhile
      (fun c => !isSpace c) = [] := by
    cases 10 - p.name.length <;> rfl
  rw [hrest, List.takeWhile_append_of_pos fun c hc => by rw [(h.2.2 c hc).1]; rfl, hblank,
    List.append_nil]

omit [CFloat F] in
/-- The names in the list differ. -/
theorem TableOk.shown {c : ClientState F} (h : TableOk c.players) (maxRows : ℤ) :
    (∀ p ∈ shownPlayers c maxRows, ValidName p.name) ∧
      ((shownPlayers c maxRows).map ClientPlayer.name).Nodup := by
  constructor
  · intro p hp
    obtain ⟨i, hi, rfl⟩ := List.mem_map.mp (List.mem_of_mem_take hp)
    exact h.named i (List.mem_filter.mp hi).2
  · rw [shownPlayers, List.map_take, List.map_map]
    refine List.Nodup.sublist (List.take_sublist _ _) (List.Nodup.map_on ?_ ?_)
    · intro i hi j hj hname
      simp only [List.mem_filter] at hi hj
      exact h.apart i j hi.2 hj.2 hname
    · exact (List.nodup_finRange _).filter _

/-- The texts of the list on the screen. -/
theorem map_drawPlayerList (c : ClientState F) (top left maxRows : ℤ) :
    (drawPlayerList c top left maxRows).map (fun drawn => drawn.2.2) =
      "Players".toList :: (shownPlayers c maxRows).map ClientPlayer.row := by
  rw [drawPlayerList, List.map_cons]
  exact congrArg _ (List.ext_getElem (by simp) (by simp))

/-- In every run of the client, whatever arrives, is sent and is typed, the players
in its table have names of 1 to 31 characters without white space, and no two of them the
same one, so that a line about a player changes at most one entry. And on the screen no two
rows of the list of players have the same text. -/
theorem client_table (E : Surroundings) (name : List Char) (auto : AutoJoinConfig)
    (frames : List Frame) :
    TableOk ((ClientProgram.start E name auto : ClientProgram F).run E
      frames).client.state.players ∧
    ∀ top left maxRows, ((drawPlayerList ((ClientProgram.start E name auto : ClientProgram F).run
      E frames).client.state top left maxRows).map fun drawn => drawn.2.2).Nodup := by
  have hstart : (ClientProgram.start E name auto : ClientProgram F).client.state.players =
      ClientState.zero.players := congrArg Prod.snd (ClientProgram.start_ear E name auto)
  have htable := ClientProgram.run_table E frames
    (p := ClientProgram.start E name auto) (by rw [hstart]; exact TableOk.clear)
  refine ⟨htable, fun top left maxRows => ?_⟩
  obtain ⟨hvalid, hnames⟩ := htable.shown maxRows
  rw [map_drawPlayerList]
  generalize shownPlayers _ maxRows = shown at hvalid hnames ⊢
  refine List.nodup_cons.mpr ⟨fun hhead => ?_, ?_⟩
  · -- Every row has a blank in it.
    obtain ⟨p, _, hp⟩ := List.mem_map.mp hhead
    have hblank : ' ' ∈ p.row := by simp [ClientPlayer.row]
    rw [hp] at hblank
    exact absurd hblank (by decide)
  · have hwords : (shown.map ClientPlayer.row).map
        (fun row => row.takeWhile fun c => !isSpace c) = shown.map ClientPlayer.name := by
      rw [List.map_map]
      exact List.map_congr_left fun p hp => ClientPlayer.row_name (hvalid p hp)
    exact List.Nodup.of_map _ (hwords ▸ hnames)

end Table

section Snapshot

/-- The table of a roster, entry by entry. -/
theorem map_tableOf {entries : List (ClientPlayer F)} (h : entries.length ≤ MAX_PLAYERS) :
    slots.map (tableOf entries) =
      entries ++ List.replicate (MAX_PLAYERS - entries.length) .zero := by
  have hslots : slots.length = MAX_PLAYERS := by simp [slots]
  refine List.ext_getElem ?_ fun k hk _ => ?_
  · rw [List.length_map, hslots, List.length_append, List.length_replicate]
    omega
  have hslot : ∀ hk : k < slots.length, slots[k] = ⟨k, by simpa [slots] using hk⟩ :=
    fun hk => by simp [slots]
  rw [List.getElem_map, hslot]
  rcases Nat.lt_or_ge k entries.length with hlt | hge
  · rw [tableOf_lt hlt, List.getElem_append_left hlt]
  · rw [tableOf_ge hge, List.getElem_append_right hge, List.getElem_replicate]

/-- The marker of a cell when the table is a roster. -/
theorem gridMarker_tableOf {entries : List (ClientPlayer F)}
    (h : entries.length ≤ MAX_PLAYERS) (x y : ℤ) :
    gridMarker (tableOf entries) x y =
      (entries.find? fun e => e.standsIn x y).elim '.' ClientPlayer.marker := by
  have hmap : gridMarker (tableOf entries) x y =
      ((slots.map (tableOf entries)).find? fun e => e.standsIn x y).elim '.'
        ClientPlayer.marker := by
    rw [List.find?_map, gridMarker]
    split <;> rename_i heq <;> simp only [Function.comp_def, heq] <;> rfl
  have hrest : (List.replicate (MAX_PLAYERS - entries.length)
      (ClientPlayer.zero : ClientPlayer F)).find? (fun e => e.standsIn x y) = none := by
    refine List.find?_eq_none.mpr fun e he => ?_
    rw [List.eq_of_mem_replicate he]
    simp [ClientPlayer.standsIn, ClientPlayer.zero]
  rw [hmap, map_tableOf h, List.find?_append, hrest, Option.or_none]

/-- The cell of a tile is drawn once. -/
theorem mem_drawGrid {c : ClientState F} {top left cursorX cursorY x y : ℤ}
    (h : OnGrid x y) {text : List Char} :
    (top + y, left + x * 3, text) ∈ drawGrid c top left cursorX cursorY ↔
      text = gridCell (decide (x = cursorX ∧ y = cursorY)) (gridMarker c.players x y) := by
  obtain ⟨⟨hx, hxlt⟩, hy, hylt⟩ := h
  obtain ⟨m, rfl⟩ := Int.eq_ofNat_of_zero_le hx
  obtain ⟨n, rfl⟩ := Int.eq_ofNat_of_zero_le hy
  have hm : m < GRID_W.toNat := Int.lt_toNat.mpr hxlt
  have hn : n < GRID_H.toNat := Int.lt_toNat.mpr hylt
  simp only [drawGrid, List.mem_cons, Prod.mk.injEq, List.mem_flatMap, List.mem_map,
    List.mem_range]
  constructor
  · rintro (⟨hrow, _⟩ | ⟨y, _, x, _, hrow, hcolumn, rfl⟩)
    · omega
    · obtain rfl : y = n := by omega
      obtain rfl : x = m := by omega
      rfl
  · rintro rfl
    exact .inr ⟨n, hn, m, hm, rfl, rfl, rfl⟩

/-- What is paired with two lists has two parts. -/
theorem forall₂_split {α β : Type} {R : α → β → Prop} {l : List α} {front back : List β}
    (h : List.Forall₂ R l (front ++ back)) :
    ∃ a b, l = a ++ b ∧ List.Forall₂ R a front ∧ List.Forall₂ R b back :=
  ⟨_, _, (List.take_append_drop front.length l).symm, List.forall₂_take_append l front back h,
    List.forall₂_drop_append l front back h⟩

/-- The table after a whole snapshot and further lines, none of which is about a player. -/
theorem feed_snapshot {rounded : F → F} (hR : ReadsBack rounded) {w : Server F} (hw : Inv w)
    (dst : Slot) (hroom : (queueGameStateForPlayer dst w).1 = true) {more : List (List Char)}
    (hmore : ∀ line ∈ more, headedBy playerWords line = false) (c : ClientState F)
    (clock : ℕ → ℚ) :
    (c.feed clock (linesFor dst (added w (queueGameStateForPlayer dst w).2) ++ more)).players =
      tableOf ((admittedSlots w.state).map fun i => (w.state.players i).entry rounded) := by
  have hlines : snapshotLines w.state dst = (fun _ => .stateBegin) :: (phaseLines w.state dst ++
      ((admittedSlots w.state).map (fun i _ => (w.state.players i).line) ++
        [fun _ => .stateEnd])) := by
    simp only [snapshotLines, List.append_assoc, List.cons_append, List.nil_append]
    rfl
  obtain ⟨sent, hsends, hsent⟩ :=
    Sends.queueSeq (snapshotLines w.state dst) (Prod.ext hroom rfl)
  rw [queueGameStateForPlayer, hsends.eq, feed_append, feed_players _ _ _ hmore]
  rw [hlines] at hsent
  cases hsent with
  | @cons head _ rest _ hhead hrest =>
    obtain ⟨_, rfl⟩ := hhead
    -- The lines of the phase, those of the players and the end of the snapshot.
    obtain ⟨phase, rest, rfl, hphase, hrest⟩ := forall₂_split hrest
    obtain ⟨shown, tail, rfl, hshown, htail⟩ := forall₂_split hrest
    have hend := headedBy_sent htail
      (List.forall_mem_singleton.mpr fun _ => (rfl : headedBy playerWords _ = false))
    rw [ClientState.feed, feed_append, feed_append, feed_players _ _ _ hend]
    exact feed_showPlayer (shows_admitted hR hw _ (fun _ hi => hi) hshown)
      (show Roster ([] ++ _) from roster_admitted hw rounded) _
      (feed_players _ _ _ (headedBy_sent hphase (headedBy_phaseLines w.state dst)))

/-- After a whole snapshot, whatever the client showed before and whatever lines follow that
are not about players, do not start a new match and do not begin a new snapshot, each cell
of the grid shows the type of the first admitted player in the order of the slots whose
coordinates, as they were printed, are rounded to this cell and who is alive or waits for
the match. A cell without such a player is empty. -/
theorem grid_after_snapshot {rounded : F → F} (hR : ReadsBack rounded) {loopOnly : Bool}
    {w : Server F} (hw : Reached loopOnly w) (dst : Slot)
    (hroom : (queueGameStateForPlayer dst w).1 = true) {more : List (List Char)}
    (hmore : ∀ line ∈ more, headedBy playerWords line = false) (c : ClientState F)
    (clock : ℕ → ℚ) (top left cursorX cursorY : ℤ) {x y : ℤ} (htile : OnGrid x y)
    (text : List Char) :
    (top + y, left + x * 3, text) ∈ drawGrid
        (c.feed clock (linesFor dst (added w (queueGameStateForPlayer dst w).2) ++ more))
        top left cursorX cursorY ↔
      text = gridCell (decide (x = cursorX ∧ y = cursorY))
        (((admittedSlots w.state).find? fun i =>
          ((w.state.players i).entry rounded).standsIn x y).elim '.'
            fun i => (w.state.players i).choice) := by
  have hlength : ((admittedSlots w.state).map fun i =>
      (w.state.players i).entry rounded).length ≤ MAX_PLAYERS := by
    rw [List.length_map]
    exact (List.length_filter_le _ _).trans (by simp [slots])
  rw [mem_drawGrid htile, feed_snapshot hR hw.inv dst hroom hmore c clock,
    gridMarker_tableOf hlength, List.find?_map]
  simp only [Function.comp_def]
  cases hfind : (admittedSlots w.state).find? fun i =>
      ((w.state.players i).entry rounded).standsIn x y with
  | none => rfl
  | some i =>
    obtain ⟨hreg, hadmitted⟩ := Player.isAdmitted_iff.mp
      (List.mem_filter.mp (List.mem_of_find?_eq_some hfind)).2
    have hslot := hw.inv.slots i (Player.isRegistered_iff.mp hreg).1
    obtain ⟨_, hchosen, _⟩ := hslot.ready hadmitted
    have hchoice : (w.state.players i).choice ≠ '\x00' := by
      rcases hslot.chosen hchosen with hc | hc | hc <;> rw [hc] <;> decide
    have hmarker : ((w.state.players i).entry rounded).marker = (w.state.players i).choice :=
      if_neg hchoice
    simp only [Option.map_some, Option.elim_some, hmarker]

/-- The lines of a snapshot of a duel, and a line that follows it. -/
def duelLines : List (List Char) :=
  linesFor 0 (added (serverAfter (lateClock 60) duel)
    (queueGameStateForPlayer 0 (serverAfter (lateClock 60) duel)).2) ++
      ["ROUND_START 2 5".toList]

/-- Each of the two players is drawn in its own cell, under the cursor or not, and a third
cell is empty. -/
theorem grid_after_snapshot_duel :
    (7, 8, " R ".toList) ∈ drawGrid
      ((ClientState.zero : ClientState Exact).feed (fun _ => 0) duelLines) 5 2 5 5 ∧
    (10, 17, "[S]".toList) ∈ drawGrid
      ((ClientState.zero : ClientState Exact).feed (fun _ => 0) duelLines) 5 2 5 5 ∧
    (10, 8, " . ".toList) ∈ drawGrid
      ((ClientState.zero : ClientState Exact).feed (fun _ => 0) duelLines) 5 2 5 5 := by
  have hroom : (queueGameStateForPlayer 0 (serverAfter (lateClock 60) duel)).1 = true := by
    decide +kernel
  have hmore : ∀ line ∈ ["ROUND_START 2 5".toList], headedBy playerWords line = false := by
    decide
  have hgrid := fun {x y} (htile : OnGrid x y) text => (grid_after_snapshot Exact.readsBack
    duel_reached 0 hroom hmore .zero (fun _ => 0) 5 2 5 5 htile text).mpr
  refine ⟨hgrid (x := 2) (y := 2) (by decide) _ ?_, hgrid (x := 5) (y := 5) (by decide) _ ?_,
    hgrid (x := 2) (y := 5) (by decide) _ ?_⟩ <;> decide +kernel

end Snapshot

end BattleRoyale
