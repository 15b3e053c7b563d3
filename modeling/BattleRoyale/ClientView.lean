import BattleRoyale.Acknowledgements
import BattleRoyale.ClientMessages

/-!
# What a client makes of the server's lines

The lines that the server queues for a client, read by the client's parser. First the
dispatch: which lines leave the players or the result of the match alone. Then the result
lines of a match, of which the client misses the one for spectators.
-/

namespace BattleRoyale

open Recorded

variable {F : Type} [CFloat F]

/-- The line that an entry has queued for slot `i`. -/
def queuedLine (i : Slot) (x : Entry (ServerState F) (Event F)) : List (List Char) :=
  match x.event with
  | .queued j via line => if j = i then [via.sent line] else []
  | _ => []

/-- The lines that entries have queued for slot `i`, in order. -/
def linesFor (i : Slot) (log : Log F) : List (List Char) := gather (queuedLine i) log

section Queued

/-- The call has queued these lines for slot `i`. -/
def Sends (i : Slot) (w v : Server F) (lines : List (List Char)) : Prop :=
  ∃ new, v.log = new ++ w.log ∧ linesFor i new = lines

theorem Sends.eq {i : Slot} {w v : Server F} {lines : List (List Char)}
    (h : Sends i w v lines) : linesFor i (added w v) = lines := by
  obtain ⟨new, hlog, hnew⟩ := h
  rw [added_eq hlog, hnew]

/-- Nothing was called. -/
theorem Sends.refl (i : Slot) (w : Server F) : Sends i w w [] := ⟨[], rfl, rfl⟩

/-- One call after another. -/
theorem Sends.trans {i : Slot} {u v w : Server F} {lines more : List (List Char)}
    (h : Sends i u v lines) (hnext : Sends i v w more) : Sends i u w (lines ++ more) := by
  obtain ⟨new, hlog, rfl⟩ := h
  obtain ⟨new', hlog', rfl⟩ := hnext
  refine ⟨new' ++ new, ?_, gather_append ..⟩
  rw [hlog', hlog, List.append_assoc]

/-- One recorded action. -/
theorem Sends.record (i : Slot) (w : Server F) (e : Event F) (s : ServerState F) :
    Sends i w (w.record e s) (queuedLine i ⟨e, s⟩) := ⟨[⟨e, s⟩], rfl, rfl⟩

/-- A line that was queued for the slot. -/
theorem Sends.queueTo {via : Via} {line : ServerLine F} {i : Slot} {w v : Server F}
    (h : queueTo via line i w = (true, v)) : Sends i w v [via.sent line] := by
  obtain ⟨p, _, rfl⟩ := queueTo_true h
  have hline : queuedLine i ⟨.queued i via line, w.state.setPlayer i p⟩ = [via.sent line] :=
    if_pos rfl
  rw [← hline]
  exact Sends.record ..

/-- Lines that were queued for the slot in a row. -/
theorem Sends.queueSeq {via : Via} {i : Slot} (lines : List (Server F → ServerLine F))
    {w v : Server F} (h : queueSeq via lines i w = (true, v)) :
    ∃ sent, Sends i w v sent ∧
      List.Forall₂ (fun text line => ∃ u, text = via.sent (line u)) sent lines := by
  induction lines generalizing w with
  | nil =>
    obtain rfl : w = v := congrArg Prod.snd h
    exact ⟨[], .refl i w, .nil⟩
  | cons line lines ih =>
    unfold BattleRoyale.queueSeq at h
    split at h
    · rename_i u hqueued
      obtain ⟨sent, hsends, hsent⟩ := ih h
      exact ⟨_, (Sends.queueTo hqueued).trans hsends, .cons ⟨w, rfl⟩ hsent⟩
    · cases h

end Queued

section Dispatch

/-- One of the words is at the head of the line. -/
def headedBy (words : List (List Char)) (line : List Char) : Bool :=
  words.any (fun word => word.isPrefixOf line)

/-- The words of the lines that change the client's players. -/
def playerWords : List (List Char) :=
  ["MATCH_RESET".toList, "LEFT".toList, "STATE_BEGIN".toList, "PLAYER".toList, "PAIR".toList]

/-- The words of the lines that change the client's result. -/
def resultWords : List (List Char) := ["MATCH_RESET".toList, "GAME_OVER".toList]

omit [CFloat F] in
theorem isPrefixOf_eq_false {words : List (List Char)} {word line : List Char}
    (h : headedBy words line = false) (hword : word ∈ words) : word.isPrefixOf line = false := by
  exact Bool.eq_false_iff.mpr (List.any_eq_false.mp h word hword)

/-- A line is headed by itself. -/
theorem ne_of_isPrefixOf {word line : List Char} (h : word.isPrefixOf line = false) :
    line ≠ word := by
  rintro rfl
  rw [List.isPrefixOf_iff_prefix.mpr List.prefix_rfl] at h
  cases h

/-- A format whose word is missing does not fit. -/
theorem scanNamed_eq_none {word line : List Char} (h : word.isPrefixOf line = false) :
    scanNamed word line = none := by
  simp [scanNamed, scanLiteral, h]

/-- What heads the string at the head of a buffer heads the buffer. -/
theorem headedBy_cString {words : List (List Char)} {text : List Char}
    (h : headedBy words text = false) : headedBy words (cString text) = false := by
  refine List.any_eq_false.mpr fun word hword hprefix => ?_
  have hnone := isPrefixOf_eq_false h hword
  have hlong : word <+: text :=
    (List.isPrefixOf_iff_prefix.mp hprefix).trans (List.takeWhile_prefix _)
  rw [List.isPrefixOf_iff_prefix.mpr hlong] at hnone
  cases hnone

/-- Queued texts are headed as the lines are. -/
theorem headedBy_sent {words : List (List Char)} {sent : List (List Char)}
    {lines : List (Server F → ServerLine F)}
    (h : List.Forall₂ (fun text line => ∃ u, text = Via.checked.sent (line u)) sent lines)
    (hlines : ∀ line ∈ lines, ∀ u, headedBy words (line u).text = false) :
    ∀ text ∈ sent, headedBy words text = false := by
  induction h with
  | nil => exact fun _ h => absurd h List.not_mem_nil
  | cons hline _ ih =>
    obtain ⟨u, rfl⟩ := hline
    refine List.forall_mem_cons.mpr ⟨headedBy_cString (hlines _ List.mem_cons_self u), ?_⟩
    exact ih fun line hline => hlines line (List.mem_cons_of_mem _ hline)

/-- The parts of the client's state that a line may leave alone. -/
def ClientState.result (c : ClientState F) : Bool × ℤ := (c.gameOver, c.matchResult)

/-- The players and the result. -/
def ClientState.picture (c : ClientState F) : (Slot → ClientPlayer F) × Bool × ℤ :=
  (c.players, c.result)

omit [CFloat F] in
/-- Whichever way a test goes, the picture stays or a later parser decides. -/
theorem picture_ite {p : Prop} [Decidable p] {a b c d : ClientState F}
    (ha : a.picture = c.picture) (hb : b.picture = c.picture ∨ b = d) :
    (if p then a else b).picture = c.picture ∨ (if p then a else b) = d := by
  by_cases hp : p
  · rw [if_pos hp]
    exact .inl ha
  · rw [if_neg hp]
    exact hb

/-- A line about the lobby leaves the picture alone, or is a notice. -/
theorem parseLobbyLine_cases (now : ℚ) (line : List Char) (c : ClientState F) :
    (parseLobbyLine now line c).picture = c.picture ∨
      parseLobbyLine now line c = parseNoticeLine line c := by
  unfold parseLobbyLine
  refine picture_ite rfl ?_
  cases scanCounted "LOBBY_OPEN".toList line with
  | some _ => exact .inl rfl
  | none =>
    refine picture_ite rfl ?_
    cases scanCounted "SETUP_OPEN".toList line with
    | some _ => exact .inl rfl
    | none =>
      refine picture_ite rfl ?_
      cases (scanLiteral "CHOICE_OK".toList line).bind scanChar with
      | some _ => exact .inl rfl
      | none =>
        cases (scanSpawnOk line : Option (F × F)) with
        | some _ => exact .inl rfl
        | none => exact picture_ite rfl (.inr rfl)

/-- A line for the general parser that is no reset leaves the picture alone, or is a
notice. -/
theorem parseGeneralLine_cases (now : ℚ) {line : List Char} (c : ClientState F)
    (hreset : line ≠ "MATCH_RESET".toList) :
    (parseGeneralLine now line c).picture = c.picture ∨
      parseGeneralLine now line c = parseNoticeLine line c := by
  unfold parseGeneralLine
  cases scanCounted "WELCOME".toList line with
  | some _ => exact .inl rfl
  | none =>
    simp only [if_neg hreset]
    exact picture_ite rfl (parseLobbyLine_cases now line c)

omit [CFloat F] in
/-- A notice leaves the result alone, and the players too unless somebody left. -/
theorem parseNoticeLine_picture (line : List Char) (c : ClientState F) :
    (parseNoticeLine line c).result = c.result ∧
      (scanNamed "LEFT".toList line = none → (parseNoticeLine line c).players = c.players) := by
  have hite : ∀ {p : Prop} [Decidable p] {a b : ClientState F}, a.picture = c.picture →
      (b.result = c.result ∧ (scanNamed "LEFT".toList line = none → b.players = c.players)) →
      (if p then a else b).result = c.result ∧
        (scanNamed "LEFT".toList line = none → (if p then a else b).players = c.players) := by
    intro p _ a b ha hb
    by_cases hp : p
    · rw [if_pos hp]
      exact ⟨congrArg Prod.snd ha, fun _ => congrArg Prod.fst ha⟩
    · rw [if_neg hp]
      exact hb
  unfold parseNoticeLine
  refine hite rfl (hite rfl (hite rfl (hite rfl (hite rfl (hite rfl (hite rfl (hite rfl
    (hite ?_ ?_))))))))
  · cases scanNamed "JOINED".toList line with
    | some _ => rfl
    | none => rfl
  · cases scanNamed "LEFT".toList line with
    | some _ => exact ⟨rfl, nofun⟩
    | none =>
      simp only
      split
      · exact ⟨rfl, fun _ => rfl⟩
      · exact ⟨rfl, fun _ => rfl⟩

/-- A line for the general parser that is no departure and no reset. -/
theorem parseGeneralLine_players (now : ℚ) {line : List Char} (c : ClientState F)
    (hreset : line ≠ "MATCH_RESET".toList) (hleft : scanNamed "LEFT".toList line = none) :
    (parseGeneralLine now line c).players = c.players := by
  rcases parseGeneralLine_cases now c hreset with hsame | hnotice
  · exact congrArg Prod.fst hsame
  · rw [hnotice]
    exact (parseNoticeLine_picture line c).2 hleft

/-- A line for the general parser that is no reset. -/
theorem parseGeneralLine_result (now : ℚ) {line : List Char} (c : ClientState F)
    (hreset : line ≠ "MATCH_RESET".toList) :
    (parseGeneralLine now line c).result = c.result := by
  rcases parseGeneralLine_cases now c hreset with hsame | hnotice
  · exact congrArg Prod.snd hsame
  · rw [hnotice]
    exact (parseNoticeLine_picture line c).1

/-- A line for the snapshot parser that is about no player. -/
theorem parseStateSnapshotLine_players (now : ℚ) {line : List Char} (c : ClientState F)
    (hbegin : line ≠ "STATE_BEGIN".toList) (hplayer : "PLAYER".toList.isPrefixOf line = false)
    (hpair : "PAIR".toList.isPrefixOf line = false) :
    (parseStateSnapshotLine now line c).players = c.players := by
  have hscan : (scanPlayerLine line : Option (ClientPlayer F)) = none := by
    rw [scanPlayerLine, scanLiteral, hplayer]
    rfl
  have hpair' : scanPair line = none := by
    rw [scanPair, scanLiteral, hpair]
    rfl
  have hresult : (parseResultLine line c).players = c.players := by
    unfold parseResultLine
    repeat' split
    all_goals rfl
  simp only [parseStateSnapshotLine, if_neg hbegin, hscan, hpair']
  repeat' split
  all_goals first | rfl | exact hresult

/-- A line for the snapshot parser that is no result. -/
theorem parseStateSnapshotLine_result (now : ℚ) {line : List Char} (c : ClientState F)
    (hover : scanNamed "GAME_OVER".toList line = none) :
    (parseStateSnapshotLine now line c).result = c.result := by
  have hresult : (parseResultLine line c).result = c.result := by
    simp only [parseResultLine, hover]
    split <;> rfl
  unfold parseStateSnapshotLine
  repeat' split
  all_goals first | rfl | exact hresult

/-- Lines with other words leave the players alone. -/
theorem handleServerLine_players (now : ℚ) {line : List Char} (c : ClientState F)
    (h : headedBy playerWords line = false) :
    (handleServerLine now line c).players = c.players := by
  have hword : ∀ word ∈ playerWords, word.isPrefixOf line = false :=
    fun word hmem => isPrefixOf_eq_false h hmem
  simp only [playerWords, List.forall_mem_cons] at hword
  obtain ⟨hreset, hleft, hbegin, hplayer, hpair, _⟩ := hword
  unfold handleServerLine
  split
  · rfl
  · exact parseGeneralLine_players now c (ne_of_isPrefixOf hreset) (scanNamed_eq_none hleft)
  · exact parseStateSnapshotLine_players now c (ne_of_isPrefixOf hbegin) hplayer hpair

/-- Lines with other words leave the result alone. -/
theorem handleServerLine_result (now : ℚ) {line : List Char} (c : ClientState F)
    (h : headedBy resultWords line = false) :
    (handleServerLine now line c).result = c.result := by
  have hword : ∀ word ∈ resultWords, word.isPrefixOf line = false :=
    fun word hmem => isPrefixOf_eq_false h hmem
  simp only [resultWords, List.forall_mem_cons] at hword
  obtain ⟨hreset, hover, _⟩ := hword
  unfold handleServerLine
  split
  · rfl
  · exact parseGeneralLine_result now c (ne_of_isPrefixOf hreset)
  · exact parseStateSnapshotLine_result now c (scanNamed_eq_none hover)

/-- What no line of a list changes, the list does not change. -/
theorem feed_keeps {α : Type} (part : ClientState F → α) {words : List (List Char)}
    (hkeep : ∀ (now : ℚ) {line : List Char} (c : ClientState F),
      headedBy words line = false → part (handleServerLine now line c) = part c)
    (lines : List (List Char)) (clock : ℕ → ℚ) (c : ClientState F)
    (h : ∀ line ∈ lines, headedBy words line = false) : part (c.feed clock lines) = part c := by
  induction lines generalizing clock c with
  | nil => rfl
  | cons line lines ih =>
    rw [ClientState.feed, ih _ _ fun l hl => h l (List.mem_cons_of_mem _ hl)]
    exact hkeep _ c (h line List.mem_cons_self)

/-- Lines in order, none of which changes the result. -/
theorem feed_result (lines : List (List Char)) (clock : ℕ → ℚ) (c : ClientState F)
    (h : ∀ line ∈ lines, headedBy resultWords line = false) :
    (c.feed clock lines).result = c.result :=
  feed_keeps ClientState.result handleServerLine_result lines clock c h

/-- Lines in order, none of which changes the players. -/
theorem feed_players (lines : List (List Char)) (clock : ℕ → ℚ) (c : ClientState F)
    (h : ∀ line ∈ lines, headedBy playerWords line = false) :
    (c.feed clock lines).players = c.players :=
  feed_keeps ClientState.players handleServerLine_players lines clock c h

/-- Lines after lines. -/
theorem feed_append (lines more : List (List Char)) (clock : ℕ → ℚ) (c : ClientState F) :
    c.feed clock (lines ++ more) =
      (c.feed clock lines).feed (fun k => clock (k + lines.length)) more := by
  induction lines generalizing clock c with
  | nil => rfl
  | cons line lines ih =>
    rw [List.cons_append, ClientState.feed, ClientState.feed, ih]
    congr 1

end Dispatch

section Result

/-- The client shows the end of the match and this result, whatever it showed before. -/
def Understood (F : Type) [CFloat F] (lines : List (List Char)) (outcome : ℤ) : Prop :=
  ∀ (c : ClientState F) (clock : ℕ → ℚ), (c.feed clock lines).result = (true, outcome)

/-- The value of `match_result` for a verdict. -/
def Verdict.outcome : Verdict → ℤ
  | .win => 1
  | .lose => -1
  | .watched => 0

/-- The client after `memset` to zero. -/
def ClientState.zero : ClientState F where
  players := clearPlayers
  statusText := []
  pendingName := []
  myName := []
  matchResult := 0
  nameRegistered := false
  nameCheckPending := false
  repickPhase := false
  gameOver := false
  canAttemptJoin := false
  joinedMatch := false
  choiceConfirmed := false
  spawnConfirmed := false
  selectedChoice := '\x00'
  lobbyEndTime := 0
  setupEndTime := 0
  roundEndTime := 0

/-- The result line of a player is understood. -/
theorem handleServerLine_verdict (now : ℚ) (c : ClientState F) {v : Verdict}
    (h : v ≠ .watched) : (handleServerLine now v.text c).result = (true, v.outcome) := by
  cases v with
  | win => rfl
  | lose => rfl
  | watched => exact absurd rfl h

/-- The result line of a spectator fits no entry of the table. -/
theorem handleServerLine_watched (now : ℚ) (c : ClientState F) :
    handleServerLine now Verdict.watched.text c = c := by
  have hnone : dispatch.find? (lineMatches Verdict.watched.text) = none := by decide
  rw [handleServerLine, hnone]

/-- The lines after the result line do not matter, when they are about something else. -/
theorem understood_iff {v : Verdict} (before after : List (List Char))
    (hbefore : ∀ line ∈ before, headedBy resultWords line = false)
    (hafter : ∀ line ∈ after, headedBy resultWords line = false) :
    Understood F (before ++ v.text :: after) v.outcome ↔ v ≠ .watched := by
  constructor
  · rintro h rfl
    have hover := congrArg Prod.fst (h .zero fun _ => 0)
    rw [feed_append, ClientState.feed, handleServerLine_watched, feed_result after _ _ hafter,
      feed_result before _ _ hbefore] at hover
    cases hover
  · intro hv c clock
    rw [feed_append, ClientState.feed, feed_result after _ _ hafter,
      handleServerLine_verdict _ _ hv]

/-- A verdict is a C string. -/
theorem cString_verdict (v : Verdict) : cString v.text = v.text := by
  cases v <;> decide

/-- The result line of another slot. -/
theorem announceResult_other {i j : Slot} (hij : j ≠ i) (w : Server F) :
    Sends i w (announceResult w j) [] ∧
      (announceResult w j).state.players i = w.state.players i := by
  have hquiet : ∀ (e : Event F) (p : Player F), queuedLine i ⟨e, w.state.setPlayer j p⟩ = [] →
      Sends i w (w.record e (w.state.setPlayer j p)) [] ∧
        (w.state.setPlayer j p).players i = w.state.players i := by
    intro e p he
    exact ⟨he ▸ Sends.record i w e _, ServerState.setPlayer_of_ne _ _ hij.symm⟩
  unfold announceResult queueGameOverResult
  split
  case isFalse => exact ⟨.refl i w, rfl⟩
  case isTrue hconn =>
    cases (w.state.players j).verdict with
    | none => exact ⟨.refl i w, rfl⟩
    | some v =>
      simp only
      cases hq : queueTo .verdict (.gameOver v) j w with
      | mk ok u =>
        cases ok with
        | true =>
          obtain ⟨p, _, rfl⟩ := queueTo_true hq
          exact hquiet _ p (if_neg hij)
        | false =>
          obtain ⟨_, rfl⟩ := queueTo_false hq
          have hrefused : Sends i w (w.record (.refused j .verdict (.gameOver v)) w.state) [] :=
            Sends.record ..
          have hdrop :
              dropSlot false j (w.record (.refused j .verdict (.gameOver v)) w.state) = _ :=
            dropSlot_of_connected hconn
          simp only [dropSilently, hdrop]
          exact ⟨hrefused.trans (Sends.record ..), ServerState.setPlayer_of_ne _ _ hij.symm⟩

/-- The result lines of other slots. -/
theorem foldl_announceResult_other {i : Slot} (js : List Slot) (hjs : i ∉ js) (w : Server F) :
    Sends i w (js.foldl announceResult w) [] ∧
      (js.foldl announceResult w).state.players i = w.state.players i := by
  induction js generalizing w with
  | nil => exact ⟨.refl i w, rfl⟩
  | cons j js ih =>
    obtain ⟨hij, hjs⟩ := List.ne_and_not_mem_of_not_mem_cons hjs
    obtain ⟨hsends, hsame⟩ := announceResult_other hij.symm w
    obtain ⟨hsends', hsame'⟩ := ih hjs (announceResult w j)
    exact ⟨hsends.trans hsends', hsame'.trans hsame⟩

/-- The result line of a client that stays. -/
theorem announceResult_self {i : Slot} {w : Server F} {v : Verdict}
    (hv : (w.state.players i).verdict = some v)
    (hstays : ((announceResult w i).state.players i).connected = true) :
    Sends i w (announceResult w i) [v.text] := by
  have htext : Via.verdict.sent (.gameOver v : ServerLine F) = v.text := cString_verdict v
  have hconn : (w.state.players i).connected = true := by
    by_contra hfree
    rw [announceResult, if_neg hfree] at hstays
    exact hfree hstays
  unfold announceResult queueGameOverResult at hstays ⊢
  rw [if_pos hconn, hv] at hstays ⊢
  simp only at hstays ⊢
  cases hq : queueTo .verdict (.gameOver v) i w with
  | mk ok u =>
    cases ok with
    | true => exact htext ▸ Sends.queueTo hq
    | false =>
      rw [hq] at hstays
      exact absurd hstays (by simp [dropSilently, dropSlot_connected])

/-- `end_game` queues one line for a registered client that stays. -/
theorem endGame_sends {i : Slot} {w : Server F} {v : Verdict}
    (hv : (w.state.players i).verdict = some v)
    (hstays : ((endGame w).state.players i).connected = true) :
    Sends i w (endGame w) [v.text] := by
  obtain ⟨before, after, hslots⟩ := List.append_of_mem (mem_slots i)
  have hnodup := slots_nodup
  rw [hslots, List.nodup_append] at hnodup
  obtain ⟨_, hrest, hapart⟩ := hnodup
  have hbefore : i ∉ before := fun hmem => hapart i hmem i List.mem_cons_self rfl
  have hafter : i ∉ after := (List.nodup_cons.mp hrest).1
  unfold endGame at hstays ⊢
  rw [hslots, List.foldl_append, List.foldl_cons] at hstays ⊢
  have hended : Sends i w (w.record .gameEnded { w.state with phase := .gameOver }) [] :=
    Sends.record ..
  obtain ⟨hsends, hsame⟩ := foldl_announceResult_other before hbefore
    (w.record .gameEnded { w.state with phase := .gameOver })
  rw [(foldl_announceResult_other after hafter _).2] at hstays
  have hself := announceResult_self (by rw [hsame]; exact hv) hstays
  exact ((hended.trans hsends).trans hself).trans (foldl_announceResult_other after hafter _).1

/-- A snapshot in the phase after the match, with room for all of it. -/
theorem queueGameStateForPlayer_gameOver {i : Slot} {w : Server F} {v : Verdict}
    (hphase : w.state.phase = .gameOver) (hv : (w.state.players i).verdict = some v)
    (hroom : (queueGameStateForPlayer i w).1 = true) :
    ∃ before after, Sends i w (queueGameStateForPlayer i w).2 (before ++ v.text :: after) ∧
      (∀ line ∈ before, headedBy resultWords line = false) ∧
      ∀ line ∈ after, headedBy resultWords line = false := by
  obtain ⟨sent, hsends, hsent⟩ :=
    Sends.queueSeq (snapshotLines w.state i) (Prod.ext hroom rfl)
  have hlines : snapshotLines w.state i = (fun _ => .stateBegin) :: (fun _ => .gameOver v) ::
      ((slots.filter (fun j => (w.state.players j).isAdmitted)).map
        (fun j _ => (w.state.players j).line) ++ [fun _ => .stateEnd]) := by
    rw [snapshotLines, phaseLines, hphase, hv]
    rfl
  rw [hlines] at hsent
  cases hsent with
  | cons hbegin hsent =>
    cases hsent with
    | @cons result _ after _ hresult hsent =>
      obtain ⟨_, rfl⟩ := hbegin
      obtain ⟨_, rfl⟩ := hresult
      have htext : Via.checked.sent (.gameOver v : ServerLine F) = v.text := cString_verdict v
      refine ⟨_, after, htext ▸ hsends, List.forall_mem_singleton.mpr (by rfl), ?_⟩
      refine headedBy_sent hsent fun line hline u => ?_
      rcases List.mem_append.mp hline with hline | hline
      · obtain ⟨j, _, rfl⟩ := List.mem_map.mp hline
        rfl
      · obtain rfl := List.mem_singleton.mp hline
        rfl

/-- What `match_result` should be for a player at the end of the match. -/
def Player.matchResult (p : Player F) : ℤ :=
  if p.isAdmitted then if p.alive || p.waiting then 1 else -1 else 0

omit [CFloat F] in
/-- The verdict on a registered player. -/
theorem Player.verdict_of_isRegistered {p : Player F} (h : p.isRegistered = true) :
    ∃ v, p.verdict = some v ∧ v.outcome = p.matchResult ∧ (v ≠ .watched ↔ p.isAdmitted = true) := by
  obtain ⟨hconn, hreg⟩ := isRegistered_iff.mp h
  unfold verdict matchResult
  simp only [hconn, hreg, Bool.not_true, Bool.or_self, Bool.false_eq_true, if_false]
  cases p.isAdmitted with
  | false => exact ⟨.watched, rfl, rfl, by simp⟩
  | true =>
    cases p.alive || p.waiting with
    | false => exact ⟨.lose, rfl, rfl, by simp⟩
    | true => exact ⟨.win, rfl, rfl, by simp⟩

/-- A registered client that stays connected at the end of a match is told the result by
its line, and by every later snapshot, exactly when it was admitted. -/
theorem gameOver_understood_iff (w : Server F) (i : Slot)
    (hreg : (w.state.players i).isRegistered = true) :
    (((endGame w).state.players i).connected = true →
      (Understood F (linesFor i (added w (endGame w))) (w.state.players i).matchResult ↔
        (w.state.players i).isAdmitted = true)) ∧
    (w.state.phase = .gameOver → (queueGameStateForPlayer i w).1 = true →
      (Understood F (linesFor i (added w (queueGameStateForPlayer i w).2))
          (w.state.players i).matchResult ↔
        (w.state.players i).isAdmitted = true)) := by
  obtain ⟨v, hv, houtcome, hadmitted⟩ := Player.verdict_of_isRegistered hreg
  rw [← houtcome, ← hadmitted]
  constructor
  · intro hstays
    rw [(endGame_sends hv hstays).eq]
    exact understood_iff [] [] (fun _ h => absurd h List.not_mem_nil)
      (fun _ h => absurd h List.not_mem_nil)
  · intro hphase hroom
    obtain ⟨before, after, hsends, hbefore, hafter⟩ :=
      queueGameStateForPlayer_gameOver hphase hv hroom
    rw [hsends.eq]
    exact understood_iff before after hbefore hafter

omit [CFloat F] in
/-- Whoever is alive at the end wins. -/
theorem Player.matchResult_of_isAlive {p : Player F} (h : p.isAlive = true) :
    p.matchResult = 1 := by
  obtain ⟨hadmitted, halive⟩ := isAlive_iff.mp h
  simp [matchResult, hadmitted, halive]

/-- The winner of a duel that the other player has left. -/
theorem duel_winner_left :
    (serverAfter (lateClock 60) (duel ++ say 1 "QUIT")).state.phase = .gameOver ∧
      ((serverAfter (lateClock 60) (duel ++ say 1 "QUIT")).state.players 0).isAlive = true ∧
      (queueGameStateForPlayer 0
        (serverAfter (lateClock 60) (duel ++ say 1 "QUIT"))).1 = true := by
  decide +kernel

/-- The winner is told of the victory. -/
theorem gameOver_understood_iff_winner :
    Understood Exact (linesFor 0 (added (serverAfter (lateClock 60) duel)
        (endGame (serverAfter (lateClock 60) duel)))) 1 ∧
      Understood Exact (linesFor 0 (added (serverAfter (lateClock 60) (duel ++ say 1 "QUIT"))
        (queueGameStateForPlayer 0 (serverAfter (lateClock 60) (duel ++ say 1 "QUIT"))).2)) 1 := by
  obtain ⟨_, halive, _, hstays, _⟩ := duel_state
  obtain ⟨hphase, halive', hroom⟩ := duel_winner_left
  have hadmitted := Player.isAdmitted_of_isAlive halive
  have hadmitted' := Player.isAdmitted_of_isAlive halive'
  have hduel := gameOver_understood_iff _ _ (Player.isRegistered_of_isAdmitted hadmitted)
  have hover := gameOver_understood_iff _ _ (Player.isRegistered_of_isAdmitted hadmitted')
  rw [Player.matchResult_of_isAlive halive] at hduel
  rw [Player.matchResult_of_isAlive halive'] at hover
  exact ⟨(hduel.1 hstays).mpr hadmitted, (hover.2 hphase hroom).mpr hadmitted'⟩

/-- A duel with a registered spectator in slot 2. -/
def watchedDuel : List Step :=
  join 0 3 "A" "R" "2 2" ++ join 1 4 "B" "S" "5 5" ++
    .accept 5 :: (say 2 "HELLO C" ++ [.timers 0])

/-- The server at the end of this duel. -/
def watchedEnd : Server Exact := serverAfter (lateClock 70) (watchedDuel ++ say 1 "QUIT")

/-- Neither the lines of the whole match nor a snapshot tell the spectator of its end. -/
theorem watchedEnd_lines :
    watchedEnd.state.phase = .gameOver ∧ (watchedEnd.state.players 2).isRegistered = true ∧
      (watchedEnd.state.players 2).matchResult = 0 ∧
      ((ClientState.zero : ClientState Exact).feed (fun _ => 0)
        (linesFor 2 watchedEnd.log)).gameOver = false ∧
      (queueGameStateForPlayer 2 watchedEnd).1 = true ∧
      ((ClientState.zero : ClientState Exact).feed (fun _ => 0) (linesFor 2 (added watchedEnd
        (queueGameStateForPlayer 2 watchedEnd).2))).gameOver = false := by
  decide +kernel

/-- The spectator of a match is not told of its end. -/
theorem spectator_not_told :
    Reached true watchedEnd ∧ watchedEnd.state.phase = .gameOver ∧
      (watchedEnd.state.players 2).isRegistered = true ∧
      ¬Understood Exact (linesFor 2 watchedEnd.log) (watchedEnd.state.players 2).matchResult ∧
      ¬Understood Exact (linesFor 2 (added watchedEnd (queueGameStateForPlayer 2 watchedEnd).2))
        (watchedEnd.state.players 2).matchResult := by
  obtain ⟨hphase, hreg, _, hmatch, _, hsnapshot⟩ := watchedEnd_lines
  refine ⟨reached_serverAfter _ (by simp [watchedDuel, Step.inLoop]), hphase, hreg,
    fun h => ?_, fun h => ?_⟩
  · have hover := congrArg Prod.fst (h .zero fun _ => 0)
    rw [ClientState.result, hmatch] at hover
    cases hover
  · have hover := congrArg Prod.fst (h .zero fun _ => 0)
    rw [ClientState.result, hsnapshot] at hover
    cases hover

end Result

end BattleRoyale
