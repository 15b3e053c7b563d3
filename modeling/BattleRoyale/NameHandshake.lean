import BattleRoyale.Transport
import BattleRoyale.Rematch

/-!
# The name handshake

The client sends the name from its command line with HELLO and keeps a copy. The server
reads the name as the first word of the line and answers with an identifier or the reason
of a failure, never with the name. So the two sides agree about the name exactly when the
copy is that word already.
-/

namespace BattleRoyale

open Recorded

variable {F : Type}

/-- The part of the client that `maybe_send_hello` works on: what the server's lines change,
the name that was typed, and the flag for the next GET_STATE. -/
structure Client (F : Type) where
  /-- What the server's lines change. -/
  state : ClientState F
  /-- The text of the name box. -/
  nameInput : List Char
  /-- GET_STATE was sent and nothing since has made it necessary again. -/
  stateRequestSent : Bool

/-- The status line is set. -/
def Client.setStatus (c : Client F) (text : List Char) : Client F :=
  { c with state := c.state.setStatus text }

/-- `init_client_state`. -/
def initClientState [CFloat F] (initialName : List Char) : Client F where
  state := (ClientState.zero : ClientState F).setStatus "Connected".toList
  nameInput := initialName.take (MAX_NAME_LENGTH - 1)
  stateRequestSent := false

/-- The loop of `send_line`, for the results of its calls of `send`: the bytes that were
accepted, and whether these are all. Where the results run out, `send` fails. -/
def sendAll : List SendResult → List Char → List Char × Bool
  | _, [] => ([], true)
  | .accepted n :: results, c :: bytes =>
    if n = 0 then ([], false)
    else
      let (sent, done) := sendAll results ((c :: bytes).drop n)
      ((c :: bytes).take n ++ sent, done)
  | _, _ :: _ => ([], false)

/-- `send_line`: the bytes that were accepted, and whether it returned 0. -/
def sendLine (results : List SendResult) (text : List Char) : List Char × Bool :=
  if MAX_LINE - 2 ≤ text.length then ([], false) else sendAll results (text ++ ['\n'])

/-- `send_command_checked`: the bytes that were accepted, and whether it returned 0. -/
def sendCommandChecked (results : List SendResult) (text : List Char) (c : Client F) :
    (List Char × Bool) × Client F :=
  if MAX_LINE ≤ text.length then
    (([], false), c.setStatus "Outgoing command was too long.".toList)
  else
    match sendLine results text with
    | (bytes, true) => ((bytes, true), c)
    | (bytes, false) => ((bytes, false), c.setStatus "Failed to send command to server.".toList)

/-- `maybe_send_hello`: the bytes that were accepted. -/
def maybeSendHello (results : List SendResult) (c : Client F) : List Char × Client F :=
  if c.state.nameRegistered || c.state.nameCheckPending || c.nameInput.isEmpty then ([], c)
  else
    let pendingName := c.nameInput.take (MAX_NAME_LENGTH - 1)
    let c := { c with state := { c.state with pendingName := pendingName } }
    match sendCommandChecked results ("HELLO ".toList ++ pendingName) c with
    | ((bytes, false), c) => (bytes, c)
    | ((bytes, true), c) =>
      (bytes, { c with
        state := { c.state with nameCheckPending := true }.setStatus
          ("Checking name '".toList ++ pendingName ++ "'...".toList)
        stateRequestSent := false })

/-- The first line of these bytes is popped and handled as a line of slot `i`. -/
def serveBytes [CFloat F] (i : Slot) (bytes : List Char) (w : Server F) : Server F :=
  match ({ w.state.players i with inbuf := bytes }).popLine MAX_LINE with
  | none => w
  | some (line, _) => handleCommand i line w

/-- The handshake: the client sends HELLO to a socket that takes a whole line at once, the
server handles the line, and the client reads every line that was queued in reply. -/
def nameHandshake [CFloat F] (initialName : List Char) (i : Slot) (clock : ℕ → ℚ)
    (w : Server F) : ClientState F × Server F :=
  let (bytes, c) := maybeSendHello [.accepted MAX_LINE] (initClientState initialName)
  let v := serveBytes i bytes w
  (c.state.feed clock (linesFor i (added w v)), v)

/-- The client and the server agree about the name of the connection. -/
structure NameAgreed (c : ClientState F) (p : Player F) : Prop where
  /-- The client waits for no answer. -/
  answered : c.nameCheckPending = false
  /-- The client takes its name for registered exactly when it is. -/
  registered : c.nameRegistered = p.registered
  /-- The registered name is the one the client shows. -/
  named : p.registered = true → c.myName = p.name

/-- The part of a name that `sscanf` reads with `%31s`. -/
def firstWord (name : List Char) : Option (List Char) :=
  (scanWord (MAX_NAME_LENGTH - 1) name).map Prod.fst

/-- The first word of the name is the whole name, or a name that is taken. -/
def KeptOrTaken (s : ServerState F) (name : List Char) : Prop :=
  match firstWord name with
  | none => False
  | some word => word = name ∨ (findName s word).isSome

section Words

/-- Blanks before the first word do not matter. -/
theorem firstWord_dropBlanks (text : List Char) :
    firstWord (text.dropWhile (· = ' ')) = firstWord text := by
  have hskip : skipSpace (text.dropWhile (· = ' ')) = skipSpace text := by
    induction text with
    | nil => rfl
    | cons c text ih =>
      by_cases hc : c = ' '
      · subst hc
        exact ih
      · rw [List.dropWhile_cons_of_neg (by simpa using hc)]
  simp only [firstWord, scanWord, hskip]

/-- A carriage return after the text does not matter. -/
theorem firstWord_return (text : List Char) : firstWord (text ++ ['\r']) = firstWord text := by
  have hend : ∀ text : List Char, (text ++ ['\r']).takeWhile (fun c => !isSpace c) =
      text.takeWhile (fun c => !isSpace c) := by
    intro text
    rw [List.takeWhile_append]
    split
    · rename_i hall
      rw [(List.takeWhile_prefix _).eq_of_length hall]
      exact List.append_nil text
    · rfl
  have hword : (skipSpace (text ++ ['\r'])).takeWhile (fun c => !isSpace c) =
      (skipSpace text).takeWhile (fun c => !isSpace c) := by
    induction text with
    | nil => rfl
    | cons c text ih =>
      by_cases hc : isSpace c = true
      · rw [List.cons_append, skipSpace, skipSpace, List.dropWhile_cons_of_pos hc,
          List.dropWhile_cons_of_pos hc]
        exact ih
      · rw [List.cons_append, skipSpace, skipSpace, List.dropWhile_cons_of_neg hc,
          List.dropWhile_cons_of_neg hc]
        exact hend (c :: text)
  simp only [firstWord, scanWord, hword]
  split <;> rfl

/-- The handler gets the first word of the name. -/
theorem parse_helloLine (name : List Char) : ∃ args,
    parseCommand (helloLine name) 16 = some ("HELLO".toList, args) ∧
      (args.bind (scanWord (MAX_NAME_LENGTH - 1))).map Prod.fst = firstWord name := by
  rw [parseCommand_helloLine, ← firstWord_dropBlanks]
  cases name.dropWhile (· = ' ') with
  | nil => exact ⟨none, rfl, rfl⟩
  | cons c text => exact ⟨some (c :: text), rfl, rfl⟩

/-- The line that the server pops from HELLO leads to the same word. -/
theorem popLine_helloLine {F : Type} (p : Player F) {name : List Char} (hne : name ≠ [])
    (hlen : name.length < MAX_NAME_LENGTH) (hline : '\n' ∉ name) (hzero : '\x00' ∉ name)
    (hin : p.inbuf = helloLine name ++ ['\n']) : ∃ line q args,
    p.popLine MAX_LINE = some (line, q) ∧
      parseCommand (cString line) 16 = some ("HELLO".toList, args) ∧
      (args.bind (scanWord (MAX_NAME_LENGTH - 1))).map Prod.fst = firstWord name := by
  have hsegment : '\n' ∉ helloLine name := by
    simp only [helloLine_eq, List.mem_append, not_or]
    exact ⟨fun h => by simp at h, hline⟩
  rw [Player.popLine_append MAX_LINE hsegment hin]
  have hcut : ∀ text : List Char, text.length ≤ name.length → '\x00' ∉ text →
      cString ((helloLine text).take (MAX_LINE - 1)) = helloLine text := by
    intro text hshort htext
    have htake : (helloLine text).take (MAX_LINE - 1) = helloLine text := by
      have hhead : "HELLO ".toList.length = 6 := rfl
      refine List.take_of_length_le ?_
      simp only [helloLine_eq, List.length_append, hhead, MAX_LINE, MAX_NAME_LENGTH] at hlen ⊢
      omega
    rw [htake]
    refine List.takeWhile_eq_self_iff.mpr fun c hc => ?_
    rcases List.mem_append.mp hc with hword | hc
    · have hall : "HELLO ".toList.all (fun c => c ≠ '\x00') = true := rfl
      exact List.all_eq_true.mp hall c hword
    · exact decide_eq_true fun h => htext (h ▸ hc)
  have hlast : (helloLine name).getLast? = name.getLast? := by
    rw [helloLine_eq, List.getLast?_append_of_ne_nil _ hne]
  unfold lineOf
  rw [hlast]
  by_cases hreturn : name.getLast? = some '\r'
  · -- the carriage return at the end of the name is lost as the end of the line
    obtain ⟨text, rfl⟩ := List.getLast?_eq_some_iff.mp hreturn
    obtain ⟨args, hparse, hword⟩ := parse_helloLine text
    have hdrop : (helloLine (text ++ ['\r'])).dropLast = helloLine text := by
      rw [helloLine_eq, ← List.append_assoc, List.dropLast_concat]
      rfl
    rw [if_pos hreturn, hdrop]
    refine ⟨_, _, args, rfl, ?_, hword.trans (firstWord_return text).symm⟩
    rw [hcut text (by simp) fun h => hzero (List.mem_append_left _ h)]
    exact hparse
  · obtain ⟨args, hparse, hword⟩ := parse_helloLine name
    rw [if_neg hreturn]
    exact ⟨_, _, args, rfl, (hcut name le_rfl hzero).symm ▸ hparse, hword⟩

end Words

section Answers

variable [CFloat F]

/-- The entry says that a line found no room in the buffer of slot `i`. -/
def isRefusedTo (i : Slot) (x : Entry (ServerState F) (Event F)) : Bool :=
  match x.event with
  | .refused j _ _ => decide (j = i)
  | _ => false

/-- The buffer of slot `i` had room for all lines. -/
def NoneRefused (i : Slot) (log : Log F) : Prop := ∀ x ∈ log, isRefusedTo i x = false

/-- If none is refused, these lines are queued for slot `i`. -/
def Replies (i : Slot) (w v : Server F) (lines : List (List Char)) : Prop :=
  ∃ new, v.log = new ++ w.log ∧ (NoneRefused i new → linesFor i new = lines)

theorem Replies.of_sends {i : Slot} {w v : Server F} {lines : List (List Char)}
    (h : Sends i w v lines) : Replies i w v lines := by
  obtain ⟨new, hlog, hlines⟩ := h
  exact ⟨new, hlog, fun _ => hlines⟩

theorem Replies.eq {i : Slot} {w v : Server F} {lines : List (List Char)}
    (h : Replies i w v lines) (hroom : NoneRefused i (added w v)) :
    linesFor i (added w v) = lines := by
  obtain ⟨new, hlog, hlines⟩ := h
  rw [added_eq hlog] at hroom ⊢
  exact hlines hroom

/-- One call after another. -/
theorem Replies.trans {i : Slot} {u v w : Server F} {lines more : List (List Char)}
    (h : Replies i u v lines) (hnext : Replies i v w more) : Replies i u w (lines ++ more) := by
  obtain ⟨new, hlog, hlines⟩ := h
  obtain ⟨new', hlog', hlines'⟩ := hnext
  refine ⟨new' ++ new, by rw [hlog', hlog, List.append_assoc], fun hroom => ?_⟩
  rw [linesFor, gather_append, ← linesFor, ← linesFor,
    hlines fun x hx => hroom x (List.mem_append_right _ hx),
    hlines' fun x hx => hroom x (List.mem_append_left _ hx)]

/-- One answer. -/
theorem reply_replies (line : ServerLine F) (i : Slot) (w : Server F) :
    Replies i w (reply line i w) [line.text] := by
  unfold reply
  cases hq : queueTo .line line i w with
  | mk ok v =>
    cases ok with
    | true => exact .of_sends (Sends.queueTo hq)
    | false =>
      obtain ⟨_, rfl⟩ := queueTo_false hq
      exact ⟨[⟨.refused i .line line, w.state⟩], rfl,
        fun hroom => absurd (hroom _ List.mem_cons_self) (by simp [isRefusedTo])⟩

/-- The words of lines that change what the client knows about its name. -/
def nameWords : List (List Char) := ["WELCOME".toList, "ERROR".toList]

/-- What the client knows about its name. -/
def ClientState.naming (c : ClientState F) : Bool × Bool × List Char :=
  (c.nameRegistered, c.nameCheckPending, c.myName)

omit [CFloat F] in
/-- Both branches leave the same knowledge of the name. -/
theorem naming_ite {p : Prop} [Decidable p] {a b : ClientState F} {n : Bool × Bool × List Char}
    (ha : p → a.naming = n) (hb : ¬p → b.naming = n) : (if p then a else b).naming = n := by
  split
  · exact ha ‹p›
  · exact hb ‹¬p›

/-- A line about the lobby keeps the client's name. -/
theorem parseLobbyLine_naming (now : ℚ) {line : List Char} (c : ClientState F)
    (herror : "ERROR".toList.isPrefixOf line = false) :
    (parseLobbyLine now line c).naming = c.naming := by
  have hno : ∀ rest : List Char, ("ERROR".toList ++ rest).isPrefixOf line = false := by
    intro rest
    by_contra hprefix
    rw [Bool.not_eq_false, List.isPrefixOf_iff_prefix] at hprefix
    rw [List.isPrefixOf_iff_prefix.mpr ((List.prefix_append _ _).trans hprefix)] at herror
    cases herror
  have hnotice : (parseNoticeLine line c).naming = c.naming := by
    have hduplicate : "ERROR duplicate_name".toList.isPrefixOf line = false :=
      hno " duplicate_name".toList
    have hregistered : "ERROR already_registered".toList.isPrefixOf line = false :=
      hno " already_registered".toList
    have hfirst : "ERROR register_first".toList.isPrefixOf line = false :=
      hno " register_first".toList
    unfold parseNoticeLine
    rw [hduplicate, hregistered, hfirst]
    iterate 5 refine naming_ite (fun _ => rfl) fun _ => ?_
    iterate 3 refine naming_ite (fun h => absurd h Bool.false_ne_true) fun _ => ?_
    refine naming_ite (fun _ => ?_) fun _ => ?_
    · cases scanNamed "JOINED".toList line <;> rfl
    · cases scanNamed "LEFT".toList line with
      | none => exact naming_ite (fun _ => rfl) fun _ => rfl
      | some name => rfl
  unfold parseLobbyLine
  repeat' split
  all_goals first | rfl | exact hnotice

/-- A line of the snapshot parser keeps the client's name. -/
theorem parseStateSnapshotLine_naming (now : ℚ) (line : List Char) (c : ClientState F) :
    (parseStateSnapshotLine now line c).naming = c.naming := by
  have hresult : (parseResultLine line c).naming = c.naming := by
    unfold parseResultLine
    repeat' split
    all_goals rfl
  unfold parseStateSnapshotLine
  repeat' split
  all_goals first | rfl | exact hresult

/-- Lines with other words keep the client's name. -/
theorem handleServerLine_naming (now : ℚ) {line : List Char} (c : ClientState F)
    (h : headedBy nameWords line = false) : (handleServerLine now line c).naming = c.naming := by
  have hwelcome := isPrefixOf_eq_false h (show "WELCOME".toList ∈ nameWords from .head _)
  have herror := isPrefixOf_eq_false h
    (show "ERROR".toList ∈ nameWords from .tail _ (.head _))
  have hcounted : scanCounted "WELCOME".toList line = none := by
    rw [scanCounted, scanLiteral, hwelcome]
    rfl
  unfold handleServerLine
  split
  · rfl
  · unfold parseGeneralLine
    rw [hcounted]
    simp only
    split
    · rfl
    · split
      · rfl
      · exact parseLobbyLine_naming now c herror
  · exact parseStateSnapshotLine_naming now line c

/-- The number in WELCOME is read. -/
theorem scanInt_decimal (n : ℕ) : (scanInt (' ' :: decimal n)).isSome = true := by
  have hdigits : ∀ c ∈ Nat.toDigits 10 n, c.isDigit = true :=
    fun _ => Nat.isDigit_of_mem_toDigits (by omega) (by omega)
  have hscan : scanDigits (Nat.toDigits 10 n) = some (digitsValue (Nat.toDigits 10 n), []) := by
    have hne : Nat.toDigits 10 n ≠ [] := Nat.toDigits_ne_nil
    simp only [scanDigits, List.takeWhile_eq_self_iff.mpr hdigits,
      List.dropWhile_eq_nil_iff.mpr hdigits, List.isEmpty_eq_false_iff.mpr hne,
      Bool.false_eq_true, if_false]
  have hdecimal : decimal n = Nat.toDigits 10 n := by
    rw [decimal, if_neg (by omega), Int.natAbs_natCast]
  rw [hdecimal]
  cases htext : Nat.toDigits 10 n with
  | nil => exact absurd htext Nat.toDigits_ne_nil
  | cons c text =>
    have hc : c.isDigit = true := hdigits c (htext ▸ List.mem_cons_self)
    rw [htext] at hscan
    rw [scanInt, skipSpace_blank, skipSpace_cons (not_isSpace_of_isDigit hc)]
    split
    · rename_i htail
      obtain rfl := (List.cons.inj htail).1
      cases hc
    · rename_i htail
      obtain rfl := (List.cons.inj htail).1
      cases hc
    · rw [hscan]
      rfl

/-- After WELCOME the client takes the name it has sent for its own. -/
theorem handleServerLine_welcome (now : ℚ) (id : ℕ) (c : ClientState F)
    (hpending : c.pendingName ≠ []) :
    (handleServerLine now (ServerLine.welcome id : ServerLine F).text c).naming =
      (true, false, c.pendingName) := by
  obtain ⟨⟨n, rest⟩, hscan⟩ := Option.isSome_iff_exists.mp (scanInt_decimal id)
  have hcounted : scanCounted "WELCOME".toList (ServerLine.welcome id : ServerLine F).text =
      some n := by
    have htext : scanCounted "WELCOME".toList (ServerLine.welcome id : ServerLine F).text =
        (scanInt (' ' :: decimal id)).map Prod.fst := rfl
    rw [htext, hscan]
    rfl
  have hgeneral : handleServerLine now (ServerLine.welcome id : ServerLine F).text c =
      parseGeneralLine now (ServerLine.welcome id : ServerLine F).text c := rfl
  rw [hgeneral, parseGeneralLine, hcounted]
  simp only [if_neg hpending]
  rfl

/-- The lobby's state is told in lines with other words. -/
theorem queueLobbyStatus_replies (i : Slot) (w : Server F) : ∃ lines,
    Replies i w (queueLobbyStatusForPlayer i w) lines ∧
      ∀ line ∈ lines, headedBy nameWords line = false := by
  unfold queueLobbyStatusForPlayer
  split
  · have htype := reply_replies (F := F) .chooseType i w
    have hspawn := htype.trans (reply_replies (.chooseSpawn GRID_W GRID_H) i _)
    simp only
    split
    · refine ⟨_, hspawn.trans (reply_replies .lobbyWaiting i _), ?_⟩
      simp only [List.cons_append, List.nil_append, List.forall_mem_cons]
      exact ⟨rfl, rfl, rfl, fun _ h => absurd h List.not_mem_nil⟩
    · refine ⟨_, hspawn.trans (reply_replies (.lobbyOpen _) i _), ?_⟩
      simp only [List.cons_append, List.nil_append, List.forall_mem_cons]
      exact ⟨rfl, rfl, rfl, fun _ h => absurd h List.not_mem_nil⟩
  · exact ⟨_, reply_replies .lobbyClosed i w, List.forall_mem_singleton.mpr rfl⟩

/-- HELLO without a word, or with a name that is taken, is answered with the reason. -/
theorem handleHello_refused {i : Slot} {args : Option (List Char)} {w : Server F}
    (hnew : (w.state.players i).registered = false) :
    ((args.bind (scanWord (MAX_NAME_LENGTH - 1))).map Prod.fst = none →
      Replies i w (handleHelloCommand i args w) ["ERROR usage_HELLO_name".toList] ∧
        ((handleHelloCommand i args w).state.players i).registered = false) ∧
    ∀ word, (args.bind (scanWord (MAX_NAME_LENGTH - 1))).map Prod.fst = some word →
      (findName w.state word).isSome = true →
      Replies i w (handleHelloCommand i args w) ["ERROR duplicate_name".toList] ∧
        ((handleHelloCommand i args w).state.players i).registered = false := by
  have hsame : ∀ line, ((reply line i w).state.players i).registered = false := by
    intro line
    rw [(reply_rebuffered line i w).player i]
    exact hnew
  unfold handleHelloCommand
  simp only [hnew, Bool.false_eq_true, if_false]
  cases args.bind (scanWord (MAX_NAME_LENGTH - 1)) with
  | none => exact ⟨fun _ => ⟨reply_replies _ i w, hsame _⟩, nofun⟩
  | some scanned =>
    refine ⟨nofun, fun word hword htaken => ?_⟩
    obtain rfl : scanned.1 = word := Option.some.inj hword
    simp only [htaken, if_true]
    exact ⟨reply_replies _ i w, hsame _⟩

/-- HELLO with a new name registers the sender and is answered with WELCOME. -/
theorem handleHello_welcome {i : Slot} {args : Option (List Char)} {word : List Char}
    {w : Server F} (hnew : (w.state.players i).registered = false)
    (hword : (args.bind (scanWord (MAX_NAME_LENGTH - 1))).map Prod.fst = some word)
    (hfree : (findName w.state word).isSome = false) :
    (∃ id lines, Replies i w (handleHelloCommand i args w)
        ((ServerLine.welcome id : ServerLine F).text :: lines) ∧
      ∀ line ∈ lines, headedBy nameWords line = false) ∧
    ((handleHelloCommand i args w).state.players i).registered = true ∧
    ((handleHelloCommand i args w).state.players i).name = word := by
  obtain ⟨scanned, hscan, rfl⟩ := Option.map_eq_some_iff.mp hword
  have hhello : handleHelloCommand i args w =
      let u := w.record (.registered i) (w.state.setPlayer i
        { (w.state.players i).resetProgress with name := scanned.1, registered := true })
      queueLobbyStatusForPlayer i (reply .spectating i
        (reply (.welcome (u.state.players i).id) i u)) := by
    simp only [handleHelloCommand, hnew, hscan, hfree, Bool.false_eq_true, if_false]
  rw [hhello]
  generalize hu : w.record (.registered i) (w.state.setPlayer i
    { (w.state.players i).resetProgress with name := scanned.1, registered := true }) = u
  have hregister : Replies i w u [] := .of_sends (hu ▸ Sends.record ..)
  have hself : (u.state.players i).registered = true ∧
      (u.state.players i).name = scanned.1 := by
    subst hu
    exact ⟨congrArg Player.registered (ServerState.setPlayer_self ..),
      congrArg Player.name (ServerState.setPlayer_self ..)⟩
  obtain ⟨lines, hstatus, hlines⟩ := queueLobbyStatus_replies i
    (reply .spectating i (reply (.welcome (u.state.players i).id) i u))
  have hgreeted := (hregister.trans (reply_replies (.welcome (u.state.players i).id) i u)).trans
    (reply_replies .spectating i _)
  have htouch := ((reply_touches (.welcome (u.state.players i).id) i u).trans
    (reply_touches .spectating i _)).trans (queueLobbyStatus_touches i _)
  refine ⟨⟨(u.state.players i).id, _, hgreeted.trans hstatus, ?_⟩, ?_⟩
  · exact List.forall_mem_cons.mpr ⟨rfl, hlines⟩
  · rw [htouch.same.player i]
    exact hself

/-- A socket that takes a whole line at once. -/
theorem sendLine_whole {text : List Char} (h : text.length < MAX_LINE - 2) :
    sendLine [.accepted MAX_LINE] text = (text ++ ['\n'], true) := by
  have hline : text.length < 254 := h
  obtain ⟨c, bytes, hbytes⟩ : ∃ c bytes, text ++ ['\n'] = c :: bytes :=
    List.exists_cons_of_ne_nil (by simp)
  have hlength : (c :: bytes).length ≤ MAX_LINE := by
    rw [← hbytes, List.length_append, List.length_singleton]
    show _ ≤ 256
    omega
  rw [sendLine, if_neg (not_le.mpr h), hbytes, sendAll, if_neg (by decide),
    List.drop_of_length_le hlength, List.take_of_length_le hlength]
  simp [sendAll]

/-- The client sends the name, cut to its buffer, and keeps it. -/
theorem maybeSendHello_init {initialName : List Char} (hne : initialName ≠ []) :
    ∃ c : Client F, maybeSendHello [.accepted MAX_LINE] (initClientState initialName) =
        (helloLine (initialName.take (MAX_NAME_LENGTH - 1)) ++ ['\n'], c) ∧
      c.state.pendingName = initialName.take (MAX_NAME_LENGTH - 1) ∧
      c.state.naming = (false, true, []) := by
  have hempty : (initialName.take (MAX_NAME_LENGTH - 1)).isEmpty = false := by
    rw [List.isEmpty_eq_false_iff, ne_eq, List.take_eq_nil_iff, not_or]
    exact ⟨by decide, hne⟩
  have hcut : (initialName.take (MAX_NAME_LENGTH - 1)).take (MAX_NAME_LENGTH - 1) =
      initialName.take (MAX_NAME_LENGTH - 1) := by
    rw [List.take_take, Nat.min_self]
  have hlen : ("HELLO ".toList ++ initialName.take (MAX_NAME_LENGTH - 1)).length <
      MAX_LINE - 2 := by
    have hhead : "HELLO ".toList.length = 6 := rfl
    simp only [List.length_append, List.length_take, hhead, MAX_LINE, MAX_NAME_LENGTH]
    omega
  have hshort : ¬MAX_LINE ≤ ("HELLO ".toList ++ initialName.take (MAX_NAME_LENGTH - 1)).length := by
    omega
  have hnew : ((ClientState.zero : ClientState F).setStatus "Connected".toList).nameRegistered =
      false := rfl
  have hidle : ((ClientState.zero : ClientState F).setStatus "Connected".toList).nameCheckPending =
      false := rfl
  simp only [maybeSendHello, sendCommandChecked, sendLine_whole hlen, initClientState, hempty,
    hcut, hnew, hidle, hshort, Bool.or_false, Bool.false_eq_true, if_false]
  exact ⟨_, rfl, rfl, rfl⟩

/-- The handshake in the server's terms: HELLO with the words after the first blanks. -/
theorem nameHandshake_eq {initialName : List Char} (hne : initialName ≠ [])
    (hline : '\n' ∉ initialName) (hzero : '\x00' ∉ initialName) (i : Slot) (clock : ℕ → ℚ)
    (w : Server F) : ∃ (c : ClientState F) (args : Option (List Char)),
    c.pendingName = initialName.take (MAX_NAME_LENGTH - 1) ∧ c.naming = (false, true, []) ∧
      (args.bind (scanWord (MAX_NAME_LENGTH - 1))).map Prod.fst =
        firstWord (initialName.take (MAX_NAME_LENGTH - 1)) ∧
      nameHandshake initialName i clock w =
        (c.feed clock (linesFor i (added w (handleHelloCommand i args w))),
          handleHelloCommand i args w) := by
  obtain ⟨c, hsend, hpending, hnaming⟩ := maybeSendHello_init (F := F) hne
  have hname : initialName.take (MAX_NAME_LENGTH - 1) ≠ [] := by
    rw [ne_eq, List.take_eq_nil_iff, not_or]
    exact ⟨by decide, hne⟩
  have hlen : (initialName.take (MAX_NAME_LENGTH - 1)).length < MAX_NAME_LENGTH := by
    rw [List.length_take]
    exact lt_of_le_of_lt (min_le_left _ _) (by decide)
  obtain ⟨line, q, args, hpop, hparse, hword⟩ := popLine_helloLine
    { w.state.players i with
      inbuf := helloLine (initialName.take (MAX_NAME_LENGTH - 1)) ++ ['\n'] }
    hname hlen (fun h => hline (List.mem_of_mem_take h))
    (fun h => hzero (List.mem_of_mem_take h)) rfl
  have hserve : serveBytes i (helloLine (initialName.take (MAX_NAME_LENGTH - 1)) ++ ['\n']) w =
      handleHelloCommand i args w := by
    rw [serveBytes, hpop]
    simp only [handleCommand, hparse, if_true]
  refine ⟨c.state, args, hpending, hnaming, hword, ?_⟩
  rw [nameHandshake, hsend]
  simp only [hserve]

/-- The client and the server agree exactly when the name is one word, or its first word is
taken. -/
theorem name_agreed_iff {w : Server F} {i : Slot}
    (hnew : (w.state.players i).registered = false) {initialName : List Char}
    (hne : initialName ≠ []) (hline : '\n' ∉ initialName) (hzero : '\x00' ∉ initialName)
    (clock : ℕ → ℚ)
    (hroom : NoneRefused i (added w (nameHandshake initialName i clock w).2)) :
    NameAgreed (nameHandshake initialName i clock w).1
        ((nameHandshake initialName i clock w).2.state.players i) ↔
      KeptOrTaken w.state (initialName.take (MAX_NAME_LENGTH - 1)) := by
  obtain ⟨c, args, hpending, hnaming, hword, hhandshake⟩ :=
    nameHandshake_eq hne hline hzero i clock w
  rw [hhandshake] at hroom ⊢
  rw [KeptOrTaken, ← hword]
  cases hscan : (args.bind (scanWord (MAX_NAME_LENGTH - 1))).map Prod.fst with
  | none =>
    -- the usage line says nothing about the name, so the client waits on
    obtain ⟨hreplies, _⟩ := (handleHello_refused hnew).1 hscan
    rw [hreplies.eq hroom]
    have hkept : (handleServerLine (clock 0) "ERROR usage_HELLO_name".toList c).naming =
        c.naming := rfl
    simp only [iff_false]
    intro h
    have hanswered :
        (handleServerLine (clock 0) "ERROR usage_HELLO_name".toList c).nameCheckPending = false :=
      h.answered
    have hwaits : c.nameCheckPending = true := congrArg (fun n => n.2.1) hnaming
    have hstill := (congrArg (fun n => n.2.1) hkept).symm.trans hanswered
    exact absurd (hwaits.symm.trans hstill) (by decide)
  | some word =>
    change _ ↔ word = _ ∨ (findName w.state word).isSome = true
    cases hfree : (findName w.state word).isSome with
    | true =>
      obtain ⟨hreplies, hreg⟩ := (handleHello_refused hnew).2 word hscan hfree
      rw [hreplies.eq hroom]
      simp only [or_true, iff_true]
      exact ⟨rfl, hreg.symm ▸ rfl, fun h => by rw [hreg] at h; cases h⟩
    | false =>
      obtain ⟨⟨id, lines, hreplies, hlines⟩, hreg, hstored⟩ :=
        handleHello_welcome hnew hscan hfree
      have hread : (c.feed clock (linesFor i (added w (handleHelloCommand i args w)))).naming =
          (true, false, initialName.take (MAX_NAME_LENGTH - 1)) := by
        rw [hreplies.eq hroom, ClientState.feed,
          feed_keeps ClientState.naming handleServerLine_naming lines _ _ hlines,
          handleServerLine_welcome _ id c ?_, hpending]
        rw [hpending, ne_eq, List.take_eq_nil_iff, not_or]
        exact ⟨by decide, hne⟩
      have hmine := congrArg (fun n => n.2.2) hread
      simp only [Bool.false_eq_true, or_false]
      constructor
      · intro h
        exact hstored.symm.trans ((h.named hreg).symm.trans hmine)
      · intro h
        refine ⟨congrArg (fun n => n.2.1) hread, ?_, fun _ => ?_⟩
        · rw [hreg]
          exact congrArg (fun n => n.1) hread
        · rw [hstored, h]
          exact hmine

end Answers

/-- A new connection registers under a name of one word. -/
theorem name_agreed_iff_one_word :
    NameAgreed (nameHandshake "Ann".toList 0 (fun _ => 0)
        (serverAfter (fun _ => 1) [.accept 3])).1
        ((nameHandshake "Ann".toList 0 (fun _ => 0)
          (serverAfter (fun _ => 1) [.accept 3])).2.state.players 0) ↔
      KeptOrTaken (serverAfter (fun _ => 1) [.accept 3]).state
        ("Ann".toList.take (MAX_NAME_LENGTH - 1)) := by
  have hroom : (added (serverAfter (fun _ => 1) [.accept 3])
      (nameHandshake "Ann".toList 0 (fun _ => 0)
        (serverAfter (fun _ => 1) [.accept 3])).2).all (fun x => !isRefusedTo 0 x) = true := by
    decide +kernel
  refine @name_agreed_iff Exact _ (serverAfter (fun _ => 1) [.accept 3]) 0 (by decide +kernel)
    "Ann".toList (by decide) (by decide) (by decide) (fun _ => 0) fun x hx => ?_
  simpa using List.all_eq_true.mp hroom x hx

/-- The server stores `A` for the name `A B`, which the client shows whole. -/
theorem name_with_blank :
    Reached true (serverAfter (fun _ => 1) [.accept 3]) ∧
      (nameHandshake "A B".toList 0 (fun _ => 0)
        (serverAfter (fun _ => 1) [.accept 3])).1.myName = "A B".toList ∧
      ¬NameAgreed (nameHandshake "A B".toList 0 (fun _ => 0)
        (serverAfter (fun _ => 1) [.accept 3])).1
        ((nameHandshake "A B".toList 0 (fun _ => 0)
          (serverAfter (fun _ => 1) [.accept 3])).2.state.players 0) := by
  have hends : (nameHandshake "A B".toList 0 (fun _ => 0)
      (serverAfter (fun _ => 1) [.accept 3])).1.myName = "A B".toList ∧
      ((nameHandshake "A B".toList 0 (fun _ => 0)
        (serverAfter (fun _ => 1) [.accept 3])).2.state.players 0).registered = true ∧
      ((nameHandshake "A B".toList 0 (fun _ => 0)
        (serverAfter (fun _ => 1) [.accept 3])).2.state.players 0).name = "A".toList := by
    decide +kernel
  obtain ⟨hshown, hreg, hstored⟩ := hends
  refine ⟨reached_serverAfter _ (by decide), hshown, fun h => ?_⟩
  have hsame := h.named hreg
  rw [hshown, hstored] at hsame
  exact absurd hsame (by decide)

end BattleRoyale
