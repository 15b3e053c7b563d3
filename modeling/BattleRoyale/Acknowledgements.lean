import BattleRoyale.Exact
import BattleRoyale.Termination

/-!
# Accepted commands and their acknowledgements

The four handlers of HELLO, CHOICE, SPAWN and REPICK change the state first and ignore
whether the acknowledgement could be queued. A client without room for it is dropped all
the same when the command completes something: a join, whose further lines do not fit
either, or a repick, whose end is broadcast. In every other case the client stays
connected and is not told.
-/

namespace BattleRoyale

open Recorded

variable {F : Type}

/-- The entries that a call has added to the record. -/
def added (w v : Server F) : Log F := v.log.take (v.log.length - w.log.length)

theorem added_eq {w v : Server F} {new : Log F} (h : v.log = new ++ w.log) :
    added w v = new := by
  unfold added
  rw [h, List.length_append, Nat.add_sub_cancel, List.take_left']
  rfl

/-- The acknowledgement of an accepted command of slot `i`, for the entry that records its
acceptance. -/
def acknowledgementOf (i : Slot) (x : Entry (ServerState F) (Event F)) : Option (ServerLine F) :=
  match x.event with
  | .registered j => if j = i then some (.welcome (x.state.players i).id) else none
  | .chose j => if j = i then some (.choiceOk (x.state.players i).choice) else none
  | .spawned j =>
    if j = i then some (.spawnOk (x.state.players i).x (x.state.players i).y) else none
  | .repicked j => if j = i then some (.repickOk (x.state.players i).repickChoice) else none
  | _ => none

/-- After a call, the client of slot `i` is gone, or every accepted command of its was
acknowledged during the call. -/
def Acknowledged (i : Slot) (w v : Server F) : Prop :=
  ∀ x ∈ added w v, ∀ a, acknowledgementOf i x = some a →
    (v.state.players i).connected = false ∨ ∃ y ∈ added w v, y.event = .queued i .line a

/-- The event accepts neither a client nor a command, and acknowledges nothing. -/
def Event.follows : Event F → Bool
  | .queued _ .line line => !line.isAck
  | .queued .. => true
  | .refused .. => true
  | .dropped .. => true
  | .countdownCancelled _ => true
  | .lobbyOpened _ => true
  | .admitted _ => true
  | .roundStarted => true
  | .repicksFinished => true
  | .gameEnded => true
  | .matchReset => true
  | .progressReset _ => true
  | _ => false

theorem Event.isNested.follows {e : Event F} (h : e.isNested = true) : e.follows = true := by
  cases e with
  | queued i via line => cases via <;> first | rfl | cases h
  | _ => first | rfl | cases h

theorem Answers.following : Answers (fun e : Event F => e.follows = true) where
  nested _ := Event.isNested.follows
  queued _ _ := rfl
  refused _ _ := rfl

/-- The entries of such events acknowledge nothing that was accepted. -/
theorem acknowledgementOf_follows {i : Slot} {x : Entry (ServerState F) (Event F)}
    (h : x.event.follows = true) : acknowledgementOf i x = none := by
  obtain ⟨e, s⟩ := x
  cases e <;> first | rfl | cases h

/-- An acknowledgement is one, and belongs to the acceptance of a command. -/
theorem isAck_of_acknowledgementOf {i : Slot} {x : Entry (ServerState F) (Event F)}
    {a : ServerLine F} (h : acknowledgementOf i x = some a) :
    a.isAck = true ∧ ∀ j via line, x.event ≠ .queued j via line := by
  unfold acknowledgementOf at h
  split at h <;> rename_i he
  all_goals first
    | cases h
    | split at h
      · cases h
        exact ⟨rfl, fun _ _ _ hq => by rw [he] at hq; cases hq⟩
      · cases h

variable [CFloat F]

/-- A call that accepts nothing. -/
theorem acknowledged_of_follows {i : Slot} {w v : Server F}
    (h : Path Action (fun e => e.follows = true) w v) : Acknowledged i w v := by
  obtain ⟨new, hlog, hnew⟩ := h.log_eq
  intro x hx a ha
  rw [added_eq hlog] at hx
  rw [acknowledgementOf_follows (hnew x hx)] at ha
  cases ha

/-- A call that accepts one command, replies and goes on. -/
theorem acknowledged_iff {i : Slot} {w v : Server F} {e : Event F} {s : ServerState F}
    {a : ServerLine F} (ha : acknowledgementOf i ⟨e, s⟩ = some a)
    (hrest : Path Action (fun e => e.follows = true) (reply a i (w.record e s)) v) :
    Acknowledged i w v ↔ (v.state.players i).connected = false ∨
      ((s.players i).queueVia .line a).isSome = true := by
  obtain ⟨new, hlog, hnew⟩ := hrest.log_eq
  obtain ⟨hack, hcall⟩ := isAck_of_acknowledgementOf ha
  -- The reply is the entry after the acceptance.
  obtain ⟨y, hy, hyfits, hynone⟩ : ∃ y : Entry (ServerState F) (Event F),
      (reply a i (w.record e s)).log = y :: ⟨e, s⟩ :: w.log ∧
        (((s.players i).queueVia .line a).isSome = true ↔ y.event = .queued i .line a) ∧
        acknowledgementOf i y = none := by
    unfold reply queueTo
    split <;> rename_i hq
    · exact ⟨_, rfl, by simp [show (s.players i).queueVia .line a = some _ from hq], rfl⟩
    · exact ⟨_, rfl, by simp [show (s.players i).queueVia .line a = none from hq], rfl⟩
  have hadded : added w v = new ++ [y, ⟨e, s⟩] := added_eq (by rw [hlog, hy]; simp)
  unfold Acknowledged
  rw [hadded]
  constructor
  · intro h
    rcases h ⟨e, s⟩ (by simp) a ha with hgone | ⟨z, hz, hqueued⟩
    · exact .inl hgone
    · rcases List.mem_append.mp hz with hz | hz
      · -- Nothing after the reply acknowledges.
        have hfollows := hnew z hz
        rw [hqueued] at hfollows
        simp only [Event.follows, hack] at hfollows
        cases hfollows
      · simp only [List.mem_cons, List.not_mem_nil, or_false] at hz
        rcases hz with rfl | rfl
        · exact .inr (hyfits.mpr hqueued)
        · exact absurd hqueued (hcall _ _ _)
  · intro h x hx b hb
    rcases h with hgone | hfits
    · exact .inl hgone
    right
    rcases List.mem_append.mp hx with hx | hx
    · rw [acknowledgementOf_follows (hnew x hx)] at hb
      cases hb
    · simp only [List.mem_cons, List.not_mem_nil, or_false] at hx
      rcases hx with rfl | rfl
      · rw [hynone] at hb
        cases hb
      · rw [ha] at hb
        cases hb
        exact ⟨y, by simp, hyfits.mp hfits⟩

section Room

/-- A line that is longer than the room is refused, in whatever way it is queued. -/
theorem Player.queueVia_eq_none_of_full {p : Player F} {via : Via} {line : ServerLine F}
    (h : OUTBUF_SIZE < p.outbuf.length + ((via.sent line).length + 1)) :
    p.queueVia via line = none := by
  cases hq : p.queueVia via line with
  | none => rfl
  | some q =>
    have hfit : p.outbuf.length + ((via.sent line).length + 1) ≤ OUTBUF_SIZE := by
      cases via with
      | line => exact (Player.queueLine_eq_some.mp hq).2.1
      | broadcast => exact (Player.queueLine_eq_some.mp hq).2.1
      | checked =>
        simp only [Player.queueVia, Player.queueLineChecked] at hq
        split at hq
        · cases hq
        · exact (Player.queueLine_eq_some.mp hq).2.1
      | verdict =>
        simp only [Player.queueVia, Player.queueLineChecked] at hq
        split at hq
        · cases hq
        · exact (Player.queueLine_eq_some.mp hq).2.1
    exact absurd h (not_lt.mpr hfit)

/-- A short line is refused for lack of room only. -/
theorem Player.full_of_queueVia_eq_none {p : Player F} {line : ServerLine F}
    (hshort : line.text.length < MAX_LINE - 2)
    (h : ¬(p.queueVia .line line).isSome = true) :
    OUTBUF_SIZE < p.outbuf.length + (line.text.length + 1) := by
  by_contra hroom
  refine h (Option.isSome_iff_exists.mpr ⟨_, Player.queueLine_eq_some.mpr ⟨hshort, ?_, rfl⟩⟩)
  exact not_lt.mp hroom

/-- Whether a line fits depends on the send buffer only. -/
theorem Player.queueVia_line_congr {p q : Player F} (h : q.outbuf = p.outbuf)
    (line : ServerLine F) :
    (q.queueVia .line line).isSome = (p.queueVia .line line).isSome := by
  simp only [Player.queueVia, Player.queueLine, h]
  split
  · rfl
  · split <;> rfl

/-- The re-entrant call connects nobody. -/
theorem reevaluateState_shrinks (w : Server F) : Shrinks w.state (reevaluateState w).state :=
  (returnsBelow_reevaluateIn (connectedCount w.state + 1) w (Nat.lt_succ_self _)).2

/-- Nor does anything else that broadcasts. -/
theorem returnsBelow_reevaluateState (w : Server F) :
    ReturnsBelow (connectedCount w.state) (reevaluateIn (connectedCount w.state))
      (reevaluateState : Server F → Server F) := returnsBelow_reevaluateIn _

theorem queueBroadcast_shrinks (line : ServerLine F) (w : Server F) :
    Shrinks w.state (queueBroadcast line w).state :=
  (queueBroadcastIn_eq (returnsBelow_reevaluateState w) line le_rfl).2

theorem broadcastGameState_shrinks (w : Server F) :
    Shrinks w.state (broadcastGameState w).state :=
  (broadcastGameStateIn_eq (returnsBelow_reevaluateState w) le_rfl).2

theorem broadcastPositions_shrinks (w : Server F) :
    Shrinks w.state (broadcastPositions w).state :=
  (broadcastPositionsIn_eq (returnsBelow_reevaluateState w) le_rfl).2

theorem startActiveRound_shrinks (w : Server F) :
    Shrinks w.state (startActiveRound w).state :=
  (startActiveRoundIn_eq (returnsBelow_reevaluateState w) le_rfl).2

omit [CFloat F] in
/-- Who is gone stays gone. -/
theorem Shrinks.gone {s t : ServerState F} (h : Shrinks s t) {i : Slot}
    (hs : (s.players i).connected = false) : (t.players i).connected = false := by
  cases ht : (t.players i).connected with
  | false => rfl
  | true => rw [h i ht] at hs; cases hs

/-- A client without room for a broadcast line is gone after the broadcast. -/
theorem queueBroadcast_gone {line : ServerLine F} {i : Slot} {w : Server F}
    (hconn : (w.state.players i).connected = true)
    (hfull : OUTBUF_SIZE <
      (w.state.players i).outbuf.length + ((Via.broadcast.sent line).length + 1)) :
    ((queueBroadcast line w).state.players i).connected = false := by
  have hnone := Player.queueVia_eq_none_of_full hfull
  obtain ⟨v, hv, _, _, hover⟩ := queueBroadcastWith_eq reevaluateState line w
  unfold queueBroadcast
  rw [hover ⟨i, hconn, hnone⟩]
  refine (reevaluateState_shrinks v).gone ?_
  rw [hv]
  simp [ServerState.broadcast, Player.afterBroadcast_of_none hconn hnone, Player.cleared,
    Player.zero]

theorem sent_lobbyClosed_length :
    (Via.checked.sent (.error .lobbyClosed : ServerLine F)).length = 18 := rfl

theorem choiceOk_length (choice : Char) :
    (.choiceOk choice : ServerLine F).text.length = 11 := rfl

theorem spawnOk_length (x y : F) :
    (.spawnOk x y : ServerLine F).text.length =
      10 + (CFloat.fixed 1 x).length + (CFloat.fixed 1 y).length := by
  show ("SPAWN_OK ".toList ++ CFloat.fixed 1 x ++ [' '] ++ CFloat.fixed 1 y).length = _
  simp only [List.length_append, List.length_cons, List.length_nil]
  have hword : "SPAWN_OK ".toList.length = 9 := rfl
  omega

theorem repickOk_length (choice : Char) :
    (.repickOk choice : ServerLine F).text.length = 11 := rfl

theorem sent_repickDone_length :
    (Via.broadcast.sent (.repickDone : ServerLine F)).length = 11 := rfl

/-- A client without room for `ERROR lobby_closed` is gone after the refusal. -/
theorem refuseLobbyClosed_gone {i : Slot} {w : Server F}
    (hfull : OUTBUF_SIZE < (w.state.players i).outbuf.length + 19) :
    ((refuseLobbyClosed i w).state.players i).connected = false := by
  have hnone : (w.state.players i).queueVia .checked (.error .lobbyClosed) = none :=
    Player.queueVia_eq_none_of_full (by rw [sent_lobbyClosed_length]; exact hfull)
  have hcall : queueTo .checked (.error .lobbyClosed) i w =
      (false, w.record (.refused i .checked (.error .lobbyClosed)) w.state) := by
    simp only [queueTo, hnone]
  unfold refuseLobbyClosed
  rw [hcall]
  exact (reevaluateState_shrinks _).gone (dropSlot_connected false i _)

theorem joined_word : "JOINED ".toList = ['J', 'O', 'I', 'N', 'E', 'D', ' '] := by decide

theorem joined_text (name : List Char) :
    (.joined name : ServerLine F).text = "JOINED ".toList ++ name := rfl

/-- A `JOINED` line has seven bytes before the name. -/
theorem sent_joined_length (name : List Char) :
    7 ≤ (Via.broadcast.sent (.joined name : ServerLine F)).length := by
  have hhead : ∀ c ∈ ['J', 'O', 'I', 'N', 'E', 'D', ' '], decide (c ≠ '\x00') = true :=
    List.all_eq_true.mp rfl
  have htake : (['J', 'O', 'I', 'N', 'E', 'D', ' '] ++ name).take (MAX_LINE - 1) =
      ['J', 'O', 'I', 'N', 'E', 'D', ' '] ++ name.take 248 := by
    simp
  show 7 ≤ (cString ((ServerLine.joined name : ServerLine F).text.take (MAX_LINE - 1))).length
  rw [joined_text, joined_word, htake, cString, List.takeWhile_append_of_pos hhead,
    List.length_append]
  simp

/-- A client that is gone already is not connected by its admission. -/
theorem admitPlayer_shrinks (i : Slot) (w : Server F) :
    Shrinks w.state (admitPlayer i w).state := by
  have hadmitted : Shrinks w.state (admitted i w).state := by
    refine .of_eq fun j => ?_
    simp only [admitted, System.record_state, ServerState.setPlayer_players]
    split
    · rename_i hji
      rw [hji]
    · rfl
  have hcall := (queueTo_rebuffered .checked .joinedMatch i (admitted i w)).shrinks
  rw [admitPlayer_eq]
  split <;> rename_i u hq <;> rw [hq] at hcall
  · exact ((hadmitted.trans hcall).trans (dropSlot_shrinks false i u)).trans
      (reevaluateState_shrinks _)
  · exact ((hadmitted.trans hcall).trans (queueBroadcast_shrinks _ u)).trans
      (broadcastGameState_shrinks _)

/-- A client without room for `JOINED_MATCH` and the broadcast after it is gone after its
admission. -/
theorem admitPlayer_gone {i : Slot} {w : Server F}
    (hconn : (w.state.players i).connected = true)
    (hfull : OUTBUF_SIZE < (w.state.players i).outbuf.length + 21) :
    ((admitPlayer i w).state.players i).connected = false := by
  rw [admitPlayer_eq]
  split <;> rename_i u hq
  · exact (reevaluateState_shrinks _).gone (dropSlot_connected false i u)
  · obtain ⟨p, hp, hu⟩ := queueTo_true hq
    apply (broadcastGameState_shrinks _).gone
    apply queueBroadcast_gone
    · rw [hu]
      simpa [admitted, Player.queueVia_eq_some hp] using hconn
    · subst hu
      -- The first line took 13 bytes, and the second one needs 8.
      have hjoined := @sent_joined_length F _ p.name
      have hlength : p.outbuf.length = (w.state.players i).outbuf.length + 13 := by
        rw [Player.queueVia_eq_some hp]
        simp only [admitted, System.record_state, ServerState.setPlayer_self,
          List.length_append]
        rfl
      simp only [System.record_state, ServerState.setPlayer_self]
      omega

/-- A ready client without room for the shortest of the acknowledgements is gone after
`maybe_admit_player`: every branch has a line that does not fit. -/
theorem maybeAdmitPlayer_gone {i : Slot} {w : Server F}
    (hreg : (w.state.players i).isRegistered = true)
    (hout : (w.state.players i).admitted = false)
    (hready : (w.state.players i).choiceChosen = true ∧ (w.state.players i).spawnChosen = true)
    (hfull : OUTBUF_SIZE < (w.state.players i).outbuf.length + 19) :
    ((maybeAdmitPlayer i w).state.players i).connected = false := by
  obtain ⟨hconn, hregistered⟩ := Player.isRegistered_iff.mp hreg
  unfold maybeAdmitPlayer
  simp only [hconn, hregistered, hout, hready.1, hready.2, Bool.not_true, Bool.or_false,
    Bool.false_eq_true, if_false]
  split
  · exact refuseLobbyClosed_gone hfull
  rename_i hphase
  split
  · rename_i hidle
    show ((admitPlayer i (announced i w)).state.players i).connected = false
    have huphase : (opened i w).state.phase = .lobbyOpen := not_not.mp hphase
    obtain ⟨d, hstate, _, _⟩ :=
      queueBroadcast_of_lobbyOpen (.lobbyOpen JOIN_WINDOW_SECONDS) huphase
    have hplayer : (announced i w).state.players i =
        (w.state.players i).afterBroadcast (.lobbyOpen JOIN_WINDOW_SECONDS) := by
      rw [announced, hstate]
      rfl
    cases hq : (w.state.players i).queueVia .broadcast (.lobbyOpen JOIN_WINDOW_SECONDS) with
    | none =>
      refine (admitPlayer_shrinks i _).gone ?_
      rw [hplayer, Player.afterBroadcast_of_none hconn hq]
      rfl
    | some p =>
      have hsame : (announced i w).state.players i = p := by
        rw [hplayer, Player.afterBroadcast_of_some hconn hq]
      have hp := Player.queueVia_eq_some hq
      refine admitPlayer_gone ?_ ?_
      · rw [hsame, hp]
        exact hconn
      · rw [hsame, hp]
        simp only [List.length_append]
        omega
  · split
    · exact refuseLobbyClosed_gone hfull
    · exact admitPlayer_gone hconn (by omega)

/-- `finish_repicks`, as a sequence of calls. -/
theorem finishRepicks_eq (w : Server F) :
    finishRepicks w = startActiveRound (broadcastPositions (queueBroadcast .repickDone
      (w.record .repicksFinished
        { w.state with players := fun i => (w.state.players i).applyRepick }))) := rfl

/-- A client without room for `REPICK_DONE` is gone after the end of the repicks. -/
theorem finishRepicks_gone {i : Slot} {w : Server F}
    (hconn : (w.state.players i).connected = true)
    (hfull : OUTBUF_SIZE < (w.state.players i).outbuf.length + 12) :
    ((finishRepicks w).state.players i).connected = false := by
  rw [finishRepicks_eq]
  generalize hu : w.record .repicksFinished
    { w.state with players := fun i => (w.state.players i).applyRepick } = u
  have hsame : (u.state.players i).connected = (w.state.players i).connected ∧
      (u.state.players i).outbuf = (w.state.players i).outbuf := by
    subst hu
    simp only [System.record_state, Player.applyRepick]
    split <;> exact ⟨rfl, rfl⟩
  have hgone : ((queueBroadcast .repickDone u).state.players i).connected = false := by
    refine queueBroadcast_gone (hsame.1.trans hconn) ?_
    rw [hsame.2, sent_repickDone_length]
    exact hfull
  exact (startActiveRound_shrinks _).gone ((broadcastPositions_shrinks _).gone hgone)

end Room

section Commands

/-- The acknowledgement of HELLO, if the command is accepted. It completes nothing. -/
def helloAck (s : ServerState F) (i : Slot) (args : Option (List Char)) :
    Option (ServerLine F × Bool) :=
  if (s.players i).registered then none
  else
    match args.bind (scanWord (MAX_NAME_LENGTH - 1)) with
    | none => none
    | some (name, _) =>
      if (findName s name).isSome then none else some (.welcome (s.players i).id, false)

/-- The acknowledgement of CHOICE, and whether SPAWN was given before. -/
def choiceAck (s : ServerState F) (i : Slot) (args : Option (List Char)) :
    Option (ServerLine F × Bool) :=
  if !(s.players i).registered || (s.players i).admitted then none
  else (parseRpsChoiceArg args).map fun c => (.choiceOk c, (s.players i).spawnChosen)

/-- The acknowledgement of SPAWN, and whether CHOICE was given before. -/
def spawnAck (s : ServerState F) (i : Slot) (args : Option (List Char)) :
    Option (ServerLine F × Bool) :=
  if !(s.players i).registered || (s.players i).admitted then none
  else
    match args.bind scanSpawn with
    | none => none
    | some (x, y) =>
      if badSpawn x y || spawnTaken s (CFloat.toInt x) (CFloat.toInt y) i then none
      else some (.spawnOk x y, (s.players i).choiceChosen)

/-- Every player alive has submitted a repick, slot `i` aside. -/
def othersRepicked (s : ServerState F) (i : Slot) : Bool :=
  slots.all (fun j => decide (j = i) || !(s.players j).isAlive || (s.players j).repickSubmitted)

/-- The acknowledgement of REPICK, and whether it was the last one missing. -/
def repickAck (s : ServerState F) (i : Slot) (args : Option (List Char)) :
    Option (ServerLine F × Bool) :=
  if s.phase ≠ .repick ∨ (s.players i).isAlive = false ∨ (s.players i).repickSubmitted = true then
    none
  else (parseRpsChoiceArg args).map fun c => (.repickOk c, othersRepicked s i)

/-- The acknowledgement of a command line, if it is accepted, and whether the command
completes a join or a repick. -/
def commandAck (s : ServerState F) (i : Slot) (line : List Char) : Option (ServerLine F × Bool) :=
  match parseCommand (cString line) 16 with
  | none => none
  | some (cmd, args) =>
    if cmd = "HELLO".toList then helloAck s i args
    else if cmd = "CHOICE".toList then choiceAck s i args
    else if cmd = "SPAWN".toList then spawnAck s i args
    else if cmd = "REPICK".toList then repickAck s i args
    else none

/-- The client has room for the acknowledgement, or the command completes something. -/
def Player.hears (p : Player F) : Option (ServerLine F × Bool) → Bool
  | none => true
  | some (a, completes) => completes || (p.queueVia .line a).isSome

/-- A call that accepts one command: the sender is told when it has room for the reply. It
is gone after a command that completes something if it has none, and stays otherwise. -/
theorem acknowledged_iff_hears {i : Slot} {w v : Server F} {e : Event F} {s : ServerState F}
    {a : ServerLine F} {completes : Bool} (ha : acknowledgementOf i ⟨e, s⟩ = some a)
    (hbuffer : (s.players i).outbuf = (w.state.players i).outbuf)
    (hrest : Path Action (fun e => e.follows = true) (reply a i (w.record e s)) v)
    (hgone : completes = true → ¬((w.state.players i).queueVia .line a).isSome = true →
      (v.state.players i).connected = false)
    (hstay : completes = false → (v.state.players i).connected = true) :
    Acknowledged i w v ↔ (w.state.players i).hears (some (a, completes)) = true := by
  have hroom := Player.queueVia_line_congr hbuffer a
  rw [acknowledged_iff ha hrest, hroom, Player.hears, Bool.or_eq_true]
  cases completes with
  | true =>
    refine ⟨fun _ => .inl rfl, fun _ => ?_⟩
    by_cases hfits : ((w.state.players i).queueVia .line a).isSome = true
    · exact .inr hfits
    · exact .inl (hgone rfl hfits)
  | false =>
    have hconn := hstay rfl
    simp [hconn]

/-- A command that is refused with a reply. -/
theorem acknowledged_reply {i : Slot} {w : Server F} {line : ServerLine F}
    (hack : line.isAck = false) (hconn : (w.state.players i).connected = true)
    (hline : LineOk w i .line line) :
    Acknowledged i w (reply line i w) ↔ (w.state.players i).hears none = true := by
  refine ⟨fun _ => rfl, fun _ => acknowledged_of_follows (reply_path ?_ rfl hconn hline)⟩
  simp [Event.follows, hack]

omit [CFloat F] in
/-- A reply that acknowledges nothing follows. -/
theorem follows_reply (i : Slot) (line : ServerLine F) (h : line.isAck = false) :
    (Event.queued i .line line).follows = true := by
  simp [Event.follows, h]

/-- HELLO. -/
theorem handleHelloCommand_acknowledged {i : Slot} {args : Option (List Char)} {w : Server F}
    (hconn : (w.state.players i).connected = true) :
    Acknowledged i w (handleHelloCommand i args w) ↔
      (w.state.players i).hears (helloAck w.state i args) = true := by
  unfold handleHelloCommand helloAck
  simp only
  cases hreg : (w.state.players i).registered with
  | true => exact acknowledged_reply rfl hconn trivial
  | false =>
    simp only [Bool.false_eq_true, if_false]
    cases args.bind (scanWord (MAX_NAME_LENGTH - 1)) with
    | none => exact acknowledged_reply rfl hconn trivial
    | some found =>
      obtain ⟨name, rest⟩ := found
      dsimp only
      by_cases hused : (findName w.state name).isSome = true
      · rw [if_pos hused, if_pos hused]
        exact acknowledged_reply rfl hconn trivial
      rw [if_neg hused, if_neg hused]
      generalize hs : w.state.setPlayer i
        { (w.state.players i).resetProgress with name := name, registered := true } = s
      have hsame : (s.players i).connected = true ∧ (s.players i).id = (w.state.players i).id ∧
          (s.players i).outbuf = (w.state.players i).outbuf := by
        subst hs
        simp [Player.resetProgress, hconn]
      have hack : acknowledgementOf i (⟨.registered i, s⟩ : Entry (ServerState F) (Event F)) =
          some (.welcome (w.state.players i).id) := by
        simp [acknowledgementOf, hsame.2.1]
      show Acknowledged i w (queueLobbyStatusForPlayer i (reply .spectating i
        (reply (.welcome (s.players i).id) i (w.record (.registered i) s)))) ↔ _
      rw [hsame.2.1]
      have hc1 := reply_connected (.welcome (w.state.players i).id) i
        (show ((w.record (.registered i) s).state.players i).connected = true from hsame.1)
      have hc2 := reply_connected .spectating i hc1
      have hspectating : ∀ u : Server F, (u.state.players i).connected = true →
          Path Action (fun e => e.follows = true) u (reply .spectating i u) :=
        fun u hu => reply_path rfl rfl hu trivial
      have hlobby : ∀ u : Server F, (u.state.players i).connected = true →
          Path Action (fun e => e.follows = true) u (queueLobbyStatusForPlayer i u) :=
        fun u hu => queueLobbyStatusForPlayer_path (follows_reply i) (fun _ => rfl) hu
      have hrest : Path Action (fun e => e.follows = true)
          (reply (.welcome (w.state.players i).id) i (w.record (.registered i) s))
          (queueLobbyStatusForPlayer i (reply .spectating i
            (reply (.welcome (w.state.players i).id) i (w.record (.registered i) s)))) :=
        (hspectating _ hc1).trans (hlobby _ hc2)
      have hstatus : ∀ u : Server F, (u.state.players i).connected = true →
          ((queueLobbyStatusForPlayer i u).state.players i).connected = true := by
        intro u hu
        unfold queueLobbyStatusForPlayer
        split
        · dsimp only
          split <;> exact reply_connected _ _ (reply_connected _ _ (reply_connected _ _ hu))
        · exact reply_connected _ _ hu
      exact acknowledged_iff_hears hack hsame.2.2 hrest nofun fun _ => hstatus _ hc2

/-- The check before CHOICE and SPAWN, spelled out. -/
theorem requireRegisteredNotAdmitted_cases {i : Slot} {w : Server F}
    (hconn : (w.state.players i).connected = true) :
    ((!(w.state.players i).registered || (w.state.players i).admitted) = true ∧
        ∃ v, requireRegisteredNotAdmitted i w = (false, v) ∧ Acknowledged i w v) ∨
      ((w.state.players i).registered = true ∧ (w.state.players i).admitted = false ∧
        requireRegisteredNotAdmitted i w = (true, w)) := by
  have hpath : Path Action (fun e => e.follows = true) w (requireRegisteredNotAdmitted i w).2 :=
    requireRegisteredNotAdmitted_path (follows_reply i) (fun _ => rfl) hconn
  cases hq : requireRegisteredNotAdmitted i w with
  | mk ok v =>
    rw [hq] at hpath
    cases ok with
    | false =>
      refine .inl ⟨?_, v, rfl, acknowledged_of_follows hpath⟩
      unfold requireRegisteredNotAdmitted at hq
      simp only at hq
      split at hq
      · rename_i hreg
        rw [hreg]
        rfl
      · split at hq
        · rename_i hadmitted
          rw [hadmitted, Bool.or_true]
        · cases hq
    | true =>
      obtain ⟨rfl, hreg, hout⟩ := requireRegisteredNotAdmitted_true hq
      exact .inr ⟨hreg, hout, rfl⟩

/-- The common end of CHOICE and SPAWN: the reply, and the admission of a client that has
now given both. -/
theorem acknowledged_join {i : Slot} {w : Server F} {e : Event F} {s : ServerState F}
    {a : ServerLine F} (ha : acknowledgementOf i ⟨e, s⟩ = some a) (hw : Inv w)
    (hstep : Action w e s) (hreg : (s.players i).isRegistered = true)
    (hout : (s.players i).admitted = false)
    (hbuffer : (s.players i).outbuf = (w.state.players i).outbuf)
    (hline : ∀ v, LineOk v i .line a) (hshort : a.text.length ≤ 18)
    (htile : Serves (w.record e s) (reply a i (w.record e s)) →
      OccupantsUnseen (reply a i (w.record e s)).state i (reply a i (w.record e s)).log) :
    Acknowledged i w (maybeAdmitPlayer i (reply a i (w.record e s))) ↔
      (w.state.players i).hears
        (some (a, (s.players i).choiceChosen && (s.players i).spawnChosen)) = true := by
  have hconn : ((w.record e s).state.players i).connected = true :=
    Player.connected_of_isRegistered hreg
  have hreply : Serves (w.record e s) (reply a i (w.record e s)) :=
    reply_serves _ hconn (hline _)
  have hplayer := (reply_rebuffered a i (w.record e s)).player i
  rw [System.record_state] at hplayer
  have hinv := (hstep.inv hw).along hreply
  have hrest := maybeAdmitPlayer_path Answers.following rfl rfl hinv (htile hreply)
  refine acknowledged_iff_hears ha hbuffer hrest (fun hready hfull => ?_) fun hwaits => ?_
  · -- The client is ready, and has no room for any of the lines to come.
    have hroom := Player.full_of_queueVia_eq_none
      (show a.text.length < 254 by omega) hfull
    have hnone : (s.players i).queueVia .line a = none := by
      rw [← Option.not_isSome_iff_eq_none, Player.queueVia_line_congr hbuffer]
      exact hfull
    have hrefused : reply a i (w.record e s) =
        (w.record e s).record (.refused i .line a) s := by
      simp only [reply, queueTo, System.record_state, hnone]
    simp only [Bool.and_eq_true] at hready
    rw [hrefused]
    refine maybeAdmitPlayer_gone hreg hout hready ?_
    simp only [System.record_state, hbuffer]
    omega
  · have hstay : maybeAdmitPlayer i (reply a i (w.record e s)) = reply a i (w.record e s) := by
      obtain ⟨hc, hr⟩ := Player.isRegistered_iff.mp hreg
      unfold maybeAdmitPlayer
      rw [hplayer]
      simp only [hc, hr, hout, Bool.not_true, Bool.or_false, Bool.false_eq_true, if_false]
      rw [if_pos]
      rw [← Bool.not_and, hwaits]
      rfl
    rw [hstay]
    exact reply_connected _ _ hconn

/-- CHOICE. -/
theorem handleChoiceCommand_acknowledged {i : Slot} {args : Option (List Char)} {w : Server F}
    (hw : Inv w) (hconn : (w.state.players i).connected = true) :
    Acknowledged i w (handleChoiceCommand i args w) ↔
      (w.state.players i).hears (choiceAck w.state i args) = true := by
  unfold handleChoiceCommand choiceAck
  rcases requireRegisteredNotAdmitted_cases hconn with ⟨hbad, v, hq, htold⟩ | ⟨hreg, hout, hq⟩
  · rw [hq, if_pos hbad]
    exact ⟨fun _ => rfl, fun _ => htold⟩
  rw [hq, if_neg (by simp [hreg, hout])]
  dsimp only
  cases hparse : parseRpsChoiceArg args with
  | none => exact acknowledged_reply rfl hconn trivial
  | some choice =>
    dsimp only [Option.map_some]
    generalize hs : w.state.setPlayer i
      { w.state.players i with choice := choice, choiceChosen := true } = s
    have hsame : s.players i =
        { w.state.players i with choice := choice, choiceChosen := true } := by
      subst hs
      exact ServerState.setPlayer_self ..
    have hack : acknowledgementOf i (⟨.chose i, s⟩ : Entry (ServerState F) (Event F)) =
        some (.choiceOk choice) := by
      simp [acknowledgementOf, hsame]
    have hstep : Action w (.chose i) s := hs ▸
      .choose (by simp [Player.isRegistered, hconn, hreg]) hout (parseRpsChoiceArg_isChoice hparse)
    have hjoin := acknowledged_join hack hw hstep
      (by simp [hsame, Player.isRegistered, hconn, hreg])
      (by rw [hsame]; exact hout) (by rw [hsame]) (fun _ => trivial)
      (by rw [choiceOk_length]; omega) fun hreply =>
        (occupantsUnseen_chose _ i _).rebuffered hreply (reply_rebuffered _ i _)
    rw [hsame, Bool.true_and] at hjoin
    exact hjoin

/-- SPAWN, where `%.1f` writes at most four characters for a position on the board. -/
theorem handleSpawnCommand_acknowledged
    (hfixed : ∀ x : F, CFloat.lt x (CFloat.lit 0) = false →
      CFloat.le (CFloat.ofInt GRID_W) x = false → (CFloat.fixed 1 x).length ≤ 4)
    {i : Slot} {args : Option (List Char)} {w : Server F}
    (hw : Inv w) (hconn : (w.state.players i).connected = true) :
    Acknowledged i w (handleSpawnCommand i args w) ↔
      (w.state.players i).hears (spawnAck w.state i args) = true := by
  unfold handleSpawnCommand spawnAck
  rcases requireRegisteredNotAdmitted_cases hconn with ⟨hbad, v, hq, htold⟩ | ⟨hreg, hout, hq⟩
  · rw [hq, if_pos hbad]
    exact ⟨fun _ => rfl, fun _ => htold⟩
  rw [hq, if_neg (by simp [hreg, hout])]
  dsimp only
  cases (args.bind scanSpawn : Option (F × F)) with
  | none => exact acknowledged_reply rfl hconn trivial
  | some spot =>
    obtain ⟨x, y⟩ := spot
    dsimp only
    by_cases hbad : badSpawn x y = true
    · rw [if_pos hbad, if_pos (by rw [hbad]; rfl)]
      exact acknowledged_reply rfl hconn trivial
    have hrange : badSpawn x y = false := by simpa using hbad
    rw [if_neg hbad, hrange, Bool.false_or]
    by_cases htaken : spawnTaken w.state (CFloat.toInt x) (CFloat.toInt y) i = true
    · rw [if_pos htaken, if_pos htaken]
      exact acknowledged_reply rfl hconn trivial
    have hfree : spawnTaken w.state (CFloat.toInt x) (CFloat.toInt y) i = false := by
      simpa using htaken
    rw [if_neg htaken, if_neg htaken]
    generalize hs : w.state.setPlayer i
      { w.state.players i with x := x, y := y, spawnChosen := true } = s
    have hsame : s.players i =
        { w.state.players i with x := x, y := y, spawnChosen := true } := by
      subst hs
      exact ServerState.setPlayer_self ..
    have hack : acknowledgementOf i (⟨.spawned i, s⟩ : Entry (ServerState F) (Event F)) =
        some (.spawnOk x y) := by
      simp [acknowledgementOf, hsame]
    have hstep : Action w (.spawned i) s := hs ▸
      .spawn (by simp [Player.isRegistered, hconn, hreg]) hout hrange hfree
    have hlength : (.spawnOk x y : ServerLine F).text.length ≤ 18 := by
      simp only [badSpawn, Bool.or_eq_false_iff] at hrange
      have hx := hfixed x hrange.1.1.1 hrange.1.1.2
      have hy := hfixed y hrange.1.2 hrange.2
      rw [spawnOk_length]
      omega
    have hjoin := acknowledged_join hack hw hstep
      (by simp [hsame, Player.isRegistered, hconn, hreg])
      (by rw [hsame]; exact hout) (by rw [hsame]) (fun _ => trivial) hlength
      fun hreply => by
        subst hs
        exact (occupantsUnseen_spawned hw hfree).rebuffered hreply (reply_rebuffered _ i _)
    rw [hsame, Bool.and_true] at hjoin
    exact hjoin

omit [CFloat F] in
/-- Whether the repick is complete does not depend on the buffers. -/
theorem Rebuffered.allAliveRepicked {s t : ServerState F} (h : Rebuffered s t) :
    BattleRoyale.allAliveRepicked t = BattleRoyale.allAliveRepicked s := by
  have halive : ∀ j, (t.players j).isAlive = (s.players j).isAlive := fun j => by
    rw [h.player j]
    rfl
  have hsubmitted : ∀ j, (t.players j).repickSubmitted = (s.players j).repickSubmitted :=
    fun j => by rw [h.player j]
  simp only [BattleRoyale.allAliveRepicked, halive, hsubmitted]

omit [CFloat F] in
/-- After the submission of one player the repick is complete when no other is missing. -/
theorem allAliveRepicked_submit {s t : ServerState F} {i : Slot} {choice : Char}
    (hsame : t.players i =
      { s.players i with repickChoice := choice, repickSubmitted := true })
    (hothers : ∀ j, j ≠ i → t.players j = s.players j)
    (halive : (s.players i).isAlive = true) :
    allAliveRepicked t = othersRepicked s i := by
  have hin : (t.players i).isAlive = true := by
    rw [hsame]
    exact halive
  have hsomebody : slots.any (fun j => (t.players j).isAlive) = true :=
    List.any_eq_true.mpr ⟨i, mem_slots i, hin⟩
  rw [allAliveRepicked, hsomebody, Bool.and_true, othersRepicked]
  refine List.all_congr rfl fun j => ?_
  by_cases hj : j = i
  · subst hj
    simp [hsame]
  · simp [hj, hothers j hj]

/-- A reply only extends the send buffer. -/
theorem reply_outbuf_length (line : ServerLine F) (i : Slot) (w : Server F) :
    (w.state.players i).outbuf.length ≤ ((reply line i w).state.players i).outbuf.length := by
  unfold reply queueTo
  split
  · rename_i p hp
    rw [Player.queueVia_eq_some hp]
    simp
  · exact le_rfl

/-- REPICK. -/
theorem handleRepickCommand_acknowledged {i : Slot} {args : Option (List Char)} {w : Server F}
    (hw : Inv w) (hconn : (w.state.players i).connected = true) :
    Acknowledged i w (handleRepickCommand i args w) ↔
      (w.state.players i).hears (repickAck w.state i args) = true := by
  unfold handleRepickCommand repickAck
  simp only
  by_cases hphase : w.state.phase = .repick
  swap
  · rw [if_pos hphase, if_pos (.inl hphase)]
    exact acknowledged_reply rfl hconn trivial
  rw [if_neg (not_not.mpr hphase)]
  cases halive : (w.state.players i).isAlive with
  | false =>
    rw [if_pos, if_pos (.inr (.inl rfl))]
    · exact acknowledged_reply rfl hconn trivial
    · simpa [Player.isAlive, hconn, ← Bool.not_and, or_assoc] using halive
  | true =>
    obtain ⟨hin, ha⟩ := Player.isAlive_iff.mp halive
    obtain ⟨hr, hadmitted⟩ := Player.isAdmitted_iff.mp hin
    have hreg := (Player.isRegistered_iff.mp hr).2
    rw [if_neg (by simp [hreg, hadmitted, ha])]
    cases hnew : (w.state.players i).repickSubmitted with
    | true =>
      rw [if_pos rfl, if_pos (.inr (.inr rfl))]
      exact acknowledged_reply rfl hconn trivial
    | false =>
      rw [if_neg (by decide), if_neg (by simp [hphase])]
      cases hparse : parseRpsChoiceArg args with
      | none => exact acknowledged_reply rfl hconn trivial
      | some choice =>
        dsimp only [Option.map_some]
        generalize hs : w.state.setPlayer i
          { w.state.players i with repickChoice := choice, repickSubmitted := true } = s
        have hsame : s.players i =
            { w.state.players i with repickChoice := choice, repickSubmitted := true } := by
          subst hs
          exact ServerState.setPlayer_self ..
        have hothers : ∀ j, j ≠ i → s.players j = w.state.players j := by
          subst hs
          exact fun j hj => ServerState.setPlayer_of_ne _ _ hj
        have hack : acknowledgementOf i (⟨.repicked i, s⟩ : Entry (ServerState F) (Event F)) =
            some (.repickOk choice) := by
          simp [acknowledgementOf, hsame]
        have hstep : Action w (.repicked i) s := hs ▸
          .submit hphase halive hnew (parseRpsChoiceArg_isChoice hparse)
        have hphase' : s.phase = .repick := by
          subst hs
          exact hphase
        have huconn : ((w.record (.repicked i) s).state.players i).connected = true := by
          simpa [hsame] using hconn
        have hreply : Serves (w.record (.repicked i) s)
            (reply (.repickOk choice) i (w.record (.repicked i) s)) :=
          reply_serves _ huconn trivial
        have hbuf := reply_rebuffered (.repickOk choice) i (w.record (.repicked i) s)
        have hinv := (hstep.inv hw).along hreply
        have hlast : allAliveRepicked
            (reply (.repickOk choice) i (w.record (.repicked i) s)).state =
              othersRepicked w.state i := by
          rw [hbuf.allAliveRepicked, System.record_state]
          exact allAliveRepicked_submit hsame hothers halive
        rw [hlast]
        cases hmissing : othersRepicked w.state i with
        | true =>
          rw [if_pos rfl]
          have hrest : Path Action (fun e => e.follows = true)
              (reply (.repickOk choice) i (w.record (.repicked i) s))
              (finishRepicks (reply (.repickOk choice) i (w.record (.repicked i) s))) :=
            (finishRepicksWith_reacts reevaluateState_reacts hinv
              (by rw [hbuf.table]; exact hphase') (hlast.trans hmissing)).mono
              fun _ => Event.isNested.follows
          refine acknowledged_iff_hears hack (by rw [hsame]) hrest (fun _ hfull => ?_)
            fun hgone => by cases hgone
          have hroom := Player.full_of_queueVia_eq_none
            (show (ServerLine.repickOk choice : ServerLine F).text.length < 254 by
              rw [repickOk_length]; omega) hfull
          rw [repickOk_length] at hroom
          refine finishRepicks_gone (reply_connected _ _ huconn) ?_
          have hlonger := reply_outbuf_length (.repickOk choice) i (w.record (.repicked i) s)
          simp only [System.record_state, hsame] at hlonger
          omega
        | false =>
          rw [if_neg (by decide)]
          have hrest : Path Action (fun e => e.follows = true)
              (reply (.repickOk choice) i (w.record (.repicked i) s))
              (reply .repickWaiting i
                (reply (.repickOk choice) i (w.record (.repicked i) s))) :=
            reply_path rfl rfl (reply_connected _ _ huconn) trivial
          exact acknowledged_iff_hears hack (by rw [hsame]) hrest (fun hgone => by cases hgone)
            fun _ => reply_connected _ _ (reply_connected _ _ huconn)

/-- Any command line. -/
theorem handleCommand_acknowledged
    (hfixed : ∀ x : F, CFloat.lt x (CFloat.lit 0) = false →
      CFloat.le (CFloat.ofInt GRID_W) x = false → (CFloat.fixed 1 x).length ≤ 4)
    {i : Slot} (line : List Char) {w : Server F} (hw : Inv w)
    (hconn : (w.state.players i).connected = true) :
    Acknowledged i w (handleCommand i line w) ↔
      (w.state.players i).hears (commandAck w.state i line) = true := by
  have hquiet : ∀ v, Path Action (fun e => e.follows = true) w v →
      (Acknowledged i w v ↔ (w.state.players i).hears none = true) :=
    fun v hpath => ⟨fun _ => rfl, fun _ => acknowledged_of_follows hpath⟩
  unfold handleCommand commandAck
  cases parseCommand (cString line) 16 with
  | none => exact acknowledged_reply rfl hconn trivial
  | some command =>
    obtain ⟨cmd, args⟩ := command
    dsimp only
    by_cases hhello : cmd = "HELLO".toList
    · rw [if_pos hhello, if_pos hhello]
      exact handleHelloCommand_acknowledged hconn
    rw [if_neg hhello, if_neg hhello]
    by_cases hstate : cmd = "GET_STATE".toList
    · have hother : cmd ≠ "CHOICE".toList ∧ cmd ≠ "SPAWN".toList ∧ cmd ≠ "REPICK".toList := by
        subst hstate
        decide
      rw [if_pos hstate, if_neg hother.1, if_neg hother.2.1, if_neg hother.2.2]
      exact hquiet _ (handleGetStateCommand_path .following hw hconn)
    rw [if_neg hstate]
    by_cases hchoice : cmd = "CHOICE".toList
    · rw [if_pos hchoice, if_pos hchoice]
      exact handleChoiceCommand_acknowledged hw hconn
    rw [if_neg hchoice, if_neg hchoice]
    by_cases hspawn : cmd = "SPAWN".toList
    · rw [if_pos hspawn, if_pos hspawn]
      exact handleSpawnCommand_acknowledged hfixed hw hconn
    rw [if_neg hspawn, if_neg hspawn]
    by_cases hrepick : cmd = "REPICK".toList
    · rw [if_pos hrepick, if_pos hrepick]
      exact handleRepickCommand_acknowledged hw hconn
    rw [if_neg hrepick, if_neg hrepick]
    split
    · unfold handleRematchCommand
      split
      · exact acknowledged_reply rfl hconn trivial
      · rename_i hover
        exact hquiet _ (resetMatch_path .following rfl (fun _ => rfl) (not_not.mp hover))
    · split
      · exact hquiet _ (loseConnection_path .following (fun _ => rfl) hw)
      · exact acknowledged_reply rfl hconn trivial

/-- In every reached state, after any command line of a connected client, the client is
gone or its accepted command was acknowledged, exactly if the client had room for the
acknowledgement or the command completed a join or a repick. -/
theorem command_acknowledged_iff
    (hfixed : ∀ x : F, CFloat.lt x (CFloat.lit 0) = false →
      CFloat.le (CFloat.ofInt GRID_W) x = false → (CFloat.fixed 1 x).length ≤ 4)
    {loopOnly : Bool} {w : Server F} (h : Reached loopOnly w) (i : Slot) (line : List Char)
    (hconn : (w.state.players i).connected = true) :
    Acknowledged i w (handleCommand i line w) ↔
      (w.state.players i).hears (commandAck w.state i line) = true :=
  handleCommand_acknowledged hfixed line h.inv hconn

end Commands

/-- A first HELLO is acknowledged. -/
theorem command_acknowledged_iff_hello :
    Acknowledged 0 (serverAfter (fun _ => 1) [.accept 3])
      (handleCommand 0 "HELLO A".toList (serverAfter (fun _ => 1) [.accept 3])) := by
  have hreached : Reached true (serverAfter (fun _ => 1) [.accept 3]) :=
    reached_serverAfter _ rfl
  have hhears : ((serverAfter (fun _ => 1) [.accept 3]).state.players 0).connected = true ∧
      ((serverAfter (fun _ => 1) [.accept 3]).state.players 0).hears
        (commandAck (serverAfter (fun _ => 1) [.accept 3]).state 0 "HELLO A".toList) = true := by
    decide +kernel
  exact (command_acknowledged_iff Exact.fixed_length hreached 0 "HELLO A".toList
    hhears.1).mpr hhears.2

/-- A client that reads nothing and lets the server answer until six bytes are left. -/
def deafClient : List Step :=
  .accept 3 :: (flood 0 3 "CHOICE R" ++ (List.replicate 9 (flood 0 32 "REMATCH")).flatten ++
    flood 0 1 "REMATCH")

/-- The HELLO of this client is accepted and not acknowledged. -/
theorem deafClient_hello :
    ((serverAfter (fun _ => 1) deafClient).state.players 0).connected = true ∧
      ((handleCommand 0 "HELLO A".toList
        (serverAfter (fun _ => 1) deafClient)).state.players 0).connected = true ∧
      ((handleCommand 0 "HELLO A".toList
        (serverAfter (fun _ => 1) deafClient)).state.players 0).registered = true ∧
      ((added (serverAfter (fun _ => 1) deafClient) (handleCommand 0 "HELLO A".toList
        (serverAfter (fun _ => 1) deafClient))).any
          (fun x => (acknowledgementOf 0 x).isSome)) = true ∧
      ((added (serverAfter (fun _ => 1) deafClient) (handleCommand 0 "HELLO A".toList
        (serverAfter (fun _ => 1) deafClient))).all
          (fun x => match x.event with | .queued .. => false | _ => true)) = true := by
  decide +kernel

/-- It stays connected under a name that it was never told of. -/
theorem hello_not_acknowledged :
    Reached true (serverAfter (fun _ => 1) deafClient) ∧
      ((serverAfter (fun _ => 1) deafClient).state.players 0).connected = true ∧
      ¬Acknowledged 0 (serverAfter (fun _ => 1) deafClient)
        (handleCommand 0 "HELLO A".toList (serverAfter (fun _ => 1) deafClient)) := by
  obtain ⟨hconn, hstays, _, hany, hall⟩ := deafClient_hello
  refine ⟨reached_serverAfter _ (by simp [deafClient, Step.inLoop]), hconn, fun h => ?_⟩
  obtain ⟨x, hx, hack⟩ := List.any_eq_true.mp hany
  obtain ⟨a, ha⟩ := Option.isSome_iff_exists.mp hack
  rcases h x hx a ha with hgone | ⟨y, hy, hqueued⟩
  · rw [hstays] at hgone
    cases hgone
  · have hquiet := List.all_eq_true.mp hall y hy
    rw [hqueued] at hquiet
    cases hquiet

end BattleRoyale
