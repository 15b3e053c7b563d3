import BattleRoyale.SnapshotRoundTrip
import BattleRoyale.MatchLifecycle
import BattleRoyale.PlayerFlags

/-!
# The rematch is a fresh lobby

After `reset_match` the table is compared with that of a new server: the connections
that are left are accepted there in the order of their slots, and the registered ones
send HELLO with their names. A connection takes the first free slot of the new server,
so the client at position `k` among the connected slots is found in slot `k`.
-/

namespace BattleRoyale

open Recorded

variable {F : Type}

/-- The entry without what belongs to its connection: the socket, the identifier and the
two buffers. -/
def Player.gameFields (p : Player F) : Player F :=
  { p with fd := 0, id := 0, inbuf := [], outbuf := [] }

/-- The slots in use, in their order. -/
def connectedSlots (s : ServerState F) : List Slot :=
  slots.filter (fun i => (s.players i).connected)

/-- The connections of a table are accepted. -/
def acceptSteps (s : ServerState F) : List Step :=
  slots.flatMap fun k =>
    match (connectedSlots s)[k.val]? with
    | some i => [.accept (s.players i).fd]
    | none => []

/-- The registered clients of a table send HELLO with their names, from their new slots. -/
def helloSteps (s : ServerState F) : List Step :=
  slots.flatMap fun k =>
    match (connectedSlots s)[k.val]? with
    | some i =>
      if (s.players i).registered then
        [.read k (.data ("HELLO ".toList ++ (s.players i).name ++ ['\n'])), .command k]
      else []
    | none => []

/-- The game of a table is that of another one, in which the connected clients of the
first are the only ones and sit in the first slots, in the same order. -/
structure SameGame (s t : ServerState F) : Prop where
  /-- The phase. -/
  phase : t.phase = s.phase
  /-- The round number. -/
  roundNo : t.roundNo = s.roundNo
  /-- The join countdown. -/
  joinDeadline : t.joinDeadline = s.joinDeadline
  /-- The setup countdown. -/
  setupDeadline : t.setupDeadline = s.setupDeadline
  /-- The announced end of the round. -/
  roundDeadline : t.roundDeadline = s.roundDeadline
  /-- Every connected client has its counterpart. -/
  player : ∀ i, (s.players i).connected = true → ∃ k : Slot,
    (connectedSlots s)[k.val]? = some i ∧ (t.players k).gameFields = (s.players i).gameFields
  /-- There is nobody else. -/
  nobody : ∀ k : Slot, (t.players k).connected = true →
    ∃ i, (connectedSlots s)[k.val]? = some i

/-- A loop over the slots carries a fact that says how far it has come. -/
theorem foldl_slots {α : Type*} (P : ℕ → α → Prop) (f : α → Slot → α) {a : α} (h : P 0 a)
    (hstep : ∀ (k : Slot) b, P k b → P (k + 1) (f b k)) : P MAX_PLAYERS (slots.foldl f a) := by
  have hloop : ∀ (is : List Slot) (n : ℕ) (b : α),
      (∀ m (hm : m < is.length), (is[m]).val = n + m) → P n b →
        P (n + is.length) (is.foldl f b) := by
    intro is
    induction is with
    | nil => exact fun _ _ _ hb => hb
    | cons i is ih =>
      intro n b hvals hb
      have hi : i.val = n := hvals 0 (by simp)
      have hrest := ih (n + 1) (f b i) (fun m hm => ?_) (hi ▸ hstep i b (hi ▸ hb))
      · rw [List.foldl_cons, List.length_cons, Nat.add_comm is.length, ← Nat.add_assoc]
        exact hrest
      · have hnext := hvals (m + 1) (by simpa using hm)
        simp only [List.getElem_cons_succ] at hnext
        omega
  have hall := hloop slots 0 a (fun m hm => by simp [slots]) h
  simpa [slots] using hall

/-- A chase does not touch players who are not alive. -/
theorem hunt_other [CFloat F] {dt : F} {s : ServerState F} {i j : Slot}
    (hi : (s.players i).isAlive = false) : (hunt dt s j).players i = s.players i := by
  unfold hunt
  split
  · rfl
  · rename_i hj
    have hij : i ≠ j := by
      rintro rfl
      simp [hi] at hj
    cases hprey : findNearestPrey s j with
    | none => rfl
    | some prey =>
      have hne : i ≠ prey := by
        rintro rfl
        have halive := (findNearestPrey_some hprey).2.1
        rw [hi] at halive
        cases halive
      simp only
      split
      · exact ServerState.setPlayer_of_ne _ _ hne
      · split
        · rw [capture, ServerState.setPlayer_of_ne _ _ hne, approach,
            ServerState.setPlayer_of_ne _ _ hij]
        · rw [approach, ServerState.setPlayer_of_ne _ _ hij]

/-- So does a whole tick. -/
theorem simulateChaseTick_other [CFloat F] {s : ServerState F} {dt : F} {i : Slot}
    (hi : (s.players i).isAlive = false) :
    (simulateChaseTick s dt).1.players i = s.players i := by
  have hturns : ∀ (dt : F) (js : List Slot) (t : ServerState F), t.players i = s.players i →
      (js.foldl (hunt dt) t).players i = s.players i := by
    intro dt js
    induction js with
    | nil => exact fun _ h => h
    | cons j js ih =>
      intro t ht
      refine ih _ ?_
      rw [hunt_other (by rw [ht]; exact hi), ht]
  simp only [simulateChaseTick]
  exact hturns _ slots s rfl

variable [CFloat F]

/-- The game fields of a client that did nothing but send HELLO with this name, or did
nothing at all. -/
def Player.newcomer (registered : Bool) (name : List Char) : Player F :=
  { (initPlayerSlot 0 0 : Player F) with registered := registered, name := name }

/-- Clients without a name have done nothing. -/
def UnnamedIdle (s : ServerState F) : Prop :=
  ∀ i, (s.players i).connected = true → (s.players i).registered = false →
    (s.players i).gameFields = Player.newcomer false []

/-- Replacing an entry by one with a name, by a free one, or by one with the same game. -/
theorem UnnamedIdle.setPlayer {s : ServerState F} (h : UnnamedIdle s) {i : Slot} {p : Player F}
    (hp : p.connected = true → p.registered = false → p.gameFields = Player.newcomer false []) :
    UnnamedIdle (s.setPlayer i p) := by
  intro j hconn hreg
  by_cases hji : j = i
  · subst hji
    rw [ServerState.setPlayer_self] at hconn hreg ⊢
    exact hp hconn hreg
  · rw [ServerState.setPlayer_of_ne _ _ hji] at hconn hreg ⊢
    exact h j hconn hreg

/-- Replacing the entry of a registered client by another registered one. -/
theorem UnnamedIdle.setRegistered {s : ServerState F} (h : UnnamedIdle s) {i : Slot}
    {p : Player F} (hp : p.registered = true) : UnnamedIdle (s.setPlayer i p) :=
  h.setPlayer fun _ hreg => by rw [hp] at hreg; cases hreg

/-- A table in which every entry keeps its game, unless it is registered. -/
theorem UnnamedIdle.of_same {s t : ServerState F} (h : UnnamedIdle s)
    (hsame : ∀ i, (t.players i).connected = true → (t.players i).registered = false →
      (s.players i).connected = true ∧ (s.players i).registered = false ∧
        (t.players i).gameFields = (s.players i).gameFields) : UnnamedIdle t := by
  intro i hconn hreg
  obtain ⟨hconn', hreg', hfields⟩ := hsame i hconn hreg
  rw [hfields]
  exact h i hconn' hreg'

omit [CFloat F] in
/-- `start_round` keeps the names. -/
theorem Player.enterRound_registered (p : Player F) :
    p.enterRound.registered = p.registered := by
  unfold enterRound
  simp only
  split <;> rfl

omit [CFloat F] in
/-- `start_round` only clears the round flags of a client without a name. -/
theorem Player.enterRound_of_unregistered {p : Player F} (h : p.registered = false) :
    p.enterRound =
      { p with inRound := false, repickSubmitted := false, repickChoice := '\x00' } := by
  simp [enterRound, isAdmitted, h]

/-- Every action of a run without resolved rounds leaves clients without a name idle. -/
theorem Action.unnamedIdle {w : Server F} {e : Event F} {s : ServerState F} (h : Action w e s)
    (hun : ¬RoundsResolved w.log) (hw : Inv w)
    (hidle : UnnamedIdle w.state) : UnnamedIdle s := by
  cases h with
  | @accept i fd hfree =>
    have hset : UnnamedIdle (w.state.setPlayer i (initPlayerSlot fd w.state.nextId)) :=
      hidle.setPlayer fun _ _ => rfl
    exact hset
  | @receive i bytes hconn => exact hidle.setPlayer (hidle i)
  | @pop i line inbuf hconn hpop => exact hidle.setPlayer (hidle i)
  | @flush i n hconn => exact hidle.setPlayer (hidle i)
  | @queue i via line p hconn hline hqueue =>
    rw [Player.queueVia_eq_some hqueue]
    exact hidle.setPlayer (hidle i)
  | drop hconn => exact hidle.setPlayer nofun
  | register hconn hnew hvalid hunused => exact hidle.setRegistered rfl
  | choose hreg hout hchoice => exact hidle.setRegistered (Player.isRegistered_iff.mp hreg).2
  | spawn hreg hout hrange hfree => exact hidle.setRegistered (Player.isRegistered_iff.mp hreg).2
  | submit hphase halive hnew hchoice =>
    have hreg := Player.isRegistered_of_isAdmitted (Player.isAdmitted_of_isAlive halive)
    exact hidle.setRegistered (Player.isRegistered_iff.mp hreg).2
  | enter hphase hplayer hcount =>
    rcases hplayer with ⟨hreg, _⟩ | ⟨hfree, _⟩
    · exact hidle.setRegistered (Player.isRegistered_iff.mp hreg).2
    · exact hidle.setPlayer fun hconn => by rw [hfree] at hconn; cases hconn
  | start hphase horder =>
    refine hidle.of_same fun i hconn hreg => ?_
    have hconn' : (w.state.players i).connected = true :=
      (Player.enterRound_connected _).symm.trans hconn
    have hreg' : (w.state.players i).registered = false :=
      (Player.enterRound_registered _).symm.trans hreg
    refine ⟨hconn', hreg', ?_⟩
    show (w.state.players i).enterRound.gameFields = (w.state.players i).gameFields
    have hfields := hidle i hconn' hreg'
    rw [Player.enterRound_of_unregistered hreg']
    simp only [Player.gameFields, Player.newcomer, initPlayerSlot, Player.zero,
      Player.mk.injEq] at hfields ⊢
    simp [hfields]
  | applyRepicks hphase hall => exact absurd (hw.resolved hphase) hun
  | @tick dt hphase =>
    refine hidle.of_same fun i hconn hreg => ?_
    obtain ⟨alive, x, y, hp⟩ := (simulateChaseTick_chased w.state dt).player i
    have hdead : (w.state.players i).isAlive = false := by
      have hreg' := hreg
      rw [hp] at hreg'
      simp [Player.isAlive, show (w.state.players i).registered = false from hreg']
    rw [simulateChaseTick_other hdead] at hconn hreg ⊢
    exact ⟨hconn, hreg, rfl⟩
  | enterRepick hphase hround hresolved => exact absurd hresolved hun
  | pair hphase hround hresolved => exact absurd hresolved hun
  | clearRound hphase hresolved => exact absurd hresolved hun
  | resetProgress hreg hphase => exact hidle.setRegistered (Player.isRegistered_iff.mp hreg).2
  | _ => exact hidle

/-- In every state that the loop reaches, clients without a name are idle. -/
theorem Reached.unnamedIdle {w : Server F} (h : Reached true w) : UnnamedIdle w.state := by
  obtain ⟨clock, hpath⟩ := h.path
  refine (hpath.invariant (fun v => Inv v ∧ ¬RoundsResolved v.log ∧ UnnamedIdle v.state) ?_
    ⟨Inv.init clock, by simp [RoundsResolved, Server.init], nofun⟩).2.2
  rintro v e s he hstep ⟨hinv, hun, hidle⟩
  exact ⟨hstep.inv hinv, hstep.unresolved (he rfl) hinv hun, hstep.unnamedIdle hun hinv hidle⟩

/-- The game of a slot is the one of a newcomer with its name, if it has one. -/
def Player.Renewed (p : Player F) : Prop :=
  p.connected = true → p.gameFields = Player.newcomer p.registered p.name ∧
    (p.registered = false → p.name = [])

omit [CFloat F] in
/-- Entries that differ in the buffers have the same game. -/
theorem Rebuffered.gameFields {s t : ServerState F} (h : Rebuffered s t) (i : Slot) :
    (t.players i).gameFields = (s.players i).gameFields := by
  rw [h.player i]
  rfl

/-- The game decides whether a slot is renewed. -/
theorem Player.Renewed.of_gameFields {p q : Player F} (h : p.Renewed)
    (hfields : q.gameFields = p.gameFields) : q.Renewed := by
  intro hconn
  have hsame := hfields
  simp only [Player.gameFields, Player.mk.injEq] at hsame
  obtain ⟨_, _, hconn', hreg, _, _, _, _, _, _, _, _, hname, _⟩ := hsame
  rw [hfields, hreg, hname]
  exact h (hconn'.symm.trans hconn)

/-- Clients without a name are renewed. -/
theorem UnnamedIdle.renewed {s : ServerState F} (h : UnnamedIdle s) {i : Slot}
    (hreg : (s.players i).isRegistered = false) : (s.players i).Renewed := by
  intro hconn
  have hunnamed : (s.players i).registered = false := by
    simpa [Player.isRegistered, hconn] using hreg
  have hfields := h i hconn hunnamed
  have hname : (s.players i).name = [] := by
    simp only [Player.gameFields, Player.newcomer, Player.mk.injEq] at hfields
    exact hfields.2.2.2.2.2.2.2.2.2.2.2.2.1
  rw [hunnamed, hname]
  exact ⟨hfields, fun _ => rfl⟩

omit [CFloat F] in
/-- The game decides whether a client is registered. -/
theorem Player.isRegistered_of_gameFields {p q : Player F}
    (h : q.gameFields = p.gameFields) : q.isRegistered = p.isRegistered := by
  simp only [gameFields, mk.injEq] at h
  rw [isRegistered, isRegistered, h.2.2.1, h.2.2.2.1]

/-- A client without progress is renewed. -/
theorem Player.resetProgress_renewed {p : Player F} (h : p.isRegistered = true) :
    p.resetProgress.Renewed := by
  obtain ⟨hconn, hreg⟩ := isRegistered_iff.mp h
  intro _
  refine ⟨?_, fun hunnamed => ?_⟩
  · simp [gameFields, newcomer, resetProgress, initPlayerSlot, zero, hconn]
  · rw [show p.resetProgress.registered = p.registered from rfl, hreg] at hunnamed
    cases hunnamed

/-- The loop of `reset_match` at one slot renews that slot, and leaves the game of the
others as it is. -/
theorem resetPlayer_renewed (w : Server F) (i : Slot) :
    (∀ j, j ≠ i → ((resetPlayer w i).state.players j).gameFields =
        (w.state.players j).gameFields) ∧
      ((w.state.players i).isRegistered = true ∨ (w.state.players i).Renewed →
        ((resetPlayer w i).state.players i).Renewed) := by
  unfold resetPlayer
  split
  · rename_i hreg
    simp only
    generalize hu : w.record (.progressReset i)
      (w.state.setPlayer i (w.state.players i).resetProgress) = u
    have hself : (u.state.players i).Renewed := by
      subst hu
      rw [System.record_state, ServerState.setPlayer_self]
      exact Player.resetProgress_renewed hreg
    have hother : ∀ j, j ≠ i → u.state.players j = w.state.players j := by
      subst hu
      exact fun j hji => ServerState.setPlayer_of_ne _ _ hji
    have hsame := queueSeq_rebuffered .checked (resetLines : List (Server F → ServerLine F)) i u
    split <;> rename_i v hq <;> rw [hq] at hsame
    · refine ⟨fun j hji => by rw [hsame.gameFields, hother j hji], fun _ => ?_⟩
      exact hself.of_gameFields (hsame.gameFields i)
    · rw [dropSilently, dropSlot]
      split
      · simp only [System.record_state]
        refine ⟨fun j hji => ?_, fun _ => ?_⟩
        · rw [ServerState.setPlayer_of_ne _ _ hji, hsame.gameFields, hother j hji]
        · rw [ServerState.setPlayer_self]
          exact fun hconn => by cases hconn
      · refine ⟨fun j hji => by rw [hsame.gameFields, hother j hji], fun _ => ?_⟩
        exact hself.of_gameFields (hsame.gameFields i)
  · rename_i hreg
    exact ⟨fun _ _ => rfl, fun h => h.resolve_left hreg⟩

/-- So does the whole loop, which changes the player table only. -/
theorem foldl_resetPlayer_renewed (is : List Slot) (w : Server F)
    (h : ∀ j, ((w.state.players j).isRegistered = true ∧ j ∈ is) ∨ (w.state.players j).Renewed) :
    (is.foldl resetPlayer w).state =
        { w.state with players := (is.foldl resetPlayer w).state.players } ∧
      ∀ j, ((is.foldl resetPlayer w).state.players j).Renewed := by
  induction is generalizing w with
  | nil => exact ⟨rfl, fun j => (h j).resolve_left fun hj => List.not_mem_nil hj.2⟩
  | cons i is ih =>
    obtain ⟨hother, hself⟩ := resetPlayer_renewed w i
    have htable := (resetPlayer_state w i).1
    have hleft : ∀ j, (((resetPlayer w i).state.players j).isRegistered = true ∧ j ∈ is) ∨
        ((resetPlayer w i).state.players j).Renewed := by
      intro j
      by_cases hji : j = i
      · subst hji
        exact .inr (hself ((h j).imp And.left id))
      · rcases h j with ⟨hreg, hmem⟩ | hdone
        · refine .inl ⟨?_, (List.mem_cons.mp hmem).resolve_left hji⟩
          rw [Player.isRegistered_of_gameFields (hother j hji)]
          exact hreg
        · exact .inr (hdone.of_gameFields (hother j hji))
    obtain ⟨hrest, hall⟩ := ih (resetPlayer w i) hleft
    exact ⟨by rw [List.foldl_cons, hrest, htable], hall⟩

/-- After `reset_match` the game is that of an open lobby, and everybody is renewed. -/
theorem resetMatch_renewed {w : Server F} (h : UnnamedIdle w.state) :
    (resetMatch w).state =
        { (initServerState : ServerState F) with
          players := (resetMatch w).state.players, nextId := (resetMatch w).state.nextId } ∧
      ∀ i, ((resetMatch w).state.players i).Renewed := by
  unfold resetMatch
  generalize hv : w.record .matchReset
    { w.state with
      phase := .lobbyOpen
      joinDeadline := 0
      setupDeadline := 0
      roundDeadline := 0
      roundNo := 0 } = v
  have hplayers : v.state.players = w.state.players := by subst hv; rfl
  have hleft : ∀ j, ((v.state.players j).isRegistered = true ∧ j ∈ slots) ∨
      (v.state.players j).Renewed := by
    intro j
    rw [hplayers]
    cases hreg : (w.state.players j).isRegistered with
    | true => exact .inl ⟨rfl, mem_slots j⟩
    | false => exact .inr (h.renewed hreg)
  have hstart : v.state = { (initServerState : ServerState F) with
      players := v.state.players, nextId := v.state.nextId } := by
    subst hv
    rfl
  obtain ⟨htable, hall⟩ := foldl_resetPlayer_renewed slots v hleft
  generalize slots.foldl resetPlayer v = u at htable hall ⊢
  refine ⟨?_, hall⟩
  rw [htable, hstart]

section NewServer

/-- Only the buffers of one slot change. -/
structure Touches (i : Slot) (s t : ServerState F) : Prop where
  /-- The game stays. -/
  same : Rebuffered s t
  /-- The other slots stay. -/
  other : ∀ j, j ≠ i → t.players j = s.players j

omit [CFloat F] in
theorem Touches.trans {i : Slot} {s t u : ServerState F} (h : Touches i s t)
    (h' : Touches i t u) : Touches i s u :=
  ⟨h.same.trans h'.same, fun j hji => (h'.other j hji).trans (h.other j hji)⟩

/-- A reply touches the slot of its client. -/
theorem reply_touches (line : ServerLine F) (i : Slot) (w : Server F) :
    Touches i w.state (reply line i w).state := by
  refine ⟨reply_rebuffered .., fun j hji => ?_⟩
  cases hq : queueTo .line line i w with
  | mk ok v =>
    rw [reply, hq]
    cases ok with
    | true =>
      obtain ⟨p, _, rfl⟩ := queueTo_true hq
      exact ServerState.setPlayer_of_ne _ _ hji
    | false =>
      obtain ⟨_, rfl⟩ := queueTo_false hq
      rfl

/-- So do the lines about the lobby. -/
theorem queueLobbyStatus_touches (i : Slot) (w : Server F) :
    Touches i w.state (queueLobbyStatusForPlayer i w).state := by
  have hprompts : Touches i w.state
      (reply (.chooseSpawn GRID_W GRID_H) i (reply .chooseType i w)).state :=
    (reply_touches ..).trans (reply_touches ..)
  unfold queueLobbyStatusForPlayer
  split
  · simp only
    split
    · exact hprompts.trans (reply_touches ..)
    · exact hprompts.trans (reply_touches ..)
  · exact reply_touches ..

/-- A short message arrives in an empty receive buffer. -/
theorem readPlayer_short {i : Slot} {bytes : List Char} {w : Server F}
    (hconn : (w.state.players i).connected = true) (hin : (w.state.players i).inbuf = [])
    (hpos : 0 < bytes.length) (hlen : bytes.length ≤ 256) :
    readPlayer i (.data bytes) w = w.record (.received i bytes)
      (w.state.setPlayer i { w.state.players i with inbuf := bytes }) := by
  have htake : bytes.take 256 = bytes := List.take_of_length_le hlen
  have hroom : ¬INBUF_SIZE ≤ bytes.length := by
    simp only [INBUF_SIZE]
    omega
  have hrc : ¬(bytes.length : ℤ) ≤ 0 := by omega
  simp only [readPlayer, hconn, Bool.not_true, Bool.false_eq_true, if_false,
    Player.readIntoPlayerBuffer, htake, hin, List.length_nil, Nat.zero_add, hroom, hrc,
    RecvResult.bytes, List.nil_append]

/-- The command of a client that gives its name. -/
def helloLine (name : List Char) : List Char := "HELLO ".toList ++ name

theorem helloLine_eq (name : List Char) : helloLine name = "HELLO ".toList ++ name := by
  delta helloLine
  rfl

/-- A well formed name holds no line break. -/
theorem ValidName.notBreak {name : List Char} (h : ValidName name) {c : Char}
    (hc : c ∈ name) : c ≠ '\n' ∧ c ≠ '\r' ∧ c ≠ '\x00' ∧ c ≠ ' ' := by
  obtain ⟨hspace, hzero⟩ := h.2.2 c hc
  refine ⟨?_, ?_, hzero, ?_⟩ <;> rintro rfl <;> cases hspace

/-- Neither does the command. -/
theorem helloLine_notBreak {name : List Char} (h : ValidName name) {c : Char}
    (hc : c ∈ helloLine name) : c ≠ '\n' ∧ c ≠ '\r' ∧ c ≠ '\x00' := by
  rcases List.mem_append.mp hc with hc | hc
  · have hword : "HELLO ".toList.all (fun c => c != '\n' && c != '\r' && c != '\x00') = true :=
      rfl
    simpa [and_assoc] using List.all_eq_true.mp hword c hc
  · obtain ⟨hbreak, hreturn, hzero, _⟩ := h.notBreak hc
    exact ⟨hbreak, hreturn, hzero⟩

/-- The command fits into every buffer. -/
theorem helloLine_length {name : List Char} (h : ValidName name) :
    (helloLine name).length < 38 := by
  have hlen := h.2.1
  rw [helloLine_eq, List.length_append, show "HELLO ".toList.length = 6 from rfl]
  simp only [MAX_NAME_LENGTH] at hlen
  omega

omit [CFloat F] in
/-- The line that is taken from the receive buffer is the command. -/
theorem popLine_hello {p : Player F} {name : List Char} (h : ValidName name)
    (hin : p.inbuf = helloLine name ++ ['\n']) :
    p.popLine MAX_LINE = some (helloLine name, { p with inbuf := [] }) := by
  have hline : ∀ c ∈ helloLine name, decide (c ≠ '\n') = true :=
    fun c hc => decide_eq_true (helloLine_notBreak h hc).1
  have hdrop : p.inbuf.dropWhile (· ≠ '\n') = ['\n'] := by
    rw [hin, List.dropWhile_append_of_pos hline]
    rfl
  have htake : p.inbuf.takeWhile (· ≠ '\n') = helloLine name := by
    rw [hin, List.takeWhile_append_of_pos hline]
    exact List.append_nil _
  have hlast : (helloLine name).getLast? ≠ some '\r' := fun hr =>
    (helloLine_notBreak h (List.mem_of_getLast? hr)).2.1 rfl
  have hcut : (helloLine name).take (MAX_LINE - 1) = helloLine name := by
    refine List.take_of_length_le ?_
    have hlen := helloLine_length h
    simp only [MAX_LINE]
    omega
  simp only [Player.popLine, hdrop, htake, hlast, if_false, hcut]

/-- The parser splits the command at the blank and skips further ones. -/
theorem parseCommand_helloLine (args : List Char) :
    parseCommand (helloLine args) 16 =
      match args.dropWhile (· = ' ') with
      | [] => some ("HELLO".toList, none)
      | args => some ("HELLO".toList, some args) := rfl

/-- It reads a well formed name as it is. -/
theorem parseCommand_hello {name : List Char} (h : ValidName name) :
    parseCommand (cString (helloLine name)) 16 = some ("HELLO".toList, some name) := by
  have hall : cString (helloLine name) = helloLine name :=
    List.takeWhile_eq_self_iff.mpr fun c hc =>
      decide_eq_true (helloLine_notBreak h hc).2.2
  cases name with
  | nil => exact absurd rfl h.1
  | cons c cs =>
    have hskip : (c :: cs).dropWhile (· = ' ') = c :: cs :=
      List.dropWhile_cons_of_neg (by simpa using (h.notBreak List.mem_cons_self).2.2.2)
    rw [hall, parseCommand_helloLine, hskip]

/-- So does the scanner. -/
theorem scanWord_self {name : List Char} (h : ValidName name) :
    scanWord (MAX_NAME_LENGTH - 1) name = some (name, []) := by
  obtain ⟨hne, hlen, hchars⟩ := h
  have hskip : skipSpace name = name := by
    cases name with
    | nil => exact absurd rfl hne
    | cons c cs => exact skipSpace_cons (hchars c List.mem_cons_self).1 cs
  have hword : name.takeWhile (fun c => !isSpace c) = name :=
    List.takeWhile_eq_self_iff.mpr fun c hc => by rw [(hchars c hc).1]; rfl
  have htake : name.take (MAX_NAME_LENGTH - 1) = name :=
    List.take_of_length_le (by omega)
  simp only [scanWord, hskip, hword, htake, List.isEmpty_eq_false_iff.mpr hne,
    Bool.false_eq_true, if_false, List.drop_length]

/-- HELLO with a new name registers the client, and touches no other slot. -/
theorem handleHello_new {i : Slot} {name : List Char} {w : Server F}
    (hnew : (w.state.players i).registered = false) (h : ValidName name)
    (hunused : findName w.state name = none) :
    Touches i (w.state.setPlayer i
        { (w.state.players i).resetProgress with name := name, registered := true })
      (handleHelloCommand i (some name) w).state := by
  simp only [handleHelloCommand, hnew, Bool.false_eq_true, if_false, Option.bind_some,
    scanWord_self h, hunused, Option.isSome_none]
  have hreplies : ∀ u : Server F, Touches i u.state (queueLobbyStatusForPlayer i
      (reply .spectating i (reply (.welcome (u.state.players i).id) i u))).state :=
    fun u => ((reply_touches _ i u).trans (reply_touches _ i _)).trans
      (queueLobbyStatus_touches i _)
  exact hreplies (w.record (.registered i) _)

/-- A new client sends HELLO with a new name in one message. -/
theorem hello_new {i : Slot} {name : List Char} {w : Server F}
    (hgame : (w.state.players i).gameFields = Player.newcomer false [])
    (hin : (w.state.players i).inbuf = []) (h : ValidName name)
    (hunused : findName w.state name = none) (v : Server F)
    (hv : v = commandPlayer i (readPlayer i (.data (helloLine name ++ ['\n'])) w)) :
    v.state = { w.state with players := v.state.players } ∧
      (v.state.players i).gameFields = Player.newcomer true name ∧
      ∀ j, j ≠ i → v.state.players j = w.state.players j := by
  have hconn : (w.state.players i).connected = true := by
    simp only [Player.gameFields, Player.newcomer, initPlayerSlot, Player.mk.injEq] at hgame
    exact hgame.2.2.1
  have hnew : (w.state.players i).registered = false := by
    simp only [Player.gameFields, Player.newcomer, Player.mk.injEq] at hgame
    exact hgame.2.2.2.1
  have hlen := helloLine_length h
  have hlength : (helloLine name ++ ['\n']).length = (helloLine name).length + 1 := by simp
  rw [readPlayer_short hconn hin (by omega) (by omega)] at hv
  generalize hu : w.record (.received i (helloLine name ++ ['\n']))
    (w.state.setPlayer i { w.state.players i with inbuf := helloLine name ++ ['\n'] }) = u at hv
  have hself : u.state.players i =
      { w.state.players i with inbuf := helloLine name ++ ['\n'] } := by
    subst hu
    exact ServerState.setPlayer_self ..
  have hpop := popLine_hello h (show (u.state.players i).inbuf = _ by rw [hself])
  have hcommand : v = handleHelloCommand i (some name)
      (u.record (.popped i (helloLine name))
        (u.state.setPlayer i { u.state.players i with inbuf := [] })) := by
    have hconnected : (u.state.players i).connected = true := by
      rw [hself]
      exact hconn
    rw [hv, commandPlayer, hpop]
    simp only [hconnected, Bool.not_true, Bool.false_eq_true, if_false, handleCommand,
      parseCommand_hello h, if_true]
  have hstate : u.state.setPlayer i { u.state.players i with inbuf := [] } =
      w.state.setPlayer i { w.state.players i with inbuf := [] } := by
    subst hu
    simp [ServerState.setPlayer]
  rw [hstate] at hcommand
  generalize hx : u.record (.popped i (helloLine name))
    (w.state.setPlayer i { w.state.players i with inbuf := [] }) = x at hcommand
  have hxstate : x.state = w.state.setPlayer i { w.state.players i with inbuf := [] } := by
    subst hx
    rfl
  have hxself : x.state.players i = { w.state.players i with inbuf := [] } := by
    rw [hxstate, ServerState.setPlayer_self]
  have hfind : findName x.state name = none := by
    refine List.find?_eq_none.mpr fun j hj => ?_
    have hold := List.find?_eq_none.mp hunused j hj
    rw [hxstate]
    by_cases hji : j = i
    · subst hji
      rw [ServerState.setPlayer_self]
      exact hold
    · rw [ServerState.setPlayer_of_ne _ _ hji]
      exact hold
  have hxnew : (x.state.players i).registered = false := by
    rw [hxself]
    exact hnew
  have htouch := handleHello_new hxnew h hfind
  rw [← hcommand] at htouch
  refine ⟨?_, ?_, fun j hji => ?_⟩
  · rw [htouch.same.table, hxstate]
    rfl
  · rw [htouch.same.gameFields, ServerState.setPlayer_self, hxself]
    simp [Player.gameFields, Player.newcomer, Player.resetProgress, initPlayerSlot, Player.zero,
      hconn]
  · rw [htouch.other j hji, ServerState.setPlayer_of_ne _ _ hji, hxstate,
      ServerState.setPlayer_of_ne _ _ hji]

/-- What slot `k` of the new server holds after the first `a` connections were accepted
and the first `h` of them had their turn to send HELLO. -/
def seat (s : ServerState F) (a h : ℕ) (k : Slot) : Player F :=
  match (connectedSlots s)[k.val]? with
  | none => Player.zero
  | some i =>
    if k.val < h then Player.newcomer (s.players i).registered (s.players i).name
    else if k.val < a then Player.newcomer false []
    else Player.zero

/-- The new server at this moment. -/
structure Seated (s : ServerState F) (a h : ℕ) (t : ServerState F) : Prop where
  /-- The lobby is open and no countdown runs. -/
  table : t = { (initServerState : ServerState F) with players := t.players, nextId := t.nextId }
  /-- The slots have the games of their clients. -/
  player : ∀ k, (t.players k).gameFields = seat s a h k
  /-- Who had no turn yet has sent nothing. -/
  unread : ∀ k : Slot, h ≤ k.val → (t.players k).inbuf = []

/-- The clients of a table are renewed and told apart by well formed names. -/
structure Renewable (s : ServerState F) : Prop where
  /-- Everybody is renewed. -/
  renewed : ∀ i, (s.players i).Renewed
  /-- Names are well formed. -/
  named : ∀ i, (s.players i).isRegistered = true → ValidName (s.players i).name
  /-- Registered clients have different names. -/
  name_inj : ∀ i j, (s.players i).isRegistered = true → (s.players j).isRegistered = true →
    (s.players i).name = (s.players j).name → i = j

omit [CFloat F] in
theorem connectedSlots_nodup (s : ServerState F) : (connectedSlots s).Nodup :=
  slots_nodup.filter _

omit [CFloat F] in
theorem mem_connectedSlots {s : ServerState F} {i : Slot} :
    i ∈ connectedSlots s ↔ (s.players i).connected = true := by
  simp [connectedSlots]

omit [CFloat F] in
/-- The client at a position is connected. -/
theorem connected_of_getElem? {s : ServerState F} {k : ℕ} {i : Slot}
    (h : (connectedSlots s)[k]? = some i) : (s.players i).connected = true :=
  mem_connectedSlots.mp (List.mem_of_getElem? h)

/-- A free seat, before its connection is accepted. -/
theorem Seated.free {s t : ServerState F} {a : ℕ} (h : Seated s a 0 t) {k : Slot}
    (hk : a ≤ k.val) : (t.players k).connected = false := by
  have hfields := h.player k
  have hzero : seat s a 0 k = (Player.zero : Player F) := by
    unfold seat
    split
    · rfl
    · rw [if_neg (Nat.not_lt_zero _), if_neg (by omega)]
  rw [hzero] at hfields
  simp only [Player.gameFields, Player.zero, Player.mk.injEq] at hfields
  exact hfields.2.2.1

/-- A seat that is taken. -/
theorem Seated.taken {s t : ServerState F} {a : ℕ} (h : Seated s a 0 t) {k i : Slot}
    (hi : (connectedSlots s)[k.val]? = some i) (hk : k.val < a) :
    (t.players k).connected = true := by
  have hfields := h.player k
  rw [seat, hi] at hfields
  simp only [Nat.not_lt_zero, if_false, hk, if_true] at hfields
  simp only [Player.gameFields, Player.newcomer, initPlayerSlot, Player.mk.injEq] at hfields
  exact hfields.2.2.1

/-- The next connection takes the next seat. -/
theorem Seated.accept {s : ServerState F} {k i : Slot} {fd : ℤ} {w : Server F}
    (h : Seated s k.val 0 w.state) (hi : (connectedSlots s)[k.val]? = some i) :
    Seated s (k.val + 1) 0 (acceptNewClient fd w).state := by
  have hfind : slots.find? (fun j => !(w.state.players j).connected) = some k := by
    have hslot : ∀ (m : ℕ) (hm : m < slots.length), slots[m] = ⟨m, by simpa [slots] using hm⟩ :=
      fun m hm => by simp [slots]
    have hlen : k.val < slots.length := by simp [slots]
    refine List.find?_eq_some_iff_getElem.mpr ⟨?_, k.val, hlen, hslot _ hlen, fun m hm => ?_⟩
    · rw [h.free le_rfl]
      rfl
    · have hmlen : m < (connectedSlots s).length :=
        hm.trans (List.getElem?_eq_some_iff.mp hi).1
      have htaken : (w.state.players ⟨m, hm.trans k.isLt⟩).connected = true :=
        h.taken (List.getElem?_eq_getElem hmlen) hm
      rw [hslot m (hm.trans hlen), htaken]
      rfl
  have hqueue : ∀ n : ℕ, (initPlayerSlot fd n : Player F).queueVia .line .info =
      some { (initPlayerSlot fd n : Player F) with
        outbuf := (ServerLine.info : ServerLine F).text ++ ['\n'] } := fun _ => rfl
  have hstate : (acceptNewClient fd w).state =
      { w.state.setPlayer k { (initPlayerSlot fd w.state.nextId : Player F) with
          outbuf := (ServerLine.info : ServerLine F).text ++ ['\n'] } with
        nextId := w.state.nextId + 1 } := by
    simp only [acceptNewClient, addPlayer, hfind, queueTo, System.record_state,
      ServerState.setPlayer_self, hqueue]
    simp [ServerState.setPlayer]
  have hplayers : ∀ j, ((acceptNewClient fd w).state.players j) =
      if j = k then { (initPlayerSlot fd w.state.nextId : Player F) with
        outbuf := (ServerLine.info : ServerLine F).text ++ ['\n'] } else w.state.players j := by
    intro j
    rw [hstate]
    exact ServerState.setPlayer_players ..
  refine ⟨?_, fun j => ?_, fun j hj => ?_⟩
  · rw [hstate, h.table]
    rfl
  · rw [hplayers]
    by_cases hjk : j = k
    · subst hjk
      rw [if_pos rfl, seat, hi]
      simp only [Nat.not_lt_zero, if_false, Nat.lt_succ_self, if_true]
      rfl
    · have hne : j.val ≠ k.val := fun heq => hjk (Fin.ext heq)
      have hseat : seat s (k.val + 1) 0 j = seat s k.val 0 j := by
        unfold seat
        split
        · rfl
        · rw [if_neg (Nat.not_lt_zero _), if_neg (Nat.not_lt_zero _)]
          by_cases hlt : j.val < k.val
          · rw [if_pos hlt, if_pos (by omega)]
          · rw [if_neg hlt, if_neg (by omega)]
      rw [if_neg hjk, h.player j, hseat]
  · rw [hplayers]
    by_cases hjk : j = k
    · rw [if_pos hjk]
      rfl
    · rw [if_neg hjk]
      exact h.unread j hj

/-- The name of a client that has not had its turn is not in use. -/
theorem Seated.unused {s t : ServerState F} (hs : Renewable s) {k i : Slot}
    (h : Seated s MAX_PLAYERS k.val t) (hi : (connectedSlots s)[k.val]? = some i)
    (hreg : (s.players i).isRegistered = true) : findName t (s.players i).name = none := by
  refine List.find?_eq_none.mpr fun j _ hj => ?_
  obtain ⟨hjreg, hname⟩ := Bool.and_eq_true_iff.mp hj
  have hfields := h.player j
  have hregistered : (seat s MAX_PLAYERS k.val j).isRegistered = true := by
    rw [← hfields]
    exact hjreg
  have hnamed : (seat s MAX_PLAYERS k.val j).name = (s.players i).name := by
    rw [← hfields]
    exact beq_iff_eq.mp hname
  unfold seat at hregistered hnamed
  split at hregistered
  · cases hregistered
  · rename_i i' hi'
    simp only [hi'] at hnamed
    by_cases hlt : j.val < k.val
    · rw [if_pos hlt] at hregistered hnamed
      have hreg' : (s.players i').isRegistered = true :=
        Player.isRegistered_iff.mpr ⟨connected_of_getElem? hi', hregistered⟩
      have hii' := hs.name_inj i' i hreg' hreg hnamed
      subst hii'
      have hinj := (List.getElem?_inj (List.getElem?_eq_some_iff.mp hi').1
        (connectedSlots_nodup s)).mp (hi'.trans hi.symm)
      omega
    · rw [if_neg hlt, if_pos j.isLt] at hregistered
      cases hregistered

/-- A client without a name says nothing when its turn comes, a registered one sends
HELLO and gets its name. -/
theorem Seated.hello {s : ServerState F} (hs : Renewable s) {k i : Slot} {w : Server F}
    (h : Seated s MAX_PLAYERS k.val w.state) (hi : (connectedSlots s)[k.val]? = some i)
    {v : Server F}
    (hv : v = if (s.players i).registered then
      commandPlayer k (readPlayer k (.data (helloLine (s.players i).name ++ ['\n'])) w)
    else w) : Seated s MAX_PLAYERS (k.val + 1) v.state := by
  have hconn := connected_of_getElem? hi
  have hseat : ∀ j, j ≠ k → seat s MAX_PLAYERS (k.val + 1) j = seat s MAX_PLAYERS k.val j := by
    intro j hjk
    have hne : j.val ≠ k.val := fun heq => hjk (Fin.ext heq)
    unfold seat
    split
    · rfl
    · by_cases hlt : j.val < k.val
      · rw [if_pos hlt, if_pos (by omega)]
      · rw [if_neg hlt, if_neg (by omega)]
  have hself : seat s MAX_PLAYERS (k.val + 1) k =
      Player.newcomer (s.players i).registered (s.players i).name := by
    rw [seat, hi]
    simp only [Nat.lt_succ_self, if_true]
  have hold : (w.state.players k).gameFields = Player.newcomer false [] := by
    rw [h.player k, seat, hi]
    simp only [Nat.lt_irrefl, if_false, k.isLt, if_true]
  cases hreg : (s.players i).registered with
  | false =>
    rw [hreg, if_neg Bool.false_ne_true] at hv
    rw [hv]
    refine ⟨h.table, fun j => ?_, fun j hj => h.unread j (by omega)⟩
    by_cases hjk : j = k
    · rw [hjk, hself, hold, hreg, ((hs.renewed i) hconn).2 hreg]
    · rw [hseat j hjk, h.player j]
  | true =>
    rw [hreg, if_pos rfl] at hv
    have hregistered := Player.isRegistered_iff.mpr ⟨hconn, hreg⟩
    have hunused : findName w.state (s.players i).name = none := h.unused hs hi hregistered
    obtain ⟨htable, hgame, hother⟩ :=
      hello_new hold (h.unread k le_rfl) (hs.named i hregistered) hunused v hv
    refine ⟨?_, fun j => ?_, fun j hj => ?_⟩
    · rw [htable, h.table]
    · by_cases hjk : j = k
      · rw [hjk, hself, hgame, hreg]
      · rw [hseat j hjk, hother j hjk, h.player j]
    · have hjk : j ≠ k := by
        rintro rfl
        omega
      rw [hother j hjk]
      exact h.unread j (by omega)

/-- A seat without a client stays free. -/
theorem Seated.skip {s t : ServerState F} {a h : ℕ} (ht : Seated s a h t) {k : Slot}
    (hk : (connectedSlots s)[k.val]? = none) {a' h' : ℕ} (ha : a' = a ∨ a = k.val ∧ a' = k.val + 1)
    (hh : h' = h ∨ h = k.val ∧ h' = k.val + 1) : Seated s a' h' t := by
  refine ⟨ht.table, fun j => ?_, fun j hj => ht.unread j (by omega)⟩
  rw [ht.player j]
  unfold seat
  split
  · rfl
  · rename_i i hi
    have hjk : j.val ≠ k.val := by
      intro heq
      rw [heq, hk] at hi
      cases hi
    have hlh : j.val < h ↔ j.val < h' := by omega
    have hla : j.val < a ↔ j.val < a' := by omega
    simp only [hlh, hla]

/-- The connections are accepted. -/
theorem seated_acceptSteps (s : ServerState F) (clock : ℕ → ℤ) (start : ℚ) :
    Seated s MAX_PLAYERS 0 ((Loop.init clock start).run (acceptSteps s)).server.state := by
  rw [Loop.run, acceptSteps, List.foldl_flatMap]
  refine foldl_slots (fun n (l : Loop F) => Seated s n 0 l.server.state) _ ?_ fun k l hl => ?_
  · refine ⟨rfl, fun k => ?_, fun _ _ => rfl⟩
    unfold seat
    split
    · rfl
    · rw [if_neg (Nat.not_lt_zero _), if_neg (Nat.not_lt_zero _)]
      rfl
  · cases hi : (connectedSlots s)[k.val]? with
    | none => exact hl.skip hi (.inr ⟨rfl, rfl⟩) (.inl rfl)
    | some i => exact hl.accept hi

/-- The registered ones send HELLO. -/
theorem seated_helloSteps {s : ServerState F} (hs : Renewable s) {l : Loop F}
    (h : Seated s MAX_PLAYERS 0 l.server.state) :
    Seated s MAX_PLAYERS MAX_PLAYERS (l.run (helloSteps s)).server.state := by
  rw [Loop.run, helloSteps, List.foldl_flatMap]
  refine foldl_slots (fun n (l : Loop F) => Seated s MAX_PLAYERS n l.server.state) _ h
    fun k l hl => ?_
  cases hi : (connectedSlots s)[k.val]? with
  | none => exact hl.skip hi (.inl rfl) (.inr ⟨rfl, rfl⟩)
  | some i =>
    refine hl.hello hs hi ?_
    cases hreg : (s.players i).registered with
    | false => simp [hreg]
    | true =>
      simp only [hreg, if_true]
      rfl

end NewServer

/-- After `reset_match` in a finished match, the game is that of a new server on which the
connections that are left were accepted, and the registered ones sent HELLO with their
names. -/
theorem rematch_is_fresh {w : Server F} (h : Reached true w) (hphase : w.state.phase = .gameOver)
    (clock : ℕ → ℤ) (start : ℚ) :
    SameGame (resetMatch w).state
      ((Loop.init clock start).run
        (acceptSteps (resetMatch w).state ++ helloSteps (resetMatch w).state)).server.state := by
  obtain ⟨htable, hrenewed⟩ := resetMatch_renewed h.unnamedIdle
  have hinv : Inv (resetMatch w) := h.inv.along (resetMatch_runs hphase)
  have hs : Renewable (resetMatch w).state :=
    ⟨hrenewed, fun i hreg => (hinv.slots i (Player.connected_of_isRegistered hreg)).named
      (Player.isRegistered_iff.mp hreg).2, hinv.identified.name_inj⟩
  generalize (resetMatch w).state = s at htable hrenewed hs ⊢
  have hseated := seated_helloSteps hs (seated_acceptSteps s clock start)
  rw [Loop.run, List.foldl_append, ← Loop.run, ← Loop.run]
  generalize (((Loop.init clock start : Loop F).run (acceptSteps s)).run
    (helloSteps s)).server.state = t at hseated ⊢
  refine ⟨by rw [hseated.table, htable], by rw [hseated.table, htable],
    by rw [hseated.table, htable], by rw [hseated.table, htable],
    by rw [hseated.table, htable], fun i hconn => ?_, fun k hconn => ?_⟩
  · obtain ⟨k, hk, hki⟩ := List.mem_iff_getElem.mp (mem_connectedSlots.mpr hconn)
    have hroom : k < MAX_PLAYERS := by
      have hle : (connectedSlots s).length ≤ slots.length := List.length_filter_le ..
      have hslots : slots.length = MAX_PLAYERS := by simp [slots]
      omega
    have hi : (connectedSlots s)[k]? = some i := by rw [List.getElem?_eq_getElem hk, hki]
    refine ⟨⟨k, hroom⟩, hi, ?_⟩
    rw [hseated.player, ((hrenewed i) hconn).1]
    simp only [seat, hi, hroom, if_true]
  · cases hk : (connectedSlots s)[k.val]? with
    | some i => exact ⟨i, rfl⟩
    | none =>
      have hfields := hseated.player k
      rw [seat, hk] at hfields
      simp only [Player.gameFields, Player.zero, Player.mk.injEq] at hfields
      rw [hfields.2.2.1] at hconn
      cases hconn

/-- The winner of a duel asks for a rematch. -/
theorem rematch_is_fresh_duel :
    SameGame (resetMatch (serverAfter (lateClock 60) (duel ++ say 1 "QUIT"))).state
      ((Loop.init (fun _ => 1) 0).run
        (acceptSteps (resetMatch (serverAfter (lateClock 60) (duel ++ say 1 "QUIT"))).state ++
          helloSteps (resetMatch (serverAfter (lateClock 60)
            (duel ++ say 1 "QUIT"))).state)).server.state :=
  rematch_is_fresh (reached_serverAfter _ (by simp [duel, Step.inLoop])) duel_winner_left.1
    (fun _ => 1) 0

end BattleRoyale
