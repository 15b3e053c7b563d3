import BattleRoyale.BroadcastOrder
import BattleRoyale.LobbyCountdown

/-!
# What the clients know of the lobby

The last of the lines `LOBBY_WAITING`, `LOBBY_OPEN` and `LOBBY_CLOSED` that a client has
been queued agrees with the server between the steps of every run, as long as no countdown
is stopped that a client has been told of. `reevaluate_lobby_open` stops it without a line,
so that the other clients keep the countdown of a player who has left.
-/

namespace BattleRoyale

open Recorded

variable {F : Type}

/-- The three situations that the lines of the lobby tell apart. -/
inductive LobbyStatus where
  /-- The lobby is open without a countdown. -/
  | waiting
  /-- A countdown of the open lobby runs. -/
  | counting
  /-- The lobby is closed. -/
  | closed
  deriving DecidableEq

/-- The situation of the server. -/
def ServerState.lobbyStatus (s : ServerState F) : LobbyStatus :=
  if s.phase = .lobbyOpen then if s.joinDeadline = 0 then .waiting else .counting else .closed

/-- The situation that a line tells of. -/
def ServerLine.lobbyStatus : ServerLine F → Option LobbyStatus
  | .lobbyWaiting => some .waiting
  | .lobbyOpen _ => some .counting
  | .lobbyClosed => some .closed
  | _ => none

/-- The situation that an event tells the client of slot `i`. -/
def Event.tellsLobby (i : Slot) : Event F → Option LobbyStatus
  | .queued j _ line => if j = i then line.lobbyStatus else none
  | _ => none

/-- The match is reset, or slot `i` is taken by a connection. -/
def Event.startsLobby (i : Slot) (e : Event F) : Bool := e.isReset || e.accepts i

/-- The event stops a countdown that ran. -/
def Event.stopsCountdown : Event F → Bool
  | .countdownCancelled was => was ≠ 0
  | _ => false

/-- The last situation that the client of slot `i` was told of, since it connected and
the match was last reset. -/
def lobbyShown (i : Slot) (log : Log F) : Option LobbyStatus :=
  latest (Event.startsLobby i) (Event.tellsLobby i) log

/-- A countdown was stopped while a client was there that had been told of it. -/
def CountdownLost (log : Log F) : Prop :=
  ∃ x past, (x :: past) <:+ log ∧ x.event.stopsCountdown = true ∧
    ∃ i, (x.state.players i).connected = true ∧ lobbyShown i past = some .counting

/-- Every client knows the situation of the server, if it was told any. -/
def LobbyKnown (w : Server F) : Prop :=
  ∀ i, (w.state.players i).connected = true → ∀ status, lobbyShown i w.log = some status →
    status = w.state.lobbyStatus

theorem ServerState.lobbyStatus_of_closed {s : ServerState F} (h : s.phase ≠ .lobbyOpen) :
    s.lobbyStatus = .closed := if_neg h

theorem lobbyShown_cons_start {i : Slot} {x : Entry (ServerState F) (Event F)} {log : Log F}
    (h : x.event.startsLobby i = true) : lobbyShown i (x :: log) = none := latest_cons_stop h

theorem lobbyShown_cons {i : Slot} {x : Entry (ServerState F) (Event F)} {log : Log F}
    (h : x.event.startsLobby i = false) :
    lobbyShown i (x :: log) = (x.event.tellsLobby i).or (lobbyShown i log) := latest_cons h

theorem CountdownLost.mono {x : Entry (ServerState F) (Event F)} {log : Log F}
    (h : CountdownLost log) : CountdownLost (x :: log) := by
  obtain ⟨y, past, hpast, hlost⟩ := h
  exact ⟨y, past, hpast.trans (List.suffix_cons x log), hlost⟩

/-- No countdown is lost where none was stopped. -/
theorem not_countdownLost {log : Log F} (h : ∀ x ∈ log, x.event.stopsCountdown = false) :
    ¬CountdownLost log := by
  rintro ⟨x, past, hpast, hstop, _⟩
  rw [h x (hpast.subset List.mem_cons_self)] at hstop
  cases hstop

/-- An event that tells nothing and keeps the situation keeps what the clients know. -/
theorem LobbyKnown.kept {w : Server F} (h : LobbyKnown w) {e : Event F} {s : ServerState F}
    (htells : ∀ i, e.tellsLobby i = none) (hstatus : s.lobbyStatus = w.state.lobbyStatus)
    (hconn : ∀ i, e.startsLobby i = false → (s.players i).connected = true →
      (w.state.players i).connected = true) : LobbyKnown (w.record e s) := by
  intro i hi status hshown
  rw [System.record_log] at hshown
  rw [System.record_state, hstatus]
  cases hstart : e.startsLobby i with
  | true =>
    rw [lobbyShown_cons_start hstart] at hshown
    cases hshown
  | false =>
    rw [lobbyShown_cons hstart, htells i, Option.none_or] at hshown
    exact h i (hconn i hstart hi) status hshown

/-- Replacing one entry keeps what the clients know, if the client was there or is not. -/
theorem LobbyKnown.setPlayer {w : Server F} (h : LobbyKnown w) {e : Event F} {i : Slot}
    {p : Player F} (htells : ∀ j, e.tellsLobby j = none)
    (hp : p.connected = true → (w.state.players i).connected = true) :
    LobbyKnown (w.record e (w.state.setPlayer i p)) := by
  refine h.kept htells rfl fun j _ hj => ?_
  by_cases hji : j = i
  · subst hji
    rw [ServerState.setPlayer_self] at hj
    exact hp hj
  · rwa [ServerState.setPlayer_of_ne _ _ hji] at hj

variable [CFloat F]

omit [CFloat F] in
/-- A line of the lobby tells the situation, where the clock reads positive times. -/
theorem LineOk.lobbyStatus {w : Server F} {i : Slot} {via : Via} {line : ServerLine F}
    (h : LineOk w i via line) (hclock : ∀ n, 0 < w.env n) {status : LobbyStatus}
    (hstatus : line.lobbyStatus = some status) : status = w.state.lobbyStatus := by
  cases line with
  | lobbyWaiting =>
    obtain ⟨hopen, hidle⟩ : w.state.phase = .lobbyOpen ∧ w.state.joinDeadline = 0 := by
      cases via <;> exact h
    rw [← Option.some.inj hstatus, ServerState.lobbyStatus, if_pos hopen, if_pos hidle]
  | lobbyOpen n =>
    obtain ⟨hopen, hcount⟩ : w.state.phase = .lobbyOpen ∧
        ((∀ n, 0 < w.env n) → w.state.joinDeadline ≠ 0) := by cases via <;> exact h
    rw [← Option.some.inj hstatus, ServerState.lobbyStatus, if_pos hopen, if_neg (hcount hclock)]
  | lobbyClosed =>
    have hclosed : w.state.phase ≠ .lobbyOpen := by cases via <;> exact h
    rw [← Option.some.inj hstatus, ServerState.lobbyStatus_of_closed hclosed]
  | _ => cases hstatus

/-- The event changes the situation for a line that follows it at once. -/
def Event.setsLobby : Event F → Bool
  | .lobbyOpened _ => true
  | .lobbyClosed => true
  | _ => false

/-- A line that was queued tells its client the situation, and nobody else anything. -/
theorem LobbyKnown.queued {w : Server F} (h : LobbyKnown w) (hclock : ∀ n, 0 < w.env n)
    {i : Slot} {via : Via} {line : ServerLine F} {p : Player F} (hline : LineOk w i via line)
    (hqueue : (w.state.players i).queueVia via line = some p) :
    LobbyKnown (w.record (.queued i via line) (w.state.setPlayer i p)) := by
  intro j hj status hshown
  rw [System.record_log, lobbyShown_cons rfl] at hshown
  have hconn : (w.state.players j).connected = true := by
    by_cases hji : j = i
    · subst hji
      rw [System.record_state, ServerState.setPlayer_self, Player.queueVia_eq_some hqueue] at hj
      exact hj
    · rwa [System.record_state, ServerState.setPlayer_of_ne _ _ hji] at hj
  by_cases htold : i = j ∧ line.lobbyStatus ≠ none
  · obtain ⟨rfl, hsome⟩ := htold
    obtain ⟨told, htold⟩ := Option.ne_none_iff_exists'.mp hsome
    simp only [Event.tellsLobby, if_pos, htold, Option.some_or, Option.some.injEq] at hshown
    rw [← hshown]
    exact hline.lobbyStatus hclock htold
  · have hnone : (Event.queued i via line).tellsLobby j = none := by
      by_cases hij : i = j
      · simpa [Event.tellsLobby, hij] using htold
      · simp [Event.tellsLobby, hij]
    rw [hnone, Option.none_or] at hshown
    exact h j hconn status hshown

omit [CFloat F] in
/-- Stopping the countdown keeps what the clients know exactly when it did not run, or
nobody there was told of it. -/
theorem LobbyKnown.cancelled_iff {w : Server F} (h : LobbyKnown w)
    (hopen : w.state.phase = .lobbyOpen) :
    LobbyKnown (w.record (.countdownCancelled w.state.joinDeadline)
        { w.state with joinDeadline := 0 }) ↔
      (w.state.joinDeadline ≠ 0 → ∀ i, (w.state.players i).connected = true →
        lobbyShown i w.log ≠ some .counting) := by
  have hwaiting : ({ w.state with joinDeadline := 0 } : ServerState F).lobbyStatus = .waiting := by
    rw [ServerState.lobbyStatus, if_pos hopen, if_pos rfl]
  constructor
  · intro hafter _ i hi hshown
    have htold := hafter i hi .counting (by rwa [System.record_log, lobbyShown_cons rfl])
    rw [System.record_state, hwaiting] at htold
    cases htold
  · intro hquiet i hi status hshown
    rw [System.record_log, lobbyShown_cons rfl] at hshown
    have hbefore := h i hi status hshown
    rw [ServerState.lobbyStatus, if_pos hopen] at hbefore
    rw [System.record_state, hwaiting]
    split at hbefore
    · exact hbefore
    · rename_i hcount
      rw [hbefore] at hshown
      exact absurd hshown (hquiet hcount i hi)

/-- What the clients know is kept by every action that needs no line of its own, where
the clock reads positive times and no countdown is lost. -/
theorem Action.lobbyKnown {w : Server F} {e : Event F} {s : ServerState F} (h : Action w e s)
    (he : w.state.phase = .lobbyOpen → e.setsLobby = false) (hclock : ∀ n, 0 < w.env n)
    (hkept : ¬CountdownLost (w.record e s).log) (hw : LobbyKnown w) :
    LobbyKnown (w.record e s) := by
  cases h with
  | @accept i fd hfree =>
    refine hw.kept (fun _ => rfl) rfl fun j hstart hj => ?_
    have hji : j ≠ i := by
      rintro rfl
      simp [Event.startsLobby, Event.accepts] at hstart
    rwa [show ({ w.state.setPlayer i (initPlayerSlot fd w.state.nextId) with
        nextId := w.state.nextId + 1 } : ServerState F).players j = w.state.players j from
      ServerState.setPlayer_of_ne _ _ hji] at hj
  | receive hconn => exact hw.setPlayer (fun _ => rfl) fun hp => hp
  | pop hconn => exact hw.setPlayer (fun _ => rfl) fun hp => hp
  | flush hconn => exact hw.setPlayer (fun _ => rfl) fun hp => hp
  | queue hconn hline hqueue => exact hw.queued hclock hline hqueue
  | refuse hqueue => exact hw.kept (fun _ => rfl) rfl fun _ _ hj => hj
  | drop hconn => exact hw.setPlayer (fun _ => rfl) fun hp => by cases hp
  | register hconn hnew hvalid hunused => exact hw.setPlayer (fun _ => rfl) fun hp => hp
  | choose hreg hout hchoice => exact hw.setPlayer (fun _ => rfl) fun hp => hp
  | spawn hreg hout hrange hfree => exact hw.setPlayer (fun _ => rfl) fun hp => hp
  | submit hrepick halive hnew hchoice => exact hw.setPlayer (fun _ => rfl) fun hp => hp
  | openLobby hreg hopen hidle => cases he hopen
  | enter hopen hplayer hcount => exact hw.setPlayer (fun _ => rfl) fun hp => hp
  | cancel hopen hempty =>
    refine (hw.cancelled_iff hopen).mpr fun hcount i hi hshown => hkept ?_
    exact ⟨_, w.log, List.suffix_refl _, decide_eq_true hcount, i, hi, hshown⟩
  | closeLobby hopen hcount htime => cases he hopen
  | start hlater horder =>
    refine hw.kept (fun _ => rfl) ?_ fun i _ hi => by rwa [← Player.enterRound_connected]
    rw [ServerState.lobbyStatus_of_closed hlater]
    rfl
  | finish hlater horder hwhy =>
    refine hw.kept (fun _ => rfl) ?_ fun _ _ hi => hi
    rw [ServerState.lobbyStatus_of_closed hlater]
    rfl
  | applyRepicks hrepick hall =>
    refine hw.kept (fun _ => rfl) rfl fun i _ hi => ?_
    simp only [Player.applyRepick] at hi
    split at hi <;> exact hi
  | enterRepick hlater hround hresolved =>
    refine hw.kept (fun _ => rfl) ?_ fun _ _ hi => hi
    rw [ServerState.lobbyStatus_of_closed hlater]
    rfl
  | @tick dt hround =>
    have hchased := simulateChaseTick_chased w.state dt
    generalize (simulateChaseTick w.state dt).1 = t at hchased hkept
    refine hw.kept (fun _ => rfl) ?_ fun i _ hi => ?_
    · rw [hchased.table]
      rfl
    · obtain ⟨alive, x, y, hplayer⟩ := hchased.player i
      rw [hplayer] at hi
      exact hi
  | resolve hround => exact hw.kept (fun _ => rfl) rfl fun _ _ hj => hj
  | @pair a b x y hlater hround hresolved =>
    refine hw.kept (fun _ => rfl) rfl fun i _ hi => ?_
    simp only [ServerState.setPlayer_players] at hi
    split at hi
    · rename_i hib
      subst hib
      split at hi <;> simp_all
    · split at hi <;> simp_all
  | clearRound hlater hresolved => exact hw.kept (fun _ => rfl) rfl fun _ _ hj => hj
  | reset hover =>
    intro i _ status hshown
    rw [System.record_log, lobbyShown_cons_start rfl] at hshown
    cases hshown
  | resetProgress hreg hopen => exact hw.setPlayer (fun _ => rfl) fun hp => hp

/-- The property between steps: the clients know the situation of the lobby, if the clock
reads positive times and no countdown was lost. -/
def LobbyKept (w : Server F) : Prop :=
  (∀ n, 0 < w.env n) → ¬CountdownLost w.log → LobbyKnown w

theorem Action.lobbyKept {w : Server F} {e : Event F} {s : ServerState F} (h : Action w e s)
    (he : w.state.phase = .lobbyOpen → e.setsLobby = false) (hw : LobbyKept w) :
    LobbyKept (w.record e s) :=
  fun hclock hkept => h.lobbyKnown he hclock hkept (hw hclock fun hlost => hkept hlost.mono)

/-- Along actions that need no line of their own. -/
theorem LobbyKept.along {P : Event F → Prop} (hP : ∀ e, P e → e.setsLobby = false)
    {w v : Server F} (h : LobbyKept w) (hpath : Path Action P w v) : LobbyKept v :=
  hpath.invariant LobbyKept (fun _ e _ he hstep hu => hstep.lobbyKept (fun _ => hP e he) hu) h

/-- Along all actions of a match whose lobby is closed. -/
theorem LobbyKept.later {w v : Server F} (h : LobbyKept w) (hphase : w.state.phase ≠ .lobbyOpen)
    (hpath : Acts w v) : LobbyKept v :=
  (hpath.invariant (fun w => w.state.phase ≠ .lobbyOpen ∧ LobbyKept w)
    (fun _ _ _ he hstep hu =>
      ⟨hstep.later he hu.1, hstep.lobbyKept (fun hopen => absurd hopen hu.1) hu.2⟩)
    ⟨hphase, h⟩).2

omit [CFloat F] in
theorem Event.isNested.setsLobby {e : Event F} (h : e.isNested = true) : e.setsLobby = false := by
  cases e <;> first | rfl | cases h

theorem reevaluateState_lobbyKept {w : Server F} (hw : Inv w) (h : LobbyKept w) :
    LobbyKept (reevaluateState w) :=
  h.along (fun _ => Event.isNested.setsLobby) (reevaluateState_reacts w hw)

/-- What the broadcasts and handlers need to know. -/
theorem lobbyKept_restored : Restored (LobbyKept : Server F → Prop) LobbyKept :=
  .of_actions (fun _ _ h => h)
    (fun w e s _ hstep he => by
      have hkept : LobbyKept w → LobbyKept (w.record e s) := hstep.lobbyKept fun _ => by
        rcases he with ⟨i, via, line, rfl⟩ | ⟨i, via, line, rfl⟩ <;> rfl
      exact ⟨hkept, hkept⟩)
    (fun _ _ _ _ _ _ hstep => hstep.lobbyKept fun _ => rfl)
    (fun _ => reevaluateState_lobbyKept)

section Announced

/-- Everybody who is still there after the two loops of a broadcast was told its line. -/
theorem broadcast_shown {line : ServerLine F} {status : LobbyStatus}
    (hstatus : line.lobbyStatus = some status) {w : Server F}
    (hline : ∀ i, LineOk w i .broadcast line) {i : Slot}
    (hi : ((dropAll (offerAll line w).1 (offerAll line w).2).state.players i).connected = true) :
    lobbyShown i (dropAll (offerAll line w).1 (offerAll line w).2).log = some status := by
  obtain ⟨new, hlog, haccepts, hheard⟩ := broadcast_heard line w
  have hpath : Path Action (BroadcastEvent line) w
      (dropAll (offerAll line w).1 (offerAll line w).2) :=
    (offerAll_path (fun i => .inl ⟨i, rfl⟩) (fun i => .inr (.inl ⟨i, rfl⟩)) hline).trans
      (dropAll_path (fun i name => .inr (.inr ⟨i, name, rfl⟩)) _ _)
  obtain ⟨new', hlog', hevents⟩ := hpath.log_eq
  obtain rfl : new = new' := List.append_cancel_right (hlog.symm.trans hlog')
  have hstart : ∀ x ∈ new, Event.startsLobby i x.event = false := by
    intro x hx
    rw [Event.startsLobby, haccepts x hx i, Bool.or_false]
    rcases hevents x hx with ⟨j, he⟩ | ⟨j, he⟩ | ⟨j, name, he⟩ <;> rw [he] <;> rfl
  have htells : ∀ x ∈ new, x.event.tellsLobby i = none ∨ x.event.tellsLobby i = some status := by
    intro x hx
    rcases hevents x hx with ⟨j, he⟩ | ⟨j, he⟩ | ⟨j, name, he⟩ <;> rw [he]
    · by_cases hji : j = i
      · exact .inr (by rw [Event.tellsLobby, if_pos hji, hstatus])
      · exact .inl (if_neg hji)
    · exact .inl rfl
    · exact .inl rfl
  -- The client is there because the line was queued.
  have hqueued : ∃ x ∈ new, x.event.tellsLobby i ≠ none := by
    by_contra hnone
    simp only [not_exists, not_and, not_not] at hnone
    have hsilent : gather (heard i) new = [] := by
      refine gather_eq_nil fun x hx => ?_
      rcases hevents x hx with ⟨j, he⟩ | ⟨j, he⟩ | ⟨j, name, he⟩
      · have hji : j ≠ i := by
          rintro rfl
          have h := hnone x hx
          rw [he, Event.tellsLobby, if_pos rfl, hstatus] at h
          cases h
        unfold heard
        rw [he]
        exact if_neg hji
      · exact heard_eq_nil (by rw [he]; rfl) i
      · exact heard_eq_nil (by rw [he]; rfl) i
    rw [(hheard i hi).2] at hsilent
    cases hsilent
  rw [hlog]
  exact latest_append hstart htells hqueued

/-- A broadcast of a line of the lobby brings what the clients know up to date. -/
theorem queueBroadcast_lobbyKept {line : ServerLine F} {status : LobbyStatus}
    (hstatus : line.lobbyStatus = some status) {w : Server F} (hw : Inv w)
    (hline : ∀ i, LineOk w i .broadcast line) : LobbyKept (queueBroadcast line w) := by
  obtain ⟨v, hv, htold, hfit, hover⟩ := queueBroadcastWith_eq reevaluateState line w
  have hreacts := offerAll_dropAll_reacts hline
  rw [← htold] at hreacts
  have hknown : LobbyKept v := by
    intro hclock _ i hi told hshown
    rw [htold] at hi hshown
    rw [broadcast_shown hstatus hline hi] at hshown
    have henv : v.env = w.env := hreacts.env_eq
    rw [← Option.some.inj hshown, (hline i).lobbyStatus (henv ▸ hclock) hstatus, hv]
    rfl
  unfold queueBroadcast
  by_cases h : overflows line w.state
  · rw [hover h]
    exact reevaluateState_lobbyKept (hw.along hreacts) hknown
  · rwa [hfit h]

end Announced

/-- The admission, which may open the countdown. -/
theorem maybeAdmitPlayer_lobbyKept {i : Slot} {w : Server F} (hw : Inv w)
    (htile : OccupantsUnseen w.state i w.log)
    (h : LobbyKept w) : LobbyKept (maybeAdmitPlayer i w) := by
  refine lobbyKept_restored.maybeAdmitPlayer hw htile (fun hopened => ?_)
    (fun v hadm hv => hadm.action.lobbyKept (fun _ => rfl) hv) h
  have hphase : w.state.phase = .lobbyOpen := by cases hopened; assumption
  exact queueBroadcast_lobbyKept rfl (hopened.inv hw)
    fun _ => ⟨hphase, fun hclock => opened_joinDeadline i hclock⟩

/-- The closing of the lobby. -/
theorem closeLobbyIfNeeded_lobbyKept {w : Server F} (hw : Inv w) (h : LobbyKept w) :
    LobbyKept (closeLobbyIfNeeded w) := by
  rcases closeLobbyIfNeeded_eq w with hsame | ⟨hclose, heq⟩
  · rwa [hsame]
  · have hinv : Inv (closed w) := hclose.inv hw
    have hclosed : ∀ i, LineOk (closed w) i .broadcast .lobbyClosed := fun _ hopen => by
      simp [closed] at hopen
    obtain ⟨htold, hlater, horder⟩ := closingTold_reacts hinv
    have hknown : LobbyKept (closingTold w) := lobbyKept_restored.queueBroadcast _
      (hinv.along (queueBroadcast_reacts .lobbyClosed hinv hclosed)) (fun _ => trivial)
      (queueBroadcast_lobbyKept rfl hinv hclosed)
    rw [heq]
    exact hknown.along (fun _ => Event.isNested.setsLobby)
      (decideSetup_reacts (hinv.along htold) hlater horder)

/-- What the clients know of the lobby, between the steps of every run. -/
theorem lobbyKept_upheld : Upheld (LobbyKept : Server F → Prop) LobbyKept where
  toRestored := lobbyKept_restored
  quiet _ e _ _ hstep he h := hstep.lobbyKept (fun _ => by cases e <;> first | rfl | cases he) h
  dropNew _ _ _ _ _ hstep _ h := hstep.lobbyKept (fun _ => rfl) h
  hello _ _ _ hw hconn hargs h := lobbyKept_restored.hello
    (fun _ _ _ _ hstep hv => hstep.lobbyKept (fun _ => rfl) hv) hw hconn hargs h
  admits _ _ hw htile h := maybeAdmitPlayer_lobbyKept hw htile h
  repick w i args hw hconn h := by
    by_cases hphase : w.state.phase = .repick
    · exact h.later (by simp [hphase]) (handleRepickCommand_acts hw hconn)
    · simp only [handleRepickCommand, hphase, ne_eq, not_false_eq_true, if_true]
      exact lobbyKept_restored.reply _ hw rfl hconn trivial h
  closes _ hw h := closeLobbyIfNeeded_lobbyKept hw h
  expires w hw h := by
    by_cases hphase : w.state.phase = .setup
    · exact h.later (by simp [hphase]) (expireUnreadySetupPlayers_acts hw)
    · simpa [expireUnreadySetupPlayers, hphase] using h
  ticks w dt hw hphase h := h.later (by simp [hphase]) (chaseTick_acts hw hphase dt _)
  resets w _ h hphase := by
    have hpath : Path Action (fun e => e.setsLobby = false) w (resetMatch w) :=
      resetMatch_path ⟨fun _ => Event.isNested.setsLobby, fun _ _ => rfl, fun _ _ => rfl⟩ rfl
        (fun _ => rfl) hphase
    exact h.along (fun _ he => he) hpath

/-- In every state that a run of the loop reaches between two steps, the last situation of
the lobby that a connected client was told of is the situation of the server, if the clock
reads positive times and no countdown was stopped that a connected client was told of. -/
theorem lobby_status_known {w : Server F} (h : Reached true w) (hclock : ∀ n, 0 < w.env n)
    (hkept : ¬CountdownLost w.log) {i : Slot} (hconn : (w.state.players i).connected = true)
    {status : LobbyStatus} (hshown : lobbyShown i w.log = some status) :
    status = w.state.lobbyStatus := by
  have hinit : ∀ clock, LobbyKept (Server.init clock : Server F) := by
    intro clock _ _ j _ told htold
    have hnone : lobbyShown j (Server.init clock : Server F).log = none := rfl
    rw [hnone] at htold
    cases htold
  have hknown : LobbyKept w := by
    refine lobbyKept_upheld.reached hinit ?_ h
    exact fun _ hloop => by cases hloop
  exact hknown hclock hkept i hconn status hshown

/-- In the lobby of two players the countdown is known to both of them. -/
theorem lobby_status_known_duel :
    LobbyStatus.counting = (serverAfter (lateClock 60) duel.dropLast).state.lobbyStatus :=
  lobby_status_known duelLobby_reached
    (fun n => by simp only [serverAfter_env, lateClock]; split <;> decide)
    (not_countdownLost (by decide +kernel)) (i := 1) (by decide +kernel) (by decide +kernel)

/-- The only player of a lobby leaves while another client is registered. -/
def leaveBesideClient : List Step :=
  .accept 3 :: (say 0 "HELLO A" ++ .accept 4 :: (say 1 "HELLO B" ++ say 0 "CHOICE R" ++
    say 0 "SPAWN 2 2" ++ say 0 "QUIT"))

theorem leaveBesideClient_state :
    ((serverAfter (fun _ => 1) leaveBesideClient).state.players 1).isRegistered = true ∧
      lobbyShown 1 (serverAfter (fun _ => 1) leaveBesideClient).log = some .counting ∧
      (serverAfter (fun _ => 1) leaveBesideClient).state.lobbyStatus = .waiting := by
  decide +kernel

/-- The client then keeps a countdown that does not run. -/
theorem stopped_countdown_shown :
    Reached true (serverAfter (fun _ => 1) leaveBesideClient) ∧
      (∀ n, 0 < (serverAfter (fun _ => 1) leaveBesideClient).env n) ∧
      ¬∀ i, ((serverAfter (fun _ => 1) leaveBesideClient).state.players i).isRegistered = true →
        ∀ status, lobbyShown i (serverAfter (fun _ => 1) leaveBesideClient).log = some status →
          status = (serverAfter (fun _ => 1) leaveBesideClient).state.lobbyStatus := by
  obtain ⟨hreg, hshown, hstatus⟩ := leaveBesideClient_state
  refine ⟨reached_serverAfter _ (by simp [leaveBesideClient, Step.inLoop]), fun n => ?_,
    fun hknown => ?_⟩
  · rw [serverAfter_env]
    decide
  · have htold := hknown 1 hreg .counting hshown
    rw [hstatus] at htold
    cases htold

end BattleRoyale
