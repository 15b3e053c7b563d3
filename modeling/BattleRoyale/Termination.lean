import BattleRoyale.Refinement

/-!
# The re-entrant calls end

The functions of the state engine again, this time with a re-entrant call that may fail
to return: `none` stands for a call of `reevaluate_state` that is nested too deep. The
functions below follow those of the state engine line by line. Every re-entrant call
comes after a drop, so that a call with `n` connected clients returns when `n + 1` levels
are allowed, and its result is the one of the state engine.
-/

namespace BattleRoyale

open Recorded

variable {F : Type}

/-- The number of connected clients. -/
def connectedCount (s : ServerState F) : ℕ := slots.countP (fun i => (s.players i).connected)

/-- Nobody gets connected. -/
def Shrinks (s t : ServerState F) : Prop :=
  ∀ i, (t.players i).connected = true → (s.players i).connected = true

theorem Shrinks.refl (s : ServerState F) : Shrinks s s := fun _ h => h

theorem Shrinks.trans {s t u : ServerState F} (h : Shrinks s t) (h' : Shrinks t u) :
    Shrinks s u := fun i hi => h i (h' i hi)

/-- States with the same connected slots. -/
theorem Shrinks.of_eq {s t : ServerState F}
    (h : ∀ i, (t.players i).connected = (s.players i).connected) : Shrinks s t :=
  fun i hi => h i ▸ hi

theorem Shrinks.count_le {s t : ServerState F} (h : Shrinks s t) :
    connectedCount t ≤ connectedCount s :=
  List.countP_mono_left fun i _ hi => h i hi

/-- A client that is gone counts. -/
theorem Shrinks.count_lt {s t : ServerState F} (h : Shrinks s t) {i : Slot}
    (hs : (s.players i).connected = true) (ht : (t.players i).connected = false) :
    connectedCount t < connectedCount s := by
  unfold connectedCount
  have hsplit : ∀ (is : List Slot), i ∈ is →
      is.countP (fun j => (t.players j).connected) <
        is.countP (fun j => (s.players j).connected) := by
    intro is
    induction is with
    | nil => exact fun hmem => absurd hmem List.not_mem_nil
    | cons j is ih =>
      intro hmem
      have hrest : is.countP (fun j => (t.players j).connected) ≤
          is.countP (fun j => (s.players j).connected) :=
        List.countP_mono_left fun k _ hk => h k hk
      rcases List.mem_cons.mp hmem with rfl | hmem
      · rw [List.countP_cons, List.countP_cons]
        simp only [hs, ht, Bool.false_eq_true, if_false, if_true]
        omega
      · have hlt := ih hmem
        rw [List.countP_cons, List.countP_cons]
        have hj := h j
        cases hjt : (t.players j).connected with
        | false =>
          simp only [Bool.false_eq_true, if_false]
          omega
        | true =>
          simp only [hj hjt, if_true]
          omega
  exact hsplit slots (mem_slots i)

/-- There are so many slots. -/
theorem connectedCount_le (s : ServerState F) : connectedCount s ≤ MAX_PLAYERS := by
  have hlength : slots.length = MAX_PLAYERS := List.length_finRange
  rw [← hlength]
  exact List.countP_le_length

variable [CFloat F]

section Partial

variable (reeval : Server F → Option (Server F))

/-- `queue_broadcast`. -/
def queueBroadcastIn (line : ServerLine F) (w : Server F) : Option (Server F) :=
  match offerAll line w with
  | ([], w) => some w
  | (toDrop, w) => reeval (dropAll toDrop w)

/-- `broadcast_game_state`. -/
def broadcastGameStateIn (w : Server F) : Option (Server F) :=
  match slots.foldl offerGameState (false, w) with
  | (false, w) => some w
  | (true, w) => reeval w

/-- The loop of `broadcast_positions` at one slot. -/
def broadcastPositionIn (w : Server F) (i : Slot) : Option (Server F) :=
  if (w.state.players i).isAdmitted then queueBroadcastIn reeval (w.state.players i).line w
  else some w

/-- `broadcast_positions`. -/
def broadcastPositionsIn (w : Server F) : Option (Server F) :=
  slots.foldlM (broadcastPositionIn reeval) w

/-- `start_active_round`. -/
def startActiveRoundIn (w : Server F) : Option (Server F) :=
  let w := w.record .roundStarted (startRound w.time w.state)
  (queueBroadcastIn reeval (.roundStart w.state.roundNo ROUND_SECONDS) w).bind
    (broadcastPositionsIn reeval)

/-- `finish_repicks`. -/
def finishRepicksIn (w : Server F) : Option (Server F) :=
  let w := w.record .repicksFinished
    { w.state with players := fun i => (w.state.players i).applyRepick }
  (queueBroadcastIn reeval .repickDone w).bind fun w =>
    (broadcastPositionsIn reeval w).bind (startActiveRoundIn reeval)

/-- `drop_player`. -/
def dropPlayerIn (i : Slot) (announce : Bool) (w : Server F) : Option (Server F) :=
  let p := w.state.players i
  if p.connected && announce && p.registered then
    (queueBroadcastIn reeval (.left p.name) (dropSlot announce i w)).bind
      (broadcastGameStateIn reeval)
  else some (dropSlot announce i w)

/-- The body of `reevaluate_state`. -/
def reevaluateBodyIn (w : Server F) : Option (Server F) :=
  match w.state.phase with
  | .gameOver => some w
  | .lobbyOpen => some (reevaluateLobbyOpen w)
  | .setup =>
    if admittedCount w.state < 2 then some (endGame w)
    else if allAdmittedReady w.state then startActiveRoundIn reeval w
    else some w
  | .repick =>
    if activeAliveCount w.state ≤ 1 then some (endGame w)
    else if allAliveRepicked w.state then finishRepicksIn reeval w
    else some w
  | .roundActive => some (reevaluateRoundActive w)

end Partial

/-- `reevaluate_state` with so many nested calls allowed, itself included. -/
def reevaluateIn : ℕ → Server F → Option (Server F)
  | 0, _ => none
  | depth + 1, w => reevaluateBodyIn (reevaluateIn depth) w

/-- The partial call `r` returns what `f` does on every server with fewer than `n`
connected clients. -/
def ReturnsBelow (n : ℕ) (r : Server F → Option (Server F)) (f : Server F → Server F) : Prop :=
  ∀ v, connectedCount v.state < n → r v = some (f v) ∧ Shrinks v.state (f v).state

/-- A silent drop connects nobody. -/
theorem dropSlot_shrinks (announce : Bool) (i : Slot) (w : Server F) :
    Shrinks w.state (dropSlot announce i w).state := by
  intro j hj
  cases hc : (w.state.players i).connected with
  | false => rwa [dropSlot_of_free hc] at hj
  | true =>
    rw [dropSlot_of_connected hc, System.record_state, ServerState.setPlayer_players] at hj
    split at hj
    · simp [Player.cleared, Player.zero] at hj
    · exact hj

omit [CFloat F] in
/-- Buffers do not matter. -/
theorem Rebuffered.shrinks {s t : ServerState F} (h : Rebuffered s t) : Shrinks s t :=
  .of_eq fun i => by rw [h.player i]

/-- The two loops of a broadcast connect nobody, and drop somebody if there was an
overflow. -/
theorem broadcast_shrinks (line : ServerLine F) (s : ServerState F) :
    Shrinks s (s.broadcast line) ∧
      (overflows line s → connectedCount (s.broadcast line) < connectedCount s) := by
  have hshrinks : Shrinks s (s.broadcast line) := by
    intro i hi
    rcases (s.players i).afterBroadcast_cases line with ⟨outbuf, hp⟩ | ⟨hconn, _, _⟩
    · simp only [ServerState.broadcast, hp] at hi
      exact hi
    · exact hconn
  refine ⟨hshrinks, ?_⟩
  rintro ⟨i, hconn, hfull⟩
  refine hshrinks.count_lt hconn ?_
  simp [ServerState.broadcast, Player.afterBroadcast_of_none hconn hfull, Player.cleared,
    Player.zero]

/-- The loop of `broadcast_game_state` connects nobody, and sets its flag when it drops
somebody. -/
theorem foldl_offerGameState_shrinks (is : List Slot) (acc : Bool × Server F) :
    Shrinks acc.2.state (is.foldl offerGameState acc).2.state ∧
      ((is.foldl offerGameState acc).1 = true → acc.1 = true ∨
        connectedCount (is.foldl offerGameState acc).2.state < connectedCount acc.2.state) := by
  induction is generalizing acc with
  | nil => exact ⟨.refl _, .inl⟩
  | cons i is ih =>
    rw [List.foldl_cons]
    obtain ⟨hrest, hflag⟩ := ih (offerGameState acc i)
    have hstep : Shrinks acc.2.state (offerGameState acc i).2.state ∧
        ((offerGameState acc i).1 = true → acc.1 = true ∨
          connectedCount (offerGameState acc i).2.state < connectedCount acc.2.state) := by
      unfold offerGameState
      split
      swap
      · exact ⟨.refl _, .inl⟩
      rename_i hreg
      have hsame : Rebuffered acc.2.state (queueGameStateForPlayer i acc.2).2.state :=
        queueSeq_rebuffered _ _ _ _
      split <;> rename_i v hq <;> rw [hq] at hsame
      · exact ⟨hsame.shrinks, .inl⟩
      · have hdropped := hsame.shrinks.trans (dropSlot_shrinks false i v)
        refine ⟨hdropped, fun _ => .inr ?_⟩
        exact hdropped.count_lt (Player.connected_of_isRegistered hreg)
          (dropSlot_connected false i v)
    refine ⟨hstep.1.trans hrest, fun h => ?_⟩
    rcases hflag h with hdone | hlt
    · rcases hstep.2 hdone with hacc | hlt
      · exact .inl hacc
      · exact .inr (hrest.count_le.trans_lt hlt)
    · exact .inr (hlt.trans_le hstep.1.count_le)

/-- The loop of `end_game` connects nobody. -/
theorem endGame_shrinks (w : Server F) : Shrinks w.state (endGame w).state := by
  have hstep : ∀ (v : Server F) i, Shrinks v.state (announceResult v i).state := by
    intro v i
    unfold announceResult
    split
    swap
    · exact .refl _
    have hsame : Shrinks v.state (queueGameOverResult i v).2.state := by
      unfold queueGameOverResult
      split
      · exact .refl _
      · exact (queueTo_rebuffered _ _ _ _).shrinks
    split <;> rename_i u hq <;> rw [hq] at hsame
    · exact hsame
    · exact hsame.trans (dropSlot_shrinks false i u)
  have hloop : ∀ (is : List Slot) (v : Server F),
      Shrinks v.state (is.foldl announceResult v).state := by
    intro is
    induction is with
    | nil => exact fun v => .refl _
    | cons i is ih => exact fun v => (hstep v i).trans (ih _)
  exact hloop slots (w.record .gameEnded { w.state with phase := .gameOver })

section Returns

variable {n : ℕ} {r : Server F → Option (Server F)} {f : Server F → Server F}

/-- `queue_broadcast` returns. -/
theorem queueBroadcastIn_eq (h : ReturnsBelow n r f) (line : ServerLine F) {w : Server F}
    (hw : connectedCount w.state ≤ n) :
    queueBroadcastIn r line w = some (queueBroadcastWith f line w) ∧
      Shrinks w.state (queueBroadcastWith f line w).state := by
  obtain ⟨v, hv, hdrop, hfit, hover⟩ := queueBroadcastWith_eq f line w
  obtain ⟨hshrinks, hless⟩ := broadcast_shrinks line w.state
  by_cases hfull : overflows line w.state
  · -- Somebody was dropped before the re-entrant call.
    have hcount : connectedCount v.state < n := by
      rw [hv]
      exact (hless hfull).trans_le hw
    obtain ⟨hr, hf⟩ := h v hcount
    rw [hover hfull]
    refine ⟨?_, (hv ▸ hshrinks).trans hf⟩
    unfold queueBroadcastIn
    split
    · rename_i u hu
      exact absurd hfull ((offerAll_eq_nil_iff line w).mp (by rw [hu]))
    · rename_i toDrop u _ hu
      rw [← hr, hdrop, hu]
  · rw [hfit hfull]
    refine ⟨?_, hv ▸ hshrinks⟩
    have hnil := (offerAll_eq_nil_iff line w).mpr hfull
    unfold queueBroadcastIn
    split
    · rename_i u hu
      rw [hdrop, hu]
      rfl
    · rename_i toDrop u hne hu
      rw [hu] at hnil
      exact absurd hnil hne

/-- `broadcast_game_state` returns. -/
theorem broadcastGameStateIn_eq (h : ReturnsBelow n r f) {w : Server F}
    (hw : connectedCount w.state ≤ n) :
    broadcastGameStateIn r w = some (broadcastGameStateWith f w) ∧
      Shrinks w.state (broadcastGameStateWith f w).state := by
  obtain ⟨hshrinks, hflag⟩ := foldl_offerGameState_shrinks slots (false, w)
  unfold broadcastGameStateIn broadcastGameStateWith
  generalize slots.foldl offerGameState (false, w) = acc at hshrinks hflag ⊢
  rcases acc with ⟨_ | _, v⟩
  · exact ⟨rfl, hshrinks⟩
  · have hless := (hflag rfl).resolve_left nofun
    obtain ⟨hr, hf⟩ := h v (hless.trans_le hw)
    exact ⟨hr, hshrinks.trans hf⟩

/-- `broadcast_positions` returns. -/
theorem broadcastPositionsIn_eq (h : ReturnsBelow n r f) {w : Server F}
    (hw : connectedCount w.state ≤ n) :
    broadcastPositionsIn r w = some (broadcastPositionsWith f w) ∧
      Shrinks w.state (broadcastPositionsWith f w).state := by
  have hstep : ∀ (v : Server F) i, connectedCount v.state ≤ n →
      broadcastPositionIn r v i = some (broadcastPositionWith f v i) ∧
        Shrinks v.state (broadcastPositionWith f v i).state := by
    intro v i hv
    unfold broadcastPositionIn broadcastPositionWith
    by_cases hadmitted : (v.state.players i).isAdmitted = true
    · rw [if_pos hadmitted, if_pos hadmitted]
      exact queueBroadcastIn_eq h _ hv
    · rw [if_neg hadmitted, if_neg hadmitted]
      exact ⟨rfl, .refl _⟩
  have hloop : ∀ (is : List Slot) (v : Server F), connectedCount v.state ≤ n →
      is.foldlM (broadcastPositionIn r) v = some (is.foldl (broadcastPositionWith f) v) ∧
        Shrinks v.state (is.foldl (broadcastPositionWith f) v).state := by
    intro is
    induction is with
    | nil => exact fun v _ => ⟨rfl, .refl _⟩
    | cons i is ih =>
      intro v hv
      obtain ⟨hone, hshrinks⟩ := hstep v i hv
      obtain ⟨hrest, hmore⟩ := ih _ (hshrinks.count_le.trans hv)
      refine ⟨?_, hshrinks.trans hmore⟩
      rw [List.foldlM_cons, hone]
      exact hrest
  exact hloop slots w hw

/-- `start_active_round` returns. -/
theorem startActiveRoundIn_eq (h : ReturnsBelow n r f) {w : Server F}
    (hw : connectedCount w.state ≤ n) :
    startActiveRoundIn r w = some (startActiveRoundWith f w) ∧
      Shrinks w.state (startActiveRoundWith f w).state := by
  unfold startActiveRoundIn startActiveRoundWith
  simp only
  generalize hu : w.record .roundStarted (startRound w.time w.state) = u
  have hstart : Shrinks w.state u.state := by
    subst hu
    refine .of_eq fun i => ?_
    simp only [System.record_state, startRound, Player.enterRound]
    split <;> rfl
  obtain ⟨hline, hone⟩ := queueBroadcastIn_eq h (.roundStart u.state.roundNo ROUND_SECONDS)
    (hstart.count_le.trans hw)
  obtain ⟨hpositions, htwo⟩ :=
    broadcastPositionsIn_eq h ((hstart.trans hone).count_le.trans hw)
  rw [hline]
  exact ⟨hpositions, (hstart.trans hone).trans htwo⟩

/-- `finish_repicks` returns. -/
theorem finishRepicksIn_eq (h : ReturnsBelow n r f) {w : Server F}
    (hw : connectedCount w.state ≤ n) :
    finishRepicksIn r w = some (finishRepicksWith f w) ∧
      Shrinks w.state (finishRepicksWith f w).state := by
  unfold finishRepicksIn finishRepicksWith
  simp only
  generalize hu : w.record .repicksFinished
    { w.state with players := fun i => (w.state.players i).applyRepick } = u
  have happly : Shrinks w.state u.state := by
    subst hu
    refine .of_eq fun i => ?_
    simp only [System.record_state, Player.applyRepick]
    split <;> rfl
  obtain ⟨hline, hone⟩ := queueBroadcastIn_eq h .repickDone (happly.count_le.trans hw)
  obtain ⟨hpositions, htwo⟩ :=
    broadcastPositionsIn_eq h ((happly.trans hone).count_le.trans hw)
  have hbefore := (happly.trans hone).trans htwo
  obtain ⟨hround, hthree⟩ := startActiveRoundIn_eq h (hbefore.count_le.trans hw)
  rw [hline]
  refine ⟨?_, hbefore.trans hthree⟩
  rw [Option.bind_some, hpositions, Option.bind_some]
  exact hround

/-- `drop_player` returns. -/
theorem dropPlayerIn_eq (h : ReturnsBelow n r f) (i : Slot) (announce : Bool) {w : Server F}
    (hw : connectedCount w.state ≤ n) :
    dropPlayerIn r i announce w = some
      (if (w.state.players i).connected && announce && (w.state.players i).registered then
        broadcastGameStateWith f
          (queueBroadcastWith f (.left (w.state.players i).name) (dropSlot announce i w))
      else dropSlot announce i w) := by
  have hdrop := dropSlot_shrinks announce i w
  unfold dropPlayerIn
  simp only
  by_cases hann : ((w.state.players i).connected && announce &&
      (w.state.players i).registered) = true
  · rw [if_pos hann, if_pos hann]
    obtain ⟨hline, hone⟩ := queueBroadcastIn_eq h (.left (w.state.players i).name)
      (hdrop.count_le.trans hw)
    rw [hline, Option.bind_some]
    exact (broadcastGameStateIn_eq h ((hdrop.trans hone).count_le.trans hw)).1
  · rw [if_neg hann, if_neg hann]

/-- The body of `reevaluate_state` returns when its re-entrant calls return on servers
with fewer connected clients: it makes no other ones. -/
theorem reevaluateBodyIn_eq (h : ReturnsBelow n r f) {w : Server F}
    (hw : connectedCount w.state ≤ n) :
    reevaluateBodyIn r w = some (reevaluateBody f w) ∧
      Shrinks w.state (reevaluateBody f w).state := by
  unfold reevaluateBodyIn reevaluateBody
  cases w.state.phase with
  | gameOver => exact ⟨rfl, .refl _⟩
  | lobbyOpen =>
    refine ⟨rfl, ?_⟩
    dsimp only
    unfold reevaluateLobbyOpen
    split <;> exact .refl _
  | setup =>
    dsimp only
    unfold reevaluateSetup
    by_cases hfew : admittedCount w.state < 2
    · rw [if_pos hfew, if_pos hfew]
      exact ⟨rfl, endGame_shrinks w⟩
    rw [if_neg hfew, if_neg hfew]
    by_cases hready : allAdmittedReady w.state = true
    · rw [if_pos hready, if_pos hready]
      exact startActiveRoundIn_eq h hw
    · rw [if_neg hready, if_neg hready]
      exact ⟨rfl, .refl _⟩
  | repick =>
    dsimp only
    unfold reevaluateRepick
    by_cases hfew : activeAliveCount w.state ≤ 1
    · rw [if_pos hfew, if_pos hfew]
      exact ⟨rfl, endGame_shrinks w⟩
    rw [if_neg hfew, if_neg hfew]
    by_cases hall : allAliveRepicked w.state = true
    · rw [if_pos hall, if_pos hall]
      exact finishRepicksIn_eq h hw
    · rw [if_neg hall, if_neg hall]
      exact ⟨rfl, .refl _⟩
  | roundActive =>
    refine ⟨rfl, ?_⟩
    dsimp only
    unfold reevaluateRoundActive
    split
    · exact endGame_shrinks w
    · exact .refl _

end Returns

/-- A call with fewer connected clients than levels returns, and levels beyond that do
not change its result. -/
theorem reevaluateIn_eq (depth levels : ℕ) (w : Server F)
    (hdepth : connectedCount w.state < depth) (hlevels : connectedCount w.state < levels) :
    reevaluateIn depth w = some (reevaluateWithin levels w) ∧
      Shrinks w.state (reevaluateWithin levels w).state := by
  induction depth generalizing levels w with
  | zero => omega
  | succ depth ih =>
    cases levels with
    | zero => omega
    | succ levels =>
      have hbelow : ReturnsBelow (connectedCount w.state) (reevaluateIn depth)
          (reevaluateWithin levels) :=
        fun v hv => ih levels v (by omega) (by omega)
      exact reevaluateBodyIn_eq hbelow le_rfl

/-- The partial call returns what the state engine computes. -/
theorem returnsBelow_reevaluateIn (depth : ℕ) :
    ReturnsBelow depth (reevaluateIn depth) (reevaluateState : Server F → Server F) := by
  intro v hv
  have hcount := connectedCount_le v.state
  exact reevaluateIn_eq depth (MAX_PLAYERS + 1) v hv (by omega)

/-- All re-entrant calls end, whichever function is entered first and whatever the state:
with `n` connected clients `reevaluate_state` needs `n + 1` levels, at most 33, and every
other function needs `n`; `end_game` makes no re-entrant call. A call of
`reevaluate_state` re-enters it only on servers with fewer connected clients. -/
theorem calls_terminate (w : Server F) :
    connectedCount w.state ≤ MAX_PLAYERS ∧
      (∀ depth, connectedCount w.state < depth →
        reevaluateIn depth w = some (reevaluateState w)) ∧
      (∀ r, (∀ v, connectedCount v.state < connectedCount w.state →
          r v = some (reevaluateState v)) →
        reevaluateBodyIn r w = some (reevaluateState w)) ∧
      ∀ depth, connectedCount w.state ≤ depth →
        (∀ i announce, dropPlayerIn (reevaluateIn depth) i announce w =
          some (dropPlayer i announce w)) ∧
        (∀ line, queueBroadcastIn (reevaluateIn depth) line w = some (queueBroadcast line w)) ∧
        broadcastGameStateIn (reevaluateIn depth) w = some (broadcastGameState w) ∧
        broadcastPositionsIn (reevaluateIn depth) w = some (broadcastPositions w) ∧
        startActiveRoundIn (reevaluateIn depth) w = some (startActiveRound w) ∧
        finishRepicksIn (reevaluateIn depth) w = some (finishRepicks w) := by
  have hmax := connectedCount_le w.state
  refine ⟨hmax, fun depth hdepth => ?_, fun r hr => ?_, fun depth hdepth => ?_⟩
  · exact (returnsBelow_reevaluateIn depth w hdepth).1
  · -- One level is the body, and the calls below it have fewer connected clients.
    have hbelow : ReturnsBelow (connectedCount w.state) r (reevaluateWithin MAX_PLAYERS) := by
      intro v hv
      obtain ⟨hin, hshrinks⟩ :=
        reevaluateIn_eq (connectedCount w.state) MAX_PLAYERS v hv (by omega)
      have hsame := (returnsBelow_reevaluateIn (connectedCount w.state) v hv).1
      rw [hin] at hsame
      exact ⟨by rw [hr v hv, hsame], hshrinks⟩
    exact (reevaluateBodyIn_eq hbelow le_rfl).1
  · have hbelow := @returnsBelow_reevaluateIn F _ depth
    refine ⟨fun i announce => dropPlayerIn_eq hbelow i announce hdepth,
      fun line => (queueBroadcastIn_eq hbelow line hdepth).1,
      (broadcastGameStateIn_eq hbelow hdepth).1, (broadcastPositionsIn_eq hbelow hdepth).1,
      (startActiveRoundIn_eq hbelow hdepth).1, (finishRepicksIn_eq hbelow hdepth).1⟩

end BattleRoyale
