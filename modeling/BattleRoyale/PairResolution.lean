import BattleRoyale.Acknowledgements
import BattleRoyale.Exact
import BattleRoyale.Library.Pursuit
import BattleRoyale.PhaseProgress

/-!
# The pairs of a resolved round

`resolve_round` computes its pairs once and resolves them one after another. The broadcast
of one pair may drop players of later pairs, and the slot of a dropped player is cleared:
its empty choice loses to nothing and beats every other choice. The players of a round lose
to living opponents only, exactly when no pair is down to one player at its turn.
-/

namespace BattleRoyale

open Recorded

section Pairs

variable {F : Type} [CFloat F]

/-- The players of the pairs. -/
def paired (pairs : List Pair) : List Slot := pairs.flatMap fun pair => [pair.a, pair.b]

/-- One comparison keeps the best pair or takes the one it looks at. -/
theorem considerPair_cases (s : ServerState F) (unmatched : List Slot) (best : Option Candidate)
    (ij : ℕ × ℕ) : considerPair s unmatched best ij = best ∨
      ∃ d, considerPair s unmatched best ij = some ⟨ij.1, ij.2, d⟩ := by
  unfold considerPair
  cases unmatched[ij.1]? with
  | none => exact .inl rfl
  | some pi =>
    cases unmatched[ij.2]? with
    | none => exact .inl rfl
    | some pj =>
      cases best with
      | none => exact .inr ⟨_, rfl⟩
      | some best => exact (ite_eq_or_eq _ _ _).elim (fun h => .inr ⟨_, h⟩) .inl

/-- The closest pair is at two positions, the earlier one first. -/
theorem closestPair_some {s : ServerState F} {unmatched : List Slot} {c : Candidate}
    (h : closestPair s unmatched = some c) : c.i < c.j := by
  have hscan : ∀ (ijs : List (ℕ × ℕ)) (best : Option Candidate), (∀ ij ∈ ijs, ij.1 < ij.2) →
      (∀ c, best = some c → c.i < c.j) →
      ∀ c, ijs.foldl (considerPair s unmatched) best = some c → c.i < c.j := by
    intro ijs
    induction ijs with
    | nil => exact fun best _ hbest => hbest
    | cons ij ijs ih =>
      intro best hall hbest
      refine ih _ (fun x hx => hall x (List.mem_cons_of_mem _ hx)) fun c hc => ?_
      rcases considerPair_cases s unmatched best ij with hsame | ⟨d, hnew⟩
      · exact hbest c (hsame ▸ hc)
      · rw [hnew] at hc
        cases hc
        exact hall ij List.mem_cons_self
  refine hscan _ none (fun ij hij => ?_) (by simp) c h
  simp only [positionPairs, List.mem_flatMap, List.mem_map, List.mem_filter,
    decide_eq_true_eq] at hij
  obtain ⟨i, _, j, ⟨_, hlt⟩, rfl⟩ := hij
  exact hlt

/-- Two elements and the rest of a list without them. -/
theorem perm_erase_pair {l : List Slot} {i j : ℕ} (hij : i < j) {a b : Slot}
    (ha : l[i]? = some a) (hb : l[j]? = some b) :
    (b :: a :: (l.eraseIdx j).eraseIdx i).Perm l := by
  obtain ⟨hi, rfl⟩ := List.getElem?_eq_some_iff.mp ha
  obtain ⟨hj, rfl⟩ := List.getElem?_eq_some_iff.mp hb
  have hlen : i < (l.eraseIdx j).length := by
    rw [List.length_eraseIdx_of_lt hj]
    omega
  have hfirst : (l.eraseIdx j)[i] = l[i] := List.getElem_eraseIdx_of_lt hlen hij
  have hinner := List.getElem_cons_eraseIdx_perm hlen
  rw [hfirst] at hinner
  exact (hinner.cons _).trans (List.getElem_cons_eraseIdx_perm hj)

/-- Nobody is matched twice, and only unmatched players are. -/
theorem matchPairs_paired (s : ServerState F) (room : ℕ) {unmatched : List Slot}
    (h : unmatched.Nodup) : (paired (matchPairs s room unmatched).1).Nodup ∧
      ∀ i ∈ paired (matchPairs s room unmatched).1, i ∈ unmatched := by
  induction room generalizing unmatched with
  | zero => exact ⟨List.nodup_nil, by simp [matchPairs, paired]⟩
  | succ room ih =>
    have hnone : (paired ([] : List Pair)).Nodup ∧ ∀ i ∈ paired [], i ∈ unmatched :=
      ⟨List.nodup_nil, by simp [paired]⟩
    unfold matchPairs
    split
    · exact hnone
    split
    · exact hnone
    rename_i best hbest
    split
    · rename_i a b ha hb
      have hij := closestPair_some hbest
      have hmax : max best.i best.j = best.j := max_eq_right hij.le
      have hmin : min best.i best.j = best.i := min_eq_left hij.le
      simp only [hmax, hmin]
      have hperm := perm_erase_pair hij ha hb
      generalize (unmatched.eraseIdx best.j).eraseIdx best.i = rest at hperm ⊢
      have hnodup := hperm.nodup_iff.mpr h
      simp only [List.nodup_cons, List.mem_cons, not_or] at hnodup
      obtain ⟨⟨hba, hb'⟩, ha', hrest⟩ := hnodup
      obtain ⟨hpaired, hin⟩ := ih hrest
      have hmem : ∀ i, i = b ∨ i = a ∨ i ∈ rest → i ∈ unmatched := fun i hi =>
        hperm.mem_iff.mp (by simpa using hi)
      refine ⟨?_, fun i hi => ?_⟩
      · show (a :: b :: paired (matchPairs s room rest).1).Nodup
        simp only [List.nodup_cons, List.mem_cons, not_or]
        exact ⟨⟨fun hab => hba hab.symm, fun hi => ha' (hin _ hi)⟩,
          fun hi => hb' (hin _ hi), hpaired⟩
      · have hi' : i ∈ a :: b :: paired (matchPairs s room rest).1 := hi
        simp only [List.mem_cons] at hi'
        rcases hi' with rfl | rfl | hi'
        · exact hmem _ (.inr (.inl rfl))
        · exact hmem _ (.inl rfl)
        · exact hmem _ (.inr (.inr (hin i hi')))
    · exact hnone

/-- The pairs of a round are pairs of different players alive. -/
theorem buildPairs_paired (s : ServerState F) (n : ℕ) :
    (paired (buildPairs s n).1).Nodup ∧
      ∀ i ∈ paired (buildPairs s n).1, (s.players i).isAlive = true := by
  have hpairs : (buildPairs s n).1 = (matchPairs s n (slots.filter fun i =>
      (s.players i).isAlive && (s.players i).inRound)).1 := by
    unfold buildPairs
    simp only
    split <;> rename_i heq <;> rw [heq]
  rw [hpairs]
  obtain ⟨hnodup, hin⟩ := matchPairs_paired s n
    (slots_nodup.filter fun i => (s.players i).isAlive && (s.players i).inRound)
  refine ⟨hnodup, fun i hi => ?_⟩
  have heligible := (List.mem_filter.mp (hin i hi)).2
  exact (Bool.and_eq_true_iff.mp heligible).1

end Pairs

section Aftermath

variable {F : Type}

/-- The slot was cleared: nobody is there, and there is no choice. -/
def Player.Gone (p : Player F) : Prop := p.connected = false ∧ p.choice = '\x00'

/-- Who is alive stays alive or is gone, and who is gone stays gone. -/
structure Outlives (p q : Player F) : Prop where
  /-- Players alive. -/
  alive : p.isAlive = true → q.isAlive = true ∨ q.Gone
  /-- Cleared slots. -/
  gone : p.Gone → q.Gone

/-- The event may occur in `resolve_round`, and is not the resolution of a pair. -/
def Event.isAftermath : Event F → Bool
  | .roundCleared => true
  | .repicksBegun => true
  | .queued _ .checked _ => true
  | .refused _ .checked _ => true
  | e => e.isNested

theorem Event.isNested.aftermath {e : Event F} (h : e.isNested = true) :
    e.isAftermath = true := by
  cases e with
  | queued i via line => cases via <;> first | rfl | cases h
  | refused i via line => cases via <;> first | rfl | cases h
  | _ => first | rfl | exact h

theorem Event.isAftermath.inMatch {e : Event F} (h : e.isAftermath = true) :
    e.inMatch = true := by
  cases e <;> first | rfl | cases h

theorem Outlives.refl (p : Player F) : Outlives p p := ⟨.inl, id⟩

theorem Outlives.trans {p q r : Player F} (h : Outlives p q) (h' : Outlives q r) :
    Outlives p r where
  alive hp := (h.alive hp).elim h'.alive fun hq => .inr (h'.gone hq)
  gone hp := h'.gone (h.gone hp)

/-- Entries that agree in the connection, the choice and the life. -/
theorem Outlives.same {p q : Player F} (h : q.isAlive = p.isAlive ∧ q.connected = p.connected ∧
    q.choice = p.choice) : Outlives p q where
  alive hp := .inl (h.1 ▸ hp)
  gone hp := ⟨h.2.1 ▸ hp.1, h.2.2 ▸ hp.2⟩

/-- Replacing one entry. -/
theorem outlives_setPlayer {s : ServerState F} {i : Slot} {p : Player F}
    (hp : Outlives (s.players i) p) (j : Slot) :
    Outlives (s.players j) ((s.setPlayer i p).players j) := by
  by_cases hji : j = i
  · subst hji
    rwa [ServerState.setPlayer_self]
  · rw [ServerState.setPlayer_of_ne _ _ hji]
    exact .refl _

/-- `start_round` takes nobody's life. -/
theorem Outlives.enterRound (p : Player F) : Outlives p p.enterRound where
  alive hp := .inl (by rw [Player.enterRound_isAlive]; exact Player.isContender_of_isAlive hp)
  gone hp := by
    refine ⟨(Player.enterRound_connected p).trans hp.1, ?_⟩
    unfold Player.enterRound
    simp only
    split <;> exact hp.2

/-- Neither does `finish_repicks`. -/
theorem Outlives.applyRepick (p : Player F) : Outlives p p.applyRepick where
  alive hp := .inl (p.applyRepick_flags.2.2.2 ▸ hp)
  gone hp := by
    have hdead : p.isAlive = false := by simp [Player.isAlive, hp.1]
    simpa [Player.applyRepick, hdead] using hp

variable [CFloat F]

/-- Apart from the resolution of a pair, nobody loses a life and keeps the connection. -/
theorem Action.outlives {w : Server F} {e : Event F} {s : ServerState F} (h : Action w e s)
    (he : e.isAftermath = true) (i : Slot) : Outlives (w.state.players i) (s.players i) := by
  cases h with
  | queue hconn hline hqueue =>
    rw [Player.queueVia_eq_some hqueue]
    refine outlives_setPlayer (Outlives.same ?_) i
    exact ⟨rfl, rfl, rfl⟩
  | refuse hqueue => exact .refl _
  | drop hconn => exact outlives_setPlayer ⟨fun _ => .inr ⟨rfl, rfl⟩, fun _ => ⟨rfl, rfl⟩⟩ i
  | cancel hphase hempty => exact .refl _
  | start hphase horder => exact .enterRound _
  | finish hphase horder hwhy => exact .refl _
  | applyRepicks hphase hall => exact .applyRepick _
  | enterRepick hphase hround hresolved => exact .same ⟨rfl, rfl, rfl⟩
  | clearRound hphase hresolved => exact .same ⟨rfl, rfl, rfl⟩
  | _ => cases he

/-- The events between two resolutions of pairs. -/
abbrev Settling (w v : Server F) : Prop := Path Action (fun e => e.isAftermath = true) w v

theorem Reacts.settling {w v : Server F} (h : Reacts w v) : Settling w v :=
  h.mono fun _ => Event.isNested.aftermath

theorem Settling.acts {w v : Server F} (h : Settling w v) : Acts w v :=
  h.mono fun _ => Event.isAftermath.inMatch

/-- Nobody loses a life there and keeps the connection. -/
theorem Settling.outlives {w v : Server F} (h : Settling w v) (i : Slot) :
    Outlives (w.state.players i) (v.state.players i) :=
  h.state_invariant (fun s => Outlives (w.state.players i) (s.players i))
    (fun _ _ _ he hstep hs => hs.trans (hstep.outlives he i)) (.refl _)

end Aftermath

section Turns

variable {F : Type} [CFloat F]

/-- The record and the table after a pair was resolved, before the announcement. -/
def beaten (winner loser : Slot) (w : Server F) : Server F :=
  let pw := w.state.players winner
  let pl := w.state.players loser
  let s := w.state.setPlayer winner { pw with x := pl.x, y := pl.y }
  w.record (.pairResolved winner loser)
    (s.setPlayer loser
      { s.players loser with
        alive := false, inRound := false, x := CFloat.lit (-1), y := CFloat.lit (-1) })

/-- Which player of a pair wins. -/
def Beats (v : Server F) (pair : Pair) (winner loser : Slot) : Prop :=
  (winner = pair.a ∧ loser = pair.b ∧
    rpsResult (v.state.players pair.a).choice (v.state.players pair.b).choice = 1) ∨
  (winner = pair.b ∧ loser = pair.a ∧
    rpsResult (v.state.players pair.a).choice (v.state.players pair.b).choice = -1)

/-- The resolution of a pair changes positions, and the life of the loser. -/
theorem beaten_player (winner loser : Slot) (w : Server F) (i : Slot) :
    ((beaten winner loser w).state.players i).connected = (w.state.players i).connected ∧
      ((w.state.players i).Gone → ((beaten winner loser w).state.players i).Gone) ∧
      (i ≠ loser → Outlives (w.state.players i) ((beaten winner loser w).state.players i)) := by
  have hmoved : ∀ p : Player F, ∀ q : Player F, Outlives p { p with x := q.x, y := q.y } :=
    fun _ _ => .same ⟨rfl, rfl, rfl⟩
  by_cases hloser : i = loser
  · subst hloser
    by_cases hwinner : i = winner
    · subst hwinner
      simp [beaten, Player.Gone]
    · simp [beaten, Player.Gone, ServerState.setPlayer_of_ne _ _ hwinner]
  · by_cases hwinner : i = winner
    · subst hwinner
      have hplayer : (beaten i loser w).state.players i = { w.state.players i with
          x := (w.state.players loser).x, y := (w.state.players loser).y } := by
        simp [beaten, ServerState.setPlayer_of_ne _ _ hloser]
      rw [hplayer]
      exact ⟨rfl, (hmoved _ _).gone, fun _ => hmoved _ _⟩
    · have hplayer : (beaten winner loser w).state.players i = w.state.players i := by
        simp [beaten, ServerState.setPlayer_of_ne _ _ hloser,
          ServerState.setPlayer_of_ne _ _ hwinner]
      rw [hplayer]
      exact ⟨rfl, id, fun _ => .refl _⟩

/-- A turn with a winner: the resolution, and what follows from its announcement. -/
theorem resolveWin_settling {w : Server F} (hw : Resolving w) (pair : Pair)
    (winner loser : Slot) : Acts w (beaten winner loser w) ∧
      Settling (beaten winner loser w) (resolveWin pair winner loser w) := by
  have hpair : Acts w (beaten winner loser w) :=
    .single rfl (.pair hw.later hw.round hw.resolved)
  have hbeaten := hw.along hpair
  refine ⟨hpair, ?_⟩
  unfold resolveWin
  simp only
  generalize hu : w.record (.pairResolved winner loser) _ = u
  have hsame : beaten winner loser w = u := hu
  rw [hsame] at hbeaten ⊢
  have hbroadcast := queueBroadcast_reacts
    (.pairWinner (u.state.players pair.a).name (u.state.players pair.b).name
      (u.state.players pair.a).choice (u.state.players pair.b).choice
      (u.state.players winner).name (u.state.players winner).x (u.state.players winner).y)
    hbeaten.inv fun _ => hbeaten.resolved
  refine (Reacts.settling hbroadcast).trans ?_
  split
  · rename_i hconn
    have hcall : Settling _ (queueTo .checked .eliminated loser _).2 :=
      queueTo_path rfl rfl hconn trivial
    split <;> rename_i v hq <;> rw [hq] at hcall
    · exact hcall
    · exact hcall.trans (Reacts.settling (dropSilently_reacts loser v))
  · exact .refl _

/-- The turn of a pair. -/
theorem resolvePair_turn {w : Server F} (hw : Resolving w) (pair : Pair) :
    (rpsResult (w.state.players pair.a).choice (w.state.players pair.b).choice = 0 ∧
        Settling w (resolvePair w pair)) ∨
      ∃ winner loser, Beats w pair winner loser ∧ Acts w (beaten winner loser w) ∧
        Settling (beaten winner loser w) (resolvePair w pair) := by
  unfold resolvePair
  simp only
  split
  · rename_i hr
    exact .inr ⟨_, _, .inl ⟨rfl, rfl, hr⟩, resolveWin_settling hw pair pair.a pair.b⟩
  · split
    · rename_i hr
      exact .inr ⟨_, _, .inr ⟨rfl, rfl, hr⟩, resolveWin_settling hw pair pair.b pair.a⟩
    · rename_i hwin hlose
      refine .inl ⟨?_, Reacts.settling (queueBroadcast_reacts _ hw.inv fun _ => trivial)⟩
      unfold rpsResult at hwin hlose ⊢
      split
      · rfl
      · rename_i hne
        rw [if_neg hne] at hwin hlose
        split at hwin <;> simp_all

/-- The decision at the end. -/
theorem decideRound_settling {w : Server F} (hw : Resolving w) :
    Settling w (if activeAliveCount w.state ≤ 1 then endGame w
      else if allAliveSameChoice w.state then beginRepicks w
      else startActiveRound w) := by
  split
  · exact Reacts.settling (endGame_reacts hw.inv hw.later (.inr (.inr (.inr hw.resolved)))
      (.inr (.inl hw.resolved)))
  · split
    · have hbegin : Settling w (w.record .repicksBegun { w.state with
          phase := .repick, players := fun i => (w.state.players i).clearRepick }) :=
        .single rfl (.enterRepick hw.later hw.round hw.resolved)
      have hinv := hw.inv.along hbegin
      have hbroadcast := queueBroadcast_reacts .repickStart hinv fun _ => trivial
      have hshown := broadcastPositions_reacts (hinv.along hbroadcast)
      exact (hbegin.trans (Reacts.settling hbroadcast)).trans (Reacts.settling hshown)
    · exact Reacts.settling (startActiveRound_reacts hw.inv hw.later (.inr (.inr hw.resolved)))

/-- What follows after the pairs. -/
theorem concludeRound_settling {w : Server F} (hw : Resolving w) :
    Settling w (concludeRound w) := by
  have hclear : Settling w (w.record .roundCleared
      { w.state with players := fun i => { w.state.players i with inRound := false } }) :=
    .single rfl (.clearRound hw.later hw.resolved)
  have hpos := broadcastPositions_reacts (hw.along (Settling.acts hclear)).inv
  have hend := (hw.along (Settling.acts hclear)).along (Reacts.acts hpos)
  exact (hclear.trans (Reacts.settling hpos)).trans (decideRound_settling hend)

/-- The announcement of the player who is left over, and the end of the round. -/
theorem afterPairs_settling {w : Server F} (hw : Resolving w) (bye : Option Slot) :
    Settling w (concludeRound (announceBye bye w)) := by
  have hbye : Settling w (announceBye bye w) := by
    cases bye with
    | none => exact .refl w
    | some i => exact Reacts.settling (queueBroadcast_reacts _ hw.inv fun _ => trivial)
  exact hbye.trans (concludeRound_settling (hw.along (Settling.acts hbye)))

/-- A turn clears nobody's slot but by a drop, and only the loser loses a life. -/
theorem resolvePair_outlives {w : Server F} (hw : Resolving w) (pair : Pair) (i : Slot) :
    ((w.state.players i).Gone → ((resolvePair w pair).state.players i).Gone) ∧
      ((∀ winner loser, Beats w pair winner loser → i ≠ loser) →
        Outlives (w.state.players i) ((resolvePair w pair).state.players i)) := by
  rcases resolvePair_turn hw pair with ⟨_, hpath⟩ | ⟨winner, loser, hbeats, _, hpath⟩
  · have hlives := Settling.outlives hpath i
    exact ⟨hlives.gone, fun _ => hlives⟩
  · have hlives := Settling.outlives hpath i
    obtain ⟨_, hgone, hother⟩ := beaten_player winner loser w i
    exact ⟨fun h => hlives.gone (hgone h),
      fun hne => (hother (hne winner loser hbeats)).trans hlives⟩

end Turns

section Resolution

variable {F : Type} [CFloat F]

/-- The pairs of the round. -/
def roundPairs (w : Server F) : List Pair := (buildPairs w.state (MAX_PLAYERS / 2)).1

/-- The server after the turns of some pairs. -/
def afterTurns (w : Server F) (pairs : List Pair) : Server F :=
  pairs.foldl resolvePair (w.record .resolving w.state)

/-- `resolve_round` is the turns of all pairs and what follows after them. -/
theorem resolveRound_eq (w : Server F) : resolveRound w = concludeRound (announceBye
    (buildPairs w.state (MAX_PLAYERS / 2)).2 (afterTurns w (roundPairs w))) := rfl

/-- In this state it is the turn of this pair, when `resolve_round` resolves the round. -/
def PairTurn (w v : Server F) (pair : Pair) : Prop :=
  ∃ pre post, roundPairs w = pre ++ pair :: post ∧ v = afterTurns w pre

/-- Everybody who loses its life in the round, and stays connected, met an opponent alive
whose choice beats its own, and no player who was dropped wins or loses. -/
structure FairlyResolved (w : Server F) : Prop where
  /-- The losers. -/
  lost : ∀ i, (w.state.players i).isAlive = true →
    ((resolveRound w).state.players i).connected = true →
    ((resolveRound w).state.players i).isAlive = false →
    ∃ v pair j, PairTurn w v pair ∧ ((pair.a = i ∧ pair.b = j) ∨ (pair.a = j ∧ pair.b = i)) ∧
      (v.state.players j).isAlive = true ∧
      rpsResult (v.state.players j).choice (v.state.players i).choice = 1
  /-- The pairs with a winner. -/
  met : ∀ x ∈ added w (resolveRound w), ∀ winner loser, x.event = .pairResolved winner loser →
    (x.state.players winner).connected = true ∧ (x.state.players loser).connected = true

/-- The situation at the begin. -/
theorem resolving_start {w : Server F} (hw : Inv w) (hphase : w.state.phase = .roundActive) :
    Resolving (w.record .resolving w.state) :=
  ⟨(Action.resolve hphase).inv hw, by simp [hphase], hw.running (.inl hphase),
    ⟨_, List.mem_cons_self, .inl rfl⟩⟩

/-- The situation lasts over the turns. -/
theorem afterTurns_resolving {w : Server F} (hw : Inv w) (hphase : w.state.phase = .roundActive)
    (pairs : List Pair) : Resolving (afterTurns w pairs) :=
  (resolving_start hw hphase).along (foldl_resolvePair_acts (resolving_start hw hphase) pairs)

omit [CFloat F] in
theorem paired_append (pairs more : List Pair) :
    paired (pairs ++ more) = paired pairs ++ paired more := List.flatMap_append

/-- The turns of other pairs take nobody's life, and cleared slots stay cleared. -/
theorem afterTurns_outlives {w : Server F} (hw : Inv w) (hphase : w.state.phase = .roundActive)
    (pairs : List Pair) (i : Slot) (hi : i ∉ paired pairs) :
    Outlives (w.state.players i) ((afterTurns w pairs).state.players i) := by
  induction pairs using List.reverseRecOn with
  | nil => exact .refl _
  | append_singleton pairs pair ih =>
    rw [paired_append, List.mem_append, not_or] at hi
    have hpair : i ≠ pair.a ∧ i ≠ pair.b := by simpa [paired] using hi.2
    have hturn := (resolvePair_outlives (afterTurns_resolving hw hphase pairs) pair i).2 ?_
    · rw [afterTurns, List.foldl_append]
      exact (ih hi.1).trans hturn
    · rintro winner loser (⟨_, rfl, _⟩ | ⟨_, rfl, _⟩)
      · exact hpair.2
      · exact hpair.1

/-- Both players of a pair are alive or gone when their turn comes. -/
theorem PairTurn.players {w v : Server F} {pair : Pair} (h : PairTurn w v pair) (hw : Inv w)
    (hphase : w.state.phase = .roundActive) :
    Resolving v ∧
      ((v.state.players pair.a).isAlive = true ∨ (v.state.players pair.a).Gone) ∧
      ((v.state.players pair.b).isAlive = true ∨ (v.state.players pair.b).Gone) := by
  obtain ⟨pre, post, hpairs, rfl⟩ := h
  obtain ⟨hnodup, halive⟩ := buildPairs_paired w.state (MAX_PLAYERS / 2)
  have hsplit : paired (buildPairs w.state (MAX_PLAYERS / 2)).1 =
      paired pre ++ (pair.a :: pair.b :: paired post) := by
    rw [show (buildPairs w.state (MAX_PLAYERS / 2)).1 = pre ++ pair :: post from hpairs,
      paired_append]
    rfl
  rw [hsplit] at hnodup halive
  have hdisjoint := List.disjoint_of_nodup_append hnodup
  have hmember : ∀ i, i = pair.a ∨ i = pair.b →
      ((afterTurns w pre).state.players i).isAlive = true ∨
        ((afterTurns w pre).state.players i).Gone := by
    intro i hi
    have hmem : i ∈ pair.a :: pair.b :: paired post := by
      rcases hi with rfl | rfl <;> simp
    exact (afterTurns_outlives hw hphase pre i fun hpre => hdisjoint hpre hmem).alive
      (halive i (List.mem_append_right _ hmem))
  exact ⟨afterTurns_resolving hw hphase pre, hmember _ (.inl rfl), hmember _ (.inr rfl)⟩

/-- `resolve_round` after the turn of a pair. -/
theorem PairTurn.rest {w v : Server F} {pair : Pair} (h : PairTurn w v pair) (hw : Inv w)
    (hphase : w.state.phase = .roundActive) :
    Acts (w.record .resolving w.state) v ∧ Acts (resolvePair v pair) (resolveRound w) := by
  obtain ⟨pre, post, hpairs, rfl⟩ := h
  have hstart := resolving_start hw hphase
  have hpre := foldl_resolvePair_acts hstart pre
  have hturn := resolvePair_acts (afterTurns_resolving hw hphase pre) pair
  have hnext := (afterTurns_resolving hw hphase pre).along hturn
  have hpost := foldl_resolvePair_acts hnext post
  refine ⟨hpre, hpost.trans ?_⟩
  have hall : afterTurns w (roundPairs w) =
      post.foldl resolvePair (resolvePair (afterTurns w pre) pair) := by
    rw [hpairs, afterTurns, List.foldl_append, List.foldl_cons]
    rfl
  rw [resolveRound_eq, hall]
  exact Settling.acts (afterPairs_settling (hnext.along hpost) _)

omit [CFloat F] in
/-- A player alive has chosen rock, paper or scissors. -/
theorem Inv.isChoice {w : Server F} (hw : Inv w) {i : Slot}
    (hi : (w.state.players i).isAlive = true) : IsChoice (w.state.players i).choice := by
  have hadmitted := Player.isAdmitted_of_isAlive hi
  have hok := hw.slots i (Player.connected_of_isAdmitted hadmitted)
  exact hok.chosen (hok.ready (Player.isAdmitted_iff.mp hadmitted).2).2.1

/-- The empty choice ties with no choice. -/
theorem rpsResult_empty {c : Char} (hc : IsChoice c) :
    rpsResult c '\x00' ≠ 0 ∧ rpsResult '\x00' c ≠ 0 := by
  rcases hc with rfl | rfl | rfl <;> decide

/-- The result for the other player. -/
theorem rpsResult_flip {c d : Char} (hc : IsChoice c) (hd : IsChoice d)
    (h : rpsResult c d = -1) : rpsResult d c = 1 := by
  rcases hc with rfl | rfl | rfl <;> rcases hd with rfl | rfl | rfl <;> revert h <;> decide

/-- The resolution of a pair is in the record. -/
theorem PairTurn.recorded {w v : Server F} {pair : Pair} (h : PairTurn w v pair) (hw : Inv w)
    (hphase : w.state.phase = .roundActive) {winner loser : Slot}
    (hpath : Settling (beaten winner loser v) (resolvePair v pair)) :
    (⟨.pairResolved winner loser, (beaten winner loser v).state⟩ :
      Entry (ServerState F) (Event F)) ∈ added w (resolveRound w) := by
  obtain ⟨hpre, hrest⟩ := h.rest hw hphase
  obtain ⟨first, hfirst, _⟩ := hpre.log_eq
  obtain ⟨last, hlast, _⟩ := ((Settling.acts hpath).trans hrest).log_eq
  have hentry : (beaten winner loser v).log =
      ⟨.pairResolved winner loser, (beaten winner loser v).state⟩ :: v.log := rfl
  have hlog : (resolveRound w).log = (last ++ ⟨.pairResolved winner loser,
      (beaten winner loser v).state⟩ :: (first ++ [⟨.resolving, w.state⟩])) ++ w.log := by
    rw [hlast, hentry, hfirst]
    simp
  rw [added_eq hlog]
  exact List.mem_append_right _ List.mem_cons_self

/-- In a fair resolution no pair is down to one player. -/
theorem FairlyResolved.connected {w v : Server F} (h : FairlyResolved w) (hw : Inv w)
    (hphase : w.state.phase = .roundActive) {pair : Pair} (hturn : PairTurn w v pair) :
    (v.state.players pair.a).connected = (v.state.players pair.b).connected := by
  obtain ⟨hres, ha, hb⟩ := hturn.players hw hphase
  have hconn : ∀ i, (v.state.players i).isAlive = true → (v.state.players i).connected = true :=
    fun i hi => Player.connected_of_isAdmitted (Player.isAdmitted_of_isAlive hi)
  -- A pair with a winner has two connected players.
  have hmet : rpsResult (v.state.players pair.a).choice (v.state.players pair.b).choice ≠ 0 →
      (v.state.players pair.a).connected = true ∧
        (v.state.players pair.b).connected = true := by
    intro hr
    rcases resolvePair_turn hres pair with ⟨hzero, _⟩ | ⟨winner, loser, hbeats, _, hpath⟩
    · exact absurd hzero hr
    · obtain ⟨hwinner, hloser⟩ := h.met _ (hturn.recorded hw hphase hpath) winner loser rfl
      rw [(beaten_player winner loser v _).1] at hwinner hloser
      rcases hbeats with ⟨rfl, rfl, _⟩ | ⟨rfl, rfl, _⟩
      · exact ⟨hwinner, hloser⟩
      · exact ⟨hloser, hwinner⟩
  rcases ha with ha | ha <;> rcases hb with hb | hb
  · rw [hconn _ ha, hconn _ hb]
  · have hr := (rpsResult_empty (hres.inv.isChoice ha)).1
    rw [← hb.2] at hr
    rw [(hmet hr).1, (hmet hr).2]
  · have hr := (rpsResult_empty (hres.inv.isChoice hb)).2
    rw [← ha.2] at hr
    rw [(hmet hr).1, (hmet hr).2]
  · rw [ha.1, hb.1]

/-- Where no pair is down to one player, the losers lose to opponents alive. -/
theorem lost_of_connected {w : Server F} (hw : Inv w) (hphase : w.state.phase = .roundActive)
    (hpairs : ∀ v pair, PairTurn w v pair →
      (v.state.players pair.a).connected = (v.state.players pair.b).connected) {i : Slot}
    (halive : (w.state.players i).isAlive = true)
    (hconn : ((resolveRound w).state.players i).connected = true)
    (hdead : ((resolveRound w).state.players i).isAlive = false) :
    ∃ v pair j, PairTurn w v pair ∧ ((pair.a = i ∧ pair.b = j) ∨ (pair.a = j ∧ pair.b = i)) ∧
      (v.state.players j).isAlive = true ∧
      rpsResult (v.state.players j).choice (v.state.players i).choice = 1 := by
  have hafter := Settling.outlives (afterPairs_settling (afterTurns_resolving hw hphase
    (roundPairs w)) (buildPairs w.state (MAX_PLAYERS / 2)).2) i
  rw [← resolveRound_eq] at hafter
  have hnotgone : ¬((resolveRound w).state.players i).Gone := by
    rintro ⟨hfree, _⟩
    rw [hconn] at hfree
    cases hfree
  have hend : ¬(((afterTurns w (roundPairs w)).state.players i).isAlive = true ∨
      ((afterTurns w (roundPairs w)).state.players i).Gone) := by
    rintro (hin | hgone)
    · rcases hafter.alive hin with hin' | hgone
      · rw [hdead] at hin'
        cases hin'
      · exact hnotgone hgone
    · exact hnotgone (hafter.gone hgone)
  have hstart : (((afterTurns w []).state.players i).isAlive = true ∨
      ((afterTurns w []).state.players i).Gone) := .inl halive
  -- The player loses its life in one of the turns.
  obtain ⟨pre, pair, post, hsplit, hbefore, hlost⟩ := Pursuit.exists_turn
    (fun u : Server F => (u.state.players i).isAlive = true ∨ (u.state.players i).Gone)
    hstart hend
  have hturn : PairTurn w (afterTurns w pre) pair := ⟨pre, post, hsplit, rfl⟩
  obtain ⟨hres, ha, hb⟩ := hturn.players hw hphase
  have hsame := hpairs _ pair hturn
  have hbefore' : ((afterTurns w pre).state.players i).isAlive = true ∨
      ((afterTurns w pre).state.players i).Gone := hbefore
  have hlost' : ¬(((resolvePair (afterTurns w pre) pair).state.players i).isAlive = true ∨
      ((resolvePair (afterTurns w pre) pair).state.players i).Gone) := hlost
  generalize afterTurns w pre = v at hturn hres ha hb hsame hbefore' hlost'
  obtain ⟨hgone, hlives⟩ := resolvePair_outlives hres pair i
  have hin : (v.state.players i).isAlive = true :=
    hbefore'.resolve_right fun h => hlost' (.inr (hgone h))
  have hiconn := Player.connected_of_isAdmitted (Player.isAdmitted_of_isAlive hin)
  -- So it is the loser of this turn, and its opponent is there.
  have hloser : ∃ winner, Beats v pair winner i := by
    by_contra hnone
    refine hlost' ((hlives fun winner loser hbeats hil => hnone ⟨winner, ?_⟩).alive hin)
    rwa [hil]
  obtain ⟨winner, hbeats⟩ := hloser
  rcases hbeats with ⟨rfl, rfl, hr⟩ | ⟨rfl, rfl, hr⟩
  · rw [hiconn] at hsame
    have hopponent := ha.resolve_right fun hg => by
      rw [hg.1] at hsame
      cases hsame
    exact ⟨v, pair, pair.a, hturn, .inr ⟨rfl, rfl⟩, hopponent, hr⟩
  · rw [hiconn] at hsame
    have hopponent := hb.resolve_right fun hg => by
      rw [hg.1] at hsame
      cases hsame
    exact ⟨v, pair, pair.b, hturn, .inl ⟨rfl, rfl⟩, hopponent,
      rpsResult_flip (hres.inv.isChoice hin) (hres.inv.isChoice hopponent) hr⟩

/-- The pairs that were resolved since `w` had two connected players. -/
def MetSince (w u : Server F) : Prop :=
  ∃ new, u.log = new ++ w.log ∧
    ∀ x ∈ new, ∀ winner loser, x.event = .pairResolved winner loser →
      (x.state.players winner).connected = true ∧ (x.state.players loser).connected = true

/-- What happens between two resolutions resolves no pair. -/
theorem MetSince.settling {w u v : Server F} (h : MetSince w u) (hpath : Settling u v) :
    MetSince w v := by
  obtain ⟨new, hlog, hmet⟩ := h
  obtain ⟨more, hmore, hevents⟩ := hpath.log_eq
  refine ⟨more ++ new, by rw [hmore, hlog, List.append_assoc], ?_⟩
  intro x hx winner loser hevent
  rcases List.mem_append.mp hx with hx | hx
  · have hafter := hevents x hx
    rw [hevent] at hafter
    cases hafter
  · exact hmet x hx winner loser hevent

/-- A turn resolves a pair of two connected players. -/
theorem MetSince.beaten {w v : Server F} (h : MetSince w v) {pair : Pair} {winner loser : Slot}
    (hbeats : Beats v pair winner loser) (ha : (v.state.players pair.a).connected = true)
    (hb : (v.state.players pair.b).connected = true) : MetSince w (beaten winner loser v) := by
  obtain ⟨new, hlog, hmet⟩ := h
  have hentry : (BattleRoyale.beaten winner loser v).log =
      ⟨.pairResolved winner loser, (BattleRoyale.beaten winner loser v).state⟩ :: v.log := rfl
  refine ⟨⟨.pairResolved winner loser, (BattleRoyale.beaten winner loser v).state⟩ :: new,
    by rw [hentry, hlog]; rfl, fun x hx i j hevent => ?_⟩
  rcases List.mem_cons.mp hx with rfl | hx
  · cases hevent
    rw [(beaten_player winner loser v _).1, (beaten_player winner loser v _).1]
    rcases hbeats with ⟨rfl, rfl, _⟩ | ⟨rfl, rfl, _⟩
    · exact ⟨ha, hb⟩
    · exact ⟨hb, ha⟩
  · exact hmet x hx i j hevent

/-- A turn of a pair that is not down to one player. -/
theorem MetSince.turn {w v : Server F} (h : MetSince w v) {pair : Pair}
    (hturn : PairTurn w v pair) (hw : Inv w) (hphase : w.state.phase = .roundActive)
    (hsame : (v.state.players pair.a).connected = (v.state.players pair.b).connected) :
    MetSince w (resolvePair v pair) := by
  obtain ⟨hres, ha, hb⟩ := hturn.players hw hphase
  rcases resolvePair_turn hres pair with ⟨_, hpath⟩ | ⟨winner, loser, hbeats, _, hpath⟩
  · exact h.settling hpath
  have hr : rpsResult (v.state.players pair.a).choice (v.state.players pair.b).choice ≠ 0 := by
    rcases hbeats with ⟨_, _, hr⟩ | ⟨_, _, hr⟩ <;> rw [hr] <;> decide
  -- Two empty choices would tie.
  have hconn : (v.state.players pair.a).connected = true := by
    rcases ha with ha | ha
    · exact Player.connected_of_isAdmitted (Player.isAdmitted_of_isAlive ha)
    · rcases hb with hb | hb
      · rw [hsame]
        exact Player.connected_of_isAdmitted (Player.isAdmitted_of_isAlive hb)
      · rw [ha.2, hb.2] at hr
        exact absurd rfl hr
  exact (h.beaten hbeats hconn (hsame ▸ hconn)).settling hpath

/-- Where no pair is down to one player, the pairs with a winner have two connected
players. -/
theorem met_of_connected {w : Server F} (hw : Inv w) (hphase : w.state.phase = .roundActive)
    (hpairs : ∀ v pair, PairTurn w v pair →
      (v.state.players pair.a).connected = (v.state.players pair.b).connected) :
    MetSince w (resolveRound w) := by
  have hturns : ∀ pre post, roundPairs w = pre ++ post → MetSince w (afterTurns w pre) := by
    intro pre
    induction pre using List.reverseRecOn with
    | nil =>
      refine fun _ _ => ⟨[⟨.resolving, w.state⟩], rfl, fun x hx winner loser hevent => ?_⟩
      rw [List.mem_singleton.mp hx] at hevent
      cases hevent
    | append_singleton pre pair ih =>
      intro post hsplit
      rw [List.append_assoc] at hsplit
      have hturn : PairTurn w (afterTurns w pre) pair := ⟨pre, post, hsplit, rfl⟩
      have hnext : afterTurns w (pre ++ [pair]) = resolvePair (afterTurns w pre) pair := by
        rw [afterTurns, List.foldl_append]
        rfl
      rw [hnext]
      exact (ih _ hsplit).turn hturn hw hphase (hpairs _ pair hturn)
  have hall := hturns (roundPairs w) [] (List.append_nil _).symm
  rw [resolveRound_eq]
  exact hall.settling (afterPairs_settling (afterTurns_resolving hw hphase (roundPairs w)) _)

/-- A round is resolved fairly exactly when at the turn of every pair, its players are both
connected or both gone. -/
theorem fairlyResolved_iff_turns {w : Server F} (hw : Inv w)
    (hphase : w.state.phase = .roundActive) :
    FairlyResolved w ↔ ∀ v pair, PairTurn w v pair →
      (v.state.players pair.a).connected = (v.state.players pair.b).connected := by
  constructor
  · exact fun h v pair hturn => h.connected hw hphase hturn
  · intro hpairs
    refine ⟨fun i => lost_of_connected hw hphase hpairs, ?_⟩
    obtain ⟨new, hlog, hmet⟩ := met_of_connected hw hphase hpairs
    rw [added_eq hlog]
    exact hmet

end Resolution

/-- A player alive in a round, with so many bytes to be sent. -/
def fighter (id : ℕ) (name choice : Char) (x y : ℚ) (pending : ℕ) : Player Exact :=
  { (Player.zero : Player Exact) with
    fd := 2 + id
    id := id
    connected := true
    registered := true
    admitted := true
    alive := true
    inRound := true
    choiceChosen := true
    spawnChosen := true
    name := [name]
    choice := choice
    x := CFloat.lit x
    y := CFloat.lit y
    outbuf := List.replicate pending 'x' }

/-- Four players in a round. The last one has read nothing for a long time. -/
def fourPlayers : ServerState Exact where
  players i :=
    if i = 0 then fighter 1 'A' 'R' 0 0 0
    else if i = 1 then fighter 2 'B' 'S' 1 0 0
    else if i = 2 then fighter 3 'C' 'R' 5 5 0
    else if i = 3 then fighter 4 'D' 'S' 9 9 8170
    else Player.cleared
  nextId := 5
  roundNo := 1
  phase := .roundActive
  joinDeadline := 0
  setupDeadline := 0
  roundDeadline := 6

/-- The server in this state. -/
def fourPlayersServer : Server Exact where
  env := fun _ => 1
  state := fourPlayers
  log := [⟨.started, fourPlayers⟩]

/-- A player in a round is consistent. -/
theorem fighter_ok {id : ℕ} {name choice : Char} {x y : ℚ} {pending : ℕ}
    (hchoice : IsChoice choice) (hname : isSpace name = false ∧ name ≠ '\x00') :
    SlotInv 1 (fighter id name choice x y pending) := by
  refine fun _ => ⟨fun _ => ⟨rfl, rfl, rfl⟩, fun _ => hchoice, nofun, fun _ => rfl, nofun,
    fun _ => rfl, fun _ => ⟨nofun, by show 1 < MAX_NAME_LENGTH; decide, fun c hc => ?_⟩⟩
  rw [List.mem_singleton.mp hc]
  exact hname

theorem fourPlayersServer_inv : Inv fourPlayersServer where
  current := ⟨.started, [], rfl⟩
  slots i := by
    show SlotInv 1 (fourPlayers.players i)
    unfold fourPlayers
    simp only
    split
    · exact fighter_ok (.inl rfl) (by decide)
    split
    · exact fighter_ok (.inr (.inr rfl)) (by decide)
    split
    · exact fighter_ok (.inl rfl) (by decide)
    split
    · exact fighter_ok (.inr (.inr rfl)) (by decide)
    · exact nofun
  identified := by
    constructor
    · decide +kernel
    · decide +kernel
    · decide +kernel
  idle := by simp [fourPlayersServer, fourPlayers]
  running := by simp [fourPlayersServer, fourPlayers]
  resolved := by simp [fourPlayersServer, fourPlayers]
  roundLines_le _ := le_rfl
  verdictLines_le _ := le_rfl

/-- The line of the first pair drops the fourth player, and the third one loses to it. -/
theorem fourPlayers_turns :
    roundPairs fourPlayersServer = [⟨0, 1⟩] ++ ⟨2, 3⟩ :: [] ∧
      ((afterTurns fourPlayersServer [⟨0, 1⟩]).state.players 2).isAlive = true ∧
      ((afterTurns fourPlayersServer [⟨0, 1⟩]).state.players 3).connected = false ∧
      ((resolveRound fourPlayersServer).state.players 2).connected = true ∧
      ((resolveRound fourPlayersServer).state.players 2).isAlive = false := by
  decide +kernel

/-- The third player, who holds rock, loses to the cleared slot of the fourth. -/
theorem lost_to_cleared_slot :
    Inv fourPlayersServer ∧ fourPlayersServer.state.phase = .roundActive ∧
      (fourPlayersServer.state.players 2).isAlive = true ∧
      ((resolveRound fourPlayersServer).state.players 2).connected = true ∧
      ((resolveRound fourPlayersServer).state.players 2).isAlive = false ∧
      ¬FairlyResolved fourPlayersServer := by
  obtain ⟨hpairs, halive, hgone, hconn, hdead⟩ := fourPlayers_turns
  refine ⟨fourPlayersServer_inv, rfl, rfl, hconn, hdead, fun h => ?_⟩
  have hturn : PairTurn fourPlayersServer (afterTurns fourPlayersServer [⟨0, 1⟩]) ⟨2, 3⟩ :=
    ⟨[⟨0, 1⟩], [], hpairs, rfl⟩
  generalize afterTurns fourPlayersServer [⟨0, 1⟩] = v at halive hgone hturn
  have hsame := h.connected fourPlayersServer_inv rfl hturn
  rw [hgone, Player.connected_of_isAdmitted (Player.isAdmitted_of_isAlive halive)] at hsame
  cases hsame

end BattleRoyale
