import BattleRoyale.NearestPrey
import BattleRoyale.PairResolution

/-!
# The matching of a round

Each pass of `build_pairs` searches the unmatched players for the first least pair: by the
distance cast to `int`, then by the ids, then by the slots. The two deletions leave the
other players in their order, so the passes are described without positions, and what they
leave is nobody or one player.
-/

namespace BattleRoyale

open Recorded Selection

section Passes

variable {F : Type} [CFloat F]

/-- The distance of the players at two positions. -/
def distAt (s : ServerState F) (unmatched : List Slot) (ij : ℕ × ℕ) : ℤ :=
  match unmatched[ij.1]?, unmatched[ij.2]? with
  | some a, some b => dist2 (s.players a) (s.players b)
  | _, _ => 0

/-- The id of the player at a position. -/
def idAt (s : ServerState F) (unmatched : List Slot) (k : ℕ) : ℕ :=
  match unmatched[k]? with
  | some q => (s.players q).id
  | none => 0

/-- What the search compares. -/
def positionKey (s : ServerState F) (unmatched : List Slot) (ij : ℕ × ℕ) : ℤ ×ₗ ℕ ×ₗ ℕ :=
  toLex (distAt s unmatched ij, toLex (idAt s unmatched ij.1, idAt s unmatched ij.2))

/-- The candidate at two positions. -/
def candidateAt (s : ServerState F) (unmatched : List Slot) (ij : ℕ × ℕ) : Candidate :=
  ⟨ij.1, ij.2, distAt s unmatched ij⟩

theorem mem_positionPairs {n : ℕ} {ij : ℕ × ℕ} :
    ij ∈ positionPairs n ↔ ij.1 < ij.2 ∧ ij.2 < n := by
  obtain ⟨i, j⟩ := ij
  simp only [positionPairs, List.mem_flatMap, List.mem_map, List.mem_filter, List.mem_range,
    decide_eq_true_eq, Prod.mk.injEq]
  constructor
  · rintro ⟨_, _, _, ⟨hj, hlt⟩, rfl, rfl⟩
    exact ⟨hlt, hj⟩
  · rintro ⟨hlt, hj⟩
    exact ⟨i, hlt.trans hj, j, ⟨hj, hlt⟩, rfl, rfl⟩

/-- The two loops visit the positions in lexicographic order. -/
def Before (x y : ℕ × ℕ) : Prop := x.1 < y.1 ∨ x.1 = y.1 ∧ x.2 < y.2

theorem positionPairs_ordered (n : ℕ) : (positionPairs n).Pairwise Before := by
  unfold positionPairs
  rw [List.pairwise_flatMap]
  constructor
  · rintro i _
    rw [List.pairwise_map]
    exact (List.pairwise_lt_range.filter _).imp fun hlt => .inr ⟨rfl, hlt⟩
  · refine List.pairwise_lt_range.imp fun {i j} hlt => ?_
    rintro x hx y hy
    obtain ⟨_, _, rfl⟩ := List.mem_map.mp hx
    obtain ⟨_, _, rfl⟩ := List.mem_map.mp hy
    exact .inl hlt

/-- One comparison of the search. -/
theorem considerPair_eq (s : ServerState F) {unmatched : List Slot} {ij : ℕ × ℕ}
    (hi : ij.1 < unmatched.length) (hj : ij.2 < unmatched.length) (best : Option (ℕ × ℕ)) :
    considerPair s unmatched (best.map (candidateAt s unmatched)) ij =
      (keepLeast (positionKey s unmatched) best ij).map (candidateAt s unmatched) := by
  have hdist : distAt s unmatched ij =
      dist2 (s.players unmatched[ij.1]) (s.players unmatched[ij.2]) := by
    simp only [distAt, List.getElem?_eq_getElem hi, List.getElem?_eq_getElem hj]
  unfold considerPair
  rw [List.getElem?_eq_getElem hi, List.getElem?_eq_getElem hj]
  simp only [← hdist]
  cases best with
  | none => rfl
  | some best =>
    simp only [Option.map_some, keepLeast]
    have hless : positionKey s unmatched ij < positionKey s unmatched best ↔
        distAt s unmatched ij < distAt s unmatched best ∨
          (distAt s unmatched ij = distAt s unmatched best ∧
            (idAt s unmatched ij.1 < idAt s unmatched best.1 ∨
              (idAt s unmatched ij.1 = idAt s unmatched best.1 ∧
                idAt s unmatched ij.2 < idAt s unmatched best.2))) := by
      simp only [positionKey, Prod.Lex.toLex_lt_toLex]
    by_cases h : positionKey s unmatched ij < positionKey s unmatched best
    · rw [if_pos h]
      exact if_pos (hless.mp h)
    · rw [if_neg h]
      exact if_neg fun hcloser => h (hless.mpr hcloser)

/-- The search of a pass finds the first least pair of positions. -/
theorem closestPair_eq (s : ServerState F) (unmatched : List Slot) :
    closestPair s unmatched = ((positionPairs unmatched.length).foldl
      (keepLeast (positionKey s unmatched)) none).map (candidateAt s unmatched) := by
  have hloop : ∀ (ijs : List (ℕ × ℕ)) (best : Option (ℕ × ℕ)),
      (∀ ij ∈ ijs, ij.1 < unmatched.length ∧ ij.2 < unmatched.length) →
      ijs.foldl (considerPair s unmatched) (best.map (candidateAt s unmatched)) =
        (ijs.foldl (keepLeast (positionKey s unmatched)) best).map
          (candidateAt s unmatched) := by
    intro ijs
    induction ijs with
    | nil => exact fun best _ => rfl
    | cons ij ijs ih =>
      intro best hin
      obtain ⟨hi, hj⟩ := hin ij List.mem_cons_self
      rw [List.foldl_cons, List.foldl_cons, considerPair_eq s hi hj,
        ih _ fun x hx => hin x (List.mem_cons_of_mem _ hx)]
  refine hloop _ none fun ij hij => ?_
  obtain ⟨hlt, hj⟩ := mem_positionPairs.mp hij
  exact ⟨hlt.trans hj, hj⟩

/-- What the search compares first: the distance and the ids. -/
def nearKey (s : ServerState F) (a b : Slot) : ℤ ×ₗ ℕ ×ₗ ℕ :=
  toLex (dist2 (s.players a) (s.players b), toLex ((s.players a).id, (s.players b).id))

/-- The whole order of the pairs: at last the slots decide. -/
def pairKey (s : ServerState F) (a b : Slot) : (ℤ ×ₗ ℕ ×ₗ ℕ) ×ₗ Slot ×ₗ Slot :=
  toLex (nearKey s a b, toLex (a, b))

/-- The pair that a pass chooses among the unmatched players: the first slot is the lower
one, and no other pair comes before it. -/
structure Chosen (s : ServerState F) (unmatched : List Slot) (a b : Slot) : Prop where
  /-- The first player is unmatched. -/
  left : a ∈ unmatched
  /-- So is the second one. -/
  right : b ∈ unmatched
  /-- The lower slot is the first one. -/
  lower : a < b
  /-- No pair comes before. -/
  least : ∀ c ∈ unmatched, ∀ d ∈ unmatched, c < d → pairKey s a b ≤ pairKey s c d

/-- A pass chooses one pair. -/
theorem Chosen.unique {s : ServerState F} {unmatched : List Slot} {a b c d : Slot}
    (h : Chosen s unmatched a b) (h' : Chosen s unmatched c d) : a = c ∧ b = d := by
  have hsame := le_antisymm (h.least c h'.left d h'.right h'.lower)
    (h'.least a h.left b h.right h.lower)
  rw [pairKey, pairKey, toLex_inj, Prod.mk.injEq, toLex_inj, Prod.mk.injEq] at hsame
  exact hsame.2

/-- Two different elements make a list of two at least. -/
theorem two_le_length {l : List Slot} {a b : Slot} (ha : a ∈ l) (hb : b ∈ l) (hab : a ≠ b) :
    2 ≤ l.length := by
  have hnodup : [a, b].Nodup := by simp [hab]
  have hsub : [a, b] ⊆ l := by
    rintro c hc
    simp only [List.mem_cons, List.not_mem_nil, or_false] at hc
    rcases hc with rfl | rfl
    · exact ha
    · exact hb
  exact (List.subperm_of_subset hnodup hsub).length_le

/-- In a list in increasing order the earlier position holds the lower slot. -/
theorem getElem_lt_iff {l : List Slot} (hl : l.Pairwise (· < ·)) {i j : ℕ} (hi : i < l.length)
    (hj : j < l.length) : l[i] < l[j] ↔ i < j := by
  rw [List.pairwise_iff_getElem] at hl
  constructor
  · rintro hlt
    by_contra hle
    rcases (not_lt.mp hle).eq_or_lt with rfl | hji
    · exact lt_irrefl _ hlt
    · exact lt_asymm hlt (hl j i hj hi hji)
  · exact hl i j hi hj

/-- The pair that a pass finds, with its positions. -/
theorem closestPair_chosen (s : ServerState F) {unmatched : List Slot}
    (hl : unmatched.Pairwise (· < ·)) (hlen : 2 ≤ unmatched.length) :
    ∃ c a b, closestPair s unmatched = some c ∧ c.i < c.j ∧ unmatched[c.i]? = some a ∧
      unmatched[c.j]? = some b ∧ Chosen s unmatched a b := by
  rw [closestPair_eq]
  cases hscan : (positionPairs unmatched.length).foldl
      (keepLeast (positionKey s unmatched)) none with
  | none =>
    have hempty := foldl_keepLeast_eq_none.mp hscan
    have hfirst : (0, 1) ∈ positionPairs unmatched.length :=
      mem_positionPairs.mpr ⟨Nat.zero_lt_one, hlen⟩
    exact absurd (hempty ▸ hfirst) List.not_mem_nil
  | some ij =>
    have hbefore : ∀ x y, Before x y → ¬Before y x := by
      unfold Before
      omega
    obtain ⟨hmem, hleast, hfirst⟩ := (firstLeast_iff hbefore (positionPairs_ordered _)).mp
      (foldl_keepLeast_eq_some.mp hscan)
    obtain ⟨i, j⟩ := ij
    obtain ⟨hij, hj⟩ := mem_positionPairs.mp hmem
    simp only at hij hj
    have hi := hij.trans hj
    have hkey : ∀ {k l} (hk : k < unmatched.length) (hl : l < unmatched.length),
        positionKey s unmatched (k, l) = nearKey s unmatched[k] unmatched[l] := by
      intro k l hk hl
      simp only [positionKey, nearKey, distAt, idAt, List.getElem?_eq_getElem hk,
        List.getElem?_eq_getElem hl]
    refine ⟨_, unmatched[i], unmatched[j], rfl, hij, List.getElem?_eq_getElem hi,
      List.getElem?_eq_getElem hj, List.getElem_mem hi, List.getElem_mem hj,
      (getElem_lt_iff hl hi hj).mpr hij, ?_⟩
    rintro c hc d hd hcd
    obtain ⟨k, hk, rfl⟩ := List.getElem_of_mem hc
    obtain ⟨l, hl', rfl⟩ := List.getElem_of_mem hd
    have hkl := (getElem_lt_iff hl hk hl').mp hcd
    have hpos : (k, l) ∈ positionPairs unmatched.length := mem_positionPairs.mpr ⟨hkl, hl'⟩
    unfold pairKey
    rw [← hkey hi hj, ← hkey hk hl', Prod.Lex.toLex_le_toLex]
    rcases (hleast _ hpos).lt_or_eq with hlt | heq
    · exact .inl hlt
    · refine .inr ⟨heq, ?_⟩
      have hnot : ¬Before (k, l) (i, j) := fun hb => absurd heq (hfirst _ hpos hb).ne
      rw [Prod.Lex.toLex_le_toLex, getElem_lt_iff hl hi hk]
      unfold Before at hnot
      rcases Nat.lt_trichotomy i k with hik | rfl | hik
      · exact .inl hik
      · refine .inr ⟨rfl, ?_⟩
        rw [← not_lt, getElem_lt_iff hl hl' hj]
        omega
      · omega

/-- The unmatched players after a pass that chose this pair. -/
def without (unmatched : List Slot) (a b : Slot) : List Slot :=
  unmatched.filter fun i => decide (i ≠ a ∧ i ≠ b)

/-- The pair and the others are all players. -/
theorem without_perm {unmatched : List Slot} (hl : unmatched.Nodup) {a b : Slot}
    (ha : a ∈ unmatched) (hb : b ∈ unmatched) (hab : a ≠ b) :
    (a :: b :: without unmatched a b).Perm unmatched := by
  have hb' : b ∈ unmatched.erase a := (hl.mem_erase_iff).mpr ⟨hab.symm, hb⟩
  have hwithout : without unmatched a b = (unmatched.erase a).erase b := by
    rw [(hl.erase a).erase_eq_filter, hl.erase_eq_filter, List.filter_filter]
    refine List.filter_congr fun i _ => ?_
    by_cases h : i = a <;> by_cases h' : i = b <;> simp [h, h']
  rw [hwithout]
  exact ((List.perm_cons_erase hb').symm.cons a).trans (List.perm_cons_erase ha).symm

/-- The two deletions leave the other players in their order. -/
theorem eraseIdx_eq_without {unmatched : List Slot} (hl : unmatched.Pairwise (· < ·)) {i j : ℕ}
    (hij : i < j) {a b : Slot} (ha : unmatched[i]? = some a) (hb : unmatched[j]? = some b)
    (hab : a ≠ b) : (unmatched.eraseIdx j).eraseIdx i = without unmatched a b := by
  have hnodup : unmatched.Nodup := hl.imp fun h => h.ne
  have hperm := perm_erase_pair hij ha hb
  have hwithout := without_perm hnodup (List.mem_of_getElem? ha) (List.mem_of_getElem? hb) hab
  have hrest : ((unmatched.eraseIdx j).eraseIdx i).Perm (without unmatched a b) :=
    ((List.Perm.swap b a _).trans (hperm.trans hwithout.symm)).cons_inv.cons_inv
  have hsub : ((unmatched.eraseIdx j).eraseIdx i).Sublist unmatched :=
    (List.eraseIdx_sublist _ _).trans (List.eraseIdx_sublist _ _)
  exact hrest.eq_of_pairwise (fun _ _ _ _ h h' => absurd h (lt_asymm h')) (hl.sublist hsub)
    (hl.filter _)

/-- One pass of the outer loop. -/
theorem matchPairs_succ (s : ServerState F) (room : ℕ) {unmatched : List Slot}
    (hl : unmatched.Pairwise (· < ·)) (hlen : 2 ≤ unmatched.length) :
    ∃ a b, Chosen s unmatched a b ∧ matchPairs s (room + 1) unmatched =
      (⟨a, b⟩ :: (matchPairs s room (without unmatched a b)).1,
        (matchPairs s room (without unmatched a b)).2) := by
  obtain ⟨c, a, b, hclosest, hij, ha, hb, hchosen⟩ := closestPair_chosen s hl hlen
  refine ⟨a, b, hchosen, ?_⟩
  have hrest := eraseIdx_eq_without hl hij ha hb hchosen.lower.ne
  rw [matchPairs, if_neg (by omega)]
  simp only [hclosest, ha, hb, max_eq_right hij.le, min_eq_left hij.le, hrest]

/-- With fewer than two unmatched players the loop ends. -/
theorem matchPairs_done (s : ServerState F) (room : ℕ) {unmatched : List Slot}
    (hlen : unmatched.length < 2) : matchPairs s room unmatched = ([], unmatched) := by
  cases room with
  | zero => rfl
  | succ room => rw [matchPairs, if_pos hlen]

/-- With room for half of the players, the loop puts everybody into a pair but for at most
one player. -/
theorem matchPairs_perm (s : ServerState F) {room : ℕ} {unmatched : List Slot}
    (hl : unmatched.Pairwise (· < ·)) (hroom : unmatched.length / 2 ≤ room) :
    (paired (matchPairs s room unmatched).1 ++ (matchPairs s room unmatched).2).Perm unmatched ∧
      (matchPairs s room unmatched).2.length < 2 ∧
      ∀ pair ∈ (matchPairs s room unmatched).1, pair.a < pair.b := by
  induction room generalizing unmatched with
  | zero =>
    have hlen : unmatched.length < 2 := by omega
    rw [matchPairs_done s 0 hlen]
    exact ⟨.refl _, hlen, by simp⟩
  | succ room ih =>
    by_cases hlen : unmatched.length < 2
    · rw [matchPairs_done s _ hlen]
      exact ⟨.refl _, hlen, by simp⟩
    · obtain ⟨a, b, hchosen, hpass⟩ := matchPairs_succ s room hl (not_lt.mp hlen)
      have hperm := without_perm (hl.imp fun h => h.ne) hchosen.left hchosen.right
        hchosen.lower.ne
      have hcount := hperm.length_eq
      simp only [List.length_cons] at hcount
      have hrest : (without unmatched a b).Pairwise (· < ·) := hl.filter _
      obtain ⟨hrest, hfew, hlower⟩ := ih hrest (by omega)
      rw [hpass]
      refine ⟨((hrest.cons b).cons a).trans hperm, hfew, ?_⟩
      simp only [List.mem_cons, forall_eq_or_imp]
      exact ⟨hchosen.lower, hlower⟩

end Passes

section Eligible

variable {F : Type}

/-- The players of the round. -/
def eligible (s : ServerState F) : List Slot :=
  slots.filter fun i => (s.players i).isAlive && (s.players i).inRound

theorem mem_eligible {s : ServerState F} {i : Slot} :
    i ∈ eligible s ↔ (s.players i).isAlive = true ∧ (s.players i).inRound = true := by
  simp [eligible]

theorem eligible_increasing (s : ServerState F) : (eligible s).Pairwise (· < ·) :=
  slots_increasing.filter _

theorem eligible_nodup (s : ServerState F) : (eligible s).Nodup :=
  slots_nodup.filter _

/-- At most as many players as there are slots. -/
theorem eligible_length (s : ServerState F) : (eligible s).length ≤ MAX_PLAYERS :=
  (List.length_filter_le _ _).trans (List.length_finRange ..).le

end Eligible

section Matching

variable {F : Type} [CFloat F]

/-- The pairs are those of the outer loop, and the bye is the one player that it leaves. -/
theorem buildPairs_eq (s : ServerState F) (maxPairs : ℕ) : buildPairs s maxPairs =
    ((matchPairs s maxPairs (eligible s)).1,
      if (matchPairs s maxPairs (eligible s)).2.length = 1
      then (matchPairs s maxPairs (eligible s)).2.head? else none) := by
  unfold buildPairs
  simp only
  rw [← eligible]
  rcases matchPairs s maxPairs (eligible s) with ⟨pairs, _ | ⟨bye, _ | ⟨_, _⟩⟩⟩ <;> rfl

/-- With room for half of the slots, the pairs and the bye are the players of the round,
each of them once. -/
theorem buildPairs_perm (s : ServerState F) {maxPairs : ℕ} (hroom : MAX_PLAYERS / 2 ≤ maxPairs) :
    (paired (buildPairs s maxPairs).1 ++ (buildPairs s maxPairs).2.toList).Perm (eligible s) ∧
      ∀ pair ∈ (buildPairs s maxPairs).1, pair.a < pair.b := by
  have hhalf : (eligible s).length / 2 ≤ maxPairs :=
    (Nat.div_le_div_right (eligible_length s)).trans hroom
  obtain ⟨hperm, hfew, hlower⟩ := matchPairs_perm s (eligible_increasing s) hhalf
  rw [buildPairs_eq]
  refine ⟨?_, hlower⟩
  generalize (matchPairs s maxPairs (eligible s)).2 = left at hperm hfew ⊢
  match left, hfew with
  | [], _ => exact hperm
  | [bye], _ => exact hperm

/-- There are twice as many players in the pairs. -/
theorem paired_length (pairs : List Pair) : (paired pairs).length = 2 * pairs.length := by
  induction pairs with
  | nil => rfl
  | cons pair pairs ih =>
    have hcons : paired (pair :: pairs) = pair.a :: pair.b :: paired pairs := rfl
    simp only [hcons, List.length_cons, ih]
    omega

theorem mem_paired {pairs : List Pair} {i : Slot} :
    i ∈ paired pairs ↔ ∃ pair ∈ pairs, i = pair.a ∨ i = pair.b := by
  simp [paired]

/-- When nobody occurs twice, everybody is in one pair. -/
theorem existsUnique_pair {pairs : List Pair} (h : (paired pairs).Nodup) {i : Slot}
    (hi : i ∈ paired pairs) : ∃! pair, pair ∈ pairs ∧ (i = pair.a ∨ i = pair.b) := by
  obtain ⟨pair, hpair, hin⟩ := mem_paired.mp hi
  refine ⟨pair, ⟨hpair, hin⟩, ?_⟩
  rintro other ⟨hother, hin'⟩
  by_contra hne
  have hsymm : Std.Symm (Function.onFun List.Disjoint fun pair : Pair => [pair.a, pair.b]) :=
    ⟨fun _ _ h => h.symm⟩
  have hdisjoint := (List.nodup_flatMap.mp h).2.forall hother hpair hne
  exact hdisjoint (by simpa using hin') (by simpa using hin)

/-- With room for half of the slots, `build_pairs` returns half as many pairs as there are
players of the round. Their players are pairwise different players of the round, and every
player of the round is in one pair or is the bye, which there is just when their number
is odd. -/
theorem buildPairs_matching (s : ServerState F) {maxPairs : ℕ}
    (hroom : MAX_PLAYERS / 2 ≤ maxPairs) :
    (buildPairs s maxPairs).1.length = (eligible s).length / 2 ∧
    (paired (buildPairs s maxPairs).1).Nodup ∧
    (∀ i ∈ paired (buildPairs s maxPairs).1, i ∈ eligible s) ∧
    (∀ i ∈ eligible s, ((∃! pair, pair ∈ (buildPairs s maxPairs).1 ∧
        (i = pair.a ∨ i = pair.b)) ∧ (buildPairs s maxPairs).2 ≠ some i) ∨
      (i ∉ paired (buildPairs s maxPairs).1 ∧ (buildPairs s maxPairs).2 = some i)) ∧
    ((eligible s).length % 2 = 1 →
      ∃ i ∈ eligible s, (buildPairs s maxPairs).2 = some i) ∧
    ((eligible s).length % 2 = 0 → (buildPairs s maxPairs).2 = none) := by
  obtain ⟨hperm, -⟩ := buildPairs_perm s hroom
  generalize (buildPairs s maxPairs).1 = pairs, (buildPairs s maxPairs).2 = bye at hperm ⊢
  have hnodup := hperm.nodup_iff.mpr (eligible_nodup s)
  obtain ⟨hpairs, -, hapart⟩ := List.nodup_append.mp hnodup
  have hlen := hperm.length_eq
  rw [List.length_append, paired_length] at hlen
  have hmem : ∀ i, i ∈ eligible s ↔ i ∈ paired pairs ∨ i ∈ bye.toList := fun i => by
    rw [← hperm.mem_iff, List.mem_append]
  refine ⟨?_, hpairs, fun i hi => (hmem i).mpr (.inl hi), fun i hi => ?_, fun hodd => ?_,
    fun heven => ?_⟩
  · cases bye <;> simp at hlen <;> omega
  · rcases (hmem i).mp hi with hin | hbye
    · refine .inl ⟨existsUnique_pair hpairs hin, ?_⟩
      rintro rfl
      exact hapart i hin i (by simp) rfl
    · refine .inr ⟨fun hin => hapart i hin i hbye rfl, by simpa using hbye⟩
  · cases bye with
    | none =>
      simp only [Option.toList_none, List.length_nil] at hlen
      omega
    | some i => exact ⟨i, (hmem i).mpr (.inr (by simp)), rfl⟩
  · cases bye with
    | none => rfl
    | some i =>
      simp only [Option.toList_some, List.length_singleton] at hlen
      omega

/-- The four players of a round with exact coordinates. -/
theorem buildPairs_matching_four :
    (buildPairs fourPlayers 16).1.length = (eligible fourPlayers).length / 2 ∧
      (paired (buildPairs fourPlayers 16).1).Nodup :=
  ⟨(buildPairs_matching fourPlayers (by decide)).1,
    (buildPairs_matching fourPlayers (by decide)).2.1⟩

end Matching

end BattleRoyale
