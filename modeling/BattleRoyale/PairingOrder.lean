import BattleRoyale.Matching

/-!
# What decides between the pairs

`build_pairs` compares distances that were cast to `int`, and breaks ties by the id of the
player in the lower slot before the id of the other. So a pair that it chooses may be
farther apart than another one by a fraction, and the same players in other slots may be
paired otherwise. The pairing is the same as long as the slots do not change the order of
two pairs that have a player in common.
-/

namespace BattleRoyale

open Selection

section Distances

/-- The squared distance, without the cast. -/
def squaredDistance (p q : Player Exact) : ℚ :=
  (p.x.value - q.x.value) * (p.x.value - q.x.value) +
    (p.y.value - q.y.value) * (p.y.value - q.y.value)

theorem squaredDistance_comm (p q : Player Exact) :
    squaredDistance p q = squaredDistance q p := by
  unfold squaredDistance
  ring

/-- The cast takes the whole part. -/
theorem dist2_eq_floor (p q : Player Exact) : dist2 p q = ⌊squaredDistance p q⌋ := by
  have hnonneg : 0 ≤ squaredDistance p q :=
    add_nonneg (mul_self_nonneg _) (mul_self_nonneg _)
  show (squaredDistance p q).num.tdiv (squaredDistance p q).den = _
  rw [Rat.floor_def', Int.tdiv_eq_ediv_of_nonneg (Rat.num_nonneg.mpr hnonneg)]

/-- What decides between pairs at equal distances: the ids, and at last the slots. -/
def tieKey (s : ServerState Exact) (a b : Slot) : (ℕ ×ₗ ℕ) ×ₗ Slot ×ₗ Slot :=
  toLex (toLex ((s.players a).id, (s.players b).id), toLex (a, b))

/-- No two unmatched players are closer to each other. -/
structure Closest (s : ServerState Exact) (unmatched : List Slot) (a b : Slot) : Prop where
  /-- The first player is unmatched. -/
  left : a ∈ unmatched
  /-- So is the second one. -/
  right : b ∈ unmatched
  /-- The lower slot is the first one. -/
  lower : a < b
  /-- No pair is closer. -/
  least : ∀ c ∈ unmatched, ∀ d ∈ unmatched, c ≠ d →
    squaredDistance (s.players a) (s.players b) ≤ squaredDistance (s.players c) (s.players d)

/-- Among the unmatched pairs whose squared distance has the same whole part, the ids put
this pair first. -/
def FirstOfWholePart (s : ServerState Exact) (unmatched : List Slot) (a b : Slot) : Prop :=
  ∀ c ∈ unmatched, ∀ d ∈ unmatched, c < d →
    ⌊squaredDistance (s.players c) (s.players d)⌋ =
      ⌊squaredDistance (s.players a) (s.players b)⌋ → tieKey s a b ≤ tieKey s c d

/-- At every turn a closest pair is the first one of those with the same whole part. -/
def WholePartsDecide (s : ServerState Exact) : ℕ → List Slot → Prop
  | 0, _ => True
  | room + 1, unmatched => 2 ≤ unmatched.length → ∃ a b, Closest s unmatched a b ∧
      FirstOfWholePart s unmatched a b ∧ WholePartsDecide s room (without unmatched a b)

/-- Each of the pairs is a closest one of the players that were unmatched. -/
def AllClosest (s : ServerState Exact) (unmatched : List Slot) (pairs : List Pair) : Prop :=
  ∀ pre pair post, pairs = pre ++ pair :: post → ∀ p ∈ unmatched, ∀ q ∈ unmatched, p ≠ q →
    p ∉ paired pre → q ∉ paired pre →
    squaredDistance (s.players pair.a) (s.players pair.b) ≤
      squaredDistance (s.players p) (s.players q)

/-- The order of the pairs, by the whole part and then by the ids. -/
theorem pairKey_le_iff {s : ServerState Exact} {a b c d : Slot} :
    pairKey s a b ≤ pairKey s c d ↔
      ⌊squaredDistance (s.players a) (s.players b)⌋ <
          ⌊squaredDistance (s.players c) (s.players d)⌋ ∨
        (⌊squaredDistance (s.players a) (s.players b)⌋ =
            ⌊squaredDistance (s.players c) (s.players d)⌋ ∧ tieKey s a b ≤ tieKey s c d) := by
  simp only [pairKey, nearKey, tieKey, Prod.Lex.toLex_le_toLex, Prod.Lex.toLex_lt_toLex,
    toLex_inj, Prod.mk.injEq, dist2_eq_floor]
  tauto

/-- A closest pair that is the first one of its whole part is the pair that a pass chooses. -/
theorem Closest.chosen {s : ServerState Exact} {unmatched : List Slot} {a b : Slot}
    (h : Closest s unmatched a b) (hfirst : FirstOfWholePart s unmatched a b) :
    Chosen s unmatched a b := by
  refine ⟨h.left, h.right, h.lower, fun c hc d hd hcd => pairKey_le_iff.mpr ?_⟩
  rcases (Int.floor_mono (h.least c hc d hd hcd.ne)).lt_or_eq with hlt | heq
  · exact .inl hlt
  · exact .inr ⟨heq, hfirst c hc d hd hcd heq.symm⟩

/-- The pair that a pass chooses is the first one of its whole part. -/
theorem Chosen.first {s : ServerState Exact} {unmatched : List Slot} {a b : Slot}
    (h : Chosen s unmatched a b) : FirstOfWholePart s unmatched a b := by
  rintro c hc d hd hcd heq
  rcases pairKey_le_iff.mp (h.least c hc d hd hcd) with hlt | ⟨_, hle⟩
  · exact absurd heq hlt.ne'
  · exact hle

theorem allClosest_nil (s : ServerState Exact) (unmatched : List Slot) :
    AllClosest s unmatched [] := by
  rintro pre pair post h
  simp at h

/-- The first pair, and the pairs of the later passes. -/
theorem allClosest_cons {s : ServerState Exact} {unmatched : List Slot} {a b : Slot}
    (ha : a ∈ unmatched) (hb : b ∈ unmatched) (hab : a < b) (pairs : List Pair) :
    AllClosest s unmatched (⟨a, b⟩ :: pairs) ↔
      Closest s unmatched a b ∧ AllClosest s (without unmatched a b) pairs := by
  have hmem : ∀ p, p ∈ without unmatched a b ↔ p ∈ unmatched ∧ p ≠ a ∧ p ≠ b := fun p => by
    simp [without]
  have hpaired : ∀ p pre, p ∉ paired (⟨a, b⟩ :: pre) ↔ (p ≠ a ∧ p ≠ b) ∧ p ∉ paired pre :=
    fun p pre => by simp [paired, and_assoc]
  constructor
  · rintro h
    refine ⟨⟨ha, hb, hab, fun c hc d hd hne => ?_⟩, ?_⟩
    · exact h [] ⟨a, b⟩ pairs rfl c hc d hd hne (by simp [paired]) (by simp [paired])
    · rintro pre pair post rfl p hp q hq hne hp' hq'
      obtain ⟨hp, hpa⟩ := (hmem p).mp hp
      obtain ⟨hq, hqa⟩ := (hmem q).mp hq
      exact h (⟨a, b⟩ :: pre) pair post rfl p hp q hq hne ((hpaired p pre).mpr ⟨hpa, hp'⟩)
        ((hpaired q pre).mpr ⟨hqa, hq'⟩)
  · rintro ⟨hclosest, hrest⟩ pre pair post heq p hp q hq hne hp' hq'
    cases pre with
    | nil =>
      obtain ⟨rfl, rfl⟩ := List.cons.inj heq
      exact hclosest.least p hp q hq hne
    | cons first pre =>
      obtain ⟨rfl, rfl⟩ := List.cons.inj heq
      obtain ⟨hpa, hp'⟩ := (hpaired p pre).mp hp'
      obtain ⟨hqa, hq'⟩ := (hpaired q pre).mp hq'
      exact hrest pre pair post rfl p ((hmem p).mpr ⟨hp, hpa⟩) q ((hmem q).mpr ⟨hq, hqa⟩) hne
        hp' hq'

/-- The loop, from any unmatched players. -/
theorem matchPairs_closest_iff (s : ServerState Exact) (room : ℕ) {unmatched : List Slot}
    (hl : unmatched.Pairwise (· < ·)) :
    AllClosest s unmatched (matchPairs s room unmatched).1 ↔
      WholePartsDecide s room unmatched := by
  induction room generalizing unmatched with
  | zero => exact ⟨fun _ => trivial, fun _ => allClosest_nil s _⟩
  | succ room ih =>
    by_cases hlen : unmatched.length < 2
    · rw [matchPairs_done s _ hlen]
      exact ⟨fun _ h => by omega, fun _ => allClosest_nil s _⟩
    · obtain ⟨a, b, hchosen, hpass⟩ := matchPairs_succ s room hl (not_lt.mp hlen)
      have hrest : AllClosest s (without unmatched a b) _ ↔ _ := ih (hl.filter _)
      rw [hpass, allClosest_cons hchosen.left hchosen.right hchosen.lower]
      constructor
      · rintro ⟨hclosest, hlater⟩ _
        exact ⟨a, b, hclosest, hchosen.first, hrest.mp hlater⟩
      · rintro h
        obtain ⟨c, d, hclosest, hfirst, hdecide⟩ := h (not_lt.mp hlen)
        obtain ⟨rfl, rfl⟩ := hchosen.unique (hclosest.chosen hfirst)
        exact ⟨hclosest, hrest.mpr hdecide⟩

/-- Every pair of `build_pairs` is a closest one just when the whole parts of the squared
distances and the ids lead to a closest pair at every turn. -/
theorem buildPairs_closest_iff (s : ServerState Exact) (maxPairs : ℕ) :
    AllClosest s (eligible s) (buildPairs s maxPairs).1 ↔
      WholePartsDecide s maxPairs (eligible s) := by
  rw [buildPairs_eq]
  exact matchPairs_closest_iff s maxPairs (eligible_increasing s)

/-- Where all squared distances are whole numbers, the cast loses nothing. -/
theorem wholePartsDecide_of_whole {s : ServerState Exact} (room : ℕ) {unmatched : List Slot}
    (hl : unmatched.Pairwise (· < ·))
    (hwhole : ∀ p ∈ unmatched, ∀ q ∈ unmatched,
      squaredDistance (s.players p) (s.players q) =
        ⌊squaredDistance (s.players p) (s.players q)⌋) :
    WholePartsDecide s room unmatched := by
  induction room generalizing unmatched with
  | zero => trivial
  | succ room ih =>
    intro hlen
    obtain ⟨a, b, hchosen, -⟩ := matchPairs_succ s room hl hlen
    have hlower : ∀ c ∈ unmatched, ∀ d ∈ unmatched, c < d →
        squaredDistance (s.players a) (s.players b) ≤
          squaredDistance (s.players c) (s.players d) := by
      intro c hc d hd hcd
      rw [hwhole a hchosen.left b hchosen.right, hwhole c hc d hd, Int.cast_le]
      rcases pairKey_le_iff.mp (hchosen.least c hc d hd hcd) with hlt | ⟨heq, _⟩
      · exact hlt.le
      · exact heq.le
    have hclosest : Closest s unmatched a b := by
      refine ⟨hchosen.left, hchosen.right, hchosen.lower, fun c hc d hd hne => ?_⟩
      rcases lt_or_gt_of_ne hne with hcd | hdc
      · exact hlower c hc d hd hcd
      · rw [squaredDistance_comm (s.players c)]
        exact hlower d hd c hc hdc
    have hrest : ∀ p ∈ without unmatched a b, p ∈ unmatched := fun p hp =>
      (List.mem_filter.mp hp).1
    exact ⟨a, b, hclosest, hchosen.first,
      ih (hl.filter _) fun p hp q hq => hwhole p (hrest p hp) q (hrest q hq)⟩

/-- A player of a round at some place of the first row. -/
def inRow (id : ℕ) (x : ℚ) : Player Exact := fighter id 'a' 'R' x 0 0

/-- An active round of three players in the first row, in the first three slots. -/
def row (p q r : Player Exact) : ServerState Exact :=
  { fourPlayers with
    players := fun i => if i = 0 then p else if i = 1 then q else if i = 2 then r else
      Player.zero }

/-- Players at 0, 6/5 and 11/5. -/
def fractions : ServerState Exact := row (inRow 1 0) (inRow 2 (6 / 5)) (inRow 3 (11 / 5))

/-- The squared distances are 36/25, 1 and 121/25. The first two have the whole part 1, and
the ids prefer the pair that is farther apart. -/
theorem fractions_not_closest :
    ¬AllClosest fractions (eligible fractions) (buildPairs fractions (MAX_PLAYERS / 2)).1 := by
  have hpairs : (buildPairs fractions (MAX_PLAYERS / 2)).1 = [⟨0, 1⟩] := by decide +kernel
  have hmem : (1 : Slot) ∈ eligible fractions ∧ (2 : Slot) ∈ eligible fractions := by
    decide +kernel
  have hfarther : squaredDistance (fractions.players 1) (fractions.players 2) <
      squaredDistance (fractions.players 0) (fractions.players 1) := by decide +kernel
  rw [hpairs]
  rintro h
  have hle := h [] ⟨0, 1⟩ [] rfl 1 hmem.1 2 hmem.2 (by decide) (by simp [paired])
    (by simp [paired])
  exact absurd hfarther (not_lt.mpr hle)

/-- Players at 0, 1 and 3. -/
def wholes : ServerState Exact := row (inRow 1 0) (inRow 2 1) (inRow 3 3)

/-- The squared distances 1, 4 and 9 are whole numbers, and the pair is a closest one. -/
theorem wholes_closest :
    AllClosest wholes (eligible wholes) (buildPairs wholes (MAX_PLAYERS / 2)).1 := by
  have heligible : eligible wholes = [0, 1, 2] := by decide +kernel
  rw [buildPairs_eq]
  refine (matchPairs_closest_iff wholes _ (eligible_increasing wholes)).mpr
    (wholePartsDecide_of_whole _ (eligible_increasing wholes) ?_)
  rw [heligible]
  decide +kernel

end Distances

section Players

variable {F : Type}

/-- Two unmatched players, the lower slot first. -/
def Candidates (unmatched : List Slot) (e : Slot × Slot) : Prop :=
  e.1 ∈ unmatched ∧ e.2 ∈ unmatched ∧ e.1 < e.2

/-- The pairs have a player in common. -/
def Share (e f : Slot × Slot) : Prop := e.1 = f.1 ∨ e.1 = f.2 ∨ e.2 = f.1 ∨ e.2 = f.2

/-- The ids of two players, in no order. -/
def idPair (s : ServerState F) (e : Slot × Slot) : Sym2 ℕ :=
  s((s.players e.1).id, (s.players e.2).id)

/-- The unordered pairs of ids. -/
def idPairs (s : ServerState F) (pairs : List Pair) : Set (Sym2 ℕ) :=
  {x | ∃ pair ∈ pairs, x = idPair s (pair.a, pair.b)}

/-- The two states hold the same players of the round, in slots that may differ. -/
structure Rearranged (σ : Equiv.Perm Slot) (s t : ServerState F) : Prop where
  /-- The same players. -/
  mem : ∀ i, σ i ∈ eligible t ↔ i ∈ eligible s
  /-- With the same ids, at the same places. -/
  same : ∀ i ∈ eligible s, (t.players (σ i)).id = (s.players i).id ∧
    (t.players (σ i)).x = (s.players i).x ∧ (t.players (σ i)).y = (s.players i).y

/-- The ids of the players of the round are pairwise different. -/
def DistinctIds (s : ServerState F) : Prop :=
  ∀ i ∈ eligible s, ∀ j ∈ eligible s, (s.players i).id = (s.players j).id → i = j

/-- The ids tell the pairs apart. -/
theorem idPair_injective {s : ServerState F} (hids : DistinctIds s) {e f : Slot × Slot}
    (he : Candidates (eligible s) e) (hf : Candidates (eligible s) f)
    (h : idPair s e = idPair s f) : e = f := by
  obtain ⟨he₁, he₂, hlt⟩ := he
  obtain ⟨hf₁, hf₂, hlt'⟩ := hf
  rcases Sym2.eq_iff.mp h with ⟨h₁, h₂⟩ | ⟨h₁, h₂⟩
  · exact Prod.ext (hids _ he₁ _ hf₁ h₁) (hids _ he₂ _ hf₂ h₂)
  · have hcross := hids _ he₁ _ hf₂ h₁
    have hcross' := hids _ he₂ _ hf₁ h₂
    rw [hcross, hcross'] at hlt
    exact absurd hlt (lt_asymm hlt')

/-- The players are the same in both directions. -/
theorem Rearranged.ids {s t : ServerState F} {σ : Equiv.Perm Slot} (h : Rearranged σ s t)
    (n : ℕ) : (∃ j ∈ eligible t, (t.players j).id = n) ↔
      ∃ i ∈ eligible s, (s.players i).id = n := by
  constructor
  · rintro ⟨j, hj, rfl⟩
    have hi : σ.symm j ∈ eligible s := by
      rw [← h.mem, Equiv.apply_symm_apply]
      exact hj
    have hsame := (h.same _ hi).1
    rw [Equiv.apply_symm_apply] at hsame
    exact ⟨σ.symm j, hi, hsame.symm⟩
  · rintro ⟨i, hi, rfl⟩
    exact ⟨σ i, (h.mem i).mpr hi, (h.same i hi).1⟩

theorem Rearranged.distinctIds {s t : ServerState F} {σ : Equiv.Perm Slot}
    (h : Rearranged σ s t) (hids : DistinctIds s) : DistinctIds t := by
  have hback : ∀ j ∈ eligible t, ∃ i ∈ eligible s, σ i = j ∧
      (t.players j).id = (s.players i).id := by
    rintro j hj
    have hi : σ.symm j ∈ eligible s := by
      rw [← h.mem, Equiv.apply_symm_apply]
      exact hj
    have hsame := (h.same _ hi).1
    rw [Equiv.apply_symm_apply] at hsame
    exact ⟨σ.symm j, hi, Equiv.apply_symm_apply .., hsame⟩
  rintro j hj l hl heq
  obtain ⟨i, hi, rfl, hid⟩ := hback j hj
  obtain ⟨k, hk, rfl, hid'⟩ := hback l hl
  rw [hids i hi k hk (hid.symm.trans (heq.trans hid'))]

/-- The two slots of a pair in the other arrangement, the lower one first. -/
def relocated (σ : Equiv.Perm Slot) (e : Slot × Slot) : Slot × Slot :=
  (min (σ e.1) (σ e.2), max (σ e.1) (σ e.2))

/-- The slots keep their order, or exchange it. -/
theorem relocated_cases (σ : Equiv.Perm Slot) {e : Slot × Slot} (hne : e.1 ≠ e.2) :
    (σ e.1 < σ e.2 ∧ relocated σ e = (σ e.1, σ e.2)) ∨
      (σ e.2 < σ e.1 ∧ relocated σ e = (σ e.2, σ e.1)) := by
  rcases lt_or_gt_of_ne (σ.injective.ne hne) with hlt | hlt
  · exact .inl ⟨hlt, by rw [relocated, min_eq_left hlt.le, max_eq_right hlt.le]⟩
  · exact .inr ⟨hlt, by rw [relocated, min_eq_right hlt.le, max_eq_left hlt.le]⟩

/-- The pairs of one arrangement are those of the other. -/
theorem Rearranged.candidates {s t : ServerState F} {σ : Equiv.Perm Slot}
    (h : Rearranged σ s t) {e : Slot × Slot} (he : Candidates (eligible s) e) :
    Candidates (eligible t) (relocated σ e) := by
  have h₁ := (h.mem e.1).mpr he.1
  have h₂ := (h.mem e.2).mpr he.2.1
  rcases relocated_cases σ he.2.2.ne with ⟨hlt, heq⟩ | ⟨hlt, heq⟩ <;> rw [heq]
  · exact ⟨h₁, h₂, hlt⟩
  · exact ⟨h₂, h₁, hlt⟩

theorem Rearranged.exists_relocated {s t : ServerState F} {σ : Equiv.Perm Slot}
    (h : Rearranged σ s t) {e : Slot × Slot} (he : Candidates (eligible t) e) :
    ∃ f, Candidates (eligible s) f ∧ relocated σ f = e := by
  have hback : ∀ i ∈ eligible t, σ.symm i ∈ eligible s := fun i hi => by
    rwa [← h.mem, Equiv.apply_symm_apply]
  rcases lt_or_gt_of_ne (σ.symm.injective.ne he.2.2.ne) with hlt | hlt
  · refine ⟨(σ.symm e.1, σ.symm e.2), ⟨hback _ he.1, hback _ he.2.1, hlt⟩, ?_⟩
    simp only [relocated, Equiv.apply_symm_apply]
    rw [min_eq_left he.2.2.le, max_eq_right he.2.2.le]
  · refine ⟨(σ.symm e.2, σ.symm e.1), ⟨hback _ he.2.1, hback _ he.1, hlt⟩, ?_⟩
    simp only [relocated, Equiv.apply_symm_apply]
    rw [min_eq_right he.2.2.le, max_eq_left he.2.2.le]

/-- The ids of a pair stay the same. -/
theorem Rearranged.idPair {s t : ServerState F} {σ : Equiv.Perm Slot} (h : Rearranged σ s t)
    {e : Slot × Slot} (he : Candidates (eligible s) e) :
    BattleRoyale.idPair t (relocated σ e) = BattleRoyale.idPair s e := by
  have h₁ := (h.same e.1 he.1).1
  have h₂ := (h.same e.2 he.2.1).1
  rcases relocated_cases σ he.2.2.ne with ⟨_, heq⟩ | ⟨_, heq⟩ <;>
    simp only [BattleRoyale.idPair, heq, h₁, h₂]
  exact Sym2.eq_swap

/-- Pairs have a player in common in both arrangements or in none. -/
theorem share_relocated (σ : Equiv.Perm Slot) {e f : Slot × Slot} (he : e.1 ≠ e.2)
    (hf : f.1 ≠ f.2) : Share (relocated σ e) (relocated σ f) ↔ Share e f := by
  rcases relocated_cases σ he with ⟨_, heq⟩ | ⟨_, heq⟩ <;>
    rcases relocated_cases σ hf with ⟨_, heq'⟩ | ⟨_, heq'⟩ <;>
      simp only [Share, heq, heq', σ.injective.eq_iff] <;> tauto

end Players

section Settling

variable {F : Type} [CFloat F]

/-- The passes prefer the first pair. -/
def Precedes (s : ServerState F) (e f : Slot × Slot) : Prop :=
  pairKey s e.1 e.2 < pairKey s f.1 f.2

theorem precedes_wf (s : ServerState F) : WellFounded (Precedes s) := by
  have htrans : IsTrans (Slot × Slot) (Precedes s) := ⟨fun _ _ _ h h' => lt_trans h h'⟩
  have hirrefl : Std.Irrefl (Precedes s) := ⟨fun _ h => lt_irrefl _ h⟩
  exact Finite.wellFounded_of_trans_of_irrefl _

/-- Every pair of unmatched players that the loop does not choose shares a player with one
that it chooses, and prefers. -/
theorem matchPairs_others (s : ServerState F) {room : ℕ} {unmatched : List Slot}
    (hl : unmatched.Pairwise (· < ·)) (hroom : unmatched.length / 2 ≤ room) {e : Slot × Slot}
    (he : Candidates unmatched e) (hnot : ⟨e.1, e.2⟩ ∉ (matchPairs s room unmatched).1) :
    ∃ pair ∈ (matchPairs s room unmatched).1, Precedes s (pair.a, pair.b) e ∧
      Share (pair.a, pair.b) e := by
  induction room generalizing unmatched with
  | zero =>
    obtain ⟨ha, hb, hab⟩ := he
    have htwo := two_le_length ha hb hab.ne
    omega
  | succ room ih =>
    obtain ⟨c, d, hchosen, hpass⟩ := matchPairs_succ s room hl
      (two_le_length he.1 he.2.1 he.2.2.ne)
    have hcount := (without_perm (hl.imp fun h => h.ne) hchosen.left hchosen.right
      hchosen.lower.ne).length_eq
    simp only [List.length_cons] at hcount
    rw [hpass] at hnot ⊢
    simp only [List.mem_cons, not_or] at hnot
    by_cases hshare : Share (c, d) e
    · refine ⟨⟨c, d⟩, List.mem_cons_self, lt_of_le_of_ne ?_ ?_, hshare⟩
      · exact hchosen.least _ he.1 _ he.2.1 he.2.2
      · rintro hsame
        have hsame : pairKey s c d = pairKey s e.1 e.2 := hsame
        rw [pairKey, pairKey, toLex_inj, Prod.mk.injEq, toLex_inj, Prod.mk.injEq] at hsame
        exact hnot.1 (by rw [hsame.2.1, hsame.2.2])
    · have hrest : Candidates (without unmatched c d) e := by
        unfold Share at hshare
        unfold Candidates without at *
        simp only [List.mem_filter, decide_eq_true_eq]
        tauto
      have hl' : (without unmatched c d).Pairwise (· < ·) := hl.filter _
      obtain ⟨pair, hpair, hbefore⟩ := ih hl' (by omega) hrest hnot.2
      exact ⟨pair, List.mem_cons_of_mem _ hpair, hbefore⟩

/-- With room for all players, the pairs are the settled ones: the others share a player
with a pair that the passes prefer. -/
theorem buildPairs_settled (s : ServerState F) {maxPairs : ℕ}
    (hroom : MAX_PLAYERS / 2 ≤ maxPairs) :
    SettledSet (Candidates (eligible s)) (Precedes s) Share
      {e | ⟨e.1, e.2⟩ ∈ (buildPairs s maxPairs).1} := by
  have hhalf : (eligible s).length / 2 ≤ maxPairs :=
    (Nat.div_le_div_right (eligible_length s)).trans hroom
  obtain ⟨-, hlower⟩ := buildPairs_perm s hroom
  obtain ⟨-, hnodup, hin, -⟩ := buildPairs_matching s hroom
  refine ⟨fun e he => ⟨?_, ?_, hlower _ he⟩, ?_, ?_⟩
  · exact hin _ (mem_paired.mpr ⟨_, he, .inl rfl⟩)
  · exact hin _ (mem_paired.mpr ⟨_, he, .inr rfl⟩)
  · rintro e he f hf hne hshare
    have hsame : ∀ i, (i = e.1 ∨ i = e.2) → (i = f.1 ∨ i = f.2) → e = f := by
      rintro i hie hif
      have hunique := existsUnique_pair hnodup (mem_paired.mpr ⟨_, he, hie⟩)
      have hpair := hunique.unique ⟨he, hie⟩ ⟨hf, hif⟩
      exact Prod.ext (congrArg Pair.a hpair) (congrArg Pair.b hpair)
    rcases hshare with h | h | h | h
    · exact hne (hsame e.1 (.inl rfl) (.inl h))
    · exact hne (hsame e.1 (.inl rfl) (.inr h))
    · exact hne (hsame e.2 (.inr rfl) (.inl h))
    · exact hne (hsame e.2 (.inr rfl) (.inr h))
  · rintro e he hnot
    rw [buildPairs_eq] at hnot ⊢
    obtain ⟨pair, hpair, hbefore, hshare⟩ :=
      matchPairs_others s (eligible_increasing s) hhalf he hnot
    exact ⟨(pair.a, pair.b), hpair, hbefore, hshare⟩

end Settling

section Arrangements

variable {F : Type} [CFloat F]

/-- The same unordered pairs of ids, and the same bye. -/
def SamePairing (s t : ServerState F) (maxPairs : ℕ) : Prop :=
  idPairs s (buildPairs s maxPairs).1 = idPairs t (buildPairs t maxPairs).1 ∧
    (buildPairs s maxPairs).2.map (fun i => (s.players i).id) =
      (buildPairs t maxPairs).2.map (fun i => (t.players i).id)

/-- These unordered pairs of ids are a settled choice among the pairs of the state. -/
structure SettlesRound (s : ServerState F) (M : Set (Sym2 ℕ)) : Prop where
  /-- They are pairs of players of the round. -/
  players : ∀ x ∈ M, ∃ e, Candidates (eligible s) e ∧ x = idPair s e
  /-- Nobody is in two of them, and every other pair shares a player with a preferred one. -/
  settled : SettledSet (Candidates (eligible s)) (Precedes s) Share
    {e | Candidates (eligible s) e ∧ idPair s e ∈ M}

/-- The pairs of `build_pairs` are the only settled ones. -/
theorem settlesRound_iff {s : ServerState F} (hids : DistinctIds s) {maxPairs : ℕ}
    (hroom : MAX_PLAYERS / 2 ≤ maxPairs) {M : Set (Sym2 ℕ)} :
    SettlesRound s M ↔ M = idPairs s (buildPairs s maxPairs).1 := by
  have hsettled := buildPairs_settled s hroom
  have hcandidates : ∀ pair ∈ (buildPairs s maxPairs).1,
      Candidates (eligible s) (pair.a, pair.b) := fun pair hpair =>
    hsettled.candidates (pair.a, pair.b) hpair
  constructor
  · rintro h
    have hsame := h.settled.unique (precedes_wf s) hsettled
    ext x
    constructor
    · rintro hx
      obtain ⟨e, he, rfl⟩ := h.players x hx
      have hmem : e ∈ {e | Candidates (eligible s) e ∧ idPair s e ∈ M} := ⟨he, hx⟩
      rw [hsame] at hmem
      exact ⟨⟨e.1, e.2⟩, hmem, rfl⟩
    · rintro ⟨pair, hpair, rfl⟩
      have hmem : (pair.a, pair.b) ∈ {e | Candidates (eligible s) e ∧ idPair s e ∈ M} := by
        rw [hsame]
        exact hpair
      exact hmem.2
  · rintro rfl
    have hset : {e | Candidates (eligible s) e ∧
        idPair s e ∈ idPairs s (buildPairs s maxPairs).1} =
        {e | ⟨e.1, e.2⟩ ∈ (buildPairs s maxPairs).1} := by
      ext e
      constructor
      · rintro ⟨he, pair, hpair, hid⟩
        have heq := idPair_injective hids he (hcandidates pair hpair) hid
        rw [heq]
        exact hpair
      · rintro he
        exact ⟨hsettled.candidates e he, _, he, rfl⟩
    refine ⟨?_, by rwa [hset]⟩
    rintro x ⟨pair, hpair, rfl⟩
    exact ⟨_, hcandidates pair hpair, rfl⟩

/-- The bye is the player of the round whose id is in no pair. -/
theorem bye_id_iff {s : ServerState F} (hids : DistinctIds s) {maxPairs : ℕ}
    (hroom : MAX_PLAYERS / 2 ≤ maxPairs) (n : ℕ) :
    (buildPairs s maxPairs).2.map (fun i => (s.players i).id) = some n ↔
      (∃ i ∈ eligible s, (s.players i).id = n) ∧
        ∀ x ∈ idPairs s (buildPairs s maxPairs).1, n ∉ x := by
  obtain ⟨-, -, hin, hall, -⟩ := buildPairs_matching s hroom
  have hbye : ∀ i, (buildPairs s maxPairs).2 = some i →
      i ∈ eligible s ∧ i ∉ paired (buildPairs s maxPairs).1 := by
    rintro i hi
    have hperm := (buildPairs_perm s hroom).1
    have hmem : i ∈ (buildPairs s maxPairs).2.toList := by simp [hi]
    have hnodup := List.nodup_append.mp (hperm.nodup_iff.mpr (eligible_nodup s))
    exact ⟨hperm.mem_iff.mp (List.mem_append_right _ hmem),
      fun hpaired => hnodup.2.2 i hpaired i hmem rfl⟩
  constructor
  · rintro h
    obtain ⟨i, hi, rfl⟩ := Option.map_eq_some_iff.mp h
    obtain ⟨hplayer, hnot⟩ := hbye i hi
    refine ⟨⟨i, hplayer, rfl⟩, ?_⟩
    rintro x ⟨pair, hpair, rfl⟩ hx
    have ha := hin pair.a (mem_paired.mpr ⟨pair, hpair, .inl rfl⟩)
    have hb := hin pair.b (mem_paired.mpr ⟨pair, hpair, .inr rfl⟩)
    rcases Sym2.mem_iff.mp hx with hid | hid
    · exact hnot (mem_paired.mpr ⟨pair, hpair, .inl (hids i hplayer _ ha hid)⟩)
    · exact hnot (mem_paired.mpr ⟨pair, hpair, .inr (hids i hplayer _ hb hid)⟩)
  · rintro ⟨⟨i, hplayer, rfl⟩, hnone⟩
    rcases hall i hplayer with ⟨hpair, _⟩ | ⟨_, hi⟩
    · obtain ⟨pair, ⟨hmem, hside⟩, _⟩ := hpair
      refine absurd (Sym2.mem_iff.mpr ?_) (hnone _ ⟨pair, hmem, rfl⟩)
      rcases hside with rfl | rfl
      · exact .inl rfl
      · exact .inr rfl
    · rw [hi]
      rfl

/-- The slots do not matter just when one choice of pairs is settled in both arrangements. -/
theorem samePairing_iff {s t : ServerState F} {σ : Equiv.Perm Slot} (h : Rearranged σ s t)
    (hids : DistinctIds s) {maxPairs : ℕ} (hroom : MAX_PLAYERS / 2 ≤ maxPairs) :
    SamePairing s t maxPairs ↔ ∃ M, SettlesRound s M ∧ SettlesRound t M := by
  have hids' := h.distinctIds hids
  constructor
  · rintro ⟨hpairs, _⟩
    exact ⟨_, (settlesRound_iff hids hroom).mpr rfl, (settlesRound_iff hids' hroom).mpr hpairs⟩
  · rintro ⟨M, hs, ht⟩
    have hpairs := ((settlesRound_iff hids hroom).mp hs).symm.trans
      ((settlesRound_iff hids' hroom).mp ht)
    refine ⟨hpairs, Option.ext fun n => ?_⟩
    rw [bye_id_iff hids hroom, bye_id_iff hids' hroom, h.ids, hpairs]

/-- Any two pairs of players of the round that have a player in common come in the same
order in both arrangements: by the distance, then by the id of the player in the lower slot,
then by the id of the other. -/
def SameOrder (σ : Equiv.Perm Slot) (s t : ServerState F) : Prop :=
  ∀ e f, Candidates (eligible s) e → Candidates (eligible s) f → Share e f →
    Precedes s e f → Precedes t (relocated σ e) (relocated σ f)

/-- The pairs of the one arrangement, moved to the other, are settled there. -/
theorem SameOrder.settled {s t : ServerState F} {σ : Equiv.Perm Slot} (h : Rearranged σ s t)
    (horder : SameOrder σ s t) {M : Set (Slot × Slot)}
    (hM : SettledSet (Candidates (eligible s)) (Precedes s) Share M) :
    SettledSet (Candidates (eligible t)) (Precedes t) Share (relocated σ '' M) := by
  refine hM.image (relocated σ) (fun e he => h.candidates he)
    (fun e he => h.exists_relocated he) ?_ ?_
  · intro e f he hf hshare
    exact (share_relocated σ he.2.2.ne hf.2.2.ne).mp hshare
  · intro e f he hf hbefore hshare
    exact ⟨horder e f he hf hshare hbefore, (share_relocated σ he.2.2.ne hf.2.2.ne).mpr hshare⟩

/-- The ids of a pair, the one of the lower slot first. -/
def idKey (s : ServerState F) (e : Slot × Slot) : ℕ ×ₗ ℕ :=
  toLex ((s.players e.1).id, (s.players e.2).id)

/-- Only ties can change their order, where distances are the same in both directions. -/
theorem sameOrder_of_ties (hcomm : ∀ p q : Player F, dist2 p q = dist2 q p)
    {s t : ServerState F} {σ : Equiv.Perm Slot} (h : Rearranged σ s t) (hids : DistinctIds s)
    (hties : ∀ e f, Candidates (eligible s) e → Candidates (eligible s) f → Share e f →
      dist2 (s.players e.1) (s.players e.2) = dist2 (s.players f.1) (s.players f.2) →
        idKey s e < idKey s f → idKey t (relocated σ e) < idKey t (relocated σ f)) :
    SameOrder σ s t := by
  have hsame : ∀ i ∈ eligible s, ∀ j ∈ eligible s,
      dist2 (t.players (σ i)) (t.players (σ j)) = dist2 (s.players i) (s.players j) := by
    intro i hi j hj
    obtain ⟨_, hx, hy⟩ := h.same i hi
    obtain ⟨_, hx', hy'⟩ := h.same j hj
    simp only [dist2, hx, hy, hx', hy']
  have hdist : ∀ e, Candidates (eligible s) e →
      dist2 (t.players (relocated σ e).1) (t.players (relocated σ e).2) =
        dist2 (s.players e.1) (s.players e.2) := by
    intro e he
    rcases relocated_cases σ he.2.2.ne with ⟨_, heq⟩ | ⟨_, heq⟩ <;> rw [heq]
    · exact hsame _ he.1 _ he.2.1
    · exact (hcomm _ _).trans (hsame _ he.1 _ he.2.1)
  intro e f he hf hshare hbefore
  have hbefore : toLex (nearKey s e.1 e.2, toLex (e.1, e.2)) <
      toLex (nearKey s f.1 f.2, toLex (f.1, f.2)) := hbefore
  show toLex (nearKey t (relocated σ e).1 (relocated σ e).2, toLex (relocated σ e)) <
    toLex (nearKey t (relocated σ f).1 (relocated σ f).2, toLex (relocated σ f))
  rw [Prod.Lex.toLex_lt_toLex] at hbefore ⊢
  left
  rcases hbefore with hnear | ⟨hequal, hslots⟩
  · unfold nearKey at hnear ⊢
    rw [Prod.Lex.toLex_lt_toLex] at hnear ⊢
    rw [hdist e he, hdist f hf]
    rcases hnear with hlt | ⟨hdist, hid⟩
    · exact .inl hlt
    · exact .inr ⟨hdist, hties e f he hf hshare hdist hid⟩
  · -- Different pairs have different ids.
    unfold nearKey at hequal
    rw [toLex_inj, Prod.mk.injEq, toLex_inj, Prod.mk.injEq] at hequal
    have heq : e = f := Prod.ext (hids _ he.1 _ hf.1 hequal.2.1) (hids _ he.2.1 _ hf.2.1 hequal.2.2)
    rw [heq] at hslots
    exact absurd hslots (lt_irrefl _)

/-- No player of the round has two others at one distance. -/
def NoTies (s : ServerState F) : Prop :=
  ∀ i ∈ eligible s, ∀ j ∈ eligible s, ∀ k ∈ eligible s, i ≠ j → i ≠ k →
    dist2 (s.players i) (s.players j) = dist2 (s.players i) (s.players k) → j = k

instance (s : ServerState F) : Decidable (NoTies s) := by
  unfold NoTies
  infer_instance

/-- Without ties the order of two pairs with a common player is that of their distances. -/
theorem sameOrder_of_noTies (hcomm : ∀ p q : Player F, dist2 p q = dist2 q p)
    {s t : ServerState F} {σ : Equiv.Perm Slot} (h : Rearranged σ s t) (hids : DistinctIds s)
    (hties : NoTies s) : SameOrder σ s t := by
  refine sameOrder_of_ties hcomm h hids fun e f he hf hshare hdist hid => ?_
  have hequal : e = f := by
    obtain ⟨he₁, he₂, hlt⟩ := he
    obtain ⟨hf₁, hf₂, hlt'⟩ := hf
    rcases hshare with heq | heq | heq | heq
    · refine Prod.ext heq (hties e.1 he₁ e.2 he₂ f.2 hf₂ hlt.ne (heq ▸ hlt'.ne) ?_)
      rw [hdist, heq]
    · have hother : e.2 = f.1 := by
        refine hties e.1 he₁ e.2 he₂ f.1 hf₁ hlt.ne (heq ▸ hlt'.ne') ?_
        rw [hdist, hcomm, heq]
      rw [heq, hother] at hlt
      exact absurd hlt (lt_asymm hlt')
    · have hother : e.1 = f.2 := by
        refine hties e.2 he₂ e.1 he₁ f.2 hf₂ hlt.ne' (heq ▸ hlt'.ne) ?_
        rw [hcomm, hdist, heq]
      rw [heq, hother] at hlt
      exact absurd hlt (lt_asymm hlt')
    · refine Prod.ext (hties e.2 he₂ e.1 he₁ f.1 hf₁ hlt.ne' (heq ▸ hlt'.ne') ?_) heq
      rw [hcomm, hdist, hcomm, heq]
  rw [hequal] at hid
  exact absurd hid (lt_irrefl _)

/-- The ids of the players of the round increase with their slots. -/
def IdsIncrease (s : ServerState F) : Prop :=
  ∀ i ∈ eligible s, ∀ j ∈ eligible s, i < j → (s.players i).id < (s.players j).id

/-- Where the ids increase with the slots in both arrangements, a pair has its ids in the
same order. -/
theorem sameOrder_of_idsIncrease (hcomm : ∀ p q : Player F, dist2 p q = dist2 q p)
    {s t : ServerState F} {σ : Equiv.Perm Slot} (h : Rearranged σ s t) (hids : DistinctIds s)
    (hs : IdsIncrease s) (ht : IdsIncrease t) : SameOrder σ s t := by
  have hkey : ∀ e, Candidates (eligible s) e → idKey t (relocated σ e) = idKey s e := by
    intro e he
    have hid₁ := (h.same e.1 he.1).1
    have hid₂ := (h.same e.2 he.2.1).1
    rcases relocated_cases σ he.2.2.ne with ⟨_, heq⟩ | ⟨hlt, _⟩
    · simp only [idKey, heq, hid₁, hid₂]
    · have hback := ht _ ((h.mem e.2).mpr he.2.1) _ ((h.mem e.1).mpr he.1) hlt
      rw [hid₁, hid₂] at hback
      exact absurd hback (lt_asymm (hs _ he.1 _ he.2.1 he.2.2))
  refine sameOrder_of_ties hcomm h hids fun e f he hf _ _ hid => ?_
  rwa [hkey e he, hkey f hf]

end Arrangements

/-- Three players one step apart, the one with the greatest id in the middle. -/
def steps : ServerState Exact := row (inRow 1 0) (inRow 3 1) (inRow 2 2)

/-- The same players in the opposite order of their slots. -/
def stepsReversed : ServerState Exact := row (inRow 2 2) (inRow 3 1) (inRow 1 0)

theorem steps_rearranged :
    Rearranged (Equiv.swap 0 2) steps stepsReversed ∧ DistinctIds steps := by
  refine ⟨⟨?_, ?_⟩, ?_⟩
  · decide +kernel
  · decide +kernel
  · unfold DistinctIds
    decide +kernel

/-- Exact distances are the same in both directions. -/
theorem dist2_comm (p q : Player Exact) : dist2 p q = dist2 q p := by
  rw [dist2_eq_floor, dist2_eq_floor, squaredDistance_comm]

/-- Three players at 0, 1 and 3, the one with the greatest id in the middle. -/
def spaced : ServerState Exact := row (inRow 1 0) (inRow 3 1) (inRow 2 3)

/-- The same players in the opposite order of their slots. -/
def spacedReversed : ServerState Exact := row (inRow 2 3) (inRow 3 1) (inRow 1 0)

theorem spaced_rearranged :
    Rearranged (Equiv.swap 0 2) spaced spacedReversed ∧ DistinctIds spaced := by
  refine ⟨⟨?_, ?_⟩, ?_⟩
  · decide +kernel
  · decide +kernel
  · unfold DistinctIds
    decide +kernel

/-- Four players one step apart, in the first four slots. -/
def rowOfFour (p q r u : Player Exact) : ServerState Exact :=
  { fourPlayers with
    players := fun i => if i = 0 then p else if i = 1 then q else if i = 2 then r else
      if i = 3 then u else Player.zero }

/-- Players at 0, 1, 3 and 2, with the ids 2, 3, 4 and 1. -/
def ends : ServerState Exact := rowOfFour (inRow 2 0) (inRow 3 1) (inRow 4 3) (inRow 1 2)

/-- The same players, the first two and the last two exchanged. -/
def endsSwapped : ServerState Exact := rowOfFour (inRow 3 1) (inRow 2 0) (inRow 1 2) (inRow 4 3)

/-- The condition is not necessary: the middle pair comes after the first pair in one
arrangement and before it in the other, but it loses a player to the outer pairs in both. -/
theorem sameOrder_not_necessary :
    Rearranged (Equiv.swap 0 1 * Equiv.swap 2 3) ends endsSwapped ∧ DistinctIds ends ∧
      SamePairing ends endsSwapped (MAX_PLAYERS / 2) ∧
      ¬SameOrder (Equiv.swap 0 1 * Equiv.swap 2 3) ends endsSwapped := by
  have hmoved : Rearranged (Equiv.swap 0 1 * Equiv.swap 2 3) ends endsSwapped := by
    refine ⟨?_, ?_⟩ <;> decide +kernel
  have hids : DistinctIds ends := by
    unfold DistinctIds
    decide +kernel
  refine ⟨hmoved, hids, ?_, fun h => ?_⟩
  · have hpairs : (buildPairs ends (MAX_PLAYERS / 2)) = ([⟨0, 1⟩, ⟨2, 3⟩], none) ∧
        (buildPairs endsSwapped (MAX_PLAYERS / 2)) = ([⟨2, 3⟩, ⟨0, 1⟩], none) := by
      decide +kernel
    refine ⟨?_, by rw [hpairs.1, hpairs.2]; rfl⟩
    rw [hpairs.1, hpairs.2]
    ext x
    simp only [idPairs, List.mem_cons, List.not_mem_nil, or_false, exists_eq_or_imp,
      exists_eq_left, Set.mem_ofPred_eq]
    have hfirst : idPair ends (0, 1) = idPair endsSwapped (0, 1) := by decide +kernel
    have hlast : idPair ends (2, 3) = idPair endsSwapped (2, 3) := by decide +kernel
    rw [hfirst, hlast, or_comm]
  · have hbefore : Precedes ends (0, 1) (1, 3) := by
      unfold Precedes
      decide +kernel
    have hafter : ¬Precedes endsSwapped (0, 1) (0, 2) := by
      unfold Precedes
      decide +kernel
    refine hafter (h (0, 1) (1, 3) ?_ ?_ (.inr (.inr (.inl rfl))) hbefore)
    · unfold Candidates
      decide +kernel
    · unfold Candidates
      decide +kernel

end BattleRoyale
