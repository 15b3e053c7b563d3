import BattleRoyale.ChaseEffects
import BattleRoyale.Exact
import BattleRoyale.Library.Pursuit

/-!
# The chase on real coordinates

The coordinates as exact real numbers. A prey of `find_nearest_prey` is nearest, a move
of `simulate_chase_tick` goes straight towards it, and so the captures of a tick, the
board, and the end of a chase between two types can be told.
-/

namespace BattleRoyale

open Pursuit

/-- Real numbers, printed and read like the exact rational ones. -/
noncomputable instance : CFloat ℝ where
  lit q := q
  ofInt n := n
  toInt x := if 0 ≤ x then ⌊x⌋ else ⌈x⌉
  lt x y := decide (x < y)
  le x y := decide (x ≤ y)
  eq x y := decide (x = y)
  add x y := x + y
  sub x y := x - y
  mul x y := x * y
  div x y := x / y
  sqrtf := Real.sqrt
  fixed digits x :=
    let whole := ⌊|x| * 10 ^ digits⌋₊
    let rest := |x| * 10 ^ digits - whole
    let n := if rest < 1 / 2 then whole else if 1 / 2 < rest then whole + 1 else whole + whole % 2
    (if x < 0 then ['-'] else []) ++
      (Nat.toDigits 10 (n / 10 ^ digits) ++ '.' :: Exact.padded digits (n % 10 ^ digits))
  scan text := (Exact.scan text).map fun (x, rest) => ((x.value : ℝ), rest)

/-- The distance between two players. -/
noncomputable def gap (p q : Player ℝ) : ℝ := length (q.x - p.x) (q.y - p.y)

/-- The distance that the code computes. -/
theorem distance_eq (p q : Player ℝ) :
    distance (CFloat.sub q.x p.x) (CFloat.sub q.y p.y) = gap p q := rfl

/-- A distance is not negative. -/
theorem gap_nonneg (p q : Player ℝ) : 0 ≤ gap p q := length_nonneg _ _

/-- The contact distance. -/
theorem capture_radius_eq : (CAPTURE_RADIUS : ℝ) = 1 / 2 := by
  show ((1 / 2 : ℚ) : ℝ) = 1 / 2
  norm_num

/-- The speed. -/
theorem chase_speed_eq : (CHASE_SPEED : ℝ) = 8 / 10 := by
  show ((8 / 10 : ℚ) : ℝ) = 8 / 10
  norm_num

/-- The player in the slot may be eaten by the hunter. -/
def IsPrey {F : Type} (s : ServerState F) (hunter i : Slot) : Prop :=
  (s.players i).isAlive = true ∧
    canEat (s.players hunter).choice (s.players i).choice = true

/-- Nobody is its own prey. -/
theorem IsPrey.ne {F : Type} {s : ServerState F} {hunter i : Slot} (h : IsPrey s hunter i) :
    i ≠ hunter := by
  rintro rfl
  have heat := h.2
  rw [not_canEat_self] at heat
  cases heat

/-- The scan passes over players that are no prey. -/
theorem considerPrey_of_not {s : ServerState ℝ} {hunter i : Slot} (h : ¬IsPrey s hunter i)
    (best : Option (Slot × ℝ)) : considerPrey s hunter best i = best := by
  unfold considerPrey
  simp only
  split
  · rfl
  rename_i halive
  split
  · rfl
  split
  · rfl
  split
  · rfl
  rename_i heat
  exact absurd ⟨by simpa using halive, by simpa using heat⟩ h

/-- A prey is taken when it is the first one, or nearer than the best so far. -/
theorem considerPrey_of {s : ServerState ℝ} {hunter i : Slot} (h : IsPrey s hunter i)
    (best : Option (Slot × ℝ)) : considerPrey s hunter best i =
      match best with
      | none => some (i, gap (s.players hunter) (s.players i))
      | some (q, d) =>
        if gap (s.players hunter) (s.players i) < d then
          some (i, gap (s.players hunter) (s.players i))
        else some (q, d) := by
  have hchoice : (s.players i).choice ≠ (s.players hunter).choice := by
    intro hsame
    have heat := h.2
    rw [hsame, not_canEat_self] at heat
    cases heat
  unfold considerPrey
  simp only [h.1, h.2, h.ne, hchoice, Bool.not_true, Bool.false_eq_true, if_false, distance_eq]
  cases best with
  | none => rfl
  | some b => simp [CFloat.lt]

/-- What the scan has found among the slots that it has seen. -/
structure Scanned (s : ServerState ℝ) (hunter : Slot) (seen : List Slot)
    (best : Option (Slot × ℝ)) : Prop where
  /-- Nothing is found only where there is no prey. -/
  none_of : best = none → ∀ j ∈ seen, ¬IsPrey s hunter j
  /-- What is found is a prey, and none is nearer. -/
  some_of : ∀ q d, best = some (q, d) → d = gap (s.players hunter) (s.players q) ∧
    ∀ j ∈ seen, IsPrey s hunter j → d ≤ gap (s.players hunter) (s.players j)

/-- One more slot. -/
theorem Scanned.consider {s : ServerState ℝ} {hunter : Slot} {seen : List Slot}
    {best : Option (Slot × ℝ)} (h : Scanned s hunter seen best) (i : Slot) :
    Scanned s hunter (seen ++ [i]) (considerPrey s hunter best i) := by
  by_cases hi : IsPrey s hunter i
  swap
  · rw [considerPrey_of_not hi]
    refine ⟨fun hnone j hj => ?_, fun q d hsome => ⟨(h.some_of q d hsome).1, fun j hj hprey => ?_⟩⟩
    · rcases List.mem_append.mp hj with hj | hj
      · exact h.none_of hnone j hj
      · rwa [List.mem_singleton.mp hj]
    · rcases List.mem_append.mp hj with hj | hj
      · exact (h.some_of q d hsome).2 j hj hprey
      · exact absurd (List.mem_singleton.mp hj ▸ hprey) hi
  rw [considerPrey_of hi]
  cases best with
  | none =>
    refine ⟨nofun, fun q d hsome => ?_⟩
    obtain ⟨rfl, rfl⟩ : i = q ∧ gap (s.players hunter) (s.players i) = d := by simpa using hsome
    refine ⟨rfl, fun j hj hprey => ?_⟩
    rcases List.mem_append.mp hj with hj | hj
    · exact absurd hprey (h.none_of rfl j hj)
    · rw [List.mem_singleton.mp hj]
  | some b =>
    obtain ⟨p, e⟩ := b
    obtain ⟨he, hnearest⟩ := h.some_of p e rfl
    dsimp only
    split
    · rename_i hcloser
      refine ⟨nofun, fun q d hsome => ?_⟩
      obtain ⟨rfl, rfl⟩ : i = q ∧ gap (s.players hunter) (s.players i) = d := by simpa using hsome
      refine ⟨rfl, fun j hj hprey => ?_⟩
      rcases List.mem_append.mp hj with hj | hj
      · exact hcloser.le.trans (hnearest j hj hprey)
      · rw [List.mem_singleton.mp hj]
    · rename_i hfarther
      refine ⟨nofun, fun q d hsome => ?_⟩
      obtain ⟨rfl, rfl⟩ : p = q ∧ e = d := by simpa using hsome
      refine ⟨he, fun j hj hprey => ?_⟩
      rcases List.mem_append.mp hj with hj | hj
      · exact hnearest j hj hprey
      · rw [List.mem_singleton.mp hj]
        exact not_lt.mp hfarther

/-- The whole scan. -/
theorem scanned_slots (s : ServerState ℝ) (hunter : Slot) :
    Scanned s hunter slots (slots.foldl (considerPrey s hunter) none) := by
  have hloop : ∀ (is seen : List Slot) (best : Option (Slot × ℝ)), Scanned s hunter seen best →
      Scanned s hunter (seen ++ is) (is.foldl (considerPrey s hunter) best) := by
    intro is
    induction is with
    | nil => exact fun seen best h => by rwa [List.append_nil]
    | cons i is ih =>
      intro seen best h
      have hrest := ih (seen ++ [i]) _ (h.consider i)
      rwa [List.append_assoc] at hrest
  exact hloop slots [] none ⟨fun _ _ hj => absurd hj List.not_mem_nil, nofun⟩

/-- A hunter that finds no prey has none. -/
theorem findNearestPrey_eq_none {s : ServerState ℝ} {hunter : Slot}
    (halive : (s.players hunter).isAlive = true) (h : findNearestPrey s hunter = none)
    (j : Slot) : ¬IsPrey s hunter j := by
  simp only [findNearestPrey, halive, Bool.not_true, Bool.false_eq_true, if_false,
    Option.map_eq_none_iff] at h
  exact (scanned_slots s hunter).none_of h j (mem_slots j)

/-- The prey that a hunter finds is nearest. -/
theorem findNearestPrey_nearest {s : ServerState ℝ} {hunter q j : Slot}
    (h : findNearestPrey s hunter = some q) (hj : IsPrey s hunter j) :
    gap (s.players hunter) (s.players q) ≤ gap (s.players hunter) (s.players j) := by
  unfold findNearestPrey at h
  split at h
  · cases h
  · obtain ⟨⟨q', d⟩, hscan, rfl⟩ := Option.map_eq_some_iff.mp h
    obtain ⟨hd, hnearest⟩ := (scanned_slots s hunter).some_of q' d hscan
    exact hd ▸ hnearest j (mem_slots j) hj

/-- How far a hunter moves towards a prey at the distance `d`. -/
noncomputable def stride (dt d : ℝ) : ℝ := if d < 8 / 10 * dt then d else 8 / 10 * dt

/-- A step is no longer than the distance and than the speed allows. -/
theorem stride_le (dt d : ℝ) : stride dt d ≤ d ∧ stride dt d ≤ 8 / 10 * dt := by
  unfold stride
  split
  · rename_i h
    exact ⟨le_rfl, h.le⟩
  · rename_i h
    exact ⟨not_lt.mp h, le_rfl⟩

/-- A step is not negative. -/
theorem stride_nonneg {dt d : ℝ} (hdt : 0 ≤ dt) (hd : 0 ≤ d) : 0 ≤ stride dt d := by
  unfold stride
  split
  · exact hd
  · positivity

/-- The clamped step of the code. -/
theorem stride_eq (dt d : ℝ) : stride dt d =
    if CFloat.lt d (CFloat.mul CHASE_SPEED dt) then d else CFloat.mul CHASE_SPEED dt := by
  simp only [CFloat.lt, CFloat.mul, chase_speed_eq, decide_eq_true_eq]
  rfl

/-- The hunter after its move towards a prey. -/
noncomputable def Player.towards (p q : Player ℝ) (dt : ℝ) : Player ℝ :=
  { p with
    x := p.x + (q.x - p.x) / gap p q * stride dt (gap p q)
    y := p.y + (q.y - p.y) / gap p q * stride dt (gap p q) }

/-- The move of the code. -/
theorem approach_eq (s : ServerState ℝ) (i q : Slot) (dt : ℝ) :
    approach s i (CFloat.sub (s.players q).x (s.players i).x)
        (CFloat.sub (s.players q).y (s.players i).y)
        (distance (CFloat.sub (s.players q).x (s.players i).x)
          (CFloat.sub (s.players q).y (s.players i).y)) dt =
      s.setPlayer i ((s.players i).towards (s.players q) dt) := by
  unfold approach Player.towards
  simp only [distance_eq, stride_eq]
  rfl

/-- A move towards a prey: its length, what is left, and that it stays between the two. -/
theorem towards_gap {p q : Player ℝ} {dt : ℝ} (hdt : 0 ≤ dt) (hfar : 0 < gap p q) :
    gap p (p.towards q dt) = stride dt (gap p q) ∧
      gap (p.towards q dt) q = gap p q - stride dt (gap p q) ∧
      ∃ c, 0 ≤ c ∧ c ≤ 1 ∧ (p.towards q dt).x = p.x + c * (q.x - p.x) ∧
        (p.towards q dt).y = p.y + c * (q.y - p.y) := by
  have hnonneg := stride_nonneg hdt (gap_nonneg p q)
  have hle := (stride_le dt (gap p q)).1
  refine ⟨?_, ?_, stride dt (gap p q) / gap p q, div_nonneg hnonneg hfar.le,
    (div_le_one hfar).mpr hle, ?_, ?_⟩
  · have hmoved := length_covered hfar hnonneg
    simpa only [gap, Player.towards, add_sub_cancel_left] using hmoved
  · have hleft := length_left hfar hle
    simpa only [gap, Player.towards, ← sub_sub] using hleft
  · simp only [Player.towards, covered_eq]
  · simp only [Player.towards, covered_eq]

/-- The table after a move. -/
noncomputable def moved (s : ServerState ℝ) (i q : Slot) (dt : ℝ) : ServerState ℝ :=
  s.setPlayer i ((s.players i).towards (s.players q) dt)

/-- A move touches nobody else. -/
theorem moved_of_ne (s : ServerState ℝ) {i j : Slot} (q : Slot) (dt : ℝ) (h : j ≠ i) :
    (moved s i q dt).players j = s.players j := ServerState.setPlayer_of_ne _ _ h

/-- Where the hunter stands after its move. -/
theorem moved_self (s : ServerState ℝ) (i q : Slot) (dt : ℝ) :
    (moved s i q dt).players i = (s.players i).towards (s.players q) dt :=
  ServerState.setPlayer_self ..

/-- The turn of one hunter: it has no prey, it captures at once, or it moves, after which
it may capture. -/
theorem hunt_cases (dt : ℝ) (s : ServerState ℝ) (i : Slot) :
    (hunt dt s i = s ∧ ∀ j, (s.players i).isAlive = true → ¬IsPrey s i j) ∨
    ∃ q, findNearestPrey s i = some q ∧
      ((gap (s.players i) (s.players q) ≤ 1 / 2 ∧ hunt dt s i = capture s q) ∨
        (1 / 2 < gap (s.players i) (s.players q) ∧
          ((gap ((s.players i).towards (s.players q) dt) (s.players q) ≤ 1 / 2 ∧
              hunt dt s i = capture (moved s i q dt) q) ∨
            (1 / 2 < gap ((s.players i).towards (s.players q) dt) (s.players q) ∧
              hunt dt s i = moved s i q dt)))) := by
  unfold hunt
  split
  · rename_i hdead
    refine .inl ⟨rfl, fun j halive => ?_⟩
    rw [halive] at hdead
    cases hdead
  rename_i halive
  cases hfind : findNearestPrey s i with
  | none =>
    exact .inl ⟨rfl, fun j _ => findNearestPrey_eq_none (by simpa using halive) hfind j⟩
  | some q =>
    refine .inr ⟨q, rfl, ?_⟩
    have hne : q ≠ i := (IsPrey.ne (findNearestPrey_some hfind).2)
    simp only [approach_eq]
    rw [distance_eq]
    split
    · rename_i hnear
      exact .inl ⟨by simpa [CFloat.le, capture_radius_eq] using hnear, rfl⟩
    · rename_i hfar
      refine .inr ⟨by simpa [CFloat.le, capture_radius_eq] using hfar, ?_⟩
      have hself := moved_self s i q dt
      have hprey := moved_of_ne s q dt hne
      unfold moved at hself hprey
      rw [hself, hprey, distance_eq]
      split
      · rename_i hnear
        exact .inl ⟨by simpa [CFloat.le, capture_radius_eq] using hnear, rfl⟩
      · rename_i hfar
        exact .inr ⟨by simpa [CFloat.le, capture_radius_eq] using hfar, rfl⟩

/-- A capture takes the victim out and touches nobody else. -/
theorem capture_self (s : ServerState ℝ) (q : Slot) : ((capture s q).players q).alive = false := by
  simp [capture]

/-- A capture touches nobody else. -/
theorem capture_of_ne (s : ServerState ℝ) {q j : Slot} (h : j ≠ q) :
    (capture s q).players j = s.players j := ServerState.setPlayer_of_ne _ _ h

/-- A player that loses its life in a turn is the nearest prey of the hunter, which has it
in its reach before or after its move, and survives the turn. -/
theorem hunt_kills {dt : ℝ} {s : ServerState ℝ} {i v : Slot} (hv : (s.players v).alive = true)
    (hdead : ((hunt dt s i).players v).alive = false) :
    findNearestPrey s i = some v ∧ ((hunt dt s i).players i).isAlive = true ∧
      (gap (s.players i) (s.players v) ≤ 1 / 2 ∨
        gap ((hunt dt s i).players i) (s.players v) ≤ 1 / 2) := by
  rcases hunt_cases dt s i with ⟨hsame, _⟩ | ⟨q, hfind, hturn⟩
  · rw [hsame, hv] at hdead
    cases hdead
  obtain ⟨halive, hprey⟩ := findNearestPrey_some hfind
  have hne : i ≠ q := (IsPrey.ne hprey).symm
  have hmoved : ((moved s i q dt).players v).alive = true := by
    by_cases hvi : v = i
    · rw [hvi, moved_self]
      exact hvi ▸ hv
    · rwa [moved_of_ne s q dt hvi]
  rcases hturn with ⟨hnear, hsame⟩ | ⟨_, ⟨hnear, hsame⟩ | ⟨_, hsame⟩⟩
  · rw [hsame] at hdead ⊢
    have hvq : v = q := by
      by_contra hvq
      rw [capture_of_ne s hvq, hv] at hdead
      cases hdead
    rw [hvq, capture_of_ne s hne]
    exact ⟨hfind, halive, .inl hnear⟩
  · rw [hsame] at hdead ⊢
    have hvq : v = q := by
      by_contra hvq
      rw [capture_of_ne _ hvq, hmoved] at hdead
      cases hdead
    rw [hvq, capture_of_ne _ hne, moved_self]
    exact ⟨hfind, halive, .inr hnear⟩
  · rw [hsame, hmoved] at hdead
    cases hdead

/-- The table when the turn of a hunter begins. -/
noncomputable def beforeTurn (s : ServerState ℝ) (dt : ℝ) (i : Slot) : ServerState ℝ :=
  (slots.takeWhile (· ≠ i)).foldl (hunt (max dt 0)) s

/-- The table when it ends. -/
noncomputable def afterTurn (s : ServerState ℝ) (dt : ℝ) (i : Slot) : ServerState ℝ :=
  hunt (max dt 0) (beforeTurn s dt i) i

/-- The turns of a tick. -/
theorem simulateChaseTick_eq (s : ServerState ℝ) (dt : ℝ) :
    (simulateChaseTick s dt).1 = slots.foldl (hunt (max dt 0)) s := by
  have hclamp : (if CFloat.lt dt (CFloat.lit 0) then CFloat.lit 0 else dt) = max dt 0 := by
    simp only [CFloat.lt, CFloat.lit, Rat.cast_zero, decide_eq_true_eq]
    split
    · rename_i hneg
      exact (max_eq_right hneg.le).symm
    · rename_i hpos
      exact (max_eq_left (not_lt.mp hpos)).symm
  simp only [simulateChaseTick, hclamp]

/-- The slots before a slot, in any cut of the loop at it. -/
theorem takeWhile_slots {pre post : List Slot} {i : Slot} (h : slots = pre ++ i :: post) :
    slots.takeWhile (· ≠ i) = pre := by
  have hnodup := slots_nodup
  rw [h, List.nodup_append] at hnodup
  have hpre : ∀ j ∈ pre, decide (j ≠ i) = true := fun j hj =>
    decide_eq_true (hnodup.2.2 j hj i List.mem_cons_self)
  rw [h, List.takeWhile_append_of_pos hpre]
  simp

/-- The hunter takes the life of the victim in its turn. -/
def KilledBy (s : ServerState ℝ) (dt : ℝ) (hunter victim : Slot) : Prop :=
  ((beforeTurn s dt hunter).players victim).alive = true ∧
    ((afterTurn s dt hunter).players victim).alive = false

/-- A capture as it should be: the hunter is alive when it acts and right after, eats the
type of the victim, and has it as its nearest prey within the contact distance before or
after its own move. -/
structure Captures (s : ServerState ℝ) (dt : ℝ) (hunter victim : Slot) : Prop where
  /-- The hunter may act. -/
  acts : ((beforeTurn s dt hunter).players hunter).isAlive = true
  /-- It survives its turn. -/
  survives : ((afterTurn s dt hunter).players hunter).isAlive = true
  /-- The victim is its prey. -/
  prey : IsPrey (beforeTurn s dt hunter) hunter victim
  /-- No prey is nearer. -/
  nearest : ∀ j, IsPrey (beforeTurn s dt hunter) hunter j →
    gap ((beforeTurn s dt hunter).players hunter) ((beforeTurn s dt hunter).players victim) ≤
      gap ((beforeTurn s dt hunter).players hunter) ((beforeTurn s dt hunter).players j)
  /-- It is in reach before or after the move. -/
  reached :
    gap ((beforeTurn s dt hunter).players hunter) ((beforeTurn s dt hunter).players victim) ≤
        CAPTURE_RADIUS ∨
      gap ((afterTurn s dt hunter).players hunter) ((beforeTurn s dt hunter).players victim) ≤
        CAPTURE_RADIUS

/-- A turn leaves somebody alive. -/
theorem hunt_survivor (dt : ℝ) {s : ServerState ℝ} (i : Slot)
    (h : ∃ j, (s.players j).isAlive = true) : ∃ j, ((hunt dt s i).players j).isAlive = true := by
  obtain ⟨j, hj⟩ := h
  cases hafter : ((hunt dt s i).players j).alive with
  | true =>
    obtain ⟨alive, x, y, hp⟩ := (hunt_chased dt s i).player j
    rw [hp] at hafter
    have hadmitted := Player.isAdmitted_of_isAlive hj
    refine ⟨j, ?_⟩
    rw [hp]
    exact Player.isAlive_iff.mpr ⟨hadmitted, hafter⟩
  | false => exact ⟨i, (hunt_kills (Player.isAlive_iff.mp hj).2 hafter).2.1⟩

/-- What one tick does, on every state and for every time: nobody comes back to life;
nothing but lives and positions changes; every life that ends is taken by one hunter in
its turn, with a proper capture; no hunter takes two; and somebody is left alive if
anybody was. -/
theorem chase_tick_captures (s : ServerState ℝ) (dt : ℝ) :
    (∀ i, (s.players i).alive = false → ((simulateChaseTick s dt).1.players i).alive = false) ∧
    ((simulateChaseTick s dt).1 = { s with players := (simulateChaseTick s dt).1.players } ∧
      ∀ i, ∃ alive x y, (simulateChaseTick s dt).1.players i =
        { s.players i with alive := alive, x := x, y := y }) ∧
    (∀ v, (s.players v).alive = true → ((simulateChaseTick s dt).1.players v).alive = false →
      ∃ hunter, KilledBy s dt hunter v) ∧
    (∀ hunter v, KilledBy s dt hunter v → Captures s dt hunter v) ∧
    (∀ hunter v v', KilledBy s dt hunter v → KilledBy s dt hunter v' → v = v') ∧
    ((∃ i, (s.players i).isAlive = true) →
      ∃ i, ((simulateChaseTick s dt).1.players i).isAlive = true) := by
  have hchased := simulateChaseTick_chased s dt
  refine ⟨fun i hi => ?_, ⟨hchased.table, hchased.player⟩, fun v hv hdead => ?_,
    fun hunter v hkill => ?_, fun hunter v v' hkill hkill' => ?_, fun hsome => ?_⟩
  · by_contra halive
    rw [hchased.alive_of i (by simpa using halive)] at hi
    cases hi
  · rw [simulateChaseTick_eq] at hdead
    obtain ⟨pre, hunter, post, hslots, hbefore, hafter⟩ :=
      exists_turn (fun t : ServerState ℝ => (t.players v).alive = true) hv
        (by rw [hdead]; exact Bool.false_ne_true)
    refine ⟨hunter, ?_⟩
    simp only [KilledBy, afterTurn, beforeTurn, takeWhile_slots hslots]
    exact ⟨hbefore, by simpa using hafter⟩
  · obtain ⟨hfind, hsurvives, hreach⟩ := hunt_kills hkill.1 hkill.2
    obtain ⟨hacts, hprey⟩ := findNearestPrey_some hfind
    refine ⟨hacts, hsurvives, hprey, fun j hj => findNearestPrey_nearest hfind hj, ?_⟩
    rw [capture_radius_eq]
    exact hreach
  · have hfind := (hunt_kills hkill.1 hkill.2).1
    have hfind' := (hunt_kills hkill'.1 hkill'.2).1
    exact Option.some.inj (hfind.symm.trans hfind')
  · rw [simulateChaseTick_eq]
    have hloop : ∀ (is : List Slot) (t : ServerState ℝ), (∃ i, (t.players i).isAlive = true) →
        ∃ i, ((is.foldl (hunt (max dt 0)) t).players i).isAlive = true := by
      intro is
      induction is with
      | nil => exact fun t ht => ht
      | cons i is ih => exact fun t ht => ih _ (hunt_survivor _ i ht)
    exact hloop slots s hsome

/-- Every player alive stands on the board. -/
def OnBoard (s : ServerState ℝ) : Prop :=
  ∀ i, (s.players i).isAlive = true →
    (0 ≤ (s.players i).x ∧ (s.players i).x < GRID_W) ∧
      (0 ≤ (s.players i).y ∧ (s.players i).y < GRID_H)

/-- A capture leaves the others on the board. -/
theorem OnBoard.capture {s : ServerState ℝ} (h : OnBoard s) (q : Slot) : OnBoard (capture s q) := by
  intro j hj
  by_cases hjq : j = q
  · have hdead := capture_self s q
    rw [hjq] at hj
    rw [(Player.isAlive_iff.mp hj).2] at hdead
    cases hdead
  · rw [capture_of_ne s hjq] at hj ⊢
    exact h j hj

/-- A move goes to a point between the hunter and its prey. -/
theorem OnBoard.moved {s : ServerState ℝ} (h : OnBoard s) {i q : Slot} {dt : ℝ} (hdt : 0 ≤ dt)
    (hi : (s.players i).isAlive = true) (hq : (s.players q).isAlive = true)
    (hfar : 0 < gap (s.players i) (s.players q)) : OnBoard (moved s i q dt) := by
  intro j hj
  by_cases hji : j = i
  · subst hji
    obtain ⟨_, _, c, hc, hc', hx, hy⟩ := towards_gap hdt hfar
    rw [moved_self, hx, hy]
    exact ⟨between_mem hc hc' (h j hi).1 (h q hq).1, between_mem hc hc' (h j hi).2 (h q hq).2⟩
  · rw [moved_of_ne s q dt hji] at hj ⊢
    exact h j hj

/-- A distance above the capture radius is positive. -/
theorem half_lt_pos {d : ℝ} (h : 1 / 2 < d) : 0 < d := by linarith

/-- The turn of a hunter leaves everybody on the board. -/
theorem OnBoard.hunt {dt : ℝ} (hdt : 0 ≤ dt) {s : ServerState ℝ} (h : OnBoard s) (i : Slot) :
    OnBoard (hunt dt s i) := by
  rcases hunt_cases dt s i with ⟨hsame, _⟩ | ⟨q, hfind, hturn⟩
  · rwa [hsame]
  obtain ⟨halive, hprey⟩ := findNearestPrey_some hfind
  rcases hturn with ⟨_, hsame⟩ | ⟨hfar, ⟨_, hsame⟩ | ⟨_, hsame⟩⟩
  · rw [hsame]
    exact h.capture q
  · rw [hsame]
    exact (h.moved hdt halive hprey.1 (half_lt_pos hfar)).capture q
  · rw [hsame]
    exact h.moved hdt halive hprey.1 (half_lt_pos hfar)

/-- The hunter of a turn, measured against its prey: what is left of the distance, and a
position between the two. -/
theorem hunt_moves {dt : ℝ} (hdt : 0 ≤ dt) {s : ServerState ℝ} {i q : Slot}
    (hfind : findNearestPrey s i = some q) :
    gap (s.players i) ((hunt dt s i).players i) ≤ 8 / 10 * dt ∧
      gap ((hunt dt s i).players i) (s.players q) =
        gap (s.players i) (s.players q) - gap (s.players i) ((hunt dt s i).players i) ∧
      ∃ c, 0 ≤ c ∧ c ≤ 1 ∧
        ((hunt dt s i).players i).x =
          (s.players i).x + c * ((s.players q).x - (s.players i).x) ∧
        ((hunt dt s i).players i).y =
          (s.players i).y + c * ((s.players q).y - (s.players i).y) := by
  have hne : i ≠ q := (IsPrey.ne (findNearestPrey_some hfind).2).symm
  have hgap : gap (s.players i) (s.players i) = 0 := by simp [gap, length]
  have hspeed : (0 : ℝ) ≤ 8 / 10 * dt := by positivity
  have hmove : 1 / 2 < gap (s.players i) (s.players q) →
      gap (s.players i) ((s.players i).towards (s.players q) dt) ≤ 8 / 10 * dt ∧
        gap ((s.players i).towards (s.players q) dt) (s.players q) =
          gap (s.players i) (s.players q) -
            gap (s.players i) ((s.players i).towards (s.players q) dt) ∧
        ∃ c, 0 ≤ c ∧ c ≤ 1 ∧
          ((s.players i).towards (s.players q) dt).x =
            (s.players i).x + c * ((s.players q).x - (s.players i).x) ∧
          ((s.players i).towards (s.players q) dt).y =
            (s.players i).y + c * ((s.players q).y - (s.players i).y) := by
    intro hfar
    obtain ⟨hlength, hleft, hbetween⟩ := towards_gap hdt (half_lt_pos hfar)
    rw [hleft, hlength]
    exact ⟨(stride_le dt _).2, rfl, hbetween⟩
  rcases hunt_cases dt s i with ⟨_, hnone⟩ | ⟨q', hfind', hturn⟩
  · obtain ⟨halive, hprey⟩ := findNearestPrey_some hfind
    exact absurd hprey (hnone q halive)
  obtain rfl : q = q' := Option.some.inj (hfind.symm.trans hfind')
  rcases hturn with ⟨_, hsame⟩ | ⟨hfar, ⟨_, hsame⟩ | ⟨_, hsame⟩⟩
  · rw [hsame, capture_of_ne s hne, hgap]
    exact ⟨hspeed, by ring, 0, le_rfl, zero_le_one, by ring, by ring⟩
  · rw [hsame, capture_of_ne _ hne, moved_self]
    exact hmove hfar
  · rw [hsame, moved_self]
    exact hmove hfar

/-- In the turn of another player, whoever stays alive stays where it is. -/
theorem hunt_frame {dt : ℝ} {s : ServerState ℝ} {i j : Slot} (hji : j ≠ i)
    (halive : ((hunt dt s i).players j).alive = true) :
    (hunt dt s i).players j = s.players j := by
  have hcapture : ∀ (t : ServerState ℝ) q, ((capture t q).players j).alive = true →
      (capture t q).players j = t.players j := by
    intro t q ht
    refine capture_of_ne t ?_
    rintro rfl
    rw [capture_self] at ht
    cases ht
  rcases hunt_cases dt s i with ⟨hsame, _⟩ | ⟨q, _, hturn⟩
  · rw [hsame]
  rcases hturn with ⟨_, hsame⟩ | ⟨_, ⟨_, hsame⟩ | ⟨_, hsame⟩⟩
  · rw [hsame] at halive ⊢
    exact hcapture s q halive
  · rw [hsame] at halive ⊢
    exact (hcapture _ q halive).trans (moved_of_ne s q dt hji)
  · rw [hsame]
    exact moved_of_ne s q dt hji

/-- The turns of some hunters. -/
theorem foldl_hunt_chased (dt : ℝ) (is : List Slot) (s : ServerState ℝ) :
    Chased s (is.foldl (hunt dt) s) := by
  induction is generalizing s with
  | nil => exact .refl s
  | cons i is ih => exact (hunt_chased dt s i).trans (ih _)

/-- In the turns of other players, whoever stays alive stays where it is. -/
theorem foldl_hunt_frame {dt : ℝ} {is : List Slot} {s : ServerState ℝ} {j : Slot} (hj : j ∉ is)
    (halive : ((is.foldl (hunt dt) s).players j).alive = true) :
    (is.foldl (hunt dt) s).players j = s.players j := by
  induction is generalizing s with
  | nil => rfl
  | cons i is ih =>
    obtain ⟨hji, hrest⟩ : j ≠ i ∧ j ∉ is := by simpa only [List.mem_cons, not_or] using hj
    rw [List.foldl_cons] at halive ⊢
    have hfirst := (foldl_hunt_chased dt is _).alive_of j halive
    rw [ih hrest halive, hunt_frame hji hfirst]

/-- The loop, cut at the turn of one slot. -/
theorem slots_eq (i : Slot) : ∃ post, slots = slots.takeWhile (· ≠ i) ++ i :: post ∧
    i ∉ slots.takeWhile (· ≠ i) ∧ i ∉ post := by
  obtain ⟨pre, post, h⟩ := List.append_of_mem (mem_slots i)
  have hnodup := slots_nodup
  rw [h, List.nodup_append, List.nodup_cons] at hnodup
  refine ⟨post, by rw [takeWhile_slots h, ← h], ?_, hnodup.2.1.1⟩
  rw [takeWhile_slots h]
  exact fun hi => hnodup.2.2 i hi i List.mem_cons_self rfl

/-- The turns of a tick after the turn of one slot. -/
theorem tick_rest (s : ServerState ℝ) (dt : ℝ) (i : Slot) :
    ∃ post : List Slot,
      (simulateChaseTick s dt).1 = post.foldl (hunt (max dt 0)) (afterTurn s dt i) ∧
      i ∉ slots.takeWhile (· ≠ i) ∧ i ∉ post := by
  obtain ⟨post, hslots, hpre, hpost⟩ := slots_eq i
  refine ⟨post, ?_, hpre, hpost⟩
  rw [simulateChaseTick_eq, hslots, List.foldl_append, List.foldl_cons]
  rfl

/-- A survivor of a tick was at its old place before its turn, and is at its new place
right after. -/
theorem survivor_turn {s : ServerState ℝ} {dt : ℝ} {i : Slot}
    (halive : ((simulateChaseTick s dt).1.players i).alive = true) :
    (beforeTurn s dt i).players i = s.players i ∧
      (afterTurn s dt i).players i = (simulateChaseTick s dt).1.players i := by
  obtain ⟨post, htick, hpre, hpost⟩ := tick_rest s dt i
  rw [htick] at halive ⊢
  have hlater := (foldl_hunt_chased (max dt 0) post (afterTurn s dt i)).alive_of i halive
  have hearlier := (hunt_chased (max dt 0) (beforeTurn s dt i) i).alive_of i hlater
  exact ⟨foldl_hunt_frame hpre hearlier, (foldl_hunt_frame hpost halive).symm⟩

/-- A player alive, at a place, with a type. -/
noncomputable def standing (choice : Char) (x y : ℝ) : Player ℝ :=
  { (Player.zero : Player ℝ) with
    connected := true, registered := true, admitted := true, alive := true
    choice := choice, x := x, y := y }

/-- Rock and scissors, three squares apart. -/
noncomputable def rockAndScissors : ServerState ℝ :=
  { (initServerState : ServerState ℝ) with
    players := fun i =>
      if i = 0 then standing 'R' 2 2 else if i = 1 then standing 'S' 5 2 else Player.zero }

/-- The first player. -/
theorem rockAndScissors_zero : rockAndScissors.players 0 = standing 'R' 2 2 := rfl

/-- The second player. -/
theorem rockAndScissors_one : rockAndScissors.players 1 = standing 'S' 5 2 := rfl

/-- Nobody else is alive. -/
theorem rockAndScissors_alive {i : Slot} (h : (rockAndScissors.players i).isAlive = true) :
    i = 0 ∨ i = 1 := by
  by_contra hnone
  obtain ⟨h0, h1⟩ := not_or.mp hnone
  simp [rockAndScissors, h0, h1, Player.zero, Player.isAlive] at h

/-- The two are on the board. -/
theorem rockAndScissors_onBoard : OnBoard rockAndScissors := by
  intro i hi
  rcases rockAndScissors_alive hi with rfl | rfl
  · rw [rockAndScissors_zero]
    norm_num [standing]
  · rw [rockAndScissors_one]
    norm_num [standing]

/-- Two types are alive, and the first one eats the second. -/
structure TwoTypes (a b : Char) (s : ServerState ℝ) : Prop where
  /-- The predators. -/
  eats : canEat a b = true
  /-- There is no third type. -/
  types : ∀ i, (s.players i).isAlive = true → (s.players i).choice = a ∨ (s.players i).choice = b

/-- Eating goes one way. -/
theorem not_canEat_back {a b : Char} (h : canEat a b = true) : canEat b a = false := by
  unfold canEat at h
  split at h
  · rename_i ha
    have hb : b = 'S' := by simpa using h
    rw [ha, hb]
    rfl
  · split at h
    · rename_i ha
      have hb : b = 'P' := by simpa using h
      rw [ha, hb]
      rfl
    · split at h
      · rename_i ha
        have hb : b = 'R' := by simpa using h
        rw [ha, hb]
        rfl
      · cases h

/-- Predators eat the other type only. -/
theorem TwoTypes.isPrey {a b : Char} {s : ServerState ℝ} (h : TwoTypes a b s) {i j : Slot}
    (hi : (s.players i).isAlive = true) (hprey : IsPrey s i j) :
    (s.players i).choice = a ∧ (s.players j).choice = b := by
  obtain ⟨hj, heat⟩ := hprey
  rcases h.types i hi with hia | hib <;> rcases h.types j hj with hja | hjb
  · rw [hia, hja, not_canEat_self] at heat
    cases heat
  · exact ⟨hia, hjb⟩
  · rw [hib, hja, not_canEat_back h.eats] at heat
    cases heat
  · rw [hib, hjb, not_canEat_self] at heat
    cases heat

/-- A chase leaves no new type. -/
theorem TwoTypes.chased {a b : Char} {s t : ServerState ℝ} (h : TwoTypes a b s)
    (hchased : Chased s t) : TwoTypes a b t where
  eats := h.eats
  types i hi := by
    rw [hchased.choice_eq]
    exact h.types i (hchased.isAlive_of hi)

/-- Predators live on. -/
theorem TwoTypes.predator {a b : Char} {s : ServerState ℝ} (h : TwoTypes a b s) {dt : ℝ}
    (i : Slot) {j : Slot} (hj : (s.players j).isAlive = true) (hja : (s.players j).choice = a) :
    ((hunt dt s i).players j).isAlive = true := by
  cases hafter : ((hunt dt s i).players j).alive with
  | true =>
    obtain ⟨alive, x, y, hp⟩ := (hunt_chased dt s i).player j
    rw [hp] at hafter
    have hadmitted := Player.isAdmitted_of_isAlive hj
    rw [hp]
    exact Player.isAlive_iff.mpr ⟨hadmitted, hafter⟩
  | false =>
    obtain ⟨hacts, hprey⟩ :=
      findNearestPrey_some (hunt_kills (Player.isAlive_iff.mp hj).2 hafter).1
    have hjb := (h.isPrey hacts hprey).2
    have heats := h.eats
    rw [← hja, ← hjb, not_canEat_self] at heats
    cases heats

/-- Prey that stays alive stays where it is. -/
theorem TwoTypes.prey_still {a b : Char} {s : ServerState ℝ} (h : TwoTypes a b s) {dt : ℝ}
    (i : Slot) {j : Slot} (hj : (s.players j).choice = b)
    (halive : ((hunt dt s i).players j).alive = true) :
    (hunt dt s i).players j = s.players j := by
  by_cases hji : j = i
  · subst hji
    rcases hunt_cases dt s j with ⟨hsame, _⟩ | ⟨q, hfind, _⟩
    · rw [hsame]
    · obtain ⟨hacts, hprey⟩ := findNearestPrey_some hfind
      have hja := (h.isPrey hacts hprey).1
      have heats := h.eats
      rw [← hja, ← hj, not_canEat_self] at heats
      cases heats
  · exact hunt_frame hji halive

/-- A predator survives all turns. -/
theorem TwoTypes.foldl_predator {a b : Char} {dt : ℝ} {j : Slot} (is : List Slot)
    {s : ServerState ℝ} (h : TwoTypes a b s) (hj : (s.players j).isAlive = true)
    (hja : (s.players j).choice = a) : ((is.foldl (hunt dt) s).players j).isAlive = true := by
  induction is generalizing s with
  | nil => exact hj
  | cons i is ih =>
    have hturn := hunt_chased dt s i
    exact ih (h.chased hturn) (h.predator i hj hja) ((hturn.choice_eq j).trans hja)

/-- A prey that survives the turns has not moved. -/
theorem TwoTypes.foldl_prey_still {a b : Char} {dt : ℝ} {j : Slot} (is : List Slot)
    {s : ServerState ℝ} (h : TwoTypes a b s) (hj : (s.players j).choice = b)
    (halive : ((is.foldl (hunt dt) s).players j).alive = true) :
    (is.foldl (hunt dt) s).players j = s.players j := by
  induction is generalizing s with
  | nil => rfl
  | cons i is ih =>
    have hturn := hunt_chased dt s i
    rw [List.foldl_cons] at halive ⊢
    rw [ih (h.chased hturn) ((hturn.choice_eq j).trans hj) halive]
    exact h.prey_still i hj ((foldl_hunt_chased dt is _).alive_of j halive)

/-- The players alive of one type. -/
def preyOf (b : Char) (s : ServerState ℝ) : Finset Slot :=
  Finset.univ.filter (fun i => (s.players i).isAlive = true ∧ (s.players i).choice = b)

/-- The living players of a type. -/
theorem mem_preyOf {b : Char} {s : ServerState ℝ} {i : Slot} :
    i ∈ preyOf b s ↔ (s.players i).isAlive = true ∧ (s.players i).choice = b := by
  simp [preyOf]

/-- The distance of a hunter to its nearest prey. -/
noncomputable def preyGap (s : ServerState ℝ) (hunter : Slot) : ℝ :=
  match findNearestPrey s hunter with
  | none => 0
  | some q => gap (s.players hunter) (s.players q)

/-- The distance to the prey is not negative. -/
theorem preyGap_nonneg (s : ServerState ℝ) (hunter : Slot) : 0 ≤ preyGap s hunter := by
  unfold preyGap
  split
  · exact le_rfl
  · exact gap_nonneg _ _

/-- There is a nearest prey where there is a prey. -/
theorem exists_nearest {s : ServerState ℝ} {hunter j : Slot}
    (halive : (s.players hunter).isAlive = true) (hj : IsPrey s hunter j) :
    ∃ q, findNearestPrey s hunter = some q ∧
      preyGap s hunter = gap (s.players hunter) (s.players q) ∧
      preyGap s hunter ≤ gap (s.players hunter) (s.players j) := by
  cases hfind : findNearestPrey s hunter with
  | none => exact absurd hj (findNearestPrey_eq_none halive hfind j)
  | some q =>
    have hgap : preyGap s hunter = gap (s.players hunter) (s.players q) := by
      simp only [preyGap, hfind]
    exact ⟨q, rfl, hgap, hgap ▸ findNearestPrey_nearest hfind hj⟩

/-- No predator is eliminated in a tick. -/
theorem TwoTypes.predator_tick {a b : Char} {s : ServerState ℝ} (h : TwoTypes a b s) (dt : ℝ)
    {i : Slot} (hi : (s.players i).isAlive = true) (hia : (s.players i).choice = a) :
    ((simulateChaseTick s dt).1.players i).isAlive = true ∧
      ((simulateChaseTick s dt).1.players i).choice = a := by
  refine ⟨?_, ((simulateChaseTick_chased s dt).choice_eq i).trans hia⟩
  rw [simulateChaseTick_eq]
  exact h.foldl_predator slots hi hia

/-- A prey that lives through a tick stands still in it, whoever hunts. -/
theorem TwoTypes.prey_waits {a b : Char} {s : ServerState ℝ} (h : TwoTypes a b s) {dt : ℝ}
    (hdt : 0 < dt) (p : Slot) {j : Slot} (hjb : (s.players j).choice = b)
    (hjend : ((simulateChaseTick s dt).1.players j).alive = true) :
    (beforeTurn s dt p).players j = s.players j ∧
      (simulateChaseTick s dt).1.players j = s.players j ∧
      ((afterTurn s dt p).players j).alive = true := by
  have hloop := simulateChaseTick_eq s dt
  rw [max_eq_left hdt.le] at hloop
  obtain ⟨post, hrest, _, _⟩ := tick_rest s dt p
  have hafter : ((afterTurn s dt p).players j).alive = true := by
    rw [hrest] at hjend
    exact (foldl_hunt_chased _ post _).alive_of j hjend
  have hbefore : ((beforeTurn s dt p).players j).alive = true :=
    (hunt_chased _ (beforeTurn s dt p) p).alive_of j hafter
  refine ⟨h.foldl_prey_still _ hjb hbefore, ?_, hafter⟩
  rw [hloop] at hjend ⊢
  exact h.foldl_prey_still slots hjb hjend

/-- In its turn a hunter whose prey lives on moves towards it by the full step. -/
theorem hunter_moves {s : ServerState ℝ} {dt : ℝ} (hdt : 0 < dt) {p q : Slot}
    (hpalive : ((beforeTurn s dt p).players p).isAlive = true)
    (hfind : findNearestPrey (beforeTurn s dt p) p = some q)
    (hqalive : ((afterTurn s dt p).players q).alive = true) :
    gap ((afterTurn s dt p).players p) ((beforeTurn s dt p).players q) =
      gap ((beforeTurn s dt p).players p) ((beforeTurn s dt p).players q) - 8 / 10 * dt := by
  obtain ⟨_, hprey⟩ := findNearestPrey_some hfind
  rcases hunt_cases (max dt 0) (beforeTurn s dt p) p with ⟨_, hnone⟩ | ⟨q₂, hfind₂, hturn⟩
  · exact absurd hprey (hnone q hpalive)
  obtain rfl : q = q₂ := Option.some.inj (hfind.symm.trans hfind₂)
  rcases hturn with ⟨_, hsame⟩ | ⟨hfar, ⟨_, hsame⟩ | ⟨hleft, hsame⟩⟩
  · rw [afterTurn, hsame, capture_self] at hqalive
    cases hqalive
  · rw [afterTurn, hsame, capture_self] at hqalive
    cases hqalive
  -- No capture: the step was not clamped.
  obtain ⟨_, hrest, _⟩ := towards_gap (le_max_right dt 0) (half_lt_pos hfar)
  have hstride : stride (max dt 0) (gap ((beforeTurn s dt p).players p)
      ((beforeTurn s dt p).players q)) = 8 / 10 * dt := by
    rw [hrest] at hleft
    unfold stride at hleft ⊢
    rw [max_eq_left hdt.le] at hleft ⊢
    split
    · rename_i hclose
      rw [if_pos hclose] at hleft
      linarith
    · rfl
  rw [afterTurn, hsame, moved_self, hrest, hstride]

/-- One tick of a chase between two types: a prey is lost, or the hunter comes closer to
its nearest prey by the full step. -/
theorem TwoTypes.tick {a b : Char} {s : ServerState ℝ} (h : TwoTypes a b s) {dt : ℝ}
    (hdt : 0 < dt) {p : Slot} (hp : (s.players p).isAlive = true)
    (hpa : (s.players p).choice = a) (hsome : (preyOf b s).Nonempty) :
    (preyOf b (simulateChaseTick s dt).1).card < (preyOf b s).card ∨
      ((preyOf b (simulateChaseTick s dt).1).card ≤ (preyOf b s).card ∧
        preyGap (simulateChaseTick s dt).1 p ≤ preyGap s p - 8 / 10 * dt) := by
  have hchased := simulateChaseTick_chased s dt
  have hsubset : preyOf b (simulateChaseTick s dt).1 ⊆ preyOf b s := by
    intro i hi
    obtain ⟨halive, hchoice⟩ := mem_preyOf.mp hi
    exact mem_preyOf.mpr ⟨hchased.isAlive_of halive, hchased.choice_eq i ▸ hchoice⟩
  by_cases hkept : preyOf b s ⊆ preyOf b (simulateChaseTick s dt).1
  swap
  · exact .inl (Finset.card_lt_card ⟨hsubset, hkept⟩)
  refine .inr ⟨Finset.card_le_card hsubset, ?_⟩
  -- The hunter lives, and every prey lives and stands still.
  have hpend : ((simulateChaseTick s dt).1.players p).isAlive = true :=
    (h.predator_tick dt hp hpa).1
  have hstill := fun j (hj : j ∈ preyOf b s) =>
    h.prey_waits hdt p (mem_preyOf.mp hj).2 (Player.isAlive_iff.mp (mem_preyOf.mp (hkept hj)).1).2
  obtain ⟨hpbefore, hpafter⟩ := survivor_turn (Player.isAlive_iff.mp hpend).2
  have hearly : Chased s (beforeTurn s dt p) := foldl_hunt_chased _ _ s
  have hmid : TwoTypes a b (beforeTurn s dt p) := h.chased hearly
  have hpalive : ((beforeTurn s dt p).players p).isAlive = true := by
    rw [hpbefore]
    exact hp
  have hpreys : ∀ j ∈ preyOf b s, IsPrey s p j ∧ IsPrey (beforeTurn s dt p) p j := by
    intro j hj
    obtain ⟨halive, hjb⟩ := mem_preyOf.mp hj
    have hsame := (hstill j hj).1
    refine ⟨⟨halive, ?_⟩, ?_, ?_⟩
    · rw [hpa, hjb]
      exact h.eats
    · rwa [hsame]
    · rw [hpbefore, hsame, hpa, hjb]
      exact h.eats
  -- The prey that the hunter chases in its turn, and the one that is nearest before.
  obtain ⟨j, hj⟩ := hsome
  obtain ⟨q', hfind', hgap', _⟩ := exists_nearest hp (hpreys j hj).1
  obtain ⟨_, hprey'⟩ := findNearestPrey_some hfind'
  have hq' : q' ∈ preyOf b s := mem_preyOf.mpr ⟨hprey'.1, (h.isPrey hp hprey').2⟩
  obtain ⟨q, hfind, _, _⟩ := exists_nearest hpalive (hpreys j hj).2
  obtain ⟨_, hprey⟩ := findNearestPrey_some hfind
  have hq : q ∈ preyOf b s := by
    have hqb := (hmid.isPrey hpalive hprey).2
    rw [hearly.choice_eq] at hqb
    exact mem_preyOf.mpr ⟨hearly.isAlive_of hprey.1, hqb⟩
  have hnearest := findNearestPrey_nearest hfind (hpreys q' hq').2
  rw [(hstill q' hq').1, hpbefore, ← hgap'] at hnearest
  have hmoved := hunter_moves hdt hpalive hfind (hstill q hq).2.2
  have hqend : IsPrey (simulateChaseTick s dt).1 p q := by
    refine ⟨(mem_preyOf.mp (hkept hq)).1, ?_⟩
    rw [hchased.choice_eq, hchased.choice_eq]
    exact (hpreys q hq).1.2
  obtain ⟨_, _, _, hclosest⟩ := exists_nearest hpend hqend
  rw [(hstill q hq).2.1, ← (hstill q hq).1, ← hpafter, hmoved] at hclosest
  rw [(hstill q hq).1, hpbefore] at hclosest
  rw [(hstill q hq).1] at hnearest
  linarith

/-- The table after so many ticks of one length. -/
noncomputable def ticks (s : ServerState ℝ) (dt : ℝ) (n : ℕ) : ServerState ℝ :=
  (fun t => (simulateChaseTick t dt).1)^[n] s

/-- One more tick. -/
theorem ticks_succ (s : ServerState ℝ) (dt : ℝ) (n : ℕ) :
    ticks s dt (n + 1) = (simulateChaseTick (ticks s dt n) dt).1 :=
  Function.iterate_succ_apply' ..

/-- Two types stay two types. -/
theorem TwoTypes.ticks {a b : Char} {s : ServerState ℝ} (h : TwoTypes a b s) (dt : ℝ) (n : ℕ) :
    TwoTypes a b (ticks s dt n) := by
  induction n with
  | zero => exact h
  | succ n ih =>
    rw [ticks_succ]
    exact ih.chased (simulateChaseTick_chased _ dt)

/-- A tick reports that one type is left. -/
theorem simulateChaseTick_ended {s : ServerState ℝ} {dt : ℝ}
    (h : countChoiceTypesAlive (simulateChaseTick s dt).1 ≤ 1) :
    (simulateChaseTick s dt).2 = true := by
  simpa [simulateChaseTick] using h

/-- No predator is ever eliminated. -/
theorem TwoTypes.predator_lives {a b : Char} {s : ServerState ℝ} (h : TwoTypes a b s) (dt : ℝ)
    {i : Slot} (hi : (s.players i).isAlive = true) (hia : (s.players i).choice = a) (n : ℕ) :
    ((BattleRoyale.ticks s dt n).players i).isAlive = true ∧
      ((BattleRoyale.ticks s dt n).players i).choice = a := by
  induction n with
  | zero => exact ⟨hi, hia⟩
  | succ n ih =>
    rw [ticks_succ]
    exact (h.ticks dt n).predator_tick dt ih.1 ih.2

/-- Types that are alive have a player. -/
theorem typeAlive_iff {s : ServerState ℝ} {c : Char} :
    typeAlive s c = true ↔ ∃ i, (s.players i).isAlive = true ∧ (s.players i).choice = c := by
  simp [typeAlive, mem_slots]

/-- One type is left where everybody alive shares it. -/
theorem countChoiceTypesAlive_le_one {s : ServerState ℝ} {a : Char}
    (h : ∀ i, (s.players i).isAlive = true → (s.players i).choice = a) :
    countChoiceTypesAlive s ≤ 1 := by
  have hone : ∀ c, typeAlive s c = true → c = a := by
    intro c hc
    obtain ⟨i, hi, hchoice⟩ := typeAlive_iff.mp hc
    exact hchoice.symm.trans (h i hi)
  have hboth : ∀ c d, c ≠ d → ¬(typeAlive s c = true ∧ typeAlive s d = true) :=
    fun c d hne hcd => hne ((hone c hcd.1).trans (hone d hcd.2).symm)
  have hrs := hboth 'R' 'S' (by decide)
  have hrp := hboth 'R' 'P' (by decide)
  have hsp := hboth 'S' 'P' (by decide)
  unfold countChoiceTypesAlive
  cases hr : typeAlive s 'R' <;> cases hs : typeAlive s 'S' <;> cases hp : typeAlive s 'P' <;>
    simp_all

/-- Two types of the three, in the order in which one eats the other. -/
theorem exists_twoTypes {s : ServerState ℝ}
    (hchoices : ∀ i, (s.players i).isAlive = true → IsChoice (s.players i).choice)
    (htwo : countChoiceTypesAlive s = 2) :
    ∃ a b, TwoTypes a b s ∧ typeAlive s a = true ∧ typeAlive s b = true := by
  have hpair : ∀ a b c, canEat a b = true → typeAlive s a = true → typeAlive s b = true →
      typeAlive s c = false → (∀ x, IsChoice x → x = a ∨ x = b ∨ x = c) →
      ∃ a b, TwoTypes a b s ∧ typeAlive s a = true ∧ typeAlive s b = true := by
    intro a b c heats ha hb hc hthree
    refine ⟨a, b, ⟨heats, fun i hi => ?_⟩, ha, hb⟩
    rcases hthree _ (hchoices i hi) with hia | hib | hic
    · exact .inl hia
    · exact .inr hib
    · rw [typeAlive_iff.mpr ⟨i, hi, hic⟩] at hc
      cases hc
  unfold countChoiceTypesAlive at htwo
  cases hr : typeAlive s 'R' <;> cases hs : typeAlive s 'S' <;> cases hp : typeAlive s 'P' <;>
    simp only [hr, hs, hp, Bool.toNat_true, Bool.toNat_false] at htwo
  all_goals first
    | omega
    | skip
  · exact hpair 'S' 'P' 'R' rfl hs hp hr fun x hx => by
      rcases hx with rfl | rfl | rfl <;> simp
  · exact hpair 'P' 'R' 'S' rfl hp hr hs fun x hx => by
      rcases hx with rfl | rfl | rfl <;> simp
  · exact hpair 'R' 'S' 'P' rfl hr hs hp fun x hx => by
      rcases hx with rfl | rfl | rfl <;> simp

/-- A chase between two types ends: after finitely many ticks only the predators are
alive, the last of these ticks reports it, and no predator is ever eliminated. -/
theorem chase_ends (s : ServerState ℝ) (dt : ℝ)
    (hchoices : ∀ i, (s.players i).isAlive = true → IsChoice (s.players i).choice)
    (htwo : countChoiceTypesAlive s = 2) (hdt : 0 < dt) :
    ∃ a b, canEat a b = true ∧ typeAlive s a = true ∧ typeAlive s b = true ∧
      (∀ i, (s.players i).isAlive = true → (s.players i).choice = a →
        ∀ n, ((ticks s dt n).players i).isAlive = true) ∧
      ∃ n, (∃ i, ((ticks s dt (n + 1)).players i).isAlive = true) ∧
        (∀ i, ((ticks s dt (n + 1)).players i).isAlive = true →
          ((ticks s dt (n + 1)).players i).choice = a) ∧
        (simulateChaseTick (ticks s dt n) dt).2 = true := by
  obtain ⟨a, b, htypes, ha, hb⟩ := exists_twoTypes hchoices htwo
  refine ⟨a, b, htypes.eats, ha, hb,
    fun i hi hia n => (htypes.predator_lives dt hi hia n).1, ?_⟩
  obtain ⟨p, hp, hpa⟩ := typeAlive_iff.mp ha
  have hstep : (0 : ℝ) < 8 / 10 * dt := by positivity
  obtain ⟨n, hn⟩ : ∃ n, preyOf b (ticks s dt n) = ∅ := by
    refine exists_done (fun t => TwoTypes a b t ∧ (t.players p).isAlive = true ∧
      (t.players p).choice = a) (fun t => preyOf b t = ∅) (fun t => (preyOf b t).card)
      (fun t => preyGap t p) hstep ?_ (fun t => preyGap_nonneg t p) ?_ ⟨htypes, hp, hpa⟩
    · rintro t ⟨ht, halive, hchoice⟩
      exact ⟨ht.chased (simulateChaseTick_chased t dt), ht.predator_tick dt halive hchoice⟩
    · rintro t ⟨ht, halive, hchoice⟩ hsome
      exact ht.tick hdt halive hchoice (Finset.nonempty_iff_ne_empty.mpr hsome)
  -- Some prey was alive at first, so there was a last tick.
  cases n with
  | zero =>
    obtain ⟨j, hj⟩ := typeAlive_iff.mp hb
    have hnone : preyOf b s = ∅ := hn
    have hmem := mem_preyOf.mpr hj
    rw [hnone] at hmem
    exact absurd hmem (Finset.notMem_empty j)
  | succ n =>
    have honly : ∀ i, ((ticks s dt (n + 1)).players i).isAlive = true →
        ((ticks s dt (n + 1)).players i).choice = a := by
      intro i hi
      refine ((htypes.ticks dt (n + 1)).types i hi).resolve_right fun hib => ?_
      have hmem := mem_preyOf.mpr ⟨hi, hib⟩
      rw [hn] at hmem
      exact absurd hmem (Finset.notMem_empty i)
    refine ⟨n, ⟨p, (htypes.predator_lives dt hp hpa (n + 1)).1⟩, honly, ?_⟩
    rw [ticks_succ] at honly
    exact simulateChaseTick_ended (countChoiceTypesAlive_le_one honly)

/-- The chase of rock and scissors. -/
theorem chase_ends_rockAndScissors :
    ∃ n, (∃ i, ((ticks rockAndScissors 1 (n + 1)).players i).isAlive = true) ∧
      (simulateChaseTick (ticks rockAndScissors 1 n) 1).2 = true := by
  have hchoices : ∀ i, (rockAndScissors.players i).isAlive = true →
      IsChoice (rockAndScissors.players i).choice := by
    intro i hi
    rcases rockAndScissors_alive hi with rfl | rfl
    · exact .inl rfl
    · exact .inr (.inr rfl)
  have htwo : countChoiceTypesAlive rockAndScissors = 2 := by
    have hr : typeAlive rockAndScissors 'R' = true := typeAlive_iff.mpr ⟨0, rfl, rfl⟩
    have hs : typeAlive rockAndScissors 'S' = true := typeAlive_iff.mpr ⟨1, rfl, rfl⟩
    have hp : typeAlive rockAndScissors 'P' = false := by
      rw [Bool.eq_false_iff]
      intro h
      obtain ⟨i, hi, hchoice⟩ := typeAlive_iff.mp h
      rcases rockAndScissors_alive hi with rfl | rfl
      · exact absurd hchoice (by decide)
      · exact absurd hchoice (by decide)
    rw [countChoiceTypesAlive, hr, hs, hp]
    rfl
  obtain ⟨_, _, _, _, _, _, n, hsome, _, hflag⟩ :=
    chase_ends rockAndScissors 1 hchoices htwo one_pos
  exact ⟨n, hsome, hflag⟩

end BattleRoyale
