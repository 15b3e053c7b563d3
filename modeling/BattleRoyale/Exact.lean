import BattleRoyale.StepRefinement

/-!
# Exact coordinates

An instance of the coordinates in which a run can be computed: rational numbers, for
inputs on which `float` arithmetic is exact, with the texts that `printf` and `scanf`
give to them. The second part spells runs out: what a client says, and the server after
a list of steps.
-/

namespace BattleRoyale

open Recorded

/-- A coordinate without rounding. -/
structure Exact where
  /-- The number. -/
  value : ℚ
  deriving DecidableEq

namespace Exact

/-- The nearest natural number to the size of a rational number, ties to even. -/
def roundNat (q : ℚ) : ℕ :=
  let whole := q.num.natAbs / q.den
  let rest := q.num.natAbs % q.den
  if 2 * rest < q.den then whole
  else if q.den < 2 * rest then whole + 1
  else whole + whole % 2

/-- Decimal digits with leading zeros. -/
def padded (width n : ℕ) : List Char :=
  List.replicate (width - (Nat.toDigits 10 n).length) '0' ++ Nat.toDigits 10 n

/-- The conversion `%.{digits}f`. -/
def fixed (digits : ℕ) (x : Exact) : List Char :=
  let n := roundNat (x.value * 10 ^ digits)
  (if x.value < 0 then ['-'] else []) ++
    (Nat.toDigits 10 (n / 10 ^ digits) ++ '.' :: padded digits (n % 10 ^ digits))

/-- The conversion `%f` after the sign. -/
def scanUnsigned (text : List Char) : Option (ℚ × List Char) :=
  let whole := text.takeWhile Char.isDigit
  match text.dropWhile Char.isDigit with
  | '.' :: rest =>
    let fraction := rest.takeWhile Char.isDigit
    if whole.isEmpty && fraction.isEmpty then none
    else some (digitsValue (whole ++ fraction) / 10 ^ fraction.length, rest.dropWhile Char.isDigit)
  | rest => if whole.isEmpty then none else some (digitsValue whole, rest)

/-- The conversion `%f`. -/
def scan : List Char → Option (Exact × List Char)
  | '-' :: rest => (scanUnsigned rest).map fun (q, rest) => (⟨-q⟩, rest)
  | '+' :: rest => (scanUnsigned rest).map fun (q, rest) => (⟨q⟩, rest)
  | text => (scanUnsigned text).map fun (q, rest) => (⟨q⟩, rest)

instance : CFloat Exact where
  lit q := ⟨q⟩
  ofInt n := ⟨n⟩
  toInt x := x.value.num.tdiv x.value.den
  lt x y := decide (x.value < y.value)
  le x y := decide (x.value ≤ y.value)
  eq x y := decide (x.value = y.value)
  add x y := ⟨x.value + y.value⟩
  sub x y := ⟨x.value - y.value⟩
  mul x y := ⟨x.value * y.value⟩
  div x y := ⟨x.value / y.value⟩
  -- Six decimals of the root are enough for every comparison with the capture radius.
  sqrtf x := ⟨(Nat.sqrt (x.value * 10 ^ 12).floor.toNat : ℚ) / 10 ^ 6⟩
  fixed := fixed
  scan := scan

/-- Rounding a number below a natural number. -/
theorem roundNat_le {q : ℚ} {n : ℕ} (hlow : 0 ≤ q) (hhigh : q < n) : roundNat q ≤ n := by
  have hden : (0 : ℚ) < q.den := by exact_mod_cast q.den_pos
  have hnum : q.num.natAbs < n * q.den := by
    have hpos : 0 ≤ q.num := Rat.num_nonneg.mpr hlow
    have hlt : (q.num : ℚ) < n * q.den := by
      rw [← Rat.mul_den_eq_num q]
      exact mul_lt_mul_of_pos_right hhigh hden
    have hlt' : q.num < n * q.den := by exact_mod_cast hlt
    omega
  have hwhole : q.num.natAbs / q.den < n := (Nat.div_lt_iff_lt_mul q.den_pos).mpr hnum
  have hrest := Nat.mod_lt (q.num.natAbs / q.den) (show 0 < 2 by omega)
  unfold roundNat
  simp only
  split
  · omega
  · split <;> omega

/-- On the board `%.1f` writes at most four characters. -/
theorem fixed_length (x : Exact) (hlow : CFloat.lt x (CFloat.lit 0) = false)
    (hhigh : CFloat.le (CFloat.ofInt GRID_W) x = false) : (CFloat.fixed 1 x).length ≤ 4 := by
  have hx : 0 ≤ x.value ∧ x.value < 10 := by
    constructor
    · simpa [CFloat.lt, CFloat.lit] using hlow
    · simpa [CFloat.le, CFloat.ofInt] using hhigh
  have hround : roundNat (x.value * 10 ^ 1) ≤ 100 := by
    refine roundNat_le (by linarith) ?_
    push_cast
    linarith
  show (fixed 1 x).length ≤ 4
  unfold fixed
  generalize roundNat (x.value * 10 ^ 1) = n at hround
  have hwhole : (Nat.toDigits 10 (n / 10 ^ 1)).length ≤ 2 :=
    (Nat.length_toDigits_le_iff (by omega) (by omega)).mpr (by omega)
  have hrest : (Nat.toDigits 10 (n % 10 ^ 1)).length ≤ 1 :=
    (Nat.length_toDigits_le_iff (by omega) (by omega)).mpr (by omega)
  simp only [if_neg (not_lt.mpr hx.1), List.nil_append, List.length_append, List.length_cons,
    padded, List.length_replicate]
  omega

/-- The value of digits, read after others. -/
theorem foldl_digitsValue {digits : List Char} (h : ∀ c ∈ digits, c.isDigit = true) (n : ℕ) :
    digits.foldl (fun n c => 10 * n + ((c.toNat : ℤ) - 48)) (n : ℤ) =
      (Nat.ofDigitChars 10 digits n : ℤ) := by
  induction digits generalizing n with
  | nil => rfl
  | cons c digits ih =>
    have hdigit : 48 ≤ c.toNat := by
      have hc := h c List.mem_cons_self
      simp only [Char.isDigit, Bool.and_eq_true, decide_eq_true_eq] at hc
      exact UInt32.le_iff_toNat_le.mp hc.1
    have hstep : 10 * (n : ℤ) + ((c.toNat : ℤ) - 48) =
        ((10 * n + (c.toNat - '0'.toNat) : ℕ) : ℤ) := by
      rw [show '0'.toNat = 48 from rfl]
      omega
    rw [List.foldl_cons, hstep, ih fun d hd => h d (List.mem_cons_of_mem _ hd),
      Nat.ofDigitChars_cons]

/-- Decimal digits are digits. -/
theorem isDigit_toDigits {n : ℕ} {c : Char} (h : c ∈ Nat.toDigits 10 n) : c.isDigit = true :=
  Nat.isDigit_of_mem_toDigits (by omega) (by omega) h

theorem isDigit_padded {width n : ℕ} {c : Char} (h : c ∈ padded width n) : c.isDigit = true := by
  rcases List.mem_append.mp h with h | h
  · obtain rfl := List.eq_of_mem_replicate h
    rfl
  · exact isDigit_toDigits h

/-- A number below a power of ten fills the width. -/
theorem padded_length {width n : ℕ} (hwidth : 0 < width) (h : n < 10 ^ width) :
    (padded width n).length = width := by
  have hlen := (Nat.length_toDigits_le_iff (by omega) hwidth).mpr h
  rw [padded, List.length_append, List.length_replicate]
  omega

/-- Leading zeros shift what was read before by the width. -/
theorem ofDigitChars_padded {width n m : ℕ} (hwidth : 0 < width) (h : n < 10 ^ width) :
    Nat.ofDigitChars 10 (padded width n) m = 10 ^ width * m + n := by
  have hlen := (Nat.length_toDigits_le_iff (by omega) hwidth).mpr h
  rw [padded, Nat.ofDigitChars_append, Nat.ofDigitChars_replicate_zero,
    Nat.ofDigitChars_eq_ofDigitChars_zero, Nat.ofDigitChars_ten_toDigits, ← Nat.mul_assoc,
    ← Nat.pow_add, Nat.add_sub_of_le hlen]

/-- What `%f` reads before a blank from digits, a point and three more digits. -/
theorem scanUnsigned_digits (n : ℕ) (rest : List Char) :
    scanUnsigned (Nat.toDigits 10 (n / 10 ^ 3) ++ '.' :: padded 3 (n % 10 ^ 3) ++ ' ' :: rest) =
      some ((n : ℚ) / 10 ^ 3, ' ' :: rest) := by
  have hsmall : n % 10 ^ 3 < 10 ^ 3 := Nat.mod_lt _ (by omega)
  have hwhole : ∀ c ∈ Nat.toDigits 10 (n / 10 ^ 3), c.isDigit = true := fun _ => isDigit_toDigits
  have hfraction : ∀ c ∈ padded 3 (n % 10 ^ 3), c.isDigit = true := fun _ => isDigit_padded
  have hlen := padded_length (by omega) hsmall
  have hne : (padded 3 (n % 10 ^ 3)).isEmpty = false := by
    cases hpad : padded 3 (n % 10 ^ 3) with
    | nil => rw [hpad] at hlen; cases hlen
    | cons => rfl
  have hvalue : digitsValue (Nat.toDigits 10 (n / 10 ^ 3) ++ padded 3 (n % 10 ^ 3)) = n := by
    have hall := foldl_digitsValue (fun c hc => (List.mem_append.mp hc).elim (hwhole c)
      (hfraction c)) 0
    rw [Nat.ofDigitChars_append, Nat.ofDigitChars_ten_toDigits,
      ofDigitChars_padded (by omega) hsmall, Nat.div_add_mod] at hall
    exact hall
  have hpoint : ('.'.isDigit) = false := rfl
  have hblank : (' '.isDigit) = false := rfl
  rw [List.append_assoc, List.cons_append]
  simp only [scanUnsigned, List.takeWhile_append_of_pos hwhole, List.dropWhile_append_of_pos hwhole,
    List.takeWhile_cons, List.dropWhile_cons, hpoint, Bool.false_eq_true, if_false,
    List.takeWhile_append_of_pos hfraction, List.dropWhile_append_of_pos hfraction, hblank,
    List.append_nil, hne, Bool.and_false, hvalue, hlen]
  simp

/-- The number that three decimals of a coordinate spell. -/
def rounded (x : Exact) : Exact :=
  let size := (roundNat (x.value * 10 ^ 3) : ℚ) / 10 ^ 3
  ⟨if x.value < 0 then -size else size⟩

/-- What was written with three decimals is read back as the rounded number. -/
theorem scan_fixed (x : Exact) (rest : List Char) :
    scan (fixed 3 x ++ ' ' :: rest) = some (rounded x, ' ' :: rest) := by
  have hread := scanUnsigned_digits (roundNat (x.value * 10 ^ 3)) rest
  unfold fixed rounded
  simp only
  by_cases hneg : x.value < 0
  · rw [if_pos hneg, if_pos hneg, List.singleton_append, List.cons_append, scan, hread]
    rfl
  · rw [if_neg hneg, if_neg hneg, List.nil_append]
    have hpositive : ∀ text, (∀ c, text.head? = some c → c.isDigit = true) →
        scan text = (scanUnsigned text).map fun (q, rest) => (⟨q⟩, rest) := by
      intro text hhead
      unfold scan
      split
      · exact absurd (hhead '-' rfl) (by decide)
      · exact absurd (hhead '+' rfl) (by decide)
      · rfl
    rw [hpositive, hread]
    · rfl
    · intro c hc
      cases hdigits : Nat.toDigits 10 (roundNat (x.value * 10 ^ 3) / 10 ^ 3) with
      | nil => exact absurd hdigits Nat.toDigits_ne_nil
      | cons d digits =>
        rw [hdigits] at hc
        obtain rfl : d = c := Option.some.inj hc
        exact isDigit_toDigits (hdigits ▸ List.mem_cons_self)

/-- The characters of three decimals. -/
theorem mem_fixed {x : Exact} {c : Char} (h : c ∈ fixed 3 x) :
    c = '-' ∨ c = '.' ∨ c.isDigit = true := by
  unfold fixed at h
  rcases List.mem_append.mp h with h | h
  · split at h
    · exact .inl (List.mem_singleton.mp h)
    · exact absurd h List.not_mem_nil
  · rcases List.mem_append.mp h with h | h
    · exact .inr (.inr (isDigit_toDigits h))
    · rcases List.mem_cons.mp h with h | h
      · exact .inr (.inl h)
      · exact .inr (.inr (isDigit_padded h))

end Exact

/-- A line of a client and its command. -/
def say (i : Slot) (line : String) : List Step :=
  [.read i (.data (line.toList ++ ['\n'])), .command i]

/-- The same line so many times in one read, and the commands. -/
def flood (i : Slot) (n : ℕ) (line : String) : List Step :=
  .read i (.data (List.replicate n (line.toList ++ ['\n'])).flatten) ::
    List.replicate n (.command i)

/-- A connection, its name, its type and its position. -/
def join (i : Slot) (fd : ℤ) (name choice spot : String) : List Step :=
  .accept fd :: (say i ("HELLO " ++ name) ++ say i ("CHOICE " ++ choice) ++ say i ("SPAWN " ++ spot))

/-- A clock that jumps from one second to a hundred after so many actions. -/
def lateClock (n : ℕ) : ℕ → ℤ := fun k => if k < n then 1 else 100

/-- A run that takes every step to a server before the next one. It is the same run, and
can be computed without a stack of unfinished steps. -/
def Loop.runForced {F : Type} [CFloat F] (l : Loop F) : List Step → Loop F
  | [] => l
  | x :: steps =>
    match l.step x with
    | ⟨⟨env, ⟨players, nextId, roundNo, phase, joinDeadline, setupDeadline, roundDeadline⟩, log⟩,
        last⟩ =>
      runForced ⟨⟨env, ⟨players, nextId, roundNo, phase, joinDeadline, setupDeadline,
        roundDeadline⟩, log⟩, last⟩ steps

theorem Loop.runForced_eq {F : Type} [CFloat F] (l : Loop F) (steps : List Step) :
    l.runForced steps = l.run steps := by
  induction steps generalizing l with
  | nil => rfl
  | cons x steps ih => exact ih (l.step x)

/-- The server with exact coordinates after some steps. -/
def serverAfter (clock : ℕ → ℤ) (steps : List Step) : Server Exact :=
  ((Loop.init clock 0).runForced steps).server

/-- It is reached, by the loop when the steps occur there. -/
theorem reached_serverAfter {loopOnly : Bool} (clock : ℕ → ℤ) {steps : List Step}
    (h : (!loopOnly || steps.all Step.inLoop) = true) :
    Reached loopOnly (serverAfter clock steps) := by
  refine ⟨clock, 0, steps, fun hloop x hx => ?_, by rw [serverAfter, Loop.runForced_eq]⟩
  simp only [hloop, Bool.not_true, Bool.false_or, List.all_eq_true] at h
  exact h x hx

theorem serverAfter_env (clock : ℕ → ℤ) (steps : List Step) :
    (serverAfter clock steps).env = clock := by
  rw [serverAfter, Loop.runForced_eq]
  exact (Loop.run_env (Inv.init clock) steps).2

/-- What a client says belongs to the loop. -/
@[simp] theorem say_inLoop (i : Slot) (line : String) : (say i line).all Step.inLoop = true := rfl

@[simp] theorem flood_inLoop (i : Slot) (n : ℕ) (line : String) :
    (flood i n line).all Step.inLoop = true := by
  simp [flood, Step.inLoop]

@[simp] theorem join_inLoop (i : Slot) (fd : ℤ) (name choice spot : String) :
    (join i fd name choice spot).all Step.inLoop = true := by
  simp [join, Step.inLoop]

/-- Two players of different types join, and the countdown ends. -/
def duel : List Step := join 0 3 "A" "R" "2 2" ++ join 1 4 "B" "S" "5 5" ++ [.timers 0]

theorem duel_reached : Reached true (serverAfter (lateClock 60) duel) :=
  reached_serverAfter _ (by simp [duel, Step.inLoop])

/-- The two players are alive in a round, and everybody had room for every line. -/
theorem duel_state :
    (serverAfter (lateClock 60) duel).state.phase = .roundActive ∧
      ((serverAfter (lateClock 60) duel).state.players 0).isAlive = true ∧
      ((serverAfter (lateClock 60) duel).state.players 1).isAlive = true ∧
      ((endGame (serverAfter (lateClock 60) duel)).state.players 0).connected = true ∧
      ¬FullAtClosing (serverAfter (lateClock 60) duel).log ∧
      ∀ i, ¬JoinerFullAtOpening i (serverAfter (lateClock 60) duel).log := by
  decide +kernel

theorem duel_phase : (serverAfter (lateClock 60) duel).state.phase = .roundActive := duel_state.1

theorem duel_room : ¬FullAtClosing (serverAfter (lateClock 60) duel).log := duel_state.2.2.2.2.1

/-- The second player leaves, and the first one has won. -/
def duelEnded : List Step := duel ++ say 1 "QUIT"

theorem duelEnded_reached : Reached true (serverAfter (lateClock 60) duelEnded) :=
  reached_serverAfter _ (by simp [duelEnded, duel, say, join, Step.inLoop])

theorem duelEnded_state : (serverAfter (lateClock 60) duelEnded).state.phase = .gameOver ∧
    ¬FullAtClosing (serverAfter (lateClock 60) duelEnded).log := by
  decide +kernel

theorem duelLobby_reached : Reached true (serverAfter (lateClock 60) duel.dropLast) :=
  reached_serverAfter _ (by simp [duel])

/-- The lobby of the two players, before the countdown ends. -/
theorem duelLobby_state :
    (serverAfter (lateClock 60) duel.dropLast).state.phase = .lobbyOpen ∧
      ¬OtherFullAtOpening (serverAfter (lateClock 60) duel.dropLast).log ∧
      ¬TileClash (serverAfter (lateClock 60) duel.dropLast).log := by
  decide +kernel

end BattleRoyale
