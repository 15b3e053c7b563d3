import BattleRoyale.Exact

/-!
# Coordinates in single precision

The coordinates as the C type `float` has them: rational numbers that fit the format, two
infinities, and one value that is no number and compares with nothing. The two zeros are
one here. `scanf` reads every spelling that its conversion `%f` knows.
-/

namespace BattleRoyale

/-- A value of the type `float`. -/
inductive Binary32 where
  /-- A finite number. -/
  | finite (q : ℚ)
  /-- An infinity. -/
  | infinite (negative : Bool)
  /-- Not a number. -/
  | nan
  deriving DecidableEq

namespace Binary32

/-- The exponent of the largest power of two that is at most a positive number. -/
def exponent (q : ℚ) : ℤ :=
  let e : ℤ := (Nat.log2 q.num.natAbs : ℤ) - Nat.log2 q.den
  if (2 : ℚ) ^ e ≤ q then e else e - 1

/-- The nearest value of the format, ties to even. -/
def round (q : ℚ) : Binary32 :=
  if q = 0 then finite 0
  else
    -- The last place of a normal or subnormal number of 24 bits.
    let ulp : ℚ := 2 ^ (max (exponent |q|) (-126) - 23)
    let size : ℚ := Exact.roundNat (|q| / ulp) * ulp
    if 2 ^ 128 ≤ size then infinite (q < 0) else finite (if q < 0 then -size else size)

/-- The sign is changed. -/
def neg : Binary32 → Binary32
  | finite q => finite (-q)
  | infinite negative => infinite !negative
  | nan => nan

/-- The operator `<`, false for a value that is no number. -/
def lt : Binary32 → Binary32 → Bool
  | finite a, finite b => decide (a < b)
  | finite _, infinite negative => !negative
  | infinite negative, finite _ => negative
  | infinite a, infinite b => a && !b
  | _, _ => false

/-- The operator `==`, false for a value that is no number. -/
def eq : Binary32 → Binary32 → Bool
  | finite a, finite b => decide (a = b)
  | infinite a, infinite b => a == b
  | _, _ => false

/-- Addition. -/
def add : Binary32 → Binary32 → Binary32
  | finite a, finite b => round (a + b)
  | finite _, infinite negative => infinite negative
  | infinite negative, finite _ => infinite negative
  | infinite a, infinite b => if a = b then infinite a else nan
  | _, _ => nan

/-- The product of an infinity and a finite number. -/
def scaled (negative : Bool) (q : ℚ) : Binary32 :=
  if q = 0 then nan else infinite (negative != decide (q < 0))

/-- Multiplication. -/
def mul : Binary32 → Binary32 → Binary32
  | finite a, finite b => round (a * b)
  | finite a, infinite negative => scaled negative a
  | infinite negative, finite b => scaled negative b
  | infinite a, infinite b => infinite (a != b)
  | _, _ => nan

/-- Division. -/
def div : Binary32 → Binary32 → Binary32
  | finite a, finite b =>
    if b ≠ 0 then round (a / b) else if a = 0 then nan else infinite (a < 0)
  | finite _, infinite _ => finite 0
  | infinite negative, finite b => infinite (negative != decide (b < 0))
  | _, _ => nan

/-- The library function `sqrtf`. -/
def sqrtf : Binary32 → Binary32
  | finite q =>
    if q < 0 then nan
    else
      -- The root to 200 binary places; one more says whether something was cut off.
      let n := (q * 4 ^ 200).floor.toNat
      let root := Nat.sqrt n
      round (if (root * root : ℚ) = q * 4 ^ 200 then root / 2 ^ 200
        else (2 * root + 1) / 2 ^ 201)
  | infinite false => infinite false
  | _ => nan

/-- The cast to `int`. For values out of its range C leaves the result open; here it is the
one of the usual machine instruction. -/
def toInt : Binary32 → ℤ
  | finite q =>
    let n := q.num.tdiv q.den
    if -2 ^ 31 ≤ n ∧ n < 2 ^ 31 then n else -2 ^ 31
  | _ => -2 ^ 31

/-- The conversion `%.{digits}f` of `printf`. -/
def fixed (digits : ℕ) : Binary32 → List Char
  | finite q => Exact.fixed digits ⟨q⟩
  | infinite negative => (if negative then ['-'] else []) ++ "inf".toList
  | nan => "nan".toList

section Scan

/-- The value of a digit. -/
def digit (base : ℕ) (c : Char) : Option ℕ :=
  let n :=
    if c.isDigit then c.toNat - 48
    else if 'a' ≤ c ∧ c ≤ 'f' then c.toNat - 87
    else if 'A' ≤ c ∧ c ≤ 'F' then c.toNat - 55
    else base
  if n < base then some n else none

/-- Digits with at most one point among them, and at least one digit. -/
def scanMantissa (base : ℕ) (text : List Char) : Option (ℚ × List Char) :=
  let isDigit := fun c => (digit base c).isSome
  let value := fun (digits : List Char) =>
    digits.foldl (fun n c => base * n + (digit base c).getD 0) 0
  let whole := text.takeWhile isDigit
  match text.dropWhile isDigit with
  | '.' :: rest =>
    let fraction := rest.takeWhile isDigit
    if whole.isEmpty && fraction.isEmpty then none
    else some ((value (whole ++ fraction) : ℚ) / base ^ fraction.length, rest.dropWhile isDigit)
  | rest => if whole.isEmpty then none else some (value whole, rest)

/-- An exponent, if its mark comes next. -/
def scanScale (mark : Char) (text : List Char) : Option (ℤ × List Char) :=
  match text with
  | c :: rest =>
    if c.toLower ≠ mark then some (0, text)
    else
      match rest with
      | '-' :: rest => (scanDigits rest).map fun (n, rest) => (-n, rest)
      | '+' :: rest => scanDigits rest
      | rest => scanDigits rest
  | [] => some (0, [])

/-- A number: its digits to this base, and an exponent to the other one. -/
def scanNumber (base : ℕ) (mark : Char) (radix : ℚ) (text : List Char) :
    Option (Binary32 × List Char) :=
  (scanMantissa base text).bind fun (q, rest) =>
    (scanScale mark rest).map fun (e, rest) => (round (q * radix ^ e), rest)

/-- How many characters of a word the text begins with, in either case. -/
def common : List Char → List Char → ℕ
  | w :: word, c :: text => if c.toLower = w then common word text + 1 else 0
  | _, _ => 0

/-- The characters after `nan`: nothing, or letters, digits and underscores in parentheses. -/
def scanPayload (text : List Char) : Option (List Char) :=
  match text with
  | '(' :: rest =>
    match rest.dropWhile (fun c => c.isAlphanum || c == '_') with
    | ')' :: rest => some rest
    | _ => none
  | rest => some rest

/-- The conversion `%f` of `scanf` after the sign, as ISO C has it: it takes the longest text
that begins a number, and fails if that is not a whole number. Libraries depart from this, as
glibc does, which reads `1e` and `0x.` and no `nan(...)`. -/
def scanUnsigned (text : List Char) : Option (Binary32 × List Char) :=
  if common "i".toList text = 1 then
    let n := common "infinity".toList text
    if n = 3 ∨ n = 8 then some (infinite false, text.drop n) else none
  else if common "n".toList text = 1 then
    if common "nan".toList text = 3 then
      (scanPayload (text.drop 3)).map fun rest => (nan, rest)
    else none
  else if common "0x".toList text = 2 then scanNumber 16 'p' 2 (text.drop 2)
  else scanNumber 10 'e' 10 text

/-- The conversion `%f` of `scanf`, by the rule of ISO C. -/
def scan : List Char → Option (Binary32 × List Char)
  | '-' :: rest => (scanUnsigned rest).map fun (x, rest) => (x.neg, rest)
  | '+' :: rest => scanUnsigned rest
  | text => scanUnsigned text

end Scan

instance : CFloat Binary32 where
  lit := round
  ofInt n := round n
  toInt := toInt
  lt := lt
  le a b := lt a b || eq a b
  eq := eq
  add := add
  sub a b := add a (neg b)
  mul := mul
  div := div
  sqrtf := sqrtf
  fixed := fixed
  scan := scan

example : scan "-1.5e1 2".toList = some (finite (-15), " 2".toList) := by decide +kernel

example : scan "NaN(0) 1".toList = some (nan, " 1".toList) := by decide +kernel

/-- The value is a number of the board's side of this length. -/
def Within (n : ℤ) (x : Binary32) : Prop := ∃ q : ℚ, x = finite q ∧ 0 ≤ q ∧ q < n

/-- What is neither below zero nor at least the length is on the board, or no number. -/
theorem within_of_not_lt {n : ℤ} {x : Binary32} (hside : round n = finite n)
    (hlow : CFloat.lt x (CFloat.lit 0) = false)
    (hhigh : CFloat.le (CFloat.ofInt n) x = false) (hx : x ≠ nan) : Within n x := by
  have hzero : (CFloat.lit 0 : Binary32) = finite 0 := rfl
  have hside' : (CFloat.ofInt n : Binary32) = finite n := hside
  rw [hzero] at hlow
  rw [hside'] at hhigh
  cases x with
  | finite q =>
    have hq : ¬q < 0 := of_decide_eq_false hlow
    have hn : (decide ((n : ℚ) < q) || decide ((n : ℚ) = q)) = false := hhigh
    simp only [Bool.or_eq_false_iff, decide_eq_false_iff_not] at hn
    exact ⟨q, rfl, not_lt.mp hq, lt_of_le_of_ne (not_lt.mp hn.1) (Ne.symm hn.2)⟩
  | infinite negative =>
    cases negative with
    | true => cases hlow
    | false => cases hhigh
  | nan => exact absurd rfl hx

end Binary32

end BattleRoyale
