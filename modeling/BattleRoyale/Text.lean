import Mathlib

/-!
# C strings and formatted text

Texts are lists of characters, one for each byte. This file has the parts of
`printf` and `scanf` that the server and the client use, without the `float`
conversions, which belong to the coordinate type.
-/

namespace BattleRoyale

/-- The C string at the head of a buffer: everything before the first zero byte. -/
def cString (text : List Char) : List Char := text.takeWhile (· ≠ '\x00')

/-- The text of `%d` and `%ld`. -/
def decimal (n : ℤ) : List Char :=
  if n < 0 then '-' :: Nat.toDigits 10 n.natAbs else Nat.toDigits 10 n.natAbs

/-- The text of a flag printed with `%d`. -/
def flag (b : Bool) : List Char := if b then ['1'] else ['0']

/-- The characters that `isspace` accepts. -/
def isSpace (c : Char) : Bool :=
  c == ' ' || c == '\t' || c == '\n' || c == '\x0b' || c == '\x0c' || c == '\r'

/-- A blank in a `scanf` format, and the skipping before most conversions. -/
def skipSpace (text : List Char) : List Char := text.dropWhile isSpace

/-- The conversion `%{width}s`: a nonempty run of at most `width` characters that
are not white space. -/
def scanWord (width : ℕ) (text : List Char) : Option (List Char × List Char) :=
  let rest := skipSpace text
  let word := (rest.takeWhile (fun c => !isSpace c)).take width
  if word.isEmpty then none else some (word, rest.drop word.length)

/-- A blank followed by the conversion `%c`. -/
def scanChar (text : List Char) : Option (Char × List Char) :=
  match skipSpace text with
  | [] => none
  | c :: rest => some (c, rest)

/-- The value of a run of decimal digits. -/
def digitsValue (digits : List Char) : ℤ :=
  digits.foldl (fun n c => 10 * n + ((c.toNat : ℤ) - 48)) 0

/-- The digits of `%d` after the optional sign. -/
def scanDigits (text : List Char) : Option (ℤ × List Char) :=
  let digits := text.takeWhile Char.isDigit
  if digits.isEmpty then none else some (digitsValue digits, text.dropWhile Char.isDigit)

/-- The conversions `%d` and `%ld`. -/
def scanInt (text : List Char) : Option (ℤ × List Char) :=
  match skipSpace text with
  | '-' :: rest => (scanDigits rest).map fun (n, rest) => (-n, rest)
  | '+' :: rest => scanDigits rest
  | rest => scanDigits rest

/-- Literal characters in a `scanf` format. -/
def scanLiteral (literal text : List Char) : Option (List Char) :=
  if literal.isPrefixOf text then some (text.drop literal.length) else none

/-- The values of an `int` after the conversion of a `long`. -/
def toInt32 (n : ℤ) : ℤ := Int.bmod n (2 ^ 32)

end BattleRoyale
