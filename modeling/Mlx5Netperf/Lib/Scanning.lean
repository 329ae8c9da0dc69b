import Mathlib.Algebra.Order.Ring.Int

/-!
# Scanning Numbers

The integer conversions of the C library on strings that are lists of
characters without the terminating zero: `strtol` in base ten, and the integer
directives of `sscanf`.
-/

namespace Scanning

/-- `isspace` -/
def isSpace (c : Char) : Bool := c = ' ' || (9 ≤ c.toNat && c.toNat ≤ 13)

/-- The value of a digit in the given base. -/
def digitValue (base : ℕ) (c : Char) : Option ℕ :=
  let value :=
    if '0' ≤ c ∧ c ≤ '9' then some (c.toNat - '0'.toNat)
    else if 'a' ≤ c ∧ c ≤ 'z' then some (c.toNat - 'a'.toNat + 10)
    else if 'A' ≤ c ∧ c ≤ 'Z' then some (c.toNat - 'A'.toNat + 10)
    else none
  value.filter fun d => decide (d < base)

/-- The longest run of digits in front, behind the digits of `acc`, and what follows it. -/
def scanDigits (base acc : ℕ) : List Char → ℕ × List Char
  | [] => (acc, [])
  | c :: s =>
    match digitValue base c with
    | some d => scanDigits base (acc * base + d) s
    | none => (acc, c :: s)

/-- An optional sign: whether the number is negative. -/
def scanSign : List Char → Bool × List Char
  | '-' :: s => (true, s)
  | '+' :: s => (false, s)
  | s => (false, s)

/-! ## strtol -/

/-- The value, the position behind it and whether `errno` was set to `ERANGE`. -/
structure Strtol where
  value : Int64
  endptr : List Char
  erange : Bool

/-- `strtol(s, &endptr, 10)` -/
def strtol (s : List Char) : Strtol :=
  let (negative, digits) := scanSign (s.dropWhile isSpace)
  let (magnitude, rest) := scanDigits 10 0 digits
  let value : ℤ := if negative then -magnitude else magnitude
  -- without digits nothing is consumed, not even the blanks
  if rest.length = digits.length then ⟨0, s, false⟩
  else if Int64.maxValue.toInt < value then ⟨Int64.maxValue, rest, true⟩
  else if value < Int64.minValue.toInt then ⟨Int64.minValue, rest, true⟩
  else ⟨Int64.ofInt value, rest, false⟩

/-! ## sscanf -/

/-- A part of a format. -/
inductive Directive where
  | literal (c : Char)
  /-- an integer conversion with a maximal width, into an object with a sign or without -/
  | int (signed : Bool) (base : ℕ) (width : Option ℕ)
  /-- `%*c` -/
  | skipChar
  deriving DecidableEq, Repr

/-- The prefix that a hexadecimal number may have: whether it is there, and what follows it. -/
def scanHexPrefix (base : ℕ) : List Char → Bool × List Char
  | '0' :: 'x' :: s => if base = 16 then (true, s) else (false, '0' :: 'x' :: s)
  | '0' :: 'X' :: s => if base = 16 then (true, s) else (false, '0' :: 'X' :: s)
  | s => (false, s)

/-- The value of a number as `strtol` or `strtoul` returns it: the end of the range stands
for what is behind it, and without a sign a negative number counts from `2 ^ 64` down. -/
def convertNumber (signed negative : Bool) (magnitude : ℕ) : ℤ :=
  if signed then
    let value : ℤ := if negative then -magnitude else magnitude
    max Int64.minValue.toInt (min Int64.maxValue.toInt value)
  else if 2 ^ 64 ≤ magnitude then 2 ^ 64 - 1
  else if negative then (2 ^ 64 - magnitude) % 2 ^ 64
  else magnitude

/-- One integer conversion; `none` is a matching failure. What does not fit into
the object it is stored in is left to the caller. -/
def scanInt (signed : Bool) (base : ℕ) (width : Option ℕ) (s : List Char) :
    Option (ℤ × List Char) :=
  let s := s.dropWhile isSpace
  let field := match width with
    | none => s
    | some w => s.take w
  let (negative, unsigned) := scanSign field
  let (prefixed, digits) := scanHexPrefix base unsigned
  let (magnitude, rest) := scanDigits base 0 digits
  -- the zero of the prefix is a digit, so nothing has to follow it
  if ¬ prefixed ∧ rest.length = digits.length then none
  else some (convertNumber signed negative magnitude, s.drop (field.length - rest.length))

/-- The numbers that `sscanf` stores, up to the first directive that fails. -/
def sscanf : List Directive → List Char → List ℤ
  | [], _ => []
  | .literal c :: format, s =>
    match s with
    | [] => []
    | a :: s => if a = c then sscanf format s else []
  | .int signed base width :: format, s =>
    match scanInt signed base width s with
    | none => []
    | some (value, s) => value :: sscanf format s
  | .skipChar :: format, s =>
    match s with
    | [] => []
    | _ :: s => sscanf format s

end Scanning
