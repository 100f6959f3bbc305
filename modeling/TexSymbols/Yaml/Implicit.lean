import TexSymbols.Decimal

/-!
# Plain texts that are no strings

A plain scalar may read as a null, a truth value or a number.  `isImplicit` says of which texts this holds; they have to
be quoted to be read as strings.

* integers — decimal, or hexadecimal, octal, binary behind `0x`, `0o`, `0b`; at most 128 bits;
* decimal fractions — digits with a point or an exponent, as far as they are finite in double precision;
* rows of digits with a leading zero — no numbers, but quoted all the same.
-/

namespace TexSymbols.Yaml

def isNull (t : Text) : Bool := t ∈ ([[], "~", "null", "Null", "NULL"] : List Text)

def isTruth (t : Text) : Bool := t ∈ (["true", "True", "TRUE", "false", "False", "FALSE"] : List Text)

/-- The value of a digit in a base up to sixteen. -/
def digitValue? (base : Nat) (c : Char) : Option Nat :=
  let n := c.toNat
  let v :=
    if c.isDigit then n - 48
    else if 97 ≤ n && n ≤ 102 then n - 87
    else if 65 ≤ n && n ≤ 70 then n - 55
    else base
  if v < base then some v else none

/-- The value of a row of digits that is not empty. -/
def numeral? (base : Nat) : Text → Option Nat
  | [] => none
  | t => (t.mapM (digitValue? base)).map fun ds => ds.foldl (fun v d => base * v + d) 0

/-- The text without a leading sign. -/
def unsigned : Text → Text
  | '+' :: r => r
  | '-' :: r => r
  | t => t

/-- A row of at least two digits that begins with a zero, perhaps behind a sign. -/
def isZeroLed (t : Text) : Bool :=
  match unsigned t with
  | '0' :: d :: ds => (d :: ds).all Char.isDigit
  | _ => false

/-- The value of digits in the base that a two-letter mark names; without a mark they are decimal. -/
def basedNumeral? : Text → Option Nat
  | '0' :: 'x' :: r => numeral? 16 r
  | '0' :: 'o' :: r => numeral? 8 r
  | '0' :: 'b' :: r => numeral? 2 r
  | t => numeral? 10 t

/-- Whole numbers of at most 128 bits. -/
def isInteger (t : Text) : Bool :=
  !isZeroLed t &&
    match t with
    | '-' :: r => (basedNumeral? r).any (· ≤ Nat.pow 2 127)
    | _ => (basedNumeral? (Text.removePrefix? "+" t |>.getD t)).any (· < Nat.pow 2 128)

/-- The digits and the exponent of a decimal fraction without sign: `digits · 10 ^ exponent`. -/
def fraction? (t : Text) : Option (Text × Int) := do
  let whole := t.takeWhile Char.isDigit
  let (places, r) :=
    match t.dropWhile Char.isDigit with
    | '.' :: r => (r.takeWhile Char.isDigit, r.dropWhile Char.isDigit)
    | r => ([], r)
  if whole.isEmpty && places.isEmpty then none
  else
    let exponent ←
      match r with
      | [] => some (0 : Int)
      | e :: r =>
        if e = 'e' ∨ e = 'E' then
          match r with
          | '-' :: r => (numeral? 10 r).map fun n => -(n : Int)
          | '+' :: r => (numeral? 10 r).map fun n => (n : Int)
          | r => (numeral? 10 r).map fun n => (n : Int)
        else none
    return (whole ++ places, exponent - places.length)

/-- Whether `digits · 10 ^ exponent` rounds to a finite double. -/
def isFinite (digits : Text) (exponent : Int) : Bool :=
  let digits := digits.dropWhile (· = '0')
  let size : Int := digits.length + exponent
  let bound := Nat.pow 2 1024 - Nat.pow 2 970
  digits.isEmpty || size ≤ 308 ||
    (size ≤ 309 && Decimal.value digits * Nat.pow 10 exponent.toNat < bound * Nat.pow 10 (-exponent).toNat)

/-- Decimal fractions, infinities, and the texts that stand for no number. -/
def isFloat (t : Text) : Bool :=
  let specials : List Text := [".inf", ".Inf", ".INF", "+.inf", "+.Inf", "+.INF", "-.inf", "-.Inf", "-.INF",
    ".nan", ".NaN", ".NAN"]
  t ∈ specials || (fraction? (unsigned t)).any fun p => isFinite p.1 p.2

/-- Whether a plain scalar with this text would not be read as a string by everyone. -/
def isImplicit (t : Text) : Bool := isNull t || isTruth t || isInteger t || isZeroLed t || isFloat t

example : (["", "~", "true", "12", "-7", "0x1F", "007", "1.5", ".5e3", ".inf"] : List Text).all isImplicit := by
  decide +kernel

example : (["yes", "NaN", "1e400", "0x", "--1", "2024-01-01", "-", "."] : List Text).all (!isImplicit ·) := by
  decide +kernel

end TexSymbols.Yaml
