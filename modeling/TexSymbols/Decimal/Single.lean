import TexSymbols.Decimal

/-!
# Single-precision numbers

Numbers with 24 significant bits, and the shortest decimal text that reads back as the same number.

* `Single` — sign, significand and binary exponent.
* `Single.ofRatio` — the single nearest to a ratio that went through double precision; a tie goes to the even
  significand.
* `Single.text` — the fewest digits that read back, the nearest such number, written positionally: never with
  an exponent, without a point if there is no fraction.
-/

namespace TexSymbols

/-- The number `± significand · 2 ^ exponent`. -/
structure Single where
  negative : Bool
  significand : Nat
  exponent : Int
deriving DecidableEq

namespace Single

/-- Precision and least exponent of a binary format. -/
structure Format where
  bits : Nat
  least : Int

/-- Single precision. -/
def single : Format := ⟨24, -149⟩

/-- Double precision. -/
def double : Format := ⟨53, -1074⟩

/-- `num / den · 2 ^ k` as a ratio of two natural numbers. -/
def scale (num den : Nat) (k : Int) : Nat × Nat := (num * Nat.pow 2 k.toNat, den * Nat.pow 2 (-k).toNat)

/-- The natural number nearest to `num / den`; a tie goes to the even one. -/
def nearest (num den : Nat) : Nat :=
  let q := num / den
  let r := num % den
  if 2 * r < den ∨ (2 * r = den ∧ q % 2 = 0) then q else q + 1

/-- Significand and exponent of the number of the format nearest to `num / den`. -/
def Format.round (f : Format) (num den : Nat) : Nat × Int :=
  if num = 0 then (0, f.least)
  else
    let k : Int := (Nat.log2 num : Int) - Nat.log2 den
    let (n, d) := scale num den (-k)
    let top := if d ≤ n then k else k - 1
    let e := max f.least (top + 1 - f.bits)
    let (n, d) := scale num den (-e)
    let m := nearest n d
    if m = Nat.pow 2 f.bits then (m / 2, e + 1) else (m, e)

/-- The single nearest to the double nearest to `± num / den`. -/
def ofRatio (negative : Bool) (num den : Nat) : Single :=
  let (m, e) := double.round num den
  let (n, d) := scale m 1 e
  let (m, e) := single.round n d
  ⟨negative, m, e⟩

/-- The single nearest to `± mantissa · 10 ^ exponent`. -/
def ofDecimal (negative : Bool) (mantissa : Nat) (exponent : Int) : Single :=
  ofRatio negative (mantissa * Nat.pow 10 exponent.toNat) (Nat.pow 10 (-exponent).toNat)

/-- Whether the ratio `num / den` lies between the midpoints to the neighbours of `x`; the midpoints themselves
belong to `x` if its significand is even. -/
def contains (x : Single) (num den : Nat) : Bool :=
  let lowest := x.significand = Nat.pow 2 23 ∧ x.exponent > single.least
  let low := 4 * x.significand - (if lowest then 1 else 2)
  let high := 4 * x.significand + 2
  let (n, d) := scale num den (2 - x.exponent)
  if x.significand % 2 = 0 then low * d ≤ n && n ≤ high * d else low * d < n && n < high * d

/-- A decimal numeral: `digits · 10 ^ exponent`. -/
structure Numeral where
  digits : Nat
  exponent : Int

/-- The numeral as a ratio. -/
def Numeral.ratio (a : Numeral) : Nat × Nat := (a.digits * Nat.pow 10 a.exponent.toNat, Nat.pow 10 (-a.exponent).toNat)

/-- Of the two multiples of `10 ^ exponent` around `x` that read back as `x`, the nearer one; a tie goes up. -/
def onGrid (x : Single) (exponent : Int) : Option Numeral :=
  let (n, d) := scale x.significand 1 x.exponent
  let (n, d) := (n * Nat.pow 10 (-exponent).toNat, d * Nat.pow 10 exponent.toNat)
  let down : Numeral := ⟨n / d, exponent⟩
  let up : Numeral := ⟨n / d + 1, exponent⟩
  let fits (a : Numeral) : Bool := x.contains a.ratio.1 a.ratio.2
  match fits down, fits up with
  | true, true => some (if 2 * (n % d) < d then down else up)
  | true, false => some down
  | false, true => some up
  | false, false => none

/-- The least `k` with `x < 10 ^ k`. -/
def magnitude (x : Single) : Int :=
  let (n, d) := scale x.significand 1 x.exponent
  let below (k : Int) : Bool := n * Nat.pow 10 (-k).toNat < d * Nat.pow 10 k.toNat
  (((List.range 90).map fun (i : Nat) => (i : Int) - 50).find? below).getD 40

/-- The numeral with the fewest digits that reads back as `x`. -/
def shortest (x : Single) : Numeral :=
  ((List.range 10).findSome? fun (i : Nat) => x.onGrid (x.magnitude - i - 1)).getD ⟨0, 0⟩

/-- Positional notation of a numeral. -/
def Numeral.text (a : Numeral) : Text :=
  let ds := Decimal.digits a.digits ++ List.replicate a.exponent.toNat '0'
  let places := (-a.exponent).toNat
  let ds := List.replicate (places + 1 - ds.length) '0' ++ ds
  let whole := ds.take (ds.length - places)
  let fraction := ((ds.drop (ds.length - places)).reverse.dropWhile (· = '0')).reverse
  if fraction.isEmpty then whole else whole ++ '.' :: fraction

/-- The shortest text that reads back as `x`. -/
def text (x : Single) : Text :=
  let t : Text := if x.significand = 0 then "0" else x.shortest.text
  if x.negative then '-' :: t else t

/-- One half. -/
def half : Single := ofDecimal false 5 (-1)

/-- Three tenths, rounded. -/
def threeTenths : Single := ofDecimal false 3 (-1)

def zero : Single := ofDecimal false 0 0

example : threeTenths.text = ("0.3" : Text) := by decide +kernel
example : (ofDecimal true 0 0).text = ("-0" : Text) := by decide +kernel
example : (ofDecimal false 16777217 0).text = ("16777216" : Text) := by decide +kernel
example : (ofDecimal false 1 (-7)).text = ("0.0000001" : Text) := by decide +kernel

end Single

end TexSymbols
