import AnnotatedSource.Text.Decoding

set_option autoImplicit false

namespace AnnotatedSource

namespace Word

def bound : Nat := 0x10000000000000000

def signedBound : Nat := 0x8000000000000000

def holds (n : Nat) : Bool := decide (n < bound)

def holdsSigned (n : Int) : Bool := decide (-(signedBound : Int) ≤ n) && decide (n < signedBound)

theorem holds_iff (n : Nat) : holds n = true ↔ n < bound := by simp [holds]

theorem holdsSigned_iff (n : Int) :
    holdsSigned n = true ↔ -(signedBound : Int) ≤ n ∧ n < signedBound := by
  simp [holdsSigned]

end Word

/-- The size of a finite double, `mantissa` times two to the power `exponent`. -/
structure Magnitude where
  mantissa : Nat
  exponent : Int
deriving DecidableEq, Repr

namespace Magnitude

def zero : Magnitude := ⟨0, -1074⟩

def least : Nat := 0x10000000000000

def scaled (n : Nat) (k : Int) : Nat × Nat :=
  if 0 ≤ k then (n * Nat.pow 2 k.toNat, 1) else (n, Nat.pow 2 (-k).toNat)

def ratio (x : Magnitude) : Nat × Nat := scaled x.mantissa x.exponent

/-- The nearest whole number, the even one of two. -/
def roundDiv (num den : Nat) : Nat :=
  let floor := num / den
  let twice := 2 * (num % den)
  if twice < den then floor
  else if den < twice then floor + 1
  else if floor % 2 = 0 then floor else floor + 1

def log2Ratio (num den : Nat) : Int :=
  let guess := (num.log2 : Int) - den.log2
  let (n, d) := scaled den guess
  if n ≤ num * d then guess else guess - 1

def round? (num den : Nat) : Option Magnitude :=
  if num = 0 then some zero
  else
    let exponent := max (-1074) (log2Ratio num den - 52)
    let (n, d) := scaled den exponent
    let mantissa := roundDiv (num * d) n
    let x : Magnitude :=
      if mantissa = 2 * least then ⟨least, exponent + 1⟩ else ⟨mantissa, exponent⟩
    if x.exponent ≤ 971 then some x else none

def times? (x y : Magnitude) : Option Magnitude :=
  round? (x.ratio.1 * y.ratio.1) (x.ratio.2 * y.ratio.2)

def over? (x y : Magnitude) : Option Magnitude :=
  round? (x.ratio.1 * y.ratio.2) (x.ratio.2 * y.ratio.1)

/-- `digits * 10 ^ power`, rounded once. Powers that no digit count brings back into range are settled
    before they are computed. -/
def ofDecimal? (digits : Nat) (power : Int) : Option Magnitude :=
  let width : Int := (Nat.toDigits 10 digits).length
  if digits = 0 ∨ power + width < -400 then some zero
  else if 400 < power + width then none
  else if 0 ≤ power then round? (digits * Nat.pow 10 power.toNat) 1
  else round? digits (Nat.pow 10 (-power).toNat)

end Magnitude

inductive Double where
  | finite (negative : Bool) (size : Magnitude)
  | infinite (negative : Bool)
  | nan
deriving DecidableEq, Repr

namespace Double

def isZero : Double → Bool
  | finite _ size => size.mantissa == 0
  | _ => false

/-- The nearest whole number, a half going up, within the range of 64-bit words. -/
def toWord : Double → Nat
  | finite false size =>
    let (num, den) := size.ratio
    min ((2 * num + den) / (2 * den)) (Word.bound - 1)
  | infinite false => Word.bound - 1
  | _ => 0

def unsigned : List Char → Bool × List Char
  | '-' :: rest => (true, rest)
  | '+' :: rest => (false, rest)
  | rest => (false, rest)

def power? : List Char → Option Int
  | [] => some 0
  | c :: rest =>
    if c = 'e' ∨ c = 'E' then
      let (negative, digits) := unsigned rest
      (Text.number? 10 digits).map fun n => if negative then -(n : Int) else n
    else none

def magnitude? (text : List Char) : Option Magnitude :=
  let whole := text.takeWhile Text.isDecimal
  let (fraction, rest) :=
    match text.dropWhile Text.isDecimal with
    | '.' :: rest => (rest.takeWhile Text.isDecimal, rest.dropWhile Text.isDecimal)
    | rest => ([], rest)
  match Text.number? 10 (whole ++ fraction), power? rest with
  | some digits, some power => Magnitude.ofDecimal? digits (power - fraction.length)
  | _, _ => none

def ofText? (text : List Char) : Option Double :=
  let (negative, rest) := unsigned text
  (magnitude? rest).map (finite negative)

end Double

structure ShortDecimal where
  digits : Nat
  power : Int
deriving DecidableEq, Repr

namespace ShortDecimal

def decimalWidth (n : Nat) : Nat := (Nat.toDigits 10 n).length

def log10Ratio (num den : Nat) : Int :=
  let guess : Int := (decimalWidth num : Int) - decimalWidth den
  if 0 ≤ guess then if den * Nat.pow 10 guess.toNat ≤ num then guess else guess - 1
  else if den ≤ num * Nat.pow 10 (-guess).toNat then guess else guess - 1

def scaled (n : Nat) (k : Int) : Nat × Nat :=
  if 0 ≤ k then (n * Nat.pow 10 k.toNat, 1) else (n, Nat.pow 10 (-k).toNat)

/-- The fractions that round to a magnitude lie between the ends, and on them if it is even. -/
structure Interval where
  low : Nat × Nat
  high : Nat × Nat
  closed : Bool

def Interval.ofMagnitude (x : Magnitude) : Interval where
  low :=
    let below := if x.mantissa = Magnitude.least ∧ -1074 < x.exponent then 1 else 2
    Magnitude.scaled (4 * x.mantissa - below) (x.exponent - 2)
  high := Magnitude.scaled (4 * x.mantissa + 2) (x.exponent - 2)
  closed := x.mantissa % 2 == 0

def Interval.holds (i : Interval) (value : Nat × Nat) : Bool :=
  let below (a b : Nat × Nat) : Bool :=
    let left := a.1 * b.2
    let right := b.1 * a.2
    decide (left < right) || (i.closed && left == right)
  below i.low value && below value i.high

/-- The multiple of a power of ten in the interval that is nearest to the magnitude, the even one of two. -/
def onGrid? (x : Magnitude) (power : Int) : Option ShortDecimal :=
  let interval := Interval.ofMagnitude x
  let (num, den) := x.ratio
  let (gridNum, gridDen) := scaled 1 power
  let quotient := num * gridDen / (den * gridNum)
  let remainder := num * gridDen % (den * gridNum)
  let lower := interval.holds (scaled quotient power)
  let upper := interval.holds (scaled (quotient + 1) power)
  let nearLower := decide (2 * remainder < den * gridNum) ||
    (2 * remainder == den * gridNum && quotient % 2 == 0)
  if lower && (!upper || nearLower) then some ⟨quotient, power⟩
  else if upper then some ⟨quotient + 1, power⟩
  else none

def search (x : Magnitude) (power : Int) : Nat → Option ShortDecimal
  | 0 => none
  | count + 1 =>
    match onGrid? x power with
    | some d => some d
    | none => search x (power - 1) count

def trim (digits : Nat) (power : Int) : Nat → ShortDecimal
  | 0 => ⟨digits, power⟩
  | fuel + 1 =>
    if digits % 10 = 0 ∧ digits ≠ 0 then trim (digits / 10) (power + 1) fuel else ⟨digits, power⟩

/-- Seventeen digits tell any two doubles apart. -/
def ofMagnitude (x : Magnitude) : ShortDecimal :=
  if x.mantissa = 0 then ⟨0, 0⟩
  else
    match search x (log10Ratio x.ratio.1 x.ratio.2) 17 with
    | some d => trim d.digits d.power (decimalWidth d.digits)
    | none => ⟨0, 0⟩

def order (d : ShortDecimal) : Int := d.power + decimalWidth d.digits - 1

def positional (d : ShortDecimal) : List Char :=
  let digits := Nat.toDigits 10 d.digits
  if 0 ≤ d.power then digits ++ List.replicate d.power.toNat '0'
  else
    let places := (-d.power).toNat
    if places < digits.length then
      digits.take (digits.length - places) ++ '.' :: digits.drop (digits.length - places)
    else '0' :: '.' :: (List.replicate (places - digits.length) '0' ++ digits)

def scientific (d : ShortDecimal) : List Char :=
  let digits := Nat.toDigits 10 d.digits
  let mantissa :=
    match digits with
    | first :: second :: rest => first :: '.' :: second :: rest
    | short => short
  let sign := if 0 ≤ d.order then '+' else '-'
  mantissa ++ ['e', sign] ++ Nat.toDigits 10 d.order.natAbs

end ShortDecimal

namespace Double

def signed (negative : Bool) (text : List Char) : String :=
  String.ofList (if negative then '-' :: text else text)

def plainText : Double → String
  | finite negative size => signed negative (ShortDecimal.ofMagnitude size).positional
  | infinite negative => signed negative "inf".toList
  | nan => "NaN"

/-- Positional from a hundred-thousandth to below ten to the sixteenth with a point in any case,
    scientific outside. -/
def pointText : Double → String
  | finite negative size =>
    let d := ShortDecimal.ofMagnitude size
    if -6 < d.order ∧ d.order < 16 then
      signed negative (if 0 ≤ d.power then d.positional ++ ['.', '0'] else d.positional)
    else signed negative d.scientific
  | infinite negative => signed negative "inf".toList
  | nan => "NaN"

end Double
end AnnotatedSource
