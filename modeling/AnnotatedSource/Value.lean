import AnnotatedSource.Number
import AnnotatedSource.Text.Quoting

set_option autoImplicit false

namespace AnnotatedSource

/-- A numeral; `fraction` holds the digits after the point and is empty where there is no point. -/
structure Numeral where
  negative : Bool
  whole : Nat
  fraction : List Nat
  exponent : Option Int
deriving DecidableEq, Repr

inductive Json where
  | null
  | bool (b : Bool)
  | number (n : Numeral)
  | string (s : Option String)
  | array (items : List Json)
  | object (members : List (Option String × Json))

namespace Numeral

def ofNat (n : Nat) : Numeral := ⟨false, n, [], none⟩

/-- The whole number that a numeral without point and exponent writes, if it fits 64 bits with or
    without a sign. Minus zero is no whole number. -/
def integer? (n : Numeral) : Option Int :=
  if n.fraction.isEmpty && n.exponent.isNone then
    if n.negative then if 0 < n.whole ∧ n.whole ≤ Word.signedBound then some (-n.whole) else none
    else if Word.holds n.whole then some n.whole else none
  else none

def absorb (value : Nat) : List Nat → Nat × Nat
  | [] => (value, 0)
  | d :: rest =>
    if Word.holds (value * 10 + d) then absorb (value * 10 + d) rest else (value, rest.length + 1)

/-- The digits of the whole part and of the fraction that fit, and the power of ten that goes with
    them. Once digits do not fit, those left of the point still count for the power. -/
def significand (n : Numeral) : Nat × Int :=
  let whole := absorb 0 ((Nat.toDigits 10 n.whole).map (·.toNat - 48))
  let fraction := absorb whole.1 n.fraction
  (fraction.1, (whole.2 : Int) - (n.fraction.length - fraction.2 : Int))

def powerOfTen (k : Nat) : Magnitude := (Magnitude.round? (Nat.pow 10 k) 1).getD .zero

def largestPower : Nat := 308

def scaleUp? (x : Magnitude) (power : Nat) : Option Magnitude :=
  if power ≤ largestPower then x.times? (powerOfTen power)
  else if x.mantissa = 0 then some x else none

def shrink? (x : Magnitude) : Nat → Option Magnitude
  | 0 => some x
  | times + 1 =>
    if x.mantissa = 0 then some x
    else
      match x.over? (powerOfTen largestPower) with
      | some y => shrink? y times
      | none => none

def scaleDown? (x : Magnitude) (power : Nat) : Option Magnitude :=
  let times := (power - 1) / largestPower
  match shrink? x times with
  | some y => y.over? (powerOfTen (power - times * largestPower))
  | none => none

def double? (n : Numeral) : Option Double :=
  let (digits, power) := n.significand
  match Magnitude.round? digits 1 with
  | some x =>
    let total := power + n.exponent.getD 0
    (if 0 ≤ total then scaleUp? x total.toNat else scaleDown? x (-total).toNat).map (.finite n.negative)
  | none => none

end Numeral

namespace Json

mutual

def depth : Json → Nat
  | array items => depthItems items + 1
  | object members => depthMembers members + 1
  | _ => 0

def depthItems : List Json → Nat
  | [] => 0
  | v :: rest => max (depth v) (depthItems rest)

def depthMembers : List (Option String × Json) → Nat
  | [] => 0
  | (_, v) :: rest => max (depth v) (depthMembers rest)

end

end Json

inductive Value where
  | null
  | bool (b : Bool)
  | integer (n : Int)
  | decimal (x : Double)
  | text (s : String)
  | list (items : List Value)
  | table (entries : List (String × Value))

namespace Value

inductive Kind where
  | null
  | bool (b : Bool)
  | integer (n : Int)
  | decimal (x : Double)
  | text (s : String)
  | list
  | table
deriving DecidableEq, Repr

namespace Kind

def describe : Kind → String
  | null => "null"
  | bool b => "boolean `" ++ Text.ofBool b ++ "`"
  | integer n => "integer `" ++ n.repr ++ "`"
  | decimal x => "floating point `" ++ x.pointText ++ "`"
  | text s => "string " ++ Text.inspect s
  | list => "sequence"
  | table => "map"

end Kind

def kind : Value → Kind
  | null => .null
  | bool b => .bool b
  | integer n => .integer n
  | decimal x => .decimal x
  | text s => .text s
  | list _ => .list
  | table _ => .table

/-- The last entry under a key. -/
def lookup? (key : String) : List (String × Value) → Option Value
  | [] => none
  | (k, v) :: rest =>
    match lookup? key rest with
    | some w => some w
    | none => if k = key then some v else none

def putEntry {α : Type} (key : String) (x : α) : List (String × α) → List (String × α)
  | [] => [(key, x)]
  | (k, old) :: rest => if k = key then (k, x) :: rest else (k, old) :: putEntry key x rest

mutual

def ofJson? : Json → Option Value
  | .null => some null
  | .bool b => some (bool b)
  | .number n =>
    match n.integer? with
    | some k => some (integer k)
    | none => n.double?.map decimal
  | .string s => s.map text
  | .array items => (ofItems? items).map list
  | .object members => (ofMembers? members).map table

def ofItems? : List Json → Option (List Value)
  | [] => some []
  | v :: rest =>
    match ofJson? v, ofItems? rest with
    | some x, some xs => some (x :: xs)
    | _, _ => none

def ofMembers? : List (Option String × Json) → Option (List (String × Value))
  | [] => some []
  | (k, v) :: rest =>
    match k, ofJson? v, ofMembers? rest with
    | some key, some x, some xs => some ((key, x) :: xs)
    | _, _, _ => none

end

theorem lookup?_append (key : String) (a b : List (String × Value)) :
    lookup? key (a ++ b) = (lookup? key b).or (lookup? key a) := by
  induction a with
  | nil => simp [lookup?]
  | cons entry a ih =>
    obtain ⟨k, v⟩ := entry
    simp only [List.cons_append, lookup?, ih]
    cases lookup? key b <;> simp

end Value
end AnnotatedSource
