set_option autoImplicit false

namespace AnnotatedSource

namespace Text

def hexValue? (c : Char) : Option Nat :=
  if '0' ≤ c ∧ c ≤ '9' then some (c.toNat - 48)
  else if 'a' ≤ c ∧ c ≤ 'f' then some (c.toNat - 87)
  else if 'A' ≤ c ∧ c ≤ 'F' then some (c.toNat - 55)
  else none

def digitValue? (radix : Nat) (c : Char) : Option Nat :=
  (hexValue? c).filter (· < radix)

def isDecimal (c : Char) : Bool := decide ('0' ≤ c) && decide (c ≤ '9')

def isBlank (c : Char) : Bool := c == ' ' || c == '\t'

def digitsFrom? (radix value : Nat) : List Char → Option Nat
  | [] => some value
  | c :: text =>
    match digitValue? radix c with
    | some d => digitsFrom? radix (value * radix + d) text
    | none => none

def number? (radix : Nat) : List Char → Option Nat
  | [] => none
  | c :: text => digitsFrom? radix 0 (c :: text)

/-- The pieces between the separators, one more than there are separators. -/
def splitOn (separator : Char) : List Char → List (List Char)
  | [] => [[]]
  | c :: text =>
    if c = separator then [] :: splitOn separator text
    else
      match splitOn separator text with
      | piece :: rest => (c :: piece) :: rest
      | [] => [[c]]

theorem splitOn_ne_nil (separator : Char) (text : List Char) : splitOn separator text ≠ [] := by
  cases text with
  | nil => simp [splitOn]
  | cons c text =>
    unfold splitOn
    split
    · simp
    · split <;> simp

def isHighSurrogate (u : Nat) : Bool := decide (0xd800 ≤ u) && decide (u < 0xdc00)

def isLowSurrogate (u : Nat) : Bool := decide (0xdc00 ≤ u) && decide (u < 0xe000)

def isSurrogate (u : Nat) : Bool := isHighSurrogate u || isLowSurrogate u

def codePoint? (digits : List Char) : Option Char :=
  match number? 16 digits with
  | some n => if isSurrogate n || decide (0x10ffff < n) then none else some (Char.ofNat n)
  | none => none

/-- Joins surrogate pairs; none if a surrogate has no partner. -/
def joinUnits : List Nat → Option (List Char)
  | [] => some []
  | [u] => if isSurrogate u then none else some [Char.ofNat u]
  | u :: v :: rest =>
    if isHighSurrogate u && isLowSurrogate v then
      (joinUnits rest).map (Char.ofNat (0x10000 + (u - 0xd800) * 0x400 + (v - 0xdc00)) :: ·)
    else if isSurrogate u then none
    else (joinUnits (v :: rest)).map (Char.ofNat u :: ·)

theorem toNat_lt (c : Char) : c.toNat < 0x110000 := by
  rcases c.valid with h | ⟨-, h⟩
  · exact Nat.lt_trans h (by decide)
  · exact h

theorem isSurrogate_toNat (c : Char) : isSurrogate c.toNat = false := by
  have h := c.valid
  simp only [isSurrogate, isHighSurrogate, isLowSurrogate]
  rcases h with h | ⟨h, _⟩
  · have : c.toNat < 0xd800 := h
    simp; omega
  · have : 0xdfff < c.toNat := h
    simp; omega

theorem joinUnits_scalar (c : Char) (units : List Nat) :
    joinUnits (c.toNat :: units) = (joinUnits units).map (c :: ·) := by
  have plain := isSurrogate_toNat c
  have high : isHighSurrogate c.toNat = false := (Bool.or_eq_false_iff.1 plain).1
  cases units with
  | nil => simp [joinUnits, plain, Char.ofNat_toNat]
  | cons u units => simp [joinUnits, plain, high, Char.ofNat_toNat]

theorem joinUnits_of_scalars (text : List Char) :
    joinUnits (text.map Char.toNat) = some text := by
  induction text with
  | nil => rfl
  | cons c text ih => rw [List.map_cons, joinUnits_scalar, ih, Option.map_some]

end Text

namespace Text.Utf8

def replacement : Char := '\ufffd'

structure Bounds where
  low : Nat
  high : Nat

def Bounds.hold (b : Bounds) (byte : Nat) : Bool := decide (b.low ≤ byte) && decide (byte ≤ b.high)

def following : Bounds := ⟨0x80, 0xbf⟩

/-- The bits that a first byte gives and the bounds of the bytes behind it. They leave out spellings that are
    too long, surrogates, and what lies beyond the last code point. -/
def lead? (byte : Nat) : Option (Nat × List Bounds) :=
  if byte < 0x80 then some (byte, [])
  else if byte < 0xc2 then none
  else if byte < 0xe0 then some (byte - 0xc0, [following])
  else if byte < 0xf0 then
    let second : Bounds := ⟨if byte = 0xe0 then 0xa0 else 0x80, if byte = 0xed then 0x9f else 0xbf⟩
    some (byte - 0xe0, [second, following])
  else if byte < 0xf5 then
    let second : Bounds := ⟨if byte = 0xf0 then 0x90 else 0x80, if byte = 0xf4 then 0x8f else 0xbf⟩
    some (byte - 0xf0, [second, following, following])
  else none

/-- Where reading stands: the bits of an unfinished character and the bounds of the bytes it lacks. -/
structure Partial where
  bits : Nat
  lacking : List Bounds

namespace Partial

def none : Partial := ⟨0, []⟩

def first (byte : Nat) : List Char × Partial :=
  match lead? byte with
  | some (bits, []) => ([Char.ofNat bits], none)
  | some (bits, lacking) => ([], ⟨bits, lacking⟩)
  | .none => ([replacement], none)

def step (p : Partial) (byte : Nat) : List Char × Partial :=
  match p.lacking with
  | [] => first byte
  | bounds :: rest =>
    if bounds.hold byte then
      let bits := p.bits * 64 + (byte - 0x80)
      if rest.isEmpty then ([Char.ofNat bits], none) else ([], ⟨bits, rest⟩)
    else
      let (text, next) := first byte
      (replacement :: text, next)

def run (p : Partial) : List UInt8 → List Char
  | [] => if p.lacking.isEmpty then [] else [replacement]
  | byte :: rest =>
    let (text, next) := p.step byte.toNat
    text ++ next.run rest

end Partial

def decodeLossy (bytes : ByteArray) : String := String.ofList (Partial.none.run bytes.toList)

def decode? (bytes : ByteArray) : Option String := String.fromUTF8? bytes

end Text.Utf8
end AnnotatedSource
