set_option autoImplicit false

namespace AnnotatedSource

structure Span where
  start : Nat
  stop : Nat
deriving DecidableEq, Repr, Inhabited

namespace Span

def point (offset : Nat) : Span := ⟨offset, offset⟩

def isPoint (s : Span) : Bool := s.start == s.stop

/-- Nothing lies between the two ends; a span that stops before it starts counts too. -/
def isEmpty (s : Span) : Bool := decide (s.stop ≤ s.start)

/-- A point belongs to the range that starts at it, never to the one that stops there, so where two
    ranges meet a point has one place. A point contains no range, and only itself among points. -/
def contains (outer inner : Span) : Bool :=
  match outer.isPoint, inner.isPoint with
  | true, true => outer.start == inner.start
  | true, false => false
  | false, true => decide (outer.start ≤ inner.start) && decide (inner.start < outer.stop)
  | false, false => decide (outer.start ≤ inner.start) && decide (inner.stop ≤ outer.stop)

def crosses (a b : Span) : Bool :=
  !a.isPoint && !b.isPoint && decide (a.start < b.stop) && decide (b.start < a.stop) &&
    !a.contains b && !b.contains a

def text (s : Span) : String := s.start.repr ++ ".." ++ s.stop.repr

theorem isPoint_point (offset : Nat) : (point offset).isPoint = true := by simp [point, isPoint]

theorem isPoint_iff (s : Span) : s.isPoint = true ↔ s.start = s.stop := by simp [isPoint]

theorem contains_self (s : Span) : s.contains s = true := by
  cases h : s.isPoint <;> simp [contains, h]

theorem crosses_comm (a b : Span) : a.crosses b = b.crosses a := by
  unfold crosses
  cases a.isPoint <;> cases b.isPoint <;> cases a.contains b <;> cases b.contains a <;>
    cases decide (a.start < b.stop) <;> cases decide (b.start < a.stop) <;> rfl

theorem not_crosses_self (s : Span) : s.crosses s = false := by
  simp [crosses, contains_self]

end Span

namespace Text

def byteLength : List Char → Nat
  | [] => 0
  | c :: text => c.utf8Size + byteLength text

def unitSize (c : Char) : Nat := if c.toNat < 0x10000 then 1 else 2

def unitLength : List Char → Nat
  | [] => 0
  | c :: text => unitSize c + unitLength text

def splitAt? : List Char → Nat → Option (List Char × List Char)
  | text, 0 => some ([], text)
  | [], _ + 1 => none
  | c :: text, offset + 1 =>
    if c.utf8Size ≤ offset + 1 then
      (splitAt? text (offset + 1 - c.utf8Size)).map fun (before, after) => (c :: before, after)
    else none

def isBoundary (text : List Char) (offset : Nat) : Bool := (splitAt? text offset).isSome

def slice? (text : List Char) (span : Span) : Option (List Char) :=
  if span.start ≤ span.stop then
    match splitAt? text span.start with
    | some (_, rest) => (splitAt? rest (span.stop - span.start)).map (·.1)
    | none => none
  else none

theorem byteLength_append (a b : List Char) :
    byteLength (a ++ b) = byteLength a + byteLength b := by
  induction a with
  | nil => simp [byteLength]
  | cons c a ih => simp [byteLength, ih, Nat.add_assoc]

theorem unitLength_append (a b : List Char) :
    unitLength (a ++ b) = unitLength a + unitLength b := by
  induction a with
  | nil => simp [unitLength]
  | cons c a ih => simp [unitLength, ih, Nat.add_assoc]

theorem unitSize_pos (c : Char) : 0 < unitSize c := by
  unfold unitSize
  split <;> omega

theorem splitAt?_zero (text : List Char) : splitAt? text 0 = some ([], text) := by
  cases text <;> rfl

theorem splitAt?_append (a b : List Char) : splitAt? (a ++ b) (byteLength a) = some (a, b) := by
  induction a with
  | nil => exact splitAt?_zero b
  | cons c a ih =>
    have hc := c.utf8Size_pos
    obtain ⟨n, hn⟩ : ∃ n, c.utf8Size + byteLength a = n + 1 := ⟨c.utf8Size + byteLength a - 1, by omega⟩
    have hle : c.utf8Size ≤ n + 1 := by omega
    have hsub : n + 1 - c.utf8Size = byteLength a := by omega
    simp [byteLength, hn, splitAt?, hle, hsub, ih]

theorem eq_append_of_splitAt? {text before after : List Char} {offset : Nat}
    (h : splitAt? text offset = some (before, after)) :
    text = before ++ after ∧ byteLength before = offset := by
  induction text generalizing offset before with
  | nil =>
    cases offset with
    | zero => simp [splitAt?] at h; simp [h, byteLength]
    | succ n => simp [splitAt?] at h
  | cons c text ih =>
    cases offset with
    | zero => simp [splitAt?] at h; simp [h, byteLength]
    | succ n =>
      simp only [splitAt?] at h
      split at h
      · next hc =>
        obtain ⟨⟨b, a⟩, hs, heq⟩ := Option.map_eq_some_iff.1 h
        cases heq
        obtain ⟨rfl, hb⟩ := ih hs
        exact ⟨rfl, by simp only [byteLength]; omega⟩
      · simp at h

theorem splitAt?_eq_some_iff {text before after : List Char} {offset : Nat} :
    splitAt? text offset = some (before, after) ↔
      text = before ++ after ∧ byteLength before = offset := by
  constructor
  · exact eq_append_of_splitAt?
  · rintro ⟨rfl, rfl⟩
    exact splitAt?_append before after

end Text

/-- Both count from zero; the column counts bytes. -/
structure Position where
  line : Nat
  column : Nat
deriving DecidableEq, Repr

namespace Position

def text (p : Position) : String := p.line.repr ++ ":" ++ p.column.repr

end Position

inductive OffsetUnit where
  | utf8
  | utf16
deriving DecidableEq, Repr

namespace OffsetUnit

def name : OffsetUnit → String
  | utf8 => "utf8"
  | utf16 => "utf16"

end OffsetUnit

/-- The starts of the lines of a source, and for each of its characters and its end the offset in
    UTF-16 units beside the offset in bytes. -/
structure OffsetTable where
  laterLines : List Nat
  unitStarts : List (Nat × Nat)
  unitLength : Nat

namespace OffsetTable

def linesFrom (base : Nat) : List Char → List Nat
  | [] => []
  | c :: text =>
    if c = '\n' then (base + 1) :: linesFrom (base + 1) text else linesFrom (base + c.utf8Size) text

def unitsFrom (units base : Nat) : List Char → List (Nat × Nat)
  | [] => [(units, base)]
  | c :: text => (units, base) :: unitsFrom (units + Text.unitSize c) (base + c.utf8Size) text

def ofText (source : List Char) : OffsetTable where
  laterLines := linesFrom 0 source
  unitStarts := unitsFrom 0 0 source
  unitLength := Text.unitLength source

def locate (offset : Nat) (line start : Nat) : List Nat → Position
  | [] => ⟨line, offset - start⟩
  | next :: rest => if next ≤ offset then locate offset (line + 1) next rest else ⟨line, offset - start⟩

/-- Defined for every offset: one past the end stands on the last line. -/
def position (table : OffsetTable) (offset : Nat) : Position :=
  locate offset 0 0 table.laterLines

def lineCount (table : OffsetTable) : Nat := table.laterLines.length + 1

def byteOfUnit? (table : OffsetTable) (units : Nat) : Option Nat := table.unitStarts.lookup units

theorem byteOfUnit?_zero (source : List Char) : (ofText source).byteOfUnit? 0 = some 0 := by
  cases source <;> simp [ofText, byteOfUnit?, unitsFrom]

end OffsetTable
end AnnotatedSource
