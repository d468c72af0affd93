import AnnotatedSource.Forest
import AnnotatedSource.Recording
import AnnotatedSource.Release

set_option autoImplicit false

/-!
# Annotated sources

A recording put on its source: the records that the release reports become marks, the marks are
brought to bytes and checked against the text, nested into a sorted forest, and the source is cut
along it. Each stage finishes before the next begins, so the first fault of the earliest stage is
the one that is told.
-/
namespace AnnotatedSource

inductive PlacementError where
  | malformedExports (fault : RecordFault)
  | unknownForm (discriminant : Int)
  | negativeOffset (field : OffsetField) (value : Int)
  | inverted (span : Span)
  | outOfBounds (span : Span) (length : Nat)
  | splitsCharacter (offset : Nat)
  | crossing (spans : Crossing)
deriving DecidableEq, Repr

namespace PlacementError

def message : PlacementError → String
  | malformedExports fault => "malformed records: exports: " ++ fault.message
  | unknownForm d => "invalid dynamic import discriminant " ++ d.repr
  | negativeOffset field value => "negative offset " ++ value.repr ++ " in field `" ++ field.key ++ "`"
  | inverted span => "span " ++ span.text ++ " ends before it starts"
  | outOfBounds span length => "span " ++ span.text ++ " exceeds source length " ++ length.repr
  | splitsCharacter offset => "offset " ++ offset.repr ++ " is not on a character boundary"
  | crossing spans => "intervals " ++ spans.existing.text ++ " and " ++ spans.inserted.text ++ " cross"

end PlacementError

def offsetOf (field : OffsetField) (value : Int) : Except PlacementError Nat :=
  if 0 ≤ value then .ok value.toNat else .error (.negativeOffset field value)

def spanOf (startField : OffsetField) (start : Int) (stopField : OffsetField) (stop : Int) :
    Except PlacementError Span := do
  let first ← offsetOf startField start
  let last ← offsetOf stopField stop
  return ⟨first, last⟩

namespace ImportRecord

def form (r : ImportRecord) : Except PlacementError ImportForm :=
  match ImportForm.ofDiscriminant? r.discriminant with
  | some form => .ok form
  | none => .error (.unknownForm r.discriminant)

def marks (r : ImportRecord) : Except PlacementError (List TaggedSpan) := do
  let form ← r.form
  let specifier ← spanOf .start r.start .stop r.stop
  let statement ← spanOf .statementStart r.statementStart .statementStop r.statementStop
  let assertion : List TaggedSpan :=
    if 0 ≤ r.assertion then [⟨.point r.assertion.toNat, .assertion⟩] else []
  let keyword : List TaggedSpan :=
    if form = .dynamic then [⟨.point r.discriminant.toNat, .dynamicKeyword⟩] else []
  return ⟨specifier, .specifier r.name⟩ :: ⟨statement, .statement form⟩ :: (assertion ++ keyword)

end ImportRecord

namespace ExportRecord

def marks (r : ExportRecord) : Except PlacementError (List TaggedSpan) := do
  let exported ← spanOf .start r.start .stop r.stop
  if 0 ≤ r.localStart then
    let inner ← spanOf .localStart r.localStart .localStop r.localStop
    return [⟨exported, .exportedName r.name⟩, ⟨inner, .localName r.localName⟩]
  else return [⟨exported, .exportedName r.name⟩]

end ExportRecord

def marksOf (imports : List ImportRecord) (exports : List ExportRecord) :
    Except PlacementError (List TaggedSpan) := do
  let first ← imports.mapM ImportRecord.marks
  let second ← exports.mapM ExportRecord.marks
  return first.flatten ++ second.flatten

theorem offsetOf_eq_ok_iff (field : OffsetField) (value : Int) (n : Nat) :
    offsetOf field value = .ok n ↔ value = n := by
  unfold offsetOf
  split
  · simp only [Except.ok.injEq]; omega
  · simp only [reduceCtorEq, false_iff]; omega

inductive Segment where
  | text (span : Span)
  | annotated (span : Span) (tags : List Tag) (children : List Segment)

namespace Segment

def span : Segment → Span
  | text span => span
  | annotated span _ _ => span

def isEmptyText : Segment → Bool
  | text span => span.isEmpty
  | annotated .. => false

def gap (elide : Bool) (span : Span) : List Segment :=
  if elide && span.isEmpty then [] else [text span]

def withGaps (elide : Bool) (cursor stop : Nat) : List Segment → List Segment
  | [] => gap elide ⟨cursor, stop⟩
  | s :: rest => gap elide ⟨cursor, s.span.start⟩ ++ s :: withGaps elide s.span.stop stop rest

def startsBefore (s t : Segment) : Bool := decide (s.span.start ≤ t.span.start)

/-- A range filled with the given segments in the order of their starts. Where there are none, the
    range is one piece of text even if it is empty. -/
def fill (elide : Bool) (range : Span) : List Segment → List Segment
  | [] => [text range]
  | s :: rest => withGaps elide range.start range.stop (Sorting.sort startsBefore (s :: rest))

mutual

def ofNode (elide : Bool) : Node → Segment
  | ⟨span, tags, children⟩ => annotated span tags (fill elide span (ofNodes elide children))

def ofNodes (elide : Bool) : Forest → List Segment
  | [] => []
  | n :: rest => ofNode elide n :: ofNodes elide rest

end

def ofForest (elide : Bool) (forest : Forest) (range : Span) : List Segment :=
  fill elide range (ofNodes elide forest)

def slice? (source : List Char) (s : Segment) : Option (List Char) := Text.slice? source s.span

mutual

def textOf (source : List Char) : Segment → List Char
  | text span => (Text.slice? source span).getD []
  | annotated _ _ children => concat source children

def concat (source : List Char) : List Segment → List Char
  | [] => []
  | s :: rest => textOf source s ++ concat source rest

end

mutual

def preorderSegment (depth : Nat) : Segment → List (Nat × Segment)
  | text span => [(depth, text span)]
  | annotated span tags children =>
    (depth, annotated span tags children) :: preorderFrom (depth + 1) children

def preorderFrom (depth : Nat) : List Segment → List (Nat × Segment)
  | [] => []
  | s :: rest => preorderSegment depth s ++ preorderFrom depth rest

end

theorem span_ofNode (elide : Bool) (n : Node) : (ofNode elide n).span = n.span := by
  cases n; rfl

theorem ofNodes_eq_map (elide : Bool) (forest : Forest) :
    ofNodes elide forest = forest.map (ofNode elide) := by
  induction forest with
  | nil => rfl
  | cons n rest ih => simp [ofNodes, ih]

end Segment

structure Annotated where
  source : String
  forest : Forest
  segments : List Segment
  facade : Bool
  /-- Unknown if the release does not report it. -/
  moduleSyntax : Option Bool
  capabilities : Capabilities

structure Annotator where
  capabilities : Capabilities := .latest
  unit : OffsetUnit := .utf8
  elide : Bool := false
deriving DecidableEq, Repr

namespace Annotator

def exports (a : Annotator) (r : Recording) : Except PlacementError (List ExportRecord) :=
  if a.capabilities.exportRecords then
    match r.exportRecords with
    | .ok records => .ok records
    | .error fault => .error (.malformedExports fault)
  else .ok []

def marks (a : Annotator) (r : Recording) : Except PlacementError (List TaggedSpan) := do
  let exports ← a.exports r
  marksOf r.imports exports

def byteOf (table : OffsetTable) (span : Span) (offset : Nat) : Except PlacementError Nat :=
  if table.unitLength < offset then .error (.outOfBounds span table.unitLength)
  else
    match table.byteOfUnit? offset with
    | some byte => .ok byte
    | none => .error (.splitsCharacter offset)

def toBytes (table : OffsetTable) (mark : TaggedSpan) : Except PlacementError TaggedSpan := do
  let start ← byteOf table mark.span mark.span.start
  let stop ← byteOf table mark.span mark.span.stop
  return ⟨⟨start, stop⟩, mark.tag⟩

def located (a : Annotator) (source : List Char) (marks : List TaggedSpan) :
    Except PlacementError (List TaggedSpan) :=
  match a.unit with
  | .utf8 => .ok marks
  | .utf16 =>
    let table := OffsetTable.ofText source
    marks.mapM (toBytes table)

def check (source : List Char) (mark : TaggedSpan) : Except PlacementError Unit :=
  if mark.span.stop < mark.span.start then .error (.inverted mark.span)
  else if Text.byteLength source < mark.span.stop then
    .error (.outOfBounds mark.span (Text.byteLength source))
  else if !Text.isBoundary source mark.span.start then .error (.splitsCharacter mark.span.start)
  else if !Text.isBoundary source mark.span.stop then .error (.splitsCharacter mark.span.stop)
  else .ok ()

def placed (a : Annotator) (source : List Char) (marks : List TaggedSpan) :
    Except PlacementError (List TaggedSpan) := do
  let located ← a.located source marks
  located.forM (check source)
  return located

def nested (marks : List TaggedSpan) : Except PlacementError Forest :=
  match Forest.build marks with
  | .ok forest => .ok forest
  | .error spans => .error (.crossing spans)

def annotate (a : Annotator) (source : String) (r : Recording) : Except PlacementError Annotated := do
  let marks ← a.marks r
  let placed ← a.placed source.toList marks
  let forest ← nested placed
  let sorted := forest.sorted
  return {
    source
    forest := sorted
    segments := Segment.ofForest a.elide sorted ⟨0, Text.byteLength source.toList⟩
    facade := r.facade
    moduleSyntax := if a.capabilities.syntaxFlag then r.moduleSyntax else none
    capabilities := a.capabilities }

end Annotator
end AnnotatedSource
