import AnnotatedSource.Value

set_option autoImplicit false

/-!
# Recordings

A lexer's whole answer for one source. Offsets are signed, since a lexer writes minus one for what is
not there. The list of exports stays an untyped value, since its shape differs between releases: only
a reader that knows the release asks for its records.
-/
namespace AnnotatedSource

structure ImportRecord where
  name : Option String
  start : Int
  stop : Int
  statementStart : Int
  statementStop : Int
  discriminant : Int
  /-- Where the assertion starts; negative if there is none. -/
  assertion : Int
deriving DecidableEq, Repr

structure ExportRecord where
  name : Option String
  localName : Option String
  start : Int
  stop : Int
  localStart : Int
  localStop : Int
deriving DecidableEq, Repr

inductive OffsetField where
  | start
  | stop
  | statementStart
  | statementStop
  | discriminant
  | assertion
  | localStart
  | localStop
deriving DecidableEq, Repr

namespace OffsetField

def key : OffsetField → String
  | start => "s"
  | stop => "e"
  | statementStart => "ss"
  | statementStop => "se"
  | discriminant => "d"
  | assertion => "a"
  | localStart => "ls"
  | localStop => "le"

end OffsetField

/-- How the fields of an import are read from one kind of document; none where the document has
    something else in their place. -/
structure FieldReader (α : Type) where
  offset? : α → Option Int
  name? : α → Option (Option String)

namespace ImportRecord

def keys : List String := ["n", "s", "e", "ss", "se", "d", "a"]

variable {α : Type}

def field? (key : String) (members : List (String × α)) : Option (Option α) :=
  match members.filter (·.1 == key) with
  | [] => some none
  | [(_, v)] => some (some v)
  | _ => none

def offsetField? (reader : FieldReader α) (members : List (String × α)) (field : OffsetField) :
    Option Int :=
  match field? field.key members with
  | some (some v) => reader.offset? v
  | _ => none

/-- Keys in any order, others ignored. The name and the assertion may be left out. -/
def ofMembers? (reader : FieldReader α) (members : List (String × α)) : Option ImportRecord := do
  let name ← match ← field? "n" members with
    | some v => reader.name? v
    | none => some none
  let start ← offsetField? reader members .start
  let stop ← offsetField? reader members .stop
  let statementStart ← offsetField? reader members .statementStart
  let statementStop ← offsetField? reader members .statementStop
  let discriminant ← offsetField? reader members .discriminant
  let assertion ← match ← field? OffsetField.assertion.key members with
    | some v => reader.offset? v
    | none => some (-1)
  return ⟨name, start, stop, statementStart, statementStop, discriminant, assertion⟩

/-- The fields in their order. The assertion may be left out. -/
def ofItems? (reader : FieldReader α) : List α → Option ImportRecord
  | n :: s :: e :: ss :: se :: d :: rest => do
    let name ← reader.name? n
    let start ← reader.offset? s
    let stop ← reader.offset? e
    let statementStart ← reader.offset? ss
    let statementStop ← reader.offset? se
    let discriminant ← reader.offset? d
    let assertion ← match rest with
      | [] => some (-1)
      | [a] => reader.offset? a
      | _ => none
    return ⟨name, start, stop, statementStart, statementStop, discriminant, assertion⟩
  | _ => none

end ImportRecord

inductive Expected where
  | list
  | record
  | offset
  | text
deriving DecidableEq, Repr

namespace Expected

def describe : Expected → String
  | list => "a sequence"
  | record => "struct ExportRecord"
  | offset => "i64"
  | text => "a string"

end Expected

inductive RecordFault where
  | wrongKind (found : Value.Kind) (expected : Expected)
  | outOfRange (n : Int)
  | missing (field : OffsetField)
  | endsAt (index : Nat)
  | tooLong (length : Nat)
deriving DecidableEq, Repr

namespace RecordFault

def message : RecordFault → String
  | wrongKind found expected =>
    "invalid type: " ++ found.describe ++ ", expected " ++ expected.describe
  | outOfRange n =>
    "invalid value: " ++ (Value.Kind.integer n).describe ++ ", expected " ++ Expected.offset.describe
  | missing field => "missing field `" ++ field.key ++ "`"
  | endsAt index =>
    "invalid length " ++ index.repr ++ ", expected " ++ Expected.record.describe ++ " with 6 elements"
  | tooLong length =>
    "invalid length " ++ length.repr ++ ", expected fewer elements in array"

end RecordFault

namespace ExportRecord

def offset : Value → Except RecordFault Int
  | .integer n => if Word.holdsSigned n then .ok n else .error (.outOfRange n)
  | v => .error (.wrongKind v.kind .offset)

def text : Value → Except RecordFault (Option String)
  | .null => .ok none
  | .text s => .ok (some s)
  | v => .error (.wrongKind v.kind .text)

def optional {β : Type} (read : Value → Except RecordFault β) : Option Value → Except RecordFault (Option β)
  | some v => (read v).map some
  | none => .ok none

def required (field : OffsetField) : Option Int → Except RecordFault Int
  | some n => .ok n
  | none => .error (.missing field)

/-- The fields that are there are read first, in the order of their keys. -/
def ofEntries (entries : List (String × Value)) : Except RecordFault ExportRecord := do
  let stop ← optional offset (Value.lookup? OffsetField.stop.key entries)
  let localStop ← optional offset (Value.lookup? OffsetField.localStop.key entries)
  let localName ← optional text (Value.lookup? "ln" entries)
  let localStart ← optional offset (Value.lookup? OffsetField.localStart.key entries)
  let name ← optional text (Value.lookup? "n" entries)
  let start ← optional offset (Value.lookup? OffsetField.start.key entries)
  let start ← required .start start
  let stop ← required .stop stop
  return ⟨name.getD none, localName.getD none, start, stop, localStart.getD (-1), localStop.getD (-1)⟩

def ofItems (items : List Value) : Except RecordFault ExportRecord := do
  let name ← optional text items[0]?
  let localName ← optional text items[1]?
  let start ← match items[2]? with
    | some v => offset v
    | none => .error (.endsAt 2)
  let stop ← match items[3]? with
    | some v => offset v
    | none => .error (.endsAt 3)
  let localStart ← optional offset items[4]?
  let localStop ← optional offset items[5]?
  if 6 < items.length then .error (.tooLong items.length)
  else return ⟨name.getD none, localName.getD none, start, stop, localStart.getD (-1),
    localStop.getD (-1)⟩

def ofValue : Value → Except RecordFault ExportRecord
  | .table entries => ofEntries entries
  | .list items => ofItems items
  | v => .error (.wrongKind v.kind .record)

def listOfValue : Value → Except RecordFault (List ExportRecord)
  | .list items => items.mapM ofValue
  | v => .error (.wrongKind v.kind .list)

end ExportRecord

structure Recording where
  imports : List ImportRecord
  exports : Value
  facade : Bool
  /-- Unknown for releases that do not report it. -/
  moduleSyntax : Option Bool

namespace Recording

def exportRecords (r : Recording) : Except RecordFault (List ExportRecord) :=
  ExportRecord.listOfValue r.exports

/-- Whether there is a list of exports with something in it, of whatever shape. -/
def hasExports (r : Recording) : Bool :=
  match r.exports with
  | .list (_ :: _) => true
  | _ => false

def nestingLimit : Nat := 126

end Recording

namespace Json

def offset? : Json → Option Int
  | number n => n.integer?.filter Word.holdsSigned
  | _ => none

def name? : Json → Option (Option String)
  | null => some none
  | string (some s) => some (some s)
  | _ => none

def fields : FieldReader Json := ⟨offset?, name?⟩

def keyed? : List (Option String × Json) → Option (List (String × Json))
  | [] => some []
  | (some k, v) :: rest => (keyed? rest).map ((k, v) :: ·)
  | (none, _) :: _ => none

def importRecord? : Json → Option ImportRecord
  | object members => (keyed? members).bind (ImportRecord.ofMembers? fields)
  | array items => ImportRecord.ofItems? fields items
  | _ => none

def importRecords? : Json → Option (List ImportRecord)
  | array items => items.mapM importRecord?
  | _ => none

def exports? : Option Json → Option Value
  | none => some (.list [])
  | some v => if v.depth ≤ Recording.nestingLimit then Value.ofJson? v else none

def flag? : Option Json → Option (Option Bool)
  | none | some null => some none
  | some (bool b) => some (some b)
  | _ => none

/-- A list of the parts of a recording, of which only the first must be there. What stands behind the
    fourth is not looked at. -/
def recording? : Json → Option Recording
  | array (first :: rest) => do
    let imports ← importRecords? first
    let exports ← exports? rest[0]?
    let facade ← flag? rest[1]?
    let moduleSyntax ← flag? rest[2]?
    return ⟨imports, exports, facade.getD false, moduleSyntax⟩
  | _ => none

end Json
end AnnotatedSource
