import AnnotatedSource.Json.Reader
import AnnotatedSource.Lexer
import AnnotatedSource.Yaml.Reader

set_option autoImplicit false

namespace AnnotatedSource

namespace Yaml

/-- Visits that may fail, with how many aliases may still be followed. -/
abbrev Visit := StateT Nat Option

namespace Visit

def fail {α : Type} : Visit α := fun _ => none

def ofOption {α : Type} (x : Option α) : Visit α := fun left => x.map (·, left)

def follow : Visit Unit
  | 0 => none
  | left + 1 => some ((), left)

end Visit

namespace Document

def followsPerPart : Nat := 100

def resolve (d : Document) : Node Nat → Visit (Node Nat)
  | .reference number => do
    Visit.follow
    Visit.ofOption (d.target? number)
  | n => pure n

def key (d : Document) (n : Node Nat) : Visit String := do
  match ← d.resolve n with
  | .scalar _ _ _ text => pure text
  | _ => Visit.fail

/-- The untyped value of a node with at most `levels` levels of collections. A collection with a tag of
    the document's own has none. -/
def value (d : Document) (levels : Nat) (n : Node Nat) : Visit Value := do
  match (← d.resolve n), levels with
  | .scalar _ tag style text, _ => Visit.ofOption (scalarValue? tag style text)
  | .sequence _ tag items, levels + 1 =>
    if tag.any Tag.namesType then Visit.fail
    else return .list (← items.mapM (d.value levels))
  | .mapping _ tag entries, levels + 1 =>
    if tag.any Tag.namesType then Visit.fail
    else return .table (← entries.mapM fun (k, v) => do return (← d.key k, ← d.value levels v))
  | _, _ => Visit.fail

end Document

def offset? : Node Nat → Option Int
  | .scalar _ tag style text =>
    if isBare .int tag style then (integer? text.toList).filter Word.holdsSigned else none
  | _ => none

/-- Whether a scalar stands for nothing; none if its tag says so and its text does not. -/
def isNull? (tag : Option Tag) (style : Style) (text : String) : Option Bool :=
  if style ≠ .plain then some false
  else
    match tag with
    | none => some (isNullText text)
    | some tag => if tag = .null then if isNullWord text then some true else none else some false

def name? : Node Nat → Option (Option String)
  | .scalar _ tag style text => (isNull? tag style text).map fun null => if null then none else some text
  | _ => none

def fields : FieldReader (Node Nat) := ⟨offset?, name?⟩

def flag? : Node Nat → Option (Option Bool)
  | .scalar _ tag style text =>
    match isNull? tag style text with
    | some true => some none
    | some false => if isBare .bool tag style then (truth? text).map some else none
    | none => none
  | _ => none

namespace Document

def members (d : Document) (entries : List (Node Nat × Node Nat)) :
    Visit (List (String × Node Nat)) :=
  entries.mapM fun (k, v) => do
    let key ← d.key k
    return (key, ← if ImportRecord.keys.contains key then d.resolve v else pure v)

/-- A record is a mapping here, never a list of its fields. -/
def importRecord (d : Document) (n : Node Nat) : Visit ImportRecord := do
  match ← d.resolve n with
  | .mapping _ _ entries =>
    let members ← d.members entries
    Visit.ofOption (ImportRecord.ofMembers? fields members)
  | _ => Visit.fail

def importRecords (d : Document) (n : Node Nat) : Visit (List ImportRecord) := do
  match ← d.resolve n with
  | .sequence _ _ items => items.mapM d.importRecord
  | .scalar _ _ .plain "" => return []
  | _ => Visit.fail

/-- YAML is read one level deeper than JSON. -/
def exports (d : Document) : Option (Node Nat) → Visit Value
  | none => return .list []
  | some n => d.value (Recording.nestingLimit + 1) n

def flag (d : Document) : Option (Node Nat) → Visit (Option Bool)
  | none => return none
  | some n => do Visit.ofOption (flag? (← d.resolve n))

def visit (d : Document) : Visit Recording := do
  match ← d.resolve d.root with
  | .sequence _ _ (first :: rest) =>
    let imports ← d.importRecords first
    let exports ← d.exports rest[0]?
    let facade ← d.flag rest[1]?
    let moduleSyntax ← d.flag rest[2]?
    return ⟨imports, exports, facade.getD false, moduleSyntax⟩
  | _ => Visit.fail

def recording? (d : Document) : Option Recording :=
  (d.visit.run (d.root.weight * followsPerPart)).map (·.1)

end Document

end Yaml

namespace Recording

def ofJsonText (text : String) : Except LexerError Recording :=
  match (Json.read? text).bind Json.recording? with
  | some r => .ok r
  | none => .error .undecodable

def ofYamlText (text : String) : Except LexerError Recording :=
  match (Yaml.read? text).bind Yaml.Document.recording? with
  | some r => .ok r
  | none => .error .undecodable

/-- What stands behind the last point of a file's name; nothing if no other character is before it. -/
def extension (path : String) : String :=
  match ((Text.splitOn '/' path.toList).filter fun piece => piece != [] && piece != ['.']).getLast? with
  | some name =>
    if name = ['.', '.'] then ""
    else
      let ending := (name.reverse.takeWhile (· != '.')).reverse
      if ending.length + 1 < name.length then String.ofList ending else ""
  | none => ""

def ofFile (path : String) (contents : Except ReadFault String) : Except LexerError Recording :=
  match contents with
  | .error fault => .error (.unreadable path fault)
  | .ok text =>
    let ending := extension path
    if ending = "json" then ofJsonText text
    else if ending = "yaml" ∨ ending = "yml" then ofYamlText text
    else .error (.unknownFormat ending)

end Recording
end AnnotatedSource
