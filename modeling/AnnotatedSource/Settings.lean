import AnnotatedSource.Lexer
import AnnotatedSource.Render
import AnnotatedSource.Toml.Reader

set_option autoImplicit false

/-!
# Settings

How sources are annotated and shown. Each layer of settings wins over the layers before it, setting
by setting, and single settings given by their keys win over all layers. Only what has won is read,
so a value that a later layer replaces may be anything. A dotted key such as `render.offsets` or
`render[0]` leads through tables and lists to the place of a setting, and keys are told apart without
regard to case.
-/
namespace AnnotatedSource

namespace Value

def flagWord? (s : String) : Option Bool :=
  let word := s.toLower
  if word ∈ ["true", "on", "yes"] then some true
  else if word ∈ ["false", "off", "no"] then some false
  else none

def looseText? : Value → Option String
  | text s => some s
  | bool b => some (Text.ofBool b)
  | integer n => some n.repr
  | decimal x => some x.plainText
  | _ => none

def looseFlag? : Value → Option Bool
  | bool b => some b
  | integer n => some (n != 0)
  | decimal x => some !x.isZero
  | text s => if s = "1" then some true else if s = "0" then some false else flagWord? s
  | _ => none

def wordOfText? (s : String) : Option Nat :=
  let digits :=
    match s.toList with
    | '+' :: digits => digits
    | digits => digits
  (Text.number? 10 digits).filter Word.holds

def looseWord? : Value → Option Nat
  | integer n => if 0 ≤ n then some n.toNat else none
  | bool b => some b.toNat
  | decimal x => some x.toWord
  | text s => (flagWord? s).elim (wordOfText? s) fun b => some b.toNat
  | _ => none

/-- The one of several named choices that a text names in any case. A table of one entry stands for its
    key. -/
def choice? {α : Type} (name : α → String) (choices : List α) : Value → Option α
  | text s => choices.find? fun choice => name choice == s.toLower
  | table [(key, _)] => choices.find? fun choice => name choice == key.toLower
  | _ => none

def unit? (v : Value) : Option OffsetUnit := choice? OffsetUnit.name [.utf8, .utf16] v

def verbosity? (v : Value) : Option Verbosity := choice? Verbosity.name Verbosity.all v

/-- A field of a section, which is a table of its fields by their keys or a list of them in order. -/
def field? (record : Value) (position : Nat) (key : String) : Option Value :=
  match record with
  | table entries => lookup? key entries
  | list items => items[position]?
  | _ => none

def entries : Value → List (String × Value)
  | table entries => entries
  | _ => []

def items : Value → List Value
  | list items => items
  | _ => []

mutual

/-- A later value over an earlier one. An empty table takes nothing away. The keys of the later value are
    brought to lower case, except within its lists. -/
def merge (earlier : Option Value) : Value → Value
  | table later => mergeEntries (earlier.getD (table [])) later
  | later => later

def mergeEntries (earlier : Value) : List (String × Value) → Value
  | [] => earlier
  | (key, v) :: rest =>
    let entry := putEntry key.toLower (merge (lookup? key.toLower earlier.entries) v) earlier.entries
    mergeEntries (table entry) rest

end

theorem lookup?_putEntry_of_ne {key other : String} (h : key ≠ other) (v : Value)
    (entries : List (String × Value)) :
    lookup? other (putEntry key v entries) = lookup? other entries := by
  induction entries with
  | nil => simp [putEntry, lookup?, h]
  | cons entry entries ih =>
    obtain ⟨k, old⟩ := entry
    by_cases hk : k = key
    · simp [putEntry, hk, lookup?, h]
    · simp [putEntry, hk, lookup?, ih]

end Value

inductive PlaceStep where
  | entry (key : String)
  /-- An index below zero counts from the end, and beyond the start it means an item put in front. -/
  | item (index : Int)
deriving DecidableEq, Repr

/-- Never empty when read from a text, and the first step is an entry. -/
abbrev Place := List PlaceStep

namespace Place

def isNameChar (c : Char) : Bool := c.isAlphanum || c == ' ' || c == '_' || c == '-'

def name? (text : List Char) : Option (String × List Char) :=
  match text.takeWhile isNameChar with
  | [] => none
  | name => some ((String.ofList name).toLower, text.dropWhile isNameChar)

def index? (text : List Char) : Option (Int × List Char) :=
  let (negative, unsigned) : Bool × List Char :=
    match text.dropWhile Text.isBlank with
    | '-' :: rest => (true, rest)
    | rest => (false, rest)
  let behind := (unsigned.dropWhile Text.isDecimal).dropWhile Text.isBlank
  match Text.number? 10 (unsigned.takeWhile Text.isDecimal), behind with
  | some n, ']' :: rest =>
    let index : Int := if negative then -(n : Int) else n
    if Word.holdsSigned index then some (index, rest) else none
  | _, _ => none

def steps? (fuel : Nat) (text : List Char) : Option Place :=
  match fuel, text with
  | _, [] => some []
  | 0, _ => none
  | fuel + 1, '.' :: rest =>
    match name? rest with
    | some (name, after) => (steps? fuel after).map (.entry name :: ·)
    | none => none
  | fuel + 1, '[' :: rest =>
    match index? rest with
    | some (index, after) => (steps? fuel after).map (.item index :: ·)
    | none => none
  | _ + 1, _ => none

def ofText? (text : String) : Option Place :=
  match name? text.toList with
  | some (name, rest) => (steps? rest.length rest).map (.entry name :: ·)
  | none => none

/-- A key of a document is a place, and where it is none it names an entry itself. -/
def ofKey (key : String) : Place := (ofText? key).getD [.entry key.toLower]

def padded (index : Int) (items : List Value) : Nat × List Value :=
  if 0 ≤ index then
    (index.toNat, items ++ List.replicate (index.toNat + 1 - items.length) .null)
  else
    let back := (-index).toNat
    (items.length - back, List.replicate (back - items.length) .null ++ items)

def put (v : Value) : Place → Value → Value
  | [], _ => v
  | [.entry key], outer =>
    .table (Value.putEntry key (Value.merge (Value.lookup? key outer.entries) v) outer.entries)
  | .entry key :: rest, outer =>
    .table (Value.putEntry key (put v rest ((Value.lookup? key outer.entries).getD .null)) outer.entries)
  | .item index :: rest, outer =>
    let (position, items) := padded index outer.items
    .list (items.set position (put v rest (items[position]?.getD .null)))

end Place

structure Settings where
  /-- The release of the lexer that made the recordings; the latest if it is not known. -/
  release : Option String := none
  format : String := "tag"
  elide : Bool := true
  unit : OffsetUnit := .utf8
  labelWidth : Nat := Outline.defaultWidth
  verbosity : Verbosity := .warn
deriving DecidableEq, Repr

inductive SettingsError where
  | unreadable (path : String) (fault : ReadFault)
  | malformedFile (path : String)
  | malformedKey (key : String)
  | unsuitable (key : String)
deriving DecidableEq, Repr

namespace SettingsError

def message : SettingsError → String
  | unreadable path fault => "cannot read " ++ path ++ ": " ++ fault.message
  | malformedFile path => path ++ " is not a settings file"
  | malformedKey key => "no setting can have the key " ++ Text.inspect key
  | unsuitable key => "unsuitable value for " ++ key

end SettingsError

/-- A file of settings. One that is not required counts only if it is there. -/
structure SettingsFile where
  path : String
  required : Bool

namespace SettingsFile

/-- The path up to its last name, behind which slashes and points that stand for no name may come; none
    if it leads up or to the directory it starts from. -/
def stem? (path : String) : Option String :=
  match (Text.splitOn '/' path.toList).reverse.dropWhile fun name => name == [] || name == ['.'] with
  | [] => none
  | name :: names =>
    if name = ['.', '.'] then none
    else some ("/".intercalate ((name :: names).reverse.map String.ofList))

def candidates (path : String) : List String :=
  path :: (stem? path).toList.map (· ++ ".toml")

/-- The text of the first candidate at which a file stands. If that file cannot be read, no later one is tried. -/
def firstText (read : FileReader) : List String → Except ReadFault String
  | [] => .error .notFound
  | path :: rest =>
    match read.lossyText path with
    | .ok text => .ok text
    | .error fault => if fault.isAbsence then firstText read rest else .error fault

def contents (read : FileReader) (path : String) : Except ReadFault String :=
  firstText read (candidates path)

def layer (read : FileReader) (f : SettingsFile) :
    Except SettingsError (List (String × Value)) :=
  match contents read f.path with
  | .error fault => if f.required then .error (.unreadable f.path fault) else .ok []
  | .ok text =>
    match Toml.read? text with
    | some entries => .ok entries
    | none => .error (.malformedFile f.path)

end SettingsFile

namespace Settings

def builtIn : List (String × Value) := [
  ("lexer", .table []),
  ("render", .table [("format", .text "tag"), ("elide_empty_text", .bool true), ("offsets", .text "utf8")]),
  ("treeviz", .table [("label_width", .integer Outline.defaultWidth)]),
  ("log", .table [("level", .text "warn")])]

def putLayer (below : Value) (layer : List (String × Value)) : Value :=
  layer.foldl (fun v (key, setting) => Place.put setting (Place.ofKey key) v) below

def putAll (below : Value) (settings : List (Place × Value)) : Value :=
  settings.foldl (fun v (place, setting) => Place.put setting place v) below

def combine (layers : List (List (String × Value))) (settings : List (Place × Value)) : Value :=
  putAll ((builtIn :: layers).foldl putLayer (.table [])) settings

def suitable {α : Type} (key : String) : Option α → Except SettingsError α
  | some x => .ok x
  | none => .error (.unsuitable key)

/-- The release may be left out of a table, but not out of a list. -/
def releaseOf? : Value → Option (Option String)
  | .table entries =>
    match Value.lookup? "version" entries with
    | none | some .null => some none
    | some v => v.looseText?.map some
  | .list (.null :: _) => some none
  | .list (v :: _) => v.looseText?.map some
  | _ => none

/-- Everything but the release must be there; what is not a setting is ignored. -/
def ofValue (v : Value) : Except SettingsError Settings := do
  let lexer ← suitable "lexer" (Value.lookup? "lexer" v.entries)
  let render ← suitable "render" (Value.lookup? "render" v.entries)
  let treeviz ← suitable "treeviz" (Value.lookup? "treeviz" v.entries)
  let log ← suitable "log" (Value.lookup? "log" v.entries)
  return {
    release := ← suitable "lexer.version" (releaseOf? lexer)
    format := ← suitable "render.format" ((render.field? 0 "format").bind Value.looseText?)
    elide := ← suitable "render.elide_empty_text" ((render.field? 1 "elide_empty_text").bind Value.looseFlag?)
    unit := ← suitable "render.offsets" ((render.field? 2 "offsets").bind Value.unit?)
    labelWidth := ← suitable "treeviz.label_width" ((treeviz.field? 0 "label_width").bind Value.looseWord?)
    verbosity := ← suitable "log.level" ((log.field? 0 "level").bind Value.verbosity?) }

def ofLayers (layers : List (List (String × Value))) (settings : List (Place × Value)) :
    Except SettingsError Settings :=
  ofValue (combine layers settings)

/-- Single settings by their keys. One without a value leaves the layers alone, and its key is not
    looked at. -/
def places : List (String × Option Value) → Except SettingsError (List (Place × Value))
  | [] => .ok []
  | (_, none) :: rest => places rest
  | (key, some v) :: rest =>
    match Place.ofText? key with
    | some place => (places rest).map ((place, v) :: ·)
    | none => .error (.malformedKey key)

def load (read : FileReader) (files : List SettingsFile)
    (overrides : List (String × Option Value)) : Except SettingsError Settings := do
  let settings ← places overrides
  let layers ← files.mapM (SettingsFile.layer read)
  ofLayers layers settings

def annotator (s : Settings) : Except ReleaseError Annotator :=
  match s.release with
  | some release =>
    (Capabilities.ofText release).map fun capabilities => ⟨capabilities, s.unit, s.elide⟩
  | none => .ok ⟨.latest, s.unit, s.elide⟩

def registry (s : Settings) : Registry := Registry.builtIn.register (.outline s.labelWidth)

end Settings
end AnnotatedSource
