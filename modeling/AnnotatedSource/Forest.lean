import AnnotatedSource.Offsets
import AnnotatedSource.Sorting
import AnnotatedSource.Text.Quoting

set_option autoImplicit false

/-!
# Forests of nested spans

Tagged spans that arrive in any order are nested by containment: a span that is there already
gains the tag, a contained one goes below its container, and a containing one takes the siblings
it contains as its children. Two spans that cross cannot be nested, and inserting the second fails.
-/
namespace AnnotatedSource

inductive ImportForm where
  | static
  | dynamic
  | metadata
deriving DecidableEq, Repr

namespace ImportForm

def name : ImportForm → String
  | static => "static"
  | dynamic => "dynamic"
  | metadata => "meta"

def inspect : ImportForm → String
  | static => "Static"
  | dynamic => "Dynamic"
  | metadata => "Meta"

/-- A recorded discriminant is the offset of a dynamic import, or one of the two markers of the other
    forms. -/
def ofDiscriminant? (d : Int) : Option ImportForm :=
  if 0 ≤ d then some dynamic
  else if d = -1 then some static
  else if d = -2 then some metadata
  else none

theorem ofDiscriminant?_eq_none_iff (d : Int) : ofDiscriminant? d = none ↔ d < -2 := by
  unfold ofDiscriminant?
  split
  · simp; omega
  · split
    · simp; omega
    · split <;> simp <;> omega

end ImportForm

inductive Tag where
  | specifier (value : Option String)
  | statement (form : ImportForm)
  | assertion
  | dynamicKeyword
  | exportedName (value : Option String)
  | localName (value : Option String)
deriving DecidableEq, Repr

namespace Tag

def kind : Tag → String
  | specifier _ => "import-module-specifier"
  | statement _ => "import-statement"
  | assertion => "import-assertion"
  | dynamicKeyword => "dynamic-import"
  | exportedName _ => "export-exported-name"
  | localName _ => "export-local-name"

def kinds (tags : List Tag) : String := String.intercalate " " (tags.map kind)

/-- The tags that stand at a place and never cover text. -/
def isMarker : Tag → Bool
  | assertion | dynamicKeyword => true
  | _ => false

def quoteName : Option String → String
  | some value => Text.quote value
  | none => "null"

def describe : Tag → String
  | specifier value => "Import Module Specifier: " ++ quoteName value
  | statement form => "Import Statement (type: " ++ form.name ++ ")"
  | assertion => "Import Assertion Start Position"
  | dynamicKeyword => "Dynamic Import Start Position"
  | exportedName value => "Export Exported Name: " ++ quoteName value
  | localName value => "Export Local Name: " ++ quoteName value

def inspectName : Option String → String
  | some value => "Some(" ++ Text.inspect value ++ ")"
  | none => "None"

def inspect : Tag → String
  | specifier value => "ImportModuleSpecifier \x7b value: " ++ inspectName value ++ " \x7d"
  | statement form => "ImportStatement \x7b kind: " ++ form.inspect ++ " \x7d"
  | assertion => "ImportAssertion"
  | dynamicKeyword => "DynamicImport"
  | exportedName value => "ExportExportedName \x7b value: " ++ inspectName value ++ " \x7d"
  | localName value => "ExportLocalName \x7b value: " ++ inspectName value ++ " \x7d"

end Tag

structure TaggedSpan where
  span : Span
  tag : Tag
deriving DecidableEq, Repr

structure Node where
  span : Span
  tags : List Tag
  children : List Node

abbrev Forest := List Node

structure Crossing where
  existing : Span
  inserted : Span
deriving DecidableEq, Repr

namespace Forest

/-- Adds a node at this level, around the siblings that its span contains. No sibling contains it. If
    one crosses it the level stays as it is. -/
def enclose (new : TaggedSpan) (level : Forest) : Option Crossing × Forest :=
  match level.find? (·.span.crosses new.span) with
  | some sibling => (some ⟨sibling.span, new.span⟩, level)
  | none =>
    (none, level.filter (fun n => !new.span.contains n.span) ++
      [⟨new.span, [new.tag], level.filter fun n => new.span.contains n.span⟩])

mutual

def insertWithin (new : TaggedSpan) : Node → Option Crossing × Node
  | ⟨span, tags, children⟩ =>
    if span = new.span then (none, ⟨span, tags ++ [new.tag], children⟩)
    else
      match insertBelow new children with
      | some (fault, level) => (fault, ⟨span, tags, level⟩)
      | none =>
        let (fault, level) := enclose new children
        (fault, ⟨span, tags, level⟩)

def insertBelow (new : TaggedSpan) : Forest → Option (Option Crossing × Forest)
  | [] => none
  | n :: rest =>
    if n.span.contains new.span then
      let (fault, n) := insertWithin new n
      some (fault, n :: rest)
    else (insertBelow new rest).map fun (fault, rest) => (fault, n :: rest)

end

/-- Inserts in place: the crossing that the insertion fails on, and the forest as it is left. -/
def attempt (new : TaggedSpan) (forest : Forest) : Option Crossing × Forest :=
  match insertBelow new forest with
  | some result => result
  | none => enclose new forest

def insert (new : TaggedSpan) (forest : Forest) : Except Crossing Forest :=
  match attempt new forest with
  | (none, next) => .ok next
  | (some spans, _) => .error spans

def build (spans : List TaggedSpan) : Except Crossing Forest :=
  spans.foldlM (fun forest new => insert new forest) []

def startsBefore (a b : Node) : Bool := decide (a.span.start ≤ b.span.start)

/-- By ascending start; siblings that start together keep their order. -/
def sortByStart (level : Forest) : Forest := Sorting.sort startsBefore level

mutual

def sortNode : Node → Node
  | ⟨span, tags, children⟩ => ⟨span, tags, sortByStart (sortNodes children)⟩

def sortNodes : Forest → Forest
  | [] => []
  | n :: rest => sortNode n :: sortNodes rest

end

def sorted (forest : Forest) : Forest := sortByStart (sortNodes forest)

mutual

def nodeSize : Node → Nat
  | ⟨_, _, children⟩ => size children + 1

def size : Forest → Nat
  | [] => 0
  | n :: rest => nodeSize n + size rest

end

mutual

def preorderNode (depth : Nat) : Node → List (Nat × Node)
  | ⟨span, tags, children⟩ => (depth, ⟨span, tags, children⟩) :: preorderFrom (depth + 1) children

def preorderFrom (depth : Nat) : Forest → List (Nat × Node)
  | [] => []
  | n :: rest => preorderNode depth n ++ preorderFrom depth rest

end

def preorder (forest : Forest) : List (Nat × Node) := preorderFrom 0 forest

mutual

def pathWithin (offset : Nat) : Node → List Node
  | ⟨span, tags, children⟩ => ⟨span, tags, children⟩ :: pathAt offset children

def pathAt (offset : Nat) : Forest → List Node
  | [] => []
  | n :: rest =>
    if n.span.contains (.point offset) then pathWithin offset n else pathAt offset rest

end

def taggedSpans (forest : Forest) : List TaggedSpan :=
  (preorder forest).flatMap fun (_, n) => n.tags.map (⟨n.span, ·⟩)

theorem sortByStart_perm (level : Forest) : (sortByStart level).Perm level := Sorting.sort_perm _ _

theorem sortByStart_pairwise (level : Forest) :
    (sortByStart level).Pairwise (·.span.start ≤ ·.span.start) :=
  Sorting.sort_pairwise_key (·.span.start) (fun _ _ => rfl) level

theorem sortNodes_eq_map (forest : Forest) : sortNodes forest = forest.map sortNode := by
  induction forest with
  | nil => rfl
  | cons n rest ih => simp [sortNodes, ih]

end Forest
end AnnotatedSource
