import AnnotatedSource.Value

set_option autoImplicit false

namespace AnnotatedSource.Yaml

/-- How a scalar is written. Only what is written plainly may be other than text. -/
inductive Style where
  | plain
  | quoted
  | literal
  | folded
deriving DecidableEq, Repr

abbrev Tag := List Char

namespace Tag

def common (name : String) : Tag := "tag:yaml.org,2002:".toList ++ name.toList

def null : Tag := common "null"

def bool : Tag := common "bool"

def int : Tag := common "int"

def float : Tag := common "float"

def none : Tag := ['!']

def bytes (t : Tag) : ByteArray := ⟨(t.map (·.toNat.toUInt8)).toArray⟩

def isOwn (t : Tag) : Bool := t.head? == some '!'

def namesType (t : Tag) : Bool := t.isOwn && (Text.Utf8.decode? (bytes t)).isSome

end Tag

inductive Node (α : Type) where
  | reference (target : α)
  | scalar (anchor : Option α) (tag : Option Tag) (style : Style) (text : String)
  | sequence (anchor : Option α) (tag : Option Tag) (items : List (Node α))
  | mapping (anchor : Option α) (tag : Option Tag) (entries : List (Node α × Node α))

abbrev Anchors := List (String × Nat)

namespace Anchors

/-- The number of a name given here counts the names given before. A name given again gets a new one,
    which it may share with a later name. -/
def give (name : String) (known : Anchors) : Nat × Anchors :=
  (known.length, (name, known.length) :: known.filter (·.1 != name))

def give? (name : Option String) (known : Anchors) : Option Nat × Anchors :=
  match name with
  | some name => (some (give name known).1, (give name known).2)
  | none => (none, known)

end Anchors

namespace Node

def absent {α : Type} : Node α := scalar none none .plain ""

mutual

def number (known : Anchors) : Node String → Option (Node Nat × Anchors)
  | reference name => (known.lookup name).map (reference ·, known)
  | scalar anchor tag style text =>
    let (anchor, known) := known.give? anchor
    some (scalar anchor tag style text, known)
  | sequence anchor tag items =>
    let (anchor, known) := known.give? anchor
    (numberItems known items).map fun (items, known) => (sequence anchor tag items, known)
  | mapping anchor tag entries =>
    let (anchor, known) := known.give? anchor
    (numberEntries known entries).map fun (entries, known) => (mapping anchor tag entries, known)

def numberItems (known : Anchors) : List (Node String) → Option (List (Node Nat) × Anchors)
  | [] => some ([], known)
  | n :: rest =>
    match number known n with
    | some (n, known) => (numberItems known rest).map fun (rest, known) => (n :: rest, known)
    | none => none

def numberEntries (known : Anchors) :
    List (Node String × Node String) → Option (List (Node Nat × Node Nat) × Anchors)
  | [] => some ([], known)
  | (k, v) :: rest =>
    match number known k with
    | some (k, known) =>
      match number known v with
      | some (v, known) =>
        (numberEntries known rest).map fun (rest, known) => ((k, v) :: rest, known)
      | none => none
    | none => none

end

mutual

def anchored : Node Nat → List (Nat × Node Nat)
  | reference _ => []
  | scalar anchor tag style text => anchor.toList.map (·, scalar anchor tag style text)
  | sequence anchor tag items =>
    anchor.toList.map (·, sequence anchor tag items) ++ anchoredItems items
  | mapping anchor tag entries =>
    anchor.toList.map (·, mapping anchor tag entries) ++ anchoredEntries entries

def anchoredItems : List (Node Nat) → List (Nat × Node Nat)
  | [] => []
  | n :: rest => anchored n ++ anchoredItems rest

def anchoredEntries : List (Node Nat × Node Nat) → List (Nat × Node Nat)
  | [] => []
  | (k, v) :: rest => anchored k ++ anchored v ++ anchoredEntries rest

end

mutual

/-- Scalars and aliases count once, collections where they begin and where they end. -/
def weight {α : Type} : Node α → Nat
  | reference _ => 1
  | scalar .. => 1
  | sequence _ _ items => weightItems items + 2
  | mapping _ _ entries => weightEntries entries + 2

def weightItems {α : Type} : List (Node α) → Nat
  | [] => 0
  | n :: rest => weight n + weightItems rest

def weightEntries {α : Type} : List (Node α × Node α) → Nat
  | [] => 0
  | (k, v) :: rest => weight k + weight v + weightEntries rest

end

end Node

structure Document where
  root : Node Nat
  anchored : List (Nat × Node Nat)

namespace Document

def ofNode? (n : Node String) : Option Document :=
  (n.number []).map fun (root, _) => ⟨root, root.anchored⟩

/-- Of the parts that share a number the last one counts, even for aliases before it. -/
def target? (d : Document) (number : Nat) : Option (Node Nat) :=
  (d.anchored.filter (·.1 == number)).getLast?.map (·.2)

end Document

def isNullWord (text : String) : Bool :=
  text == "~" || text == "null" || text == "Null" || text == "NULL"

def isNullText (text : String) : Bool := text == "" || isNullWord text

def truth? (text : String) : Option Bool :=
  if text == "true" || text == "True" || text == "TRUE" then some true
  else if text == "false" || text == "False" || text == "FALSE" then some false
  else none

/-- Digits after a superfluous zero, which are not taken for a number. -/
def hasExtraZero (text : List Char) : Bool :=
  match (Double.unsigned text).2 with
  | '0' :: d :: rest => (d :: rest).all Text.isDecimal
  | _ => false

def natural? : List Char → Option Nat
  | '0' :: 'x' :: digits => Text.number? 16 digits
  | '0' :: 'o' :: digits => Text.number? 8 digits
  | '0' :: 'b' :: digits => Text.number? 2 digits
  | digits => if hasExtraZero digits then none else Text.number? 10 digits

def integer? (text : List Char) : Option Int :=
  let (negative, digits) := Double.unsigned text
  (natural? digits).map fun n => if negative then -(n : Int) else n

def isWord (n : Int) : Bool := decide (-(Word.signedBound : Int) ≤ n) && decide (n < Word.bound)

def isDoubleWord (n : Int) : Bool :=
  decide (-0x80000000000000000000000000000000 ≤ n) && decide (n < 0x100000000000000000000000000000000)

def double? (text : List Char) : Option Double :=
  let (negative, rest) := Double.unsigned text
  if rest = ".inf".toList ∨ rest = ".Inf".toList ∨ rest = ".INF".toList then
    some (.infinite negative)
  else if text = ".nan".toList ∨ text = ".NaN".toList ∨ text = ".NAN".toList then some .nan
  else Double.ofText? text

def ofDouble : Double → Value
  | .finite negative size => .decimal (.finite negative size)
  | _ => .null

def doubleOrText (text : String) : Value :=
  if hasExtraZero text.toList then .text text
  else ((double? text.toList).map ofDouble).getD (.text text)

/-- The untyped value of a plain scalar; none for a whole number of 65 to 128 bits. -/
def plainValue? (text : String) : Option Value :=
  if isNullText text then some .null
  else
    match truth? text with
    | some b => some (.bool b)
    | none =>
      match integer? text.toList with
      | some n =>
        if isWord n then some (.integer n)
        else if isDoubleWord n then none
        else some (doubleOrText text)
      | none => some (doubleOrText text)

/-- The untyped value of a scalar. A tag of the document's own has none; one of the common set for
    null, truth values or numbers wants the text to be such a thing however it is written; with any
    other the scalar is a text. -/
def scalarValue? (tag : Option Tag) (style : Style) (text : String) : Option Value :=
  match tag with
  | none => if style = .plain then plainValue? text else some (.text text)
  | some tag =>
    if tag.namesType then none
    else if tag = .bool then (truth? text).map .bool
    else if tag = .int then ((integer? text.toList).filter isWord).map .integer
    else if tag = .float then (double? text.toList).map ofDouble
    else if tag = .null then if isNullWord text then some .null else none
    else if tag.isOwn ∧ style = .plain then plainValue? text
    else some (.text text)

def isBare (expected : Tag) (tag : Option Tag) (style : Style) : Bool :=
  style == .plain || (style == .literal && tag == some expected)

end AnnotatedSource.Yaml
