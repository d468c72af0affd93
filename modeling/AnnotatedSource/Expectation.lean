import AnnotatedSource.Forest

set_option autoImplicit false

namespace AnnotatedSource

/-- What is expected of the node at an index among its siblings; what is left out is not checked. -/
structure Expectation where
  index : Nat
  span : Option Span := none
  kinds : Option (List String) := none
  tag : Option Tag := none
  isMarker : Bool := false
  childCount : Option Nat := none
  children : List Expectation := []

/-- Where a check is made is named by the indices that lead there. -/
inductive ExpectationFailure where
  | rootCount (expected : Nat) (found : List Span)
  | noRoot (index count : Nat)
  | noChild (place : String) (index count : Nat)
  | otherSpan (place : String) (found expected : Span)
  | otherKinds (place : String) (found expected : List String)
  | missingTag (place : String) (expected : Tag) (found : List Tag)
  | notMarker (place : String) (found : Span)
  | childCount (place : String) (expected : Nat) (found : List Span)
deriving DecidableEq, Repr

namespace ExpectationFailure

def listed (items : List String) : String := "[" ++ String.intercalate ", " items ++ "]"

def unequal (text left right : String) : String :=
  "assertion `left == right` failed: " ++ text ++ "\n  left: " ++ left ++ "\n right: " ++ right

def message : ExpectationFailure → String
  | rootCount expected found =>
    unequal ("tree: expected " ++ expected.repr ++ " roots, found " ++ found.length.repr ++ ": " ++
      listed (found.map Span.text)) found.length.repr expected.repr
  | noRoot index count => "tree: no root at index " ++ index.repr ++ ", have " ++ count.repr
  | noChild place index count =>
    place ++ ": no child at index " ++ index.repr ++ ", have " ++ count.repr
  | otherSpan place found expected => unequal (place ++ ": span mismatch") found.text expected.text
  | otherKinds place found expected =>
    unequal (place ++ ": tag kinds mismatch") (listed (found.map Text.inspect))
      (listed (expected.map Text.inspect))
  | missingTag place expected found =>
    place ++ ": expected tag " ++ expected.inspect ++ ", found " ++ listed (found.map Tag.inspect)
  | notMarker place found => place ++ ": expected a zero-width node, found " ++ found.text
  | childCount place expected found =>
    unequal (place ++ ": expected " ++ expected.repr ++ " children, found " ++
      listed (found.map Span.text)) found.length.repr expected.repr

end ExpectationFailure

namespace Expectation

def require (holds : Bool) (failure : ExpectationFailure) : Except ExpectationFailure Unit :=
  if holds then .ok () else .error failure

def checkNode (place : String) (n : Node) (e : Expectation) : Except ExpectationFailure Unit := do
  e.span.forM fun span => require (n.span == span) (.otherSpan place n.span span)
  e.kinds.forM fun kinds =>
    require (n.tags.map Tag.kind == kinds) (.otherKinds place (n.tags.map Tag.kind) kinds)
  e.tag.forM fun tag => require (n.tags.contains tag) (.missingTag place tag n.tags)
  require (!e.isMarker || n.span.isPoint) (.notMarker place n.span)
  e.childCount.forM fun count =>
    require (n.children.length == count) (.childCount place count (n.children.map (·.span)))

def rootPlace (index : Nat) : String := "root[" ++ index.repr ++ "]"

def childPlace (place : String) (index : Nat) : String := place ++ ".child[" ++ index.repr ++ "]"

mutual

def check (place : String) (n : Node) : Expectation → Except ExpectationFailure Unit
  | ⟨index, span, kinds, tag, isMarker, childCount, children⟩ =>
    match checkNode place n ⟨index, span, kinds, tag, isMarker, childCount, children⟩ with
    | .ok () => checkChildren place n children
    | .error failure => .error failure

def checkChildren (place : String) (n : Node) : List Expectation → Except ExpectationFailure Unit
  | [] => .ok ()
  | ⟨index, span, kinds, tag, isMarker, childCount, children⟩ :: rest =>
    match n.children[index]? with
    | none => .error (.noChild place index n.children.length)
    | some child =>
      match check (childPlace place index) child
          ⟨index, span, kinds, tag, isMarker, childCount, children⟩ with
      | .ok () => checkChildren place n rest
      | .error failure => .error failure

end

def checkRoot (forest : Forest) (e : Expectation) : Except ExpectationFailure Unit :=
  match forest[e.index]? with
  | none => .error (.noRoot e.index forest.length)
  | some root => check (rootPlace e.index) root e

def checkForest (forest : Forest) (roots : Option Nat) (expected : List Expectation) :
    Except ExpectationFailure Unit := do
  roots.forM fun count =>
    require (forest.length == count) (.rootCount count (forest.map (·.span)))
  expected.forM (checkRoot forest)

end Expectation
end AnnotatedSource
