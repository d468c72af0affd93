import AnnotatedSource.Annotated

set_option autoImplicit false

namespace AnnotatedSource

namespace Segment

mutual

/-- An annotated segment is filled by its children, and text is whole. -/
def isFilled : Segment → Bool
  | text _ => true
  | annotated span _ children => covers span.start span.stop children

def covers (cursor stop : Nat) : List Segment → Bool
  | [] => cursor == stop
  | s :: rest => s.span.start == cursor && isFilled s && covers s.span.stop stop rest

end

end Segment

namespace Forest

def isPlaced (source : List Char) (n : Node) : Bool :=
  decide (n.span.start ≤ n.span.stop) && decide (n.span.stop ≤ Text.byteLength source) &&
    Text.isBoundary source n.span.start && Text.isBoundary source n.span.stop && !n.tags.isEmpty

/-- Siblings in order of which neither lies in the other nor crosses it. -/
def isBeside (a b : Node) : Bool :=
  !a.span.contains b.span && !b.span.contains a.span && !a.span.crosses b.span

def isAhead (n : Node) : Forest → Bool
  | [] => true
  | next :: rest => decide (n.span.start ≤ next.span.start) && (next :: rest).all (isBeside n)

mutual

def isNodeWellFormed (source : List Char) : Node → Bool
  | ⟨span, tags, children⟩ =>
    isPlaced source ⟨span, tags, children⟩ && children.all (span.contains ·.span) &&
      areWellFormed source children

def areWellFormed (source : List Char) : Forest → Bool
  | [] => true
  | n :: rest => isNodeWellFormed source n && isAhead n rest && areWellFormed source rest

end

end Forest

namespace Annotated

def isWellFormed (a : Annotated) : Bool :=
  let source := a.source.toList
  Segment.concat source a.segments == source &&
    Segment.covers 0 (Text.byteLength source) a.segments && Forest.areWellFormed source a.forest

end Annotated
end AnnotatedSource
