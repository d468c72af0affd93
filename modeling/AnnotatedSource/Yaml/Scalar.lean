import AnnotatedSource.Yaml.Cursor

set_option autoImplicit false

namespace AnnotatedSource.Yaml

def fold : List Char → List Char
  | [] => []
  | first :: later =>
    if first = '\n' then (if later.isEmpty then [' '] else later) else first :: later

inductive Held where
  | blanks (text : List Char)
  | breaks (text : List Char)
  /-- Behind an escaped break: only further breaks count. -/
  | joined (later : List Char)

namespace Held

def empty : Held := blanks []

def isEmpty : Held → Bool
  | blanks text => text.isEmpty
  | _ => false

def crosses : Held → Bool
  | blanks _ => false
  | _ => true

def add (c : Char) : Held → Held
  | blanks text => if isBreak c then breaks [c] else blanks (text ++ [c])
  | breaks text => if isBreak c then breaks (text ++ [c]) else breaks text
  | joined later => if isBreak c then joined (later ++ [c]) else joined later

def read : Held → List Char
  | blanks text => text
  | breaks text => fold text
  | joined later => later

end Held

/-- A scalar's text up to the closing apostrophe, of which two in a row stand for one. -/
def singleQuoted (held : Held) (spot : Spot) : List Char → Option (List Char × Cursor)
  | [] => none
  | '\x27' :: '\x27' :: rest =>
    (singleQuoted .empty (spot.right 2) rest).map fun (text, p) => (held.read ++ '\x27' :: text, p)
  | '\x27' :: rest => some (held.read, ⟨spot.right 1, rest⟩)
  | c :: rest =>
    if Cursor.atMarker ⟨spot, c :: rest⟩ then none
    else if isBreak c || Text.isBlank c then singleQuoted (held.add c) (spot.past c) rest
    else (singleQuoted .empty (spot.right 1) rest).map fun (text, p) => (held.read ++ c :: text, p)

def shortEscape? (c : Char) : Option Char :=
  match c with
  | '0' => some '\x00'
  | 'a' => some '\x07'
  | 'b' => some '\x08'
  | 't' | '\t' => some '\t'
  | 'n' => some '\n'
  | 'v' => some '\x0b'
  | 'f' => some '\x0c'
  | 'r' => some '\r'
  | 'e' => some '\x1b'
  | ' ' => some ' '
  | '"' => some '"'
  | '/' => some '/'
  | '\\' => some '\\'
  | 'N' => some '\u0085'
  | '_' => some '\u00a0'
  | 'L' => some '\u2028'
  | 'P' => some '\u2029'
  | _ => none

def doubleQuoted (held : Held) (spot : Spot) : List Char → Option (List Char × Cursor)
  | [] => none
  | '"' :: rest => some (held.read, ⟨spot.right 1, rest⟩)
  | '\\' :: 'x' :: a :: b :: rest =>
    match Text.codePoint? [a, b], doubleQuoted .empty (spot.right 4) rest with
    | some c, some (text, p) => some (held.read ++ c :: text, p)
    | _, _ => none
  | '\\' :: 'u' :: a :: b :: c :: d :: rest =>
    match Text.codePoint? [a, b, c, d], doubleQuoted .empty (spot.right 6) rest with
    | some x, some (text, p) => some (held.read ++ x :: text, p)
    | _, _ => none
  | '\\' :: 'U' :: a :: b :: c :: d :: e :: f :: g :: h :: rest =>
    match Text.codePoint? [a, b, c, d, e, f, g, h], doubleQuoted .empty (spot.right 10) rest with
    | some x, some (text, p) => some (held.read ++ x :: text, p)
    | _, _ => none
  | '\\' :: c :: rest =>
    if isBreak c then
      (doubleQuoted (.joined []) spot.nextLine rest).map fun (text, p) => (held.read ++ text, p)
    else
      match shortEscape? c, doubleQuoted .empty (spot.right 2) rest with
      | some x, some (text, p) => some (held.read ++ x :: text, p)
      | _, _ => none
  | c :: rest =>
    if c == '\\' || Cursor.atMarker ⟨spot, c :: rest⟩ then none
    else if isBreak c || Text.isBlank c then doubleQuoted (held.add c) (spot.past c) rest
    else (doubleQuoted .empty (spot.right 1) rest).map fun (text, p) => (held.read ++ c :: text, p)

/-- A colon ends a plain scalar before a blank, and within brackets their marks do. -/
def endsPlain (flow : Bool) (c : Char) (rest : List Char) : Bool :=
  (c == ':' && endsWord rest) || (flow && isFlowMark c)

def isStrayColon (flow : Bool) (c : Char) (rest : List Char) : Bool :=
  flow && c == ':' && (rest.head?.any fun d => isFlowMark d || d == '?')

/-- Whether a word that comes behind blanks or breaks does not carry the scalar on: a comment, a line
    that begins or ends a document, or outside brackets a word before column `least`. -/
def leavesPlain (flow : Bool) (least : Nat) (p : Cursor) : Bool :=
  p.rest.head? == some '#' || p.atMarker || (!flow && decide (p.spot.column < least))

/-- A plain scalar's text, whether a line was left behind it, and the place of what follows. A tab may
    not indent a word that is before column `least`. -/
def plain (flow : Bool) (least : Nat) (held : Held) (spot : Spot) :
    List Char → Option (List Char × Bool × Cursor)
  | [] => some ([], held.crosses, ⟨spot, []⟩)
  | c :: rest =>
    if isBreak c || Text.isBlank c then
      if c == '\t' && held.crosses && decide (spot.column < least) then none
      else plain flow least (held.add c) (spot.past c) rest
    else if !held.isEmpty && leavesPlain flow least ⟨spot, c :: rest⟩ then
      some ([], held.crosses, ⟨spot, c :: rest⟩)
    else if isStrayColon flow c rest then none
    else if endsPlain flow c rest then some ([], held.crosses, ⟨spot, c :: rest⟩)
    else
      (plain flow least .empty (spot.right 1) rest).map fun (text, after) =>
        (held.read ++ c :: text, after)

inductive Chomping where
  | strip
  | clip
  | keep
deriving DecidableEq, Repr

structure BlockHeader where
  chomping : Chomping
  step : Option Nat
deriving DecidableEq, Repr

namespace BlockHeader

def chomping? (c : Char) : Option Chomping :=
  if c = '+' then some .keep else if c = '-' then some .strip else none

def step? (c : Char) : Option Nat := if '1' ≤ c ∧ c ≤ '9' then some (c.toNat - 48) else none

def ofText : List Char → BlockHeader × Nat
  | [] => (⟨.clip, none⟩, 0)
  | [c] =>
    match chomping? c, step? c with
    | some chomping, _ => (⟨chomping, none⟩, 1)
    | none, some step => (⟨.clip, some step⟩, 1)
    | none, none => (⟨.clip, none⟩, 0)
  | c :: d :: _ =>
    match chomping? c, step? c with
    | some chomping, _ =>
      match step? d with
      | some step => (⟨chomping, some step⟩, 2)
      | none => (⟨chomping, none⟩, 1)
    | none, some step =>
      match chomping? d with
      | some chomping => (⟨chomping, some step⟩, 2)
      | none => (⟨.clip, some step⟩, 1)
    | none, none => (⟨.clip, none⟩, 0)

end BlockHeader

/-- A line with its break, which only the last line of a text may lack, and the empty lines below. -/
structure BlockLine where
  text : List Char
  ending : Option Char
  below : List Char

namespace BlockLine

def isIndented (l : BlockLine) : Bool := l.text.head?.any Text.isBlank

def gap (folded : Bool) (l next : BlockLine) : List Char :=
  if folded && l.ending == some '\n' && !l.isIndented && !next.isIndented then
    if l.below.isEmpty then [' '] else l.below
  else l.ending.toList ++ l.below

def join (folded : Bool) : List BlockLine → List Char
  | [] => []
  | [l] => l.text
  | l :: next :: rest => l.text ++ l.gap folded next ++ join folded (next :: rest)

end BlockLine

/-- Breaks of empty lines, the widest indentation met, and the place of what follows. Spaces are
    skipped up to the column `indent` if that is known; no tab may stand among them. -/
def emptyLines (indent : Option Nat) (widest : Nat) (spot : Spot) :
    List Char → Option (List Char × Nat × Cursor)
  | [] => some ([], max widest spot.column, ⟨spot, []⟩)
  | c :: rest =>
    let inside := indent.all fun n => decide (spot.column < n)
    if inside && c == ' ' then emptyLines indent widest (spot.right 1) rest
    else if inside && c == '\t' then none
    else if isBreak c then
      (emptyLines indent (max widest spot.column) spot.nextLine rest).map fun (breaks, after) =>
        (c :: breaks, after)
    else some ([], max widest spot.column, ⟨spot, c :: rest⟩)

def blockLines (indent : Nat) (p : Cursor) : Nat → Option (List BlockLine × Cursor)
  | 0 => none
  | limit + 1 =>
    if p.rest.isEmpty || p.spot.column != indent then some ([], p)
    else
      let text := p.rest.takeWhile fun c => !isBreak c
      match p.skipLine.rest with
      | [] => some ([⟨text, none, []⟩], p.skipLine)
      | c :: rest =>
        match emptyLines (some indent) 0 p.spot.nextLine rest with
        | none => none
        | some (below, _, q) =>
          (blockLines indent q limit).map fun (lines, r) => (⟨text, some c, below⟩ :: lines, r)

def chomp (chomping : Chomping) (above : List Char) : List BlockLine → List Char
  | [] => if chomping = .keep then above else []
  | l :: rest =>
    let last := (l :: rest).getLast?.getD l
    match chomping with
    | .strip => []
    | .clip => last.ending.toList
    | .keep => last.ending.toList ++ last.below

/-- The scalar behind its mark. Its lines are indented as the header says, or as the widest of the empty
    lines above the first and that itself are, but more than `parent`, which is none at the margin. -/
def blockScalar (folded : Bool) (parent : Option Nat) (p : Cursor) : Option (List Char × Cursor) :=
  let (header, length) := BlockHeader.ofText p.rest
  match (p.skip length).nextLine? with
  | none => none
  | some q =>
    let given := header.step.map (parent.getD 0 + ·)
    match emptyLines given 0 q.spot q.rest with
    | none => none
    | some (above, widest, r) =>
      let indent := given.getD (max widest (max 1 ((parent.map (· + 1)).getD 0)))
      (blockLines indent r (r.rest.length + 1)).map fun (lines, s) =>
        let lead := if lines.isEmpty then [] else above
        (lead ++ BlockLine.join folded lines ++ chomp header.chomping above lines, s)

end AnnotatedSource.Yaml
