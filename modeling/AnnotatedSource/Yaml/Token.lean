import AnnotatedSource.Yaml.Document
import AnnotatedSource.Yaml.Scalar

set_option autoImplicit false

/-!
# YAML tokens

The text of a document cut into marks, scalars and properties. Block collections have no brackets:
tokens that begin and end them come from the columns of their entries. A key is known by the colon
behind it only, so each place where a key may have begun is kept in mind until it is too far back.
-/
namespace AnnotatedSource.Yaml

inductive Token where
  | directive (d : Directive)
  | documentStart
  | documentEnd
  | blockSequence
  | blockMapping
  | blockEnd
  | flowSequence
  | flowSequenceEnd
  | flowMapping
  | flowMappingEnd
  | blockEntry
  | flowEntry
  | key
  | value
  | reference (name : String)
  | anchor (name : String)
  | tag (t : WrittenTag)
  | scalar (style : Style) (text : String)
deriving DecidableEq, Repr

structure KeyStart where
  number : Nat
  spot : Spot
  /-- Nothing but a key may stand here. -/
  required : Bool
deriving DecidableEq, Repr

/-- A key stands on one line and is not longer than this. -/
def KeyStart.longest : Nat := 1024

def KeyStart.isPast (k : KeyStart) (s : Spot) : Bool :=
  decide (k.spot.line < s.line) || decide (k.spot.column + longest < s.column)

structure Scanner where
  place : Cursor
  tokens : List Token
  count : Nat
  indents : List Nat
  keyAllowed : Bool
  key : Option KeyStart
  outer : List (Option KeyStart)

namespace Scanner

def ofText (text : List Char) : Scanner where
  place := .ofText text
  tokens := []
  count := 0
  indents := []
  keyAllowed := true
  key := none
  outer := []

def flow (s : Scanner) : Bool := !s.outer.isEmpty

def column (s : Scanner) : Nat := s.place.spot.column

def indent? (s : Scanner) : Option Nat := s.indents.head?

def least (s : Scanner) : Nat := (s.indent?.map (· + 1)).getD 0

def push (s : Scanner) (t : Token) : Scanner :=
  { s with tokens := t :: s.tokens, count := s.count + 1 }

def insert (s : Scanner) (number : Nat) (t : Token) : Scanner :=
  let later := s.count - number
  { s with tokens := s.tokens.take later ++ t :: s.tokens.drop later, count := s.count + 1 }

def open? (s : Scanner) (column : Nat) : Option Scanner :=
  if s.flow || s.indent?.any fun n => decide (column ≤ n) then none
  else some { s with indents := column :: s.indents }

def openHere (s : Scanner) (t : Token) : Scanner :=
  match s.open? s.column with
  | some opened => opened.push t
  | none => s

def closeTo (column : Nat) (s : Scanner) : List Nat → Scanner
  | [] => { s with indents := [] }
  | n :: rest =>
    if column < n then closeTo column (s.push .blockEnd) rest else { s with indents := n :: rest }

def unindent (s : Scanner) : Scanner := if s.flow then s else closeTo s.column s s.indents

def closeAll (s : Scanner) : Scanner :=
  if s.flow then s
  else { s with
    tokens := s.indents.map (fun _ => Token.blockEnd) ++ s.tokens
    count := s.count + s.indents.length
    indents := [] }

/-- What may have been a key is none, which is a fault where nothing else may stand. -/
def drop? (key : Option KeyStart) : Option (Option KeyStart) :=
  if key.any (·.required) then none else some none

def dropKey? (s : Scanner) : Option Scanner := (drop? s.key).map ({ s with key := · })

def dropPast? (s : Scanner) : Option Scanner :=
  let keep (key : Option KeyStart) : Option (Option KeyStart) :=
    if key.any (·.isPast s.place.spot) then drop? key else some key
  match keep s.key, s.outer.mapM keep with
  | some key, some outer => some { s with key, outer }
  | _, _ => none

/-- A key may begin with the next token. At the column of a block mapping it has to. -/
def saveKey? (s : Scanner) : Option Scanner :=
  if s.keyAllowed then
    s.dropKey?.map fun s =>
      { s with key := some ⟨s.count, s.place.spot, !s.flow && s.indent? == some s.column⟩ }
  else some s

def take (s : Scanner) (length : Nat) (t : Token) : Scanner :=
  { s.push t with place := s.place.skip length }

def allowKey (s : Scanner) (allowed : Bool) : Scanner := { s with keyAllowed := allowed }

/-- A line that begins or ends a document, or a directive, ends all collections. -/
def atMargin? (s : Scanner) : Option Scanner := s.closeAll.dropKey?.map (·.allowKey false)

def bracket? (s : Scanner) (t : Token) : Option Scanner :=
  s.saveKey?.map fun s =>
    { (s.take 1 t).allowKey true with key := none, outer := s.key :: s.outer }

def closingBracket? (s : Scanner) (t : Token) : Option Scanner :=
  s.dropKey?.map fun s =>
    let s := (s.take 1 t).allowKey false
    match s.outer with
    | key :: outer => { s with key, outer }
    | [] => s

def comma? (s : Scanner) : Option Scanner :=
  s.dropKey?.map fun s => (s.take 1 .flowEntry).allowKey true

def dash? (s : Scanner) : Option Scanner :=
  if s.flow || s.keyAllowed then
    (s.openHere .blockSequence).dropKey?.map fun s => (s.take 1 .blockEntry).allowKey true
  else none

def questionMark? (s : Scanner) : Option Scanner :=
  if s.flow || s.keyAllowed then
    (s.openHere .blockMapping).dropKey?.map fun s => (s.take 1 .key).allowKey !s.flow
  else none

def colon? (s : Scanner) : Option Scanner :=
  match s.key with
  | some k =>
    let keyed := { s.insert k.number .key with key := none }
    let opened :=
      match keyed.open? k.spot.column with
      | some opened => opened.insert k.number .blockMapping
      | none => keyed
    some ((opened.take 1 .value).allowKey false)
  | none =>
    if s.flow || s.keyAllowed then
      some (((s.openHere .blockMapping).take 1 .value).allowKey !s.flow)
    else none

def node? (s : Scanner) (t : Token) (p : Cursor) : Option Scanner :=
  s.saveKey?.map fun s => { (s.push t).allowKey false with place := p }

def named? (s : Scanner) (token : String → Token) : Option Scanner :=
  match anchorName? (s.place.rest.drop 1) with
  | some name => s.node? (token (String.ofList name)) (s.place.skip (name.length + 1))
  | none => none

def tag? (s : Scanner) : Option Scanner :=
  match WrittenTag.ofText? s.flow (s.place.rest.drop 1) with
  | some (t, length) => s.node? (.tag t) (s.place.skip length)
  | none => none

def quoted? (s : Scanner) (read : Held → Spot → List Char → Option (List Char × Cursor)) :
    Option Scanner :=
  match read .empty (s.place.spot.right 1) (s.place.rest.drop 1) with
  | some (text, p) => s.node? (.scalar .quoted (String.ofList text)) p
  | none => none

/-- Where a line was left behind a plain scalar, a key may begin. -/
def plain? (s : Scanner) : Option Scanner :=
  match plain s.flow s.least .empty s.place.spot s.place.rest with
  | some (text, crossed, p) =>
    (s.node? (.scalar .plain (String.ofList text)) p).map (·.allowKey crossed)
  | none => none

def block? (s : Scanner) (folded : Bool) : Option Scanner :=
  match s.dropKey?, blockScalar folded s.indent? (s.place.skip 1) with
  | some s, some (text, p) =>
    let style := if folded then Style.folded else Style.literal
    some { (s.push (.scalar style (String.ofList text))).allowKey true with place := p }
  | _, _ => none

def directive? (s : Scanner) : Option Scanner :=
  match s.atMargin?, Directive.ofCursor? (s.place.skip 1) with
  | some s, some (d, p) => some { s.push (.directive d) with place := p }
  | _, _ => none

def isIndicator (c : Char) : Bool :=
  Text.isBlank c || isFlowMark c || "-?:#&*!|>\x27\"%@\x60".toList.contains c

/-- A dash, and outside brackets a question mark or a colon, may begin one if no blank follows. -/
def startsPlain (flow : Bool) (c : Char) (rest : List Char) : Bool :=
  !isIndicator c || (c == '-' && !endsWord rest) ||
    (!flow && (c == '?' || c == ':') && !endsWord rest)

def scan? (s : Scanner) (c : Char) (rest : List Char) : Option Scanner :=
  let separate := endsWord rest
  if s.column = 0 ∧ c = '%' then s.directive?
  else if s.place.marker? = some '-' then s.atMargin?.map (·.take 3 .documentStart)
  else if s.place.marker? = some '.' then s.atMargin?.map (·.take 3 .documentEnd)
  else if c = '[' then s.bracket? .flowSequence
  else if c = '\x7b' then s.bracket? .flowMapping
  else if c = ']' then s.closingBracket? .flowSequenceEnd
  else if c = '\x7d' then s.closingBracket? .flowMappingEnd
  else if c = ',' then s.comma?
  else if c = '-' ∧ separate then s.dash?
  else if c = '?' ∧ (s.flow ∨ separate) then s.questionMark?
  else if c = ':' ∧ (s.flow ∨ separate) then s.colon?
  else if c = '*' then s.named? .reference
  else if c = '&' then s.named? .anchor
  else if c = '!' then s.tag?
  else if c = '|' ∧ !s.flow then s.block? false
  else if c = '>' ∧ !s.flow then s.block? true
  else if c = '\x27' then s.quoted? singleQuoted
  else if c = '"' then s.quoted? doubleQuoted
  else if startsPlain s.flow c rest then s.plain?
  else none

/-- Goes to the next token, ending what ends before it. Where a line is left outside brackets, a key may
    begin. -/
def next? (s : Scanner) : Option Scanner :=
  let (crossed, p) := s.place.token s.flow (s.flow || !s.keyAllowed)
  let moved := { s with place := p, keyAllowed := s.keyAllowed || (crossed && !s.flow) }
  moved.dropPast?.map unindent

def run? (s : Scanner) : Nat → Option (List Token)
  | 0 => none
  | limit + 1 =>
    match s.next? with
    | none => none
    | some s =>
      match s.place.rest with
      | [] => s.closeAll.dropKey?.map (·.tokens.reverse)
      | c :: rest =>
        match s.scan? c rest with
        | some s => run? s limit
        | none => none

end Scanner

namespace Token

def ofText? (text : List Char) : Option (List Token) :=
  if text.all isAllowed then
    let lines := normalize text
    (Scanner.ofText lines).run? (lines.length + 1)
  else none

end Token
end AnnotatedSource.Yaml
