import AnnotatedSource.Text.Decoding

set_option autoImplicit false

namespace AnnotatedSource.Yaml

def normalize : List Char → List Char
  | [] => []
  | '\r' :: '\n' :: rest => '\n' :: normalize rest
  | c :: rest => (if c = '\r' ∨ c = '\u0085' then '\n' else c) :: normalize rest

/-- Control characters, and the code points that are no characters at the end of the basic plane, have
    no place in a document. -/
def isAllowed (c : Char) : Bool :=
  c == '\t' || c == '\n' || c == '\r' || (decide (' ' ≤ c) && decide (c ≤ '~')) || c == '\u0085' ||
    (decide ('\u00a0' ≤ c) && c != '\ufffe' && c != '\uffff')

def isBreak (c : Char) : Bool := c == '\n' || c == '\u2028' || c == '\u2029'

def isFlowMark (c : Char) : Bool :=
  c == ',' || c == '[' || c == ']' || c == '\x7b' || c == '\x7d'

def isWordChar (c : Char) : Bool :=
  Text.isDecimal c || (decide ('a' ≤ c) && decide (c ≤ 'z')) || (decide ('A' ≤ c) && decide (c ≤ 'Z')) ||
    c == '_' || c == '-'

def endsWord : List Char → Bool
  | [] => true
  | c :: _ => Text.isBlank c || isBreak c

structure Spot where
  line : Nat
  column : Nat
deriving DecidableEq, Repr

namespace Spot

def right (s : Spot) (count : Nat) : Spot := ⟨s.line, s.column + count⟩

def nextLine (s : Spot) : Spot := ⟨s.line + 1, 0⟩

def past (s : Spot) (c : Char) : Spot := if isBreak c then s.nextLine else s.right 1

end Spot

structure Cursor where
  spot : Spot
  rest : List Char

namespace Cursor

def ofText (text : List Char) : Cursor := ⟨⟨0, 0⟩, text⟩

def skip (p : Cursor) (count : Nat) : Cursor := ⟨p.spot.right count, p.rest.drop count⟩

def marker? (p : Cursor) : Option Char :=
  match p.spot.column, p.rest with
  | 0, '-' :: '-' :: '-' :: rest => if endsWord rest then some '-' else none
  | 0, '.' :: '.' :: '.' :: rest => if endsWord rest then some '.' else none
  | _, _ => none

def atMarker (p : Cursor) : Bool := p.marker?.isSome

def skipBlanks (p : Cursor) : Cursor :=
  ⟨p.spot.right (p.rest.takeWhile Text.isBlank).length, p.rest.dropWhile Text.isBlank⟩

def skipLine (p : Cursor) : Cursor :=
  let line := p.rest.takeWhile fun c => !isBreak c
  ⟨p.spot.right line.length, p.rest.drop line.length⟩

def nextLine? (p : Cursor) : Option Cursor :=
  let q := p.skipBlanks
  let r := if q.rest.head? = some '#' then q.skipLine else q
  match r.rest with
  | [] => some r
  | c :: rest => if isBreak c then some ⟨r.spot.nextLine, rest⟩ else none

end Cursor

/-- Whether a line was left, and the place of the next token: behind blanks, breaks and comments, and a
    byte order mark where a line begins. Once a line is left, tabs are blanks within brackets only. -/
def skipTo (flow tabs comment crossed : Bool) (spot : Spot) : List Char → Bool × Cursor
  | [] => (crossed, ⟨spot, []⟩)
  | c :: rest =>
    if isBreak c then skipTo flow flow false true spot.nextLine rest
    else if comment || c == ' ' || (c == '\t' && tabs) || (c == '\ufeff' && spot.column == 0) then
      skipTo flow tabs comment crossed (spot.right 1) rest
    else if c == '#' then skipTo flow tabs true crossed (spot.right 1) rest
    else (crossed, ⟨spot, c :: rest⟩)

def Cursor.token (p : Cursor) (flow tabs : Bool) : Bool × Cursor := skipTo flow tabs false false p.spot p.rest

/-- A written tag. Without a handle the suffix is the whole tag. -/
structure WrittenTag where
  handle : List Char
  /-- Octets, each as the character of its number. -/
  suffix : List Char
deriving DecidableEq, Repr

def anchorName? (text : List Char) : Option (List Char) :=
  let name := text.takeWhile isWordChar
  let after := text.drop name.length
  if name.isEmpty then none
  else if endsWord after || after.head?.any fun c => "?:,]\x7d%@\x60".toList.contains c then some name
  else none

/-- The characters of tags, brackets and commas only where the tag is given in full. -/
def isTagChar (whole : Bool) (c : Char) : Bool :=
  isWordChar c || ";/?:@&=+$.!~*\x27()".toList.contains c || (whole && ",[]".toList.contains c)

def octetCount? (octet : Nat) : Option Nat :=
  if octet < 0x80 then some 1
  else if octet < 0xc0 then none
  else if octet < 0xe0 then some 2
  else if octet < 0xf0 then some 3
  else if octet < 0xf8 then some 4
  else none

/-- The octets of a tag and the length that they are written in, where `due` octets are still to come of
    those that a first one began. -/
def tagOctets? (whole : Bool) (due : Nat) : List Char → Option (List Char × Nat)
  | '%' :: a :: b :: rest =>
    match Text.number? 16 [a, b] with
    | none => none
    | some octet =>
      let left :=
        match due with
        | 0 => (octetCount? octet).map (· - 1)
        | due + 1 => if 0x80 ≤ octet ∧ octet < 0xc0 then some due else none
      match left with
      | none => none
      | some due =>
        (tagOctets? whole due rest).map fun (octets, length) => (Char.ofNat octet :: octets, length + 3)
  | c :: rest =>
    if 0 < due ∨ c = '%' then none
    else if isTagChar whole c then
      (tagOctets? whole 0 rest).map fun (octets, length) => (c :: octets, length + 1)
    else some ([], 0)
  | [] => if 0 < due then none else some ([], 0)

namespace WrittenTag

def verbatim? (text : List Char) : Option (WrittenTag × Nat) :=
  match tagOctets? true 0 text with
  | some (_, 0) | none => none
  | some (octets, length) =>
    if text[length]? = some '>' then some (⟨[], octets⟩, length + 3) else none

/-- A word between exclamation marks is a handle. Any other tag has the handle of one exclamation mark,
    unless nothing comes behind it. -/
def short? (text : List Char) : Option (WrittenTag × Nat) :=
  let word := text.takeWhile isWordChar
  let after := text.drop word.length
  match after with
  | '!' :: rest =>
    match tagOctets? false 0 rest with
    | some (_, 0) | none => none
    | some (octets, length) => some (⟨'!' :: word ++ ['!'], octets⟩, word.length + length + 2)
  | _ =>
    (tagOctets? false 0 after).map fun (octets, length) =>
      let suffix := word ++ octets
      let nothing := suffix.isEmpty || suffix.head? == some '\x00'
      (if nothing then ⟨[], ['!']⟩ else ⟨['!'], suffix⟩, word.length + length + 1)

def ofText? (flow : Bool) (text : List Char) : Option (WrittenTag × Nat) :=
  let read :=
    match text with
    | '<' :: rest => verbatim? rest
    | _ => short? text
  match read with
  | none => none
  | some (tag, length) =>
    let after := text.drop (length - 1)
    if endsWord after || (flow && after.head? == some ',') then some (tag, length) else none

end WrittenTag

inductive Directive where
  | version (major minor : Nat)
  | handle (name stem : List Char)
deriving DecidableEq, Repr

namespace Directive

def digits? (text : List Char) : Option (Nat × Nat) :=
  let digits := text.takeWhile Text.isDecimal
  if digits.length ≤ 9 then (Text.number? 10 digits).map (·, digits.length) else none

def version? (p : Cursor) : Option (Directive × Cursor) :=
  match digits? p.rest with
  | none => none
  | some (major, length) =>
    let q := p.skip length
    if q.rest.head? = some '.' then
      match digits? (q.skip 1).rest with
      | none => none
      | some (minor, length) => some (version major minor, q.skip (1 + length))
    else none

def handleName? (text : List Char) : Option (List Char) :=
  match text with
  | '!' :: rest =>
    let word := rest.takeWhile isWordChar
    if (rest.drop word.length).head? = some '!' then some ('!' :: word ++ ['!'])
    else if word.isEmpty then some ['!']
    else none
  | _ => none

def handle? (p : Cursor) : Option (Directive × Cursor) :=
  match handleName? p.rest with
  | none => none
  | some name =>
    let q := p.skip name.length
    if q.rest.head?.any Text.isBlank then
      let r := q.skipBlanks
      match tagOctets? true 0 r.rest with
      | some (_, 0) | none => none
      | some (stem, length) =>
        let s := r.skip length
        if endsWord s.rest then some (handle name stem, s) else none
    else none

def ofCursor? (p : Cursor) : Option (Directive × Cursor) :=
  let name := p.rest.takeWhile isWordChar
  let q := p.skip name.length
  if endsWord q.rest then
    let read :=
      if name = "YAML".toList then version? q.skipBlanks
      else if name = "TAG".toList then handle? q.skipBlanks
      else none
    match read with
    | some (directive, r) => r.nextLine?.map (directive, ·)
    | none => none
  else none

end Directive
end AnnotatedSource.Yaml
