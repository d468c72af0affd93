import AnnotatedSource.Yaml.Token

set_option autoImplicit false

namespace AnnotatedSource.Yaml

abbrev Handles := List (List Char × List Char)

namespace Handles

def common : Handles := [(['!'], ['!']), (['!', '!'], Tag.common "")]

/-- A tag ends where one of its octets is zero. -/
def terminated (octets : List Char) : List Char := octets.takeWhile (· != '\x00')

def resolve? (handles : Handles) (t : WrittenTag) : Option Tag :=
  if t.handle.isEmpty then some (terminated t.suffix)
  else (handles.lookup t.handle).map fun stem => terminated stem ++ terminated t.suffix

end Handles

structure Properties where
  anchor : Option String
  tag : Option Tag

namespace Properties

def isEmpty (p : Properties) : Bool := p.anchor.isNone && p.tag.isNone

def ofTokens? (handles : Handles) : List Token → Option (Properties × List Token)
  | .anchor name :: .tag t :: rest
  | .tag t :: .anchor name :: rest => (handles.resolve? t).map fun tag => (⟨some name, some tag⟩, rest)
  | .anchor name :: rest => some (⟨some name, none⟩, rest)
  | .tag t :: rest => (handles.resolve? t).map fun tag => (⟨none, some tag⟩, rest)
  | rest => some (⟨none, none⟩, rest)

def scalarTag (p : Properties) : Option Tag := p.tag.filter (· != Tag.none)

end Properties

inductive Context where
  | flow
  | block
  /-- In a block mapping, where the dashes of a sequence may stand at the column of the keys. -/
  | entry
deriving DecidableEq, Repr

def endsEntry : List Token → Bool
  | .key :: _ | .value :: _ | .blockEnd :: _ => true
  | _ => false

def endsFlowEntry : List Token → Bool
  | .value :: _ | .flowEntry :: _ | .flowMappingEnd :: _ => true
  | _ => false

def endsFlowItem : List Token → Bool
  | .value :: _ | .flowEntry :: _ | .flowSequenceEnd :: _ => true
  | _ => false

abbrev Parsed (α : Type) := Option (α × List Token)

mutual

def node (handles : Handles) (fuel : Nat) (context : Context) (tokens : List Token) :
    Parsed (Node String) :=
  match fuel with
  | 0 => none
  | fuel + 1 =>
    match tokens with
    | .reference name :: rest => some (.reference name, rest)
    | _ =>
      match Properties.ofTokens? handles tokens with
      | none => none
      | some (properties, rest) => content handles fuel context properties rest

def content (handles : Handles) (fuel : Nat) (context : Context) (p : Properties)
    (tokens : List Token) : Parsed (Node String) :=
  match fuel with
  | 0 => none
  | fuel + 1 =>
    match context, tokens with
    | .entry, .blockEntry :: _ =>
      (dashes handles fuel tokens).map fun (items, rest) => (.sequence p.anchor p.tag items, rest)
    | _, .scalar style text :: rest => some (.scalar p.anchor p.scalarTag style text, rest)
    | _, .flowSequence :: rest =>
      (flowItems handles fuel true rest).map fun (items, rest) => (.sequence p.anchor p.tag items, rest)
    | _, .flowMapping :: rest =>
      (flowEntries handles fuel true rest).map fun (entries, rest) =>
        (.mapping p.anchor p.tag entries, rest)
    | .block, .blockSequence :: rest | .entry, .blockSequence :: rest =>
      (blockItems handles fuel rest).map fun (items, rest) => (.sequence p.anchor p.tag items, rest)
    | .block, .blockMapping :: rest | .entry, .blockMapping :: rest =>
      (blockEntries handles fuel rest).map fun (entries, rest) =>
        (.mapping p.anchor p.tag entries, rest)
    | _, rest => if p.isEmpty then none else some (.scalar p.anchor p.tag .plain "", rest)

def blockItems (handles : Handles) (fuel : Nat) (tokens : List Token) :
    Parsed (List (Node String)) :=
  match fuel with
  | 0 => none
  | fuel + 1 =>
    match tokens with
    | .blockEnd :: rest => some ([], rest)
    | .blockEntry :: .blockEntry :: rest =>
      (blockItems handles fuel (.blockEntry :: rest)).map fun (items, rest) => (.absent :: items, rest)
    | .blockEntry :: .blockEnd :: rest => some ([.absent], rest)
    | .blockEntry :: rest =>
      match node handles fuel .block rest with
      | none => none
      | some (item, rest) =>
        (blockItems handles fuel rest).map fun (items, rest) => (item :: items, rest)
    | _ => none

def dashes (handles : Handles) (fuel : Nat) (tokens : List Token) : Parsed (List (Node String)) :=
  match fuel with
  | 0 => none
  | fuel + 1 =>
    match tokens with
    | .blockEntry :: .blockEntry :: rest =>
      (dashes handles fuel (.blockEntry :: rest)).map fun (items, rest) => (.absent :: items, rest)
    | .blockEntry :: rest =>
      if endsEntry rest then some ([.absent], rest)
      else
        match node handles fuel .block rest with
        | none => none
        | some (item, rest) =>
          (dashes handles fuel rest).map fun (items, rest) => (item :: items, rest)
    | rest => some ([], rest)

def blockEntries (handles : Handles) (fuel : Nat) (tokens : List Token) :
    Parsed (List (Node String × Node String)) :=
  match fuel with
  | 0 => none
  | fuel + 1 =>
    match tokens with
    | .blockEnd :: rest => some ([], rest)
    | .key :: rest =>
      match if endsEntry rest then some (.absent, rest) else node handles fuel .entry rest with
      | none => none
      | some (key, rest) =>
        match blockValue handles fuel rest with
        | none => none
        | some (value, rest) =>
          (blockEntries handles fuel rest).map fun (entries, rest) => ((key, value) :: entries, rest)
    | _ => none

def blockValue (handles : Handles) (fuel : Nat) (tokens : List Token) : Parsed (Node String) :=
  match fuel with
  | 0 => none
  | fuel + 1 =>
    match tokens with
    | .value :: rest => if endsEntry rest then some (.absent, rest) else node handles fuel .entry rest
    | rest => some (.absent, rest)

def flowItems (handles : Handles) (fuel : Nat) (first : Bool) (tokens : List Token) :
    Parsed (List (Node String)) :=
  match fuel with
  | 0 => none
  | fuel + 1 =>
    match first, tokens with
    | _, .flowSequenceEnd :: rest => some ([], rest)
    | false, .flowEntry :: .flowSequenceEnd :: rest => some ([], rest)
    | false, .flowEntry :: rest | true, rest =>
      match flowItem handles fuel rest with
      | none => none
      | some (item, rest) =>
        (flowItems handles fuel false rest).map fun (items, rest) => (item :: items, rest)
    | false, _ => none

/-- An item in square brackets. One with a key is a mapping of one entry. -/
def flowItem (handles : Handles) (fuel : Nat) (tokens : List Token) : Parsed (Node String) :=
  match fuel with
  | 0 => none
  | fuel + 1 =>
    match tokens with
    | .key :: rest =>
      match if endsFlowItem rest then some (.absent, rest.drop 1) else node handles fuel .flow rest with
      | none => none
      | some (key, rest) =>
        (flowItemValue handles fuel rest).map fun (value, rest) =>
          (.mapping none none [(key, value)], rest)
    | rest => node handles fuel .flow rest

def flowItemValue (handles : Handles) (fuel : Nat) (tokens : List Token) : Parsed (Node String) :=
  match fuel with
  | 0 => none
  | fuel + 1 =>
    match tokens with
    | .value :: .flowEntry :: rest => some (.absent, .flowEntry :: rest)
    | .value :: .flowSequenceEnd :: rest => some (.absent, .flowSequenceEnd :: rest)
    | .value :: rest => node handles fuel .flow rest
    | rest => some (.absent, rest)

def flowEntries (handles : Handles) (fuel : Nat) (first : Bool) (tokens : List Token) :
    Parsed (List (Node String × Node String)) :=
  match fuel with
  | 0 => none
  | fuel + 1 =>
    match first, tokens with
    | _, .flowMappingEnd :: rest => some ([], rest)
    | false, .flowEntry :: .flowMappingEnd :: rest => some ([], rest)
    | false, .flowEntry :: rest | true, rest =>
      match flowKeyed handles fuel rest with
      | none => none
      | some (entry, rest) =>
        (flowEntries handles fuel false rest).map fun (entries, rest) => (entry :: entries, rest)
    | false, _ => none

/-- An entry in braces. A node that is no key has no value. -/
def flowKeyed (handles : Handles) (fuel : Nat) (tokens : List Token) :
    Parsed (Node String × Node String) :=
  match fuel with
  | 0 => none
  | fuel + 1 =>
    match tokens with
    | .key :: rest =>
      match if endsFlowEntry rest then some (.absent, rest) else node handles fuel .flow rest with
      | none => none
      | some (key, rest) =>
        (flowEntryValue handles fuel rest).map fun (value, rest) => ((key, value), rest)
    | rest => (node handles fuel .flow rest).map fun (key, rest) => ((key, .absent), rest)

def flowEntryValue (handles : Handles) (fuel : Nat) (tokens : List Token) : Parsed (Node String) :=
  match fuel with
  | 0 => none
  | fuel + 1 =>
    match tokens with
    | .value :: .flowEntry :: rest => some (.absent, .flowEntry :: rest)
    | .value :: .flowMappingEnd :: rest => some (.absent, .flowMappingEnd :: rest)
    | .value :: rest => node handles fuel .flow rest
    | rest => some (.absent, rest)

end

/-- The handles that a document's directives give, and the tokens behind them. A version is given once
    at most and is one that is known, and no handle is given twice. -/
def directives? (version : Bool) (given : Handles) : List Token → Option (Handles × List Token)
  | .directive (.version major minor) :: rest =>
    if !version && major == 1 && (minor == 1 || minor == 2) then directives? true given rest else none
  | .directive (.handle name stem) :: rest =>
    if (given.lookup name).isSome then none else directives? version ((name, stem) :: given) rest
  | rest => some (given ++ Handles.common, rest)

def endsDocument : List Token → Bool
  | [] | .directive _ :: _ | .documentStart :: _ | .documentEnd :: _ => true
  | _ => false

def firstNode (tokens : List Token) : Parsed (Node String) :=
  match directives? false [] tokens with
  | none => none
  | some (handles, .documentStart :: rest) =>
    if endsDocument rest then some (.absent, rest) else node handles (4 * rest.length + 4) .block rest
  | some (handles, rest) =>
    match tokens with
    | .directive _ :: _ => none
    | _ => node handles (4 * rest.length + 4) .block rest

def isDocumentEnd : Token → Bool
  | .documentEnd => true
  | _ => false

def read? (text : String) : Option Document :=
  match (Token.ofText? text.toList).bind firstNode with
  | some (root, rest) => if rest.all isDocumentEnd then Document.ofNode? root else none
  | none => none

end AnnotatedSource.Yaml
