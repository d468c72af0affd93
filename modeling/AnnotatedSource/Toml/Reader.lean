import AnnotatedSource.Toml.Document

set_option autoImplicit false

namespace AnnotatedSource.Toml

def isShown (c : Char) : Bool := c == '\t' || (decide (' ' ≤ c) && c != '\x7f')

def shortEscape? (c : Char) : Option Char :=
  match c with
  | 'b' => some '\x08'
  | 't' => some '\t'
  | 'n' => some '\n'
  | 'f' => some '\x0c'
  | 'r' => some '\r'
  | '"' => some '"'
  | '\\' => some '\\'
  | _ => none

def before (c : Option Char) (rest : Option (List Char × List Char)) : Option (List Char × List Char) :=
  match c, rest with
  | some c, some (text, after) => some (c :: text, after)
  | _, _ => none

def basic : List Char → Option (List Char × List Char)
  | [] => none
  | '"' :: rest => some ([], rest)
  | '\\' :: 'u' :: a :: b :: c :: d :: rest => before (Text.codePoint? [a, b, c, d]) (basic rest)
  | '\\' :: 'U' :: a :: b :: c :: d :: e :: f :: g :: h :: rest =>
    before (Text.codePoint? [a, b, c, d, e, f, g, h]) (basic rest)
  | '\\' :: c :: rest => before (shortEscape? c) (basic rest)
  | c :: rest => if isShown c && c != '\\' then before (some c) (basic rest) else none

def literal : List Char → Option (List Char × List Char)
  | [] => none
  | '\x27' :: rest => some ([], rest)
  | c :: rest => if isShown c then before (some c) (literal rest) else none

def atLineEnd (text : List Char) : Bool :=
  match text.dropWhile Text.isBlank with
  | '\n' :: _ => true
  | '\r' :: '\n' :: _ => true
  | _ => false

/-- A string of several lines with escapes. Where `joining` holds, an escaped line end was read, and blanks
    and line ends up to the next word do not count. Of five marks at the end two are text. -/
def basicLines (joining : Bool) : List Char → Option (List Char × List Char)
  | [] => none
  | '"' :: '"' :: '"' :: '"' :: '"' :: rest => some (['"', '"'], rest)
  | '"' :: '"' :: '"' :: '"' :: rest => some (['"'], rest)
  | '"' :: '"' :: '"' :: rest => some ([], rest)
  | '\\' :: 'u' :: a :: b :: c :: d :: rest => before (Text.codePoint? [a, b, c, d]) (basicLines false rest)
  | '\\' :: 'U' :: a :: b :: c :: d :: e :: f :: g :: h :: rest =>
    before (Text.codePoint? [a, b, c, d, e, f, g, h]) (basicLines false rest)
  | '\\' :: c :: rest =>
    if atLineEnd (c :: rest) then basicLines true rest
    else before (shortEscape? c) (basicLines false rest)
  | '\r' :: '\n' :: rest =>
    if joining then basicLines true rest else before (some '\n') (basicLines false rest)
  | c :: rest =>
    if joining && (Text.isBlank c || c == '\n') then basicLines true rest
    else if (isShown c || c == '\n') && c != '\\' then before (some c) (basicLines false rest)
    else none

def literalLines : List Char → Option (List Char × List Char)
  | [] => none
  | '\x27' :: '\x27' :: '\x27' :: '\x27' :: '\x27' :: rest => some (['\x27', '\x27'], rest)
  | '\x27' :: '\x27' :: '\x27' :: '\x27' :: rest => some (['\x27'], rest)
  | '\x27' :: '\x27' :: '\x27' :: rest => some ([], rest)
  | '\r' :: '\n' :: rest => before (some '\n') (literalLines rest)
  | c :: rest => if isShown c || c == '\n' then before (some c) (literalLines rest) else none

/-- A line end directly behind the opening marks is not part of the string. -/
def dropLineEnd : List Char → List Char
  | '\n' :: rest => rest
  | '\r' :: '\n' :: rest => rest
  | text => text

def string? : List Char → Option (List Char × List Char)
  | '"' :: '"' :: '"' :: rest => basicLines false (dropLineEnd rest)
  | '\x27' :: '\x27' :: '\x27' :: rest => literalLines (dropLineEnd rest)
  | '"' :: rest => basic rest
  | '\x27' :: rest => literal rest
  | _ => none

def digits (radix : Nat) : List Char → List Char × List Char
  | [] => ([], [])
  | '_' :: c :: rest =>
    if (Text.digitValue? radix c).isSome then
      let (more, after) := digits radix rest
      (c :: more, after)
    else ([], '_' :: c :: rest)
  | c :: rest =>
    if (Text.digitValue? radix c).isSome then
      let (more, after) := digits radix rest
      (c :: more, after)
    else ([], c :: rest)

/-- Digits of which the first is none that an underscore precedes. -/
def digits? (radix : Nat) (text : List Char) : Option (List Char × List Char) :=
  match text with
  | '_' :: _ => none
  | text =>
    match digits radix text with
    | ([], _) => none
    | found => some found

def inRange (n : Int) : Option Value := if Word.holdsSigned n then some (.integer n) else none

def radixNumber? (radix : Nat) (text : List Char) : Option (Value × List Char) :=
  match digits? radix text with
  | some (ds, rest) =>
    match (Text.number? radix ds).bind fun n => inRange n with
    | some v => some (v, rest)
    | none => none
  | none => none

def fraction? : List Char → Option (List Char × List Char)
  | '.' :: rest => (digits? 10 rest).map fun (ds, after) => ('.' :: ds, after)
  | text => some ([], text)

def exponent? : List Char → Option (List Char × List Char)
  | c :: rest =>
    if c = 'e' ∨ c = 'E' then
      let (mark, unsigned) : List Char × List Char :=
        match rest with
        | '-' :: more => (['e', '-'], more)
        | '+' :: more => (['e'], more)
        | more => (['e'], more)
      (digits? 10 unsigned).map fun (ds, after) => (mark ++ ds, after)
    else some ([], c :: rest)
  | [] => some ([], [])

/-- A decimal number behind its sign: whole unless it has a fraction or an exponent. Too large a size is
    refused, but below zero it is the infinity. -/
def decimal? (negative : Bool) (text : List Char) : Option (Value × List Char) :=
  match digits? 10 text with
  | none => none
  | some (whole, afterWhole) =>
    if whole.head? == some '0' && decide (1 < whole.length) then none
    else
      match fraction? afterWhole with
      | none => none
      | some (fraction, afterFraction) =>
        match exponent? afterFraction with
        | none => none
        | some (power, rest) =>
          if fraction.isEmpty && power.isEmpty then
            match Text.number? 10 whole with
            | some n => (inRange (if negative then -(n : Int) else n)).map (·, rest)
            | none => none
          else
            match Double.magnitude? (whole ++ fraction ++ power) with
            | some size => some (.decimal (.finite negative size), rest)
            | none => if negative then some (.decimal (.infinite true), rest) else none

def number? : List Char → Option (Value × List Char)
  | '0' :: 'x' :: rest => radixNumber? 16 rest
  | '0' :: 'o' :: rest => radixNumber? 8 rest
  | '0' :: 'b' :: rest => radixNumber? 2 rest
  | text =>
    let (negative, unsigned) := Double.unsigned text
    match unsigned with
    | 'i' :: 'n' :: 'f' :: rest => some (.decimal (.infinite negative), rest)
    | 'n' :: 'a' :: 'n' :: rest => some (.decimal .nan, rest)
    | _ => decimal? negative unsigned

def scalar? : List Char → Option (Item × List Char)
  | 't' :: 'r' :: 'u' :: 'e' :: rest => some (.plain (.bool true), rest)
  | 'f' :: 'a' :: 'l' :: 's' :: 'e' :: rest => some (.plain (.bool false), rest)
  | text =>
    match text.head? with
    | some '"' | some '\x27' =>
      (string? text).map fun (s, rest) => (.text (String.ofList s), rest)
    | _ =>
      match Date.read? Date.written text with
      | some (s, rest) => some (.date (String.ofList s), rest)
      | none => (number? text).map fun (v, rest) => (.plain v, rest)

def nestingLimit : Nat := 79

def lineEnd? (text : List Char) : Option (List Char) :=
  let rest :=
    match text.dropWhile Text.isBlank with
    | '#' :: comment => comment.dropWhile isShown
    | rest => rest
  match rest with
  | [] => some []
  | '\n' :: next => some next
  | '\r' :: '\n' :: next => some next
  | _ => none

def afterSpace (inComment : Bool) : List Char → List Char
  | [] => []
  | '\r' :: '\n' :: rest => afterSpace false rest
  | c :: rest =>
    if c = '\n' then afterSpace false rest
    else if inComment && isShown c then afterSpace true rest
    else if !inComment && Text.isBlank c then afterSpace false rest
    else if !inComment && c == '#' then afterSpace true rest
    else c :: rest

def isBare (c : Char) : Bool := c.isAlphanum || c == '_' || c == '-'

def simpleKey? (text : List Char) : Option (String × List Char) :=
  match text with
  | '"' :: rest => (basic rest).map fun (key, after) => (String.ofList key, after)
  | '\x27' :: rest => (literal rest).map fun (key, after) => (String.ofList key, after)
  | _ =>
    match text.takeWhile isBare with
    | [] => none
    | key => some (String.ofList key, text.dropWhile isBare)

def keyPath? (fuel : Nat) (text : List Char) : Option (KeyPath × List Char) :=
  match fuel with
  | 0 => none
  | fuel + 1 =>
    match simpleKey? (text.dropWhile Text.isBlank) with
    | none => none
    | some (key, rest) =>
      match rest.dropWhile Text.isBlank with
      | '.' :: more =>
        (keyPath? fuel more).map fun (path, after) => (⟨key :: path.parents, path.key⟩, after)
      | after => some (⟨[], key⟩, after)

def key? (text : List Char) : Option (KeyPath × List Char) :=
  match keyPath? text.length text with
  | some (path, rest) => if path.parents.length < nestingLimit then some (path, rest) else none
  | none => none

mutual

def item? (fuel room : Nat) (text : List Char) : Option (Item × List Char) :=
  match fuel, room, text with
  | 0, _, _ => none
  | _ + 1, 0, '[' :: _ => none
  | _ + 1, 0, '\x7b' :: _ => none
  | fuel + 1, room + 1, '[' :: rest => (items? fuel room rest).map fun (items, after) => (.list items, after)
  | fuel + 1, room + 1, '\x7b' :: rest =>
    match rest.dropWhile Text.isBlank with
    | '\x7d' :: after => some (.inline [], after)
    | members => (members? fuel room [] members).map fun (entries, after) => (.inline entries, after)
  | _ + 1, _, text => scalar? text

def items? (fuel room : Nat) (text : List Char) : Option (List Item × List Char) :=
  match fuel with
  | 0 => none
  | fuel + 1 =>
    match afterSpace false text with
    | ']' :: after => some ([], after)
    | item =>
      match item? fuel room item with
      | none => none
      | some (v, rest) =>
        match afterSpace false rest with
        | ',' :: more => (items? fuel room more).map fun (items, after) => (v :: items, after)
        | ']' :: after => some ([v], after)
        | _ => none

def members? (fuel room : Nat) (entries : Entries) (text : List Char) : Option (Entries × List Char) :=
  match fuel with
  | 0 => none
  | fuel + 1 =>
    match key? text with
    | some (path, '=' :: rest) =>
      match item? fuel room (rest.dropWhile Text.isBlank) with
      | none => none
      | some (v, rest) =>
        match path.assign? v false entries with
        | none => none
        | some entries =>
          match rest.dropWhile Text.isBlank with
          | ',' :: more => members? fuel room entries more
          | '\x7d' :: after => some (entries, after)
          | _ => none
    | _ => none

end

structure Draft where
  root : Entries
  current : List String

namespace Draft

def header? (d : Draft) (path : KeyPath) : Option Draft :=
  (path.openTable? d.root).map (⟨·, path.names⟩)

def appendHeader? (d : Draft) (path : KeyPath) : Option Draft :=
  (path.appendTable? d.root).map (⟨·, path.names⟩)

def assign? (d : Draft) (path : KeyPath) (item : Item) : Option Draft :=
  (Entries.change? false (path.assign? item) d.current false d.root).map (⟨·, d.current⟩)

def line? (d : Draft) (text : List Char) : Option (Draft × List Char) :=
  match text with
  | '[' :: '[' :: rest =>
    match key? rest with
    | some (path, ']' :: ']' :: after) => (d.appendHeader? path).map (·, after)
    | _ => none
  | '[' :: rest =>
    match key? rest with
    | some (path, ']' :: after) => (d.header? path).map (·, after)
    | _ => none
  | text =>
    match key? text with
    | some (path, '=' :: rest) =>
      match item? (rest.length + 1) nestingLimit (rest.dropWhile Text.isBlank) with
      | some (v, after) => (d.assign? path v).map (·, after)
      | none => none
    | _ => none

def lines? (d : Draft) (fuel : Nat) (text : List Char) : Option Draft :=
  match fuel with
  | 0 => none
  | fuel + 1 =>
    match text.dropWhile Text.isBlank with
    | [] => some d
    | c :: rest =>
      match lineEnd? (c :: rest) with
      | some next => d.lines? fuel next
      | none =>
        match d.line? (c :: rest) with
        | none => none
        | some (d, after) =>
          match lineEnd? after with
          | some next => d.lines? fuel next
          | none => none

end Draft

def read? (text : String) : Option (List (String × Value)) :=
  let lines :=
    match text.toList with
    | '\ufeff' :: lines => lines
    | lines => lines
  (Draft.lines? ⟨[], []⟩ (lines.length + 1) lines).bind fun d => d.root.values?

end AnnotatedSource.Toml
