import AnnotatedSource.Value

set_option autoImplicit false

namespace AnnotatedSource.Json

def numeralText (n : Numeral) : String :=
  (if n.negative then "-" else "") ++ n.whole.repr ++
    (if n.fraction.isEmpty then "" else "." ++ String.join (n.fraction.map Nat.repr)) ++
    match n.exponent with
    | some k => "e" ++ k.repr
    | none => ""

/-- A literal that denotes no text is written as one. -/
def literalText : Option String → String
  | some s => Text.quote s
  | none => "\"\\ud800\""

mutual

def compact : Json → String
  | null => "null"
  | bool b => Text.ofBool b
  | number n => numeralText n
  | string s => literalText s
  | array items => "[" ++ compactItems items ++ "]"
  | object members => "\x7b" ++ compactMembers members ++ "\x7d"

def compactItems : List Json → String
  | [] => ""
  | [v] => compact v
  | v :: w :: rest => compact v ++ "," ++ compactItems (w :: rest)

def compactMembers : List (Option String × Json) → String
  | [] => ""
  | [(k, v)] => literalText k ++ ":" ++ compact v
  | (k, v) :: m :: rest => literalText k ++ ":" ++ compact v ++ "," ++ compactMembers (m :: rest)

end

def lineAt (level : Nat) : String := "\n" ++ String.ofList (List.replicate (2 * level) ' ')

mutual

def prettyAt (level : Nat) : Json → String
  | null => "null"
  | bool b => Text.ofBool b
  | number n => numeralText n
  | string s => literalText s
  | array [] => "[]"
  | array (v :: rest) =>
    "[" ++ lineAt (level + 1) ++ prettyItems (level + 1) (v :: rest) ++ lineAt level ++ "]"
  | object [] => "\x7b\x7d"
  | object (m :: rest) =>
    "\x7b" ++ lineAt (level + 1) ++ prettyMembers (level + 1) (m :: rest) ++ lineAt level ++ "\x7d"

def prettyItems (level : Nat) : List Json → String
  | [] => ""
  | [v] => prettyAt level v
  | v :: w :: rest => prettyAt level v ++ "," ++ lineAt level ++ prettyItems level (w :: rest)

def prettyMembers (level : Nat) : List (Option String × Json) → String
  | [] => ""
  | [(k, v)] => literalText k ++ ": " ++ prettyAt level v
  | (k, v) :: m :: rest =>
    literalText k ++ ": " ++ prettyAt level v ++ "," ++ lineAt level ++ prettyMembers level (m :: rest)

end

def pretty (v : Json) : String := prettyAt 0 v

end AnnotatedSource.Json
