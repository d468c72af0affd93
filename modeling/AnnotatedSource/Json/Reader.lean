import AnnotatedSource.Value

set_option autoImplicit false

/-!
# Reading JSON

The text of a document is cut into tokens, and the tokens are taken in one by one; what is open around
the place of reading is kept as a list, innermost first, so documents may be nested to any depth.
-/
namespace AnnotatedSource.Json

inductive Token where
  | beginArray
  | endArray
  | beginObject
  | endObject
  | comma
  | colon
  | null
  | bool (b : Bool)
  | number (n : Numeral)
  | string (s : Option String)

namespace Token

def isBlank (c : Char) : Bool := c == ' ' || c == '\t' || c == '\n' || c == '\r'

def shortEscape? (c : Char) : Option Char :=
  match c with
  | '"' => some '"'
  | '\\' => some '\\'
  | '/' => some '/'
  | 'b' => some '\x08'
  | 'f' => some '\x0c'
  | 'n' => some '\n'
  | 'r' => some '\r'
  | 't' => some '\t'
  | _ => none

def scanString : List Char → Option (List Nat × List Char)
  | [] => none
  | '"' :: rest => some ([], rest)
  | '\\' :: 'u' :: a :: b :: c :: d :: rest =>
    match Text.number? 16 [a, b, c, d], scanString rest with
    | some u, some (units, after) => some (u :: units, after)
    | _, _ => none
  | '\\' :: c :: rest =>
    match shortEscape? c, scanString rest with
    | some e, some (units, after) => some (e.toNat :: units, after)
    | _, _ => none
  | c :: rest =>
    if c.toNat < 0x20 || c == '\\' then none
    else (scanString rest).map fun (units, after) => (c.toNat :: units, after)

theorem length_of_scanString {text after : List Char} {units : List Nat}
    (h : scanString text = some (units, after)) : after.length < text.length := by
  fun_induction scanString text generalizing units after with
  | case1 => simp at h
  | case2 rest =>
    obtain ⟨-, rfl⟩ : [] = units ∧ rest = after := by simpa using h
    simp
  | case3 a b c d rest u more left hs hu ih =>
    obtain ⟨-, rfl⟩ : u :: more = units ∧ left = after := by simpa using h
    have := ih hs
    simp only [List.length_cons]
    omega
  | case4 => simp at h
  | case5 c rest _ e more left hs he ih =>
    obtain ⟨-, rfl⟩ : e.toNat :: more = units ∧ left = after := by simpa using h
    have := ih hs
    simp only [List.length_cons]
    omega
  | case6 => simp at h
  | case7 => simp at h
  | case8 c rest _ _ _ _ ih =>
    obtain ⟨⟨more, left⟩, hs, heq⟩ := Option.map_eq_some_iff.1 h
    obtain ⟨-, rfl⟩ : c.toNat :: more = units ∧ left = after := by simpa using heq
    have := ih hs
    simp only [List.length_cons]
    omega

def scanDigits (text : List Char) : Option (List Char × List Char) :=
  match text.takeWhile Text.isDecimal with
  | [] => none
  | d :: digits => some (d :: digits, text.dropWhile Text.isDecimal)

theorem length_of_scanDigits {text ds after : List Char} (h : scanDigits text = some (ds, after)) :
    after.length < text.length := by
  have parts := congrArg List.length (List.takeWhile_append_dropWhile (p := Text.isDecimal) (l := text))
  unfold scanDigits at h
  split at h
  · simp at h
  · next d digits taken =>
    obtain ⟨-, rfl⟩ : d :: digits = ds ∧ text.dropWhile Text.isDecimal = after := by simpa using h
    rw [taken] at parts
    simp only [List.length_append, List.length_cons] at parts
    omega

def digits (text : List Char) : List Nat := text.map (·.toNat - 48)

def scanWhole (text : List Char) : Option (Nat × List Char) :=
  match scanDigits text with
  | some (['0'], rest) => some (0, rest)
  | some ('0' :: _, _) => none
  | some (ds, rest) => some ((Text.number? 10 ds).getD 0, rest)
  | none => none

theorem length_of_scanWhole {text after : List Char} {n : Nat} (h : scanWhole text = some (n, after)) :
    after.length < text.length := by
  unfold scanWhole at h
  split at h
  · next rest hds =>
    obtain ⟨-, rfl⟩ : 0 = n ∧ rest = after := by simpa using h
    exact length_of_scanDigits hds
  · simp at h
  · next ds rest _ _ hds =>
    obtain ⟨-, rfl⟩ : (Text.number? 10 ds).getD 0 = n ∧ rest = after := by simpa using h
    exact length_of_scanDigits hds
  · simp at h

def scanFraction : List Char → Option (List Nat × List Char)
  | '.' :: rest => (scanDigits rest).map fun (ds, after) => (digits ds, after)
  | text => some ([], text)

theorem length_of_scanFraction {text after : List Char} {ds : List Nat}
    (h : scanFraction text = some (ds, after)) : after.length ≤ text.length := by
  unfold scanFraction at h
  split at h
  · next rest =>
    obtain ⟨⟨taken, left⟩, hds, heq⟩ := Option.map_eq_some_iff.1 h
    obtain ⟨-, rfl⟩ : digits taken = ds ∧ left = after := by simpa using heq
    have := length_of_scanDigits hds
    simp only [List.length_cons]
    omega
  · obtain ⟨-, rfl⟩ : [] = ds ∧ text = after := by simpa using h
    exact Nat.le_refl _

def scanPower (text : List Char) : Option (Int × List Char) :=
  let (negative, rest) :=
    match text with
    | '-' :: rest => (true, rest)
    | '+' :: rest => (false, rest)
    | rest => (false, rest)
  (scanDigits rest).map fun (ds, after) =>
    let n : Int := (Text.number? 10 ds).getD 0
    (if negative then -n else n, after)

theorem length_of_scanPower {text after : List Char} {n : Int} (h : scanPower text = some (n, after)) :
    after.length < text.length := by
  obtain ⟨⟨taken, left⟩, hds, heq⟩ := Option.map_eq_some_iff.1 h
  obtain ⟨-, rfl⟩ := Prod.mk.inj heq
  have := length_of_scanDigits hds
  split at this <;> simp only [List.length_cons] at * <;> omega

def scanExponent : List Char → Option (Option Int × List Char)
  | 'e' :: rest => (scanPower rest).map fun (n, after) => (some n, after)
  | 'E' :: rest => (scanPower rest).map fun (n, after) => (some n, after)
  | text => some (none, text)

theorem length_of_scanExponent {text after : List Char} {e : Option Int}
    (h : scanExponent text = some (e, after)) : after.length ≤ text.length := by
  unfold scanExponent at h
  split at h
  · next rest =>
    obtain ⟨⟨n, left⟩, hp, heq⟩ := Option.map_eq_some_iff.1 h
    obtain ⟨-, rfl⟩ := Prod.mk.inj heq
    have := length_of_scanPower hp
    simp only [List.length_cons]
    omega
  · next rest =>
    obtain ⟨⟨n, left⟩, hp, heq⟩ := Option.map_eq_some_iff.1 h
    obtain ⟨-, rfl⟩ := Prod.mk.inj heq
    have := length_of_scanPower hp
    simp only [List.length_cons]
    omega
  · obtain ⟨-, rfl⟩ : none = e ∧ text = after := by simpa using h
    exact Nat.le_refl _

def scanNumber (text : List Char) : Option (Numeral × List Char) :=
  let (negative, unsigned) :=
    match text with
    | '-' :: rest => (true, rest)
    | rest => (false, rest)
  match scanWhole unsigned with
  | none => none
  | some (whole, afterWhole) =>
    match scanFraction afterWhole with
    | none => none
    | some (fraction, afterFraction) =>
      (scanExponent afterFraction).map fun (exponent, after) =>
        (⟨negative, whole, fraction, exponent⟩, after)

theorem length_of_scanNumber {text after : List Char} {n : Numeral}
    (h : scanNumber text = some (n, after)) : after.length < text.length := by
  unfold scanNumber at h
  split at h
  next negative unsigned hsign =>
  have signed : unsigned.length ≤ text.length := by
    split at hsign <;> obtain ⟨-, rfl⟩ := Prod.mk.inj hsign <;> simp
  split at h
  · simp at h
  · next whole afterWhole hw =>
    split at h
    · simp at h
    · next fraction afterFraction hf =>
      obtain ⟨⟨e, left⟩, he, heq⟩ := Option.map_eq_some_iff.1 h
      obtain ⟨-, rfl⟩ := Prod.mk.inj heq
      have := length_of_scanWhole hw
      have := length_of_scanFraction hf
      have := length_of_scanExponent he
      omega

def scan : List Char → Option (Token × List Char)
  | '[' :: rest => some (beginArray, rest)
  | ']' :: rest => some (endArray, rest)
  | '\x7b' :: rest => some (beginObject, rest)
  | '\x7d' :: rest => some (endObject, rest)
  | ',' :: rest => some (comma, rest)
  | ':' :: rest => some (colon, rest)
  | 'n' :: 'u' :: 'l' :: 'l' :: rest => some (null, rest)
  | 't' :: 'r' :: 'u' :: 'e' :: rest => some (bool true, rest)
  | 'f' :: 'a' :: 'l' :: 's' :: 'e' :: rest => some (bool false, rest)
  | '"' :: rest =>
    (scanString rest).map fun (units, after) => (string ((Text.joinUnits units).map String.ofList), after)
  | text => (scanNumber text).map fun (n, after) => (number n, after)

theorem length_of_scan {text after : List Char} {token : Token}
    (h : scan text = some (token, after)) : after.length < text.length := by
  unfold scan at h
  split at h
  case h_10 rest =>
    obtain ⟨⟨units, left⟩, hs, heq⟩ := Option.map_eq_some_iff.1 h
    obtain ⟨-, rfl⟩ := Prod.mk.inj heq
    have := length_of_scanString hs
    simp only [List.length_cons]
    omega
  case h_11 =>
    obtain ⟨⟨n, left⟩, hn, heq⟩ := Option.map_eq_some_iff.1 h
    obtain ⟨-, rfl⟩ := Prod.mk.inj heq
    exact length_of_scanNumber hn
  all_goals
    obtain ⟨-, rfl⟩ := Prod.mk.inj (Option.some.inj h)
    simp only [List.length_cons]
    omega

def ofText? (text : List Char) : Option (List Token) :=
  match _blank : text.dropWhile isBlank with
  | [] => some []
  | c :: rest =>
    match _scanned : scan (c :: rest) with
    | none => none
    | some (token, after) => (ofText? after).map (token :: ·)
termination_by text.length
decreasing_by
  have := (List.dropWhile_sublist isBlank (l := text)).length_le
  have := length_of_scan _scanned
  rw [_blank] at *
  omega

theorem ofText?_eq (text : List Char) :
    ofText? text =
      match text.dropWhile isBlank with
      | [] => some []
      | c :: rest => (scan (c :: rest)).bind fun (token, after) => (ofText? after).map (token :: ·) := by
  rw [ofText?]
  split
  · next h => rw [h]
  · next c rest h =>
    simp only [h]
    split <;> simp_all

end Token

/-- An array or object that is open around a value, with what came before in it, latest first. -/
inductive Frame where
  | array (items : List Json)
  | object (members : List (Option String × Json)) (key : Option String)

inductive Place where
  | value (outer : List Frame)
  | opened (outer : List Frame)
  /-- Before a key; an object may end here only if it has no member. -/
  | key (members : List (Option String × Json)) (outer : List Frame)
  | colon (members : List (Option String × Json)) (key : Option String) (outer : List Frame)
  | done (v : Json) (outer : List Frame)

namespace Place

def start (outer : List Frame) : Token → Option Place
  | .beginArray => some (opened outer)
  | .beginObject => some (key [] outer)
  | .null => some (done .null outer)
  | .bool b => some (done (.bool b) outer)
  | .number n => some (done (.number n) outer)
  | .string s => some (done (.string s) outer)
  | _ => none

def step : Place → Token → Option Place
  | value outer, t => start outer t
  | opened outer, .endArray => some (done (.array []) outer)
  | opened outer, t => start (.array [] :: outer) t
  | key [] outer, .endObject => some (done (.object []) outer)
  | key members outer, .string k => some (colon members k outer)
  | colon members k outer, .colon => some (value (.object members k :: outer))
  | done v (.array items :: outer), .comma => some (value (.array (v :: items) :: outer))
  | done v (.array items :: outer), .endArray => some (done (.array (v :: items).reverse) outer)
  | done v (.object members k :: outer), .comma => some (key ((k, v) :: members) outer)
  | done v (.object members k :: outer), .endObject =>
    some (done (.object ((k, v) :: members).reverse) outer)
  | _, _ => none

def run : Place → List Token → Option Place
  | p, [] => some p
  | p, t :: rest =>
    match step p t with
    | some q => run q rest
    | none => none

end Place

def ofTokens? (tokens : List Token) : Option Json :=
  match (Place.value []).run tokens with
  | some (.done v []) => some v
  | _ => none

def read? (text : String) : Option Json := (Token.ofText? text.toList).bind ofTokens?

end AnnotatedSource.Json
