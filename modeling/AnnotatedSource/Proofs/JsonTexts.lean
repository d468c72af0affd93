import AnnotatedSource.Proofs.Literals
import AnnotatedSource.Proofs.Numerals

set_option autoImplicit false

namespace AnnotatedSource.Json

/-- A literal; it denotes no text where half of a surrogate pair stands alone in it. -/
def Literal (s : Option String) (text : List Char) : Prop :=
  ∃ units spelling, text = '"' :: (spelling ++ ['"']) ∧ Spells units spelling ∧
    ∀ chars, Text.Joins units chars ↔ s = some (String.ofList chars)

def Blanks (text : List Char) : Prop := ∀ c ∈ text, Token.isBlank c

def Key (s : Option String) (text : List Char) : Prop :=
  ∃ before literal behind, text = before ++ (literal ++ behind) ∧ Blanks before ∧ Literal s literal ∧ Blanks behind

mutual

inductive Writes : Json → List Char → Prop
  | null : Writes null "null".toList
  | bool (b : Bool) : Writes (bool b) (Text.ofBool b).toList
  | number {n : Numeral} {text : List Char} (h : n.Spelled text) : Writes (number n) text
  | string {s : Option String} {text : List Char} (h : Literal s text) : Writes (string s) text
  | emptyArray {blanks : List Char} (h : Blanks blanks) : Writes (array []) ('[' :: (blanks ++ [']']))
  | array {items : List Json} {text : List Char} (h : WritesItems items text) :
    Writes (array items) ('[' :: (text ++ [']']))
  | emptyObject {blanks : List Char} (h : Blanks blanks) : Writes (object []) ('\x7b' :: (blanks ++ ['\x7d']))
  | object {members : List (Option String × Json)} {text : List Char} (h : WritesMembers members text) :
    Writes (object members) ('\x7b' :: (text ++ ['\x7d']))
  | padded {v : Json} {before text behind : List Char} (hbefore : Blanks before) (h : Writes v text)
    (hbehind : Blanks behind) : Writes v (before ++ (text ++ behind))

inductive WritesItems : List Json → List Char → Prop
  | last {v : Json} {text : List Char} (h : Writes v text) : WritesItems [v] text
  | more {v : Json} {items : List Json} {text others : List Char} (h : Writes v text)
    (rest : WritesItems items others) : WritesItems (v :: items) (text ++ ',' :: others)

inductive WritesMembers : List (Option String × Json) → List Char → Prop
  | last {key : Option String} {v : Json} {name text : List Char} (hkey : Key key name) (h : Writes v text) :
    WritesMembers [(key, v)] (name ++ ':' :: text)
  | more {key : Option String} {v : Json} {members : List (Option String × Json)} {name text others : List Char}
    (hkey : Key key name) (h : Writes v text) (rest : WritesMembers members others) :
    WritesMembers ((key, v) :: members) (name ++ ':' :: (text ++ ',' :: others))

end

variable {text after : List Char}

theorem Writes.of_eq {v : Json} {same : List Char} (h : Writes v text) (eq : text = same) : Writes v same := eq ▸ h

def Follows (after : List Char) : Prop :=
  ∀ c ∈ after.head?, c ∈ [' ', '\t', '\n', '\r', ',', ']', '\x7d']

theorem isBlank_iff (c : Char) : Token.isBlank c = true ↔ c ∈ [' ', '\t', '\n', '\r'] := by
  simp [Token.isBlank, or_assoc]

theorem Follows.ends (follows : Follows after) : Numeral.Ends after := by
  have apart : ∀ c ∈ [' ', '\t', '\n', '\r', ',', ']', '\x7d'],
      Text.isDecimal c = false ∧ c ≠ '.' ∧ c ≠ 'e' ∧ c ≠ 'E' := by simp [Text.isDecimal]
  exact fun c hc => apart c (follows c hc)

theorem Follows.behind_blanks (follows : Follows after) {blanks : List Char} (h : Blanks blanks) :
    Follows (blanks ++ after) := by
  cases blanks with
  | nil => exact follows
  | cons c blanks =>
    intro d hd
    obtain rfl : c = d := Option.some.inj hd
    have blank := (isBlank_iff c).1 (h c List.mem_cons_self)
    exact List.mem_append_left [',', ']', '\x7d'] blank

theorem follows_cons {c : Char} (h : c ∈ [',', ']', '\x7d']) : Follows (c :: after) := by
  intro d hd
  obtain rfl : c = d := Option.some.inj hd
  exact List.mem_append_right [' ', '\t', '\n', '\r'] h

def Starts (token : Token) (text after : List Char) : Prop :=
  (∀ c ∈ text.head?, Token.isBlank c = false) ∧ Token.scan text = some (token, after)

theorem scan_of_head {c : Char} (h : c = '-' ∨ Text.isDecimal c) (rest : List Char) :
    Token.scan (c :: rest) = (Token.scanNumber (c :: rest)).map fun (n, after) => (.number n, after) := by
  have apart : ∀ d ∈ ['[', ']', '\x7b', '\x7d', ',', ':', 'n', 't', 'f', '"'], d ≠ c := by
    intro d hd heq
    subst heq
    have other : ∀ d ∈ ['[', ']', '\x7b', '\x7d', ',', ':', 'n', 't', 'f', '"'], ¬ (d = '-' ∨ Text.isDecimal d) := by
      simp [Text.isDecimal]
    exact other d hd h
  rw [Token.scan]
  all_goals
    intros
    simp_all

theorem starts_number {n : Numeral} (h : n.Spelled text) (ends : Numeral.Ends after) :
    Starts (.number n) (text ++ after) after := by
  have scanned := Numeral.scanNumber_append h ends
  obtain ⟨c, rest, rfl, first⟩ := h.head
  constructor
  · intro d hd
    obtain rfl : c = d := Option.some.inj hd
    by_contra blank
    rw [Bool.not_eq_false, isBlank_iff] at blank
    have apart : ∀ c ∈ [' ', '\t', '\n', '\r'], ¬ (c = '-' ∨ Text.isDecimal c) := by simp [Text.isDecimal]
    exact apart c blank first
  · rw [List.cons_append, scan_of_head first, ← List.cons_append, scanned, Option.map_some]

theorem lt_of_spells {units : List Nat} {spelling : List Char} (h : Spells units spelling) :
    ∀ u ∈ units, u < 0x110000 := by
  induction h with
  | nil => simp
  | @plain c _ _ _ units _ _ ih => exact List.forall_mem_cons.2 ⟨Text.toNat_lt c, ih⟩
  | @short _ c _ units _ _ ih => exact List.forall_mem_cons.2 ⟨Text.toNat_lt c, ih⟩
  | @unit u _ hex units _ _ ih =>
    obtain ⟨_, _, _, _, -, ⟨high, -⟩, -⟩ := hex
    exact List.forall_mem_cons.2 ⟨by omega, ih⟩

theorem joinUnits_of_literal {s : Option String} {units : List Nat} {spelling : List Char}
    (spells : Spells units spelling) (denotes : ∀ chars, Text.Joins units chars ↔ s = some (String.ofList chars)) :
    (Text.joinUnits units).map String.ofList = s := by
  cases joined : Text.joinUnits units with
  | some chars => exact ((denotes chars).1 (Text.joins_of_joinUnits (lt_of_spells spells) joined)).symm
  | none =>
    cases s with
    | none => rfl
    | some s =>
      have joins := (denotes s.toList).2 (by rw [String.ofList_toList])
      rw [Text.joinUnits_of_joins joins] at joined
      cases joined

theorem literal_of_spells {units : List Nat} {spelling : List Char} (spells : Spells units spelling) :
    Literal ((Text.joinUnits units).map String.ofList) ('"' :: (spelling ++ ['"'])) := by
  refine ⟨units, spelling, rfl, spells, fun chars => ⟨fun joins => ?_, fun h => ?_⟩⟩
  · rw [Text.joinUnits_of_joins joins, Option.map_some]
  · obtain ⟨joined, hjoined, same⟩ := Option.map_eq_some_iff.1 h
    rw [String.ofList_injective same] at hjoined
    exact Text.joins_of_joinUnits (lt_of_spells spells) hjoined

theorem literal_encode (text : List Char) : Literal (some (String.ofList text)) (Text.Quoted.encode text) := by
  have written := literal_of_spells (spells_escape text)
  rwa [Text.joinUnits_of_scalars] at written

theorem blanks_nil : Blanks [] := fun _ h => nomatch h

theorem key_encode (name : String) : Key (some name) (Text.Quoted.encode name.toList) := by
  have literal := literal_encode name.toList
  rw [String.ofList_toList] at literal
  exact ⟨[], _, [], (List.append_nil _).symm, blanks_nil, literal, blanks_nil⟩

theorem starts_literal {s : Option String} (h : Literal s text) (after : List Char) :
    Starts (.string s) (text ++ after) after := by
  obtain ⟨units, spelling, rfl, spells, denotes⟩ := h
  constructor
  · intro c hc
    obtain rfl : '"' = c := Option.some.inj hc
    rfl
  · show (Token.scanString (spelling ++ ['"'] ++ after)).map _ = _
    rw [List.append_assoc, List.singleton_append, scanString_of_spells spells]
    exact congrArg (fun s => some (Token.string s, after)) (joinUnits_of_literal spells denotes)

theorem starts_bool (b : Bool) (after : List Char) : Starts (.bool b) ((Text.ofBool b).toList ++ after) after := by
  cases b with
  | false => exact ⟨fun c hc => Option.some.inj hc ▸ rfl, rfl⟩
  | true => exact ⟨fun c hc => Option.some.inj hc ▸ rfl, rfl⟩

namespace Place

def readFrom (p : Place) (text : List Char) : Option Place := (Token.ofText? text).bind p.run

theorem readFrom_token {p q : Place} {token : Token} (starts : Starts token text after)
    (stepped : p.step token = some q) : p.readFrom text = q.readFrom after := by
  obtain ⟨nonblank, scanned⟩ := starts
  cases text with
  | nil => simp [Token.scan, Token.scanNumber, Token.scanWhole, Token.scanDigits] at scanned
  | cons c rest =>
    have first : (c :: rest).dropWhile Token.isBlank = c :: rest :=
      List.dropWhile_cons_of_neg (by simp [nonblank c rfl])
    simp only [readFrom, Token.ofText?_eq (c :: rest), first, scanned, Option.bind_some]
    cases Token.ofText? after with
    | none => rfl
    | some tokens => simp only [Option.map_some, Option.bind_some, run, stepped]

theorem readFrom_blanks (p : Place) {blanks : List Char} (h : Blanks blanks) (text : List Char) :
    p.readFrom (blanks ++ text) = p.readFrom text := by
  have dropped : (blanks ++ text).dropWhile Token.isBlank = text.dropWhile Token.isBlank :=
    List.dropWhile_append_of_pos h
  rw [readFrom, readFrom, Token.ofText?_eq, dropped, ← Token.ofText?_eq]

def Expects (p : Place) (outer : List Frame) : Prop := ∀ t, t ≠ Token.endArray → step p t = start outer t

theorem expects_value (outer : List Frame) : (value outer).Expects outer := fun _ _ => rfl

theorem expects_opened (outer : List Frame) : (opened outer).Expects (.array [] :: outer) := by
  intro t ht
  cases t with
  | endArray => exact absurd rfl ht
  | _ => rfl

theorem readFrom_key {k : Option String} {name : List Char} (h : Key k name) (members : List (Option String × Json))
    (outer : List Frame) (after : List Char) :
    (key members outer).readFrom (name ++ after) = (colon members k outer).readFrom after := by
  obtain ⟨before, literal, behind, rfl, hbefore, hliteral, hbehind⟩ := h
  have stepped : (key members outer).step (.string k) = some (colon members k outer) := by
    cases members <;> rfl
  rw [List.append_assoc, List.append_assoc, readFrom_blanks _ hbefore,
    readFrom_token (starts_literal hliteral (behind ++ after)) stepped, readFrom_blanks _ hbehind]

theorem readFrom_mark {p q : Place} {c : Char} {token : Token} (nonblank : Token.isBlank c = false)
    (scanned : Token.scan (c :: after) = some (token, after)) (stepped : p.step token = some q) :
    p.readFrom (c :: after) = q.readFrom after :=
  readFrom_token ⟨fun _ hd => Option.some.inj hd ▸ nonblank, scanned⟩ stepped

-- By recursion on the grammar. The place is left open: an item stands behind a bracket or behind a comma.
mutual

theorem readFrom_value : ∀ {v : Json} {text : List Char}, Writes v text → ∀ {p : Place} {outer : List Frame},
    p.Expects outer → ∀ {after : List Char}, Follows after →
      p.readFrom (text ++ after) = (done v outer).readFrom after
  | _, _, .null, p, outer, expects, after, _ => by
    have starts : Starts .null ("null".toList ++ after) after := ⟨fun c hc => Option.some.inj hc ▸ rfl, rfl⟩
    exact readFrom_token starts (expects .null (by simp))
  | _, _, .bool b, p, outer, expects, after, _ =>
    readFrom_token (starts_bool b after) (expects (.bool b) (by simp))
  | _, _, .number h, p, outer, expects, after, follows =>
    readFrom_token (starts_number h follows.ends) (expects (.number _) (by simp))
  | _, _, .string h, p, outer, expects, after, _ =>
    readFrom_token (starts_literal h after) (expects (.string _) (by simp))
  | _, _, .emptyArray h, p, outer, expects, after, _ => by
    rw [List.cons_append, List.append_assoc, readFrom_mark rfl rfl (expects .beginArray (by simp)),
      readFrom_blanks _ h]
    exact readFrom_mark rfl rfl rfl
  | _, _, .array h, p, outer, expects, after, _ => by
    rw [List.cons_append, List.append_assoc, readFrom_mark rfl rfl (expects .beginArray (by simp))]
    exact readFrom_items h (expects_opened outer) after
  | _, _, .emptyObject h, p, outer, expects, after, _ => by
    rw [List.cons_append, List.append_assoc, readFrom_mark rfl rfl (expects .beginObject (by simp)),
      readFrom_blanks _ h]
    exact readFrom_mark rfl rfl rfl
  | _, _, .object h, p, outer, expects, after, _ => by
    rw [List.cons_append, List.append_assoc, readFrom_mark rfl rfl (expects .beginObject (by simp))]
    exact readFrom_members h [] outer after
  | _, _, .padded hbefore h hbehind, p, outer, expects, after, follows => by
    rw [List.append_assoc, List.append_assoc, readFrom_blanks _ hbefore,
      readFrom_value h expects (follows.behind_blanks hbehind), readFrom_blanks _ hbehind]

theorem readFrom_items : ∀ {items : List Json} {text : List Char}, WritesItems items text →
    ∀ {p : Place} {seen : List Json} {outer : List Frame}, p.Expects (.array seen :: outer) → ∀ after : List Char,
      p.readFrom (text ++ ']' :: after) = (done (array (seen.reverse ++ items)) outer).readFrom after
  | _, _, @WritesItems.last v _ h, p, seen, outer, expects, after => by
    rw [readFrom_value h expects (follows_cons (by simp)), readFrom_mark rfl rfl rfl, List.reverse_cons]
  | _, _, @WritesItems.more v _ _ _ h rest, p, seen, outer, expects, after => by
    have comma : (done v (.array seen :: outer)).step .comma = some (value (.array (v :: seen) :: outer)) := rfl
    rw [List.append_assoc, List.cons_append, readFrom_value h expects (follows_cons (by simp)),
      readFrom_mark rfl rfl comma, readFrom_items rest (expects_value _), List.reverse_cons, List.append_assoc]
    rfl

theorem readFrom_members : ∀ {members : List (Option String × Json)} {text : List Char}, WritesMembers members text →
    ∀ (seen : List (Option String × Json)) (outer : List Frame) (after : List Char),
      (key seen outer).readFrom (text ++ '\x7d' :: after) =
        (done (object (seen.reverse ++ members)) outer).readFrom after
  | _, _, @WritesMembers.last k v _ _ hkey h, seen, outer, after => by
    have colon : (colon seen k outer).step .colon = some (value (.object seen k :: outer)) := rfl
    rw [List.append_assoc, List.cons_append, readFrom_key hkey, readFrom_mark rfl rfl colon,
      readFrom_value h (expects_value _) (follows_cons (by simp)), readFrom_mark rfl rfl rfl, List.reverse_cons]
  | _, _, @WritesMembers.more k v _ _ _ _ hkey h rest, seen, outer, after => by
    have colon : (colon seen k outer).step .colon = some (value (.object seen k :: outer)) := rfl
    have comma : (done v (.object seen k :: outer)).step .comma = some (key ((k, v) :: seen) outer) := rfl
    rw [List.append_assoc, List.cons_append, List.append_assoc, List.cons_append, readFrom_key hkey,
      readFrom_mark rfl rfl colon, readFrom_value h (expects_value _) (follows_cons (by simp)),
      readFrom_mark rfl rfl comma, readFrom_members rest, List.reverse_cons, List.append_assoc]
    rfl

end

end Place

/-- A document is read from each text that writes it. -/
theorem read?_of_writes {v : Json} {text : String} (h : Writes v text.toList) : read? text = some v := by
  have whole : (Place.value []).readFrom (text.toList ++ []) = (Place.done v []).readFrom [] :=
    Place.readFrom_value h (Place.expects_value []) fun _ hc => nomatch hc
  have ended : (Place.done v []).readFrom [] = some (.done v []) := by
    rw [Place.readFrom, Token.ofText?_eq]
    rfl
  rw [List.append_nil, ended] at whole
  obtain ⟨tokens, scanned, run⟩ := Option.bind_eq_some_iff.1 whole
  rw [read?, scanned, Option.bind_some, ofTokens?, run]

end AnnotatedSource.Json
