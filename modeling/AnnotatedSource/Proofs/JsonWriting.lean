import AnnotatedSource.Json.Writer
import AnnotatedSource.Proofs.JsonTexts

set_option autoImplicit false

namespace AnnotatedSource

namespace Numeral

def IsDecimal (n : Numeral) : Prop := ∀ d ∈ n.fraction, d < 10

theorem toList_repr_of_lt {d : Nat} (h : d < 10) : d.repr.toList = [Nat.digitChar d] := by
  rw [Nat.toList_repr, Nat.toDigits_of_lt_base h]

theorem fraction_join {digits : List Nat} (ne : digits ≠ []) (small : ∀ d ∈ digits, d < 10) :
    Fraction digits ("." ++ String.join (digits.map Nat.repr)).toList := by
  have joined : (String.join (digits.map Nat.repr)).toList = digits.map Nat.digitChar := by
    rw [String.toList_join, List.flatMap_map, List.map_eq_flatMap]
    exact List.flatMap_congr fun d hd => toList_repr_of_lt (small d hd)
  rw [String.toList_append, joined]
  exact .point ne small

theorem power_repr (k : Int) : Power k k.repr.toList := by
  cases k with
  | ofNat n =>
    rw [Int.repr, Nat.toList_repr]
    exact .unsigned (Text.decimal_toDigits n)
  | negSucc n =>
    rw [Int.repr, String.toList_append, Nat.toList_repr]
    exact .minus (Text.decimal_toDigits (n + 1))

def exponentText : Option Int → String
  | some k => "e" ++ k.repr
  | none => ""

theorem exponent_exponentText (exponent : Option Int) : Exponent exponent (exponentText exponent).toList := by
  cases exponent with
  | none => exact .none
  | some k =>
    rw [exponentText, String.toList_append]
    exact .lower (power_repr k)

theorem numeralText_eq (n : Numeral) : Json.numeralText n = (if n.negative then "-" else "") ++ n.whole.repr ++
    (if n.fraction.isEmpty then "" else "." ++ String.join (n.fraction.map Nat.repr)) ++ exponentText n.exponent := by
  obtain ⟨negative, whole, digits, exponent⟩ := n
  cases exponent <;> rfl

theorem spelled_numeralText {n : Numeral} (h : n.IsDecimal) : n.Spelled (Json.numeralText n).toList := by
  rw [numeralText_eq]
  obtain ⟨negative, whole, digits, exponent⟩ := n
  have hwhole : Whole whole whole.repr.toList := by
    rw [Nat.toList_repr]
    exact whole_toDigits whole
  have hfraction : Fraction digits
      (if digits.isEmpty then "" else "." ++ String.join (digits.map Nat.repr)).toList := by
    cases digits with
    | nil => exact .none
    | cons d rest => exact fraction_join (List.cons_ne_nil d rest) h
  have hexponent := exponent_exponentText exponent
  cases negative with
  | false => simpa using Spelled.unsigned hwhole hfraction hexponent
  | true => simpa using Spelled.minus hwhole hfraction hexponent

end Numeral

namespace Json

mutual

def IsDecimal : Json → Prop
  | null => True
  | bool _ => True
  | number n => n.IsDecimal
  | string _ => True
  | array items => AreDecimal items
  | object members => AreDecimalMembers members

def AreDecimal : List Json → Prop
  | [] => True
  | v :: rest => IsDecimal v ∧ AreDecimal rest

def AreDecimalMembers : List (Option String × Json) → Prop
  | [] => True
  | (_, v) :: rest => IsDecimal v ∧ AreDecimalMembers rest

end

theorem blanks_lineAt (level : Nat) : Blanks (lineAt level).toList := by
  intro c hc
  simp only [lineAt, String.toList_append, String.toList_ofList, List.mem_append, List.mem_replicate] at hc
  rcases hc with newline | ⟨-, rfl⟩
  · obtain rfl : c = '\n' := by simpa using newline
    rfl
  · rfl

theorem blanks_space : Blanks [' '] := by
  intro c hc
  obtain rfl := List.mem_singleton.1 hc
  rfl

theorem literal_literalText (s : Option String) : Literal s (literalText s).toList := by
  cases s with
  | some s =>
    have written := literal_encode s.toList
    rwa [String.ofList_toList, ← String.toList_ofList (l := Text.Quoted.encode s.toList)] at written
  | none =>
    -- half of a pair, spelled by its unit
    have hex : HexUnit 0xd800 ['d', '8', '0', '0'] :=
      ⟨_, _, _, _, rfl, ⟨by decide, .inl rfl⟩, ⟨by decide, .inl rfl⟩, ⟨by decide, .inl rfl⟩, ⟨by decide, .inl rfl⟩⟩
    exact literal_of_spells (Spells.unit hex .nil)

theorem key_literalText (s : Option String) {before : List Char} (h : Blanks before) :
    Key s (before ++ ((literalText s).toList ++ [])) :=
  ⟨before, _, [], rfl, h, literal_literalText s, blanks_nil⟩

-- By recursion on the document. Behind the first item or member there is a new line before each.
mutual

theorem writes_prettyAt : ∀ (level : Nat) {v : Json}, v.IsDecimal → Writes v (prettyAt level v).toList
  | _, .null, _ => .null
  | _, .bool b, _ => .bool b
  | _, .number _, h => .number (Numeral.spelled_numeralText h)
  | _, .string s, _ => .string (literal_literalText s)
  | _, .array [], _ => (Writes.emptyArray blanks_nil).of_eq (by simp [prettyAt])
  | level, .array (v :: rest), h => by
    have items := writesItems_prettyItems (level + 1) (List.cons_ne_nil v rest) h (blanks_lineAt (level + 1))
      (blanks_lineAt level)
    refine (Writes.array items).of_eq ?_
    simp [prettyAt]
  | _, .object [], _ => (Writes.emptyObject blanks_nil).of_eq (by simp [prettyAt])
  | level, .object (m :: rest), h => by
    have members := writesMembers_prettyMembers (level + 1) (List.cons_ne_nil m rest) h (blanks_lineAt (level + 1))
      (blanks_lineAt level)
    refine (Writes.object members).of_eq ?_
    simp [prettyAt]

theorem writesItems_prettyItems : ∀ (level : Nat) {items : List Json}, items ≠ [] → AreDecimal items →
    ∀ {before behind : List Char}, Blanks before → Blanks behind →
      WritesItems items (before ++ ((prettyItems level items).toList ++ behind))
  | level, [v], _, h, before, behind, hbefore, hbehind =>
    .last (.padded hbefore (writes_prettyAt level h.1) hbehind)
  | level, v :: w :: rest, _, h, before, behind, hbefore, hbehind => by
    have first := Writes.padded hbefore (writes_prettyAt level h.1) blanks_nil
    have others := writesItems_prettyItems level (List.cons_ne_nil w rest) h.2 (blanks_lineAt level) hbehind
    have items := WritesItems.more first others
    simpa [prettyItems] using items

theorem writesMembers_prettyMembers : ∀ (level : Nat) {members : List (Option String × Json)}, members ≠ [] →
    AreDecimalMembers members → ∀ {before behind : List Char}, Blanks before → Blanks behind →
      WritesMembers members (before ++ ((prettyMembers level members).toList ++ behind))
  | level, [(k, v)], _, h, before, behind, hbefore, hbehind => by
    have value := Writes.padded blanks_space (writes_prettyAt level h.1) hbehind
    have members := WritesMembers.last (key_literalText k hbefore) value
    simpa [prettyMembers] using members
  | level, (k, v) :: m :: rest, _, h, before, behind, hbefore, hbehind => by
    have value := Writes.padded blanks_space (writes_prettyAt level h.1) blanks_nil
    have others := writesMembers_prettyMembers level (List.cons_ne_nil m rest) h.2 (blanks_lineAt level) hbehind
    have members := WritesMembers.more (key_literalText k hbefore) value others
    simpa [prettyMembers] using members

end

theorem read?_pretty {v : Json} (h : v.IsDecimal) : read? v.pretty = some v :=
  read?_of_writes (writes_prettyAt 0 h)

end Json
end AnnotatedSource
