import Mathlib.Data.List.Basic
import AnnotatedSource.Json.Reader

set_option autoImplicit false

namespace AnnotatedSource

namespace Text

theorem toNat_injective : Function.Injective Char.toNat := by
  intro c d h
  rw [← Char.ofNat_toNat c, h, Char.ofNat_toNat]

/-- Code units and whole code points, and the text that they stand for. -/
inductive Joins : List Nat → List Char → Prop
  | nil : Joins [] []
  | scalar (c : Char) {units : List Nat} {text : List Char} (rest : Joins units text) :
    Joins (c.toNat :: units) (c :: text)
  | pair {high low : Nat} (hhigh : 0xd800 ≤ high ∧ high < 0xdc00) (hlow : 0xdc00 ≤ low ∧ low < 0xe000)
    {c : Char} (hc : c.toNat = 0x10000 + (high - 0xd800) * 0x400 + (low - 0xdc00))
    {units : List Nat} {text : List Char} (rest : Joins units text) : Joins (high :: low :: units) (c :: text)

theorem joinUnits_of_joins {units : List Nat} {text : List Char} (h : Joins units text) :
    joinUnits units = some text := by
  induction h with
  | nil => rfl
  | scalar c rest ih => rw [joinUnits_scalar, ih, Option.map_some]
  | @pair high low hhigh hlow c hc units text rest ih =>
    have paired : (isHighSurrogate high && isLowSurrogate low) = true := by
      simp [isHighSurrogate, isLowSurrogate, hhigh, hlow]
    rw [joinUnits, if_pos paired, ih, ← hc, Char.ofNat_toNat, Option.map_some]

theorem toNat_ofNat_of_plain {u : Nat} (hu : u < 0x110000) (plain : isSurrogate u = false) :
    (Char.ofNat u).toNat = u := by
  simp only [isSurrogate, isHighSurrogate, isLowSurrogate, Bool.or_eq_false_iff, Bool.and_eq_false_iff,
    decide_eq_false_iff_not] at plain
  have valid : u.isValidChar := by
    unfold Nat.isValidChar
    omega
  rw [Char.ofNat, dif_pos valid]
  rfl

theorem joins_of_joinUnits {units : List Nat} {text : List Char} (small : ∀ u ∈ units, u < 0x110000)
    (h : joinUnits units = some text) : Joins units text := by
  fun_induction joinUnits units generalizing text with
  | case1 =>
    obtain rfl := Option.some.inj h
    exact .nil
  | case2 u surrogate => cases h
  | case3 u plain =>
    obtain rfl := Option.some.inj h
    have one := Joins.scalar (Char.ofNat u) .nil
    rwa [toNat_ofNat_of_plain (small u (by simp)) (by simpa using plain)] at one
  | case4 u v rest paired ih =>
    obtain ⟨tail, htail, rfl⟩ := Option.map_eq_some_iff.1 h
    have rest := ih (fun w hw => small w (by simp [hw])) htail
    simp only [isHighSurrogate, isLowSurrogate, Bool.and_eq_true, decide_eq_true_eq] at paired
    refine .pair paired.1 paired.2 (toNat_ofNat_of_plain (by omega) ?_) rest
    simp only [isSurrogate, isHighSurrogate, isLowSurrogate, Bool.or_eq_false_iff, Bool.and_eq_false_iff,
      decide_eq_false_iff_not]
    omega
  | case5 u v rest unpaired surrogate => cases h
  | case6 u v rest unpaired plain ih =>
    obtain ⟨tail, htail, rfl⟩ := Option.map_eq_some_iff.1 h
    have one := Joins.scalar (Char.ofNat u) (ih (fun w hw => small w (List.mem_cons_of_mem u hw)) htail)
    rwa [toNat_ofNat_of_plain (small u (by simp)) (by simpa using plain)] at one

end Text

namespace Json

def shortEscapes : List (Char × Char) :=
  [('"', '"'), ('\\', '\\'), ('/', '/'), ('b', '\x08'), ('f', '\x0c'), ('n', '\n'), ('r', '\r'), ('t', '\t')]

def HexDigit (v : Nat) (c : Char) : Prop := v < 16 ∧ (c = Text.hexDigit v ∨ c = (Text.hexDigit v).toUpper)

def HexUnit (u : Nat) (digits : List Char) : Prop :=
  ∃ a b c d, digits = [a, b, c, d] ∧ HexDigit (u / 0x1000) a ∧ HexDigit (u / 0x100 % 16) b ∧
    HexDigit (u / 0x10 % 16) c ∧ HexDigit (u % 16) d

/-- What may stand between the quotation marks of a literal, by the units that it writes. -/
inductive Spells : List Nat → List Char → Prop
  | nil : Spells [] []
  | plain {c : Char} (printed : 0x20 ≤ c.toNat) (quote : c ≠ '"') (solidus : c ≠ '\\') {units : List Nat}
    {spelling : List Char} (rest : Spells units spelling) : Spells (c.toNat :: units) (c :: spelling)
  | short {e c : Char} (listed : (e, c) ∈ shortEscapes) {units : List Nat} {spelling : List Char}
    (rest : Spells units spelling) : Spells (c.toNat :: units) ('\\' :: e :: spelling)
  | unit {u : Nat} {digits : List Char} (hex : HexUnit u digits) {units : List Nat} {spelling : List Char}
    (rest : Spells units spelling) : Spells (u :: units) ('\\' :: 'u' :: (digits ++ spelling))

theorem hexValue?_of_hexDigit {v : Nat} {c : Char} (h : HexDigit v c) : Text.digitValue? 16 c = some v := by
  have all : ∀ v < 16, Text.digitValue? 16 (Text.hexDigit v) = some v ∧
      Text.digitValue? 16 (Text.hexDigit v).toUpper = some v := by decide
  rcases h with ⟨hv, rfl | rfl⟩
  · exact (all v hv).1
  · exact (all v hv).2

theorem number?_of_hexUnit {u : Nat} {a b c d : Char} (h : HexUnit u [a, b, c, d]) :
    Text.number? 16 [a, b, c, d] = some u := by
  obtain ⟨a, b, c, d, heq, ha, hb, hc, hd⟩ := h
  cases heq
  simp only [Text.number?, Text.digitsFrom?, hexValue?_of_hexDigit ha, hexValue?_of_hexDigit hb,
    hexValue?_of_hexDigit hc, hexValue?_of_hexDigit hd, Option.some.injEq]
  omega

theorem shortEscape?_of_listed {e c : Char} (h : (e, c) ∈ shortEscapes) :
    Token.shortEscape? e = some c ∧ e ≠ 'u' := by
  have all : ∀ entry ∈ shortEscapes, Token.shortEscape? entry.1 = some entry.2 ∧ entry.1 ≠ 'u' := by decide
  exact all (e, c) h

theorem scanString_of_spells {units : List Nat} {spelling : List Char} (h : Spells units spelling)
    (after : List Char) : Token.scanString (spelling ++ '"' :: after) = some (units, after) := by
  induction h with
  | nil => simp [Token.scanString]
  | plain printed quote solidus rest ih =>
    rw [List.cons_append, Token.scanString, ih]
    · simp [Nat.not_lt.2 printed, solidus]
    all_goals simp_all
  | short listed rest ih =>
    obtain ⟨named, ne⟩ := shortEscape?_of_listed listed
    rw [List.cons_append, List.cons_append, Token.scanString, named, ih]
    simp [ne]
  | unit hex rest ih =>
    obtain ⟨a, b, c, d, rfl, -⟩ := id hex
    simp [Token.scanString, number?_of_hexUnit hex, ih]

theorem hexUnit_control {n : Nat} (h : n < 0x20) :
    HexUnit n ['0', '0', Text.hexDigit (n / 16), Text.hexDigit n] := by
  have last : Text.hexDigit n = Text.hexDigit (n % 16) := by simp [Text.hexDigit]
  have none : n / 0x1000 = 0 ∧ n / 0x100 % 16 = 0 := by omega
  refine ⟨_, _, _, _, rfl, ?_, ?_, ?_, ?_⟩
  · rw [none.1]
    exact ⟨by decide, .inl rfl⟩
  · rw [none.2]
    exact ⟨by decide, .inl rfl⟩
  · have small : n / 16 < 16 := by omega
    exact ⟨by omega, .inl (by rw [Nat.mod_eq_of_lt small])⟩
  · exact ⟨by omega, .inl last⟩

theorem spells_escapeChar (c : Char) {units : List Nat} {spelling : List Char} (rest : Spells units spelling) :
    Spells (c.toNat :: units) (Text.Quoted.escapeChar c ++ spelling) := by
  unfold Text.Quoted.escapeChar
  split
  case h_8 quote solidus _ _ _ _ _ =>
    split
    · next control => exact .unit (hexUnit_control control) rest
    · next printed => exact .plain (Nat.not_lt.1 printed) quote solidus rest
  all_goals exact .short (by decide) rest

theorem spells_escape (text : List Char) :
    Spells (text.map Char.toNat) (text.flatMap Text.Quoted.escapeChar) := by
  induction text with
  | nil => exact .nil
  | cons c text ih => exact spells_escapeChar c ih

theorem encode_append_inj {a b : List Char} {s t : List Char}
    (h : Text.Quoted.encode s ++ a = Text.Quoted.encode t ++ b) : s = t ∧ a = b := by
  simp only [Text.Quoted.encode, List.cons_append, List.append_assoc, List.nil_append, List.cons.injEq,
    true_and] at h
  have hs := scanString_of_spells (spells_escape s) a
  have ht := scanString_of_spells (spells_escape t) b
  rw [h, ht] at hs
  obtain ⟨units, rfl⟩ := Prod.mk.inj (Option.some.inj hs)
  exact ⟨(List.map_injective_iff.2 Text.toNat_injective units).symm, rfl⟩

end Json
end AnnotatedSource
