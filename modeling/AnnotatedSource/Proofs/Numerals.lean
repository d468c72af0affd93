import Mathlib.Data.List.Basic
import AnnotatedSource.Json.Reader

set_option autoImplicit false

namespace AnnotatedSource

namespace Text

theorem isDecimal_iff (c : Char) : isDecimal c = true ↔ '0' ≤ c ∧ c ≤ '9' := by simp [isDecimal]

theorem isDecimal_eq_isDigit (c : Char) : isDecimal c = c.isDigit := by
  simp only [isDecimal, Char.isDigit, Char.le_def]

theorem toNat_bounds {a b c : Char} (h : a ≤ c ∧ c ≤ b) : a.toNat ≤ c.toNat ∧ c.toNat ≤ b.toNat := h

theorem digitValue?_ten (c : Char) : digitValue? 10 c = if isDecimal c then some (c.toNat - 48) else none := by
  unfold digitValue? hexValue?
  by_cases decimal : '0' ≤ c ∧ c ≤ '9'
  · have bounds := toNat_bounds decimal
    have small : c.toNat - 48 < 10 := by
      have : c.toNat ≤ 57 := bounds.2
      omega
    rw [if_pos decimal, if_pos ((isDecimal_iff c).2 decimal), Option.filter_some, if_pos (by simpa using small)]
  · have large : ∀ n, 10 ≤ n → (some n).filter (fun n => decide (n < 10)) = none := by
      intro n hn
      rw [Option.filter_some, if_neg (by simpa using hn)]
    rw [if_neg decimal, if_neg (mt (isDecimal_iff c).1 decimal)]
    split
    · next lower =>
      have : 97 ≤ c.toNat := (toNat_bounds lower).1
      exact large _ (by omega)
    · split
      · next upper =>
        have : 65 ≤ c.toNat := (toNat_bounds upper).1
        exact large _ (by omega)
      · rfl

theorem digitsFrom?_ten (value : Nat) (text : List Char) : digitsFrom? 10 value text =
    if text.all isDecimal then some (Nat.ofDigitChars 10 text value) else none := by
  induction text generalizing value with
  | nil => simp [digitsFrom?, Nat.ofDigitChars]
  | cons c text ih =>
    rw [digitsFrom?, digitValue?_ten]
    by_cases hc : isDecimal c
    · simp only [hc, if_true, ih, List.all_cons, Bool.true_and]
      rw [Nat.mul_comm value 10]
      rfl
    · simp [hc]

def Decimal (n : Nat) (digits : List Char) : Prop :=
  digits ≠ [] ∧ (∀ c ∈ digits, isDecimal c) ∧ Nat.ofDigitChars 10 digits 0 = n

theorem Decimal.of_head {n : Nat} {digits after rest : List Char} {c : Char} (h : Decimal n digits)
    (heq : digits ++ after = c :: rest) : isDecimal c = true := by
  obtain ⟨ne, decimal, -⟩ := h
  obtain ⟨d, more, rfl⟩ := List.exists_cons_of_ne_nil ne
  obtain rfl : d = c := (List.cons.inj heq).1
  exact decimal d List.mem_cons_self

theorem number?_eq_some_iff {text : List Char} {n : Nat} : number? 10 text = some n ↔ Decimal n text := by
  unfold Decimal
  cases text with
  | nil => simp [number?]
  | cons c text =>
    rw [number?, digitsFrom?_ten, ← List.all_eq_true]
    by_cases digits : (c :: text).all isDecimal
    · rw [if_pos digits]
      simp only [Option.some.injEq, ne_eq, reduceCtorEq, not_false_eq_true, true_and]
      exact ⟨fun h => ⟨digits, h⟩, fun h => h.2⟩
    · rw [if_neg digits]
      exact ⟨fun h => by simp at h, fun h => absurd h.2.1 digits⟩

theorem decimal_toDigits (n : Nat) : Decimal n (Nat.toDigits 10 n) := by
  refine ⟨Nat.toDigits_ne_nil, ?_, Nat.ofDigitChars_ten_toDigits⟩
  intro c hc
  rw [isDecimal_eq_isDigit]
  exact Nat.isDigit_of_mem_toDigits (by decide) (by decide) hc

theorem splitOn_eq (separator : Char) (text : List Char) : splitOn separator text = text.splitOn separator := by
  induction text with
  | nil => rfl
  | cons c text ih =>
    rw [splitOn, ih, List.splitOn_eq_splitOnP, List.splitOn_eq_splitOnP, List.splitOnP_cons_eq_if_modifyHead]
    by_cases hc : c = separator
    · simp [hc]
    · obtain ⟨first, rest, hsplit⟩ := List.exists_cons_of_ne_nil (List.splitOnP_ne_nil (· == separator) text)
      simp [hc, hsplit]

theorem not_mem_of_mem_splitOn {separator : Char} {text piece : List Char} (h : piece ∈ splitOn separator text) :
    separator ∉ piece := by
  induction text generalizing piece with
  | nil =>
    obtain rfl : piece = [] := by simpa [splitOn] using h
    simp
  | cons c text ih =>
    unfold splitOn at h
    by_cases hc : c = separator
    · rw [if_pos hc, List.mem_cons] at h
      rcases h with rfl | h
      · simp
      · exact ih h
    · rw [if_neg hc] at h
      obtain ⟨first, rest, hsplit⟩ := List.exists_cons_of_ne_nil (splitOn_ne_nil separator text)
      simp only [hsplit, List.mem_cons] at h ih
      rcases h with rfl | h
      · have hfirst := ih (.inl rfl)
        simp [hfirst, Ne.symm hc]
      · exact ih (.inr h)

theorem splitOn_eq_iff {separator : Char} {text : List Char} {pieces : List (List Char)} (ne : pieces ≠ []) :
    splitOn separator text = pieces ↔
      (∀ piece ∈ pieces, separator ∉ piece) ∧ text = [separator].intercalate pieces := by
  constructor
  · rintro rfl
    refine ⟨fun _ => not_mem_of_mem_splitOn, ?_⟩
    rw [splitOn_eq, List.intercalate_splitOn]
  · rintro ⟨free, rfl⟩
    rw [splitOn_eq, List.splitOn_intercalate separator free ne]

end Text

namespace Numeral

def Whole (n : Nat) (digits : List Char) : Prop :=
  Text.Decimal n digits ∧ (digits.head? = some '0' → digits = ['0'])

inductive Fraction : List Nat → List Char → Prop
  | none : Fraction [] []
  | point {digits : List Nat} (ne : digits ≠ []) (small : ∀ d ∈ digits, d < 10) :
    Fraction digits ('.' :: digits.map Nat.digitChar)

inductive Power : Int → List Char → Prop
  | unsigned {n : Nat} {digits : List Char} (h : Text.Decimal n digits) : Power n digits
  | plus {n : Nat} {digits : List Char} (h : Text.Decimal n digits) : Power n ('+' :: digits)
  | minus {n : Nat} {digits : List Char} (h : Text.Decimal n digits) : Power (-n) ('-' :: digits)

inductive Exponent : Option Int → List Char → Prop
  | none : Exponent none []
  | lower {power : Int} {text : List Char} (h : Power power text) : Exponent (some power) ('e' :: text)
  | upper {power : Int} {text : List Char} (h : Power power text) : Exponent (some power) ('E' :: text)

inductive Spelled : Numeral → List Char → Prop
  | unsigned {n : Nat} {digits : List Nat} {power : Option Int} {whole fraction exponent : List Char}
    (hwhole : Whole n whole) (hfraction : Fraction digits fraction) (hexponent : Exponent power exponent) :
    Spelled ⟨false, n, digits, power⟩ (whole ++ (fraction ++ exponent))
  | minus {n : Nat} {digits : List Nat} {power : Option Int} {whole fraction exponent : List Char}
    (hwhole : Whole n whole) (hfraction : Fraction digits fraction) (hexponent : Exponent power exponent) :
    Spelled ⟨true, n, digits, power⟩ ('-' :: (whole ++ (fraction ++ exponent)))

theorem Spelled.head {n : Numeral} {text : List Char} (h : Spelled n text) :
    ∃ c rest, text = c :: rest ∧ (c = '-' ∨ Text.isDecimal c) := by
  cases h with
  | @unsigned n digits power whole fraction exponent hw =>
    obtain ⟨c, rest, rfl⟩ := List.exists_cons_of_ne_nil hw.1.1
    exact ⟨c, _, rfl, .inr (hw.1.2.1 c List.mem_cons_self)⟩
  | minus => exact ⟨'-', _, rfl, .inl rfl⟩

theorem whole_toDigits (n : Nat) : Whole n (Nat.toDigits 10 n) := by
  refine ⟨Text.decimal_toDigits n, ?_⟩
  -- without the last digit the number is smaller, and the first digit is the same
  induction n using Nat.strongRecOn with
  | ind n ih =>
    intro lead
    by_cases small : n < 10
    · rw [Nat.toDigits_of_lt_base small] at lead ⊢
      rw [Option.some.inj lead]
    · have parts := Nat.toDigits_of_base_le (by decide : 1 < 10) (Nat.not_lt.1 small)
      have first : (Nat.toDigits 10 (n / 10)).head? = some '0' := by
        rwa [parts, List.head?_append_of_ne_nil _ Nat.toDigits_ne_nil] at lead
      have value := (Text.decimal_toDigits (n / 10)).2.2
      rw [ih (n / 10) (by omega) first] at value
      have zero : 0 = n / 10 := value
      omega

def Ends (after : List Char) : Prop :=
  ∀ c ∈ after.head?, Text.isDecimal c = false ∧ c ≠ '.' ∧ c ≠ 'e' ∧ c ≠ 'E'

variable {n : Nat} {digits : List Nat} {power : Option Int} {text fraction exponent after : List Char}

theorem scanDigits_append {run : List Char} (ne : run ≠ []) (decimal : ∀ c ∈ run, Text.isDecimal c)
    (stops : ∀ c ∈ after.head?, Text.isDecimal c = false) :
    Json.Token.scanDigits (run ++ after) = some (run, after) := by
  have taken : (run ++ after).takeWhile Text.isDecimal = run := by
    rw [List.takeWhile_append_of_pos decimal]
    cases after with
    | nil => simp
    | cons c after => simp [stops c rfl]
  have dropped : (run ++ after).dropWhile Text.isDecimal = after := by
    rw [List.dropWhile_append_of_pos decimal]
    cases after with
    | nil => rfl
    | cons c after => rw [List.dropWhile_cons_of_neg (by simp [stops c rfl])]
  unfold Json.Token.scanDigits
  rw [taken, dropped]
  cases run with
  | nil => exact absurd rfl ne
  | cons d run => rfl

theorem scanWhole_append (h : Whole n text) (stops : ∀ c ∈ after.head?, Text.isDecimal c = false) :
    Json.Token.scanWhole (text ++ after) = some (n, after) := by
  obtain ⟨⟨ne, decimal, value⟩, lead⟩ := h
  have number : Text.number? 10 text = some n := Text.number?_eq_some_iff.2 ⟨ne, decimal, value⟩
  unfold Json.Token.scanWhole
  rw [scanDigits_append ne decimal stops]
  cases text with
  | nil => exact absurd rfl ne
  | cons c rest =>
    by_cases zero : c = '0'
    · subst zero
      obtain rfl : rest = [] := (List.cons.inj (lead rfl)).2
      exact congrArg (fun k => some (k, after)) value
    · split
      · next h => simp_all
      · next h => simp_all
      · next h =>
        obtain ⟨rfl, rfl⟩ := Prod.mk.inj (Option.some.inj h)
        rw [number, Option.getD_some]
      · next h => cases h

theorem digits_map_digitChar (small : ∀ d ∈ digits, d < 10) :
    Json.Token.digits (digits.map Nat.digitChar) = digits := by
  rw [Json.Token.digits, List.map_map]
  have same : ∀ d ∈ digits, ((fun c : Char => c.toNat - 48) ∘ Nat.digitChar) d = id d := by
    intro d hd
    show (Nat.digitChar d).toNat - 48 = d
    rw [Nat.toNat_digitChar_of_lt_ten (small d hd)]
    omega
  rw [List.map_congr_left same, List.map_id]

theorem scanFraction_append (h : Fraction digits text) (stops : ∀ c ∈ after.head?, Text.isDecimal c = false ∧ c ≠ '.') :
    Json.Token.scanFraction (text ++ after) = some (digits, after) := by
  cases h with
  | none =>
    cases after with
    | nil => rfl
    | cons c after =>
      rw [List.nil_append, Json.Token.scanFraction]
      intro rest point
      exact (stops c rfl).2 (List.cons.inj point).1
  | @point digits ne small =>
    have decimal : ∀ c ∈ digits.map Nat.digitChar, Text.isDecimal c := by
      intro c hc
      obtain ⟨d, hd, rfl⟩ := List.mem_map.1 hc
      rw [Text.isDecimal_eq_isDigit, Nat.isDigit_digitChar, decide_eq_true_eq]
      exact small d hd
    rw [List.cons_append, Json.Token.scanFraction,
      scanDigits_append (by simpa using ne) decimal fun c hc => (stops c hc).1]
    exact congrArg (fun ds => some (ds, after)) (digits_map_digitChar small)

theorem scanPower_append {power : Int} (h : Power power text) (stops : ∀ c ∈ after.head?, Text.isDecimal c = false) :
    Json.Token.scanPower (text ++ after) = some (power, after) := by
  have scanned {n : Nat} {run : List Char} (h : Text.Decimal n run) :
      Json.Token.scanDigits (run ++ after) = some (run, after) := scanDigits_append h.1 h.2.1 stops
  have read {n : Nat} {run : List Char} (h : Text.Decimal n run) : Text.number? 10 run = some n :=
    Text.number?_eq_some_iff.2 h
  cases h with
  | unsigned h =>
    unfold Json.Token.scanPower
    split
    next negative unsigned sign =>
    split at sign
    · next rest heq => exact absurd (h.of_head heq) (by decide)
    · next rest heq => exact absurd (h.of_head heq) (by decide)
    · obtain ⟨rfl, rfl⟩ := Prod.mk.inj sign
      simp [scanned h, read h]
  | plus h => simp [Json.Token.scanPower, scanned h, read h]
  | minus h => simp [Json.Token.scanPower, scanned h, read h]

theorem scanExponent_append (h : Exponent power text) (ends : Ends after) :
    Json.Token.scanExponent (text ++ after) = some (power, after) := by
  have stops : ∀ c ∈ after.head?, Text.isDecimal c = false := fun c hc => (ends c hc).1
  cases h with
  | none =>
    cases after with
    | nil => rfl
    | cons c after =>
      rw [List.nil_append, Json.Token.scanExponent]
      · intro rest lower
        exact (ends c rfl).2.2.1 (List.cons.inj lower).1
      · intro rest upper
        exact (ends c rfl).2.2.2 (List.cons.inj upper).1
  | lower h => rw [List.cons_append, Json.Token.scanExponent, scanPower_append h stops, Option.map_some]
  | upper h => rw [List.cons_append, Json.Token.scanExponent, scanPower_append h stops, Option.map_some]

theorem Exponent.stops (h : Exponent power exponent) (ends : Ends after) :
    ∀ c ∈ (exponent ++ after).head?, Text.isDecimal c = false ∧ c ≠ '.' := by
  intro c hc
  cases h with
  | none => exact ⟨(ends c hc).1, (ends c hc).2.1⟩
  | lower h =>
    obtain rfl : 'e' = c := Option.some.inj hc
    exact ⟨by decide, by decide⟩
  | upper h =>
    obtain rfl : 'E' = c := Option.some.inj hc
    exact ⟨by decide, by decide⟩

theorem Fraction.stops (h : Fraction digits fraction) (stops : ∀ c ∈ after.head?, Text.isDecimal c = false) :
    ∀ c ∈ (fraction ++ after).head?, Text.isDecimal c = false := by
  intro c hc
  cases h with
  | none => exact stops c hc
  | point ne small =>
    obtain rfl : '.' = c := Option.some.inj hc
    decide

theorem scanNumber_append {number : Numeral} (h : Spelled number text) (ends : Ends after) :
    Json.Token.scanNumber (text ++ after) = some (number, after) := by
  cases h with
  | @unsigned n digits power whole fraction exponent hw hf he =>
    have stops := he.stops ends
    rw [List.append_assoc, List.append_assoc]
    unfold Json.Token.scanNumber
    split
    next negative unsigned sign =>
    split at sign
    · next rest heq => exact absurd (hw.1.of_head heq) (by decide)
    · obtain ⟨rfl, rfl⟩ := Prod.mk.inj sign
      simp only [scanWhole_append hw (hf.stops fun c hc => (stops c hc).1), scanFraction_append hf stops,
        scanExponent_append he ends, Option.map_some]
  | @minus n digits power whole fraction exponent hw hf he =>
    have stops := he.stops ends
    rw [List.cons_append, List.append_assoc, List.append_assoc]
    simp only [Json.Token.scanNumber, scanWhole_append hw (hf.stops fun c hc => (stops c hc).1),
      scanFraction_append hf stops, scanExponent_append he ends, Option.map_some]

end Numeral
end AnnotatedSource
