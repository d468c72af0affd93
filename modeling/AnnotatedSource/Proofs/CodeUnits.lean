import AnnotatedSource.Proofs.LinePositions
import AnnotatedSource.Proofs.Location

set_option autoImplicit false

namespace AnnotatedSource

namespace Text

def unitsOf (c : Char) : List Nat :=
  if c.toNat < 0x10000 then [c.toNat]
  else [0xd800 + (c.toNat - 0x10000) / 0x400, 0xdc00 + (c.toNat - 0x10000) % 0x400]

def codeUnits (text : List Char) : List Nat := text.flatMap unitsOf

/-- The offset in units has a high surrogate in front of it and a low one behind it. -/
def SplitsPair (text : List Char) (units : Nat) : Prop :=
  ∃ before high low after, codeUnits text = before ++ high :: low :: after ∧ before.length + 1 = units ∧
    isHighSurrogate high = true ∧ isLowSurrogate low = true

variable {text : List Char} {units : Nat}

@[simp] theorem codeUnits_cons (c : Char) (text : List Char) :
    codeUnits (c :: text) = unitsOf c ++ codeUnits text := rfl

theorem codeUnits_append (a b : List Char) : codeUnits (a ++ b) = codeUnits a ++ codeUnits b := List.flatMap_append

theorem length_unitsOf (c : Char) : (unitsOf c).length = unitSize c := by
  unfold unitsOf unitSize
  split <;> rfl

theorem length_codeUnits (text : List Char) : (codeUnits text).length = unitLength text := by
  induction text with
  | nil => rfl
  | cons c text ih => rw [codeUnits_cons, List.length_append, length_unitsOf, ih, unitLength]

theorem unitsOf_pair {c : Char} (h : 0x10000 ≤ c.toNat) : ∃ high low, unitsOf c = [high, low] ∧
    isHighSurrogate high = true ∧ isLowSurrogate low = true ∧
    0x10000 + (high - 0xd800) * 0x400 + (low - 0xdc00) = c.toNat := by
  have bound := toNat_lt c
  refine ⟨_, _, if_neg (Nat.not_lt.2 h), ?_, ?_, by omega⟩
  · simp only [isHighSurrogate, Bool.and_eq_true, decide_eq_true_eq]
    omega
  · simp only [isLowSurrogate, Bool.and_eq_true, decide_eq_true_eq]
    omega

theorem not_isLowSurrogate_head {c : Char} {unit : Nat} {rest : List Nat} (h : unitsOf c = unit :: rest) :
    isLowSurrogate unit = false := by
  by_cases hc : c.toNat < 0x10000
  · rw [unitsOf, if_pos hc] at h
    cases h
    exact (Bool.or_eq_false_iff.1 (isSurrogate_toNat c)).2
  · obtain ⟨high, low, pair, isHigh, -⟩ := unitsOf_pair (Nat.not_lt.1 hc)
    rw [pair] at h
    cases h
    simp only [isHighSurrogate, Bool.and_eq_true, decide_eq_true_eq] at isHigh
    simp only [isLowSurrogate, Bool.and_eq_false_iff, decide_eq_false_iff_not]
    omega

theorem isUnitOffset_zero (text : List Char) : IsUnitOffset text 0 := ⟨[], text, rfl, rfl⟩

theorem isUnitOffset_cons {c : Char} (h : IsUnitOffset text units) : IsUnitOffset (c :: text) (unitSize c + units) := by
  obtain ⟨before, after, rfl, rfl⟩ := h
  exact ⟨c :: before, after, rfl, rfl⟩

theorem SplitsPair.cons {c : Char} (h : SplitsPair text units) : SplitsPair (c :: text) (unitSize c + units) := by
  obtain ⟨before, high, low, after, split, rfl, isHigh, isLow⟩ := h
  refine ⟨unitsOf c ++ before, high, low, after, ?_, ?_, isHigh, isLow⟩
  · rw [codeUnits_cons, split, List.append_assoc]
  · rw [List.length_append, length_unitsOf, Nat.add_assoc]

theorem SplitsPair.not_isUnitOffset (h : SplitsPair text units) : ¬ IsUnitOffset text units := by
  rintro ⟨first, rest, rfl, rfl⟩
  obtain ⟨before, high, low, after, split, length, -, isLow⟩ := h
  rw [codeUnits_append, ← length_codeUnits] at *
  rw [List.append_cons before high] at split
  obtain ⟨-, behind⟩ := List.append_inj split (by simp [length])
  cases rest with
  | nil => cases behind
  | cons c rest =>
    have one := unitSize_pos c
    rw [← length_unitsOf] at one
    obtain ⟨unit, others, head⟩ := List.exists_cons_of_length_pos one
    rw [codeUnits_cons, head] at behind
    cases behind
    rw [not_isLowSurrogate_head head] at isLow
    cases isLow

theorem isUnitOffset_or_splitsPair (text : List Char) (units : Nat) :
    IsUnitOffset text units ∨ SplitsPair text units ∨ unitLength text < units := by
  induction text generalizing units with
  | nil =>
    rcases Nat.eq_zero_or_pos units with rfl | positive
    · exact .inl (isUnitOffset_zero [])
    · exact .inr (.inr positive)
  | cons c text ih =>
    rcases Nat.eq_zero_or_pos units with rfl | positive
    · exact .inl (isUnitOffset_zero _)
    by_cases hle : unitSize c ≤ units
    · obtain ⟨others, rfl⟩ := Nat.exists_eq_add_of_le hle
      rcases ih others with h | h | h
      · exact .inl (isUnitOffset_cons h)
      · exact .inr (.inl h.cons)
      · exact .inr (.inr (by rw [unitLength]; omega))
    · -- inside the first character, which then has two units
      have two : 0x10000 ≤ c.toNat := by
        unfold unitSize at hle
        split at hle <;> omega
      have size : unitSize c = 2 := by rw [unitSize, if_neg (Nat.not_lt.2 two)]
      obtain ⟨high, low, pair, isHigh, isLow, -⟩ := unitsOf_pair two
      have split : codeUnits (c :: text) = [] ++ high :: low :: codeUnits text := by rw [codeUnits_cons, pair]; rfl
      have middle : units = 1 := by omega
      exact .inr (.inl ⟨[], high, low, _, split, middle.symm, isHigh, isLow⟩)

theorem not_isUnitOffset_iff : ¬ IsUnitOffset text units ↔ SplitsPair text units ∨ unitLength text < units := by
  constructor
  · intro h
    exact (isUnitOffset_or_splitsPair text units).resolve_left h
  · rintro (h | h)
    · exact h.not_isUnitOffset
    · exact fun offset => Nat.not_lt.2 offset.le h

/-- The text up to byte `byte` splits no character and has so many units. -/
def HasUnitsUpTo (text : List Char) (byte units : Nat) : Prop :=
  ∃ before, slice? text ⟨0, byte⟩ = some before ∧ (codeUnits before).length = units

theorem hasUnitsUpTo_iff {byte : Nat} : HasUnitsUpTo text byte units ↔ SameBoundary text units byte := by
  simp only [HasUnitsUpTo, slice?_eq_some_iff, length_codeUnits, SameBoundary, Span.Upright, Nat.sub_zero]
  constructor
  · rintro ⟨inner, ⟨-, before, after, split, nothing, bytes⟩, count⟩
    obtain rfl := byteLength_eq_zero nothing
    exact ⟨inner, after, split, count, bytes⟩
  · rintro ⟨before, after, split, count, bytes⟩
    exact ⟨before, ⟨Nat.zero_le byte, [], after, split, rfl, bytes⟩, count⟩

theorem SameBoundary.units_le {byte other units' : Nat} (h : SameBoundary text units byte)
    (h' : SameBoundary text units' other) (hle : byte ≤ other) : units ≤ units' := by
  obtain ⟨before, after, split, rfl, rfl⟩ := h
  obtain ⟨before', after', split', rfl, rfl⟩ := h'
  obtain ⟨inner, rfl, -⟩ := append_of_byteLength_le (split.symm.trans split') hle
  rw [unitLength_append]
  exact Nat.le_add_right _ _

theorem sameBoundary_all (text : List Char) : SameBoundary text (unitLength text) (byteLength text) :=
  ⟨text, [], by simp, rfl, rfl⟩

end Text

namespace OffsetTable

open Text Bisection

def searchedByte? (table : OffsetTable) (units : Nat) : Option Nat :=
  match search (table.unitStarts.map (·.1)) units with
  | .hit index => table.unitStarts[index]?.map (·.2)
  | .miss _ => none

theorem le_of_mem_unitsFrom {units base : Nat} {text : List Char} {entry : Nat × Nat}
    (h : entry ∈ unitsFrom units base text) : units ≤ entry.1 := by
  induction text generalizing units base with
  | nil =>
    rw [unitsFrom, List.mem_singleton] at h
    subst h
    exact Nat.le_refl units
  | cons c text ih =>
    rw [unitsFrom, List.mem_cons] at h
    rcases h with rfl | h
    · exact Nat.le_refl _
    · exact Nat.le_trans (Nat.le_add_right _ _) (ih h)

theorem unitsFrom_ascending (units base : Nat) (text : List Char) :
    ((unitsFrom units base text).map (·.1)).Pairwise (· < ·) := by
  induction text generalizing units base with
  | nil => simp [unitsFrom]
  | cons c text ih =>
    rw [unitsFrom, List.map_cons, List.pairwise_cons, List.forall_mem_map]
    refine ⟨fun entry h => ?_, ih _ _⟩
    have behind := le_of_mem_unitsFrom h
    have one := unitSize_pos c
    omega

theorem getLast?_unitsFrom (units base : Nat) (text : List Char) :
    (unitsFrom units base text).getLast? = some (units + Text.unitLength text, base + byteLength text) := by
  induction text generalizing units base with
  | nil => rfl
  | cons c text ih =>
    rw [unitsFrom, List.getLast?_cons, ih, Text.unitLength, byteLength, Nat.add_assoc, Nat.add_assoc]
    rfl

theorem lookup_of_keys {entries : List (Nat × Nat)} {key : Nat} {before after : List Nat}
    (keys : entries.map (·.1) = before ++ key :: after) (fresh : key ∉ before) :
    entries.lookup key = entries[before.length]?.map (·.2) := by
  induction before generalizing entries with
  | nil =>
    obtain ⟨⟨_, byte⟩, rest, rfl, rfl, -⟩ := List.map_eq_cons_iff.1 keys
    simp
  | cons first before ih =>
    obtain ⟨⟨_, byte⟩, rest, rfl, rfl, others⟩ := List.map_eq_cons_iff.1 keys
    obtain ⟨ne, fresh⟩ := not_or.1 (mt List.mem_cons.2 fresh)
    rw [List.lookup_cons, beq_eq_false_iff_ne.2 ne, ih others fresh]
    rfl

theorem searchedByte?_eq (source : List Char) (units : Nat) :
    (ofText source).searchedByte? units = (ofText source).byteOfUnit? units := by
  have ascending : ((ofText source).unitStarts.map (·.1)).Pairwise (· < ·) := unitsFrom_ascending 0 0 source
  have answer := search_answers ascending units
  rw [searchedByte?, byteOfUnit?]
  generalize search ((ofText source).unitStarts.map (·.1)) units = found at answer
  cases answer with
  | hit before after split =>
    rw [split] at ascending
    have fresh : units ∉ before := fun h =>
      Nat.lt_irrefl units ((List.pairwise_append.1 ascending).2.2 units h units (by simp))
    exact (lookup_of_keys split fresh).symm
  | miss before after split smaller greater =>
    have absent : ∀ entry ∈ (ofText source).unitStarts, entry.1 ≠ units := by
      intro entry h
      have mem : entry.1 ∈ before ++ after := split ▸ List.mem_map_of_mem h
      rcases List.mem_append.1 mem with h | h
      · exact Nat.ne_of_lt (smaller _ h)
      · exact (Nat.ne_of_lt (greater _ h)).symm
    symm
    rw [List.lookup_eq_none_iff]
    intro entry h
    simpa using (absent entry h).symm

/-- The table of a text takes an offset in units to the one byte offset before which the text has so many units, and
    to none just where a pair is split or the text is over. So later offsets go to later bytes, and the ends of the
    text to each other. A search by halving finds the same. -/
theorem byteOfUnit?_exact (source : List Char) :
    (∀ units byte, (ofText source).byteOfUnit? units = some byte ↔ HasUnitsUpTo source byte units) ∧
    (∀ units byte other, HasUnitsUpTo source byte units → HasUnitsUpTo source other units → byte = other) ∧
    (∀ units, (ofText source).byteOfUnit? units = none ↔
      SplitsPair source units ∨ (ofText source).unitLength < units) ∧
    (∀ units units' byte byte', (ofText source).byteOfUnit? units = some byte →
      (ofText source).byteOfUnit? units' = some byte' → units < units' → byte < byte') ∧
    (ofText source).byteOfUnit? 0 = some 0 ∧
    (ofText source).byteOfUnit? (ofText source).unitLength = some (byteLength source) ∧
    (ofText source).unitLength = (codeUnits source).length ∧
    (ofText source).unitStarts.getLast? = some ((ofText source).unitLength, byteLength source) ∧
    ∀ units, (ofText source).searchedByte? units = (ofText source).byteOfUnit? units := by
  refine ⟨?_, ?_, ?_, ?_, byteOfUnit?_zero source, ?_, (length_codeUnits source).symm, ?_, searchedByte?_eq source⟩
  · intro units byte
    rw [byteOfUnit?_eq_some_iff, hasUnitsUpTo_iff]
  · intro units byte other h h'
    exact (hasUnitsUpTo_iff.1 h).bytes_unique (hasUnitsUpTo_iff.1 h')
  · intro units
    rw [byteOfUnit?_eq_none_iff, not_isUnitOffset_iff, unitLength_ofText]
  · intro units units' byte byte' h h' hlt
    rw [byteOfUnit?_eq_some_iff] at h h'
    by_contra hle
    exact Nat.not_le.2 hlt (h'.units_le h (Nat.not_lt.1 hle))
  · exact byteOfUnit?_eq_some_iff.2 (sameBoundary_all source)
  · have last := getLast?_unitsFrom 0 0 source
    rwa [Nat.zero_add, Nat.zero_add] at last

example : [1, 2, 3, 4].map (ofText ['é', '𝄞']).byteOfUnit? = [some 2, none, some 6, none] := by decide

end OffsetTable
end AnnotatedSource
