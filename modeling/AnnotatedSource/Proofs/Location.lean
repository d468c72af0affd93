import AnnotatedSource.Proofs.Placement

set_option autoImplicit false

namespace AnnotatedSource

namespace Text

variable {text : List Char} {units bytes : Nat}

def SameBoundary (text : List Char) (units bytes : Nat) : Prop :=
  ∃ before after, text = before ++ after ∧ unitLength before = units ∧ byteLength before = bytes

theorem sameBoundary_zero (text : List Char) : SameBoundary text 0 0 := ⟨[], text, rfl, rfl, rfl⟩

theorem sameBoundary_nil_iff : SameBoundary [] units bytes ↔ units = 0 ∧ bytes = 0 := by
  constructor
  · rintro ⟨before, after, h, rfl, rfl⟩
    obtain ⟨rfl, -⟩ := List.append_eq_nil_iff.1 h.symm
    exact ⟨rfl, rfl⟩
  · rintro ⟨rfl, rfl⟩
    exact sameBoundary_zero []

theorem sameBoundary_cons_iff {c : Char} : SameBoundary (c :: text) units bytes ↔
    (units = 0 ∧ bytes = 0) ∨
    ∃ u b, SameBoundary text u b ∧ units = unitSize c + u ∧ bytes = c.utf8Size + b := by
  constructor
  · rintro ⟨before, after, h, rfl, rfl⟩
    cases before with
    | nil => exact .inl ⟨rfl, rfl⟩
    | cons d before =>
      obtain ⟨rfl, rfl⟩ := List.cons_eq_cons.1 h
      exact .inr ⟨_, _, ⟨before, after, rfl, rfl, rfl⟩, rfl, rfl⟩
  · rintro (⟨rfl, rfl⟩ | ⟨_, _, ⟨before, after, rfl, rfl, rfl⟩, rfl, rfl⟩)
    · exact sameBoundary_zero _
    · exact ⟨c :: before, after, rfl, rfl, rfl⟩

theorem SameBoundary.bytes_unique {other : Nat} (h : SameBoundary text units bytes)
    (h' : SameBoundary text units other) : bytes = other := by
  -- every character has a unit, so at the same offset both are at the start or neither is
  induction text generalizing units bytes other with
  | nil => rw [(sameBoundary_nil_iff.1 h).2, (sameBoundary_nil_iff.1 h').2]
  | cons c text ih =>
    have positive := unitSize_pos c
    rcases sameBoundary_cons_iff.1 h with ⟨rfl, rfl⟩ | ⟨u, b, hb, rfl, rfl⟩ <;>
      rcases sameBoundary_cons_iff.1 h' with ⟨hu, rfl⟩ | ⟨u', b', hb', hu, rfl⟩
    · rfl
    · omega
    · omega
    · obtain rfl : u = u' := by omega
      rw [ih hb hb']

def unitsBefore (text : List Char) (offset : Nat) : Nat :=
  match splitAt? text offset with
  | some (before, _) => unitLength before
  | none => 0

theorem sameBoundary_iff : SameBoundary text units bytes ↔
    isBoundary text bytes = true ∧ unitsBefore text bytes = units := by
  constructor
  · rintro ⟨before, after, rfl, rfl, rfl⟩
    have split := splitAt?_append before after
    exact ⟨by rw [isBoundary, split]; rfl, by rw [unitsBefore, split]⟩
  · rintro ⟨h, rfl⟩
    obtain ⟨⟨before, after⟩, split⟩ := Option.isSome_iff_exists.1 h
    obtain ⟨rfl, rfl⟩ := splitAt?_eq_some_iff.1 split
    exact ⟨before, after, rfl, by rw [unitsBefore, split], rfl⟩

/-- The offset in UTF-16 units splits no surrogate pair and is not past the end. -/
def IsUnitOffset (text : List Char) (units : Nat) : Prop :=
  ∃ before after, text = before ++ after ∧ unitLength before = units

theorem IsUnitOffset.le (h : IsUnitOffset text units) : units ≤ unitLength text := by
  obtain ⟨before, after, rfl, rfl⟩ := h
  rw [unitLength_append]
  exact Nat.le_add_right _ _

theorem isUnitOffset_iff : IsUnitOffset text units ↔ ∃ bytes, SameBoundary text units bytes := by
  constructor
  · rintro ⟨before, after, rfl, rfl⟩
    exact ⟨_, before, after, rfl, rfl, rfl⟩
  · rintro ⟨_, before, after, rfl, rfl, -⟩
    exact ⟨before, after, rfl, rfl⟩

end Text

namespace OffsetTable

open Text

variable {source : List Char}

@[simp] theorem unitLength_ofText (source : List Char) : (ofText source).unitLength = Text.unitLength source := rfl

theorem lookup_unitsFrom_self {text : List Char} {start base byte : Nat} :
    (unitsFrom start base text).lookup start = some byte ↔
      ∃ u b, SameBoundary text u b ∧ start = start + u ∧ byte = base + b := by
  have first : (unitsFrom start base text).lookup start = some base := by cases text <;> simp [unitsFrom]
  rw [first, Option.some.injEq]
  constructor
  · rintro rfl
    exact ⟨0, 0, sameBoundary_zero text, rfl, rfl⟩
  · rintro ⟨u, b, hb, hu, rfl⟩
    obtain rfl : u = 0 := by omega
    rw [hb.bytes_unique (sameBoundary_zero text), Nat.add_zero]

theorem lookup_unitsFrom {text : List Char} {start base units byte : Nat} :
    (unitsFrom start base text).lookup units = some byte ↔
      ∃ u b, SameBoundary text u b ∧ units = start + u ∧ byte = base + b := by
  induction text generalizing start base with
  | nil =>
    by_cases h : units = start
    · subst h
      exact lookup_unitsFrom_self
    · simp [unitsFrom, List.lookup_cons, beq_eq_false_iff_ne.2 h, sameBoundary_nil_iff, h]
  | cons c text ih =>
    by_cases h : units = start
    · subst h
      exact lookup_unitsFrom_self
    · -- the entries of the rest lie behind the first character
      simp only [unitsFrom, List.lookup_cons, beq_eq_false_iff_ne.2 h, ih, sameBoundary_cons_iff]
      constructor
      · rintro ⟨u, b, hb, rfl, rfl⟩
        exact ⟨_, _, .inr ⟨u, b, hb, rfl, rfl⟩, by omega, by omega⟩
      · rintro ⟨_, _, ⟨rfl, rfl⟩ | ⟨u, b, hb, rfl, rfl⟩, rfl, rfl⟩
        · exact absurd rfl h
        · exact ⟨u, b, hb, by omega, by omega⟩

theorem byteOfUnit?_eq_some_iff {units byte : Nat} :
    (ofText source).byteOfUnit? units = some byte ↔ SameBoundary source units byte := by
  simp [byteOfUnit?, ofText, lookup_unitsFrom]

theorem byteOfUnit?_eq_none_iff {units : Nat} :
    (ofText source).byteOfUnit? units = none ↔ ¬ IsUnitOffset source units := by
  rw [isUnitOffset_iff, Option.eq_none_iff_forall_ne_some]
  simp only [ne_eq, byteOfUnit?_eq_some_iff, not_exists]

end OffsetTable

namespace Annotator

open Text

variable {a : Annotator} {source : List Char} {e : PlacementError}

def Locates (a : Annotator) (source : List Char) (mark placed : TaggedSpan) : Prop :=
  placed.tag = mark.tag ∧
    match a.unit with
    | .utf8 => placed.span = mark.span
    | .utf16 => SameBoundary source mark.span.start placed.span.start ∧
      SameBoundary source mark.span.stop placed.span.stop

def InUnits (source : List Char) (mark : TaggedSpan) : Prop :=
  IsUnitOffset source mark.span.start ∧ IsUnitOffset source mark.span.stop

def UnitFault (source : List Char) (mark : TaggedSpan) : PlacementError → Prop :=
  FirstFault (IsUnitOffset source) (fun offset e => e =
    if unitLength source < offset then .outOfBounds mark.span (unitLength source) else .splitsCharacter offset)
    [mark.span.start, mark.span.stop]

/-- What is told of a mark that has no text: first whether it is upright, then whether it is within the
    source, then of its start and last of its stop. -/
def TextFault (source : List Char) (mark : TaggedSpan) (e : PlacementError) : Prop :=
  (mark.span.stop < mark.span.start ∧ e = .inverted mark.span) ∨
  (mark.span.start ≤ mark.span.stop ∧ byteLength source < mark.span.stop ∧
    e = .outOfBounds mark.span (byteLength source)) ∨
  (mark.span.start ≤ mark.span.stop ∧ mark.span.stop ≤ byteLength source ∧
    FirstFault (isBoundary source · = true) (fun offset e => e = .splitsCharacter offset)
      [mark.span.start, mark.span.stop] e)

theorem byteOf_eq_ok {span : Span} {offset byte : Nat} :
    byteOf (.ofText source) span offset = .ok byte ↔ SameBoundary source offset byte := by
  rw [byteOf, OffsetTable.unitLength_ofText]
  split_ifs with past
  · simp only [false_iff]
    intro h
    exact Nat.not_le.2 past (isUnitOffset_iff.2 ⟨byte, h⟩).le
  · rw [← OffsetTable.byteOfUnit?_eq_some_iff]
    cases (OffsetTable.ofText source).byteOfUnit? offset <;> simp

theorem byteOf_eq_error {span : Span} {offset : Nat} : byteOf (.ofText source) span offset = .error e ↔
    ¬ IsUnitOffset source offset ∧ e =
      if unitLength source < offset then .outOfBounds span (unitLength source) else .splitsCharacter offset := by
  rw [byteOf, OffsetTable.unitLength_ofText]
  split_ifs with past
  · have outside : ¬ IsUnitOffset source offset := fun h => Nat.not_le.2 past h.le
    simp [outside, eq_comm]
  · rw [← OffsetTable.byteOfUnit?_eq_none_iff]
    cases (OffsetTable.ofText source).byteOfUnit? offset <;> simp [eq_comm]

theorem toBytes_eq_ok {mark placed : TaggedSpan} : toBytes (.ofText source) mark = .ok placed ↔
    placed.tag = mark.tag ∧ SameBoundary source mark.span.start placed.span.start ∧
      SameBoundary source mark.span.stop placed.span.stop := by
  simp only [toBytes, bind_eq_ok, byteOf_eq_ok, pure_eq_ok]
  constructor
  · rintro ⟨start, hstart, stop, hstop, rfl⟩
    exact ⟨rfl, hstart, hstop⟩
  · obtain ⟨⟨start, stop⟩, tag⟩ := placed
    rintro ⟨rfl, hstart, hstop⟩
    exact ⟨start, hstart, stop, hstop, rfl⟩

theorem exists_toBytes_iff {mark : TaggedSpan} :
    (∃ placed, toBytes (.ofText source) mark = .ok placed) ↔ InUnits source mark := by
  simp only [toBytes_eq_ok, InUnits, isUnitOffset_iff]
  constructor
  · rintro ⟨placed, -, hstart, hstop⟩
    exact ⟨⟨_, hstart⟩, ⟨_, hstop⟩⟩
  · rintro ⟨⟨start, hstart⟩, ⟨stop, hstop⟩⟩
    exact ⟨⟨⟨start, stop⟩, mark.tag⟩, rfl, hstart, hstop⟩

theorem toBytes_eq_error {mark : TaggedSpan} : toBytes (.ofText source) mark = .error e ↔
    UnitFault source mark e := by
  simp only [toBytes, bind_eq_error, byteOf_eq_ok, byteOf_eq_error, pure_ne_error, and_false,
    exists_false, or_false, UnitFault, firstFault_cons, not_firstFault_nil, exists_and_right, ← isUnitOffset_iff]

theorem located_eq_ok {marks placed : List TaggedSpan} : a.located source marks = .ok placed ↔
    List.Forall₂ (a.Locates source) marks placed := by
  unfold Annotator.located Locates
  cases a.unit with
  | utf8 =>
    have same : (fun mark placed : TaggedSpan => placed.tag = mark.tag ∧ placed.span = mark.span) = (· = ·) := by
      funext ⟨span, tag⟩ ⟨span', tag'⟩
      simp only [TaggedSpan.mk.injEq, eq_iff_iff]
      tauto
    simp only [same, List.forall₂_eq_eq_eq, Except.ok.injEq]
  | utf16 => simp only [mapM_eq_ok, toBytes_eq_ok]

theorem located_eq_error {marks : List TaggedSpan} : a.located source marks = .error e ↔
    a.unit = .utf16 ∧ FirstFault (InUnits source) (UnitFault source) marks e := by
  unfold Annotator.located
  cases a.unit with
  | utf8 => simp
  | utf16 => simp only [mapM_eq_error, exists_toBytes_iff, toBytes_eq_error, true_and]

theorem check_eq_ok_iff_fits {mark : TaggedSpan} : check source mark = .ok () ↔ Fits source mark.span := by
  rw [check_eq_ok, Fits, Span.EndsIn, Span.Upright]
  tauto

theorem check_eq_error {mark : TaggedSpan} : check source mark = .error e ↔ TextFault source mark e := by
  unfold check TextFault
  simp only [firstFault_cons, not_firstFault_nil, and_false, or_false, Bool.not_eq_true', Bool.not_eq_true]
  split_ifs with inverted outside start stop
  · simp [inverted, Nat.not_le.2 inverted, @eq_comm _ e]
  · simp [inverted, outside, Nat.not_lt.1 inverted, Nat.not_le.2 outside, @eq_comm _ e]
  · simp [inverted, outside, Nat.not_lt.1 inverted, Nat.not_lt.1 outside, start, @eq_comm _ e]
  · simp [inverted, outside, Nat.not_lt.1 inverted, Nat.not_lt.1 outside, start, stop, @eq_comm _ e]
  · simp [inverted, outside, start, stop]

theorem placed_eq_error {marks : List TaggedSpan} : a.placed source marks = .error e ↔
    (a.unit = .utf16 ∧ FirstFault (InUnits source) (UnitFault source) marks e) ∨
    ∃ placed, List.Forall₂ (a.Locates source) marks placed ∧
      FirstFault (Fits source ·.span) (TextFault source) placed e := by
  simp only [Annotator.placed, bind_eq_error, located_eq_ok, located_eq_error, forM_eq_error, check_eq_ok_iff_fits,
    check_eq_error, pure_ne_error, and_false, exists_false, or_false]

end Annotator
end AnnotatedSource
