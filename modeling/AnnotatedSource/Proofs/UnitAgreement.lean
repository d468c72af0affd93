import AnnotatedSource.Proofs.Collection
import AnnotatedSource.Proofs.Location

set_option autoImplicit false

namespace AnnotatedSource

variable {source : List Char}

/-- An offset in bytes, counted in UTF-16 units; a negative offset is none and stays. -/
def unitOffset (source : List Char) (offset : Int) : Int :=
  if 0 ≤ offset then Text.unitsBefore source offset.toNat else offset

def IsBoundaryOffset (source : List Char) (offset : Int) : Prop :=
  0 ≤ offset → Text.isBoundary source offset.toNat = true

theorem isBoundary_toNat {offset : Int} (h : IsBoundaryOffset source offset) :
    Text.isBoundary source offset.toNat = true := by
  by_cases hle : 0 ≤ offset
  · exact h hle
  · rw [Int.toNat_of_nonpos (by omega)]
    exact Text.isBoundary_zero source

@[simp] theorem unitOffset_nonneg_iff {offset : Int} : 0 ≤ unitOffset source offset ↔ 0 ≤ offset := by
  unfold unitOffset
  split_ifs with h
  · simp [h]
  · rfl

theorem unitOffset_of_neg {offset : Int} (h : ¬ 0 ≤ offset) : unitOffset source offset = offset := if_neg h

theorem unitOffset_eq_iff {offset n : Int} (hn : n < 0) : unitOffset source offset = n ↔ offset = n := by
  by_cases h : 0 ≤ offset
  · have nonneg : 0 ≤ unitOffset source offset := unitOffset_nonneg_iff.2 h
    omega
  · rw [unitOffset_of_neg h]

@[simp] theorem toNat_unitOffset (offset : Int) :
    (unitOffset source offset).toNat = Text.unitsBefore source offset.toNat := by
  unfold unitOffset
  split_ifs with h
  · simp
  · rw [Int.toNat_of_nonpos (by omega), Text.unitsBefore, Text.splitAt?_zero]
    rfl

theorem negativeField_unitOffset {fields : List (OffsetField × Int)} {e : PlacementError} :
    NegativeField (fields.map fun field => (field.1, unitOffset source field.2)) e ↔ NegativeField fields e := by
  unfold NegativeField
  rw [firstFault_map]
  -- a negative field keeps its value, so it is told the same
  refine firstFault_congr (fun _ => unitOffset_nonneg_iff) fun field negative => ?_
  rw [unitOffset_of_neg negative]

namespace TaggedSpan

def inUnits (source : List Char) (mark : TaggedSpan) : TaggedSpan :=
  ⟨⟨Text.unitsBefore source mark.span.start, Text.unitsBefore source mark.span.stop⟩, mark.tag⟩

def OnBoundaries (source : List Char) (mark : TaggedSpan) : Prop :=
  Text.isBoundary source mark.span.start = true ∧ Text.isBoundary source mark.span.stop = true

end TaggedSpan

namespace ImportRecord

variable {r : ImportRecord}

def offsets (r : ImportRecord) : List Int :=
  [r.start, r.stop, r.statementStart, r.statementStop, r.discriminant, r.assertion]

def inUnits (source : List Char) (r : ImportRecord) : ImportRecord where
  name := r.name
  start := unitOffset source r.start
  stop := unitOffset source r.stop
  statementStart := unitOffset source r.statementStart
  statementStop := unitOffset source r.statementStop
  discriminant := unitOffset source r.discriminant
  assertion := unitOffset source r.assertion

theorem writtenForm_inUnits : (r.inUnits source).writtenForm = r.writtenForm := by
  simp only [writtenForm, inUnits, unitOffset_nonneg_iff, unitOffset_eq_iff (show (-1 : Int) < 0 by decide)]

theorem discriminant_inUnits : -2 ≤ (r.inUnits source).discriminant ↔ -2 ≤ r.discriminant := by
  by_cases h : 0 ≤ r.discriminant
  · have nonneg : 0 ≤ (r.inUnits source).discriminant := unitOffset_nonneg_iff.2 h
    omega
  · rw [inUnits, unitOffset_of_neg h]

theorem acceptable_inUnits : (r.inUnits source).Acceptable ↔ r.Acceptable := by
  rw [Acceptable, discriminant_inUnits]
  simp only [inUnits, unitOffset_nonneg_iff, Acceptable]

theorem fault_inUnits : (r.inUnits source).Fault = r.Fault := by
  funext e
  have unknown : (r.inUnits source).discriminant < -2 ∧ e = .unknownForm (r.inUnits source).discriminant ↔
      r.discriminant < -2 ∧ e = .unknownForm r.discriminant := by
    rw [← Int.not_le, discriminant_inUnits, Int.not_le]
    refine and_congr_right fun h => ?_
    rw [show (r.inUnits source).discriminant = r.discriminant from unitOffset_of_neg (by omega)]
  have fields : (r.inUnits source).offsetFields =
      r.offsetFields.map fun field => (field.1, unitOffset source field.2) := rfl
  rw [Fault, Fault, unknown, discriminant_inUnits, fields, negativeField_unitOffset]

theorem dictated_inUnits : (r.inUnits source).dictated = r.dictated.map (TaggedSpan.inUnits source) := by
  rw [dictated, writtenForm_inUnits]
  simp only [inUnits, toNat_unitOffset, unitOffset_nonneg_iff, dictated, List.map_append, List.map_cons, List.map_nil,
    apply_ite (List.map (TaggedSpan.inUnits source)), TaggedSpan.inUnits, Span.point]

theorem dictated_onBoundaries (h : ∀ offset ∈ r.offsets, IsBoundaryOffset source offset) :
    ∀ mark ∈ r.dictated, mark.OnBoundaries source := by
  simp only [offsets, List.forall_mem_cons, List.not_mem_nil, false_imp_iff, implies_true, and_true] at h
  obtain ⟨hs, he, hss, hse, hd, ha⟩ := h
  simp only [dictated, List.forall_mem_append, List.forall_mem_cons, List.not_mem_nil, false_imp_iff, implies_true,
    and_true]
  refine ⟨⟨⟨⟨isBoundary_toNat hs, isBoundary_toNat he⟩, isBoundary_toNat hss, isBoundary_toNat hse⟩, ?_⟩, ?_⟩
  · split_ifs <;> simp [TaggedSpan.OnBoundaries, Span.point, isBoundary_toNat ha]
  · split_ifs <;> simp [TaggedSpan.OnBoundaries, Span.point, isBoundary_toNat hd]

end ImportRecord

namespace ExportRecord

variable {r : ExportRecord}

def offsets (r : ExportRecord) : List Int :=
  [r.start, r.stop, r.localStart] ++ if 0 ≤ r.localStart then [r.localStop] else []

def inUnits (source : List Char) (r : ExportRecord) : ExportRecord where
  name := r.name
  localName := r.localName
  start := unitOffset source r.start
  stop := unitOffset source r.stop
  localStart := unitOffset source r.localStart
  localStop := if 0 ≤ r.localStart then unitOffset source r.localStop else r.localStop

theorem acceptable_inUnits : (r.inUnits source).Acceptable ↔ r.Acceptable := by
  simp only [Acceptable, inUnits, unitOffset_nonneg_iff]
  refine and_congr_right fun _ => and_congr_right fun _ => forall_congr' fun h => ?_
  rw [if_pos h, unitOffset_nonneg_iff]

theorem fault_inUnits : (r.inUnits source).Fault = r.Fault := by
  have fields : (r.inUnits source).offsetFields =
      r.offsetFields.map fun field => (field.1, unitOffset source field.2) := by
    by_cases h : 0 ≤ r.localStart <;> simp [offsetFields, inUnits, h]
  funext e
  rw [Fault, Fault, fields, negativeField_unitOffset]

theorem dictated_inUnits : (r.inUnits source).dictated = r.dictated.map (TaggedSpan.inUnits source) := by
  by_cases h : 0 ≤ r.localStart <;> simp [dictated, inUnits, h, TaggedSpan.inUnits]

theorem dictated_onBoundaries (h : ∀ offset ∈ r.offsets, IsBoundaryOffset source offset) :
    ∀ mark ∈ r.dictated, mark.OnBoundaries source := by
  simp only [offsets, List.forall_mem_append, List.forall_mem_cons, List.not_mem_nil, false_imp_iff, implies_true,
    and_true] at h
  obtain ⟨⟨hs, he, hls⟩, hle⟩ := h
  simp only [dictated, List.forall_mem_cons]
  refine ⟨⟨isBoundary_toNat hs, isBoundary_toNat he⟩, ?_⟩
  split_ifs at hle ⊢
  · simpa [TaggedSpan.OnBoundaries] using ⟨isBoundary_toNat hls, isBoundary_toNat (by simpa using hle)⟩
  · simp

end ExportRecord

section

variable {imports : List ImportRecord} {exports : List ExportRecord}

theorem dictated_inUnits :
    dictated (imports.map (·.inUnits source)) (exports.map (·.inUnits source)) =
      (dictated imports exports).map (TaggedSpan.inUnits source) := by
  simp only [dictated, List.flatMap_map, ImportRecord.dictated_inUnits, ExportRecord.dictated_inUnits,
    List.map_append, List.map_flatMap]

theorem marksOf_inUnits :
    marksOf (imports.map (·.inUnits source)) (exports.map (·.inUnits source)) =
      (marksOf imports exports).map (List.map (TaggedSpan.inUnits source)) := by
  cases h : marksOf imports exports with
  | ok marks =>
    obtain ⟨himports, hexports, rfl⟩ := marksOf_eq_ok.1 h
    refine marksOf_eq_ok.2 ⟨?_, ?_, dictated_inUnits.symm⟩
    · simpa [ImportRecord.acceptable_inUnits] using himports
    · simpa [ExportRecord.acceptable_inUnits] using hexports
  | error e =>
    refine marksOf_eq_error.2 ?_
    have faulty := marksOf_eq_error.1 h
    simpa only [FaultyRecord, firstFault_map, ImportRecord.acceptable_inUnits, ImportRecord.fault_inUnits,
      ExportRecord.acceptable_inUnits, ExportRecord.fault_inUnits, List.forall_mem_map] using faulty

theorem marksOf_onBoundaries {marks : List TaggedSpan} (h : marksOf imports exports = .ok marks)
    (onImports : ∀ i ∈ imports, ∀ offset ∈ i.offsets, IsBoundaryOffset source offset)
    (onExports : ∀ x ∈ exports, ∀ offset ∈ x.offsets, IsBoundaryOffset source offset) :
    ∀ mark ∈ marks, mark.OnBoundaries source := by
  obtain ⟨-, -, rfl⟩ := marksOf_eq_ok.1 h
  simp only [dictated, List.forall_mem_append, List.forall_mem_flatMap]
  exact ⟨fun i hi => ImportRecord.dictated_onBoundaries (onImports i hi),
    fun x hx => ExportRecord.dictated_onBoundaries (onExports x hx)⟩

end

namespace Annotator

variable {a : Annotator}

theorem located_inUnits {marks : List TaggedSpan} (h : ∀ mark ∈ marks, mark.OnBoundaries source) :
    ({ a with unit := .utf16 } : Annotator).located source (marks.map (TaggedSpan.inUnits source)) = .ok marks := by
  rw [located_eq_ok, List.forall₂_map_left_iff, List.forall₂_same]
  intro mark hmark
  obtain ⟨start, stop⟩ := h mark hmark
  exact ⟨rfl, Text.sameBoundary_iff.2 ⟨start, rfl⟩, Text.sameBoundary_iff.2 ⟨stop, rfl⟩⟩

theorem placed_inUnits {marks : List TaggedSpan} (h : ∀ mark ∈ marks, mark.OnBoundaries source) :
    ({ a with unit := .utf16 } : Annotator).placed source (marks.map (TaggedSpan.inUnits source)) =
      ({ a with unit := .utf8 } : Annotator).placed source marks := by
  rw [Annotator.placed, located_inUnits h]
  rfl

/-- Records on boundaries of a source, counted in UTF-16 units and read as such, give what they give in
    bytes. -/
theorem annotate_inUnits {source : String} {r units : Recording} {exports : List ExportRecord}
    (reads : a.Reads r exports)
    (onImports : ∀ i ∈ r.imports, ∀ offset ∈ i.offsets, IsBoundaryOffset source.toList offset)
    (onExports : ∀ x ∈ exports, ∀ offset ∈ x.offsets, IsBoundaryOffset source.toList offset)
    (sameImports : units.imports = r.imports.map (·.inUnits source.toList))
    (sameExports : a.Reads units (exports.map (·.inUnits source.toList)))
    (sameFacade : units.facade = r.facade) (sameSyntax : units.moduleSyntax = r.moduleSyntax) :
    ({ a with unit := .utf16 } : Annotator).annotate source units =
      ({ a with unit := .utf8 } : Annotator).annotate source r := by
  have hmarks : ({ a with unit := .utf16 } : Annotator).marks units =
      (({ a with unit := .utf8 } : Annotator).marks r).map (List.map (TaggedSpan.inUnits source.toList)) := by
    rw [marks_of_reads (a := { a with unit := .utf16 }) sameExports,
      marks_of_reads (a := { a with unit := .utf8 }) reads, sameImports, marksOf_inUnits]
  rw [annotate, annotate, hmarks, sameFacade, sameSyntax]
  cases h : ({ a with unit := .utf8 } : Annotator).marks r with
  | error e => rfl
  | ok marks =>
    rw [marks_of_reads (a := { a with unit := .utf8 }) reads] at h
    have onBoundaries := marksOf_onBoundaries h onImports onExports
    show (({ a with unit := .utf16 } : Annotator).placed source.toList
      (marks.map (TaggedSpan.inUnits source.toList)) >>= _) = _
    rw [placed_inUnits onBoundaries]
    rfl

def spacedBytes : Recording :=
  ⟨[⟨some "m", 13, 16, 6, 17, 6, 15⟩],
    .list [.list [.null, .null, .integer 13, .integer 16, .integer 6, .integer 12]], false, none⟩

def spacedUnits : Recording :=
  ⟨[⟨some "m", 12, 15, 5, 16, 5, 14⟩],
    .list [.list [.null, .null, .integer 12, .integer 15, .integer 5, .integer 11]], false, none⟩

theorem annotate_inUnits_spaced : ∃ result,
    ({ unit := .utf8 } : Annotator).annotate "/*é*/import('m')" spacedBytes = .ok result ∧
    ({ unit := .utf16 } : Annotator).annotate "/*é*/import('m')" spacedUnits = .ok result := by
  have reads : ({} : Annotator).Reads spacedBytes [⟨none, none, 13, 16, 6, 12⟩] := rfl
  have reads' : ({} : Annotator).Reads spacedUnits [⟨none, none, 12, 15, 5, 11⟩] := rfl
  have onImports : ∀ i ∈ spacedBytes.imports, ∀ offset ∈ i.offsets,
      IsBoundaryOffset "/*é*/import('m')".toList offset := by
    unfold IsBoundaryOffset
    decide
  have onExports : ∀ x ∈ [(⟨none, none, 13, 16, 6, 12⟩ : ExportRecord)], ∀ offset ∈ x.offsets,
      IsBoundaryOffset "/*é*/import('m')".toList offset := by
    unfold IsBoundaryOffset
    decide
  have same := annotate_inUnits reads onImports onExports (show spacedUnits.imports = _ from rfl) reads' rfl rfl
  obtain ⟨result, h⟩ : ∃ result, ({ unit := .utf8 } : Annotator).annotate "/*é*/import('m')" spacedBytes =
      .ok result := by
    have collects : ({ unit := .utf8 } : Annotator).marks spacedBytes =
        .ok (dictated spacedBytes.imports [⟨none, none, 13, 16, 6, 12⟩]) := rfl
    exact ⟨_, annotate_eq_ok.2 ⟨_, _, _, collects, rfl, rfl, rfl⟩⟩
  exact ⟨result, h, same.trans h⟩

end Annotator
end AnnotatedSource
