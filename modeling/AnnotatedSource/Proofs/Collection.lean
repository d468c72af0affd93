import AnnotatedSource.Proofs.Placement

set_option autoImplicit false

namespace AnnotatedSource

/-- The first field that holds a negative offset is the one that is told. -/
def NegativeField : List (OffsetField × Int) → PlacementError → Prop :=
  FirstFault (0 ≤ ·.2) fun field e => e = .negativeOffset field.1 field.2

theorem negativeField_append {a b : List (OffsetField × Int)} {e : PlacementError} :
    NegativeField (a ++ b) e ↔ NegativeField a e ∨ ((∀ field ∈ a, 0 ≤ field.2) ∧ NegativeField b e) :=
  firstFault_append

theorem offsetOf_eq_error_iff {field : OffsetField} {value : Int} {e : PlacementError} :
    offsetOf field value = .error e ↔ value < 0 ∧ e = .negativeOffset field value := by
  unfold offsetOf
  split
  · simp only [reduceCtorEq, false_iff, not_and]
    omega
  · next negative => simp [Int.not_le.1 negative, eq_comm]

theorem spanOf_eq_ok {f g : OffsetField} {start stop : Int} {span : Span} : spanOf f start g stop = .ok span ↔
    0 ≤ start ∧ 0 ≤ stop ∧ span = ⟨start.toNat, stop.toNat⟩ := by
  simp only [spanOf, bind_eq_ok, offsetOf_eq_ok_iff, pure_eq_ok]
  constructor
  · rintro ⟨first, rfl, last, rfl, rfl⟩
    exact ⟨Int.natCast_nonneg _, Int.natCast_nonneg _, rfl⟩
  · rintro ⟨hstart, hstop, rfl⟩
    exact ⟨_, (Int.toNat_of_nonneg hstart).symm, _, (Int.toNat_of_nonneg hstop).symm, rfl⟩

theorem spanOf_eq_error {f g : OffsetField} {start stop : Int} {e : PlacementError} :
    spanOf f start g stop = .error e ↔ NegativeField [(f, start), (g, stop)] e := by
  simp only [spanOf, bind_eq_error, offsetOf_eq_error_iff, offsetOf_eq_ok_iff, pure_ne_error,
    and_false, exists_false, or_false, NegativeField, firstFault_cons, not_firstFault_nil, Int.not_le]
  constructor
  · rintro (h | ⟨first, rfl, h⟩)
    · exact .inl h
    · exact .inr ⟨Int.natCast_nonneg _, h⟩
  · rintro (h | ⟨hstart, h⟩)
    · exact .inl h
    · exact .inr ⟨_, (Int.toNat_of_nonneg hstart).symm, h⟩

section

variable {α : Type} {f g : OffsetField} {start stop : Int} {next : Span → Except PlacementError α}

theorem spanOf_bind_eq_ok {result : α} : (spanOf f start g stop >>= next) = .ok result ↔
    (0 ≤ start ∧ 0 ≤ stop) ∧ next ⟨start.toNat, stop.toNat⟩ = .ok result := by
  simp only [bind_eq_ok, spanOf_eq_ok, and_assoc, exists_and_left, exists_eq_left]

theorem spanOf_bind_eq_error {e : PlacementError} : (spanOf f start g stop >>= next) = .error e ↔
    NegativeField [(f, start), (g, stop)] e ∨
    ((0 ≤ start ∧ 0 ≤ stop) ∧ next ⟨start.toNat, stop.toNat⟩ = .error e) := by
  simp only [bind_eq_error, spanOf_eq_ok, spanOf_eq_error, and_assoc, exists_and_left, exists_eq_left]

end

namespace ImportRecord

variable {r : ImportRecord} {marks : List TaggedSpan} {e : PlacementError}

def writtenForm (r : ImportRecord) : ImportForm :=
  if 0 ≤ r.discriminant then .dynamic else if r.discriminant = -1 then .static else .metadata

def Acceptable (r : ImportRecord) : Prop :=
  -2 ≤ r.discriminant ∧ 0 ≤ r.start ∧ 0 ≤ r.stop ∧ 0 ≤ r.statementStart ∧ 0 ≤ r.statementStop

def offsetFields (r : ImportRecord) : List (OffsetField × Int) :=
  [(.start, r.start), (.stop, r.stop)] ++
    [(.statementStart, r.statementStart), (.statementStop, r.statementStop)]

/-- The discriminant is looked at first. -/
def Fault (r : ImportRecord) (e : PlacementError) : Prop :=
  (r.discriminant < -2 ∧ e = .unknownForm r.discriminant) ∨
  (-2 ≤ r.discriminant ∧ NegativeField r.offsetFields e)

/-- The specifier, the statement, a point for an assertion and one for the keyword of a dynamic import. -/
def dictated (r : ImportRecord) : List TaggedSpan :=
  [⟨⟨r.start.toNat, r.stop.toNat⟩, .specifier r.name⟩,
    ⟨⟨r.statementStart.toNat, r.statementStop.toNat⟩, .statement r.writtenForm⟩] ++
  (if 0 ≤ r.assertion then [⟨.point r.assertion.toNat, .assertion⟩] else []) ++
  if 0 ≤ r.discriminant then [⟨.point r.discriminant.toNat, .dynamicKeyword⟩] else []

theorem writtenForm_eq_dynamic_iff (r : ImportRecord) : r.writtenForm = .dynamic ↔ 0 ≤ r.discriminant := by
  unfold writtenForm
  split_ifs <;> simp_all

theorem form_eq_ok {form : ImportForm} : r.form = .ok form ↔ -2 ≤ r.discriminant ∧ form = r.writtenForm := by
  unfold ImportRecord.form ImportForm.ofDiscriminant? writtenForm
  split_ifs <;> simp [eq_comm] <;> omega

theorem form_eq_error : r.form = .error e ↔ r.discriminant < -2 ∧ e = .unknownForm r.discriminant := by
  unfold ImportRecord.form
  have h := ImportForm.ofDiscriminant?_eq_none_iff r.discriminant
  cases hd : ImportForm.ofDiscriminant? r.discriminant with
  | none => simp [h.1 hd, eq_comm]
  | some form =>
    have hle : ¬ r.discriminant < -2 := fun hlt => by simp [h.2 hlt] at hd
    simp [hle]

theorem marks_eq_ok : r.marks = .ok marks ↔ r.Acceptable ∧ marks = r.dictated := by
  rw [ImportRecord.marks, bind_eq_ok]
  simp only [form_eq_ok, spanOf_bind_eq_ok, pure_eq_ok]
  constructor
  · rintro ⟨_, ⟨hd, rfl⟩, ⟨hs, he⟩, ⟨hss, hse⟩, rfl⟩
    refine ⟨⟨hd, hs, he, hss, hse⟩, ?_⟩
    simp [dictated, writtenForm_eq_dynamic_iff]
  · rintro ⟨⟨hd, hs, he, hss, hse⟩, rfl⟩
    refine ⟨_, ⟨hd, rfl⟩, ⟨hs, he⟩, ⟨hss, hse⟩, ?_⟩
    simp [dictated, writtenForm_eq_dynamic_iff]

theorem marks_eq_error : r.marks = .error e ↔ r.Fault e := by
  have nonneg : (∀ field ∈ [(OffsetField.start, r.start), (OffsetField.stop, r.stop)], 0 ≤ field.2) ↔
      0 ≤ r.start ∧ 0 ≤ r.stop := by simp
  rw [ImportRecord.marks, bind_eq_error, Fault, offsetFields, negativeField_append, nonneg]
  simp only [form_eq_error, form_eq_ok, spanOf_bind_eq_error, pure_ne_error, and_false, or_false, and_assoc,
    exists_and_left, exists_eq_left]

end ImportRecord

namespace ExportRecord

variable {r : ExportRecord} {marks : List TaggedSpan} {e : PlacementError}

def Acceptable (r : ExportRecord) : Prop :=
  0 ≤ r.start ∧ 0 ≤ r.stop ∧ (0 ≤ r.localStart → 0 ≤ r.localStop)

/-- Where the local name stops matters only if there is a local name. -/
def offsetFields (r : ExportRecord) : List (OffsetField × Int) :=
  [(.start, r.start), (.stop, r.stop)] ++ if 0 ≤ r.localStart then [(.localStop, r.localStop)] else []

def Fault (r : ExportRecord) : PlacementError → Prop := NegativeField r.offsetFields

def dictated (r : ExportRecord) : List TaggedSpan :=
  ⟨⟨r.start.toNat, r.stop.toNat⟩, .exportedName r.name⟩ ::
    if 0 ≤ r.localStart then [⟨⟨r.localStart.toNat, r.localStop.toNat⟩, .localName r.localName⟩] else []

theorem marks_eq_ok : r.marks = .ok marks ↔ r.Acceptable ∧ marks = r.dictated := by
  unfold ExportRecord.marks Acceptable dictated
  by_cases h : 0 ≤ r.localStart
  · simp only [h, if_true, spanOf_bind_eq_ok, pure_eq_ok, true_and, true_imp_iff, and_assoc]
  · simp only [h, if_false, spanOf_bind_eq_ok, pure_eq_ok, false_imp_iff, and_true]

theorem marks_eq_error : r.marks = .error e ↔ r.Fault e := by
  unfold ExportRecord.marks Fault offsetFields
  by_cases h : 0 ≤ r.localStart
  · simp only [h, if_true, spanOf_bind_eq_error, negativeField_append, pure_ne_error, and_false, or_false]
    simp [h, NegativeField]
  · simp only [h, if_false, spanOf_bind_eq_error, pure_ne_error, and_false, or_false, List.append_nil]

end ExportRecord

def dictated (imports : List ImportRecord) (exports : List ExportRecord) : List TaggedSpan :=
  imports.flatMap ImportRecord.dictated ++ exports.flatMap ExportRecord.dictated

/-- The first record that cannot be accepted, imports before exports. -/
def FaultyRecord (imports : List ImportRecord) (exports : List ExportRecord) (e : PlacementError) : Prop :=
  FirstFault ImportRecord.Acceptable ImportRecord.Fault imports e ∨
  ((∀ r ∈ imports, r.Acceptable) ∧ FirstFault ExportRecord.Acceptable ExportRecord.Fault exports e)

section

variable {imports : List ImportRecord} {exports : List ExportRecord}

theorem marksOf_eq_ok {marks : List TaggedSpan} : marksOf imports exports = .ok marks ↔
    (∀ r ∈ imports, r.Acceptable) ∧ (∀ r ∈ exports, r.Acceptable) ∧ marks = dictated imports exports := by
  simp only [marksOf, bind_eq_ok, mapM_eq_ok_map fun _ _ => ImportRecord.marks_eq_ok,
    mapM_eq_ok_map fun _ _ => ExportRecord.marks_eq_ok, pure_eq_ok]
  constructor
  · rintro ⟨_, ⟨himports, rfl⟩, _, ⟨hexports, rfl⟩, rfl⟩
    exact ⟨himports, hexports, by rw [dictated, List.flatMap_def, List.flatMap_def]⟩
  · rintro ⟨himports, hexports, rfl⟩
    exact ⟨_, ⟨himports, rfl⟩, _, ⟨hexports, rfl⟩, by rw [dictated, List.flatMap_def, List.flatMap_def]⟩

theorem marksOf_eq_error {e : PlacementError} : marksOf imports exports = .error e ↔
    FaultyRecord imports exports e := by
  simp only [marksOf, bind_eq_error, mapM_eq_ok_map fun _ _ => ImportRecord.marks_eq_ok, mapM_eq_error,
    ImportRecord.marks_eq_ok, ImportRecord.marks_eq_error, ExportRecord.marks_eq_ok, ExportRecord.marks_eq_error,
    pure_ne_error, and_false, exists_false, or_false, exists_and_left, exists_eq, and_true,
    and_assoc, exists_eq_left, FaultyRecord]

end

namespace Annotator

variable {a : Annotator} {r : Recording}

def Reads (a : Annotator) (r : Recording) (exports : List ExportRecord) : Prop :=
  if a.capabilities.exportRecords then r.exportRecords = .ok exports else exports = []

def Collects (a : Annotator) (r : Recording) (marks : List TaggedSpan) : Prop :=
  ∃ exports, a.Reads r exports ∧ (∀ i ∈ r.imports, i.Acceptable) ∧ (∀ x ∈ exports, x.Acceptable) ∧
    marks = dictated r.imports exports

theorem exports_eq_ok {exports : List ExportRecord} : a.exports r = .ok exports ↔ a.Reads r exports := by
  unfold Annotator.exports Reads
  split_ifs
  · cases r.exportRecords <;> simp
  · simp [eq_comm]

theorem exports_eq_error {e : PlacementError} : a.exports r = .error e ↔ a.capabilities.exportRecords = true ∧
    ∃ fault, r.exportRecords = .error fault ∧ e = .malformedExports fault := by
  unfold Annotator.exports
  split_ifs with h
  · cases r.exportRecords <;> simp [h, eq_comm]
  · simp [h]

theorem marks_of_reads {exports : List ExportRecord} (h : a.Reads r exports) :
    a.marks r = marksOf r.imports exports := by
  rw [Annotator.marks, exports_eq_ok.2 h]
  rfl

theorem marks_eq_ok {marks : List TaggedSpan} : a.marks r = .ok marks ↔ a.Collects r marks := by
  simp only [Annotator.marks, bind_eq_ok, exports_eq_ok, marksOf_eq_ok, Collects]

theorem marks_eq_error {e : PlacementError} : a.marks r = .error e ↔
    (a.capabilities.exportRecords = true ∧ ∃ fault, r.exportRecords = .error fault ∧ e = .malformedExports fault) ∨
    ∃ exports, a.Reads r exports ∧ FaultyRecord r.imports exports e := by
  simp only [Annotator.marks, bind_eq_error, exports_eq_ok, exports_eq_error, marksOf_eq_error]

end Annotator
end AnnotatedSource
