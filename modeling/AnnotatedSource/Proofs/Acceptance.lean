import AnnotatedSource.Proofs.Collection
import AnnotatedSource.Proofs.InsertionOrder
import AnnotatedSource.Proofs.Location

set_option autoImplicit false

namespace AnnotatedSource

namespace Annotator

variable {a : Annotator} {source : List Char} {r : Recording}

/-- The export list decodes if it counts, all records are acceptable, and their marks mean spans of bytes
    that the source has text for and that do not cross. -/
def Accepts (a : Annotator) (source : List Char) (r : Recording) : Prop :=
  ∃ marks placed, a.Collects r marks ∧ List.Forall₂ (a.Locates source) marks placed ∧
    (∀ m ∈ placed, Text.Fits source m.span) ∧ ∀ m ∈ placed, ∀ n ∈ placed, ¬ m.span.crosses n.span

/-- What is told in each stage, where all stages before it are passed. -/
inductive Refused (a : Annotator) (source : List Char) (r : Recording) : PlacementError → Prop
  | exports {fault : RecordFault} (reported : a.capabilities.exportRecords = true)
      (undecoded : r.exportRecords = .error fault) : Refused a source r (.malformedExports fault)
  | record {exports : List ExportRecord} {e : PlacementError} (reads : a.Reads r exports)
      (first : FaultyRecord r.imports exports e) : Refused a source r e
  | units {marks : List TaggedSpan} {e : PlacementError} (collects : a.Collects r marks) (unit : a.unit = .utf16)
      (first : FirstFault (InUnits source) (UnitFault source) marks e) : Refused a source r e
  | text {marks placed : List TaggedSpan} {e : PlacementError} (collects : a.Collects r marks)
      (located : List.Forall₂ (a.Locates source) marks placed)
      (first : FirstFault (Text.Fits source ·.span) (TextFault source) placed e) : Refused a source r e
  | crossing {marks placed : List TaggedSpan} {spans : Crossing} (collects : a.Collects r marks)
      (located : List.Forall₂ (a.Locates source) marks placed) (fits : ∀ m ∈ placed, Text.Fits source m.span)
      (first : Forest.FirstCrossing placed spans) : Refused a source r (.crossing spans)

theorem placed_eq_ok_iff_fits {marks placed : List TaggedSpan} : a.placed source marks = .ok placed ↔
    List.Forall₂ (a.Locates source) marks placed ∧ ∀ m ∈ placed, Text.Fits source m.span := by
  simp only [placed_eq_ok, located_eq_ok, check_eq_ok_iff_fits]

theorem nested_eq_error {marks : List TaggedSpan} {e : PlacementError} :
    nested marks = .error e ↔ ∃ spans, Forest.build marks = .error spans ∧ e = .crossing spans := by
  unfold nested
  cases Forest.build marks <;> simp [eq_comm]

theorem annotate_eq_error {source : String} {e : PlacementError} : a.annotate source r = .error e ↔
    a.marks r = .error e ∨ ∃ marks, a.marks r = .ok marks ∧ (a.placed source.toList marks = .error e ∨
      ∃ placed, a.placed source.toList marks = .ok placed ∧ nested placed = .error e) := by
  simp only [annotate, bind_eq_error, pure_ne_error, and_false, exists_false, or_false]

theorem exists_annotate_iff (source : String) :
    (∃ result, a.annotate source r = .ok result) ↔ a.Accepts source.toList r := by
  simp only [annotate_eq_ok, marks_eq_ok, placed_eq_ok_iff_fits]
  constructor
  · rintro ⟨_, marks, placed, forest, collects, ⟨located, fits⟩, hforest, -⟩
    exact ⟨marks, placed, collects, located, fits,
      (Forest.exists_build_iff fun m hm => (fits m hm).1).1 ⟨forest, hforest⟩⟩
  · rintro ⟨marks, placed, collects, located, fits, uncrossed⟩
    obtain ⟨forest, hforest⟩ := Forest.build_of_not_crosses uncrossed
    exact ⟨_, marks, placed, forest, collects, ⟨located, fits⟩, hforest, rfl⟩

theorem refused_of_marks {e : PlacementError} (h : a.marks r = .error e) : a.Refused source r e := by
  rcases marks_eq_error.1 h with ⟨reported, fault, undecoded, rfl⟩ | ⟨exports, reads, first⟩
  · exact .exports reported undecoded
  · exact .record reads first

theorem refused_of_placed {marks : List TaggedSpan} {e : PlacementError} (collects : a.Collects r marks)
    (h : a.placed source marks = .error e) : a.Refused source r e := by
  rcases placed_eq_error.1 h with ⟨unit, first⟩ | ⟨placed, located, first⟩
  · exact .units collects unit first
  · exact .text collects located first

theorem refused_of_nested {marks placed : List TaggedSpan} {e : PlacementError} (collects : a.Collects r marks)
    (hplaced : a.placed source marks = .ok placed) (h : nested placed = .error e) : a.Refused source r e := by
  obtain ⟨located, fits⟩ := placed_eq_ok_iff_fits.1 hplaced
  obtain ⟨spans, build, rfl⟩ := nested_eq_error.1 h
  exact .crossing collects located fits (Forest.firstCrossing_of_build (fun m hm => (fits m hm).1) build)

/-- A recording is put on its source exactly if it can be accepted. If it cannot, the fault is that of the
    earliest stage with any, and in that stage of the first record or mark that has one. -/
theorem annotate_outcome (a : Annotator) (source : String) (r : Recording) :
    ((∃ result, a.annotate source r = .ok result) ↔ a.Accepts source.toList r) ∧
    ∀ e, a.annotate source r = .error e → a.Refused source.toList r e := by
  refine ⟨exists_annotate_iff source, fun e h => ?_⟩
  rcases annotate_eq_error.1 h with h | ⟨marks, hmarks, h | ⟨placed, hplaced, h⟩⟩
  · exact refused_of_marks h
  · exact refused_of_placed (marks_eq_ok.1 hmarks) h
  · exact refused_of_nested (marks_eq_ok.1 hmarks) hplaced h

end Annotator

namespace Annotator

variable {a : Annotator} {source : String} {r : Recording} {result : Annotated}

theorem contents_of_build {marks : List TaggedSpan} {forest : Forest} (upright : ∀ m ∈ marks, m.span.Upright)
    (h : Forest.build marks = .ok forest) : (Forest.taggedSpans forest.sorted).Perm marks ∧
      ∀ n ∈ Forest.nodes forest.sorted, n.tags = Forest.tagsOn n.span marks :=
  ⟨(Forest.taggedSpans_sorted_perm forest).trans (Forest.grown_build h).2, Forest.sorted_tags upright h⟩

/-- No record is lost, and none is told twice or under another tag. -/
theorem annotate_contents (h : a.annotate source r = .ok result) : ∃ exports placed, a.Reads r exports ∧
    List.Forall₂ (a.Locates source.toList) (dictated r.imports exports) placed ∧
    (Forest.taggedSpans result.forest).Perm placed ∧
    ∀ n ∈ Forest.nodes result.forest, n.tags = Forest.tagsOn n.span placed := by
  obtain ⟨marks, placed, forest, hmarks, hplaced, hforest, rfl⟩ := annotate_eq_ok.1 h
  obtain ⟨exports, reads, -, -, rfl⟩ := marks_eq_ok.1 hmarks
  obtain ⟨located, checked⟩ := placed_eq_ok.1 hplaced
  have upright : ∀ m ∈ placed, m.span.Upright := fun m hm => (check_eq_ok.1 (checked m hm)).1.1
  exact ⟨exports, placed, reads, located_eq_ok.1 located, contents_of_build upright hforest⟩

def sharedName : Recording :=
  ⟨[⟨some "m", 12, 15, 5, 16, 5, 14⟩], .list [.table [("n", .text "x"), ("s", .integer 12), ("e", .integer 15)]],
    false, none⟩

theorem exportRecords_sharedName : sharedName.exportRecords = .ok [⟨some "x", none, 12, 15, -1, -1⟩] := by
  simp [sharedName, Recording.exportRecords, ExportRecord.listOfValue, ExportRecord.ofValue, ExportRecord.ofEntries,
    Value.lookup?, OffsetField.key, ExportRecord.optional, ExportRecord.offset, ExportRecord.text,
    ExportRecord.required, Word.holdsSigned, Word.signedBound, bind, Except.bind, pure, Except.pure, Except.map]

def sharedNameMarks : List TaggedSpan :=
  [⟨⟨13, 16⟩, .specifier (some "m")⟩, ⟨⟨6, 17⟩, .statement .dynamic⟩, ⟨⟨15, 15⟩, .assertion⟩,
    ⟨⟨6, 6⟩, .dynamicKeyword⟩, ⟨⟨13, 16⟩, .exportedName (some "x")⟩]

theorem placed_sharedName : ({ unit := .utf16 } : Annotator).placed "/*é*/import('m')".toList
    (dictated sharedName.imports [⟨some "x", none, 12, 15, -1, -1⟩]) = .ok sharedNameMarks := rfl

theorem annotate_contents_sharedName : ∃ result,
    ({ unit := .utf16 } : Annotator).annotate "/*é*/import('m')" sharedName = .ok result ∧
    ∀ n ∈ Forest.nodes result.forest, n.span = ⟨13, 16⟩ →
      n.tags = [.specifier (some "m"), .exportedName (some "x")] := by
  have reads : ({ unit := .utf16 } : Annotator).Reads sharedName [⟨some "x", none, 12, 15, -1, -1⟩] :=
    exportRecords_sharedName
  obtain ⟨forest, hforest⟩ : ∃ forest, Forest.build sharedNameMarks = .ok forest := ⟨_, rfl⟩
  have hmarks := marks_eq_ok.2 ⟨_, reads, by simp [sharedName, ImportRecord.Acceptable],
    by simp [ExportRecord.Acceptable], rfl⟩
  have h := annotate_eq_ok.2 ⟨_, _, _, hmarks, placed_sharedName, hforest, rfl⟩
  refine ⟨_, h, fun n hn same => ?_⟩
  obtain ⟨exports, placed, reads', located, -, tags⟩ := annotate_contents h
  cases (exports_eq_ok.2 reads).symm.trans (exports_eq_ok.2 reads')
  cases (located_eq_ok.2 located).symm.trans (placed_eq_ok.1 placed_sharedName).1
  rw [tags n hn, same]
  rfl

end Annotator
end AnnotatedSource
