import AnnotatedSource.Proofs.Cutting
import AnnotatedSource.Proofs.MarkupReading

set_option autoImplicit false

namespace AnnotatedSource

namespace Segment

def isAnnotated : Segment → Bool
  | text _ => false
  | annotated .. => true

/-- Takes empty text out of a list, if there is an annotated segment in it. -/
def withoutEmpty (segments : List Segment) : List Segment :=
  if segments.any isAnnotated then segments.filter (!·.isEmptyText) else segments

mutual

def prunedSegment : Segment → Segment
  | text span => text span
  | annotated span tags children => annotated span tags (withoutEmpty (prunedEach children))

def prunedEach : List Segment → List Segment
  | [] => []
  | s :: rest => prunedSegment s :: prunedEach rest

end

/-- Empty text taken out at every depth from the lists that have an annotated segment too. -/
def pruned (segments : List Segment) : List Segment := withoutEmpty (prunedEach segments)

theorem span_prunedSegment (s : Segment) : (prunedSegment s).span = s.span := by
  cases s <;> rfl

theorem prunedEach_eq_map (segments : List Segment) : prunedEach segments = segments.map prunedSegment := by
  induction segments with
  | nil => rfl
  | cons s rest ih => rw [prunedEach, ih, List.map_cons]

theorem text_mem_prunedEach {span : Span} {segments : List Segment} :
    text span ∈ prunedEach segments ↔ text span ∈ segments := by
  rw [prunedEach_eq_map, List.mem_map]
  constructor
  · rintro ⟨_ | _, hs, same⟩ <;> cases same
    exact hs
  · exact fun h => ⟨text span, h, rfl⟩

theorem mem_texts_of_mem {span : Span} {segments : List Segment} (h : text span ∈ segments) : span ∈ texts segments := by
  obtain ⟨before, after, rfl⟩ := List.append_of_mem h
  simp

theorem isAnnotated_ofNodes (elide : Bool) (forest : Forest) : ∀ s ∈ ofNodes elide forest, s.isAnnotated = true := by
  rw [ofNodes_eq_map, List.forall_mem_map]
  rintro ⟨span, tags, children⟩ -
  rfl

theorem not_isEmptyText_of_isAnnotated {s : Segment} (h : s.isAnnotated = true) : s.isEmptyText = false := by
  cases s with
  | text span => cases h
  | annotated span tags children => rfl

theorem filter_gap (span : Span) : (gap false span).filter (!·.isEmptyText) = gap true span := by
  cases h : span.isEmpty <;> simp [gap, isEmptyText, h]

theorem filter_withGaps {segments : List Segment} (annotated : ∀ s ∈ segments, s.isAnnotated = true)
    (cursor stop : Nat) : (withGaps false cursor stop segments).filter (!·.isEmptyText) =
      withGaps true cursor stop segments := by
  induction segments generalizing cursor with
  | nil => exact filter_gap _
  | cons s rest ih =>
    have kept := not_isEmptyText_of_isAnnotated (annotated s (by simp))
    rw [withGaps, withGaps, List.filter_append, filter_gap, List.filter_cons,
      ih fun t ht => annotated t (List.mem_cons_of_mem s ht), kept]
    rfl

theorem withoutEmpty_withGaps {segments : List Segment} (annotated : ∀ s ∈ segments, s.isAnnotated = true)
    (ne : segments ≠ []) (cursor stop : Nat) :
    withoutEmpty (withGaps false cursor stop segments) = withGaps true cursor stop segments := by
  obtain ⟨s, rest, rfl⟩ := List.exists_cons_of_ne_nil ne
  have found : (withGaps false cursor stop (s :: rest)).any isAnnotated = true := by
    simp [withGaps, annotated s]
  rw [withoutEmpty, if_pos found, filter_withGaps annotated]

theorem prunedEach_withGaps (cursor stop : Nat) (segments : List Segment) :
    prunedEach (withGaps false cursor stop segments) = withGaps false cursor stop (prunedEach segments) := by
  induction segments generalizing cursor with
  | nil => rfl
  | cons s rest ih =>
    rw [prunedEach, withGaps, withGaps, span_prunedSegment, ← ih]
    rfl

theorem ofForest_true (forest : Forest) (range : Span) :
    ofForest true forest range = pruned (ofForest false forest range) := by
  induction forest using Forest.level_induction generalizing range with
  | level forest ih =>
    rw [ofForest_eq, ofForest_eq]
    split
    · rfl
    · next nonempty =>
      have each : ofNodes true (Forest.sortByStart forest) =
          prunedEach (ofNodes false (Forest.sortByStart forest)) := by
        rw [prunedEach_eq_map, ofNodes_eq_map, ofNodes_eq_map, List.map_map]
        refine List.map_congr_left fun n hn => ?_
        rw [Function.comp_apply, ofNode_eq, ofNode_eq, ih n ((Forest.sortByStart_perm forest).mem_iff.1 hn)]
        rfl
      have ne : ofNodes true (Forest.sortByStart forest) ≠ [] := by
        intro none
        rw [ofNodes_eq_map, List.map_eq_nil_iff] at none
        rw [← Forest.isEmpty_sortByStart, none] at nonempty
        exact nonempty rfl
      rw [pruned, prunedEach_withGaps, ← each, withoutEmpty_withGaps (isAnnotated_ofNodes true _) ne]

theorem lone_of_isEmptyText {forest : Forest} {range : Span} {s : Segment} (h : s ∈ ofForest true forest range)
    (empty : s.isEmptyText = true) : forest = [] ∧ range.isEmpty = true ∧ ofForest true forest range = [s] := by
  rw [ofForest_eq] at h ⊢
  split at h
  · next none =>
    obtain rfl := List.isEmpty_iff.1 none
    obtain rfl := List.mem_singleton.1 h
    exact ⟨rfl, empty, rfl⟩
  · rw [← filter_withGaps (isAnnotated_ofNodes true _)] at h
    have kept := (List.mem_filter.1 h).2
    rw [empty] at kept
    cases kept

/-- Empty text in an annotated segment fills a point that has no nodes in it. -/
theorem lone_of_isEmptyText_child {forest : Forest} (upright : Forest.Upright forest) {range span : Span}
    {tags : List Tag} {children : List Segment}
    (h : annotated span tags children ∈ all (ofForest true forest range)) {t : Segment} (ht : t ∈ children)
    (empty : t.isEmptyText = true) : span.isPoint = true ∧ children = [t] ∧
      ∃ n ∈ Forest.nodes forest, n.span = span ∧ n.tags = tags ∧ n.children = [] := by
  rcases mem_all_ofForest h with ⟨_, same⟩ | ⟨n, hn, same⟩
  · cases same
  · rw [ofNode_eq] at same
    cases same
    obtain ⟨leaf, point, lone⟩ := lone_of_isEmptyText ht empty
    have stops : n.span.stop ≤ n.span.start := by simpa [Span.isEmpty] using point
    exact ⟨(Span.isPoint_iff _).2 (Nat.le_antisymm (upright n hn) stops), lone, n, hn, rfl, rfl, leaf⟩

variable {source : List Char}

theorem textOf_of_isEmptyText {s : Segment} (empty : s.isEmptyText = true) : textOf source s = [] := by
  cases s with
  | annotated span tags children => cases empty
  | text span =>
    have stops : span.stop ≤ span.start := by simpa [isEmptyText, Span.isEmpty] using empty
    cases h : Text.slice? source span with
    | none => rw [textOf, h, Option.getD_none]
    | some inner =>
      obtain ⟨-, before, after, -, -, length⟩ := Text.slice?_eq_some_iff.1 h
      rw [textOf, h, Option.getD_some]
      exact Text.byteLength_eq_zero (by omega)

theorem concat_withoutEmpty (segments : List Segment) : concat source (withoutEmpty segments) = concat source segments := by
  have filtered : concat source (segments.filter (!·.isEmptyText)) = concat source segments := by
    induction segments with
    | nil => rfl
    | cons s rest ih =>
      cases empty : s.isEmptyText with
      | false => rw [List.filter_cons, empty, concat, ← ih]; rfl
      | true =>
        rw [List.filter_cons, empty, concat, textOf_of_isEmptyText empty, ← ih]
        rfl
  unfold withoutEmpty
  split
  · exact filtered
  · rfl

theorem concat_pruned (segments : List Segment) : concat source (pruned segments) = concat source segments := by
  rw [pruned, concat_withoutEmpty]
  induction segments using induction with
  | nil => rfl
  | text span rest ih => rw [prunedEach, prunedSegment, concat, concat, ih]
  | annotated span tags children rest below ahead =>
    rw [prunedEach, prunedSegment, concat, concat, ahead, textOf, textOf, concat_withoutEmpty, below]

end Segment

namespace Markup

variable {source : List Char}

theorem segment_of_isEmpty {span : Span} (empty : span.isEmpty = true) (fits : Text.Fits source span) :
    segment source (.text span) = .ok [] := by
  obtain ⟨inner, slice⟩ := Option.isSome_iff_exists.1 (Text.slice?_isSome_iff_fits.2 fits)
  have none : Segment.textOf source (.text span) = [] := Segment.textOf_of_isEmptyText empty
  rw [Segment.textOf, slice, Option.getD_some] at none
  exact segment_text_eq_ok.2 ⟨inner, slice, by rw [none]; rfl⟩

theorem segments_withoutEmpty {segs : List Segment} (fits : ∀ span, .text span ∈ segs → Text.Fits source span) :
    segments source (Segment.withoutEmpty segs) = segments source segs := by
  have filtered : segments source (segs.filter (!·.isEmptyText)) = segments source segs := by
    induction segs with
    | nil => rfl
    | cons s rest ih =>
      have others := ih fun span h => fits span (List.mem_cons_of_mem s h)
      cases s with
      | annotated span tags children => rw [List.filter_cons, segments, ← others]; rfl
      | text span =>
        cases empty : span.isEmpty with
        | false => rw [List.filter_cons, Segment.isEmptyText, empty, segments, ← others]; rfl
        | true =>
          rw [List.filter_cons, Segment.isEmptyText, empty, segments, ← others,
            segment_of_isEmpty empty (fits span (by simp))]
          show segments source (rest.filter _) = _
          cases segments source (rest.filter _) <;> rfl
  unfold Segment.withoutEmpty
  split
  · exact filtered
  · rfl

theorem segments_pruned {segs : List Segment} (fits : ∀ t ∈ Segment.texts segs, Text.Fits source t) :
    segments source (Segment.pruned segs) = segments source segs := by
  have each : segments source (Segment.prunedEach segs) = segments source segs := by
    induction segs using Segment.induction with
    | nil => rfl
    | text span rest ih =>
      rw [Segment.prunedEach, Segment.prunedSegment, segments, segments, ih fun t h => fits t (by simp [h])]
    | annotated span tags children rest below ahead =>
      simp only [Segment.texts_annotated, List.forall_mem_append] at fits
      rw [Segment.prunedEach, Segment.prunedSegment, segments, segments, ahead fits.2, segment, segment,
        segments_withoutEmpty fun span h => fits.1 span (Segment.mem_texts_of_mem (Segment.text_mem_prunedEach.1 h)),
        below fits.1]
  rw [Segment.pruned, segments_withoutEmpty, each]
  exact fun span h => fits span (Segment.mem_texts_of_mem (Segment.text_mem_prunedEach.1 h))

end Markup

def Annotated.pruned (a : Annotated) : Annotated := { a with segments := Segment.pruned a.segments }

namespace Annotator

theorem annotate_elide (a : Annotator) (source : String) (r : Recording) :
    { a with elide := true }.annotate source r =
      ({ a with elide := false }.annotate source r).map Annotated.pruned := by
  have marks : { a with elide := true }.marks r = { a with elide := false }.marks r := rfl
  have placed (m : List TaggedSpan) :
    { a with elide := true }.placed source.toList m = { a with elide := false }.placed source.toList m := rfl
  simp only [annotate, bind, Except.bind, marks, placed]
  cases { a with elide := false }.marks r with
  | error fault => rfl
  | ok marks =>
    simp only
    cases { a with elide := false }.placed source.toList marks with
    | error fault => rfl
    | ok placed =>
      simp only
      cases nested placed with
      | error fault => rfl
      | ok forest => simp only [Segment.ofForest_true]; rfl

variable {a : Annotator} {source : String} {r : Recording}

theorem annotate_elide_eq_error (fault : PlacementError) : { a with elide := false }.annotate source r = .error fault ↔
    { a with elide := true }.annotate source r = .error fault := by
  rw [annotate_elide]
  cases { a with elide := false }.annotate source r <;> simp [Except.map]

theorem annotate_elide_eq_ok {kept : Annotated} (h : { a with elide := false }.annotate source r = .ok kept) :
    { a with elide := true }.annotate source r = .ok kept.pruned ∧
      Markup.render kept.pruned = Markup.render kept := by
  obtain ⟨hsource, fits, -⟩ := annotate_reads h
  have body : Markup.segments kept.source.toList (Segment.pruned kept.segments) =
      Markup.segments kept.source.toList kept.segments := Markup.segments_pruned (hsource ▸ fits)
  constructor
  · rw [annotate_elide, h]
    rfl
  · show (do let body ← Markup.segments kept.source.toList (Segment.pruned kept.segments); _) = _
    rw [body]
    rfl

/-- Leaving out empty text takes it from where an annotated segment stands beside it, and does nothing else.
    Empty text is left in points without nodes in them and in empty sources without nodes. A recording is
    refused with either setting or with none, and what it makes has one forest, one text and one markup. -/
theorem elide_removes_empty_text {calls : List TaggedSpan} (upright : ∀ x ∈ calls, x.span.Upright) (length : Nat)
    (a : Annotator) (source : String) (r : Recording) :
    Segment.ofForest true (Forest.Run.of calls).forest ⟨0, length⟩ =
      Segment.pruned (Segment.ofForest false (Forest.Run.of calls).forest ⟨0, length⟩) ∧
    (∀ s ∈ Segment.ofForest true (Forest.Run.of calls).forest ⟨0, length⟩, s.isEmptyText = true →
      (Forest.Run.of calls).forest = [] ∧ length = 0 ∧
        Segment.ofForest true (Forest.Run.of calls).forest ⟨0, length⟩ = [s]) ∧
    (∀ span tags children, .annotated span tags children ∈
        Segment.all (Segment.ofForest true (Forest.Run.of calls).forest ⟨0, length⟩) →
      ∀ t ∈ children, t.isEmptyText = true → span.isPoint = true ∧ children = [t] ∧
        ∃ n ∈ Forest.nodes (Forest.Run.of calls).forest, n.span = span ∧ n.tags = tags ∧ n.children = []) ∧
    (∀ fault, { a with elide := false }.annotate source r = .error fault ↔
      { a with elide := true }.annotate source r = .error fault) ∧
    ∀ kept, { a with elide := false }.annotate source r = .ok kept →
      ∃ elided, { a with elide := true }.annotate source r = .ok elided ∧ elided.forest = kept.forest ∧
        Segment.concat source.toList elided.segments = Segment.concat source.toList kept.segments ∧
        Markup.render elided = Markup.render kept := by
  refine ⟨Segment.ofForest_true _ _, ?_, ?_, annotate_elide_eq_error, ?_⟩
  · intro s hs empty
    obtain ⟨none, stops, lone⟩ := Segment.lone_of_isEmptyText hs empty
    exact ⟨none, by simpa [Span.isEmpty] using stops, lone⟩
  · intro span tags children h t ht empty
    exact Segment.lone_of_isEmptyText_child (Forest.upright_run upright) h ht empty
  · intro kept h
    obtain ⟨elided, markup⟩ := annotate_elide_eq_ok h
    exact ⟨kept.pruned, elided, rfl, Segment.concat_pruned _, markup⟩

def keyword : List TaggedSpan :=
  [⟨⟨7, 10⟩, .specifier (some "m")⟩, ⟨⟨0, 11⟩, .statement .dynamic⟩, ⟨⟨0, 0⟩, .dynamicKeyword⟩]

theorem elide_removes_empty_text_keyword : (∀ x ∈ keyword, x.span.Upright) ∧
    Segment.annotated ⟨0, 0⟩ [.dynamicKeyword] [.text ⟨0, 0⟩] ∈
      Segment.all (Segment.ofForest true (Forest.Run.of keyword).forest ⟨0, 11⟩) ∧
    (∃ n ∈ Forest.nodes (Forest.Run.of keyword).forest, n.span = ⟨0, 0⟩ ∧ n.children = []) ∧
    ∃ kept elided, ({} : Annotator).annotate "import('m')"
        ⟨[⟨some "m", 7, 10, 0, 11, 0, -1⟩], .list [], false, none⟩ = .ok kept ∧
      ({ elide := true } : Annotator).annotate "import('m')"
        ⟨[⟨some "m", 7, 10, 0, 11, 0, -1⟩], .list [], false, none⟩ = .ok elided ∧
      Markup.render elided = Markup.render kept := by
  have upright : ∀ x ∈ keyword, x.span.Upright := by decide
  have child : Segment.annotated ⟨0, 0⟩ [.dynamicKeyword] [.text ⟨0, 0⟩] ∈
      Segment.all (Segment.ofForest true (Forest.Run.of keyword).forest ⟨0, 11⟩) :=
    List.mem_of_getElem? (i := 1) rfl
  obtain ⟨kept, h⟩ : ∃ kept, ({} : Annotator).annotate "import('m')"
      ⟨[⟨some "m", 7, 10, 0, 11, 0, -1⟩], .list [], false, none⟩ = .ok kept := ⟨_, rfl⟩
  obtain ⟨-, -, lone, -, same⟩ := elide_removes_empty_text upright 11 {} "import('m')"
    ⟨[⟨some "m", 7, 10, 0, 11, 0, -1⟩], .list [], false, none⟩
  obtain ⟨-, -, n, hn, span, -, leaf⟩ := lone _ _ _ child (.text ⟨0, 0⟩) (by simp) rfl
  obtain ⟨elided, h', -, -, markup⟩ := same kept h
  exact ⟨upright, child, ⟨n, hn, span, leaf⟩, kept, elided, h, h', markup⟩

end Annotator
end AnnotatedSource
