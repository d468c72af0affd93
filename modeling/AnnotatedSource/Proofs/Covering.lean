import AnnotatedSource.Proofs.InsertionOrder
import AnnotatedSource.Proofs.Placement
import AnnotatedSource.WellFormed

set_option autoImplicit false

namespace AnnotatedSource

namespace Segment

theorem induction {P : List Segment → Prop} (nil : P [])
    (text : ∀ span rest, P rest → P (.text span :: rest))
    (annotated : ∀ span tags children rest, P children → P rest → P (.annotated span tags children :: rest)) :
    ∀ segments, P segments
  | [] => nil
  | .text span :: rest => text span rest (induction nil text annotated rest)
  | .annotated span tags children :: rest =>
    annotated span tags children rest (induction nil text annotated children) (induction nil text annotated rest)

theorem preorderFrom_snd (depth depth' : Nat) (segments : List Segment) :
    (preorderFrom depth segments).map (·.2) = (preorderFrom depth' segments).map (·.2) := by
  induction segments using induction generalizing depth depth' with
  | nil => rfl
  | text span rest ih => simp [preorderFrom, preorderSegment, ih depth depth']
  | annotated span tags children rest below ahead =>
    simp [preorderFrom, preorderSegment, below (depth + 1) (depth' + 1), ahead depth depth']

def textSpan? : Segment → Option Span
  | text span => some span
  | annotated .. => none

def texts (segments : List Segment) : List Span := ((preorderFrom 0 segments).map (·.2)).filterMap textSpan?

@[simp] theorem texts_nil : texts [] = [] := rfl

@[simp] theorem texts_text (span : Span) (rest : List Segment) : texts (text span :: rest) = span :: texts rest :=
  rfl

@[simp] theorem texts_annotated (span : Span) (tags : List Tag) (children rest : List Segment) :
    texts (annotated span tags children :: rest) = texts children ++ texts rest := by
  simp only [texts, preorderFrom, preorderSegment, List.map_append, List.map_cons, List.cons_append,
    List.filterMap_cons, textSpan?, List.filterMap_append]
  rw [preorderFrom_snd (0 + 1) 0]

@[simp] theorem texts_append (a b : List Segment) : texts (a ++ b) = texts a ++ texts b := by
  induction a with
  | nil => rfl
  | cons s a ih => cases s <;> simp [ih]

theorem texts_cons (s : Segment) (rest : List Segment) : texts (s :: rest) = texts [s] ++ texts rest :=
  texts_append [s] rest

theorem slice?_of_covers {source : List Char} {cursor stop : Nat} {segments : List Segment}
    (covered : covers cursor stop segments = true) (start : Text.isBoundary source cursor = true)
    (fits : ∀ t ∈ texts segments, (Text.slice? source t).isSome) :
    Text.slice? source ⟨cursor, stop⟩ = some (concat source segments) := by
  induction segments using induction generalizing cursor stop with
  | nil =>
    obtain rfl : cursor = stop := by simpa [covers] using covered
    exact Text.slice?_empty start
  | text span rest ih =>
    simp only [covers, isFilled, Bool.and_eq_true, beq_iff_eq, Segment.span] at covered
    obtain ⟨⟨rfl, -⟩, covered⟩ := covered
    simp only [texts_text, List.forall_mem_cons] at fits
    obtain ⟨inner, hinner⟩ := Option.isSome_iff_exists.1 fits.1
    have stops := (Text.slice?_isSome_iff.1 fits.1).2.2
    rw [concat, textOf, hinner]
    exact Text.slice?_append hinner (ih covered stops fits.2)
  | annotated span tags children rest below ahead =>
    simp only [covers, isFilled, Bool.and_eq_true, beq_iff_eq, Segment.span] at covered
    obtain ⟨⟨rfl, filled⟩, covered⟩ := covered
    simp only [texts_annotated, List.forall_mem_append] at fits
    have hinner := below filled start fits.1
    have stops := (Text.slice?_isSome_iff.1 (Option.isSome_iff_exists.2 ⟨_, hinner⟩)).2.2
    rw [concat, textOf]
    exact Text.slice?_append hinner (ahead covered stops fits.2)

theorem covers_gap {elide : Bool} {start stop final : Nat} {rest : List Segment} (hle : start ≤ stop)
    (covered : covers stop final rest = true) : covers start final (gap elide ⟨start, stop⟩ ++ rest) = true := by
  unfold gap
  split
  · next empty =>
    have hstop : stop ≤ start := by simpa [Span.isEmpty] using (Bool.and_eq_true_iff.1 empty).2
    obtain rfl := Nat.le_antisymm hle hstop
    exact covered
  · simpa [covers, isFilled, Segment.span] using covered

theorem covers_withGaps {elide : Bool} {cursor stop : Nat} {segments : List Segment}
    (chain : Span.Chain cursor stop (segments.map span)) (filled : ∀ s ∈ segments, isFilled s = true) :
    covers cursor stop (withGaps elide cursor stop segments) = true := by
  induction segments generalizing cursor with
  | nil => simpa [withGaps] using @covers_gap elide cursor stop stop [] chain (by simp [covers])
  | cons s rest ih =>
    obtain ⟨hstart, upright, hrest⟩ := chain
    rw [withGaps]
    refine covers_gap hstart ?_
    simp only [covers, beq_self_eq_true, Bool.true_and, filled s (by simp)]
    exact ih hrest fun t ht => filled t (List.mem_cons_of_mem s ht)

theorem chain_sort {range : Span} {segments : List Segment} (upright : range.Upright)
    (apart : (segments.map span).Pairwise Span.Apart)
    (within : ∀ s ∈ segments, s.span.Upright ∧ range.start ≤ s.span.start ∧ s.span.stop ≤ range.stop) :
    Span.Chain range.start range.stop ((Sorting.sort startsBefore segments).map span) := by
  have perm := Sorting.sort_perm startsBefore segments
  have ascending := Sorting.sort_pairwise_key (·.span.start) (fun _ _ => rfl) segments
  have apart' := ((perm.map span).pairwise_iff Span.Apart.symm).2 apart
  refine Span.chain_of_apart upright apart' (List.pairwise_map.2 ascending) ?_
  rw [List.forall_mem_map]
  exact fun s hs => within s (perm.mem_iff.1 hs)

theorem forall_texts_gap {P : Span → Prop} {elide : Bool} {span : Span} (h : P span) :
    ∀ t ∈ texts (gap elide span), P t := by
  unfold gap
  split <;> simp [h]

theorem forall_texts_withGaps {B : Nat → Prop} {elide : Bool} {cursor stop : Nat} {segments : List Segment}
    (chain : Span.Chain cursor stop (segments.map span)) (hcursor : B cursor) (hstop : B stop)
    (ends : ∀ s ∈ segments, s.span.EndsIn B) (inner : ∀ s ∈ segments, ∀ t ∈ texts [s], t.EndsIn B) :
    ∀ t ∈ texts (withGaps elide cursor stop segments), t.EndsIn B := by
  induction segments generalizing cursor with
  | nil => exact forall_texts_gap ⟨chain, hcursor, hstop⟩
  | cons s rest ih =>
    obtain ⟨hstart, -, hrest⟩ := chain
    obtain ⟨-, bstart, bstop⟩ := ends s (by simp)
    rw [withGaps, texts_append, texts_cons, List.forall_mem_append, List.forall_mem_append]
    exact ⟨forall_texts_gap ⟨hstart, hcursor, bstart⟩, inner s (by simp),
      ih hrest bstop (fun t ht => ends t (List.mem_cons_of_mem s ht))
        fun t ht => inner t (List.mem_cons_of_mem s ht)⟩

theorem fill_sound {B : Nat → Prop} {elide : Bool} {range : Span} {segments : List Segment}
    (hrange : range.EndsIn B) (apart : (segments.map span).Pairwise Span.Apart)
    (within : ∀ s ∈ segments, s.span.EndsIn B ∧ range.start ≤ s.span.start ∧ s.span.stop ≤ range.stop)
    (inner : ∀ s ∈ segments, isFilled s = true ∧ ∀ t ∈ texts [s], t.EndsIn B) :
    covers range.start range.stop (fill elide range segments) = true ∧
      ∀ t ∈ texts (fill elide range segments), t.EndsIn B := by
  cases segments with
  | nil => simpa [fill, covers, isFilled, Segment.span] using hrange
  | cons s rest =>
    have mem : ∀ {t}, t ∈ Sorting.sort startsBefore (s :: rest) → t ∈ s :: rest :=
      fun h => (Sorting.sort_perm startsBefore (s :: rest)).mem_iff.1 h
    have chain := chain_sort hrange.1 apart fun t ht => ⟨(within t ht).1.1, (within t ht).2⟩
    rw [fill]
    exact ⟨covers_withGaps chain fun t ht => (inner t (mem ht)).1,
      forall_texts_withGaps chain hrange.2.1 hrange.2.2 (fun t ht => (within t (mem ht)).1)
        fun t ht => (inner t (mem ht)).2⟩

theorem ofNodes_spans (elide : Bool) (forest : Forest) :
    (ofNodes elide forest).map span = forest.map (·.span) := by
  rw [ofNodes_eq_map, List.map_map]
  exact List.map_congr_left fun n _ => span_ofNode elide n

theorem ofNode_sound {B : Nat → Prop} {elide : Bool} {forest : Forest} (nested : Forest.Nested forest)
    (ends : ∀ n ∈ Forest.nodes forest, n.span.EndsIn B) :
    ∀ n ∈ forest, isFilled (ofNode elide n) = true ∧ ∀ t ∈ texts [ofNode elide n], t.EndsIn B := by
  induction forest using Forest.level_induction with
  | level forest ih =>
    intro n hn
    obtain ⟨inside, below⟩ := (Forest.nested_iff.1 nested).2 n hn
    obtain ⟨hspan, hbelow⟩ := Forest.forall_nodes.1 ends n hn
    have sound := ih n hn below hbelow
    obtain ⟨span, tags, children⟩ := n
    rw [ofNode, isFilled, texts_annotated, texts_nil, List.append_nil]
    refine fill_sound hspan ?_ ?_ ?_
    · rw [ofNodes_spans]
      exact (Forest.nested_iff.1 below).1
    · simp only [ofNodes_eq_map, List.forall_mem_map, span_ofNode]
      exact fun c hc => ⟨hbelow c (Forest.mem_nodes_of_mem hc), Span.contains_bounds (inside c hc)⟩
    · simpa only [ofNodes_eq_map, List.forall_mem_map] using sound

/-- A forest that nests within a range cuts it into segments that cover it, all the way down. Each piece
    of text is upright and has its ends where the range or a node has one. -/
theorem ofForest_sound {B : Nat → Prop} (elide : Bool) {forest : Forest} {range : Span}
    (nested : Forest.Nested forest) (ends : ∀ n ∈ Forest.nodes forest, n.span.EndsIn B)
    (hrange : range.EndsIn B)
    (within : ∀ n ∈ forest, range.start ≤ n.span.start ∧ n.span.stop ≤ range.stop) :
    covers range.start range.stop (ofForest elide forest range) = true ∧
      ∀ t ∈ texts (ofForest elide forest range), t.EndsIn B := by
  refine fill_sound hrange ?_ ?_ ?_
  · rw [ofNodes_spans]
    exact (Forest.nested_iff.1 nested).1
  · simp only [ofNodes_eq_map, List.forall_mem_map, span_ofNode]
    exact fun n hn => ⟨ends n (Forest.mem_nodes_of_mem hn), within n hn⟩
  · simpa only [ofNodes_eq_map, List.forall_mem_map] using ofNode_sound nested ends

end Segment

namespace Forest

theorem isBeside_iff (a b : Node) : isBeside a b = true ↔ a.span.Apart b.span := by
  simp [isBeside, Span.Apart, and_assoc]

theorem isAhead_of {n : Node} {rest : Forest} (starts : ∀ m ∈ rest, n.span.start ≤ m.span.start)
    (apart : ∀ m ∈ rest, n.span.Apart m.span) : isAhead n rest = true := by
  cases rest with
  | nil => rfl
  | cons next rest =>
    simp only [isAhead, Bool.and_eq_true, decide_eq_true_eq, List.all_eq_true, isBeside_iff]
    exact ⟨starts next (by simp), apart⟩

theorem areWellFormed_of_placed {source : List Char} {forest : Forest} (nested : Nested forest)
    (ascending : Ascending forest) (placed : ∀ n ∈ nodes forest, isPlaced source n = true) :
    areWellFormed source forest = true := by
  induction forest using induction with
  | nil => rfl
  | cons n rest below ahead =>
    obtain ⟨apart, each⟩ := nested_iff.1 nested
    have starts := (List.pairwise_cons.1 ascending.level).1
    have besides := (List.pairwise_cons.1 apart).1
    obtain ⟨inside, nestedBelow⟩ := each n (by simp)
    have placedBelow := below nestedBelow (ascending.below (by simp)) fun m hm => placed m (by simp [hm])
    have placedAhead := ahead nested.tail ascending.tail fun m hm => placed m (by simp [hm])
    have hn := placed n (by simp)
    have aheadOf := isAhead_of starts fun m hm => besides _ (List.mem_map_of_mem hm)
    obtain ⟨span, tags, children⟩ := n
    simp only [areWellFormed, isNodeWellFormed, hn, placedBelow, aheadOf, placedAhead, Bool.and_true,
      Bool.true_and, List.all_eq_true]
    exact inside

end Forest

namespace Annotated

def Placed (source : List Char) (n : Node) : Prop :=
  n.span.start ≤ n.span.stop ∧ n.span.stop ≤ Text.byteLength source ∧
    Text.isBoundary source n.span.start = true ∧ Text.isBoundary source n.span.stop = true ∧ n.tags ≠ []

theorem isPlaced_iff {source : List Char} {n : Node} : Forest.isPlaced source n = true ↔ Placed source n := by
  simp [Forest.isPlaced, Placed, and_assoc]

end Annotated

namespace Annotator

variable {a : Annotator} {source : String} {r : Recording} {result : Annotated}

theorem placed_of_build {source : List Char} {marks : List TaggedSpan} {forest : Forest}
    (checked : ∀ mark ∈ marks, check source mark = .ok ()) (h : Forest.build marks = .ok forest) :
    ∀ n ∈ Forest.nodes forest.sorted, Annotated.Placed source n := by
  intro n hn
  obtain ⟨grown, perm⟩ := Forest.grown_build h
  have grown' := grown.sorted
  have perm' := (Forest.taggedSpans_sorted_perm forest).trans perm
  obtain ⟨mark, hmark, same⟩ := List.mem_map.1 ((grown'.mem_spans_iff perm' n.span).1 (List.mem_map_of_mem hn))
  obtain ⟨⟨upright, starts, stops⟩, bound⟩ := check_eq_ok.1 (checked mark hmark)
  rw [same] at upright starts stops bound
  exact ⟨upright, bound, starts, stops, grown'.tagged n hn⟩

theorem segments_of_placed {source : List Char} (elide : Bool) {forest : Forest}
    (nested : Forest.Nested forest) (placed : ∀ n ∈ Forest.nodes forest, Annotated.Placed source n) :
    Segment.covers 0 (Text.byteLength source)
      (Segment.ofForest elide forest ⟨0, Text.byteLength source⟩) = true ∧
    (∀ t ∈ Segment.texts (Segment.ofForest elide forest ⟨0, Text.byteLength source⟩), Text.Fits source t) ∧
    Segment.concat source (Segment.ofForest elide forest ⟨0, Text.byteLength source⟩) = source := by
  have ends : ∀ n ∈ Forest.nodes forest, n.span.EndsIn (Text.isBoundary source · = true) := by
    intro n hn
    obtain ⟨upright, -, starts, stops, -⟩ := placed n hn
    exact ⟨upright, starts, stops⟩
  have whole : (⟨0, Text.byteLength source⟩ : Span).EndsIn (Text.isBoundary source · = true) :=
    ⟨Nat.zero_le _, Text.isBoundary_zero source, Text.isBoundary_byteLength source⟩
  obtain ⟨covered, texts⟩ := Segment.ofForest_sound elide nested ends whole
    fun n hn => ⟨Nat.zero_le _, (placed n (Forest.mem_nodes_of_mem hn)).2.1⟩
  have sliced := fun t ht => Text.slice?_isSome_iff.2 (texts t ht)
  have slice := Segment.slice?_of_covers covered (Text.isBoundary_zero source) sliced
  rw [Text.slice?_all] at slice
  exact ⟨covered, fun t ht => Text.slice?_isSome_iff_fits.1 (sliced t ht), (Option.some.inj slice).symm⟩

theorem annotate_reads (h : a.annotate source r = .ok result) : result.source = source ∧
    (∀ t ∈ Segment.texts result.segments, Text.Fits source.toList t) ∧
    Segment.concat source.toList result.segments = source.toList := by
  obtain ⟨marks, placed, forest, -, hplaced, hforest, rfl⟩ := annotate_eq_ok.1 h
  have nested := (Forest.grown_build hforest).1.sorted.toNested
  obtain ⟨-, texts, reads⟩ := segments_of_placed a.elide nested (placed_of_build (placed_eq_ok.1 hplaced).2 hforest)
  exact ⟨rfl, texts, reads⟩

/-- Every source that is annotated, whatever the recording, is well-formed. -/
theorem annotate_isWellFormed (h : a.annotate source r = .ok result) :
    result.source = source ∧ result.isWellFormed = true ∧
    Segment.concat source.toList result.segments = source.toList ∧
    Segment.covers 0 (Text.byteLength source.toList) result.segments = true ∧
    (∀ n ∈ Forest.nodes result.forest, Annotated.Placed source.toList n) ∧
    Forest.Nested result.forest ∧ Forest.Ascending result.forest := by
  obtain ⟨marks, placed, forest, -, hplaced, hforest, rfl⟩ := annotate_eq_ok.1 h
  have nodes := placed_of_build (placed_eq_ok.1 hplaced).2 hforest
  have nested := (Forest.grown_build hforest).1.sorted.toNested
  have ascending := Forest.ascending_sorted forest
  obtain ⟨covered, -, reads⟩ := segments_of_placed a.elide nested nodes
  have formed := Forest.areWellFormed_of_placed nested ascending
    fun n hn => Annotated.isPlaced_iff.2 (nodes n hn)
  refine ⟨rfl, ?_, reads, covered, nodes, nested, ascending⟩
  simp only [Annotated.isWellFormed, reads, covered, formed, beq_self_eq_true, Bool.and_true]

theorem annotate_isWellFormed_units : ∃ result, ({ unit := .utf16 } : Annotator).annotate "/*é*/import 'm'"
      ⟨[⟨some "m", 13, 14, 5, 15, -1, -1⟩], .list [], false, none⟩ = .ok result ∧
    result.isWellFormed = true := by
  obtain ⟨result, h⟩ : ∃ result, ({ unit := .utf16 } : Annotator).annotate "/*é*/import 'm'"
      ⟨[⟨some "m", 13, 14, 5, 15, -1, -1⟩], .list [], false, none⟩ = .ok result := ⟨_, rfl⟩
  exact ⟨result, h, (annotate_isWellFormed h).2.1⟩

end Annotator
end AnnotatedSource
