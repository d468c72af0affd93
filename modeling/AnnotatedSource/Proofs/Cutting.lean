import AnnotatedSource.Proofs.Covering

set_option autoImplicit false

/-!
# Cutting in order

A range is cut along a forest as along the sorted copy of it, so the order in which siblings are stored does
not show. Along nested spans the cut goes on from node to node and never back: with every step checked the
result is the same and no check fails, at whatever depth.
-/
namespace AnnotatedSource

namespace Forest

variable {forest : Forest}

/-- A nested forest of upright spans, each level in order. -/
structure Aligned (forest : Forest) : Prop extends Nested forest where
  upright : Upright forest
  ascending : Ascending forest

theorem Aligned.below {n : Node} (h : Aligned forest) (hn : n ∈ forest) : Aligned n.children :=
  ⟨h.toNested.below hn, h.upright.children hn, h.ascending.below hn⟩

theorem Aligned.ahead {n : Node} {rest : Forest} (h : Aligned (n :: rest)) : Aligned rest :=
  ⟨h.toNested.tail, h.upright.tail, h.ascending.tail⟩

theorem Aligned.chain {lo hi : Nat} (h : Aligned forest) (hle : lo ≤ hi)
    (within : ∀ n ∈ forest, lo ≤ n.span.start ∧ n.span.stop ≤ hi) :
    Span.Chain lo hi (forest.map (·.span)) := by
  refine Span.chain_of_apart hle (nested_iff.1 h.toNested).1 (List.pairwise_map.2 h.ascending.level) ?_
  rw [List.forall_mem_map]
  exact fun n hn => ⟨h.upright n (mem_nodes_of_mem hn), within n hn⟩

theorem Aligned.chain_below {n : Node} (h : Aligned forest) (hn : n ∈ forest) :
    Span.Chain n.span.start n.span.stop (n.children.map (·.span)) :=
  (h.below hn).chain (h.upright n (mem_nodes_of_mem hn)) fun c hc =>
    Span.contains_bounds (h.inside n (mem_nodes_of_mem hn) c hc)

theorem Upright.sorted (h : Upright forest) : Upright (Forest.sorted forest) := by
  intro n hn
  obtain ⟨m, hm, rfl⟩ := mem_nodes_sorted.1 hn
  rw [span_sortNode]
  exact h m hm

theorem isEmpty_sortByStart (level : Forest) : (sortByStart level).isEmpty = level.isEmpty :=
  (sortByStart_perm level).isEmpty_eq

theorem isEmpty_sorted (forest : Forest) : (sorted forest).isEmpty = forest.isEmpty := by
  simpa using (sorted_perm forest).isEmpty_eq

theorem Nested.aligned_sorted (h : Nested forest) (upright : Upright forest) : Aligned (Forest.sorted forest) :=
  ⟨h.sorted, upright.sorted, ascending_sorted forest⟩

end Forest

theorem Span.Chain.le {lo hi : Nat} {spans : List Span} (h : Span.Chain lo hi spans) : lo ≤ hi := by
  induction spans generalizing lo with
  | nil => exact h
  | cons s rest ih =>
    obtain ⟨starts, upright, behind⟩ := h
    exact Nat.le_trans starts (Nat.le_trans upright (ih behind))

namespace Segment

variable {elide : Bool}

theorem sort_ofNodes (elide : Bool) (forest : Forest) :
    Sorting.sort startsBefore (ofNodes elide forest) = ofNodes elide (Forest.sortByStart forest) := by
  rw [ofNodes_eq_map, ofNodes_eq_map]
  exact Sorting.sort_map (fun a b => by simp [startsBefore, Forest.startsBefore, span_ofNode]) forest

theorem fill_sort (elide : Bool) (range : Span) (segments : List Segment) :
    fill elide range (Sorting.sort startsBefore segments) = fill elide range segments := by
  cases segments with
  | nil => rfl
  | cons s rest =>
    have same : Sorting.sort startsBefore (Sorting.sort startsBefore (s :: rest)) = Sorting.sort startsBefore (s :: rest) :=
      Sorting.sort_sort (fun t : Segment => t.span.start) (fun _ _ => rfl) (s :: rest)
    have length := (Sorting.sort_perm startsBefore (s :: rest)).length_eq
    cases hsort : Sorting.sort startsBefore (s :: rest) with
    | nil => simp [hsort] at length
    | cons t others =>
      rw [hsort] at same
      rw [fill, fill, same, hsort]

theorem ofNode_eq (elide : Bool) (n : Node) :
    ofNode elide n = annotated n.span n.tags (ofForest elide n.children n.span) := by
  cases n
  rfl

theorem ofForest_eq (elide : Bool) (forest : Forest) (range : Span) : ofForest elide forest range =
    if forest.isEmpty then [text range]
    else withGaps elide range.start range.stop (ofNodes elide (Forest.sortByStart forest)) := by
  cases forest with
  | nil => rfl
  | cons n rest => rw [← sort_ofNodes]; rfl

theorem ofForest_of_ascending {forest : Forest} (ascending : Forest.Ascending forest) (range : Span) :
    ofForest elide forest range = if forest.isEmpty then [text range]
      else withGaps elide range.start range.stop (ofNodes elide forest) := by
  have same : Forest.sortByStart forest = forest :=
    Sorting.sort_eq_self (ascending.level.imp fun hle => by simpa [Forest.startsBefore] using hle)
  rw [ofForest_eq, same]

theorem ofForest_sorted (elide : Bool) (forest : Forest) (range : Span) :
    ofForest elide forest.sorted range = ofForest elide forest range := by
  induction forest using Forest.level_induction generalizing range with
  | level forest ih =>
    have each : ofNodes elide (Forest.sortNodes forest) = ofNodes elide forest := by
      rw [Forest.sortNodes_eq_map, ofNodes_eq_map, ofNodes_eq_map, List.map_map]
      refine List.map_congr_left fun n hn => ?_
      rw [Function.comp_apply, ofNode_eq, ofNode_eq, Forest.span_sortNode, Forest.tags_sortNode,
        Forest.children_sortNode, ih n hn]
    rw [ofForest, Forest.sorted, ← sort_ofNodes, fill_sort, each, ofForest]

/-- A node that starts before what is cut already ends, or that stops behind its range. -/
structure Misplaced where
  node : Span
  range : Span

mutual

def checkedNode (elide : Bool) : Node → Except Misplaced Segment
  | ⟨span, tags, children⟩ => do
    let inner ← if children.isEmpty then .ok [text span] else checkedFrom elide span span.start children
    return annotated span tags inner

def checkedFrom (elide : Bool) (range : Span) (cursor : Nat) : Forest → Except Misplaced (List Segment)
  | [] => .ok (gap elide ⟨cursor, range.stop⟩)
  | n :: rest =>
    if cursor ≤ n.span.start ∧ n.span.stop ≤ range.stop then do
      let s ← checkedNode elide n
      let others ← checkedFrom elide range n.span.stop rest
      return gap elide ⟨cursor, n.span.start⟩ ++ s :: others
    else .error ⟨n.span, range⟩

end

/-- Cuts a range along a forest as `ofForest` does, with a check at each node of each level. -/
def checked (elide : Bool) (forest : Forest) (range : Span) : Except Misplaced (List Segment) :=
  if forest.isEmpty then .ok [text range] else checkedFrom elide range range.start forest.sorted

theorem checkedFrom_eq_ok {forest : Forest} (aligned : Forest.Aligned forest) {range : Span} {cursor : Nat}
    (chain : Span.Chain cursor range.stop (forest.map (·.span))) :
    checkedFrom elide range cursor forest = .ok (withGaps elide cursor range.stop (ofNodes elide forest)) := by
  induction forest using Forest.induction generalizing range cursor with
  | nil => rfl
  | cons n rest below ahead =>
    obtain ⟨starts, -, behind⟩ := chain
    have node : checkedNode elide n = .ok (ofNode elide n) := by
      have children := below (aligned.below (by simp)) (aligned.chain_below (n := n) (by simp))
      rw [ofNode_eq, ofForest_of_ascending (aligned.below (n := n) (by simp)).ascending]
      obtain ⟨span, tags, children⟩ := n
      rw [checkedNode]
      split
      · rfl
      · rw [children]
        rfl
    rw [checkedFrom, if_pos ⟨starts, behind.le⟩, node, ahead aligned.ahead behind, ofNodes, withGaps,
      span_ofNode]
    rfl

example : checked true [⟨⟨3, 6⟩, [], []⟩, ⟨⟨0, 4⟩, [], []⟩] ⟨0, 6⟩ = .error ⟨⟨3, 6⟩, ⟨0, 6⟩⟩ := rfl

theorem checked_eq_ok {forest : Forest} {range : Span} (nested : Forest.Nested forest)
    (uprights : Forest.Upright forest) (upright : range.Upright)
    (within : ∀ n ∈ forest, range.start ≤ n.span.start ∧ n.span.stop ≤ range.stop) :
    checked elide forest range = .ok (ofForest elide forest range) := by
  have aligned := nested.aligned_sorted uprights
  have within' : ∀ n ∈ forest.sorted, range.start ≤ n.span.start ∧ n.span.stop ≤ range.stop := by
    intro n hn
    obtain ⟨m, hm, rfl⟩ := List.mem_map.1 ((Forest.sorted_perm forest).mem_iff.1 hn)
    rw [Forest.span_sortNode]
    exact within m hm
  rw [checked, ← ofForest_sorted, ofForest_of_ascending aligned.ascending, Forest.isEmpty_sorted]
  split
  · rfl
  · exact checkedFrom_eq_ok aligned (aligned.chain upright within')

def all (segments : List Segment) : List Segment := (preorderFrom 0 segments).map (·.2)

@[simp] theorem all_nil : all [] = [] := rfl

@[simp] theorem all_text (span : Span) (rest : List Segment) : all (text span :: rest) = text span :: all rest := rfl

@[simp] theorem all_annotated (span : Span) (tags : List Tag) (children rest : List Segment) :
    all (annotated span tags children :: rest) = annotated span tags children :: (all children ++ all rest) := by
  simp only [all, preorderFrom, preorderSegment, List.map_append, List.map_cons, List.cons_append]
  rw [preorderFrom_snd (0 + 1) 0]

@[simp] theorem all_append (a b : List Segment) : all (a ++ b) = all a ++ all b := by
  induction a with
  | nil => rfl
  | cons s a ih => cases s <;> simp [ih]

theorem mem_texts {span : Span} {segments : List Segment} : span ∈ texts segments ↔ text span ∈ all segments := by
  have only (s : Segment) : textSpan? s = some span ↔ s = text span := by
    cases s <;> simp [textSpan?]
  simp [texts, all, only]

theorem mem_all_gap {span : Span} {s : Segment} (h : s ∈ all (gap elide span)) : s = text span := by
  unfold gap at h
  split at h
  · cases h
  · simpa using h

theorem mem_all_withGaps {cursor stop : Nat} {segments : List Segment} {s : Segment}
    (h : s ∈ all (withGaps elide cursor stop segments)) :
    (∃ span, s = text span) ∨ ∃ t ∈ segments, s ∈ all [t] := by
  induction segments generalizing cursor with
  | nil => exact .inl ⟨_, mem_all_gap h⟩
  | cons t rest ih =>
    rw [withGaps, all_append, ← List.singleton_append, all_append, List.mem_append, List.mem_append] at h
    rcases h with h | h | h
    · exact .inl ⟨_, mem_all_gap h⟩
    · exact .inr ⟨t, by simp, h⟩
    · rcases ih h with h | ⟨u, hu, h⟩
      · exact .inl h
      · exact .inr ⟨u, List.mem_cons_of_mem t hu, h⟩

theorem mem_all_ofForest {forest : Forest} {range : Span} {s : Segment}
    (h : s ∈ all (ofForest elide forest range)) :
    (∃ span, s = text span) ∨ ∃ n ∈ Forest.nodes forest, s = ofNode elide n := by
  induction forest using Forest.level_induction generalizing range with
  | level forest ih =>
    rw [ofForest_eq] at h
    split at h
    · exact .inl ⟨range, by simpa using h⟩
    · rcases mem_all_withGaps h with h | ⟨t, ht, h⟩
      · exact .inl h
      · rw [ofNodes_eq_map, List.mem_map] at ht
        obtain ⟨n, hn, rfl⟩ := ht
        have hroot : n ∈ forest := (Forest.sortByStart_perm forest).mem_iff.1 hn
        rw [ofNode_eq, all_annotated, all_nil, List.append_nil, ← ofNode_eq, List.mem_cons] at h
        rcases h with rfl | h
        · exact .inr ⟨n, Forest.mem_nodes_of_mem hroot, rfl⟩
        · rcases ih n hroot h with h | ⟨m, hm, rfl⟩
          · exact .inl h
          · exact .inr ⟨m, Forest.mem_nodes.2 ⟨n, hroot, .inr hm⟩, rfl⟩

theorem upright_of_mem_all {forest : Forest} {range : Span} (nested : Forest.Nested forest)
    (uprights : Forest.Upright forest) (upright : range.Upright)
    (within : ∀ n ∈ forest, range.start ≤ n.span.start ∧ n.span.stop ≤ range.stop) :
    ∀ s ∈ all (ofForest elide forest range), s.span.Upright := by
  have texts := (ofForest_sound (B := fun _ => True) elide nested (fun n hn => ⟨uprights n hn, trivial, trivial⟩)
    ⟨upright, trivial, trivial⟩ within).2
  intro s hs
  rcases mem_all_ofForest hs with ⟨span, rfl⟩ | ⟨n, hn, rfl⟩
  · exact (texts span (mem_texts.2 hs)).1
  · rw [span_ofNode]
    exact uprights n hn

/-- Nested spans cut a range into segments that follow on one another from its start to its stop, and so do
    those in each annotated segment. On the way no node is out of place. What a source has in the range is
    what the segments read. -/
theorem ofForest_covers_range {forest : Forest} {range : Span} (upright : range.Upright)
    (uprights : Forest.Upright forest) (nested : Forest.Nested forest)
    (within : ∀ n ∈ forest, range.start ≤ n.span.start ∧ n.span.stop ≤ range.stop) (elide : Bool) :
    checked elide forest range = .ok (ofForest elide forest range) ∧
    covers range.start range.stop (ofForest elide forest range) = true ∧
    (∀ s ∈ all (ofForest elide forest range), s.span.Upright) ∧
    ∀ source, Text.isBoundary source range.start = true → Text.isBoundary source range.stop = true →
      (∀ n ∈ Forest.nodes forest,
        Text.isBoundary source n.span.start = true ∧ Text.isBoundary source n.span.stop = true) →
      Text.slice? source range = some (concat source (ofForest elide forest range)) := by
  refine ⟨checked_eq_ok nested uprights upright within, ?_, upright_of_mem_all nested uprights upright within, ?_⟩
  · exact (ofForest_sound (B := fun _ => True) elide nested (fun n hn => ⟨uprights n hn, trivial, trivial⟩)
      ⟨upright, trivial, trivial⟩ within).1
  · intro source starts stops ends
    obtain ⟨covered, texts⟩ := ofForest_sound (B := (Text.isBoundary source · = true)) elide nested
      (fun n hn => ⟨uprights n hn, ends n hn⟩) ⟨upright, starts, stops⟩ within
    exact slice?_of_covers covered starts fun t ht => Text.slice?_isSome_iff.2 (texts t ht)

def backwards : Forest :=
  [⟨⟨6, 9⟩, [.localName none], []⟩, ⟨⟨5, 5⟩, [.assertion], []⟩,
    ⟨⟨2, 5⟩, [.specifier none], [⟨⟨2, 2⟩, [.dynamicKeyword], []⟩]⟩]

theorem ofForest_covers_range_backwards : Span.Upright ⟨2, 9⟩ ∧ Forest.Upright backwards ∧ Forest.Nested backwards ∧
    checked true backwards ⟨2, 9⟩ = .ok (ofForest true backwards ⟨2, 9⟩) ∧
    concat "é234567890".toList (ofForest true backwards ⟨2, 9⟩) = "2345678".toList := by
  have built : Forest.build [⟨⟨6, 9⟩, .localName none⟩, ⟨⟨5, 5⟩, .assertion⟩, ⟨⟨2, 5⟩, .specifier none⟩,
    ⟨⟨2, 2⟩, .dynamicKeyword⟩] = .ok backwards := rfl
  have upright : Span.Upright ⟨2, 9⟩ := by decide
  have uprights : Forest.Upright backwards := by
    unfold Forest.Upright
    decide
  have nested : Forest.Nested backwards := (Forest.grown_build built).1.toNested
  have within : ∀ n ∈ backwards, 2 ≤ n.span.start ∧ n.span.stop ≤ 9 := by decide
  obtain ⟨checks, -, -, reads⟩ := ofForest_covers_range upright uprights nested within true
  have read := reads "é234567890".toList (by decide) (by decide) (by decide)
  rw [show Text.slice? "é234567890".toList ⟨2, 9⟩ = some "2345678".toList by decide] at read
  exact ⟨upright, uprights, nested, checks, (Option.some.inj read).symm⟩

end Segment
end AnnotatedSource
