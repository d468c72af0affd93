import Mathlib.Data.List.Basic
import AnnotatedSource.Proofs.Insertion
import AnnotatedSource.Proofs.Spans

set_option autoImplicit false

namespace AnnotatedSource

namespace Forest

variable {new : TaggedSpan}

/-- Siblings are apart and children lie in their parents. -/
structure Nested (forest : Forest) : Prop where
  apart : ∀ level ∈ levels forest, (level.map (·.span)).Pairwise Span.Apart
  inside : ∀ n ∈ nodes forest, ∀ c ∈ n.children, n.span.contains c.span

/-- A nested forest as insertions leave it: a child has a span of its own, and every node has a tag. -/
structure Grown (forest : Forest) : Prop extends Nested forest where
  proper : ∀ n ∈ nodes forest, ∀ c ∈ n.children, c.span ≠ n.span
  tagged : ∀ n ∈ nodes forest, n.tags ≠ []

theorem nested_iff {forest : Forest} : Nested forest ↔ (forest.map (·.span)).Pairwise Span.Apart ∧
    ∀ n ∈ forest, (∀ c ∈ n.children, n.span.contains c.span) ∧ Nested n.children := by
  constructor
  · rintro ⟨apart, inside⟩
    rw [forall_levels] at apart
    rw [forall_nodes] at inside
    exact ⟨apart.1, fun n hn => ⟨(inside n hn).1, apart.2 n hn, (inside n hn).2⟩⟩
  · rintro ⟨apart, below⟩
    exact ⟨forall_levels.2 ⟨apart, fun n hn => (below n hn).2.apart⟩,
      forall_nodes.2 fun n hn => ⟨(below n hn).1, (below n hn).2.inside⟩⟩

theorem Nested.tail {n : Node} {rest : Forest} (h : Nested (n :: rest)) : Nested rest := by
  obtain ⟨apart, each⟩ := nested_iff.1 h
  exact nested_iff.2 ⟨(List.pairwise_cons.1 apart).2, fun m hm => each m (List.mem_cons_of_mem n hm)⟩

theorem Nested.below {forest : Forest} {n : Node} (h : Nested forest) (hn : n ∈ forest) : Nested n.children :=
  ((nested_iff.1 h).2 n hn).2

structure Fitted (n : Node) : Prop where
  inside : ∀ c ∈ n.children, n.span.contains c.span
  proper : ∀ c ∈ n.children, c.span ≠ n.span
  tagged : n.tags ≠ []

theorem grown_iff {forest : Forest} : Grown forest ↔ (forest.map (·.span)).Pairwise Span.Apart ∧
    ∀ n ∈ forest, Fitted n ∧ Grown n.children := by
  constructor
  · rintro ⟨nested, proper, tagged⟩
    obtain ⟨apart, below⟩ := nested_iff.1 nested
    rw [forall_nodes] at proper tagged
    exact ⟨apart, fun n hn => ⟨⟨(below n hn).1, (proper n hn).1, (tagged n hn).1⟩,
      (below n hn).2, (proper n hn).2, (tagged n hn).2⟩⟩
  · rintro ⟨apart, below⟩
    exact ⟨nested_iff.2 ⟨apart, fun n hn => ⟨(below n hn).1.inside, (below n hn).2.toNested⟩⟩,
      forall_nodes.2 fun n hn => ⟨(below n hn).1.proper, (below n hn).2.proper⟩,
      forall_nodes.2 fun n hn => ⟨(below n hn).1.tagged, (below n hn).2.tagged⟩⟩

theorem grown_nil : Grown [] := grown_iff.2 ⟨.nil, by simp⟩

theorem Grown.of_subset {forest part : Forest} (h : Grown forest) (subset : ∀ n ∈ part, n ∈ forest)
    (apart : (part.map (·.span)).Pairwise Span.Apart) : Grown part :=
  grown_iff.2 ⟨apart, fun n hn => (grown_iff.1 h).2 n (subset n hn)⟩

theorem Grown.replace {before after : Forest} {old n : Node} (h : Grown (before ++ old :: after))
    (same : n.span = old.span) (fitted : Fitted n) (below : Grown n.children) :
    Grown (before ++ n :: after) := by
  obtain ⟨apart, each⟩ := grown_iff.1 h
  refine grown_iff.2 ⟨by simpa [same] using apart, ?_⟩
  intro m hm
  simp only [List.mem_append, List.mem_cons] at hm each
  rcases hm with hm | rfl | hm
  · exact each m (.inl hm)
  · exact ⟨fitted, below⟩
  · exact each m (.inr (.inr hm))

theorem Inserts.forall_roots {P : Span → Prop} {forest result : Forest} (h : Inserts new forest result)
    (inserted : P new.span) (old : ∀ n ∈ forest, P n.span) : ∀ n ∈ result, P n.span := by
  intro n hn
  cases h with
  | merge before after tags children free =>
    simp only [List.mem_append, List.mem_cons] at hn old
    rcases hn with hn | rfl | hn
    · exact old n (.inl hn)
    · exact inserted
    · exact old n (.inr (.inr hn))
  | descend before after span tags children result free contained ne below =>
    simp only [List.mem_append, List.mem_cons] at hn old
    rcases hn with hn | rfl | hn
    · exact old n (.inl hn)
    · exact old ⟨span, tags, children⟩ (.inr (.inl rfl))
    · exact old n (.inr (.inr hn))
  | enclose level free uncrossed =>
    simp only [List.mem_append, List.mem_filter, List.mem_singleton] at hn
    rcases hn with hn | rfl
    · exact old n hn.1
    · exact inserted

theorem grown_enclose {level : Forest} (h : Grown level) (free : Free new.span level)
    (uncrossed : ∀ n ∈ level, ¬ n.span.crosses new.span) :
    Grown (level.filter (fun n => !new.span.contains n.span) ++
      [⟨new.span, [new.tag], level.filter fun n => new.span.contains n.span⟩]) := by
  obtain ⟨apart, each⟩ := grown_iff.1 h
  have part : ∀ p : Node → Bool, Grown (level.filter p) := fun p =>
    h.of_subset (fun n hn => (List.mem_filter.1 hn).1)
      (apart.sublist (List.filter_sublist.map Node.span))
  have fitted : Fitted ⟨new.span, [new.tag], level.filter fun n => new.span.contains n.span⟩ := by
    refine ⟨fun c hc => (List.mem_filter.1 hc).2, fun c hc same => ?_, by simp⟩
    -- a sibling with the new span would contain it
    have hfree := free c (List.mem_filter.1 hc).1
    rw [same] at hfree
    exact hfree (Span.contains_self new.span)
  refine grown_iff.2 ⟨?_, ?_⟩
  · rw [List.map_append, List.pairwise_append]
    refine ⟨(grown_iff.1 (part _)).1, by simp, ?_⟩
    simp only [List.mem_map, List.mem_filter, List.map_cons, List.map_nil, List.mem_singleton]
    rintro _ ⟨n, ⟨hn, outside⟩, rfl⟩ _ rfl
    exact ⟨free n hn, by simpa using outside, uncrossed n hn⟩
  · intro n hn
    rcases List.mem_append.1 hn with hn | hn
    · exact each n (List.mem_filter.1 hn).1
    · obtain rfl := List.mem_singleton.1 hn
      exact ⟨fitted, part _⟩

theorem Inserts.grown {forest result : Forest} (h : Inserts new forest result) (hg : Grown forest) :
    Grown result := by
  induction h with
  | merge before after tags children free =>
    obtain ⟨fitted, below⟩ := (grown_iff.1 hg).2 ⟨new.span, tags, children⟩ (by simp)
    exact hg.replace rfl ⟨fitted.inside, fitted.proper, by simp⟩ below
  | descend before after span tags children result free contained ne below ih =>
    obtain ⟨fitted, grown⟩ := (grown_iff.1 hg).2 ⟨span, tags, children⟩ (by simp)
    have inside := below.forall_roots (P := fun s => span.contains s) contained fitted.inside
    have proper := below.forall_roots (P := fun s => s ≠ span) ne.symm fitted.proper
    exact hg.replace rfl ⟨inside, proper, fitted.tagged⟩ (ih grown)
  | enclose level free uncrossed => exact grown_enclose hg free uncrossed

end Forest

namespace Forest

variable {forest : Forest}

def Ascending (forest : Forest) : Prop := ∀ level ∈ levels forest, level.Pairwise (·.span.start ≤ ·.span.start)

theorem Ascending.level (h : Ascending forest) : forest.Pairwise (·.span.start ≤ ·.span.start) :=
  (forall_levels.1 h).1

theorem Ascending.below {n : Node} (h : Ascending forest) (hn : n ∈ forest) : Ascending n.children :=
  (forall_levels.1 h).2 n hn

theorem Ascending.tail {n : Node} {rest : Forest} (h : Ascending (n :: rest)) : Ascending rest :=
  forall_levels.2 ⟨(List.pairwise_cons.1 h.level).2, fun _ hm => h.below (List.mem_cons_of_mem n hm)⟩

@[simp] theorem span_sortNode (n : Node) : (sortNode n).span = n.span := by
  cases n
  rfl

@[simp] theorem tags_sortNode (n : Node) : (sortNode n).tags = n.tags := by
  cases n
  rfl

@[simp] theorem children_sortNode (n : Node) : (sortNode n).children = sorted n.children := by
  cases n
  rfl

theorem sortNode_eq (n : Node) : sortNode n = ⟨n.span, n.tags, sorted n.children⟩ := by
  cases n
  rfl

theorem sorted_cons (n : Node) (rest : Forest) :
    sorted (n :: rest) = Sorting.place startsBefore (sortNode n) (sorted rest) := rfl

theorem sorted_eq_map (forest : Forest) : sorted forest = (sortByStart forest).map sortNode := by
  rw [sorted, sortNodes_eq_map]
  exact Sorting.sort_map (fun a b => by simp [startsBefore]) forest

theorem sorted_perm (forest : Forest) : (sorted forest).Perm (forest.map sortNode) := by
  rw [sorted, sortNodes_eq_map]
  exact sortByStart_perm _

theorem nodes_sorted_perm (forest : Forest) : (nodes (sorted forest)).Perm ((nodes forest).map sortNode) := by
  have h : (nodes (forest.map sortNode)).Perm ((nodes forest).map sortNode) := by
    induction forest using induction with
    | nil => exact .refl _
    | cons n rest below ahead =>
      simp only [List.map_cons, nodes_cons, List.map_append, children_sortNode]
      exact (((nodes_perm (sorted_perm n.children)).trans below).append ahead).cons _
  exact (nodes_perm (sorted_perm forest)).trans h

theorem mem_nodes_sorted {n : Node} : n ∈ nodes (sorted forest) ↔ ∃ m ∈ nodes forest, sortNode m = n := by
  rw [(nodes_sorted_perm forest).mem_iff, List.mem_map]

theorem mem_levels_sorted {level : Forest} :
    level ∈ levels (sorted forest) ↔ ∃ old ∈ levels forest, sorted old = level := by
  simp only [levels, List.mem_cons, List.mem_map, mem_nodes_sorted]
  constructor
  · rintro (rfl | ⟨_, ⟨m, hm, rfl⟩, rfl⟩)
    · exact ⟨forest, .inl rfl, rfl⟩
    · exact ⟨m.children, .inr ⟨m, hm, rfl⟩, (children_sortNode m).symm⟩
  · rintro ⟨_, rfl | ⟨m, hm, rfl⟩, rfl⟩
    · exact .inl rfl
    · exact .inr ⟨sortNode m, ⟨m, hm, rfl⟩, children_sortNode m⟩

theorem labels_sorted_perm (forest : Forest) : (labels (sorted forest)).Perm (labels forest) := by
  have h := (nodes_sorted_perm forest).map fun n => (n.span, n.tags)
  simpa [labels, Function.comp_def] using h

theorem taggedSpans_sorted_perm (forest : Forest) : (taggedSpans (sorted forest)).Perm (taggedSpans forest) := by
  rw [taggedSpans_eq_flatMap, taggedSpans_eq_flatMap]
  exact (labels_sorted_perm forest).flatMap_right _

theorem mem_children_sortNode {n c : Node} : c ∈ (sortNode n).children ↔ ∃ d ∈ n.children, sortNode d = c := by
  rw [children_sortNode, (sorted_perm n.children).mem_iff, List.mem_map]

theorem ascending_sorted (forest : Forest) : Ascending (sorted forest) := by
  intro level hlevel
  obtain ⟨old, -, rfl⟩ := mem_levels_sorted.1 hlevel
  exact sortByStart_pairwise _

theorem level_spans_sorted (level : Forest) : ((sorted level).map (·.span)).Perm (level.map (·.span)) := by
  simpa [Function.comp_def] using (sorted_perm level).map (·.span)

theorem Nested.sorted (h : Nested forest) : Nested (sorted forest) := by
  constructor
  · intro level hlevel
    obtain ⟨old, hold, rfl⟩ := mem_levels_sorted.1 hlevel
    exact ((level_spans_sorted old).pairwise_iff Span.Apart.symm).2 (h.apart old hold)
  · intro n hn c hc
    obtain ⟨m, hm, rfl⟩ := mem_nodes_sorted.1 hn
    obtain ⟨d, hd, rfl⟩ := mem_children_sortNode.1 hc
    simpa using h.inside m hm d hd

theorem Grown.sorted (h : Grown forest) : Grown (sorted forest) := by
  refine ⟨h.toNested.sorted, ?_, ?_⟩
  · intro n hn c hc
    obtain ⟨m, hm, rfl⟩ := mem_nodes_sorted.1 hn
    obtain ⟨d, hd, rfl⟩ := mem_children_sortNode.1 hc
    simpa using h.proper m hm d hd
  · intro n hn
    obtain ⟨m, hm, rfl⟩ := mem_nodes_sorted.1 hn
    simpa using h.tagged m hm

end Forest
end AnnotatedSource
