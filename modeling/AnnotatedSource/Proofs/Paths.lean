import Mathlib.Data.List.Chain
import AnnotatedSource.Proofs.Canonical

set_option autoImplicit false

namespace AnnotatedSource.Forest

variable {forest : Forest} {offset : Nat}

theorem pathAt_eq_nil (h : ∀ n ∈ forest, ¬ n.span.contains (.point offset)) : pathAt offset forest = [] := by
  induction forest with
  | nil => rfl
  | cons n rest ih =>
    rw [pathAt, if_neg (h n (by simp))]
    exact ih fun m hm => h m (List.mem_cons_of_mem n hm)

theorem pathWithin_eq (offset : Nat) (n : Node) : pathWithin offset n = n :: pathAt offset n.children := by
  cases n
  rfl

theorem pathAt_cons_of_contains {n : Node} (contained : n.span.contains (.point offset)) (rest : Forest) :
    pathAt offset (n :: rest) = n :: pathAt offset n.children := by
  rw [pathAt, if_pos contained, pathWithin_eq]

theorem pathAt_cons_of_not_contains {n : Node} (outside : ¬ n.span.contains (.point offset)) (rest : Forest) :
    pathAt offset (n :: rest) = pathAt offset rest := by
  rw [pathAt, if_neg outside]

/-- From a root down, each node a child of the one before it. -/
structure Descends (forest : Forest) (path : List Node) : Prop where
  root : ∀ n ∈ path.head?, n ∈ forest
  child : path.IsChain fun parent n => n ∈ parent.children

theorem descends_pathAt (offset : Nat) (forest : Forest) : Descends forest (pathAt offset forest) := by
  induction forest using induction with
  | nil => exact ⟨by simp [pathAt], .nil⟩
  | cons n rest below ahead =>
    by_cases contained : n.span.contains (.point offset)
    · rw [pathAt_cons_of_contains contained]
      exact ⟨by simp, List.isChain_cons.2 ⟨below.root, below.child⟩⟩
    · rw [pathAt_cons_of_not_contains contained]
      exact ⟨fun m hm => List.mem_cons_of_mem n (ahead.root m hm), ahead.child⟩

theorem pathAt_of_mem (apart : (forest.map (·.span)).Pairwise Span.Apart) {n : Node} (hn : n ∈ forest)
    (contained : n.span.contains (.point offset)) : pathAt offset forest = n :: pathAt offset n.children := by
  induction forest with
  | nil => cases hn
  | cons m rest ih =>
    obtain ⟨hm, hrest⟩ := List.pairwise_cons.1 apart
    rcases List.mem_cons.1 hn with rfl | hn
    · exact pathAt_cons_of_contains contained rest
    · have outside := (hm n.span (List.mem_map_of_mem hn)).symm.not_contains_point contained
      rw [pathAt_cons_of_not_contains outside, ih hrest hn]

theorem Nested.contains_root (h : Nested forest) {m : Node} (hm : m ∈ nodes forest)
    (contained : m.span.contains (.point offset)) : ∃ n ∈ forest, n.span.contains (.point offset) := by
  induction forest using level_induction with
  | level forest ih =>
    obtain ⟨n, hn, rfl | below⟩ := mem_nodes.1 hm
    · exact ⟨m, hn, contained⟩
    · obtain ⟨c, hc, inner⟩ := ih n hn (h.below hn) below
      exact ⟨n, hn, Span.contains_trans (((nested_iff.1 h).2 n hn).1 c hc) inner⟩

def containing (offset : Nat) (forest : Forest) : List Node :=
  (nodes forest).filter fun n => n.span.contains (.point offset)

theorem mem_containing {m : Node} :
    m ∈ containing offset forest ↔ m ∈ nodes forest ∧ m.span.contains (.point offset) := List.mem_filter

theorem containing_cons (n : Node) (rest : Forest) : containing offset (n :: rest) =
    if n.span.contains (.point offset) then n :: (containing offset n.children ++ containing offset rest)
    else containing offset n.children ++ containing offset rest := by
  simp only [containing, nodes_cons, List.filter_cons, List.filter_append]

theorem Nested.containing_eq_nil (h : Nested forest) (outside : ∀ n ∈ forest, ¬ n.span.contains (.point offset)) :
    containing offset forest = [] := by
  refine List.eq_nil_iff_forall_not_mem.2 fun m hm => ?_
  obtain ⟨hm, contained⟩ := mem_containing.1 hm
  obtain ⟨n, hn, hroot⟩ := h.contains_root hm contained
  exact outside n hn hroot

theorem Nested.pathAt_eq_containing (h : Nested forest) (offset : Nat) :
    pathAt offset forest = containing offset forest := by
  induction forest using induction with
  | nil => rfl
  | cons n rest below ahead =>
    obtain ⟨apart, each⟩ := nested_iff.1 h
    have inner : Nested n.children := h.below (by simp)
    rw [containing_cons]
    by_cases contained : n.span.contains (.point offset)
    · have beside : ∀ m ∈ rest, ¬ m.span.contains (.point offset) := fun m hm =>
        ((List.pairwise_cons.1 apart).1 m.span (List.mem_map_of_mem hm)).not_contains_point contained
      rw [if_pos contained, pathAt_cons_of_contains contained, below inner, h.tail.containing_eq_nil beside,
        List.append_nil]
    · have outside : ∀ c ∈ n.children, ¬ c.span.contains (.point offset) := fun c hc lower =>
        contained (Span.contains_trans ((each n (by simp)).1 c hc) lower)
      rw [if_neg contained, pathAt_cons_of_not_contains contained, inner.containing_eq_nil outside, ahead h.tail,
        List.nil_append]

theorem Grown.pathAt_narrows (h : Grown forest) (offset : Nat) :
    (pathAt offset forest).Pairwise fun m n => m.span.contains n.span ∧ m.span ≠ n.span := by
  induction forest using induction with
  | nil => exact .nil
  | cons n rest below ahead =>
    have inner : Grown n.children := ((grown_iff.1 h).2 n (by simp)).2
    by_cases contained : n.span.contains (.point offset)
    · rw [pathAt_cons_of_contains contained]
      refine List.pairwise_cons.2 ⟨fun m hm => ?_, below inner⟩
      rw [inner.pathAt_eq_containing] at hm
      have lower := (mem_containing.1 hm).1
      exact ⟨h.contains_below (by simp) lower, (h.ne_below (by simp) lower).symm⟩
    · rw [pathAt_cons_of_not_contains contained]
      exact ahead h.tail

theorem Nested.pathAt_sorted (h : Nested forest) (offset : Nat) :
    pathAt offset forest.sorted = (pathAt offset forest).map sortNode := by
  induction forest using level_induction with
  | level forest ih =>
    by_cases found : ∃ n ∈ forest, n.span.contains (.point offset)
    · obtain ⟨n, hn, contained⟩ := found
      have moved : sortNode n ∈ forest.sorted := (sorted_perm forest).mem_iff.2 (List.mem_map_of_mem hn)
      rw [pathAt_of_mem (nested_iff.1 h).1 hn contained, List.map_cons, ← ih n hn (h.below hn),
        pathAt_of_mem (nested_iff.1 h.sorted).1 moved (by rwa [span_sortNode]), children_sortNode]
    · have outside : ∀ n ∈ forest, ¬ n.span.contains (.point offset) := fun n hn contained => found ⟨n, hn, contained⟩
      have outside' : ∀ n ∈ forest.sorted, ¬ n.span.contains (.point offset) := by
        intro n hn
        obtain ⟨m, hm, rfl⟩ := List.mem_map.1 ((sorted_perm forest).mem_iff.1 hn)
        rw [span_sortNode]
        exact outside m hm
      rw [pathAt_eq_nil outside, pathAt_eq_nil outside', List.map_nil]

/-- The path to an offset, in a forest that any run of insertions made and in its sorted copy: all nodes that
    contain the offset and no others, each once, from a root down from child to child. Both have the same
    spans and tags on it. -/
theorem pathAt_exact (calls : List TaggedSpan) (offset : Nat) :
    (∀ forest ∈ [(Run.of calls).forest, (Run.of calls).forest.sorted],
      pathAt offset forest = (nodes forest).filter (fun n => n.span.contains (.point offset)) ∧
      Descends forest (pathAt offset forest) ∧
      (pathAt offset forest).Pairwise fun m n => m.span.contains n.span ∧ m.span ≠ n.span) ∧
    (pathAt offset (Run.of calls).forest.sorted).map (fun n => (n.span, n.tags)) =
      (pathAt offset (Run.of calls).forest).map fun n => (n.span, n.tags) := by
  have grown := grown_run calls
  constructor
  · intro forest hforest
    have hg : Grown forest := by
      rcases List.mem_pair.1 hforest with rfl | rfl
      · exact grown
      · exact grown.sorted
    exact ⟨hg.pathAt_eq_containing offset, descends_pathAt offset forest, hg.pathAt_narrows offset⟩
  · rw [grown.pathAt_sorted, List.map_map]
    exact List.map_congr_left fun n _ => by simp

end AnnotatedSource.Forest
