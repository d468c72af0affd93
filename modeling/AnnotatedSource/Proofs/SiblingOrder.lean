import Mathlib.Data.List.Nodup
import AnnotatedSource.Listing
import AnnotatedSource.Proofs.Cutting

set_option autoImplicit false

namespace AnnotatedSource

namespace Segment

variable {elide : Bool}

mutual

def toNode? : Segment → Option Node
  | text _ => none
  | annotated span tags children => some ⟨span, tags, toForest children⟩

def toForest : List Segment → Forest
  | [] => []
  | s :: rest => (toNode? s).toList ++ toForest rest

end

theorem toForest_append (a b : List Segment) : toForest (a ++ b) = toForest a ++ toForest b := by
  induction a with
  | nil => rfl
  | cons s a ih => simp [toForest, ih]

theorem toForest_gap (span : Span) : toForest (gap elide span) = [] := by
  unfold gap
  split <;> rfl

theorem toForest_withGaps (cursor stop : Nat) (segments : List Segment) :
    toForest (withGaps elide cursor stop segments) = toForest segments := by
  induction segments generalizing cursor with
  | nil => exact toForest_gap _
  | cons s rest ih => rw [withGaps, toForest_append, toForest_gap, List.nil_append, toForest, toForest, ih]

theorem toForest_ofNodes (elide : Bool) (forest : Forest) : toForest (ofNodes elide forest) =
    forest.map fun n => ⟨n.span, n.tags, toForest (ofForest elide n.children n.span)⟩ := by
  induction forest with
  | nil => rfl
  | cons n rest ih => rw [ofNodes, toForest, ofNode_eq, toNode?, ih]; rfl

theorem toForest_ofForest (elide : Bool) (forest : Forest) (range : Span) :
    toForest (ofForest elide forest range) = forest.sorted := by
  induction forest using Forest.level_induction generalizing range with
  | level forest ih =>
    rw [ofForest_eq]
    split
    · next empty =>
      obtain rfl := List.isEmpty_iff.1 empty
      rfl
    · rw [toForest_withGaps, toForest_ofNodes, Forest.sorted_eq_map]
      refine List.map_congr_left fun n hn => ?_
      rw [ih n ((Forest.sortByStart_perm forest).mem_iff.1 hn), Forest.sortNode_eq]

end Segment

namespace Forest

variable {a b : Forest}

/-- The same nodes below the same nodes, with the siblings of any level in any order. -/
inductive Rearranged : Forest → Forest → Prop
  | nil : Rearranged [] []
  | cons {span : Span} {tags : List Tag} {children children' rest rest' : Forest}
      (below : Rearranged children children') (ahead : Rearranged rest rest') :
      Rearranged (⟨span, tags, children⟩ :: rest) (⟨span, tags, children'⟩ :: rest')
  | swap (m n : Node) (rest : Forest) : Rearranged (m :: n :: rest) (n :: m :: rest)
  | trans {a b c : Forest} (first : Rearranged a b) (second : Rearranged b c) : Rearranged a c

def DistinctStarts (forest : Forest) : Prop := ∀ level ∈ levels forest, (level.map (·.span.start)).Nodup

theorem distinctStarts_cons {n : Node} {rest : Forest} : DistinctStarts (n :: rest) ↔
    n.span.start ∉ rest.map (·.span.start) ∧ DistinctStarts n.children ∧ DistinctStarts rest := by
  unfold DistinctStarts
  rw [forall_levels, @forall_levels _ rest, List.map_cons, List.nodup_cons, List.forall_mem_cons]
  tauto

theorem Nested.distinctStarts {forest : Forest} (h : Nested forest) (upright : Upright forest) :
    DistinctStarts forest := by
  induction forest using induction with
  | nil => simp [DistinctStarts, levels]
  | cons n rest below ahead =>
    refine distinctStarts_cons.2 ⟨?_, below (h.below (by simp)) (upright.children (by simp)),
      ahead h.tail upright.tail⟩
    intro same
    obtain ⟨m, hm, hstart⟩ := List.mem_map.1 same
    have apart : n.span.Apart m.span := (List.pairwise_cons.1 (nested_iff.1 h).1).1 _ (List.mem_map_of_mem hm)
    have ordered := apart.ordered (upright n (by simp)) (upright m (mem_nodes_of_mem (by simp [hm]))) (by omega)
    omega

theorem Rearranged.starts_perm (h : Rearranged a b) : (a.map (·.span.start)).Perm (b.map (·.span.start)) := by
  induction h with
  | nil => exact .refl _
  | cons below ahead ihbelow ihahead => exact ihahead.cons _
  | swap m n rest => exact .swap _ _ _
  | trans first second ihfirst ihsecond => exact ihfirst.trans ihsecond

theorem Rearranged.distinctStarts (h : Rearranged a b) (distinct : DistinctStarts a) : DistinctStarts b := by
  induction h with
  | nil => exact distinct
  | cons below ahead ihbelow ihahead =>
    obtain ⟨fresh, lower, others⟩ := distinctStarts_cons.1 distinct
    refine distinctStarts_cons.2 ⟨?_, ihbelow lower, ihahead others⟩
    rwa [← ahead.starts_perm.mem_iff]
  | swap m n rest =>
    simp only [distinctStarts_cons, List.map_cons, List.mem_cons, not_or] at distinct ⊢
    obtain ⟨⟨ne, hm⟩, mbelow, hn, nbelow, others⟩ := distinct
    exact ⟨⟨fun same => ne same.symm, hn⟩, nbelow, hm, mbelow, others⟩
  | trans first second ihfirst ihsecond => exact ihsecond (ihfirst distinct)

theorem sorted_eq_of_perm (perm : a.Perm b) (distinct : (a.map (·.span.start)).Nodup) : sorted a = sorted b := by
  rw [sorted, sorted, sortNodes_eq_map, sortNodes_eq_map]
  refine Sorting.sort_eq_of_perm (fun n : Node => n.span.start) (fun _ _ => rfl) (perm.map _) ?_
  simp only [List.forall_mem_map]
  intro m hm n hn same
  rw [span_sortNode, span_sortNode] at same
  rw [List.inj_on_of_nodup_map distinct hm hn same]

theorem Rearranged.sorted_eq (h : Rearranged a b) (distinct : DistinctStarts a) : sorted a = sorted b := by
  induction h with
  | nil => rfl
  | cons below ahead ihbelow ihahead =>
    obtain ⟨-, lower, others⟩ := distinctStarts_cons.1 distinct
    rw [sorted_cons, sorted_cons, sortNode_eq, sortNode_eq, ihbelow lower, ihahead others]
  | swap m n rest =>
    exact sorted_eq_of_perm (.swap n m rest) (forall_levels.1 distinct).1
  | trans first second ihfirst ihsecond =>
    rw [ihfirst distinct, ihsecond (first.distinctStarts distinct)]

end Forest

namespace Segment

theorem ofForest_of_rearranged {forest stored : Forest} (h : Forest.Rearranged forest stored)
    (distinct : Forest.DistinctStarts forest) (elide : Bool) (range : Span) :
    ofForest elide stored range = ofForest elide forest range := by
  rw [← ofForest_sorted, ← h.sorted_eq distinct, ofForest_sorted]

/-- The segments of a forest that upright spans made show that forest, sorted, and the order in which its
    siblings are stored does not change them. -/
theorem ofForest_encodes {calls : List TaggedSpan} (upright : ∀ x ∈ calls, x.span.Upright) (elide : Bool)
    (length : Nat) :
    toForest (ofForest elide (Forest.Run.of calls).forest ⟨0, length⟩) = (Forest.Run.of calls).forest.sorted ∧
    ∀ stored, Forest.Rearranged (Forest.Run.of calls).forest stored →
      ofForest elide stored ⟨0, length⟩ = ofForest elide (Forest.Run.of calls).forest ⟨0, length⟩ := by
  have distinct := (Forest.grown_run calls).distinctStarts (Forest.upright_run upright)
  exact ⟨toForest_ofForest elide _ _, fun stored h => ofForest_of_rearranged h distinct elide _⟩

theorem ofForest_encodes_meeting : (∀ x ∈ Forest.meeting ++ [⟨⟨4, 6⟩, .statement .static⟩], x.span.Upright) ∧
    ∃ a b : Node, (Forest.Run.of (Forest.meeting ++ [⟨⟨4, 6⟩, .statement .static⟩])).forest =
        [⟨⟨0, 9⟩, [.statement .dynamic], [a, b]⟩] ∧
      toForest (ofForest true [⟨⟨0, 9⟩, [.statement .dynamic], [b, a]⟩] ⟨0, 9⟩) =
        Forest.sorted [⟨⟨0, 9⟩, [.statement .dynamic], [a, b]⟩] := by
  have upright : ∀ x ∈ Forest.meeting ++ [⟨⟨4, 6⟩, .statement .static⟩], x.span.Upright := by decide
  obtain ⟨a, b, run⟩ : ∃ a b : Node, (Forest.Run.of (Forest.meeting ++ [⟨⟨4, 6⟩, .statement .static⟩])).forest =
      [⟨⟨0, 9⟩, [.statement .dynamic], [a, b]⟩] := ⟨_, _, rfl⟩
  obtain ⟨reads, moved⟩ := ofForest_encodes upright true 9
  rw [run] at reads moved
  exact ⟨upright, a, b, run, moved _ (.cons (.swap a b []) .nil) ▸ reads⟩

end Segment

namespace Forest

variable {forest : Forest}

/-- The result has a copy of each node of the level, by ascending start, and copies that start together are in the
    order in which the nodes were. -/
structure SortsLevel (copy : Node → Node) (level result : Forest) : Prop where
  perm : result.Perm (level.map copy)
  ascending : result.Pairwise (·.span.start ≤ ·.span.start)
  stable : ∀ start, result.filter (·.span.start = start) = (level.map copy).filter (·.span.start = start)

theorem sortByStart_filter (level : Forest) (start : Nat) :
    (sortByStart level).filter (·.span.start = start) = level.filter (·.span.start = start) := by
  refine Sorting.sort_filter (fun a b ha hb => ?_) level
  simp only [decide_eq_true_eq] at ha hb
  simp [startsBefore, ha, hb]

theorem sortsLevel_sorted (level : Forest) :
    SortsLevel (fun n => ⟨n.span, n.tags, sorted n.children⟩) level (sorted level) := by
  have copies : (fun n : Node => (⟨n.span, n.tags, sorted n.children⟩ : Node)) = sortNode :=
    funext fun n => (sortNode_eq n).symm
  rw [copies]
  refine ⟨sorted_perm level, sortByStart_pairwise _, fun start => ?_⟩
  rw [sorted, sortByStart_filter, sortNodes_eq_map]

theorem sorted_of_ascending (h : Ascending forest) : sorted forest = forest := by
  induction forest using level_induction with
  | level forest ih =>
    have same : ∀ n ∈ forest, sortNode n = id n := by
      intro n hn
      rw [sortNode_eq, ih n hn (h.below hn)]
      cases n
      rfl
    have each : forest.map sortNode = forest := by rw [List.map_congr_left same, List.map_id]
    rw [sorted, sortNodes_eq_map, each]
    exact Sorting.sort_eq_self (h.level.imp fun hle => by simpa [startsBefore] using hle)

theorem sorted_sorted (forest : Forest) : sorted (sorted forest) = sorted forest :=
  sorted_of_ascending (ascending_sorted forest)

theorem size_sorted (forest : Forest) : size (sorted forest) = size forest := by
  rw [size_eq_length, size_eq_length, (nodes_sorted_perm forest).length_eq, List.length_map]

theorem listing_sorted (forest : Forest) : listing (sorted forest) = listing forest :=
  listing_eq_of_perm (taggedSpans_sorted_perm forest)

theorem Aligned.parted (h : Aligned forest) :
    ∀ level ∈ levels forest, level.Pairwise fun a b => a.span.start < b.span.start ∧ a.span.stop ≤ b.span.start := by
  induction forest using level_induction with
  | level forest ih =>
    refine forall_levels.2 ⟨?_, fun n hn => ih n hn (h.below hn)⟩
    have apart : forest.Pairwise fun a b => a.span.Apart b.span := List.pairwise_map.1 (nested_iff.1 h.toNested).1
    refine (apart.and h.ascending.level).imp_of_mem fun ha hb hab => ?_
    exact hab.1.ordered (h.upright _ (mem_nodes_of_mem ha)) (h.upright _ (mem_nodes_of_mem hb)) hab.2

/-- What sorting does, to any forest: each level is sorted stably, with the children of a node under its copy. A
    second sort finds nothing to do, no node and no tag is gained or lost, and every range is cut the same. In what
    insertions of upright spans have made, no two siblings start together and none reaches into the next. -/
theorem sorted_sortsLevels (forest : Forest) :
    ((∀ level ∈ levels forest, SortsLevel (fun n => ⟨n.span, n.tags, sorted n.children⟩) level (sorted level)) ∧
      ∀ level, level ∈ levels (sorted forest) ↔ ∃ old ∈ levels forest, sorted old = level) ∧
    sorted (sorted forest) = sorted forest ∧
    size (sorted forest) = size forest ∧
    listing (sorted forest) = listing forest ∧
    (∀ elide range, Segment.ofForest elide forest range = Segment.ofForest elide (sorted forest) range) ∧
    ∀ calls, (∀ x ∈ calls, x.span.Upright) → forest = (Run.of calls).forest →
      ∀ level ∈ levels (sorted forest),
        level.Pairwise fun a b => a.span.start < b.span.start ∧ a.span.stop ≤ b.span.start := by
  refine ⟨⟨fun level _ => sortsLevel_sorted level, fun _ => mem_levels_sorted⟩, sorted_sorted forest,
    size_sorted forest, listing_sorted forest, fun elide range => (Segment.ofForest_sorted elide forest range).symm, ?_⟩
  rintro calls upright rfl
  exact ((grown_run calls).aligned_sorted (upright_run upright)).parted

def disordered : List TaggedSpan :=
  [⟨⟨9, 9⟩, .assertion⟩, ⟨⟨4, 9⟩, .statement .dynamic⟩, ⟨⟨7, 8⟩, .specifier none⟩, ⟨⟨4, 4⟩, .dynamicKeyword⟩,
    ⟨⟨3, 5⟩, .localName none⟩, ⟨⟨0, 4⟩, .statement .static⟩]

theorem sorted_sortsLevels_disordered : (∀ x ∈ disordered, x.span.Upright) ∧
    spans (Run.of disordered).forest = [⟨9, 9⟩, ⟨4, 9⟩, ⟨7, 8⟩, ⟨4, 4⟩, ⟨0, 4⟩] ∧
    spans (sorted (Run.of disordered).forest) = [⟨0, 4⟩, ⟨4, 9⟩, ⟨4, 4⟩, ⟨7, 8⟩, ⟨9, 9⟩] ∧
    ∀ level ∈ levels (sorted (Run.of disordered).forest),
      level.Pairwise fun a b => a.span.start < b.span.start ∧ a.span.stop ≤ b.span.start := by
  have upright : ∀ x ∈ disordered, x.span.Upright := by decide
  obtain ⟨-, -, -, -, -, parted⟩ := sorted_sortsLevels (Run.of disordered).forest
  exact ⟨upright, rfl, rfl, parted disordered upright rfl⟩

end Forest
end AnnotatedSource
