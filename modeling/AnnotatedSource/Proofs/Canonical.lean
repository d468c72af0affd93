import Mathlib.Data.List.Dedup
import Mathlib.Data.List.Induction
import Mathlib.Data.List.Pairwise
import AnnotatedSource.Proofs.Nesting

set_option autoImplicit false

/-!
# The forest that spans make

Where no span stops before it starts, a forest that is built has one node for each of them, and a node
is below another exactly if its span lies in the other's. So all of the forest but the order of siblings
is determined by the set of spans.
-/
namespace AnnotatedSource.Forest

structure Run where
  forest : Forest
  inserted : List TaggedSpan

namespace Run

/-- One more insertion. The forest is what the insertion leaves, also where it fails. -/
def step (run : Run) (new : TaggedSpan) : Run :=
  match attempt new run.forest with
  | (none, left) => ⟨left, run.inserted ++ [new]⟩
  | (some _, left) => ⟨left, run.inserted⟩

def of (calls : List TaggedSpan) : Run := calls.foldl step ⟨[], []⟩

theorem step_cases (run : Run) (new : TaggedSpan) :
    (∃ result, insert new run.forest = .ok result ∧ Inserts new run.forest result ∧
      run.step new = ⟨result, run.inserted ++ [new]⟩) ∨
    (∃ spans, insert new run.forest = .error spans ∧ run.step new = run) := by
  rcases h : attempt new run.forest with ⟨_ | spans, left⟩
  · have hinsert := insert_eq_ok_iff.2 h
    refine .inl ⟨left, hinsert, inserts_of_insert hinsert, ?_⟩
    rw [step, h]
  · refine .inr ⟨spans, ?_, ?_⟩
    · rw [insert, h]
    · rw [step, h, attempt_unchanged h]

theorem of_concat (calls : List TaggedSpan) (new : TaggedSpan) : of (calls ++ [new]) = (of calls).step new := by
  rw [of, List.foldl_append]
  rfl

theorem induction {P : Forest → List TaggedSpan → Prop} (start : P [] [])
    (step : ∀ forest inserted new result, P forest inserted → Inserts new forest result →
      P result (inserted ++ [new])) (calls : List TaggedSpan) : P (of calls).forest (of calls).inserted := by
  induction calls using List.reverseRecOn with
  | nil => exact start
  | append_singleton calls new ih =>
    rw [of_concat]
    rcases step_cases (of calls) new with ⟨result, -, inserts, heq⟩ | ⟨spans, -, heq⟩
    · rw [heq]
      exact step _ _ _ _ ih inserts
    · rw [heq]
      exact ih

end Run

theorem build_concat (spans : List TaggedSpan) (new : TaggedSpan) :
    build (spans ++ [new]) = (build spans).bind (insert new) := by
  rw [build, List.foldlM_append]
  simp only [List.foldlM_cons, List.foldlM_nil, bind_pure]
  rfl

theorem build_inserted (calls : List TaggedSpan) : build (Run.of calls).inserted = .ok (Run.of calls).forest := by
  induction calls using List.reverseRecOn with
  | nil => rfl
  | append_singleton calls new ih =>
    rw [Run.of_concat]
    rcases Run.step_cases (Run.of calls) new with ⟨result, hinsert, -, heq⟩ | ⟨spans, -, heq⟩
    · rw [heq, build_concat, ih]
      exact hinsert
    · rw [heq]
      exact ih

theorem inserted_sublist (calls : List TaggedSpan) : (Run.of calls).inserted.Sublist calls := by
  induction calls using List.reverseRecOn with
  | nil => exact .slnil
  | append_singleton calls new ih =>
    rw [Run.of_concat]
    rcases Run.step_cases (Run.of calls) new with ⟨result, -, -, heq⟩ | ⟨spans, -, heq⟩
    · rw [heq]
      exact ih.append (.refl [new])
    · rw [heq]
      exact ih.trans (List.sublist_append_left calls [new])

theorem run_of_build {spans : List TaggedSpan} {forest : Forest} (h : build spans = .ok forest) :
    Run.of spans = ⟨forest, spans⟩ := by
  induction spans using List.reverseRecOn generalizing forest with
  | nil => cases h; rfl
  | append_singleton spans new ih =>
    rw [build_concat] at h
    cases hb : build spans with
    | error crossing => rw [hb] at h; cases h
    | ok before =>
      rw [hb] at h
      rw [Run.of_concat, ih hb]
      rcases Run.step_cases ⟨before, spans⟩ new with ⟨result, hinsert, -, heq⟩ | ⟨crossing, hinsert, -⟩
      · cases hinsert.symm.trans h
        exact heq
      · cases hinsert.symm.trans h

theorem build_induction {P : Forest → List TaggedSpan → Prop} (start : P [] [])
    (step : ∀ forest inserted new result, P forest inserted → Inserts new forest result →
      P result (inserted ++ [new])) {spans : List TaggedSpan} {forest : Forest}
    (h : build spans = .ok forest) : P forest spans := by
  have kept := Run.induction start step spans
  rwa [run_of_build h] at kept

theorem grown_run (calls : List TaggedSpan) : Grown (Run.of calls).forest :=
  Run.induction (P := fun forest _ => Grown forest) grown_nil (fun _ _ _ _ h inserts => inserts.grown h) calls

theorem taggedSpans_run (calls : List TaggedSpan) :
    (taggedSpans (Run.of calls).forest).Perm (Run.of calls).inserted :=
  Run.induction (P := fun forest inserted => (taggedSpans forest).Perm inserted) (.refl _)
    (fun _ _ _ _ h inserts => inserts.taggedSpans_perm.trans (h.append_right _)) calls

theorem grown_build {spans : List TaggedSpan} {forest : Forest} (h : build spans = .ok forest) :
    Grown forest ∧ (taggedSpans forest).Perm spans := by
  have grown := grown_run spans
  have tagged := taggedSpans_run spans
  rw [run_of_build h] at grown tagged
  exact ⟨grown, tagged⟩

/-- A run of any length, with failures anywhere in it and any spans at all, is at each moment where the
    insertions that succeeded would have brought it without the others. -/
theorem run_invariant (calls : List TaggedSpan) :
    (∀ new spans left, attempt new (Run.of calls).forest = (some spans, left) → left = (Run.of calls).forest) ∧
    (Run.of calls).inserted.Sublist calls ∧
    build (Run.of calls).inserted = .ok (Run.of calls).forest ∧
    Grown (Run.of calls).forest ∧
    (taggedSpans (Run.of calls).forest).Perm (Run.of calls).inserted :=
  ⟨fun _ _ _ => attempt_unchanged, inserted_sublist calls, build_inserted calls, grown_run calls,
    taggedSpans_run calls⟩

variable {forest : Forest}

def Upright (forest : Forest) : Prop := ∀ n ∈ nodes forest, n.span.Upright

def tagsOn (span : Span) (given : List TaggedSpan) : List Tag := (given.filter (·.span = span)).map (·.tag)

theorem tagsOn_concat (span : Span) (given : List TaggedSpan) (new : TaggedSpan) :
    tagsOn span (given ++ [new]) = tagsOn span given ++ if new.span = span then [new.tag] else [] := by
  by_cases h : new.span = span <;> simp [tagsOn, h]

theorem Nested.contains_below (h : Nested forest) {n m : Node} (hn : n ∈ nodes forest)
    (hm : m ∈ nodes n.children) : n.span.contains m.span := by
  induction isAncestor_iff.2 hm with
  | single hc => exact h.inside n hn _ hc
  | tail hab hc ih =>
    have hb := isAncestor_iff.1 hab
    exact Span.contains_trans (ih hb) (h.inside _ (nodes_children_subset hn _ hb) _ hc)

theorem Grown.ne_below (h : Grown forest) {n m : Node} (hn : n ∈ nodes forest)
    (hm : m ∈ nodes n.children) : m.span ≠ n.span := by
  obtain ⟨c, hc, rfl | hm⟩ := mem_nodes.1 hm
  · exact h.proper n hn m hc
  · intro same
    -- the child between them would have the same span too
    have inner := h.contains_below (nodes_children_subset hn c (mem_nodes_of_mem hc)) hm
    rw [same] at inner
    exact h.proper n hn c hc (Span.contains_antisymm inner (h.inside n hn c hc))

theorem Upright.children (h : Upright forest) {n : Node} (hn : n ∈ forest) : Upright n.children :=
  fun m hm => h m (mem_nodes.2 ⟨n, hn, .inr hm⟩)

theorem Upright.tail {n : Node} {rest : Forest} (h : Upright (n :: rest)) : Upright rest :=
  fun m hm => h m (by simp [hm])

theorem Nested.apart_roots (h : Nested forest) {a b : Node} (ha : a ∈ forest) (hb : b ∈ forest)
    (ne : a ≠ b) : a.span.Apart b.span := by
  have pairs : forest.Pairwise fun a b => a.span.Apart b.span := List.pairwise_map.1 (nested_iff.1 h).1
  have : Std.Symm fun a b : Node => a.span.Apart b.span := ⟨fun _ _ hxy => hxy.symm⟩
  exact pairs.forall ha hb ne

theorem Nested.apart_below (h : Nested forest) (upright : Upright forest) {a b x y : Node}
    (ha : a ∈ forest) (hb : b ∈ forest) (apart : a.span.Apart b.span)
    (hx : x = a ∨ x ∈ nodes a.children) (hy : y = b ∨ y ∈ nodes b.children) : x.span.Apart y.span := by
  have within : ∀ {r z : Node}, r ∈ forest → z = r ∨ z ∈ nodes r.children →
      z.span.Upright ∧ r.span.Upright ∧ r.span.contains z.span := by
    intro r z hr hz
    refine ⟨upright z (mem_nodes.2 ⟨r, hr, hz⟩), upright r (mem_nodes_of_mem hr), ?_⟩
    rcases hz with rfl | hz
    · exact Span.contains_self _
    · exact h.contains_below (mem_nodes_of_mem hr) hz
  obtain ⟨ux, ua, cx⟩ := within ha hx
  obtain ⟨uy, ub, cy⟩ := within hb hy
  exact ((apart.of_contains ua ux ub cx).symm.of_contains ub uy ux cy).symm

theorem Nested.related (h : Nested forest) (upright : Upright forest) {m n : Node}
    (hm : m ∈ nodes forest) (hn : n ∈ nodes forest) :
    m = n ∨ n ∈ nodes m.children ∨ m ∈ nodes n.children ∨ m.span.Apart n.span := by
  induction forest using level_induction with
  | level forest ih =>
    obtain ⟨r, hr, hmr⟩ := mem_nodes.1 hm
    obtain ⟨q, hq, hnq⟩ := mem_nodes.1 hn
    by_cases hrq : r = q
    · subst hrq
      rcases hmr with rfl | hmr <;> rcases hnq with rfl | hnq
      · exact .inl rfl
      · exact .inr (.inl hnq)
      · exact .inr (.inr (.inl hmr))
      · exact ih r hr ((nested_iff.1 h).2 r hr).2 (upright.children hr) hmr hnq
    · exact .inr (.inr (.inr (h.apart_below upright hr hq (h.apart_roots hr hq hrq) hmr hnq)))

theorem Grown.tail {n : Node} {rest : Forest} (h : Grown (n :: rest)) : Grown rest :=
  h.of_subset (fun _ => List.mem_cons_of_mem n) (List.pairwise_cons.1 (grown_iff.1 h).1).2

theorem Grown.spans_nodup (h : Grown forest) (upright : Upright forest) : (spans forest).Nodup := by
  induction forest using induction with
  | nil => exact .nil
  | cons n rest below ahead =>
    have uprest : Upright rest := fun m hm => upright m (by simp [hm])
    have apart : ∀ x, x = n ∨ x ∈ nodes n.children → ∀ y ∈ nodes rest, x.span ≠ y.span := by
      intro x hx y hy same
      obtain ⟨q, hq, hyq⟩ := mem_nodes.1 hy
      have heads : n.span.Apart q.span :=
        (List.pairwise_cons.1 (grown_iff.1 h).1).1 _ (List.mem_map_of_mem hq)
      have hxy := h.apart_below upright (by simp) (List.mem_cons_of_mem n hq) heads hx hyq
      rw [same] at hxy
      exact Span.not_apart_self _ hxy
    simp only [spans, nodes_cons, List.map_cons, List.map_append, List.nodup_cons, List.nodup_append,
      List.mem_append, List.mem_map, not_or, not_exists, not_and]
    refine ⟨⟨fun m hm => h.ne_below (by simp) hm, fun m hm same => apart n (.inl rfl) m hm same.symm⟩,
      below ((grown_iff.1 h).2 n (by simp)).2 (upright.children (by simp)), ahead h.tail uprest, ?_⟩
    rintro _ ⟨x, hx, rfl⟩ _ ⟨y, hy, rfl⟩
    exact apart x (.inr hx) y hy

theorem Grown.isAncestor_iff_contains (h : Grown forest) (upright : Upright forest) {m n : Node}
    (hm : m ∈ nodes forest) (hn : n ∈ nodes forest) :
    m.IsAncestor n ↔ m.span ≠ n.span ∧ m.span.contains n.span := by
  rw [isAncestor_iff]
  constructor
  · intro hmn
    exact ⟨(h.ne_below hm hmn).symm, h.contains_below hm hmn⟩
  · rintro ⟨ne, contained⟩
    rcases h.related upright hm hn with rfl | hmn | hnm | apart
    · exact absurd rfl ne
    · exact hmn
    · exact absurd (Span.contains_antisymm contained (h.contains_below hn hnm)) ne
    · exact absurd contained apart.1

theorem Grown.point_leaf (h : Grown forest) {n : Node} (hn : n ∈ nodes forest) (point : n.span.isPoint) :
    n.children = [] := by
  refine List.eq_nil_iff_forall_not_mem.2 fun c hc => h.proper n hn c hc ?_
  exact (Span.eq_of_point_contains point (h.inside n hn c hc)).symm

theorem mem_spans_iff_tagged (tagged : ∀ n ∈ nodes forest, n.tags ≠ []) (s : Span) :
    s ∈ spans forest ↔ s ∈ (taggedSpans forest).map (·.span) := by
  simp only [spans, taggedSpans_eq_flatMap, labels, List.mem_map, List.mem_flatMap]
  constructor
  · rintro ⟨n, hn, rfl⟩
    obtain ⟨tag, htag⟩ := List.exists_mem_of_ne_nil _ (tagged n hn)
    exact ⟨⟨n.span, tag⟩, ⟨_, ⟨n, hn, rfl⟩, tag, htag, rfl⟩, rfl⟩
  · rintro ⟨_, ⟨_, ⟨n, hn, rfl⟩, tag, -, rfl⟩, rfl⟩
    exact ⟨n, hn, rfl⟩

theorem Grown.mem_spans_iff {given : List TaggedSpan} (h : Grown forest)
    (perm : (taggedSpans forest).Perm given) (s : Span) : s ∈ spans forest ↔ s ∈ given.map (·.span) := by
  rw [mem_spans_iff_tagged h.tagged, (perm.map (·.span)).mem_iff]

theorem Grown.upright {given : List TaggedSpan} (h : Grown forest) (perm : (taggedSpans forest).Perm given)
    (upright : ∀ x ∈ given, x.span.Upright) : Upright forest := by
  intro n hn
  obtain ⟨x, hx, same⟩ := List.mem_map.1 ((h.mem_spans_iff perm n.span).1 (List.mem_map_of_mem hn))
  exact same ▸ upright x hx

theorem upright_run {calls : List TaggedSpan} (upright : ∀ x ∈ calls, x.span.Upright) :
    Upright (Run.of calls).forest :=
  (grown_run calls).upright (taggedSpans_run calls) fun x hx => upright x ((inserted_sublist calls).subset hx)

theorem Grown.size_eq {given : List TaggedSpan} (h : Grown forest) (upright : Upright forest)
    (perm : (taggedSpans forest).Perm given) : size forest = (given.map (·.span)).dedup.length := by
  have same : (spans forest).Perm (given.map (·.span)).dedup := by
    refine (List.perm_ext_iff_of_nodup (h.spans_nodup upright) (List.nodup_dedup _)).2 fun s => ?_
    rw [h.mem_spans_iff perm, List.mem_dedup]
  rw [size_eq_length, ← same.length_eq, spans, List.length_map]

theorem Inserts.mem_labels {new : TaggedSpan} {result : Forest} (h : Inserts new forest result)
    (nodup : (spans result).Nodup) {label : Span × List Tag} (hlabel : label ∈ labels result) :
    (label.1 ≠ new.span ∧ label ∈ labels forest) ∨
    (∃ old, label = (new.span, old ++ [new.tag]) ∧ (new.span, old) ∈ labels forest) ∨
    (label = (new.span, [new.tag]) ∧ new.span ∉ spans forest) := by
  rw [← labels_fst] at nodup
  rcases h.labels_cases with ⟨before, old, after, hold, hnew⟩ | hperm
  · rw [hold]
    rw [hnew] at hlabel nodup
    rw [(List.perm_middle.map _).nodup_iff, List.map_cons, List.nodup_cons] at nodup
    rcases List.mem_cons.1 (List.perm_middle.mem_iff.1 hlabel) with rfl | hin
    · exact .inr (.inl ⟨old, rfl, by simp⟩)
    · refine .inl ⟨fun same => nodup.1 ?_, List.perm_middle.mem_iff.2 (List.mem_cons_of_mem _ hin)⟩
      exact List.mem_map.2 ⟨label, hin, same⟩
  · rw [(hperm.map _).nodup_iff, List.map_cons, List.nodup_cons, labels_fst] at nodup
    rcases List.mem_cons.1 (hperm.mem_iff.1 hlabel) with rfl | hin
    · exact .inr (.inr ⟨rfl, nodup.1⟩)
    · refine .inl ⟨fun same => nodup.1 ?_, hin⟩
      rw [← labels_fst]
      exact List.mem_map.2 ⟨label, hin, same⟩

theorem Inserts.labels_tags {new : TaggedSpan} {result : Forest} {given : List TaggedSpan}
    (h : Inserts new forest result) (nodup : (spans result).Nodup)
    (present : ∀ x ∈ given, x.span ∈ spans forest)
    (tags : ∀ label ∈ labels forest, label.2 = tagsOn label.1 given) :
    ∀ label ∈ labels result, label.2 = tagsOn label.1 (given ++ [new]) := by
  intro label hlabel
  rw [tagsOn_concat]
  rcases h.mem_labels nodup hlabel with ⟨other, hin⟩ | ⟨old, rfl, hin⟩ | ⟨rfl, fresh⟩
  · rw [if_neg other.symm, List.append_nil]
    exact tags label hin
  · rw [if_pos rfl, ← tags _ hin]
  · have absent : tagsOn new.span given = [] := by
      simp only [tagsOn, List.map_eq_nil_iff, List.filter_eq_nil_iff, decide_eq_true_eq]
      exact fun x hx same => fresh (same ▸ present x hx)
    rw [if_pos rfl, absent, List.nil_append]

theorem build_tags {given : List TaggedSpan} (upright : ∀ x ∈ given, x.span.Upright)
    (h : build given = .ok forest) : ∀ n ∈ nodes forest, n.tags = tagsOn n.span given := by
  have kept := build_induction (P := fun forest given => Grown forest ∧ (taggedSpans forest).Perm given ∧
    ((∀ x ∈ given, x.span.Upright) → ∀ label ∈ labels forest, label.2 = tagsOn label.1 given))
    ⟨grown_nil, .refl _, by simp⟩ ?_ h
  · intro n hn
    exact kept.2.2 upright (n.span, n.tags) (List.mem_map_of_mem hn)
  · rintro forest given new result ⟨grown, perm, tags⟩ inserts
    have grown' := inserts.grown grown
    have perm' := inserts.taggedSpans_perm.trans (perm.append_right [new])
    refine ⟨grown', perm', fun up => inserts.labels_tags (grown'.spans_nodup (grown'.upright perm' up)) ?_ ?_⟩
    · exact fun x hx => (grown.mem_spans_iff perm x.span).2 (List.mem_map_of_mem hx)
    · exact tags fun x hx => up x (by simp [hx])

/-- The forest that upright spans make: a node for each span, with the tags on it in order, below exactly
    the nodes whose spans contain it. -/
theorem build_canonical {given : List TaggedSpan} (upright : ∀ x ∈ given, x.span.Upright)
    (h : build given = .ok forest) :
    (spans forest).Nodup ∧
    (∀ s, s ∈ spans forest ↔ s ∈ given.map (·.span)) ∧
    size forest = (given.map (·.span)).dedup.length ∧
    (∀ n ∈ nodes forest, n.tags = tagsOn n.span given) ∧
    (∀ m ∈ nodes forest, ∀ n ∈ nodes forest,
      m.IsAncestor n ↔ m.span ≠ n.span ∧ m.span.contains n.span) ∧
    ∀ n ∈ nodes forest, n.span.isPoint → n.children = [] := by
  obtain ⟨grown, perm⟩ := grown_build h
  have up := grown.upright perm upright
  exact ⟨grown.spans_nodup up, grown.mem_spans_iff perm, grown.size_eq up perm, build_tags upright h,
    fun _ hm _ hn => grown.isAncestor_iff_contains up hm hn, fun _ hn => grown.point_leaf hn⟩

def meeting : List TaggedSpan :=
  [⟨⟨0, 5⟩, .specifier none⟩, ⟨⟨5, 5⟩, .assertion⟩, ⟨⟨5, 5⟩, .dynamicKeyword⟩, ⟨⟨5, 9⟩, .localName none⟩,
    ⟨⟨0, 9⟩, .statement .dynamic⟩]

theorem build_canonical_meeting : ∃ forest, (∀ x ∈ meeting, x.span.Upright) ∧ build meeting = .ok forest ∧
    size forest = 4 ∧ ∀ n ∈ nodes forest, n.span = ⟨5, 5⟩ → n.tags = [.assertion, .dynamicKeyword] := by
  have upright : ∀ x ∈ meeting, x.span.Upright := by decide
  obtain ⟨forest, h⟩ : ∃ forest, build meeting = .ok forest := ⟨_, rfl⟩
  obtain ⟨-, -, size, tags, -, -⟩ := build_canonical upright h
  refine ⟨forest, upright, h, size, fun n hn same => ?_⟩
  rw [tags n hn, same]
  rfl

end AnnotatedSource.Forest
