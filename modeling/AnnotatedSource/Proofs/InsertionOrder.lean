import AnnotatedSource.Annotated
import AnnotatedSource.Proofs.Crossing

set_option autoImplicit false

namespace AnnotatedSource.Forest

/-- Forests of the same shape with the same spans, and tags related node by node. -/
inductive Alike (R : List Tag → List Tag → Prop) : Forest → Forest → Prop
  | nil : Alike R [] []
  | cons {span : Span} {tags tags' : List Tag} {children children' rest rest' : Forest}
      (related : R tags tags') (below : Alike R children children') (ahead : Alike R rest rest') :
      Alike R (⟨span, tags, children⟩ :: rest) (⟨span, tags', children'⟩ :: rest')

theorem Alike.eq {a b : Forest} (h : Alike (· = ·) a b) : a = b := by
  induction h with
  | nil => rfl
  | cons related below ahead ihbelow ihahead => rw [related, ihbelow, ihahead]

structure Ordered (forest : Forest) : Prop extends Grown forest where
  upright : Upright forest
  ascending : Ascending forest

theorem Ordered.below {n : Node} {rest : Forest} (h : Ordered (n :: rest)) : Ordered n.children :=
  ⟨((grown_iff.1 h.toGrown).2 n (by simp)).2, h.upright.children (by simp), h.ascending.below (by simp)⟩

theorem Ordered.ahead {n : Node} {rest : Forest} (h : Ordered (n :: rest)) : Ordered rest :=
  ⟨h.toGrown.tail, h.upright.tail, h.ascending.tail⟩

theorem Ordered.before_roots {n q : Node} {rest : Forest} (h : Ordered (n :: rest)) (hq : q ∈ rest) :
    n.span.Apart q.span ∧ n.span.start < q.span.start ∧ n.span.stop ≤ q.span.start := by
  have apart := (List.pairwise_cons.1 (grown_iff.1 h.toGrown).1).1 _ (List.mem_map_of_mem hq)
  have hle := (List.pairwise_cons.1 h.ascending.level).1 q hq
  exact ⟨apart, apart.ordered (h.upright n (by simp)) (h.upright q (mem_nodes_of_mem (by simp [hq]))) hle⟩

theorem Ordered.before_nodes {n m : Node} {rest : Forest} (h : Ordered (n :: rest)) (hm : m ∈ nodes rest) :
    ¬ n.span.contains m.span ∧ n.span.start < m.span.start := by
  obtain ⟨q, hq, hmq⟩ := mem_nodes.1 hm
  obtain ⟨apart, hlt, -⟩ := h.before_roots hq
  refine ⟨(h.apart_below h.upright (by simp) (List.mem_cons_of_mem n hq) apart (.inl rfl) hmq).1, ?_⟩
  rcases hmq with rfl | hmq
  · exact hlt
  · have within := Span.contains_bounds (h.contains_below (mem_nodes_of_mem (by simp [hq])) hmq)
    exact Nat.lt_of_lt_of_le hlt within.1

theorem Ordered.head {n : Node} {rest : Forest} (h : Ordered (n :: rest)) {s : Span}
    (hs : s ∈ spans (n :: rest)) : n.span.start ≤ s.start ∧ (s.start ≤ n.span.start → n.span.contains s) := by
  obtain ⟨m, hm, rfl⟩ := mem_spans_iff.1 hs
  simp only [nodes_cons, List.mem_cons, List.mem_append] at hm
  rcases hm with rfl | hm | hm
  · exact ⟨Nat.le_refl _, fun _ => Span.contains_self _⟩
  · have contained := h.contains_below (by simp) hm
    exact ⟨(Span.contains_bounds contained).1, fun _ => contained⟩
  · have hlt := (h.before_nodes hm).2
    exact ⟨Nat.le_of_lt hlt, fun hle => absurd hle (Nat.not_le.2 hlt)⟩

theorem Ordered.mem_spans_below {n : Node} {rest : Forest} (h : Ordered (n :: rest)) (s : Span) :
    s ∈ spans n.children ↔ s ∈ spans (n :: rest) ∧ n.span.contains s ∧ s ≠ n.span := by
  simp only [mem_spans_iff, nodes_cons, List.mem_cons, List.mem_append]
  constructor
  · rintro ⟨m, hm, rfl⟩
    exact ⟨⟨m, .inr (.inl hm), rfl⟩, h.contains_below (by simp) hm, h.ne_below (by simp) hm⟩
  · rintro ⟨⟨m, rfl | hm | hm, rfl⟩, contained, ne⟩
    · exact absurd rfl ne
    · exact ⟨m, hm, rfl⟩
    · exact absurd contained (h.before_nodes hm).1

theorem Ordered.mem_spans_ahead {n : Node} {rest : Forest} (h : Ordered (n :: rest)) (s : Span) :
    s ∈ spans rest ↔ s ∈ spans (n :: rest) ∧ ¬ n.span.contains s := by
  simp only [mem_spans_iff, nodes_cons, List.mem_cons, List.mem_append]
  constructor
  · rintro ⟨m, hm, rfl⟩
    exact ⟨⟨m, .inr (.inr hm), rfl⟩, (h.before_nodes hm).1⟩
  · rintro ⟨⟨m, rfl | hm | hm, rfl⟩, outside⟩
    · exact absurd (Span.contains_self _) outside
    · exact absurd (h.contains_below (by simp) hm) outside
    · exact ⟨m, hm, rfl⟩

theorem spans_eq_nil {forest : Forest} (h : ∀ s, s ∉ spans forest) : forest = [] := by
  cases forest with
  | nil => rfl
  | cons n rest => exact absurd (mem_spans_iff.2 ⟨n, by simp, rfl⟩) (h n.span)

theorem Ordered.head_eq {m n : Node} {rest rest' : Forest} (ha : Ordered (m :: rest))
    (hb : Ordered (n :: rest')) (same : ∀ s, s ∈ spans (m :: rest) ↔ s ∈ spans (n :: rest')) :
    m.span = n.span := by
  have hm : m.span ∈ spans (n :: rest') := (same _).1 (mem_spans_iff.2 ⟨m, by simp, rfl⟩)
  have hn : n.span ∈ spans (m :: rest) := (same _).2 (mem_spans_iff.2 ⟨n, by simp, rfl⟩)
  exact Span.contains_antisymm ((ha.head hn).2 (hb.head hm).1) ((hb.head hm).2 (ha.head hn).1)

theorem Ordered.alike {R : List Tag → List Tag → Prop} {a b : Forest} (ha : Ordered a) (hb : Ordered b)
    (same : ∀ s, s ∈ spans a ↔ s ∈ spans b)
    (tags : ∀ m ∈ nodes a, ∀ n ∈ nodes b, m.span = n.span → R m.tags n.tags) : Alike R a b := by
  induction a using induction generalizing b with
  | nil =>
    obtain rfl : b = [] := spans_eq_nil fun s hs => by simpa [spans] using (same s).2 hs
    exact .nil
  | cons m rest below ahead =>
    cases b with
    | nil =>
      have hm := (same m.span).1 (mem_spans_iff.2 ⟨m, by simp, rfl⟩)
      simp [spans] at hm
    | cons n rest' =>
      have heads := ha.head_eq hb same
      have related := tags m (by simp) n (by simp) heads
      have sameBelow : ∀ s, s ∈ spans m.children ↔ s ∈ spans n.children := by
        intro s
        rw [ha.mem_spans_below, hb.mem_spans_below, same, heads]
      have sameAhead : ∀ s, s ∈ spans rest ↔ s ∈ spans rest' := by
        intro s
        rw [ha.mem_spans_ahead, hb.mem_spans_ahead, same, heads]
      have alikeBelow := below ha.below hb.below sameBelow
        fun x hx y hy => tags x (by simp [hx]) y (by simp [hy])
      have alikeAhead := ahead ha.ahead hb.ahead sameAhead
        fun x hx y hy => tags x (by simp [hx]) y (by simp [hy])
      obtain ⟨span, tagsm, childrenm⟩ := m
      obtain ⟨span', tagsn, childrenn⟩ := n
      obtain rfl : span = span' := heads
      exact .cons related alikeBelow alikeAhead

variable {forest : Forest}

theorem ordered_sorted {given : List TaggedSpan} (upright : ∀ x ∈ given, x.span.Upright)
    (h : build given = .ok forest) : Ordered (sorted forest) := by
  obtain ⟨grown, perm⟩ := grown_build h
  exact ⟨grown.sorted, grown.sorted.upright ((taggedSpans_sorted_perm forest).trans perm) upright,
    ascending_sorted forest⟩

theorem sorted_tags {given : List TaggedSpan} (upright : ∀ x ∈ given, x.span.Upright)
    (h : build given = .ok forest) : ∀ n ∈ nodes (sorted forest), n.tags = tagsOn n.span given := by
  intro n hn
  obtain ⟨m, hm, rfl⟩ := mem_nodes_sorted.1 hn
  simpa using build_tags upright h m hm

theorem sorted_mem_spans {given : List TaggedSpan} (h : build given = .ok forest) (s : Span) :
    s ∈ spans (sorted forest) ↔ s ∈ given.map (·.span) := by
  obtain ⟨grown, perm⟩ := grown_build h
  exact grown.sorted.mem_spans_iff ((taggedSpans_sorted_perm forest).trans perm) s

theorem sorted_alike {R : List Tag → List Tag → Prop} {given moved : List TaggedSpan} {a b : Forest}
    (upright : ∀ x ∈ given, x.span.Upright) (perm : given.Perm moved)
    (ha : build given = .ok a) (hb : build moved = .ok b)
    (tags : ∀ s, R (tagsOn s given) (tagsOn s moved)) : Alike R (sorted a) (sorted b) := by
  have upright' : ∀ x ∈ moved, x.span.Upright := fun x hx => upright x (perm.mem_iff.2 hx)
  refine (ordered_sorted upright ha).alike (ordered_sorted upright' hb) ?_ ?_
  · intro s
    rw [sorted_mem_spans ha, sorted_mem_spans hb, (perm.map _).mem_iff]
  · intro m hm n hn same
    rw [sorted_tags upright ha m hm, sorted_tags upright' hb n hn, same]
    exact tags n.span

/-- In another order upright spans make a forest if they did before, and when sorted it is the same but
    for the order of the tags on each span. If that order is kept too, the forests are equal. -/
theorem build_perm {given moved : List TaggedSpan} (upright : ∀ x ∈ given, x.span.Upright)
    (perm : given.Perm moved) :
    ((∃ forest, build given = .ok forest) ↔ ∃ forest, build moved = .ok forest) ∧
    ∀ a b, build given = .ok a → build moved = .ok b →
      Alike List.Perm (sorted a) (sorted b) ∧
      ((∀ s : Span, given.filter (·.span = s) = moved.filter (·.span = s)) →
        sorted a = sorted b ∧
        ∀ elide length, Segment.ofForest elide (sorted a) ⟨0, length⟩ =
          Segment.ofForest elide (sorted b) ⟨0, length⟩) := by
  refine ⟨?_, fun a b ha hb => ⟨?_, fun kept => ?_⟩⟩
  · rw [exists_build_iff upright, exists_build_iff fun x hx => upright x (perm.mem_iff.2 hx)]
    simp only [perm.mem_iff]
  · exact sorted_alike upright perm ha hb fun s => (perm.filter _).map _
  · have same : sorted a = sorted b :=
      (sorted_alike upright perm ha hb fun s => congrArg (List.map (·.tag)) (kept s)).eq
    exact ⟨same, fun elide length => by rw [same]⟩

theorem build_perm_meeting : (∀ x ∈ meeting, x.span.Upright) ∧ meeting.Perm (meeting.drop 3 ++ meeting.take 3) ∧
    ∃ a b, build meeting = .ok a ∧ build (meeting.drop 3 ++ meeting.take 3) = .ok b ∧ sorted a = sorted b := by
  have upright : ∀ x ∈ meeting, x.span.Upright := by decide
  have perm : meeting.Perm (meeting.drop 3 ++ meeting.take 3) := by decide
  obtain ⟨a, ha⟩ : ∃ a, build meeting = .ok a := ⟨_, rfl⟩
  obtain ⟨b, hb⟩ := (build_perm upright perm).1.1 ⟨a, ha⟩
  have kept : ∀ s : Span, meeting.filter (·.span = s) = (meeting.drop 3 ++ meeting.take 3).filter (·.span = s) := by
    intro s
    by_cases h : s ∈ meeting.map (·.span)
    · revert s
      decide
    · have absent : ∀ x ∈ meeting, ¬ decide (x.span = s) = true := fun x hx same =>
        h (List.mem_map.2 ⟨x, hx, of_decide_eq_true same⟩)
      rw [List.filter_eq_nil_iff.2 absent,
        List.filter_eq_nil_iff.2 fun x hx => absent x (perm.mem_iff.2 hx)]
  exact ⟨upright, perm, a, b, ha, hb, (((build_perm upright perm).2 a b ha hb).2 kept).1⟩

end AnnotatedSource.Forest
