import AnnotatedSource.Proofs.Canonical

set_option autoImplicit false

namespace AnnotatedSource.Forest

variable {forest before : Forest} {new : TaggedSpan}

def extend (forest : Forest) (spans : List TaggedSpan) : Except Crossing Forest :=
  spans.foldlM (fun forest new => insert new forest) forest

theorem extend_cons (forest : Forest) (new : TaggedSpan) (spans : List TaggedSpan) :
    extend forest (new :: spans) = (insert new forest).bind (extend · spans) := rfl

theorem extend_append (forest : Forest) (a b : List TaggedSpan) :
    extend forest (a ++ b) = (extend forest a).bind (extend · b) := List.foldlM_append

theorem insert_of_apart (new : TaggedSpan) (apart : ∀ n ∈ before, n.span.Apart new.span) :
    insert new before = .ok (before ++ [⟨new.span, [new.tag], []⟩]) := by
  have free : Free new.span before := fun n hn => (apart n hn).1
  have uncrossed : before.find? (·.span.crosses new.span) = none :=
    List.find?_eq_none.2 fun n hn => (apart n hn).2.2
  have kept : before.filter (fun n => !new.span.contains n.span) = before :=
    List.filter_eq_self.2 fun n hn => by simp [(apart n hn).2.1]
  have moved : before.filter (fun n => new.span.contains n.span) = [] :=
    List.filter_eq_nil_iff.2 fun n hn => (apart n hn).2.1
  rw [insert_eq_ok_iff, attempt_of_free free, enclose, uncrossed]
  show (none, _) = (none, _)
  rw [kept, moved]

theorem insert_of_same (new : TaggedSpan) (free : Free new.span before) (tags : List Tag) (children : Forest) :
    insert new (before ++ [⟨new.span, tags, children⟩]) =
      .ok (before ++ [⟨new.span, tags ++ [new.tag], children⟩]) := by
  rw [insert_eq_ok_iff, attempt_of_contains free (Span.contains_self _), insertWithin_eq, if_pos rfl]

theorem insert_of_contains {span : Span} (free : Free new.span before) (contained : span.contains new.span)
    (ne : span ≠ new.span) (tags : List Tag) (children : Forest) :
    insert new (before ++ [⟨span, tags, children⟩]) =
      (insert new children).map fun level => before ++ [⟨span, tags, level⟩] := by
  rw [insert, attempt_of_contains free contained, insertWithin_eq, if_neg ne, insert]
  rcases attempt new children with ⟨_ | spans, level⟩ <;> rfl

theorem extend_of_same {span : Span} (free : Free span before) (tags more : List Tag) :
    extend (before ++ [⟨span, tags, []⟩]) (more.map (⟨span, ·⟩)) = .ok (before ++ [⟨span, tags ++ more, []⟩]) := by
  induction more generalizing tags with
  | nil =>
    rw [List.append_nil]
    rfl
  | cons tag more ih =>
    have merged := insert_of_same ⟨span, tag⟩ free tags []
    rw [List.map_cons, extend_cons, merged]
    show extend _ _ = _
    rw [ih, List.append_assoc]
    rfl

theorem extend_tags {span : Span} (apart : ∀ n ∈ before, n.span.Apart span) {tags : List Tag} (ne : tags ≠ []) :
    extend before (tags.map (⟨span, ·⟩)) = .ok (before ++ [⟨span, tags, []⟩]) := by
  obtain ⟨tag, more, rfl⟩ := List.exists_cons_of_ne_nil ne
  rw [List.map_cons, extend_cons, insert_of_apart ⟨span, tag⟩ apart]
  exact extend_of_same (fun n hn => (apart n hn).1) [tag] more

/-- What lies in the last root and in none before it is inserted as into the children of that root. -/
theorem extend_below {span : Span} {spans : List TaggedSpan}
    (within : ∀ x ∈ spans, Free x.span before ∧ span.contains x.span ∧ span ≠ x.span) (tags : List Tag)
    (children : Forest) : extend (before ++ [⟨span, tags, children⟩]) spans =
      (extend children spans).map fun level => before ++ [⟨span, tags, level⟩] := by
  induction spans generalizing children with
  | nil => rfl
  | cons new spans ih =>
    obtain ⟨⟨free, contained, ne⟩, within⟩ := List.forall_mem_cons.1 within
    rw [extend_cons, extend_cons, insert_of_contains free contained ne]
    cases insert new children with
    | error spans => rfl
    | ok level => exact ih within level

theorem taggedSpans_cons (n : Node) (rest : Forest) : taggedSpans (n :: rest) =
    n.tags.map (⟨n.span, ·⟩) ++ (taggedSpans n.children ++ taggedSpans rest) := by
  simp [taggedSpans_eq_flatMap]

theorem exists_node_of_mem_taggedSpans {x : TaggedSpan} (h : x ∈ taggedSpans forest) :
    ∃ m ∈ nodes forest, m.span = x.span := by
  rw [taggedSpans_eq_flatMap] at h
  obtain ⟨label, hlabel, hx⟩ := List.mem_flatMap.1 h
  obtain ⟨m, hm, rfl⟩ := List.mem_map.1 hlabel
  obtain ⟨tag, -, rfl⟩ := List.mem_map.1 hx
  exact ⟨m, hm, rfl⟩

theorem Grown.extend_taggedSpans (before : Forest) (h : Grown (before ++ forest)) (upright : Upright (before ++ forest)) :
    extend before (taggedSpans forest) = .ok (before ++ forest) := by
  induction forest using induction generalizing before with
  | nil =>
    rw [List.append_nil]
    rfl
  | cons n rest below ahead =>
    obtain ⟨span, tags, children⟩ := n
    have hn : ⟨span, tags, children⟩ ∈ before ++ ⟨span, tags, children⟩ :: rest := by simp
    obtain ⟨apart, each⟩ := grown_iff.1 h
    obtain ⟨fitted, grown⟩ := each _ hn
    have beside : ∀ r ∈ before, r.span.Apart span := by
      intro r hr
      rw [List.map_append, List.pairwise_append] at apart
      exact apart.2.2 r.span (List.mem_map_of_mem hr) span (by simp)
    have within : ∀ x ∈ taggedSpans children, Free x.span before ∧ span.contains x.span ∧ span ≠ x.span := by
      intro x hx
      obtain ⟨m, hm, same⟩ := exists_node_of_mem_taggedSpans hx
      have node := mem_nodes_of_mem hn
      rw [← same]
      refine ⟨fun r hr => ?_, h.contains_below node hm, (h.ne_below node hm).symm⟩
      exact (h.apart_below upright (by simp [hr]) hn (beside r hr) (.inl rfl) (.inr hm)).1
    have inner : extend [] (taggedSpans children) = .ok children :=
      below [] grown (upright.children hn)
    have assoc : before ++ ⟨span, tags, children⟩ :: rest = (before ++ [⟨span, tags, children⟩]) ++ rest := by simp
    rw [taggedSpans_cons, extend_append, extend_tags beside fitted.tagged]
    show extend _ _ = _
    rw [extend_append, extend_below within, inner]
    rw [assoc] at h upright ⊢
    exact ahead _ h upright

/-- A forest that upright spans make, and its sorted copy, are each built again from their tags, with all
    siblings in their order. -/
theorem build_taggedSpans {calls : List TaggedSpan} (upright : ∀ x ∈ calls, x.span.Upright) :
    ∀ forest ∈ [(Run.of calls).forest, (Run.of calls).forest.sorted], build (taggedSpans forest) = .ok forest := by
  have grown := grown_run calls
  have up := upright_run upright
  have rebuilt {forest : Forest} (h : Grown forest) (up : Upright forest) :
      build (taggedSpans forest) = .ok forest := Grown.extend_taggedSpans [] h up
  intro forest hforest
  rcases List.mem_pair.1 hforest with rfl | rfl
  · exact rebuilt grown up
  · have moved : Upright (Run.of calls).forest.sorted := by
      intro n hn
      obtain ⟨m, hm, rfl⟩ := mem_nodes_sorted.1 hn
      rw [span_sortNode]
      exact up m hm
    exact rebuilt grown.sorted moved

def scattered : List TaggedSpan :=
  [⟨⟨20, 21⟩, .localName none⟩, ⟨⟨2, 3⟩, .specifier none⟩, ⟨⟨5, 5⟩, .assertion⟩, ⟨⟨0, 10⟩, .statement .dynamic⟩,
    ⟨⟨5, 15⟩, .exportedName none⟩, ⟨⟨5, 5⟩, .dynamicKeyword⟩, ⟨⟨20, 21⟩, .exportedName none⟩]

theorem build_taggedSpans_scattered : (∀ x ∈ scattered, x.span.Upright) ∧
    spans (Run.of scattered).forest = [⟨20, 21⟩, ⟨0, 10⟩, ⟨2, 3⟩, ⟨5, 5⟩] ∧
    build (taggedSpans (Run.of scattered).forest) = .ok (Run.of scattered).forest ∧
    build (taggedSpans (Run.of scattered).forest.sorted) = .ok (Run.of scattered).forest.sorted := by
  have upright : ∀ x ∈ scattered, x.span.Upright := by decide
  have rebuilt := build_taggedSpans upright
  exact ⟨upright, rfl, rebuilt _ (by simp), rebuilt _ (by simp)⟩

end AnnotatedSource.Forest
