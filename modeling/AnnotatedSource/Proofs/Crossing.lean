import AnnotatedSource.Proofs.Canonical

set_option autoImplicit false

namespace AnnotatedSource.Forest

variable {forest : Forest}

theorem Refuses.crosses {new : TaggedSpan} {spans : Crossing} (h : Refuses new forest spans) :
    spans.existing ∈ Forest.spans forest ∧ spans.existing.crosses new.span := by
  simp only [Forest.mem_spans_iff]
  induction h with
  | descend before after span tags children spans free contained ne below ih =>
    obtain ⟨⟨n, hn, same⟩, crosses⟩ := ih
    exact ⟨⟨n, by simp [hn], same⟩, crosses⟩
  | crossed before after n free uncrossed crosses => exact ⟨⟨n, by simp, rfl⟩, crosses⟩

theorem Nested.not_crosses (h : Nested forest) (upright : Upright forest) {m n : Node}
    (hm : m ∈ nodes forest) (hn : n ∈ nodes forest) : ¬ m.span.crosses n.span := by
  rcases h.related upright hm hn with rfl | hmn | hnm | apart
  · simp [Span.not_crosses_self]
  · exact Span.not_crosses_of_contains (h.contains_below hm hmn)
  · rw [Span.crosses_comm]
    exact Span.not_crosses_of_contains (h.contains_below hn hnm)
  · exact apart.2.2

theorem build_of_not_crosses {given : List TaggedSpan}
    (uncrossed : ∀ a ∈ given, ∀ b ∈ given, ¬ a.span.crosses b.span) : ∃ forest, build given = .ok forest := by
  induction given using List.reverseRecOn with
  | nil => exact ⟨[], rfl⟩
  | append_singleton given new ih =>
    obtain ⟨before, hbefore⟩ := ih fun a ha b hb => uncrossed a (by simp [ha]) b (by simp [hb])
    rw [build_concat, hbefore]
    cases hinsert : insert new before with
    | ok result => exact ⟨result, hinsert⟩
    | error spans =>
      obtain ⟨existing, crosses⟩ := (refuses_of_insert hinsert).crosses
      obtain ⟨grown, perm⟩ := grown_build hbefore
      obtain ⟨x, hx, same⟩ := List.mem_map.1 ((grown.mem_spans_iff perm _).1 existing)
      rw [← same] at crosses
      exact absurd crosses (uncrossed x (by simp [hx]) new (by simp))

theorem exists_build_iff {given : List TaggedSpan} (upright : ∀ x ∈ given, x.span.Upright) :
    (∃ forest, build given = .ok forest) ↔ ∀ a ∈ given, ∀ b ∈ given, ¬ a.span.crosses b.span := by
  refine ⟨?_, build_of_not_crosses⟩
  rintro ⟨forest, h⟩ a ha b hb
  obtain ⟨grown, perm⟩ := grown_build h
  obtain ⟨m, hm, hma⟩ := mem_spans_iff.1 ((grown.mem_spans_iff perm _).2 (List.mem_map_of_mem ha))
  obtain ⟨n, hn, hnb⟩ := mem_spans_iff.1 ((grown.mem_spans_iff perm _).2 (List.mem_map_of_mem hb))
  rw [← hma, ← hnb]
  exact grown.not_crosses (grown.upright perm upright) hm hn

/-- The first span, in the order given, that crosses one before it, with a span that it crosses. -/
def FirstCrossing (given : List TaggedSpan) (spans : Crossing) : Prop :=
  ∃ before new after, given = before ++ new :: after ∧
    (∀ a ∈ before, ∀ b ∈ before, ¬ a.span.crosses b.span) ∧
    ∃ old ∈ before, old.span.crosses new.span ∧ spans = ⟨old.span, new.span⟩

theorem Refuses.inserted_eq {new : TaggedSpan} {spans : Crossing} (h : Refuses new forest spans) :
    spans.inserted = new.span := by
  induction h with
  | descend before after span tags children spans free contained ne below ih => exact ih
  | crossed before after n free uncrossed crosses => rfl

theorem FirstCrossing.append {given after : List TaggedSpan} {spans : Crossing} (h : FirstCrossing given spans) :
    FirstCrossing (given ++ after) spans := by
  obtain ⟨before, new, rest, rfl, uncrossed, crossed⟩ := h
  exact ⟨before, new, rest ++ after, by simp, uncrossed, crossed⟩

theorem firstCrossing_of_build {given : List TaggedSpan} {spans : Crossing}
    (upright : ∀ x ∈ given, x.span.Upright) (h : build given = .error spans) : FirstCrossing given spans := by
  -- on the last one given: either one before it was refused already, or all before it do not cross
  induction given using List.reverseRecOn with
  | nil => cases h
  | append_singleton given new ih =>
    have upright' : ∀ x ∈ given, x.span.Upright := fun x hx => upright x (by simp [hx])
    rw [build_concat] at h
    cases hbefore : build given with
    | error spans' =>
      rw [hbefore] at h
      cases h
      exact (ih upright' hbefore).append
    | ok before =>
      rw [hbefore] at h
      have refuses := refuses_of_insert (show insert new before = .error spans from h)
      obtain ⟨existing, crosses⟩ := refuses.crosses
      obtain ⟨grown, perm⟩ := grown_build hbefore
      obtain ⟨old, hold, same⟩ := List.mem_map.1 ((grown.mem_spans_iff perm _).1 existing)
      refine ⟨given, new, [], rfl, (exists_build_iff upright').1 ⟨before, hbefore⟩, old, hold, ?_, ?_⟩
      · rw [same]
        exact crosses
      · rw [same, ← refuses.inserted_eq]

theorem Nested.outermost_root (h : Nested forest) (upright : Upright forest) {n m : Node} (hn : n ∈ forest)
    (hm : m ∈ nodes forest) (contained : m.span.contains n.span) : m.span = n.span := by
  obtain ⟨r, hr, hmr⟩ := mem_nodes.1 hm
  by_cases same : r = n
  · subst same
    rcases hmr with rfl | below
    · rfl
    · exact Span.contains_antisymm contained (h.contains_below (mem_nodes_of_mem hr) below)
  · have apart := h.apart_below upright hr hn (h.apart_roots hr hn same) hmr (.inl rfl)
    exact absurd contained apart.1

theorem Refuses.contains_new {new : TaggedSpan} {spans : Crossing} (h : Refuses new forest spans)
    (nested : Nested forest) (upright : Upright forest) {m : Node} (hm : m ∈ nodes forest)
    (contained : m.span.contains spans.existing) : m.span = spans.existing ∨ m.span.contains new.span := by
  induction h with
  | descend before after span tags children spans free around ne below ih =>
    have hroot : (⟨span, tags, children⟩ : Node) ∈ before ++ ⟨span, tags, children⟩ :: after := by simp
    have existing := below.crosses.1
    obtain ⟨n, hn, same⟩ := mem_spans_iff.1 existing
    obtain ⟨r, hr, hmr⟩ := mem_nodes.1 hm
    by_cases here : r = ⟨span, tags, children⟩
    · subst here
      rcases hmr with rfl | hmr
      · exact .inr around
      · exact ih ((nested_iff.1 nested).2 _ hroot).2 (upright.children hroot) hmr contained
    · -- under another root nothing can lie around a node of this one
      have apart := nested.apart_below upright hr hroot (nested.apart_roots hr hroot here) hmr (.inr hn)
      rw [same] at apart
      exact absurd contained apart.1
  | crossed before after n free uncrossed crosses =>
    exact .inl (nested.outermost_root upright (by simp) hm contained)

theorem not_crosses_of_insert {given : List TaggedSpan} {new : TaggedSpan} {result : Forest}
    (upright : ∀ x ∈ given, x.span.Upright) (hnew : new.span.Upright) (h : build given = .ok forest)
    (inserted : insert new forest = .ok result) : ∀ n ∈ nodes forest, ¬ n.span.crosses new.span := by
  have whole : build (given ++ [new]) = .ok result := by
    rw [build_concat, h]
    exact inserted
  have upright' : ∀ x ∈ given ++ [new], x.span.Upright := by
    intro x hx
    rcases List.mem_append.1 hx with hx | hx
    · exact upright x hx
    · exact List.mem_singleton.1 hx ▸ hnew
  have uncrossed := (exists_build_iff upright').1 ⟨result, whole⟩
  obtain ⟨grown, perm⟩ := grown_build h
  intro n hn
  obtain ⟨x, hx, same⟩ := List.mem_map.1 ((grown.mem_spans_iff perm n.span).1 (List.mem_map_of_mem hn))
  rw [← same]
  exact uncrossed x (by simp [hx]) new (by simp)

/-- The new span with the span of a node that crosses it and lies in no other node that does. -/
def OutermostCrossing (forest : Forest) (new : TaggedSpan) (spans : Crossing) : Prop :=
  spans.inserted = new.span ∧
  (∃ n ∈ nodes forest, n.span = spans.existing ∧ n.span.crosses new.span) ∧
  ∀ m ∈ nodes forest, m.span.crosses new.span → m.span.contains spans.existing → m.span = spans.existing

theorem Refuses.outermostCrossing {new : TaggedSpan} {spans : Crossing} (h : Refuses new forest spans)
    (nested : Nested forest) (upright : Upright forest) : OutermostCrossing forest new spans := by
  obtain ⟨existing, crosses⟩ := h.crosses
  obtain ⟨n, hn, same⟩ := mem_spans_iff.1 existing
  refine ⟨h.inserted_eq, ⟨n, hn, same, same ▸ crosses⟩, fun m hm hcross contained => ?_⟩
  rcases h.contains_new nested upright hm contained with same | around
  · exact same
  · exact absurd hcross (Span.not_crosses_of_contains around)

/-- A crossing is found wherever in the forest it is, and nothing else is taken for one. So upright spans can
    be built up unless two of them cross, and otherwise up to the first that crosses one before it. -/
theorem insert_finds_crossing {given : List TaggedSpan} (upright : ∀ x ∈ given, x.span.Upright) :
    (∀ forest, build given = .ok forest → ∀ new : TaggedSpan, new.span.Upright →
      ((∃ spans, insert new forest = .error spans) ↔ ∃ n ∈ nodes forest, n.span.crosses new.span) ∧
      ∀ spans, insert new forest = .error spans → OutermostCrossing forest new spans) ∧
    ((∃ forest, build given = .ok forest) ↔ ∀ a ∈ given, ∀ b ∈ given, ¬ a.span.crosses b.span) ∧
    ∀ spans, build given = .error spans → FirstCrossing given spans := by
  refine ⟨fun forest h new hnew => ?_, exists_build_iff upright, fun spans => firstCrossing_of_build upright⟩
  obtain ⟨grown, perm⟩ := grown_build h
  have refused : ∀ spans, insert new forest = .error spans → OutermostCrossing forest new spans := fun spans herror =>
    (refuses_of_insert herror).outermostCrossing grown.toNested (grown.upright perm upright)
  refine ⟨⟨?_, ?_⟩, refused⟩
  · rintro ⟨spans, herror⟩
    obtain ⟨-, ⟨n, hn, -, crosses⟩, -⟩ := refused spans herror
    exact ⟨n, hn, crosses⟩
  · rintro ⟨n, hn, crosses⟩
    cases hinsert : insert new forest with
    | error spans => exact ⟨spans, rfl⟩
    | ok result => exact absurd crosses (not_crosses_of_insert upright hnew h hinsert n hn)

def stacked : List TaggedSpan :=
  [⟨⟨0, 20⟩, .statement .static⟩, ⟨⟨2, 8⟩, .specifier none⟩, ⟨⟨4, 7⟩, .localName none⟩]

/-- Both inner ranges are crossed, and the outer of the two is reported. -/
theorem insert_finds_crossing_stacked : (∀ x ∈ stacked, x.span.Upright) ∧ ∃ forest, build stacked = .ok forest ∧
    insert ⟨⟨6, 10⟩, .exportedName none⟩ forest = .error ⟨⟨2, 8⟩, ⟨6, 10⟩⟩ ∧
    (∃ n ∈ nodes forest, n.span.crosses ⟨6, 10⟩) ∧
    OutermostCrossing forest ⟨⟨6, 10⟩, .exportedName none⟩ ⟨⟨2, 8⟩, ⟨6, 10⟩⟩ := by
  have upright : ∀ x ∈ stacked, x.span.Upright := by decide
  have hnew : Span.Upright ⟨6, 10⟩ := by decide
  obtain ⟨forest, h, herror⟩ : ∃ forest, build stacked = .ok forest ∧
      insert ⟨⟨6, 10⟩, .exportedName none⟩ forest = .error ⟨⟨2, 8⟩, ⟨6, 10⟩⟩ := ⟨_, rfl, rfl⟩
  obtain ⟨found, outermost⟩ := (insert_finds_crossing upright).1 forest h ⟨⟨6, 10⟩, .exportedName none⟩ hnew
  exact ⟨upright, forest, h, herror, found.1 ⟨_, herror⟩, outermost _ herror⟩

end AnnotatedSource.Forest
