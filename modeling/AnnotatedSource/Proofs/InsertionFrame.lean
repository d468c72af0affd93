import Mathlib.Data.List.Infix
import AnnotatedSource.Proofs.Canonical
import AnnotatedSource.Proofs.Regrouping

set_option autoImplicit false

namespace AnnotatedSource

namespace Forest

variable {new : TaggedSpan} {forest result before after children level : Forest} {move : Address → Address}

/-- Where the nodes of one forest are found in another: ancestors stay ancestors and no others become such, and
    siblings that stay siblings keep their order. -/
structure Carries (forest result : Forest) (move : Address → Address) : Prop where
  present : Set.MapsTo move (places forest) (places result)
  above : ∀ a ∈ places forest, ∀ b ∈ places forest, a <+: b ↔ move a <+: move b
  order : ∀ (parent : Address) (i j : Nat), parent ++ [i] ∈ places forest → parent ++ [j] ∈ places forest →
    ∀ (other : Address) (i' j' : Nat), move (parent ++ [i]) = other ++ [i'] → move (parent ++ [j]) = other ++ [j'] →
      (i < j ↔ i' < j')

/-- One node with the new span gains the new tag behind its tags; no other has anything new, and no node is added. -/
def GainsTag (new : TaggedSpan) (forest result : Forest) (move : Address → Address) : Prop :=
  ∃ target tags, labelAt? forest target = some (new.span, tags) ∧
    labelAt? result (move target) = some (new.span, tags ++ [new.tag]) ∧
    (∀ a ∈ places forest, a ≠ target → labelAt? result (move a) = labelAt? forest a) ∧
    Set.SurjOn move (places forest) (places result)

def GainsNode (new : TaggedSpan) (forest result : Forest) (move : Address → Address) : Prop :=
  ∃ fresh, labelAt? result fresh = some (new.span, [new.tag]) ∧
    (∀ a ∈ places forest, move a ≠ fresh ∧ labelAt? result (move a) = labelAt? forest a) ∧
    Set.SurjOn move (places forest) (places result \ {fresh})

theorem Carries.injOn (h : Carries forest result move) : Set.InjOn move (places forest) := by
  intro a ha b hb same
  have hab := (h.above a ha b hb).2 (same ▸ List.prefix_rfl)
  have hba := (h.above b hb a ha).2 (same ▸ List.prefix_rfl)
  exact hab.eq_of_length_le hba.length_le

theorem labelAt?_merge (before after : Forest) (tags : List Tag) (children : Forest) {a : Address}
    (ne : a ≠ [before.length]) : labelAt? (before ++ ⟨new.span, tags ++ [new.tag], children⟩ :: after) a =
      labelAt? (before ++ ⟨new.span, tags, children⟩ :: after) a := by
  cases a with
  | nil => rfl
  | cons i rest =>
    by_cases here : i = before.length
    · subst here
      have below : rest ≠ [] := fun empty => ne (by rw [empty])
      rw [labelAt?_below _ _ _ below, labelAt?_below _ _ _ below]
    · rw [labelAt?, labelAt?, nodeAt?_beside here]

theorem frame_merge (new : TaggedSpan) (before after : Forest) (tags : List Tag) (children : Forest) :
    Carries (before ++ ⟨new.span, tags, children⟩ :: after)
        (before ++ ⟨new.span, tags ++ [new.tag], children⟩ :: after) id ∧
      GainsTag new (before ++ ⟨new.span, tags, children⟩ :: after)
        (before ++ ⟨new.span, tags ++ [new.tag], children⟩ :: after) id := by
  have same : places (before ++ ⟨new.span, tags ++ [new.tag], children⟩ :: after) =
      places (before ++ ⟨new.span, tags, children⟩ :: after) := by
    ext a
    by_cases here : a = [before.length]
    · subst here
      simp [mem_places, labelAt?_own]
    · simp only [mem_places, labelAt?_merge before after tags children here]
  constructor
  · refine ⟨fun a ha => same ▸ ha, fun a _ b _ => Iff.rfl, ?_⟩
    intro parent i j _ _ other i' j'
    exact index_order _
  · refine ⟨[before.length], tags, labelAt?_own _ _ _, labelAt?_own _ _ _, ?_, ?_⟩
    · intro a _ ne
      exact labelAt?_merge before after tags children ne
    · intro a ha
      exact ⟨a, same ▸ ha, rfl⟩

def within (k : Nat) (move : Address → Address) : Address → Address
  | [] => []
  | [i] => [i]
  | i :: j :: rest => if i = k then i :: move (j :: rest) else i :: j :: rest

def Inside (k : Nat) (a : Address) : Prop := ∃ rest, rest ≠ [] ∧ a = k :: rest

theorem inside_cons {k : Nat} {rest : Address} (ne : rest ≠ []) : Inside k (k :: rest) := ⟨rest, ne, rfl⟩

theorem within_inside {k : Nat} {rest : Address} (ne : rest ≠ []) : within k move (k :: rest) = k :: move rest := by
  cases rest with
  | nil => exact absurd rfl ne
  | cons j rest => rw [within, if_pos rfl]

theorem within_outside {k : Nat} {a : Address} (h : ¬ Inside k a) : within k move a = a := by
  match a with
  | [] => rfl
  | [i] => rfl
  | i :: j :: rest =>
    rw [within, if_neg]
    rintro rfl
    exact h (inside_cons (by simp))

theorem not_prefix_of_outside {k : Nat} {rest b : Address} (ne : rest ≠ []) (h : ¬ Inside k b) : ¬ k :: rest <+: b := by
  rintro ⟨more, rfl⟩
  exact h ⟨rest ++ more, by simp [ne], rfl⟩

theorem prefix_iff_of_outside {k i : Nat} {rest more : Address} (h : ¬ Inside k (i :: rest)) :
    i :: rest <+: k :: more ↔ i = k := by
  rw [List.cons_prefix_cons]
  refine ⟨And.left, fun same => ⟨same, ?_⟩⟩
  subst same
  obtain rfl : rest = [] := by
    by_contra ne
    exact h (inside_cons ne)
  exact List.nil_prefix

theorem labelAt?_outside (before after : Forest) (span : Span) (tags : List Tag) (children level : Forest)
    {a : Address} (h : ¬ Inside before.length a) : labelAt? (before ++ ⟨span, tags, level⟩ :: after) a =
      labelAt? (before ++ ⟨span, tags, children⟩ :: after) a := by
  cases a with
  | nil => rfl
  | cons i rest =>
    by_cases here : i = before.length
    · subst here
      obtain rfl : rest = [] := by
        by_contra ne
        exact h (inside_cons ne)
      rw [labelAt?_own, labelAt?_own]
    · rw [labelAt?, labelAt?, nodeAt?_beside here]

section

variable (before after : Forest) (span : Span) (tags : List Tag)

theorem mem_places_outside (children level : Forest) {a : Address} (h : ¬ Inside before.length a) :
    a ∈ places (before ++ ⟨span, tags, level⟩ :: after) ↔ a ∈ places (before ++ ⟨span, tags, children⟩ :: after) := by
  simp only [mem_places, labelAt?_outside before after span tags children level h]

theorem Carries.within (h : Carries children level move) :
    Carries (before ++ ⟨span, tags, children⟩ :: after) (before ++ ⟨span, tags, level⟩ :: after)
      (within before.length move) := by
  have kept {rest : Address} (ne : rest ≠ [])
      (hrest : before.length :: rest ∈ places (before ++ ⟨span, tags, children⟩ :: after)) :
      rest ∈ places children ∧ move rest ∈ places level ∧ move rest ≠ [] := by
    have old := (mem_places_inside before after ne).1 hrest
    have moved := h.present old
    exact ⟨old, moved, ne_nil_of_mem_places moved⟩
  refine ⟨?_, ?_, ?_⟩
  · intro a ha
    by_cases inside : Inside before.length a
    · obtain ⟨rest, ne, rfl⟩ := inside
      obtain ⟨-, moved, ne'⟩ := kept ne ha
      rw [within_inside ne]
      exact (mem_places_inside before after ne').2 moved
    · rw [within_outside inside]
      exact (mem_places_outside before after span tags children level inside).2 ha
  · intro a ha b hb
    by_cases insideA : Inside before.length a <;> by_cases insideB : Inside before.length b
    · obtain ⟨resta, nea, rfl⟩ := insideA
      obtain ⟨restb, neb, rfl⟩ := insideB
      rw [within_inside nea, within_inside neb, List.cons_prefix_cons, List.cons_prefix_cons,
        h.above resta (kept nea ha).1 restb (kept neb hb).1]
    · obtain ⟨resta, nea, rfl⟩ := insideA
      rw [within_inside nea, within_outside insideB]
      exact iff_of_false (not_prefix_of_outside nea insideB) (not_prefix_of_outside (kept nea ha).2.2 insideB)
    · obtain ⟨restb, neb, rfl⟩ := insideB
      obtain ⟨i, rest, rfl⟩ := List.exists_cons_of_ne_nil (ne_nil_of_mem_places ha)
      rw [within_outside insideA, within_inside neb, prefix_iff_of_outside insideA, prefix_iff_of_outside insideA]
    · rw [within_outside insideA, within_outside insideB]
  · intro parent i j hi hj other i' j' movedI movedJ
    cases parent with
    | nil => exact index_order [] movedI movedJ
    | cons k parent =>
      by_cases here : k = before.length
      · subst here
        have ne (i : Nat) : parent ++ [i] ≠ [] := by simp
        obtain ⟨oldI, -, neI⟩ := kept (ne i) hi
        obtain ⟨oldJ, -, neJ⟩ := kept (ne j) hj
        rw [List.cons_append, within_inside (ne i)] at movedI
        rw [List.cons_append, within_inside (ne j)] at movedJ
        cases other with
        | nil => exact absurd (List.cons.inj movedI).2 neI
        | cons k other =>
          exact h.order parent i j oldI oldJ other i' j' (List.cons.inj movedI).2 (List.cons.inj movedJ).2
      · have outside (i : Nat) : ¬ Inside before.length (k :: parent ++ [i]) := by
          rintro ⟨rest, -, same⟩
          exact here (List.cons.inj same).1
        rw [within_outside (outside i)] at movedI
        rw [within_outside (outside j)] at movedJ
        exact index_order _ movedI movedJ

theorem exists_within (reached : Address → Prop)
    (below : ∀ rest ∈ places level, reached (before.length :: rest) → ∃ old ∈ places children, move old = rest)
    {b : Address} (hb : b ∈ places (before ++ ⟨span, tags, level⟩ :: after)) (h : reached b) :
    ∃ a ∈ places (before ++ ⟨span, tags, children⟩ :: after), Forest.within before.length move a = b := by
  by_cases inside : Inside before.length b
  · obtain ⟨rest, ne, rfl⟩ := inside
    obtain ⟨old, hold, rfl⟩ := below rest ((mem_places_inside before after ne).1 hb) h
    have ne' := ne_nil_of_mem_places hold
    exact ⟨before.length :: old, (mem_places_inside before after ne').2 hold, within_inside ne'⟩
  · exact ⟨b, (mem_places_outside before after span tags children level inside).1 hb, within_outside inside⟩

theorem labelAt?_within (h : Carries children level move) {a : Address}
    (ha : a ∈ places (before ++ ⟨span, tags, children⟩ :: after))
    (below : ∀ rest ∈ places children, a = before.length :: rest →
      labelAt? level (move rest) = labelAt? children rest) :
    labelAt? (before ++ ⟨span, tags, level⟩ :: after) (Forest.within before.length move a) =
      labelAt? (before ++ ⟨span, tags, children⟩ :: after) a := by
  by_cases inside : Inside before.length a
  · obtain ⟨rest, ne, rfl⟩ := inside
    have hrest := (mem_places_inside before after ne).1 ha
    have ne' := ne_nil_of_mem_places (h.present hrest)
    rw [within_inside ne, labelAt?_below _ _ _ ne', labelAt?_below _ _ _ ne]
    exact below rest hrest rfl
  · rw [within_outside inside, labelAt?_outside before after span tags children level inside]

theorem GainsTag.within (h : Carries children level move) (gains : GainsTag new children level move) :
    GainsTag new (before ++ ⟨span, tags, children⟩ :: after) (before ++ ⟨span, tags, level⟩ :: after)
      (Forest.within before.length move) := by
  obtain ⟨target, old, hold, hnew, others, reached⟩ := gains
  have htarget : target ∈ places children := ⟨_, hold⟩
  have ne := ne_nil_of_mem_places htarget
  have ne' := ne_nil_of_mem_places (h.present htarget)
  refine ⟨before.length :: target, old, ?_, ?_, ?_, ?_⟩
  · rwa [labelAt?_below _ _ _ ne]
  · rwa [within_inside ne, labelAt?_below _ _ _ ne']
  · intro a ha other
    apply labelAt?_within before after span tags h ha
    rintro rest hrest rfl
    exact others rest hrest fun same => other (by rw [same])
  · intro b hb
    exact exists_within before after span tags (fun _ => True) (fun rest hrest _ => reached hrest) hb trivial

theorem GainsNode.within (h : Carries children level move) (gains : GainsNode new children level move) :
    GainsNode new (before ++ ⟨span, tags, children⟩ :: after) (before ++ ⟨span, tags, level⟩ :: after)
      (Forest.within before.length move) := by
  obtain ⟨fresh, hfresh, others, reached⟩ := gains
  have found : fresh ∈ places level := ⟨_, hfresh⟩
  have ne := ne_nil_of_mem_places found
  refine ⟨before.length :: fresh, ?_, ?_, ?_⟩
  · rwa [labelAt?_below _ _ _ ne]
  · intro a ha
    constructor
    · by_cases inside : Inside before.length a
      · obtain ⟨rest, ne', rfl⟩ := inside
        have hrest := (mem_places_inside before after ne').1 ha
        rw [within_inside ne']
        exact fun same => (others rest hrest).1 (List.cons.inj same).2
      · rw [within_outside inside]
        rintro rfl
        exact inside (inside_cons ne)
    · exact labelAt?_within before after span tags h ha fun rest hrest _ => (others rest hrest).2
  · rintro b ⟨hb, other⟩
    refine exists_within before after span tags (fun b => b ≠ before.length :: fresh) ?_ hb other
    intro rest hrest ne'
    exact reached ⟨hrest, fun same => ne' (by rw [Set.mem_singleton_iff.1 same])⟩

end

theorem frame_regroup (new : TaggedSpan) (around : Node → Bool) (level : Forest) :
    Carries level (level.filter (!around ·) ++ [⟨new.span, [new.tag], level.filter around⟩]) (regroup around level) ∧
      GainsNode new level (level.filter (!around ·) ++ [⟨new.span, [new.tag], level.filter around⟩])
        (regroup around level) := by
  refine ⟨⟨?_, ?_, ?_⟩, [(level.filter (!around ·)).length], labelAt?_own _ _ _, ?_, ?_⟩
  · intro a ha
    obtain ⟨i, rest, n, rfl, hi⟩ := exists_root ha
    exact (places_regroup _ _ hi rest).2 ha
  · intro a ha b hb
    obtain ⟨i, rest, m, rfl, hi⟩ := exists_root ha
    obtain ⟨j, rest', n, rfl, hj⟩ := exists_root hb
    exact regroup_prefix_iff hi hj rest rest'
  · intro parent i j ha hb other i' j' movedI movedJ
    obtain ⟨k, rest, m, hk, hm⟩ := exists_root ha
    obtain ⟨l, rest', n, hl, hn⟩ := exists_root hb
    cases parent with
    | nil =>
      obtain rfl : i = k := (List.cons.inj hk).1
      obtain rfl : j = l := (List.cons.inj hl).1
      exact regroup_order hm hn movedI movedJ
    | cons x parent =>
      obtain rfl : x = k := (List.cons.inj hk).1
      exact regroup_order_below hm parent movedI movedJ
  · intro a ha
    obtain ⟨i, rest, n, rfl, hi⟩ := exists_root ha
    refine ⟨regroup_ne hi rest, ?_⟩
    rw [labelAt?, labelAt?, nodeAt?_regroup _ _ hi]
  · rintro b ⟨hb, other⟩
    exact exists_regroup hb other

theorem Inserts.frame (h : Inserts new forest result) :
    ∃ move, Carries forest result move ∧ (GainsTag new forest result move ∨ GainsNode new forest result move) := by
  induction h with
  | merge before after tags children free =>
    obtain ⟨carries, gains⟩ := frame_merge new before after tags children
    exact ⟨id, carries, .inl gains⟩
  | descend before after span tags children level free contained ne below ih =>
    obtain ⟨move, carries, gains⟩ := ih
    exact ⟨within before.length move, carries.within before after span tags,
      gains.imp (GainsTag.within before after span tags carries) (GainsNode.within before after span tags carries)⟩
  | enclose level free uncrossed =>
    obtain ⟨carries, gains⟩ := frame_regroup new (fun n => new.span.contains n.span) level
    exact ⟨_, carries, .inr gains⟩

/-- One more insertion into a forest that any run of insertions made, with any span. Each node is found again with
    its span and its tags, two nodes in two places, below the same nodes and beside its siblings in their order.
    Beyond that either one node with the new span has the new tag behind its tags, or there is one node more. -/
theorem insert_frame {calls : List TaggedSpan} {new : TaggedSpan} {result : Forest}
    (h : insert new (Run.of calls).forest = .ok result) : ∃ move,
      Carries (Run.of calls).forest result move ∧ Set.InjOn move (places (Run.of calls).forest) ∧
      (GainsTag new (Run.of calls).forest result move ∨ GainsNode new (Run.of calls).forest result move) := by
  obtain ⟨move, carries, gains⟩ := (inserts_of_insert h).frame
  exact ⟨move, carries, carries.injOn, gains⟩

/-- A span that stops before it starts lies in both of two ranges that are apart, and comes to be in each. -/
def doubled : List TaggedSpan :=
  [⟨⟨4, 8⟩, .specifier none⟩, ⟨⟨5, 3⟩, .localName none⟩, ⟨⟨0, 4⟩, .specifier none⟩, ⟨⟨4, 9⟩, .statement .static⟩,
    ⟨⟨5, 3⟩, .localName none⟩]

theorem insert_frame_doubled : ∃ result, spans (Run.of doubled).forest = [⟨0, 4⟩, ⟨5, 3⟩, ⟨4, 9⟩, ⟨4, 8⟩, ⟨5, 3⟩] ∧
    insert ⟨⟨4, 5⟩, .assertion⟩ (Run.of doubled).forest = .ok result ∧ ∃ move,
      Carries (Run.of doubled).forest result move ∧ Set.InjOn move (places (Run.of doubled).forest) ∧
      (GainsTag ⟨⟨4, 5⟩, .assertion⟩ (Run.of doubled).forest result move ∨
        GainsNode ⟨⟨4, 5⟩, .assertion⟩ (Run.of doubled).forest result move) := by
  obtain ⟨result, h⟩ : ∃ result, insert ⟨⟨4, 5⟩, .assertion⟩ (Run.of doubled).forest = .ok result := ⟨_, rfl⟩
  exact ⟨result, rfl, h, insert_frame h⟩

end Forest
end AnnotatedSource
