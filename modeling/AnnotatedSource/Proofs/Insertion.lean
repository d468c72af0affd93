import Mathlib.Logic.Relation
import AnnotatedSource.Forest

set_option autoImplicit false

namespace AnnotatedSource

def Node.IsAncestor (m n : Node) : Prop := Relation.TransGen (fun parent child => child ∈ parent.children) m n

namespace Forest

theorem induction {P : Forest → Prop} (nil : P [])
    (cons : ∀ n rest, P n.children → P rest → P (n :: rest)) : ∀ forest, P forest
  | [] => nil
  | ⟨span, tags, children⟩ :: rest =>
    cons ⟨span, tags, children⟩ rest (induction nil cons children) (induction nil cons rest)

/-- What follows for a level from the levels right below it holds of every forest. -/
theorem level_induction {P : Forest → Prop} (level : ∀ forest, (∀ n ∈ forest, P n.children) → P forest)
    (forest : Forest) : P forest := by
  have h : P forest ∧ ∀ n ∈ forest, P n.children := by
    induction forest using induction with
    | nil => exact ⟨level [] (by simp), by simp⟩
    | cons n rest below ahead =>
      have all : ∀ m ∈ n :: rest, P m.children := by
        intro m hm
        rcases List.mem_cons.1 hm with rfl | hm
        · exact below.1
        · exact ahead.2 m hm
      exact ⟨level _ all, all⟩
  exact h.1

def nodes (forest : Forest) : List Node := (preorder forest).map (·.2)

def levels (forest : Forest) : List Forest := forest :: (nodes forest).map (·.children)

def spans (forest : Forest) : List Span := (nodes forest).map (·.span)

theorem preorderFrom_snd (depth depth' : Nat) (forest : Forest) :
    (preorderFrom depth forest).map (·.2) = (preorderFrom depth' forest).map (·.2) := by
  induction forest using induction generalizing depth depth' with
  | nil => rfl
  | cons n rest below ahead =>
    obtain ⟨span, tags, children⟩ := n
    simp only [preorderFrom, preorderNode, List.map_append, List.map_cons]
    rw [below (depth + 1) (depth' + 1), ahead depth depth']

@[simp] theorem nodes_nil : nodes [] = [] := rfl

@[simp] theorem nodes_cons (n : Node) (rest : Forest) :
    nodes (n :: rest) = n :: (nodes n.children ++ nodes rest) := by
  obtain ⟨span, tags, children⟩ := n
  simp only [nodes, preorder, preorderFrom, preorderNode, List.map_append, List.map_cons, List.cons_append]
  rw [preorderFrom_snd (0 + 1) 0]

@[simp] theorem nodes_append (a b : Forest) : nodes (a ++ b) = nodes a ++ nodes b := by
  induction a with
  | nil => rfl
  | cons n a ih => simp [ih]

theorem nodes_eq_flatMap (forest : Forest) : nodes forest = forest.flatMap fun n => n :: nodes n.children := by
  induction forest with
  | nil => rfl
  | cons n rest ih => simp [ih]

theorem nodes_perm {a b : Forest} (h : a.Perm b) : (nodes a).Perm (nodes b) := by
  rw [nodes_eq_flatMap, nodes_eq_flatMap]
  exact h.flatMap_right _

theorem mem_nodes {m : Node} {forest : Forest} :
    m ∈ nodes forest ↔ ∃ n ∈ forest, m = n ∨ m ∈ nodes n.children := by
  rw [nodes_eq_flatMap]
  simp only [List.mem_flatMap, List.mem_cons]

theorem mem_nodes_of_mem {n : Node} {forest : Forest} (h : n ∈ forest) : n ∈ nodes forest :=
  mem_nodes.2 ⟨n, h, .inl rfl⟩

theorem forall_nodes {P : Node → Prop} {forest : Forest} :
    (∀ m ∈ nodes forest, P m) ↔ ∀ n ∈ forest, P n ∧ ∀ m ∈ nodes n.children, P m := by
  constructor
  · intro h n hn
    exact ⟨h n (mem_nodes_of_mem hn), fun m hm => h m (mem_nodes.2 ⟨n, hn, .inr hm⟩)⟩
  · intro h m hm
    obtain ⟨n, hn, rfl | hm⟩ := mem_nodes.1 hm
    · exact (h m hn).1
    · exact (h n hn).2 m hm

theorem nodes_children_subset {n : Node} {forest : Forest} (h : n ∈ nodes forest) :
    ∀ m ∈ nodes n.children, m ∈ nodes forest := by
  induction forest using level_induction with
  | level forest ih =>
    intro m hm
    obtain ⟨r, hr, rfl | hn⟩ := mem_nodes.1 h
    · exact mem_nodes.2 ⟨n, hr, .inr hm⟩
    · exact mem_nodes.2 ⟨r, hr, .inr (ih r hr hn m hm)⟩

theorem isAncestor_iff {m n : Node} : m.IsAncestor n ↔ n ∈ nodes m.children := by
  constructor
  · intro h
    induction h with
    | single hc => exact mem_nodes_of_mem hc
    | tail _ hc ih => exact nodes_children_subset ih _ (mem_nodes_of_mem hc)
  · obtain ⟨span, tags, children⟩ := m
    show n ∈ nodes children → _
    induction children using level_induction generalizing span tags with
    | level children ih =>
      intro h
      obtain ⟨⟨span', tags', children'⟩, hc, rfl | hn⟩ := mem_nodes.1 h
      · exact .single hc
      · exact .head hc (ih _ hc span' tags' hn)

theorem forall_levels {P : Forest → Prop} {forest : Forest} :
    (∀ level ∈ levels forest, P level) ↔ P forest ∧ ∀ n ∈ forest, ∀ level ∈ levels n.children, P level := by
  rw [levels, List.forall_mem_cons, List.forall_mem_map, forall_nodes]
  simp only [levels, List.forall_mem_cons, List.forall_mem_map]

theorem size_eq_length (forest : Forest) : size forest = (nodes forest).length := by
  induction forest using induction with
  | nil => rfl
  | cons n rest below ahead =>
    obtain ⟨span, tags, children⟩ := n
    simp only [size, nodeSize, nodes_cons, List.length_cons, List.length_append, below, ahead]
    omega

def labels (forest : Forest) : List (Span × List Tag) := (nodes forest).map fun n => (n.span, n.tags)

@[simp] theorem labels_nil : labels [] = [] := rfl

@[simp] theorem labels_cons (n : Node) (rest : Forest) :
    labels (n :: rest) = (n.span, n.tags) :: (labels n.children ++ labels rest) := by
  simp [labels]

@[simp] theorem labels_append (a b : Forest) : labels (a ++ b) = labels a ++ labels b := by simp [labels]

theorem labels_perm {a b : Forest} (h : a.Perm b) : (labels a).Perm (labels b) := (nodes_perm h).map _

theorem labels_fst (forest : Forest) : (labels forest).map (·.1) = spans forest := by
  simp [labels, spans, Function.comp_def]

theorem mem_spans_iff {s : Span} {forest : Forest} : s ∈ spans forest ↔ ∃ n ∈ nodes forest, n.span = s := by
  simp [spans]

theorem taggedSpans_eq_flatMap (forest : Forest) :
    taggedSpans forest = (labels forest).flatMap fun label => label.2.map (⟨label.1, ·⟩) := by
  simp only [taggedSpans, labels, nodes, List.map_map, List.flatMap_map, Function.comp_def]

variable {new : TaggedSpan}

def Free (span : Span) (level : Forest) : Prop := ∀ n ∈ level, ¬ n.span.contains span

/-- All that a successful insertion can do. -/
inductive Inserts (new : TaggedSpan) : Forest → Forest → Prop
  | merge (before after : Forest) (tags : List Tag) (children : Forest) (free : Free new.span before) :
      Inserts new (before ++ ⟨new.span, tags, children⟩ :: after)
        (before ++ ⟨new.span, tags ++ [new.tag], children⟩ :: after)
  | descend (before after : Forest) (span : Span) (tags : List Tag) (children result : Forest)
      (free : Free new.span before) (contained : span.contains new.span) (ne : span ≠ new.span)
      (below : Inserts new children result) :
      Inserts new (before ++ ⟨span, tags, children⟩ :: after) (before ++ ⟨span, tags, result⟩ :: after)
  | enclose (level : Forest) (free : Free new.span level)
      (uncrossed : ∀ n ∈ level, ¬ n.span.crosses new.span) :
      Inserts new level (level.filter (fun n => !new.span.contains n.span) ++
        [⟨new.span, [new.tag], level.filter fun n => new.span.contains n.span⟩])

/-- How an insertion can fail: where the search for a container ends, a first sibling crosses the span. -/
inductive Refuses (new : TaggedSpan) : Forest → Crossing → Prop
  | descend (before after : Forest) (span : Span) (tags : List Tag) (children : Forest) (spans : Crossing)
      (free : Free new.span before) (contained : span.contains new.span) (ne : span ≠ new.span)
      (below : Refuses new children spans) : Refuses new (before ++ ⟨span, tags, children⟩ :: after) spans
  | crossed (before after : Forest) (n : Node) (free : Free new.span (before ++ n :: after))
      (uncrossed : ∀ m ∈ before, ¬ m.span.crosses new.span) (crosses : n.span.crosses new.span) :
      Refuses new (before ++ n :: after) ⟨n.span, new.span⟩

def Outcome (new : TaggedSpan) (forest : Forest) : Option Crossing × Forest → Prop
  | (none, result) => Inserts new forest result
  | (some spans, result) => result = forest ∧ Refuses new forest spans

theorem insertBelow_of_free {forest : Forest} (h : Free new.span forest) : insertBelow new forest = none := by
  induction forest with
  | nil => rfl
  | cons n rest ih =>
    obtain ⟨hn, hrest⟩ := List.forall_mem_cons.1 h
    rw [insertBelow, if_neg hn, ih hrest]
    rfl

theorem insertBelow_of_contains {before after : Forest} {n : Node} (free : Free new.span before)
    (contained : n.span.contains new.span) : insertBelow new (before ++ n :: after) =
      some ((insertWithin new n).1, before ++ (insertWithin new n).2 :: after) := by
  induction before with
  | nil => simp [insertBelow, contained]
  | cons m before ih =>
    obtain ⟨hm, hbefore⟩ := List.forall_mem_cons.1 free
    rw [List.cons_append, insertBelow, if_neg hm, ih hbefore]
    rfl

theorem insertWithin_eq (span : Span) (tags : List Tag) (children : Forest) :
    insertWithin new ⟨span, tags, children⟩ =
      if span = new.span then (none, ⟨span, tags ++ [new.tag], children⟩)
      else ((attempt new children).1, ⟨span, tags, (attempt new children).2⟩) := by
  rw [insertWithin, attempt]
  cases insertBelow new children <;> rfl

theorem attempt_of_free {forest : Forest} (free : Free new.span forest) :
    attempt new forest = enclose new forest := by
  rw [attempt, insertBelow_of_free free]

theorem attempt_of_contains {before after : Forest} {n : Node} (free : Free new.span before)
    (contained : n.span.contains new.span) : attempt new (before ++ n :: after) =
      ((insertWithin new n).1, before ++ (insertWithin new n).2 :: after) := by
  rw [attempt, insertBelow_of_contains free contained]

theorem free_or_container (span : Span) (forest : Forest) : Free span forest ∨
    ∃ before n after, forest = before ++ n :: after ∧ Free span before ∧ n.span.contains span := by
  induction forest with
  | nil => exact .inl (by simp [Free])
  | cons n rest ih =>
    by_cases hn : n.span.contains span
    · exact .inr ⟨[], n, rest, rfl, by simp [Free], hn⟩
    · rcases ih with hrest | ⟨before, m, after, rfl, hbefore, hm⟩
      · exact .inl (List.forall_mem_cons.2 ⟨hn, hrest⟩)
      · exact .inr ⟨n :: before, m, after, rfl, List.forall_mem_cons.2 ⟨hn, hbefore⟩, hm⟩

theorem enclose_outcome {level : Forest} (free : Free new.span level) : Outcome new level (enclose new level) := by
  unfold enclose
  split
  · next sibling hfind =>
    obtain ⟨crosses, before, after, rfl, uncrossed⟩ := List.find?_eq_some_iff_append.1 hfind
    exact ⟨rfl, .crossed before after sibling free (fun m hm => by simpa using uncrossed m hm) crosses⟩
  · next hfind =>
    exact .enclose level free fun n hn => List.find?_eq_none.1 hfind n hn

theorem attempt_outcome (new : TaggedSpan) (forest : Forest) : Outcome new forest (attempt new forest) := by
  induction forest using level_induction with
  | level forest ih =>
    rcases free_or_container new.span forest with free | ⟨before, n, after, rfl, free, contained⟩
    · rw [attempt_of_free free]
      exact enclose_outcome free
    · obtain ⟨span, tags, children⟩ := n
      rw [attempt_of_contains free contained, insertWithin_eq]
      by_cases heq : span = new.span
      · subst heq
        rw [if_pos rfl]
        exact .merge before after tags children free
      · have below : Outcome new children (attempt new children) := ih ⟨span, tags, children⟩ (by simp)
        rw [if_neg heq]
        generalize attempt new children = result at below
        match result, below with
        | (none, result), below => exact .descend before after span tags children result free contained heq below
        | (some spans, _), ⟨rfl, below⟩ =>
          exact ⟨rfl, .descend before after span tags _ spans free contained heq below⟩

theorem insert_eq_ok_iff {forest result : Forest} :
    insert new forest = .ok result ↔ attempt new forest = (none, result) := by
  unfold insert
  rcases attempt new forest with ⟨_ | spans, left⟩ <;> simp

theorem inserts_of_insert {forest result : Forest} (h : insert new forest = .ok result) :
    Inserts new forest result := by
  have outcome := attempt_outcome new forest
  rwa [insert_eq_ok_iff.1 h] at outcome

theorem refuses_of_insert {forest : Forest} {spans : Crossing} (h : insert new forest = .error spans) :
    Refuses new forest spans := by
  have outcome := attempt_outcome new forest
  unfold insert at h
  rcases hr : attempt new forest with ⟨_ | spans, left⟩ <;> rw [hr] at h outcome
  · cases h
  · cases h
    exact outcome.2

theorem attempt_unchanged {forest left : Forest} {spans : Crossing}
    (h : attempt new forest = (some spans, left)) : left = forest := by
  have outcome := attempt_outcome new forest
  rw [h] at outcome
  exact outcome.1

theorem Inserts.labels_cases {forest result : Forest} (h : Inserts new forest result) :
    (∃ before tags after, labels forest = before ++ (new.span, tags) :: after ∧
      labels result = before ++ (new.span, tags ++ [new.tag]) :: after) ∨
    (labels result).Perm ((new.span, [new.tag]) :: labels forest) := by
  induction h with
  | merge before after tags children free =>
    exact .inl ⟨labels before, tags, labels children ++ labels after, by simp, by simp⟩
  | descend before after span tags children result free contained ne below ih =>
    rcases ih with ⟨front, old, back, hold, hnew⟩ | hperm
    · refine .inl ⟨labels before ++ (span, tags) :: front, old, back ++ labels after, ?_, ?_⟩
      · simp [hold]
      · simp [hnew]
    · apply Or.inr
      have moved : (labels result ++ labels after).Perm
          ((new.span, [new.tag]) :: (labels children ++ labels after)) := hperm.append_right _
      simp only [labels_append, labels_cons]
      exact (((moved.cons _).trans (.swap _ _ _)).append_left _).trans List.perm_middle
  | enclose level free uncrossed =>
    apply Or.inr
    simp only [labels_append, labels_cons, labels_nil, List.append_nil]
    apply List.perm_middle.trans
    apply List.Perm.cons
    rw [← labels_append]
    exact labels_perm (List.perm_append_comm.trans (List.filter_append_perm _ level))

theorem Inserts.taggedSpans_perm {forest result : Forest} (h : Inserts new forest result) :
    (taggedSpans result).Perm (taggedSpans forest ++ [new]) := by
  rw [taggedSpans_eq_flatMap, taggedSpans_eq_flatMap]
  rcases h.labels_cases with ⟨before, tags, after, hold, hnew⟩ | hperm
  · simp only [hold, hnew, List.flatMap_append, List.flatMap_cons, List.map_append, List.map_cons,
      List.map_nil, List.append_assoc]
    exact (List.perm_append_comm.append_left _).append_left _
  · exact (hperm.flatMap_right _).trans List.perm_append_comm.symm

end Forest
end AnnotatedSource
