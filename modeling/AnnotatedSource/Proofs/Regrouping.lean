import Mathlib.Data.List.Infix
import Mathlib.Data.Set.Function
import AnnotatedSource.Proofs.Insertion

set_option autoImplicit false

namespace AnnotatedSource

/-- The way from the roots down to a node, by the index at each level. -/
abbrev Address := List Nat

def Node.below? : Node → Address → Option Node
  | n, [] => some n
  | n, i :: rest => n.children[i]?.bind (below? · rest)

namespace Forest

def nodeAt? (forest : Forest) : Address → Option Node
  | [] => none
  | i :: rest => forest[i]?.bind (·.below? rest)

def labelAt? (forest : Forest) (address : Address) : Option (Span × List Tag) :=
  (nodeAt? forest address).map fun n => (n.span, n.tags)

def places (forest : Forest) : Set Address := {address | ∃ label, labelAt? forest address = some label}

variable {forest before after : Forest} {n : Node} {address rest : Address}

theorem below?_of_ne (ne : rest ≠ []) : n.below? rest = nodeAt? n.children rest := by
  cases rest with
  | nil => exact absurd rfl ne
  | cons i rest => rfl

theorem mem_places : address ∈ places forest ↔ ∃ label, labelAt? forest address = some label := Iff.rfl

theorem exists_nodeAt? (h : address ∈ places forest) : ∃ n, nodeAt? forest address = some n := by
  obtain ⟨label, h⟩ := h
  obtain ⟨n, hn, -⟩ := Option.map_eq_some_iff.1 h
  exact ⟨n, hn⟩

theorem ne_nil_of_mem_places (h : address ∈ places forest) : address ≠ [] := by
  rintro rfl
  obtain ⟨n, h⟩ := exists_nodeAt? h
  cases h

theorem nodeAt?_own (before after : Forest) (n : Node) (rest : Address) :
    nodeAt? (before ++ n :: after) (before.length :: rest) = n.below? rest := by
  simp [nodeAt?]

theorem nodeAt?_beside {i : Nat} (ne : i ≠ before.length) (m n : Node) (rest : Address) :
    nodeAt? (before ++ m :: after) (i :: rest) = nodeAt? (before ++ n :: after) (i :: rest) := by
  have same : (before ++ m :: after)[i]? = (before ++ n :: after)[i]? := by
    simp only [List.getElem?_append, List.getElem?_cons]
    split
    · rfl
    · rw [if_neg (by omega), if_neg (by omega)]
  rw [nodeAt?, nodeAt?, same]

theorem labelAt?_own (before after : Forest) (n : Node) :
    labelAt? (before ++ n :: after) [before.length] = some (n.span, n.tags) := by
  rw [labelAt?, nodeAt?_own]
  rfl

theorem labelAt?_below (before after : Forest) (n : Node) (ne : rest ≠ []) :
    labelAt? (before ++ n :: after) (before.length :: rest) = labelAt? n.children rest := by
  rw [labelAt?, nodeAt?_own, below?_of_ne ne, labelAt?]

theorem mem_places_inside (before after : Forest) {n : Node} (ne : rest ≠ []) :
    before.length :: rest ∈ places (before ++ n :: after) ↔ rest ∈ places n.children := by
  simp only [mem_places, labelAt?_below before after n ne]

theorem length_eq_of_siblings {a b other : Address} {i j : Nat} (ha : a = other ++ [i]) (hb : b = other ++ [j]) :
    a.length = b.length := by
  rw [ha, hb, List.length_append, List.length_append]
  rfl

theorem index_order (parent : Address) {other : Address} {i j i' j' : Nat} (hi : parent ++ [i] = other ++ [i'])
    (hj : parent ++ [j] = other ++ [j']) : i < j ↔ i' < j' := by
  obtain ⟨-, same⟩ := List.append_inj' hi rfl
  obtain ⟨-, same'⟩ := List.append_inj' hj rfl
  cases same
  cases same'
  rfl

end Forest

section

variable {α : Type} {p : α → Bool} {items : List α} {x y : α}

/-- How many items before an index are kept, which is the index of the item there once others are left out. -/
def rank (p : α → Bool) (items : List α) (i : Nat) : Nat := (items.take i).countP p

theorem getElem?_eq_some_iff_append {i : Nat} :
    items[i]? = some x ↔ ∃ before after, items = before ++ x :: after ∧ before.length = i := by
  constructor
  · intro h
    obtain ⟨hi, rfl⟩ := List.getElem?_eq_some_iff.1 h
    exact ⟨items.take i, items.drop (i + 1), by simp, by simp; omega⟩
  · rintro ⟨before, after, rfl, rfl⟩
    simp

theorem getElem?_filter_rank {i : Nat} (h : items[i]? = some x) (hx : p x) :
    (items.filter p)[rank p items i]? = some x := by
  obtain ⟨before, after, rfl, rfl⟩ := getElem?_eq_some_iff_append.1 h
  simp [rank, List.countP_eq_length_filter, hx]

theorem rank_lt_length {i : Nat} (h : items[i]? = some x) (hx : p x) : rank p items i < (items.filter p).length :=
  (List.getElem?_eq_some_iff.1 (getElem?_filter_rank h hx)).1

theorem rank_lt_rank {i j : Nat} (hlt : i < j) (h : items[i]? = some x) (hx : p x) :
    rank p items i < rank p items j := by
  obtain ⟨before, after, rfl, rfl⟩ := getElem?_eq_some_iff_append.1 h
  obtain ⟨k, rfl⟩ := Nat.exists_eq_add_of_lt hlt
  have taken : (before ++ x :: after).take (before.length + k + 1) = before ++ x :: after.take k := by
    rw [Nat.add_assoc, List.take_length_add_append, List.take_succ_cons]
  rw [rank, rank, taken, List.take_left, List.countP_append, List.countP_cons_of_pos hx]
  omega

theorem rank_lt_rank_iff {i j : Nat} (hi : items[i]? = some x) (hj : items[j]? = some y) (hx : p x) (hy : p y) :
    rank p items i < rank p items j ↔ i < j := by
  constructor
  · intro h
    by_contra hle
    rcases Nat.lt_or_eq_of_le (Nat.not_lt.1 hle) with hlt | rfl
    · exact absurd (rank_lt_rank hlt hj hy) (by omega)
    · omega
  · intro hlt
    exact rank_lt_rank hlt hi hx

theorem rank_inj {i j : Nat} (hi : items[i]? = some x) (hj : items[j]? = some y) (hx : p x) (hy : p y) :
    rank p items i = rank p items j ↔ i = j := by
  have lower := rank_lt_rank_iff hi hj hx hy
  have upper := rank_lt_rank_iff hj hi hy hx
  omega

theorem exists_rank {k : Nat} (h : (items.filter p)[k]? = some x) :
    ∃ i, items[i]? = some x ∧ p x ∧ rank p items i = k := by
  obtain ⟨before, after, hsplit, rfl⟩ := getElem?_eq_some_iff_append.1 h
  obtain ⟨first, second, rfl, rfl, hsecond⟩ := List.filter_eq_append_iff.1 hsplit
  obtain ⟨skipped, last, rfl, none, hx, -⟩ := List.filter_eq_cons_iff.1 hsecond
  refine ⟨(first ++ skipped).length, by simp, hx, ?_⟩
  have empty : skipped.countP p = 0 := List.countP_eq_zero.2 none
  rw [rank, ← List.append_assoc, List.take_left, List.countP_append, empty, List.countP_eq_length_filter]
  rfl

end

namespace Forest

section

variable (around : Node → Bool) (level : Forest)

/-- Where roots stand after some of them were moved below a new last root. -/
def regroup : Address → Address
  | [] => []
  | i :: rest =>
    if level[i]?.any around then (level.filter (!around ·)).length :: rank around level i :: rest
    else rank (!around ·) level i :: rest

variable {around level} {i j : Nat} {rest : Address} {m n : Node}

theorem regroup_moved (hi : level[i]? = some n) (hn : around n) :
    regroup around level (i :: rest) = (level.filter (!around ·)).length :: rank around level i :: rest := by
  rw [regroup, hi, Option.any_some, if_pos hn]

theorem regroup_kept (hi : level[i]? = some n) (hn : ¬ around n) :
    regroup around level (i :: rest) = rank (!around ·) level i :: rest := by
  rw [regroup, hi, Option.any_some, if_neg hn]

theorem nodeAt?_regroup (span : Span) (tags : List Tag) (hi : level[i]? = some n) (rest : Address) :
    nodeAt? (level.filter (!around ·) ++ [⟨span, tags, level.filter around⟩]) (regroup around level (i :: rest)) =
      nodeAt? level (i :: rest) := by
  by_cases hn : around n
  · have moved := getElem?_filter_rank hi hn
    rw [regroup_moved hi hn, nodeAt?_own, below?_of_ne (by simp), nodeAt?, nodeAt?, moved, hi]
  · have kept := getElem?_filter_rank (p := fun n => !around n) hi (by simpa using hn)
    have early := rank_lt_length (p := fun n => !around n) hi (by simpa using hn)
    rw [regroup_kept hi hn, nodeAt?, nodeAt?, List.getElem?_append_left early, kept, hi]

theorem regroup_prefix_iff (hi : level[i]? = some m) (hj : level[j]? = some n) (a b : Address) :
    i :: a <+: j :: b ↔ regroup around level (i :: a) <+: regroup around level (j :: b) := by
  by_cases hm : around m <;> by_cases hn : around n
  · rw [regroup_moved hi hm, regroup_moved hj hn]
    simp only [List.cons_prefix_cons, true_and, rank_inj hi hj hm hn]
  · have early := rank_lt_length (p := fun n => !around n) hj (by simpa using hn)
    rw [regroup_moved hi hm, regroup_kept hj hn, List.cons_prefix_cons, List.cons_prefix_cons]
    refine iff_of_false (fun h => ?_) fun h => absurd h.1 (by omega)
    obtain rfl := h.1
    cases hi.symm.trans hj
    exact hn hm
  · have early := rank_lt_length (p := fun n => !around n) hi (by simpa using hm)
    rw [regroup_kept hi hm, regroup_moved hj hn, List.cons_prefix_cons, List.cons_prefix_cons]
    refine iff_of_false (fun h => ?_) fun h => absurd h.1 (by omega)
    obtain rfl := h.1
    cases hi.symm.trans hj
    exact hm hn
  · have same := rank_inj (p := fun n => !around n) hi hj (by simpa using hm) (by simpa using hn)
    rw [regroup_kept hi hm, regroup_kept hj hn, List.cons_prefix_cons, List.cons_prefix_cons, same]

theorem regroup_order (hi : level[i]? = some m) (hj : level[j]? = some n) {other : Address} {i' j' : Nat}
    (movedI : regroup around level [i] = other ++ [i']) (movedJ : regroup around level [j] = other ++ [j']) :
    i < j ↔ i' < j' := by
  by_cases hm : around m <;> by_cases hn : around n
  · rw [regroup_moved hi hm] at movedI
    rw [regroup_moved hj hn] at movedJ
    rw [← rank_lt_rank_iff hi hj hm hn]
    exact index_order [_] movedI movedJ
  · -- one of the two has moved down, so they are siblings no longer
    rw [regroup_moved hi hm] at movedI
    rw [regroup_kept hj hn] at movedJ
    have lengths := length_eq_of_siblings movedI movedJ
    simp at lengths
  · rw [regroup_kept hi hm] at movedI
    rw [regroup_moved hj hn] at movedJ
    have lengths := length_eq_of_siblings movedI movedJ
    simp at lengths
  · rw [regroup_kept hi hm] at movedI
    rw [regroup_kept hj hn] at movedJ
    rw [← rank_lt_rank_iff (p := fun n => !around n) hi hj (by simpa using hm) (by simpa using hn)]
    exact index_order [] movedI movedJ

theorem exists_root {a : Address} (h : a ∈ places level) : ∃ i rest n, a = i :: rest ∧ level[i]? = some n := by
  obtain ⟨m, hm⟩ := exists_nodeAt? h
  cases a with
  | nil => cases hm
  | cons i rest =>
    obtain ⟨n, hn, -⟩ := Option.bind_eq_some_iff.1 hm
    exact ⟨i, rest, n, rfl, hn⟩

theorem places_regroup (span : Span) (tags : List Tag) (hi : level[i]? = some n) (rest : Address) :
    regroup around level (i :: rest) ∈ places (level.filter (!around ·) ++ [⟨span, tags, level.filter around⟩]) ↔
      i :: rest ∈ places level := by
  rw [mem_places, mem_places, labelAt?, labelAt?, nodeAt?_regroup span tags hi]

theorem exists_regroup {span : Span} {tags : List Tag} {b : Address}
    (hb : b ∈ places (level.filter (!around ·) ++ [⟨span, tags, level.filter around⟩]))
    (other : b ≠ [(level.filter (!around ·)).length]) : ∃ a ∈ places level, regroup around level a = b := by
  obtain ⟨k, rest, n, rfl, hk⟩ := exists_root hb
  have found : ∃ i rest' m, level[i]? = some m ∧ regroup around level (i :: rest') = k :: rest := by
    rcases Nat.lt_or_ge k (level.filter (!around ·)).length with early | late
    · rw [List.getElem?_append_left early] at hk
      obtain ⟨i, hi, hn, rfl⟩ := exists_rank hk
      exact ⟨i, rest, n, hi, regroup_kept hi (by simpa using hn)⟩
    · have last : k = (level.filter (!around ·)).length := by
        have bound := (List.getElem?_eq_some_iff.1 hk).1
        simp only [List.length_append, List.length_cons, List.length_nil] at bound
        omega
      subst last
      have below : rest ≠ [] := fun empty => other (by rw [empty])
      obtain ⟨i', rest', m, rfl, hi'⟩ := exists_root ((mem_places_inside _ [] below).1 hb)
      obtain ⟨i, hi, hm, rfl⟩ := exists_rank hi'
      exact ⟨i, rest', m, hi, regroup_moved hi hm⟩
  obtain ⟨i, rest', m, hi, heq⟩ := found
  rw [← heq] at hb
  exact ⟨i :: rest', (places_regroup span tags hi rest').1 hb, heq⟩

theorem regroup_ne (hi : level[i]? = some n) (rest : Address) :
    regroup around level (i :: rest) ≠ [(level.filter (!around ·)).length] := by
  by_cases hn : around n
  · rw [regroup_moved hi hn]
    simp
  · have early := rank_lt_length (p := fun n => !around n) hi (by simpa using hn)
    rw [regroup_kept hi hn]
    intro same
    exact absurd (List.cons.inj same).1 (by omega)

theorem regroup_order_below (hi : level[i]? = some n) (parent : Address) {other : Address} {k l k' l' : Nat}
    (movedK : regroup around level (i :: (parent ++ [k])) = other ++ [k'])
    (movedL : regroup around level (i :: (parent ++ [l])) = other ++ [l']) : k < l ↔ k' < l' := by
  by_cases hn : around n
  · rw [regroup_moved hi hn] at movedK movedL
    exact index_order (_ :: _ :: parent) movedK movedL
  · rw [regroup_kept hi hn] at movedK movedL
    exact index_order (_ :: parent) movedK movedL

end

end Forest
end AnnotatedSource
