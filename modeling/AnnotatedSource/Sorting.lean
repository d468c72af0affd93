set_option autoImplicit false

namespace AnnotatedSource.Sorting

variable {α : Type}

/-- Before the first item that need not come earlier. -/
def place (le : α → α → Bool) (x : α) : List α → List α
  | [] => [x]
  | y :: rest => if le x y then x :: y :: rest else y :: place le x rest

def sort (le : α → α → Bool) : List α → List α
  | [] => []
  | x :: rest => place le x (sort le rest)

theorem place_perm (le : α → α → Bool) (x : α) (items : List α) :
    (place le x items).Perm (x :: items) := by
  induction items with
  | nil => exact .refl _
  | cons y rest ih =>
    unfold place
    split
    · exact .refl _
    · exact (ih.cons y).trans (.swap x y rest)

theorem sort_perm (le : α → α → Bool) (items : List α) : (sort le items).Perm items := by
  induction items with
  | nil => exact .refl _
  | cons x rest ih => exact (place_perm le x _).trans (ih.cons x)

theorem place_pairwise {le : α → α → Bool} (trans : ∀ a b c, le a b → le b c → le a c)
    (total : ∀ a b, le a b || le b a) (x : α) {items : List α} (h : items.Pairwise (le · ·)) :
    (place le x items).Pairwise (le · ·) := by
  induction items with
  | nil => simp [place]
  | cons y rest ih =>
    obtain ⟨hy, hrest⟩ := List.pairwise_cons.1 h
    unfold place
    split
    · next hle =>
      refine List.pairwise_cons.2 ⟨fun z hz => ?_, h⟩
      rcases List.mem_cons.1 hz with rfl | hz
      · exact hle
      · exact trans _ _ _ hle (hy z hz)
    · next hle =>
      refine List.pairwise_cons.2 ⟨fun z hz => ?_, ih hrest⟩
      rcases List.mem_cons.1 ((place_perm le x rest).mem_iff.1 hz) with rfl | hz
      · have := total z y
        simp_all
      · exact hy z hz

theorem sort_pairwise {le : α → α → Bool} (trans : ∀ a b c, le a b → le b c → le a c)
    (total : ∀ a b, le a b || le b a) (items : List α) : (sort le items).Pairwise (le · ·) := by
  induction items with
  | nil => exact .nil
  | cons x rest ih => exact place_pairwise trans total x ih

theorem sort_pairwise_key {le : α → α → Bool} (key : α → Nat)
    (hle : ∀ a b, le a b = decide (key a ≤ key b)) (items : List α) :
    (sort le items).Pairwise (key · ≤ key ·) := by
  have trans : ∀ a b c, le a b → le b c → le a c := by
    intro a b c hab hbc
    simp only [hle, decide_eq_true_eq] at *
    omega
  have total : ∀ a b, le a b || le b a := by
    intro a b
    simp only [hle, Bool.or_eq_true, decide_eq_true_eq]
    omega
  exact (sort_pairwise trans total items).imp fun h => by simpa [hle] using h

theorem sort_eq_self {le : α → α → Bool} {items : List α} (h : items.Pairwise (le · ·)) :
    sort le items = items := by
  induction items with
  | nil => rfl
  | cons x rest ih =>
    obtain ⟨hx, hrest⟩ := List.pairwise_cons.1 h
    rw [sort, ih hrest]
    cases rest with
    | nil => rfl
    | cons y rest => simp [place, hx y (List.mem_cons_self ..)]

theorem sort_sort {le : α → α → Bool} (key : α → Nat) (hle : ∀ a b, le a b = decide (key a ≤ key b))
    (items : List α) : sort le (sort le items) = sort le items :=
  sort_eq_self ((sort_pairwise_key key hle items).imp fun h => by simpa [hle] using h)

theorem place_map {β : Type} {le : α → α → Bool} {le' : β → β → Bool} {f : α → β}
    (same : ∀ a b, le' (f a) (f b) = le a b) (x : α) (items : List α) :
    place le' (f x) (items.map f) = (place le x items).map f := by
  induction items with
  | nil => rfl
  | cons y rest ih =>
    simp only [List.map_cons, place, same]
    split
    · rfl
    · rw [ih, List.map_cons]

theorem sort_map {β : Type} {le : α → α → Bool} {le' : β → β → Bool} {f : α → β}
    (same : ∀ a b, le' (f a) (f b) = le a b) (items : List α) :
    sort le' (items.map f) = (sort le items).map f := by
  induction items with
  | nil => rfl
  | cons x rest ih => rw [List.map_cons, sort, ih, place_map same, sort]

theorem sort_eq_of_perm {le : α → α → Bool} (key : α → Nat) (hle : ∀ a b, le a b = decide (key a ≤ key b))
    {items others : List α} (perm : items.Perm others)
    (distinct : ∀ a ∈ items, ∀ b ∈ items, key a = key b → a = b) : sort le items = sort le others := by
  have mem {a : α} (h : a ∈ sort le items) : a ∈ items := (sort_perm le items).mem_iff.1 h
  have moved : (sort le items).Perm (sort le others) :=
    (sort_perm le items).trans (perm.trans (sort_perm le others).symm)
  refine moved.eq_of_pairwise ?_ (sort_pairwise_key key hle items) (sort_pairwise_key key hle others)
  intro a b ha hb hab hba
  exact distinct a (mem ha) b (mem (moved.mem_iff.2 hb)) (Nat.le_antisymm hab hba)

theorem sort_eq_of_antisymm {le : α → α → Bool} (trans : ∀ a b c, le a b → le b c → le a c)
    (total : ∀ a b, le a b || le b a) (antisymm : ∀ a b, le a b → le b a → a = b) {items others : List α}
    (perm : items.Perm others) : sort le items = sort le others := by
  have moved : (sort le items).Perm (sort le others) :=
    (sort_perm le items).trans (perm.trans (sort_perm le others).symm)
  exact moved.eq_of_pairwise (fun a b _ _ => antisymm a b) (sort_pairwise trans total items)
    (sort_pairwise trans total others)

theorem place_filter {le : α → α → Bool} {p : α → Bool} (tied : ∀ a b, p a → p b → le a b) (x : α)
    (items : List α) : (place le x items).filter p = (x :: items).filter p := by
  induction items with
  | nil => rfl
  | cons y rest ih =>
    unfold place
    split
    · rfl
    · next hle =>
      -- x passes y, so they are not both kept
      have apart : ¬ (p x = true ∧ p y = true) := fun h => hle (tied x y h.1 h.2)
      rw [List.filter_cons, ih]
      cases hx : p x <;> cases hy : p y <;> simp_all

/-- Sorting is stable: items of which each may stand before the other keep their order. -/
theorem sort_filter {le : α → α → Bool} {p : α → Bool} (tied : ∀ a b, p a → p b → le a b) (items : List α) :
    (sort le items).filter p = items.filter p := by
  induction items with
  | nil => rfl
  | cons x rest ih => rw [sort, place_filter tied, List.filter_cons, ih, ← List.filter_cons]

end AnnotatedSource.Sorting
