import Mathlib.Data.List.Forall2
import AnnotatedSource.Annotated
import AnnotatedSource.Proofs.Spans

set_option autoImplicit false

namespace AnnotatedSource

theorem bind_eq_ok {ε α β : Type} {x : Except ε α} {f : α → Except ε β} {b : β} :
    (x >>= f) = .ok b ↔ ∃ a, x = .ok a ∧ f a = .ok b := by
  cases x <;> simp [bind, Except.bind]

theorem pure_eq_ok {ε α : Type} {x y : α} : (pure x : Except ε α) = .ok y ↔ y = x := by
  simp [pure, Except.pure, eq_comm]

theorem then_eq_ok {ε α : Type} {first : Except ε Unit} {next : Except ε α} {x : α} :
    (first >>= fun _ => next) = .ok x ↔ first = .ok () ∧ next = .ok x := by
  rw [bind_eq_ok]
  exact ⟨fun ⟨(), h⟩ => h, fun h => ⟨(), h⟩⟩

theorem forM_eq_ok {ε α : Type} {f : α → Except ε Unit} {items : List α} :
    items.forM f = .ok () ↔ ∀ x ∈ items, f x = .ok () := by
  induction items with
  | nil => simp [pure, Except.pure]
  | cons x items ih =>
    rw [List.forall_mem_cons, ← ih]
    exact then_eq_ok

namespace Annotator

theorem check_eq_ok {source : List Char} {mark : TaggedSpan} : check source mark = .ok () ↔
    mark.span.EndsIn (Text.isBoundary source · = true) ∧ mark.span.stop ≤ Text.byteLength source := by
  unfold check Span.EndsIn Span.Upright
  split_ifs with inverted outside start stop
  · simp [Nat.not_le.2 inverted]
  · simp [Nat.not_le.2 outside]
  · simp_all
  · simp_all
  · simp_all

theorem placed_eq_ok {a : Annotator} {source : List Char} {marks placed : List TaggedSpan} :
    a.placed source marks = .ok placed ↔
      a.located source marks = .ok placed ∧ ∀ mark ∈ placed, check source mark = .ok () := by
  unfold Annotator.placed
  simp only [bind_eq_ok, pure, Except.pure, Except.ok.injEq]
  constructor
  · rintro ⟨_, located, ⟨⟩, checked, rfl⟩
    exact ⟨located, forM_eq_ok.1 checked⟩
  · rintro ⟨located, checked⟩
    exact ⟨placed, located, (), forM_eq_ok.2 checked, rfl⟩

theorem nested_eq_ok {marks : List TaggedSpan} {forest : Forest} :
    nested marks = .ok forest ↔ Forest.build marks = .ok forest := by
  unfold nested
  cases Forest.build marks <;> simp

theorem annotate_eq_ok {a : Annotator} {source : String} {r : Recording} {result : Annotated} :
    a.annotate source r = .ok result ↔ ∃ marks placed forest, a.marks r = .ok marks ∧
      a.placed source.toList marks = .ok placed ∧ Forest.build placed = .ok forest ∧
      result = ⟨source, forest.sorted,
        Segment.ofForest a.elide forest.sorted ⟨0, Text.byteLength source.toList⟩, r.facade,
        if a.capabilities.syntaxFlag then r.moduleSyntax else none, a.capabilities⟩ := by
  unfold annotate
  simp only [bind_eq_ok, nested_eq_ok, pure, Except.pure, Except.ok.injEq, @eq_comm _ _ result]
  constructor
  · rintro ⟨marks, hmarks, placed, hplaced, forest, hforest, h⟩
    exact ⟨marks, placed, forest, hmarks, hplaced, hforest, h⟩
  · rintro ⟨marks, placed, forest, hmarks, hplaced, hforest, h⟩
    exact ⟨marks, hmarks, placed, hplaced, forest, hforest, h⟩

end Annotator

variable {ε α β : Type}

/-- The first item that is not good has this fault. -/
inductive FirstFault (good : α → Prop) (fault : α → ε → Prop) : List α → ε → Prop
  | here {x : α} {rest : List α} {e : ε} (bad : ¬ good x) (found : fault x e) :
      FirstFault good fault (x :: rest) e
  | later {x : α} {rest : List α} {e : ε} (passed : good x) (first : FirstFault good fault rest e) :
      FirstFault good fault (x :: rest) e

section

variable {good : α → Prop} {fault : α → ε → Prop} {e : ε}

@[simp] theorem not_firstFault_nil : ¬ FirstFault good fault [] e := by
  rintro ⟨⟩

@[simp] theorem firstFault_cons {x : α} {rest : List α} : FirstFault good fault (x :: rest) e ↔
    (¬ good x ∧ fault x e) ∨ (good x ∧ FirstFault good fault rest e) := by
  constructor
  · rintro (⟨bad, found⟩ | ⟨passed, first⟩)
    · exact .inl ⟨bad, found⟩
    · exact .inr ⟨passed, first⟩
  · rintro (⟨bad, found⟩ | ⟨passed, first⟩)
    · exact .here bad found
    · exact .later passed first

theorem firstFault_append {a b : List α} : FirstFault good fault (a ++ b) e ↔
    FirstFault good fault a e ∨ ((∀ x ∈ a, good x) ∧ FirstFault good fault b e) := by
  induction a with
  | nil => simp
  | cons x a ih =>
    simp only [List.cons_append, firstFault_cons, ih, List.forall_mem_cons]
    tauto

theorem firstFault_map {f : β → α} {items : List β} : FirstFault good fault (items.map f) e ↔
    FirstFault (fun x => good (f x)) (fun x => fault (f x)) items e := by
  induction items with
  | nil => simp
  | cons x items ih => simp only [List.map_cons, firstFault_cons, ih]

theorem firstFault_congr {good' : α → Prop} {fault' : α → ε → Prop} {items : List α}
    (hgood : ∀ x, good x ↔ good' x) (hfault : ∀ x, ¬ good' x → (fault x e ↔ fault' x e)) :
    FirstFault good fault items e ↔ FirstFault good' fault' items e := by
  induction items with
  | nil => simp
  | cons x items ih =>
    rw [firstFault_cons, firstFault_cons, hgood, ih, and_congr_right (hfault x)]

theorem FirstFault.exists_mem {items : List α} (h : FirstFault good fault items e) : ∃ x ∈ items, fault x e := by
  induction h with
  | here bad found => exact ⟨_, List.mem_cons_self, found⟩
  | later passed first ih =>
    obtain ⟨x, mem, found⟩ := ih
    exact ⟨x, List.mem_cons_of_mem _ mem, found⟩

end

theorem bind_eq_error {x : Except ε α} {f : α → Except ε β} {e : ε} :
    (x >>= f) = .error e ↔ x = .error e ∨ ∃ a, x = .ok a ∧ f a = .error e := by
  cases x <;> simp [bind, Except.bind]

theorem then_eq_error {first : Except ε Unit} {next : Except ε α} {e : ε} :
    (first >>= fun _ => next) = .error e ↔ first = .error e ∨ first = .ok () ∧ next = .error e := by
  rw [bind_eq_error]
  exact or_congr_right ⟨fun ⟨(), h⟩ => h, fun h => ⟨(), h⟩⟩

@[simp] theorem pure_ne_error {x : α} {e : ε} : (pure x : Except ε α) ≠ .error e := nofun

theorem mapM_eq_ok {f : α → Except ε β} {items : List α} {results : List β} :
    items.mapM f = .ok results ↔ List.Forall₂ (fun x y => f x = .ok y) items results := by
  induction items generalizing results with
  | nil => simp [pure_eq_ok]
  | cons x items ih =>
    rw [List.mapM_cons]
    simp only [bind_eq_ok, ih, pure_eq_ok, List.forall₂_cons_left_iff]
    constructor
    · rintro ⟨y, hy, rest, hrest, rfl⟩
      exact ⟨y, rest, hy, hrest, rfl⟩
    · rintro ⟨y, rest, hy, hrest, rfl⟩
      exact ⟨y, hy, rest, hrest, rfl⟩

theorem mapM_eq_error {f : α → Except ε β} {items : List α} {e : ε} : items.mapM f = .error e ↔
    FirstFault (fun x => ∃ y, f x = .ok y) (fun x e => f x = .error e) items e := by
  induction items with
  | nil => simp
  | cons x items ih =>
    rw [List.mapM_cons, firstFault_cons, ← ih]
    simp only [bind_eq_error, pure_ne_error, and_false, exists_false, or_false]
    cases f x <;> simp

theorem forM_eq_error {f : α → Except ε Unit} {items : List α} {e : ε} : items.forM f = .error e ↔
    FirstFault (fun x => f x = .ok ()) (fun x e => f x = .error e) items e := by
  induction items with
  | nil => simp
  | cons x items ih =>
    rw [firstFault_cons, ← ih]
    refine then_eq_error.trans (or_congr_left ⟨fun h => ⟨?_, h⟩, And.right⟩)
    simp [h]

theorem mapM_eq_ok_map {f : α → Except ε β} {P : α → Prop} {g : α → β}
    (h : ∀ x y, f x = .ok y ↔ P x ∧ y = g x) {items : List α} {results : List β} :
    items.mapM f = .ok results ↔ (∀ x ∈ items, P x) ∧ results = items.map g := by
  rw [mapM_eq_ok]
  simp only [h]
  induction items generalizing results with
  | nil => simp
  | cons x items ih =>
    simp only [List.forall₂_cons_left_iff, ih, List.forall_mem_cons, List.map_cons]
    constructor
    · rintro ⟨_, _, ⟨hx, rfl⟩, ⟨hitems, rfl⟩, rfl⟩
      exact ⟨⟨hx, hitems⟩, rfl⟩
    · rintro ⟨⟨hx, hitems⟩, rfl⟩
      exact ⟨_, _, ⟨hx, rfl⟩, ⟨hitems, rfl⟩, rfl⟩

end AnnotatedSource
