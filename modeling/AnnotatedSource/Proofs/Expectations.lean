import AnnotatedSource.Expectation
import AnnotatedSource.Proofs.Placement
import AnnotatedSource.Proofs.Regrouping

set_option autoImplicit false

namespace AnnotatedSource

variable {e : Expectation} {n : Node} {forest : Forest} {place : String} {failure : ExpectationFailure}

namespace Expectation

structure Holds (e : Expectation) (n : Node) : Prop where
  span : ∀ span, e.span = some span → n.span = span
  kinds : ∀ kinds, e.kinds = some kinds → n.tags.map Tag.kind = kinds
  tag : ∀ tag, e.tag = some tag → tag ∈ n.tags
  marker : e.isMarker = true → n.span.isPoint = true
  childCount : ∀ count, e.childCount = some count → n.children.length = count

/-- The indices that lead from an expectation to one below it. -/
inductive Leads : Expectation → Address → Expectation → Prop
  | here (e : Expectation) : Leads e [] e
  | down {e child goal : Expectation} {rest : Address} (mem : child ∈ e.children) (leads : Leads child rest goal) :
    Leads e (child.index :: rest) goal

theorem induction {P : Expectation → Prop} (step : ∀ e, (∀ child ∈ e.children, P child) → P e) : ∀ e, P e
  | ⟨index, span, kinds, tag, isMarker, childCount, children⟩ => step _ fun child _mem => induction step child
  termination_by e => sizeOf e
  decreasing_by
    have smaller : sizeOf child < sizeOf children := List.sizeOf_lt_of_mem _mem
    simp only [mk.sizeOf_spec]
    omega

theorem option_forM_eq_ok {α : Type} {o : Option α} {f : α → Except ExpectationFailure Unit} :
    o.forM f = .ok () ↔ ∀ x, o = some x → f x = .ok () := by
  cases o <;> simp [Option.forM, pure_eq_ok]

theorem option_forM_eq_error {α : Type} {o : Option α} {f : α → Except ExpectationFailure Unit} :
    o.forM f = .error failure ↔ ∃ x, o = some x ∧ f x = .error failure := by
  cases o <;> simp [Option.forM]

theorem require_eq_ok {holds : Bool} : require holds failure = .ok () ↔ holds = true := by
  cases holds <;> simp [require]

theorem require_eq_error {holds : Bool} {other : ExpectationFailure} :
    require holds other = .error failure ↔ holds = false ∧ failure = other := by
  cases holds <;> simp [require, eq_comm]

theorem checkNode_eq_ok_iff : checkNode place n e = .ok () ↔ e.Holds n := by
  have marker : (!e.isMarker || n.span.isPoint) = true ↔ (e.isMarker = true → n.span.isPoint = true) := by
    cases e.isMarker <;> simp
  simp only [checkNode, then_eq_ok, option_forM_eq_ok, require_eq_ok, beq_iff_eq, List.contains_iff_mem, marker]
  exact ⟨fun ⟨span, kinds, tag, marker, count⟩ => ⟨span, kinds, tag, marker, count⟩,
    fun ⟨span, kinds, tag, marker, count⟩ => ⟨span, kinds, tag, marker, count⟩⟩

theorem check_eq : check place n e = checkNode place n e >>= fun _ => checkChildren place n e.children := by
  obtain ⟨index, span, kinds, tag, isMarker, childCount, children⟩ := e
  rw [check]
  cases checkNode place n ⟨index, span, kinds, tag, isMarker, childCount, children⟩ <;> rfl

theorem checkChildren_cons (rest : List Expectation) : checkChildren place n (e :: rest) =
    match n.children[e.index]? with
    | none => .error (.noChild place e.index n.children.length)
    | some child => check (childPlace place e.index) child e >>= fun _ => checkChildren place n rest := by
  obtain ⟨index, span, kinds, tag, isMarker, childCount, children⟩ := e
  rw [checkChildren]
  cases n.children[index]? with
  | none => simp
  | some child =>
    simp only
    cases check (childPlace place index) child ⟨index, span, kinds, tag, isMarker, childCount, children⟩ <;> rfl

theorem checkChildren_eq_ok_iff {expected : List Expectation} : checkChildren place n expected = .ok () ↔
    ∀ e ∈ expected, ∃ child, n.children[e.index]? = some child ∧ check (childPlace place e.index) child e = .ok () := by
  induction expected with
  | nil => simp [checkChildren]
  | cons e rest ih =>
    rw [checkChildren_cons, List.forall_mem_cons, ← ih]
    cases n.children[e.index]? with
    | none => simp
    | some child => simp [then_eq_ok]

theorem check_eq_ok_iff : check place n e = .ok () ↔
    ∀ address goal, Leads e address goal → ∃ m, n.below? address = some m ∧ goal.Holds m := by
  induction e using induction generalizing place n with
  | step e ih =>
    rw [check_eq, then_eq_ok, checkNode_eq_ok_iff, checkChildren_eq_ok_iff]
    constructor
    · rintro ⟨here, below⟩ address goal leads
      cases leads with
      | here => exact ⟨n, rfl, here⟩
      | down mem leads =>
        obtain ⟨child, found, passed⟩ := below _ mem
        obtain ⟨m, hm, holds⟩ := (ih _ mem).1 passed _ _ leads
        exact ⟨m, by rw [Node.below?, found, Option.bind_some, hm], holds⟩
    · intro all
      refine ⟨?_, fun c mem => ?_⟩
      · obtain ⟨m, ⟨⟩, holds⟩ := all [] e (.here e)
        exact holds
      · obtain ⟨m, hm, -⟩ := all _ c (.down mem (.here c))
        obtain ⟨child, found, -⟩ := Option.bind_eq_some_iff.1 hm
        refine ⟨child, found, (ih c mem).2 fun address goal leads => ?_⟩
        obtain ⟨m, hm, holds⟩ := all _ goal (.down mem leads)
        rw [Node.below?, found, Option.bind_some] at hm
        exact ⟨m, hm, holds⟩

/-- Everything that is expected of a forest holds. -/
theorem checkForest_eq_ok_iff {roots : Option Nat} {expected : List Expectation} :
    checkForest forest roots expected = .ok () ↔ (∀ count, roots = some count → forest.length = count) ∧
      ∀ e ∈ expected, ∀ address goal, Leads e address goal →
        ∃ m, forest.nodeAt? (e.index :: address) = some m ∧ goal.Holds m := by
  have root (e : Expectation) : checkRoot forest e = .ok () ↔ ∀ address goal, Leads e address goal →
      ∃ m, forest.nodeAt? (e.index :: address) = some m ∧ goal.Holds m := by
    simp only [checkRoot, Forest.nodeAt?]
    cases forest[e.index]? with
    | none => simpa using ⟨[], e, .here e⟩
    | some root => simp only [check_eq_ok_iff, Option.bind_some]
  simp only [checkForest, then_eq_ok, option_forM_eq_ok, require_eq_ok, beq_iff_eq, forM_eq_ok, root]

end Expectation

namespace ExpectationFailure

def placeText : Address → String
  | [] => ""
  | i :: rest => rest.foldl Expectation.childPlace (Expectation.rootPlace i)

def Stands (forest : Forest) (place : String) (n : Node) : Prop :=
  ∃ address, placeText address = place ∧ forest.nodeAt? address = some n

/-- What a failure says of a forest is so. -/
def IsSo (forest : Forest) : ExpectationFailure → Prop
  | rootCount expected found => found = forest.map (·.span) ∧ found.length ≠ expected
  | noRoot index count => count = forest.length ∧ count ≤ index
  | noChild place index count => ∃ n, Stands forest place n ∧ count = n.children.length ∧ count ≤ index
  | otherSpan place found expected => ∃ n, Stands forest place n ∧ found = n.span ∧ found ≠ expected
  | otherKinds place found expected => ∃ n, Stands forest place n ∧ found = n.tags.map Tag.kind ∧ found ≠ expected
  | missingTag place expected found => ∃ n, Stands forest place n ∧ found = n.tags ∧ expected ∉ found
  | notMarker place found => ∃ n, Stands forest place n ∧ found = n.span ∧ found.isPoint = false
  | childCount place expected found =>
    ∃ n, Stands forest place n ∧ found = n.children.map (·.span) ∧ found.length ≠ expected

theorem stands_root {i : Nat} (found : forest[i]? = some n) : Stands forest (Expectation.rootPlace i) n :=
  ⟨[i], rfl, by rw [Forest.nodeAt?, found]; rfl⟩

theorem below?_concat {address : Address} {m : Node} {i : Nat} (h : m.below? address = some n) :
    m.below? (address ++ [i]) = n.children[i]? := by
  induction address generalizing m with
  | nil =>
    cases h
    cases found : n.children[i]? <;> simp [Node.below?, found]
  | cons j rest ih =>
    obtain ⟨child, found, h⟩ := Option.bind_eq_some_iff.1 h
    rw [List.cons_append, Node.below?, found, Option.bind_some, ih h]

theorem Stands.child {child : Node} {i : Nat} (h : Stands forest place n) (found : n.children[i]? = some child) :
    Stands forest (Expectation.childPlace place i) child := by
  obtain ⟨address, rfl, h⟩ := h
  cases address with
  | nil => cases h
  | cons j rest =>
    obtain ⟨root, here, h⟩ := Option.bind_eq_some_iff.1 h
    refine ⟨j :: (rest ++ [i]), by simp [placeText], ?_⟩
    rw [Forest.nodeAt?, here, Option.bind_some, below?_concat h, found]

theorem isSo_of_checkNode (stands : Stands forest place n) (h : Expectation.checkNode place n e = .error failure) :
    failure.IsSo forest := by
  simp only [Expectation.checkNode, then_eq_error, Expectation.option_forM_eq_error,
    Expectation.require_eq_error] at h
  rcases h with ⟨span, -, other, rfl⟩ | ⟨-, ⟨kinds, -, other, rfl⟩ | ⟨-, ⟨tag, -, missing, rfl⟩ |
    ⟨-, ⟨range, rfl⟩ | ⟨-, count, -, other, rfl⟩⟩⟩⟩
  · exact ⟨n, stands, rfl, by simpa using other⟩
  · exact ⟨n, stands, rfl, by simpa using other⟩
  · exact ⟨n, stands, rfl, by simpa using missing⟩
  · exact ⟨n, stands, rfl, (Bool.or_eq_false_iff.1 range).2⟩
  · exact ⟨n, stands, rfl, by simpa using other⟩

theorem of_checkChildren {expected : List Expectation} (h : Expectation.checkChildren place n expected = .error failure) :
    ∃ e ∈ expected, (n.children.length ≤ e.index ∧ failure = .noChild place e.index n.children.length) ∨
      ∃ child, n.children[e.index]? = some child ∧
        Expectation.check (Expectation.childPlace place e.index) child e = .error failure := by
  induction expected with
  | nil => simp [Expectation.checkChildren] at h
  | cons e rest ih =>
    rw [Expectation.checkChildren_cons] at h
    cases found : n.children[e.index]? with
    | none =>
      simp only [found, Except.error.injEq] at h
      exact ⟨e, List.mem_cons_self, .inl ⟨List.getElem?_eq_none_iff.1 found, h.symm⟩⟩
    | some child =>
      simp only [found, then_eq_error] at h
      rcases h with h | ⟨-, h⟩
      · exact ⟨e, List.mem_cons_self, .inr ⟨child, found, h⟩⟩
      · obtain ⟨goal, mem, h⟩ := ih h
        exact ⟨goal, List.mem_cons_of_mem e mem, h⟩

theorem isSo_of_check (stands : Stands forest place n) (h : Expectation.check place n e = .error failure) :
    failure.IsSo forest := by
  induction e using Expectation.induction generalizing place n with
  | step e ih =>
    rw [Expectation.check_eq, then_eq_error] at h
    rcases h with h | ⟨-, h⟩
    · exact isSo_of_checkNode stands h
    · obtain ⟨child, mem, ⟨beyond, rfl⟩ | ⟨m, found, h⟩⟩ := of_checkChildren h
      · exact ⟨n, stands, rfl, beyond⟩
      · exact ih child mem (stands.child found) h

/-- The text of a failed check tells the truth about the forest. -/
theorem isSo_of_checkForest {roots : Option Nat} {expected : List Expectation}
    (h : Expectation.checkForest forest roots expected = .error failure) : failure.IsSo forest := by
  simp only [Expectation.checkForest, then_eq_error, Expectation.option_forM_eq_error,
    Expectation.require_eq_error] at h
  rcases h with ⟨count, -, other, rfl⟩ | ⟨-, h⟩
  · exact ⟨rfl, by simpa using other⟩
  · obtain ⟨e, -, h⟩ := (forM_eq_error.1 h).exists_mem
    unfold Expectation.checkRoot at h
    cases found : forest[e.index]? with
    | none =>
      rw [found] at h
      cases h
      exact ⟨rfl, List.getElem?_eq_none_iff.1 found⟩
    | some root =>
      rw [found] at h
      exact isSo_of_check (stands_root found) h

end ExpectationFailure
end AnnotatedSource
