import Mathlib.Tactic.SplitIfs
import Mathlib.Tactic.Tauto
import AnnotatedSource.Offsets

set_option autoImplicit false

namespace AnnotatedSource

namespace Span

def Upright (s : Span) : Prop := s.start ≤ s.stop

instance (s : Span) : Decidable s.Upright := inferInstanceAs (Decidable (s.start ≤ s.stop))

/-- Neither lies in the other, and they do not cross. -/
def Apart (a b : Span) : Prop := ¬ a.contains b ∧ ¬ b.contains a ∧ ¬ a.crosses b

theorem contains_iff (a b : Span) : a.contains b = true ↔
    if a.start = a.stop then b.start = b.stop ∧ a.start = b.start
    else if b.start = b.stop then a.start ≤ b.start ∧ b.start < a.stop
    else a.start ≤ b.start ∧ b.stop ≤ a.stop := by
  simp only [contains, ← isPoint_iff]
  cases a.isPoint <;> cases b.isPoint <;> simp

theorem crosses_iff (a b : Span) : a.crosses b = true ↔
    (a.start ≠ a.stop ∧ b.start ≠ b.stop) ∧ (a.start < b.stop ∧ b.start < a.stop) ∧
      ¬ a.contains b ∧ ¬ b.contains a := by
  simp only [crosses, isPoint, Bool.and_eq_true, Bool.not_eq_true', beq_eq_false_iff_ne,
    decide_eq_true_eq, Bool.not_eq_true]
  tauto

theorem contains_trans {a b c : Span} (hab : a.contains b) (hbc : b.contains c) : a.contains c := by
  rw [contains_iff] at *
  split_ifs at * <;> omega

theorem contains_antisymm {a b : Span} (hab : a.contains b) (hba : b.contains a) : a = b := by
  obtain ⟨s, e⟩ := a
  obtain ⟨s', e'⟩ := b
  rw [contains_iff] at hab hba
  simp only [mk.injEq] at *
  split_ifs at * <;> omega

theorem eq_of_point_contains {a b : Span} (ha : a.isPoint) (h : a.contains b) : a = b := by
  obtain ⟨s, e⟩ := a
  obtain ⟨s', e'⟩ := b
  rw [isPoint_iff] at ha
  rw [contains_iff, if_pos ha] at h
  simp only [mk.injEq] at *
  omega

theorem contains_bounds {a b : Span} (h : a.contains b) : a.start ≤ b.start ∧ b.stop ≤ a.stop := by
  rw [contains_iff] at h
  split_ifs at h <;> omega

theorem not_crosses_of_contains {a b : Span} (h : a.contains b) : ¬ a.crosses b := by
  rw [crosses_iff]
  exact fun hx => hx.2.2.1 h

theorem not_apart_self (a : Span) : ¬ a.Apart a := fun h => h.1 (contains_self a)

theorem Apart.symm {a b : Span} (h : a.Apart b) : b.Apart a :=
  ⟨h.2.1, h.1, by rw [crosses_comm]; exact h.2.2⟩

theorem Apart.of_contains {a b c : Span} (h : a.Apart c) (ha : a.Upright) (hb : b.Upright)
    (hc : c.Upright) (hab : a.contains b) : b.Apart c := by
  unfold Apart Upright at *
  rw [crosses_iff] at *
  simp only [contains_iff] at *
  split_ifs at * <;> omega

theorem Apart.not_contains_point {a b : Span} (h : a.Apart b) {offset : Nat} (ha : a.contains (.point offset)) :
    ¬ b.contains (.point offset) := by
  unfold Apart at h
  rw [crosses_iff] at h
  simp only [contains_iff, point] at *
  split_ifs at * <;> omega

theorem Apart.ordered {a b : Span} (h : a.Apart b) (ha : a.Upright) (hb : b.Upright)
    (hle : a.start ≤ b.start) : a.start < b.start ∧ a.stop ≤ b.start := by
  unfold Apart Upright at *
  rw [crosses_iff] at h
  simp only [contains_iff] at h
  split_ifs at h <;> omega

theorem Apart.beside {a b : Span} (h : a.Apart b) (ha : a.Upright) (hb : b.Upright) :
    a.stop ≤ b.start ∨ b.stop ≤ a.start := by
  rcases Nat.le_total a.start b.start with hle | hle
  · exact .inl (h.ordered ha hb hle).2
  · exact .inr (h.symm.ordered hb ha hle).2

/-- Containment is a partial order, crossing is symmetric, and no two spans are in both; this holds of points and of
    spans that stop before they start, too. Of upright spans that are apart one is over when the other starts, and
    what is apart from a span is apart from all that lies in it. -/
theorem containment_crossing_laws :
    (∀ a : Span, a.contains a) ∧
    (∀ a b : Span, a.contains b → b.contains a → a = b) ∧
    (∀ a b c : Span, a.contains b → b.contains c → a.contains c) ∧
    (∀ a b : Span, a.crosses b = b.crosses a) ∧
    (∀ a b : Span, a.crosses b → ¬ a.contains b ∧ ¬ b.contains a) ∧
    (∀ a b : Span, a.Upright → b.Upright → ¬ a.contains b → ¬ b.contains a → ¬ a.crosses b →
      a.stop ≤ b.start ∨ b.stop ≤ a.start) ∧
    ∀ a b c : Span, a.Upright → b.Upright → c.Upright → a.contains b →
      ¬ a.contains c → ¬ c.contains a → ¬ c.crosses a →
      ¬ c.contains b ∧ ¬ b.contains c ∧ ¬ c.crosses b := by
  refine ⟨contains_self, fun _ _ => contains_antisymm, fun _ _ _ => contains_trans, crosses_comm, ?_, ?_, ?_⟩
  · intro a b crossing
    refine ⟨fun h => not_crosses_of_contains h crossing, fun h => not_crosses_of_contains h ?_⟩
    rwa [crosses_comm]
  · intro a b ha hb outer inner crossing
    exact Apart.beside ⟨outer, inner, crossing⟩ ha hb
  · intro a b c ha hb hc hab outer inner crossing
    have apart : a.Apart c := Apart.symm ⟨inner, outer, crossing⟩
    exact (apart.of_contains ha hb hc hab).symm

theorem containment_crossing_laws_meeting :
    (Span.mk 2 5).contains ⟨3, 5⟩ ∧ ¬ (Span.mk 2 5).contains (.point 5) ∧ ¬ (point 5).contains ⟨2, 5⟩ ∧
    ¬ (point 5).crosses ⟨2, 5⟩ ∧
    (¬ (point 5).contains ⟨3, 5⟩ ∧ ¬ (Span.mk 3 5).contains (.point 5) ∧ ¬ (point 5).crosses ⟨3, 5⟩) := by
  obtain ⟨-, -, -, -, -, -, inside⟩ := containment_crossing_laws
  refine ⟨by decide, by decide, by decide, by decide, inside ⟨2, 5⟩ ⟨3, 5⟩ (.point 5) ?_ ?_ ?_ ?_ ?_ ?_ ?_⟩ <;> decide

/-- Spans in order between two offsets, with room before, between and after them. -/
def Chain (cursor stop : Nat) : List Span → Prop
  | [] => cursor ≤ stop
  | s :: rest => cursor ≤ s.start ∧ s.Upright ∧ Chain s.stop stop rest

def EndsIn (B : Nat → Prop) (s : Span) : Prop := s.Upright ∧ B s.start ∧ B s.stop

theorem chain_of_apart {cursor stop : Nat} {spans : List Span} (hle : cursor ≤ stop) (apart : spans.Pairwise Apart)
    (ascending : spans.Pairwise (·.start ≤ ·.start))
    (within : ∀ s ∈ spans, s.Upright ∧ cursor ≤ s.start ∧ s.stop ≤ stop) : Chain cursor stop spans := by
  induction spans generalizing cursor with
  | nil => exact hle
  | cons s rest ih =>
    obtain ⟨besides, apart⟩ := List.pairwise_cons.1 apart
    obtain ⟨starts, ascending⟩ := List.pairwise_cons.1 ascending
    obtain ⟨upright, hstart, hstop⟩ := within s (by simp)
    refine ⟨hstart, upright, ih hstop apart ascending fun t ht => ?_⟩
    obtain ⟨upt, -, hend⟩ := within t (List.mem_cons_of_mem s ht)
    exact ⟨upt, ((besides t ht).ordered upright upt (starts t ht)).2, hend⟩

end Span

namespace Text

variable {text : List Char}

theorem isBoundary_iff {offset : Nat} :
    isBoundary text offset = true ↔ ∃ before after, text = before ++ after ∧ byteLength before = offset := by
  simp only [isBoundary, Option.isSome_iff_exists, Prod.exists, splitAt?_eq_some_iff]

theorem isBoundary_zero (text : List Char) : isBoundary text 0 = true :=
  isBoundary_iff.2 ⟨[], text, rfl, rfl⟩

theorem isBoundary_byteLength (text : List Char) : isBoundary text (byteLength text) = true :=
  isBoundary_iff.2 ⟨text, [], by simp, rfl⟩

theorem byteLength_eq_zero {text : List Char} (h : byteLength text = 0) : text = [] := by
  cases text with
  | nil => rfl
  | cons c text =>
    have hc := c.utf8Size_pos
    simp only [byteLength] at h
    omega

theorem slice?_eq_some_iff {span : Span} {inner : List Char} :
    slice? text span = some inner ↔ span.Upright ∧ ∃ before after, text = before ++ (inner ++ after) ∧
      byteLength before = span.start ∧ byteLength inner = span.stop - span.start := by
  unfold slice? Span.Upright
  by_cases hle : span.start ≤ span.stop
  · rw [if_pos hle]
    constructor
    · intro h
      cases hs : splitAt? text span.start with
      | none => rw [hs] at h; cases h
      | some parts =>
        obtain ⟨before, rest⟩ := parts
        rw [hs] at h
        obtain ⟨⟨mid, after⟩, hsplit, rfl⟩ := Option.map_eq_some_iff.1 h
        obtain ⟨rfl, hbefore⟩ := splitAt?_eq_some_iff.1 hs
        obtain ⟨rfl, hmid⟩ := splitAt?_eq_some_iff.1 hsplit
        exact ⟨hle, before, after, rfl, hbefore, hmid⟩
    · rintro ⟨-, before, after, rfl, hbefore, hinner⟩
      rw [splitAt?_eq_some_iff.2 ⟨rfl, hbefore⟩]
      simp only [splitAt?_eq_some_iff.2 ⟨rfl, hinner⟩, Option.map_some]
  · rw [if_neg hle]
    simp [hle]

theorem append_of_byteLength_le {before after before' after' : List Char}
    (h : before ++ after = before' ++ after') (hle : byteLength before ≤ byteLength before') :
    ∃ inner, before' = before ++ inner ∧ after = inner ++ after' := by
  rcases List.append_eq_append_iff.1 h with ⟨inner, rfl, rfl⟩ | ⟨inner, rfl, rfl⟩
  · exact ⟨inner, rfl, rfl⟩
  · rw [byteLength_append] at hle
    obtain rfl : inner = [] := byteLength_eq_zero (by omega)
    exact ⟨[], by simp, rfl⟩

theorem slice?_isSome_iff {span : Span} : (slice? text span).isSome = true ↔
    span.Upright ∧ isBoundary text span.start = true ∧ isBoundary text span.stop = true := by
  rw [Option.isSome_iff_exists]
  simp only [slice?_eq_some_iff, isBoundary_iff]
  unfold Span.Upright
  constructor
  · rintro ⟨inner, hle, before, after, rfl, hbefore, hinner⟩
    refine ⟨hle, ⟨before, inner ++ after, rfl, hbefore⟩, before ++ inner, after, by simp, ?_⟩
    rw [byteLength_append]
    omega
  · rintro ⟨hle, ⟨before, after, rfl, hbefore⟩, before', after', heq, hbefore'⟩
    obtain ⟨inner, rfl, rfl⟩ := append_of_byteLength_le heq (by omega)
    rw [byteLength_append] at hbefore'
    exact ⟨inner, hle, before, after', rfl, hbefore, by omega⟩

theorem le_byteLength_of_isBoundary {offset : Nat} (h : isBoundary text offset = true) : offset ≤ byteLength text := by
  obtain ⟨before, after, rfl, rfl⟩ := isBoundary_iff.1 h
  rw [byteLength_append]
  exact Nat.le_add_right _ _

/-- The span is upright and within the text, and no character lies across one of its ends. -/
def Fits (text : List Char) (span : Span) : Prop :=
  span.start ≤ span.stop ∧ span.stop ≤ byteLength text ∧ isBoundary text span.start = true ∧
    isBoundary text span.stop = true

theorem slice?_isSome_iff_fits {span : Span} : (slice? text span).isSome = true ↔ Fits text span := by
  rw [slice?_isSome_iff, Fits, Span.Upright]
  constructor
  · rintro ⟨hle, starts, stops⟩
    exact ⟨hle, le_byteLength_of_isBoundary stops, starts, stops⟩
  · rintro ⟨hle, -, starts, stops⟩
    exact ⟨hle, starts, stops⟩

theorem slice?_append {x y : List Char} {a b c : Nat} (hx : slice? text ⟨a, b⟩ = some x)
    (hy : slice? text ⟨b, c⟩ = some y) : slice? text ⟨a, c⟩ = some (x ++ y) := by
  obtain ⟨hab, before, after, rfl, hbefore, hlx⟩ := slice?_eq_some_iff.1 hx
  obtain ⟨hbc, before', after', heq, hbefore', hly⟩ := slice?_eq_some_iff.1 hy
  simp only [Span.Upright] at *
  have hlength : byteLength before' = byteLength (before ++ x) := by
    rw [byteLength_append]
    omega
  rw [← List.append_assoc] at heq
  obtain ⟨rest, hsplit, hafter⟩ := append_of_byteLength_le heq (Nat.le_of_eq hlength.symm)
  have hrest : byteLength rest = 0 := by
    rw [hsplit, byteLength_append] at hlength
    omega
  obtain rfl := byteLength_eq_zero hrest
  refine slice?_eq_some_iff.2 ⟨Nat.le_trans hab hbc, before, after', ?_, hbefore, ?_⟩
  · rw [hafter]
    simp
  · rw [byteLength_append]
    simp only
    omega

theorem slice?_empty {offset : Nat} (h : isBoundary text offset = true) :
    slice? text ⟨offset, offset⟩ = some [] := by
  obtain ⟨before, after, rfl, hbefore⟩ := isBoundary_iff.1 h
  exact slice?_eq_some_iff.2 ⟨Nat.le_refl _, before, after, rfl, hbefore, by simp [byteLength]⟩

theorem slice?_all (text : List Char) : slice? text ⟨0, byteLength text⟩ = some text :=
  slice?_eq_some_iff.2 ⟨Nat.zero_le _, [], [], by simp, rfl, rfl⟩

end Text
end AnnotatedSource
