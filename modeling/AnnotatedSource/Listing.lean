import AnnotatedSource.Forest

set_option autoImplicit false

namespace AnnotatedSource

structure ListedTag where
  span : Span
  text : String
deriving DecidableEq, Repr

namespace ListedTag

def ofTaggedSpan (t : TaggedSpan) : ListedTag := ⟨t.span, t.tag.inspect⟩

def isUpTo (a b : ListedTag) : Bool :=
  decide (a.span.start < b.span.start) ||
    (a.span.start == b.span.start && (decide (a.span.stop < b.span.stop) ||
      (a.span.stop == b.span.stop && decide (a.text ≤ b.text))))

theorem isUpTo_iff (a b : ListedTag) : a.isUpTo b = true ↔ a.span.start < b.span.start ∨
    (a.span.start = b.span.start ∧
      (a.span.stop < b.span.stop ∨ (a.span.stop = b.span.stop ∧ a.text ≤ b.text))) := by
  simp [isUpTo]

theorem isUpTo_trans (a b c : ListedTag) (hab : a.isUpTo b) (hbc : b.isUpTo c) : a.isUpTo c := by
  rw [isUpTo_iff] at *
  rcases hab with hab | ⟨starts, hab | ⟨stops, hab⟩⟩ <;> rcases hbc with hbc | ⟨starts', hbc | ⟨stops', hbc⟩⟩
  case inr.inr.inr.inr => exact .inr ⟨starts.trans starts', .inr ⟨stops.trans stops', String.le_trans hab hbc⟩⟩
  all_goals omega

theorem isUpTo_total (a b : ListedTag) : a.isUpTo b || b.isUpTo a := by
  rw [Bool.or_eq_true, isUpTo_iff, isUpTo_iff]
  rcases Nat.lt_trichotomy a.span.start b.span.start with starts | starts | starts
  · exact .inl (.inl starts)
  · rcases Nat.lt_trichotomy a.span.stop b.span.stop with stops | stops | stops
    · exact .inl (.inr ⟨starts, .inl stops⟩)
    · rcases String.le_total a.text b.text with texts | texts
      · exact .inl (.inr ⟨starts, .inr ⟨stops, texts⟩⟩)
      · exact .inr (.inr ⟨starts.symm, .inr ⟨stops.symm, texts⟩⟩)
    · exact .inr (.inr ⟨starts.symm, .inl stops⟩)
  · exact .inr (.inl starts)

theorem isUpTo_antisymm (a b : ListedTag) (hab : a.isUpTo b) (hba : b.isUpTo a) : a = b := by
  rw [isUpTo_iff] at *
  rcases hab with hab | ⟨starts, hab | ⟨stops, texts⟩⟩ <;> rcases hba with hba | ⟨starts', hba | ⟨stops', texts'⟩⟩
  case inr.inr.inr.inr =>
    obtain ⟨⟨start, stop⟩, text⟩ := a
    obtain rfl : start = _ := starts
    obtain rfl : stop = _ := stops
    obtain rfl : text = _ := String.le_antisymm texts texts'
    rfl
  all_goals omega

end ListedTag

namespace Forest

def listing (forest : Forest) : List ListedTag :=
  Sorting.sort ListedTag.isUpTo ((taggedSpans forest).map .ofTaggedSpan)

theorem listing_eq_of_perm {a b : Forest} (h : (taggedSpans a).Perm (taggedSpans b)) : listing a = listing b :=
  Sorting.sort_eq_of_antisymm ListedTag.isUpTo_trans ListedTag.isUpTo_total ListedTag.isUpTo_antisymm (h.map _)

end Forest
end AnnotatedSource
