import Mathlib.Data.List.Basic
import AnnotatedSource.Render

set_option autoImplicit false

namespace AnnotatedSource

namespace Text

variable {α : Type} {read : List Char → Option (α × Nat)} {plain : Char → α}

/-- Reads a text in one pass: where `read` finds something, it tells how many characters that takes, and
    elsewhere a character stands for itself. The next `skip` characters are part of what was read last. -/
def scan (read : List Char → Option (α × Nat)) (plain : Char → α) : Nat → List Char → List α
  | _, [] => []
  | skip + 1, _ :: text => scan read plain skip text
  | 0, c :: text =>
    match read (c :: text) with
    | some (item, length) => item :: scan read plain (length - 1) text
    | none => plain c :: scan read plain 0 text

theorem scan_skip (before text : List Char) :
    scan read plain before.length (before ++ text) = scan read plain 0 text := by
  induction before with
  | nil => rfl
  | cons c before ih => exact ih

theorem scan_item {before text : List Char} {item : α} (ne : before ≠ [])
    (h : read (before ++ text) = some (item, before.length)) :
    scan read plain 0 (before ++ text) = item :: scan read plain 0 text := by
  cases before with
  | nil => exact absurd rfl ne
  | cons c before =>
    rw [List.cons_append] at h ⊢
    rw [scan, h]
    exact congrArg (item :: ·) (scan_skip before text)

theorem scan_plain {c : Char} {text : List Char} (h : read (c :: text) = none) :
    scan read plain 0 (c :: text) = plain c :: scan read plain 0 text := by
  rw [scan, h]

theorem scan_plain_append {before text : List Char} (h : ∀ c ∈ before, ∀ rest, read (c :: rest) = none) :
    scan read plain 0 (before ++ text) = before.map plain ++ scan read plain 0 text := by
  induction before with
  | nil => rfl
  | cons c before ih =>
    obtain ⟨hc, hbefore⟩ := List.forall_mem_cons.1 h
    rw [List.cons_append, scan_plain (hc _), ih hbefore]
    rfl

end Text

namespace Markup

def entities : List (Char × List Char) :=
  [('&', "&amp;".toList), ('<', "&lt;".toList), ('>', "&gt;".toList), ('"', "&quot;".toList),
    ('\x27', "&apos;".toList)]

def escapeChar (c : Char) : List Char := (entities.lookup c).getD [c]

def entity? (text : List Char) : Option (Char × Nat) :=
  entities.findSome? fun (c, entity) => if entity.isPrefixOf text then some (c, entity.length) else none

def unescape (text : List Char) : List Char := Text.scan entity? id 0 text

theorem escapeChar_cases (c : Char) : (∃ entity, (c, entity) ∈ entities ∧ escapeChar c = entity) ∨
    ((∀ entry ∈ entities, entry.1 ≠ c) ∧ escapeChar c = [c]) := by
  unfold escapeChar
  cases h : entities.lookup c with
  | none =>
    refine .inr ⟨fun entry hentry same => ?_, rfl⟩
    have := List.lookup_eq_none_iff.1 h entry hentry
    simp [same] at this
  | some entity =>
    obtain ⟨before, after, heq, -⟩ := List.lookup_eq_some_iff.1 h
    exact .inl ⟨entity, by rw [heq]; simp, rfl⟩

theorem replace_singleton_of_ne {c x : Char} (h : c ≠ x) (entity : String) : replace c entity [x] = [x] := by
  rw [replace, List.flatMap_singleton, if_neg h.symm]

theorem escape_singleton (c : Char) : escape [c] = escapeChar c := by
  rcases escapeChar_cases c with ⟨entity, hentity, -⟩ | ⟨other, hescape⟩
  · simp only [entities, List.mem_cons, Prod.mk.injEq, List.not_mem_nil, or_false] at hentity
    -- no later pass changes the entity, since that of the ampersand comes first
    rcases hentity with ⟨rfl, -⟩ | ⟨rfl, -⟩ | ⟨rfl, -⟩ | ⟨rfl, -⟩ | ⟨rfl, -⟩ <;> rfl
  · simp only [entities, List.forall_mem_cons, List.not_mem_nil, false_imp_iff, implies_true, and_true] at other
    obtain ⟨amp, lt, gt, quot, apos⟩ := other
    rw [hescape, escape, replace_singleton_of_ne amp, replace_singleton_of_ne lt, replace_singleton_of_ne gt,
      replace_singleton_of_ne quot, replace_singleton_of_ne apos]

theorem escape_eq_flatMap (text : List Char) : escape text = text.flatMap escapeChar := by
  induction text with
  | nil => rfl
  | cons c text ih =>
    rw [← List.singleton_append, escape_append, ih, escape_singleton]
    rfl

theorem entity?_of_ne {c : Char} (h : c ≠ '&') (text : List Char) : entity? (c :: text) = none := by
  simp [entity?, entities, h.symm]

theorem entity?_append {entry : Char × List Char} (h : entry ∈ entities) (text : List Char) :
    entity? (entry.2 ++ text) = some (entry.1, entry.2.length) := by
  simp only [entities, List.mem_cons, List.not_mem_nil, or_false] at h
  rcases h with rfl | rfl | rfl | rfl | rfl <;> rfl

theorem unescape_escapeChar (c : Char) (text : List Char) :
    unescape (escapeChar c ++ text) = c :: unescape text := by
  rcases escapeChar_cases c with ⟨entity, hentity, hescape⟩ | ⟨other, hescape⟩
  · have ne : entity ≠ [] := by
      rintro rfl
      exact absurd hentity (by simp [entities])
    rw [hescape]
    exact Text.scan_item ne (entity?_append hentity text)
  · rw [hescape]
    have ne : '&' ≠ c := other ('&', "&amp;".toList) (by simp [entities])
    exact Text.scan_plain (entity?_of_ne ne.symm text)

theorem unescape_escape (text : List Char) : unescape (escape text) = text := by
  rw [escape_eq_flatMap]
  induction text with
  | nil => rfl
  | cons c text ih => rw [List.flatMap_cons, unescape_escapeChar, ih]

theorem not_mem_escape {mark : Char} (hmark : mark ∈ ['<', '>', '"', '\x27']) (text : List Char) :
    mark ∉ escape text := by
  rw [escape_eq_flatMap]
  simp only [List.mem_flatMap, not_exists, not_and]
  intro c hc
  rcases escapeChar_cases c with ⟨entity, hentity, hescape⟩ | ⟨other, hescape⟩
  · have free : ∀ entry ∈ entities, ∀ mark ∈ ['<', '>', '"', '\x27'], mark ∉ entry.2 := by
      simp [entities]
    rw [hescape]
    exact free _ hentity mark hmark
  · have listed : ∀ mark ∈ ['<', '>', '"', '\x27'], ∃ entry ∈ entities, entry.1 = mark := by
      simp [entities]
    obtain ⟨entry, hentry, rfl⟩ := listed mark hmark
    rw [hescape, List.mem_singleton]
    exact other entry hentry

/-- In what is written for one character an ampersand comes only first, in an entity. -/
theorem entity_of_escapeChar {c : Char} {before after : List Char} (h : escapeChar c = before ++ '&' :: after) :
    before = [] ∧ ∃ entry ∈ entities, entry.2 = '&' :: after := by
  rcases escapeChar_cases c with ⟨entity, hentity, hescape⟩ | ⟨other, hescape⟩
  · have once : ∀ entry ∈ entities, '&' ∉ entry.2.tail := by decide
    rw [hescape] at h
    subst h
    cases before with
    | nil => exact ⟨rfl, _, hentity, rfl⟩
    | cons d before => exact absurd (by simp) (once _ hentity)
  · have ne : '&' ≠ c := other ('&', "&amp;".toList) (by simp [entities])
    rw [hescape] at h
    have mem : '&' ∈ [c] := h ▸ by simp
    exact absurd (List.mem_singleton.1 mem) ne

theorem entity_of_escape {text before after : List Char} (h : escape text = before ++ '&' :: after) :
    ∃ entry ∈ entities, entry.2 <+: '&' :: after := by
  rw [escape_eq_flatMap] at h
  induction text generalizing before with
  | nil => simp at h
  | cons c text ih =>
    -- the ampersand stands behind what is written for the first character, or in it
    rw [List.flatMap_cons, List.append_eq_append_iff] at h
    rcases h with ⟨before, -, rest⟩ | ⟨inside, hescape, rest⟩
    · exact ih rest
    · cases inside with
      | nil =>
        have first : text.flatMap escapeChar = [] ++ '&' :: after := rest.symm
        exact ih first
      | cons d inside =>
        obtain ⟨rfl, rfl⟩ := List.cons_eq_cons.1 rest
        obtain ⟨-, entry, hentry, spelled⟩ := entity_of_escapeChar hescape
        exact ⟨entry, hentry, spelled ▸ ⟨text.flatMap escapeChar, rfl⟩⟩

/-- The passes over a whole text write for each of its characters what one pass would. What they write has no markup
    character but ampersands, each of which starts an entity, and reading the entities from left to right gives the
    text back. Texts may be escaped part by part. -/
theorem escape_each (text : List Char) :
    escape text = text.flatMap escapeChar ∧
    (∀ mark ∈ ['<', '>', '"', '\x27'], mark ∉ escape text) ∧
    (∀ before after, escape text = before ++ '&' :: after → ∃ entry ∈ entities, entry.2 <+: '&' :: after) ∧
    unescape (escape text) = text ∧
    ∀ rest, escape (text ++ rest) = escape text ++ escape rest :=
  ⟨escape_eq_flatMap text, fun _ hmark => not_mem_escape hmark text, fun _ _ => entity_of_escape,
    unescape_escape text, escape_append text⟩

example : escape "&lt;<".toList = "&amp;lt;&lt;".toList := by decide

end Markup
end AnnotatedSource
