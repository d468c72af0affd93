import Mathlib.Data.List.Basic
import Mathlib.Data.List.Induction
import Mathlib.Data.List.Nodup
import Mathlib.Tactic.SplitIfs
import AnnotatedSource.Render

set_option autoImplicit false

namespace AnnotatedSource

namespace Text

open String

def utf8 (s : String) : List UInt8 := s.toUTF8.data.toList

/-- Of two numbers of four digits to the base 64, the smaller one has the smaller digit where they first differ. -/
theorem digits_lt {v w : Nat} (h : v < w) (bound : w < 0x200000) :
    v / 262144 % 8 < w / 262144 % 8 ∨ v / 262144 % 8 = w / 262144 % 8 ∧
      (v / 4096 % 64 < w / 4096 % 64 ∨ v / 4096 % 64 = w / 4096 % 64 ∧
        (v / 64 % 64 < w / 64 % 64 ∨ v / 64 % 64 = w / 64 % 64 ∧ v % 64 < w % 64)) := by
  have first : v / 262144 % 8 = v / 262144 ∧ w / 262144 % 8 = w / 262144 := by omega
  rw [first.1, first.2]
  omega

theorem utf8EncodeChar_append_lt {c d : Char} (h : c < d) (x y : List UInt8) :
    utf8EncodeChar c ++ x < utf8EncodeChar d ++ y := by
  have hlt : c.val.toNat < d.val.toNat := h
  have bound : d.val.toNat < 0x110000 := toNat_lt d
  simp only [utf8EncodeChar]
  generalize c.val.toNat = v at *
  generalize d.val.toNat = w at *
  have byte2 (n : Nat) : (n % 32 + 192) % 2 ^ 8 = n % 32 + 192 := by omega
  have byte3 (n : Nat) : (n % 16 + 224) % 2 ^ 8 = n % 16 + 224 := by omega
  have byte4 (n : Nat) : (n % 8 + 240) % 2 ^ 8 = n % 8 + 240 := by omega
  have later (n : Nat) : (n % 64 + 128) % 2 ^ 8 = n % 64 + 128 := by omega
  by_cases wide : v ≤ 0xffff
  · -- the first byte decides, or else three digits at most
    split_ifs <;> simp only [List.cons_append, List.nil_append, List.cons_lt_cons_iff, UInt8.lt_iff_toNat_lt,
      ← UInt8.toNat_inj, UInt8.toNat_ofNat', byte2, byte3, byte4, later] <;> omega
  · have digits := digits_lt hlt (by omega)
    rw [if_neg (by omega), if_neg (by omega), if_neg (by omega), if_neg (by omega), if_neg (by omega),
      if_neg (by omega)]
    simp only [List.cons_append, List.nil_append, List.cons_lt_cons_iff, UInt8.lt_iff_toNat_lt, ← UInt8.toNat_inj,
      UInt8.toNat_ofNat', byte4, later, Nat.add_lt_add_iff_right, Nat.add_right_cancel_iff]
    rcases digits with h₁ | ⟨h₁, h₂ | ⟨h₂, h₃ | ⟨h₃, h₄⟩⟩⟩
    · exact .inl h₁
    · exact .inr ⟨h₁, .inl h₂⟩
    · exact .inr ⟨h₁, .inr ⟨h₂, .inl h₃⟩⟩
    · exact .inr ⟨h₁, .inr ⟨h₂, .inr ⟨h₃, .inl h₄⟩⟩⟩

theorem flatMap_utf8EncodeChar_lt {a b : List Char} (h : a < b) :
    a.flatMap utf8EncodeChar < b.flatMap utf8EncodeChar := by
  induction a generalizing b with
  | nil =>
    cases b with
    | nil => exact absurd h (List.lt_irrefl [])
    | cons d b =>
      rw [List.flatMap_nil, List.flatMap_cons]
      obtain ⟨byte, rest, head⟩ := List.exists_cons_of_ne_nil (utf8EncodeChar_ne_nil (c := d))
      rw [head, List.cons_append]
      exact List.nil_lt_cons ..
  | cons c a ih =>
    cases b with
    | nil => exact absurd h (List.not_lt_nil _)
    | cons d b =>
      rw [List.flatMap_cons, List.flatMap_cons]
      rcases List.cons_lt_cons_iff.1 h with hlt | ⟨rfl, hlt⟩
      · exact utf8EncodeChar_append_lt hlt _ _
      · exact List.append_left_lt (ih hlt)

theorem utf8_eq (s : String) : utf8 s = s.toList.flatMap utf8EncodeChar := by
  have whole : s.toByteArray = s.toList.utf8Encode := by
    conv => lhs; rw [← String.ofList_toList (s := s)]
    rfl
  rw [utf8, String.toUTF8_eq_toByteArray, whole, List.utf8Encode, List.toList_data_toByteArray]

theorem utf8_lt {a b : String} (h : a < b) : utf8 a < utf8 b := by
  rw [utf8_eq, utf8_eq]
  exact flatMap_utf8EncodeChar_lt h

end Text

namespace Registry

variable {r s : Registry} {name : String} {formats : List Format} {f g : Format}

def registerAll (r : Registry) (calls : List Format) : Registry := calls.foldl register r

/-- The registries that runs start with, and the formats that are in them. -/
inductive Starts : Registry → List Format → Prop
  | empty : Starts empty []
  | builtIn : Starts builtIn [.markup, .outline Outline.defaultWidth, .report]

def IsLast (name : String) (formats : List Format) (f : Format) : Prop :=
  ∃ before after, formats = before ++ f :: after ∧ f.name = name ∧ ∀ g ∈ after, g.name ≠ name

structure SameAnswers (r s : Registry) : Prop where
  has : ∀ name, r.has name = s.has name
  get? : ∀ name, r.get? name = s.get? name
  render : ∀ a name, r.render a name = s.render a name
  names : r.names = s.names

def Distinct (r : Registry) : Prop := (r.formats.map (·.name)).Nodup

theorem registerAll_append (r : Registry) (a b : List Format) :
    r.registerAll (a ++ b) = (r.registerAll a).registerAll b := List.foldl_append

theorem registerAll_concat (r : Registry) (calls : List Format) (f : Format) :
    r.registerAll (calls ++ [f]) = (r.registerAll calls).register f := registerAll_append r calls [f]

theorem Starts.eq {start : Registry} {first : List Format} (h : Starts start first) :
    start = Registry.empty.registerAll first := by
  cases h <;> rfl

theorem Starts.registerAll_eq {start : Registry} {first : List Format} (h : Starts start first) (calls : List Format) :
    start.registerAll calls = Registry.empty.registerAll (first ++ calls) := by
  rw [registerAll_append, ← h.eq]

theorem Distinct.register (h : r.Distinct) (f : Format) : (r.register f).Distinct := by
  rw [Distinct, Registry.register, List.map_cons, List.nodup_cons]
  refine ⟨?_, (List.filter_sublist.map _).nodup h⟩
  simp [List.mem_map, List.mem_filter]

theorem Distinct.registerAll (h : r.Distinct) (calls : List Format) : (r.registerAll calls).Distinct := by
  induction calls generalizing r with
  | nil => exact h
  | cons f calls ih => exact ih (h.register f)

theorem distinct_empty : empty.Distinct := List.nodup_nil

theorem isSome_get?_iff : (r.get? name).isSome = true ↔ name ∈ r.formats.map (·.name) := by
  simp [get?, List.find?_isSome]

theorem Distinct.get?_eq_some_iff (h : r.Distinct) : r.get? name = some f ↔ f ∈ r.formats ∧ f.name = name := by
  constructor
  · intro found
    exact ⟨List.mem_of_find?_eq_some found, by simpa using List.find?_some found⟩
  · rintro ⟨mem, rfl⟩
    obtain ⟨g, found⟩ := Option.isSome_iff_exists.1 (isSome_get?_iff.2 (List.mem_map_of_mem mem))
    have same : g.name = f.name := by simpa using List.find?_some found
    rw [found, List.inj_on_of_nodup_map h (List.mem_of_find?_eq_some found) mem same]

theorem isLast_concat_self : IsLast g.name (formats ++ [g]) f ↔ f = g := by
  constructor
  · rintro ⟨before, after, split, -, others⟩
    rcases List.eq_nil_or_concat after with rfl | ⟨after, last, rfl⟩
    · exact (List.append_singleton_inj.1 split).2.symm
    · rw [List.concat_eq_append, ← List.cons_append, ← List.append_assoc] at split
      obtain ⟨-, rfl⟩ := List.append_singleton_inj.1 split
      exact absurd rfl (others g (by simp))
  · rintro rfl
    exact ⟨formats, [], rfl, rfl, by simp⟩

theorem isLast_concat_of_ne (ne : g.name ≠ name) : IsLast name (formats ++ [g]) f ↔ IsLast name formats f := by
  constructor
  · rintro ⟨before, after, split, same, others⟩
    rcases List.eq_nil_or_concat after with rfl | ⟨after, last, rfl⟩
    · obtain ⟨-, rfl⟩ := List.append_singleton_inj.1 split
      exact absurd same ne
    · rw [List.concat_eq_append, ← List.cons_append, ← List.append_assoc] at split
      obtain ⟨rfl, -⟩ := List.append_singleton_inj.1 split
      exact ⟨before, after, rfl, same, fun h hh => others h (by simp [hh])⟩
  · rintro ⟨before, after, rfl, same, others⟩
    refine ⟨before, after ++ [g], by simp, same, ?_⟩
    rw [List.forall_mem_append, List.forall_mem_singleton]
    exact ⟨others, ne⟩

theorem exists_isLast_iff : (∃ f, IsLast name formats f) ↔ name ∈ formats.map (·.name) := by
  induction formats using List.reverseRecOn with
  | nil => simp [IsLast]
  | append_singleton formats g ih =>
    by_cases same : g.name = name
    · subst same
      simp [isLast_concat_self]
    · simp only [isLast_concat_of_ne same, ih, List.map_append, List.mem_append, List.map_cons, List.map_nil,
        List.mem_singleton, Ne.symm same, or_false]

theorem get?_registerAll_empty : (empty.registerAll formats).get? name = some f ↔ IsLast name formats f := by
  induction formats using List.reverseRecOn with
  | nil => simp [registerAll, empty, get?, IsLast]
  | append_singleton formats g ih =>
    rw [registerAll_concat]
    by_cases same : g.name = name
    · subst same
      rw [get?_register_self, isLast_concat_self, Option.some.injEq, eq_comm]
    · rw [get?_register_of_ne _ _ same, isLast_concat_of_ne same, ih]

theorem decide_le_trans (a b c : String) (hab : decide (a ≤ b)) (hbc : decide (b ≤ c)) : decide (a ≤ c) :=
  decide_eq_true (String.le_trans (of_decide_eq_true hab) (of_decide_eq_true hbc))

theorem decide_le_total (a b : String) : decide (a ≤ b) || decide (b ≤ a) := by
  simpa using String.le_total a b

theorem mem_names_iff : name ∈ r.names ↔ name ∈ r.formats.map (·.name) := (Sorting.sort_perm _ _).mem_iff

theorem names_ascending (h : r.Distinct) : r.names.Pairwise fun a b => Text.utf8 a < Text.utf8 b := by
  have sorted : r.names.Pairwise fun a b => decide (a ≤ b) := Sorting.sort_pairwise decide_le_trans decide_le_total _
  have nodup : r.names.Nodup := (Sorting.sort_perm _ _).nodup_iff.2 h
  refine (sorted.and nodup).imp fun hab => Text.utf8_lt ?_
  exact String.not_le.1 fun hba => hab.2 (String.le_antisymm (of_decide_eq_true hab.1) hba)

theorem SameAnswers.of_get? (hr : r.Distinct) (hs : s.Distinct) (same : ∀ name, r.get? name = s.get? name) :
    SameAnswers r s := by
  have perm : (r.formats.map (·.name)).Perm (s.formats.map (·.name)) := by
    refine (List.perm_ext_iff_of_nodup hr hs).2 fun name => ?_
    rw [← isSome_get?_iff, ← isSome_get?_iff, same]
  refine ⟨fun name => ?_, same, fun a name => ?_, ?_⟩
  · rw [Registry.has, Registry.has, same]
  · rw [Registry.render, Registry.render, same]
  · refine Sorting.sort_eq_of_antisymm decide_le_trans decide_le_total (fun a b hab hba => ?_) perm
    exact String.le_antisymm (of_decide_eq_true hab) (of_decide_eq_true hba)

theorem SameAnswers.of_perm (h : r.Distinct) {stored : List Format} (perm : stored.Perm r.formats) :
    SameAnswers ⟨stored⟩ r := by
  have distinct : Distinct ⟨stored⟩ := (perm.map _).nodup_iff.2 h
  refine of_get? distinct h fun name => Option.ext fun f => ?_
  rw [distinct.get?_eq_some_iff, h.get?_eq_some_iff, perm.mem_iff]

theorem get?_register_congr (same : ∀ name, r.get? name = s.get? name) (f : Format) (name : String) :
    (r.register f).get? name = (s.register f).get? name := by
  by_cases h : f.name = name
  · subst h
    rw [get?_register_self, get?_register_self]
  · rw [get?_register_of_ne _ _ h, get?_register_of_ne _ _ h, same]

theorem get?_registerAll_congr (same : ∀ name, r.get? name = s.get? name) (calls : List Format) (name : String) :
    (r.registerAll calls).get? name = (s.registerAll calls).get? name := by
  induction calls generalizing r s with
  | nil => exact same name
  | cons f calls ih => exact ih (get?_register_congr same f)

theorem get?_register_comm (ne : f.name ≠ g.name) (r : Registry) (name : String) :
    ((r.register f).register g).get? name = ((r.register g).register f).get? name := by
  by_cases hf : f.name = name
  · subst hf
    rw [get?_register_of_ne _ _ ne.symm, get?_register_self, get?_register_self]
  · rw [get?_register_of_ne (r.register g) _ hf]
    by_cases hg : g.name = name
    · subst hg
      rw [get?_register_self, get?_register_self]
    · rw [get?_register_of_ne _ _ hg, get?_register_of_ne _ _ hg, get?_register_of_ne _ _ hf]

/-- After any registrations a registry has the names that it started with and the names registered, each with the
    format last registered under it; what it lists is ascending; a name that it does not have is reported as unknown.
    Two registrations in a row under different names may come in either order, and the formats may be stored in any. -/
theorem registerAll_answers {start : Registry} {first : List Format} (starts : Starts start first)
    (calls : List Format) :
    (∀ name, ((start.registerAll calls).has name = true ↔ name ∈ first.map (·.name) ∨ name ∈ calls.map (·.name)) ∧
      (((start.registerAll calls).get? name).isSome = true ↔ (start.registerAll calls).has name = true) ∧
      (name ∈ (start.registerAll calls).names ↔ (start.registerAll calls).has name = true)) ∧
    (start.registerAll calls).names.Pairwise (fun a b => Text.utf8 a < Text.utf8 b) ∧
    (∀ name f, (start.registerAll calls).get? name = some f ↔ IsLast name (first ++ calls) f) ∧
    (∀ name f a, IsLast name (first ++ calls) f → (start.registerAll calls).render a name = f.render a) ∧
    (∀ name a, (start.registerAll calls).has name = false →
      (start.registerAll calls).render a name = .error (.unknownFormat name)) ∧
    (∀ before f g after, calls = before ++ f :: g :: after → f.name ≠ g.name →
      SameAnswers (start.registerAll (before ++ g :: f :: after)) (start.registerAll calls)) ∧
    ∀ stored, stored.Perm (start.registerAll calls).formats → SameAnswers ⟨stored⟩ (start.registerAll calls) := by
  have distinct (calls : List Format) : (start.registerAll calls).Distinct := by
    rw [starts.registerAll_eq]
    exact distinct_empty.registerAll _
  have last (name : String) (f : Format) :
      (start.registerAll calls).get? name = some f ↔ IsLast name (first ++ calls) f := by
    rw [starts.registerAll_eq, get?_registerAll_empty]
  refine ⟨fun name => ⟨?_, Iff.rfl, ?_⟩, names_ascending (distinct calls), last, ?_, ?_, ?_, ?_⟩
  · rw [has, Option.isSome_iff_exists, ← List.mem_append, ← List.map_append, ← exists_isLast_iff]
    simp only [last]
  · rw [mem_names_iff, has, isSome_get?_iff]
  · intro name f a h
    rw [Registry.render, (last name f).2 h]
  · intro name a h
    rw [has, Option.isSome_eq_false_iff, Option.isNone_iff_eq_none] at h
    rw [Registry.render, h]
  · rintro before f g after rfl ne
    refine .of_get? (distinct _) (distinct _) fun name => ?_
    rw [registerAll_append, registerAll_append]
    exact get?_registerAll_congr (get?_register_comm ne.symm (start.registerAll before)) after name
  · exact fun stored perm => .of_perm (distinct calls) perm

def replacing : List Format :=
  [⟨"tag", "", fun _ => .error (.refused "first")⟩, ⟨"é", "", fun _ => .ok "é"⟩, ⟨"tag", "again", fun _ => .ok "tag"⟩]

theorem registerAll_answers_replacing : ∃ first, Starts builtIn first ∧
    (builtIn.registerAll replacing).names = ["json", "tag", "treeviz", "é"] ∧
    (∀ a, (builtIn.registerAll replacing).render a "tag" = .ok "tag") ∧
    (∀ a, (builtIn.registerAll replacing).render a "xml" = .error (.unknownFormat "xml")) ∧
    SameAnswers (builtIn.registerAll [replacing[1], replacing[0], replacing[2]]) (builtIn.registerAll replacing) := by
  obtain ⟨-, -, -, latest, unknown, swapped, -⟩ := registerAll_answers .builtIn replacing
  refine ⟨_, .builtIn, rfl, fun a => ?_, fun a => unknown "xml" a rfl,
    swapped [] replacing[0] replacing[1] [replacing[2]] rfl (by decide)⟩
  let before := [.markup, .outline Outline.defaultWidth, .report, replacing[0], replacing[1]]
  exact latest "tag" replacing[2] a ⟨before, [], rfl, rfl, by simp⟩

end Registry
end AnnotatedSource
