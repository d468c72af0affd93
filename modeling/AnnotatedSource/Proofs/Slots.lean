import Mathlib.Data.List.Nodup
import AnnotatedSource.Recording

set_option autoImplicit false

namespace AnnotatedSource

theorem filter_key_eq_nil {α : Type} {entries : List (String × α)} {key : String} (h : key ∉ entries.map (·.1)) :
    entries.filter (·.1 == key) = [] := by
  rw [List.filter_eq_nil_iff]
  intro entry member same
  exact h (List.mem_map.2 ⟨entry, member, eq_of_beq same⟩)

theorem filter_key_eq_singleton {α : Type} {entries : List (String × α)} (nodup : (entries.map (·.1)).Nodup)
    {entry : String × α} (h : entry ∈ entries) : entries.filter (·.1 == entry.1) = [entry] := by
  obtain ⟨before, behind, rfl⟩ := List.append_of_mem h
  rw [List.map_append, List.map_cons, List.nodup_middle, List.nodup_cons, List.mem_append, not_or] at nodup
  rw [List.filter_append, List.filter_cons, if_pos (beq_self_eq_true _), filter_key_eq_nil nodup.1.1,
    filter_key_eq_nil nodup.1.2, List.nil_append]

/-- A field as it may be written, and whether a reader assumes its value where it is left out. -/
structure Slot where
  key : String
  value : Json
  assumed : Bool

namespace Slot

def member (s : Slot) : String × Json := (s.key, s.value)

/-- The members of an object, in any order and with others between them. -/
def WrittenAs (slots : List Slot) (members : List (String × Json)) : Prop :=
  ∃ (kept : List Slot) (unknown : List (String × Json)), kept.Sublist slots ∧ (∀ s ∈ slots, s ∈ kept ∨ s.assumed) ∧
    (∀ m ∈ unknown, m.1 ∉ slots.map key) ∧ members.Perm (kept.map member ++ unknown)

/-- A record as an object, or as an array of its fields in order, which may end early. -/
inductive Renders (slots : List Slot) : Json → Prop
  | object {members : List (String × Json)} (h : WrittenAs slots members) :
    Renders slots (.object (members.map fun m => (some m.1, m.2)))
  | array {count : Nat} (omitted : ∀ s ∈ slots.drop count, s.assumed) :
    Renders slots (.array ((slots.take count).map value))

variable {slots : List Slot} {members : List (String × Json)} {s : Slot}

theorem map_member_fst (slots : List Slot) : (slots.map member).map (·.1) = slots.map key := by
  rw [List.map_map]
  rfl

theorem filter_members (h : WrittenAs slots members) (nodup : (slots.map key).Nodup) (hs : s ∈ slots) :
    members.filter (·.1 == s.key) = [s.member] ∨ s.assumed ∧ members.filter (·.1 == s.key) = [] := by
  obtain ⟨kept, unknown, hkept, omitted, hunknown, order⟩ := h
  have alone : unknown.filter (·.1 == s.key) = [] := by
    apply filter_key_eq_nil
    intro mem
    obtain ⟨m, hm, same⟩ := List.mem_map.1 mem
    exact hunknown m hm (same ▸ List.mem_map_of_mem hs)
  have found : (members.filter (·.1 == s.key)).Perm ((kept.map member).filter (·.1 == s.key)) := by
    have filtered := order.filter (·.1 == s.key)
    rwa [List.filter_append, alone, List.append_nil] at filtered
  have keys : ((kept.map member).map (·.1)).Nodup := by
    rw [map_member_fst]
    exact nodup.sublist (hkept.map key)
  by_cases mem : s ∈ kept
  · have single := filter_key_eq_singleton keys (List.mem_map_of_mem mem)
    exact .inl (List.perm_singleton.1 (single ▸ found))
  · have absent : s.key ∉ (kept.map member).map (·.1) := by
      rw [map_member_fst]
      intro hkey
      obtain ⟨t, ht, same⟩ := List.mem_map.1 hkey
      have heq := List.inj_on_of_nodup_map nodup (hkept.subset ht) hs same
      exact mem (heq ▸ ht)
    rw [filter_key_eq_nil absent] at found
    exact .inr ⟨(omitted s hs).resolve_left mem, List.perm_nil.1 found⟩

theorem assumed_of_omitted {count i : Nat} (omitted : ∀ s ∈ slots.drop count, s.assumed) (hs : slots[i]? = some s)
    (late : count ≤ i) : s.assumed := by
  have dropped : (slots.drop count)[i - count]? = some s := by
    rw [List.getElem?_drop, Nat.add_sub_of_le late, hs]
  exact omitted s (List.mem_of_getElem? dropped)

end Slot

namespace ImportRecord

variable {slots : List Slot} {members : List (String × Json)} {s : Slot}

theorem field?_of_writtenAs (h : Slot.WrittenAs slots members) (nodup : (slots.map Slot.key).Nodup) (hs : s ∈ slots) :
    field? s.key members = some (some s.value) ∨ s.assumed ∧ field? s.key members = some none := by
  unfold field?
  rcases Slot.filter_members h nodup hs with found | ⟨assumed, absent⟩
  · rw [found]
    exact .inl rfl
  · rw [absent]
    exact .inr ⟨assumed, rfl⟩

end ImportRecord

theorem Json.keyed?_map (members : List (String × Json)) :
    keyed? (members.map fun m => (some m.1, m.2)) = some members := by
  induction members with
  | nil => rfl
  | cons m members ih => rw [List.map_cons, keyed?, ih, Option.map_some]

namespace Value

theorem ofItems?_cons_eq_some {v : Json} {rest : List Json} {values : List Value} :
    ofItems? (v :: rest) = some values ↔ ∃ x xs, ofJson? v = some x ∧ ofItems? rest = some xs ∧ values = x :: xs := by
  cases hv : ofJson? v <;> cases hrest : ofItems? rest <;> simp [ofItems?, hv, hrest, eq_comm]

theorem ofItems?_take (count : Nat) {items : List Json} {values : List Value} (h : ofItems? items = some values) :
    ofItems? (items.take count) = some (values.take count) := by
  induction items generalizing count values with
  | nil =>
    obtain rfl : [] = values := Option.some.inj h
    rw [List.take_nil, List.take_nil]
    rfl
  | cons v rest ih =>
    obtain ⟨x, xs, hx, hrest, rfl⟩ := ofItems?_cons_eq_some.1 h
    cases count with
    | zero => rfl
    | succ count => exact ofItems?_cons_eq_some.2 ⟨x, xs.take count, hx, ih count hrest, rfl⟩

theorem ofMembers?_cons_eq_some {k : String} {v : Json} {rest : List (Option String × Json)}
    {entries : List (String × Value)} : ofMembers? ((some k, v) :: rest) = some entries ↔
      ∃ x xs, ofJson? v = some x ∧ ofMembers? rest = some xs ∧ entries = (k, x) :: xs := by
  cases hv : ofJson? v <;> cases hrest : ofMembers? rest <;> simp [ofMembers?, hv, hrest, eq_comm]

end Value

namespace Json

mutual

def HasValue : Json → Prop
  | .null => True
  | .bool _ => True
  | .number n => n.integer?.isSome ∨ n.double?.isSome
  | .string s => s.isSome
  | .array items => HasValues items
  | .object members => HasMemberValues members

def HasValues : List Json → Prop
  | [] => True
  | v :: rest => HasValue v ∧ HasValues rest

def HasMemberValues : List (Option String × Json) → Prop
  | [] => True
  | (k, v) :: rest => k.isSome ∧ HasValue v ∧ HasMemberValues rest

end

mutual

theorem exists_ofJson? : ∀ {v : Json}, HasValue v → ∃ x, Value.ofJson? v = some x
  | .null, _ => ⟨_, rfl⟩
  | .bool _, _ => ⟨_, rfl⟩
  | .number n, h => by
    rw [Value.ofJson?]
    cases whole : n.integer? with
    | some k => exact ⟨_, rfl⟩
    | none =>
      have rounded : n.double?.isSome := h.resolve_left (by simp [whole])
      obtain ⟨x, hx⟩ := Option.isSome_iff_exists.1 rounded
      exact ⟨.decimal x, by rw [hx, Option.map_some]⟩
  | .string s, h => by
    obtain ⟨text, rfl⟩ := Option.isSome_iff_exists.1 h
    exact ⟨.text text, rfl⟩
  | .array items, h => by
    obtain ⟨xs, hxs⟩ := exists_ofItems? h
    exact ⟨_, by rw [Value.ofJson?, hxs, Option.map_some]⟩
  | .object members, h => by
    obtain ⟨entries, hentries⟩ := exists_ofMembers? h
    exact ⟨_, by rw [Value.ofJson?, hentries, Option.map_some]⟩

theorem exists_ofItems? : ∀ {items : List Json}, HasValues items → ∃ xs, Value.ofItems? items = some xs
  | [], _ => ⟨_, rfl⟩
  | v :: rest, h => by
    obtain ⟨x, hx⟩ := exists_ofJson? h.1
    obtain ⟨xs, hxs⟩ := exists_ofItems? h.2
    exact ⟨x :: xs, Value.ofItems?_cons_eq_some.2 ⟨x, xs, hx, hxs, rfl⟩⟩

theorem exists_ofMembers? : ∀ {members : List (Option String × Json)}, HasMemberValues members →
    ∃ entries, Value.ofMembers? members = some entries
  | [], _ => ⟨_, rfl⟩
  | (k, v) :: rest, h => by
    obtain ⟨key, rfl⟩ := Option.isSome_iff_exists.1 h.1
    obtain ⟨x, hx⟩ := exists_ofJson? h.2.1
    obtain ⟨entries, hentries⟩ := exists_ofMembers? h.2.2
    exact ⟨(key, x) :: entries, Value.ofMembers?_cons_eq_some.2 ⟨x, entries, hx, hentries, rfl⟩⟩

end

end Json

namespace Value

theorem lookup?_eq_filter (key : String) (entries : List (String × Value)) :
    lookup? key entries = ((entries.filter (·.1 == key)).getLast?).map (·.2) := by
  induction entries with
  | nil => rfl
  | cons entry entries ih =>
    obtain ⟨k, v⟩ := entry
    rw [lookup?, ih, List.filter_cons]
    by_cases same : k = key
    · rw [if_pos same, if_pos (beq_iff_eq.2 same), List.getLast?_cons]
      cases (entries.filter (·.1 == key)).getLast? <;> rfl
    · rw [if_neg same, if_neg (by simpa using same)]
      cases (entries.filter (·.1 == key)).getLast? <;> rfl

theorem ofMembers?_filter (p : String → Bool) {members : List (String × Json)} {entries : List (String × Value)}
    (h : ofMembers? (members.map fun m => (some m.1, m.2)) = some entries) :
    ofMembers? ((members.filter (p ·.1)).map fun m => (some m.1, m.2)) = some (entries.filter (p ·.1)) := by
  induction members generalizing entries with
  | nil =>
    obtain rfl : [] = entries := Option.some.inj h
    rfl
  | cons m members ih =>
    obtain ⟨k, v⟩ := m
    obtain ⟨x, rest, hx, hrest, rfl⟩ := ofMembers?_cons_eq_some.1 h
    rw [List.filter_cons, List.filter_cons]
    by_cases keep : p k = true
    · rw [if_pos keep, if_pos keep]
      exact ofMembers?_cons_eq_some.2 ⟨x, _, hx, ih hrest, rfl⟩
    · rw [if_neg keep, if_neg keep]
      exact ih hrest

theorem lookup?_of_writtenAs {slots : List Slot} {members : List (String × Json)} {entries : List (String × Value)}
    {s : Slot} (h : Slot.WrittenAs slots members) (nodup : (slots.map Slot.key).Nodup) (hs : s ∈ slots)
    (hentries : ofMembers? (members.map fun m => (some m.1, m.2)) = some entries) :
    lookup? s.key entries = ofJson? s.value ∨ s.assumed ∧ lookup? s.key entries = none := by
  have filtered := ofMembers?_filter (· == s.key) hentries
  rw [lookup?_eq_filter]
  rcases Slot.filter_members h nodup hs with found | ⟨assumed, absent⟩
  · rw [found] at filtered
    obtain ⟨x, rest, hx, hrest, heq⟩ := ofMembers?_cons_eq_some.1 filtered
    obtain rfl : [] = rest := Option.some.inj hrest
    rw [heq]
    exact .inl hx.symm
  · rw [absent] at filtered
    obtain none : [] = entries.filter (·.1 == s.key) := Option.some.inj filtered
    rw [← none]
    exact .inr ⟨assumed, rfl⟩

end Value
end AnnotatedSource
