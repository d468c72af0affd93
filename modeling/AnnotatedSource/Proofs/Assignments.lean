import Mathlib.Data.List.Nodup
import AnnotatedSource.Settings

set_option autoImplicit false

namespace AnnotatedSource

namespace Value

variable {key other : String} {v : Value} {entries later : List (String × Value)}

def isTable : Value → Bool
  | table _ => true
  | _ => false

theorem isTable_iff : v.isTable = true ↔ ∃ entries, v = table entries := by
  cases v <;> simp [isTable]

def Keyed (entries : List (String × Value)) : Prop := (entries.map (·.1)).Nodup

theorem lookup?_eq_none_iff : lookup? key entries = none ↔ key ∉ entries.map (·.1) := by
  induction entries with
  | nil => simp [lookup?]
  | cons entry entries ih =>
    rw [lookup?, List.map_cons, List.mem_cons, not_or, ← ih, eq_comm (a := key)]
    cases lookup? key entries <;> simp

theorem mem_of_lookup? (h : lookup? key entries = some v) : (key, v) ∈ entries := by
  induction entries with
  | nil => simp [lookup?] at h
  | cons entry entries ih =>
    rw [lookup?] at h
    split at h
    · next found => exact List.mem_cons_of_mem _ (ih (found.trans h))
    · obtain ⟨rfl, rfl⟩ : entry.1 = key ∧ entry.2 = v := by simpa using h
      exact List.mem_cons_self

theorem lookup?_eq_of_mem_iff {found : Option Value} (h : ∀ v, (key, v) ∈ entries ↔ found = some v) :
    lookup? key entries = found := by
  cases eq : lookup? key entries with
  | some v => exact ((h v).1 (mem_of_lookup? eq)).symm
  | none =>
    cases found with
    | none => rfl
    | some v => exact absurd (List.mem_map_of_mem ((h v).2 rfl)) (lookup?_eq_none_iff.1 eq)

theorem mem_keys_putEntry : other ∈ (putEntry key v entries).map (·.1) ↔ other = key ∨ other ∈ entries.map (·.1) := by
  induction entries with
  | nil => simp [putEntry]
  | cons entry entries ih =>
    by_cases same : entry.1 = key
    · simp [putEntry, same]
    · rw [putEntry, if_neg same, List.map_cons, List.mem_cons, ih, List.map_cons, List.mem_cons, or_left_comm]

theorem Keyed.putEntry (h : Keyed entries) (key : String) (v : Value) : Keyed (putEntry key v entries) := by
  induction entries with
  | nil => simp [Keyed, Value.putEntry]
  | cons entry entries ih =>
    obtain ⟨new, rest⟩ := List.nodup_cons.1 h
    by_cases same : entry.1 = key
    · rw [Value.putEntry, if_pos same]
      exact h
    · rw [Value.putEntry, if_neg same]
      refine List.nodup_cons.2 ⟨fun mem => ?_, ih rest⟩
      exact (mem_keys_putEntry.1 mem).elim same new

theorem Keyed.lookup?_putEntry_self (h : Keyed entries) : lookup? key (Value.putEntry key v entries) = some v := by
  induction entries with
  | nil => simp [Value.putEntry, lookup?]
  | cons entry entries ih =>
    obtain ⟨new, rest⟩ := List.nodup_cons.1 h
    by_cases same : entry.1 = key
    · rw [Value.putEntry, if_pos same, lookup?, lookup?_eq_none_iff.2 (same ▸ new)]
      simp [same]
    · rw [Value.putEntry, if_neg same, lookup?, ih rest]

theorem Keyed.lookup?_putEntry (h : Keyed entries) :
    lookup? other (Value.putEntry key v entries) = if other = key then some v else lookup? other entries := by
  split
  · next same => rw [same, h.lookup?_putEntry_self]
  · next ne => exact lookup?_putEntry_of_ne (Ne.symm ne) v entries

theorem merge_of_not_isTable (h : v.isTable = false) (earlier : Option Value) : merge earlier v = v := by
  cases v with
  | table entries => cases h
  | _ => rfl

/-- A table of other values is merged entry by entry, and under each key its last entry wins. -/
theorem Keyed.mergeEntries (h : Keyed entries)
    (plain : ∀ entry ∈ later, entry.1.toLower = entry.1 ∧ entry.2.isTable = false) :
    ∃ merged, mergeEntries (table entries) later = table merged ∧ Keyed merged ∧
      ∀ key, lookup? key merged = (lookup? key later).or (lookup? key entries) := by
  -- the entries in front are put first, and what is put later wins
  induction later generalizing entries with
  | nil => exact ⟨entries, rfl, h, fun _ => rfl⟩
  | cons entry later ih =>
    obtain ⟨⟨lower, value⟩, plain⟩ := List.forall_mem_cons.1 plain
    obtain ⟨merged, eq, keyed, found⟩ := ih (h.putEntry entry.1 entry.2) plain
    refine ⟨merged, ?_, keyed, fun key => ?_⟩
    · rw [Value.mergeEntries, merge_of_not_isTable value, lower]
      exact eq
    · rw [found, h.lookup?_putEntry, lookup?]
      cases lookup? key later <;> simp [eq_comm (a := key)]
      split <;> rfl

end Value

open Value (Keyed)

inductive Setting where
  | release
  | format
  | elide
  | unit
  | labelWidth
  | verbosity
deriving DecidableEq

namespace Setting

def table : Setting → String
  | release => "lexer"
  | format => "render"
  | elide => "render"
  | unit => "render"
  | labelWidth => "treeviz"
  | verbosity => "log"

def name : Setting → String
  | release => "version"
  | format => "format"
  | elide => "elide_empty_text"
  | unit => "offsets"
  | labelWidth => "label_width"
  | verbosity => "level"

def all : List Setting := [release, format, elide, unit, labelWidth, verbosity]

def tables : List String := ["lexer", "render", "treeviz", "log"]

def key (s : Setting) : String := s.table ++ "." ++ s.name

def place (s : Setting) : Place := [.entry s.table, .entry s.name]

theorem mem_all (s : Setting) : s ∈ all := by
  cases s <;> decide

theorem mem_tables_iff {key : String} : key ∈ tables ↔ ∃ s : Setting, s.table = key := by
  constructor
  · intro mem
    have named : ∀ key ∈ tables, ∃ s ∈ all, s.table = key := by decide
    obtain ⟨s, -, same⟩ := named key mem
    exact ⟨s, same⟩
  · rintro ⟨s, rfl⟩
    cases s <;> decide

theorem ofKey_table (s : Setting) : Place.ofKey s.table = [.entry s.table] := by
  cases s <;> decide +kernel

theorem ofText?_key (s : Setting) : Place.ofText? s.key = some s.place := by
  cases s <;> decide +kernel

theorem name_injective {s t : Setting} (h : s.name = t.name) : s = t := by
  cases s <;> cases t <;> first | rfl | exact absurd h (by decide)

theorem name_toLower (s : Setting) : s.name.toLower = s.name := by
  cases s <;> decide +kernel

/-- What a layer gives a setting: the last value under its name in a table of its own. -/
def valueIn? (s : Setting) (layer : List (String × Value)) : Option Value :=
  Value.lookup? s.name (layer.flatMap fun (key, v) => if key = s.table then v.entries else [])

def valueAt? (s : Setting) (v : Value) : Option Value :=
  (Value.lookup? s.table v.entries).bind fun inner => Value.lookup? s.name inner.entries

theorem valueIn?_cons (s : Setting) (key : String) (v : Value) (layer : List (String × Value)) :
    s.valueIn? ((key, v) :: layer) =
      (s.valueIn? layer).or (if key = s.table then Value.lookup? s.name v.entries else none) := by
  rw [valueIn?, List.flatMap_cons, Value.lookup?_append]
  by_cases same : key = s.table <;> simp [same, valueIn?, Value.lookup?]

end Setting

namespace Settings

variable {v : Value} {w : Setting → Option Value} {layer : List (String × Value)}

structure Sets (table : String) (entries : List (String × Value)) : Prop where
  known : ∃ s : Setting, s.table = table
  named : ∀ entry ∈ entries, ∃ s : Setting, s.table = table ∧ s.name = entry.1
  plain : ∀ entry ∈ entries, entry.2.isTable = false

/-- A layer that gives settings values, and says nothing else. -/
def IsLayer (layer : List (String × Value)) : Prop :=
  ∀ entry ∈ layer, ∃ entries, entry.2 = .table entries ∧ Sets entry.1 entries

theorem sets_iff {table : String} {entries : List (String × Value)} : Sets table entries ↔
    table ∈ Setting.tables ∧ (∀ entry ∈ entries, ∃ s ∈ Setting.all, s.table = table ∧ s.name = entry.1) ∧
      ∀ entry ∈ entries, entry.2.isTable = false := by
  simp only [Setting.mem_tables_iff, Setting.mem_all, true_and]
  exact ⟨fun h => ⟨h.known, h.named, h.plain⟩, fun ⟨known, named, plain⟩ => ⟨known, named, plain⟩⟩

instance (table : String) (entries : List (String × Value)) : Decidable (Sets table entries) :=
  decidable_of_iff _ sets_iff.symm

theorem isLayer_iff : IsLayer layer ↔
    ∀ entry ∈ layer, entry.2.isTable = true ∧ Sets entry.1 entry.2.entries := by
  refine forall₂_congr fun entry _ => ?_
  rw [Value.isTable_iff]
  constructor
  · rintro ⟨entries, eq, sets⟩
    rw [eq]
    exact ⟨⟨entries, rfl⟩, sets⟩
  · rintro ⟨⟨entries, eq⟩, sets⟩
    rw [eq] at sets
    exact ⟨entries, eq, sets⟩

instance (layer : List (String × Value)) : Decidable (IsLayer layer) := decidable_of_iff _ isLayer_iff.symm

/-- A table of tables that gives each setting the value that `w` says. -/
structure Assigns (v : Value) (w : Setting → Option Value) : Prop where
  keyed : Keyed v.entries
  tables : ∀ s : Setting, ∃ entries, Value.lookup? s.table v.entries = some (.table entries) ∧ Keyed entries ∧
    ∀ t : Setting, t.table = s.table → Value.lookup? t.name entries = w t

theorem Assigns.valueAt? (h : Assigns v w) (s : Setting) : s.valueAt? v = w s := by
  obtain ⟨entries, found, -, values⟩ := h.tables s
  rw [Setting.valueAt?, found]
  exact values s rfl

theorem isTable_of_valueIn? {s : Setting} {x : Value} (isLayer : IsLayer layer) (h : s.valueIn? layer = some x) :
    x.isTable = false := by
  obtain ⟨⟨key, _⟩, hentry, mem⟩ := List.mem_flatMap.1 (Value.mem_of_lookup? h)
  obtain ⟨entries, rfl, sets⟩ := isLayer _ hentry
  by_cases same : key = s.table
  · simp only [if_pos same] at mem
    exact sets.plain _ mem
  · simp [same] at mem

theorem Assigns.putTable {w' : Setting → Option Value} {entries : List (String × Value)} {s : Setting}
    (h : Assigns v w) (keyed : Keyed entries)
    (inside : ∀ t : Setting, t.table = s.table → Value.lookup? t.name entries = w' t)
    (outside : ∀ t : Setting, t.table ≠ s.table → w' t = w t) :
    Assigns (.table (Value.putEntry s.table (.table entries) v.entries)) w' := by
  refine ⟨h.keyed.putEntry _ _, fun t => ?_⟩
  rw [Value.entries, h.keyed.lookup?_putEntry]
  by_cases same : t.table = s.table
  · rw [if_pos same]
    exact ⟨entries, rfl, keyed, fun u hu => inside u (hu.trans same)⟩
  · -- the other tables stay as they are, and so do the settings in them
    obtain ⟨old, found, oldKeyed, values⟩ := h.tables t
    rw [if_neg same]
    refine ⟨old, found, oldKeyed, fun u hu => ?_⟩
    rw [values u hu, outside u (hu ▸ same)]

theorem Assigns.putSection {key : String} {entries : List (String × Value)} (h : Assigns v w)
    (sets : Sets key entries) :
    Assigns (Place.put (.table entries) (Place.ofKey key) v)
      fun t => (if key = t.table then Value.lookup? t.name entries else none).or (w t) := by
  obtain ⟨s, rfl⟩ := sets.known
  obtain ⟨old, found, keyed, values⟩ := h.tables s
  have plain : ∀ entry ∈ entries, entry.1.toLower = entry.1 ∧ entry.2.isTable = false := by
    intro entry mem
    obtain ⟨t, -, named⟩ := sets.named entry mem
    exact ⟨named ▸ t.name_toLower, sets.plain entry mem⟩
  obtain ⟨merged, eq, mergedKeyed, lookup⟩ := keyed.mergeEntries plain
  rw [Setting.ofKey_table, Place.put, found, Value.merge, Option.getD_some, eq]
  refine h.putTable mergedKeyed (fun t same => ?_) fun t ne => ?_
  · rw [lookup, values t same, if_pos same.symm]
  · rw [if_neg (Ne.symm ne), Option.none_or]

theorem Assigns.putPlace {x : Value} (h : Assigns v w) (s : Setting) (plain : x.isTable = false) :
    Assigns (Place.put x s.place v) fun t => (if s = t then some x else none).or (w t) := by
  obtain ⟨old, found, keyed, values⟩ := h.tables s
  have eq : Place.put x s.place v =
      .table (Value.putEntry s.table (.table (Value.putEntry s.name x old)) v.entries) := by
    show Value.table (Value.putEntry s.table (Place.put x [.entry s.name] _) v.entries) = _
    rw [found, Option.getD_some, Place.put, Value.merge_of_not_isTable plain, Value.entries]
  rw [eq]
  refine h.putTable (keyed.putEntry _ _) (fun t same => ?_) fun t ne => ?_
  · rw [keyed.lookup?_putEntry, values t same]
    by_cases eq : s = t
    · simp [eq]
    · have ne : t.name ≠ s.name := fun h => eq (Setting.name_injective h).symm
      simp [eq, ne]
  · have ne : s ≠ t := fun eq => ne (eq ▸ rfl)
    simp [ne]

theorem Assigns.putLayer (h : Assigns v w) (isLayer : IsLayer layer) :
    Assigns (putLayer v layer) fun s => (s.valueIn? layer).or (w s) := by
  induction layer generalizing v w with
  | nil => exact h
  | cons entry layer ih =>
    obtain ⟨key, x⟩ := entry
    obtain ⟨⟨entries, rfl, sets⟩, rest⟩ := List.forall_mem_cons.1 isLayer
    -- the rest of the layer is put later, so its values come first
    simp only [Setting.valueIn?_cons, Option.or_assoc]
    exact ih (h.putSection sets) rest

theorem putLayer_builtIn : Settings.putLayer (.table []) builtIn = .table builtIn := by
  have ofKey : ∀ key ∈ Setting.tables, Place.ofKey key = [.entry key] := by
    intro key mem
    obtain ⟨s, rfl⟩ := Setting.mem_tables_iff.1 mem
    exact s.ofKey_table
  have lower : ∀ name ∈ Setting.all.map Setting.name, name.toLower = name := by
    intro name mem
    obtain ⟨s, -, rfl⟩ := List.mem_map.1 mem
    exact s.name_toLower
  simp (disch := decide) only [Settings.putLayer, builtIn, List.foldl_cons, List.foldl_nil, ofKey, lower, Place.put,
    Value.merge, Value.mergeEntries, Value.lookup?, Value.putEntry, Value.entries, Option.getD_none]
  rfl

theorem isLayer_builtIn : IsLayer builtIn := by decide

theorem assigns_builtIn : Assigns (.table builtIn) fun s => s.valueIn? builtIn := by
  refine ⟨by simp [Keyed, builtIn, Value.entries], fun s => ?_⟩
  cases s <;> refine ⟨_, rfl, by simp [Keyed], fun t same => ?_⟩ <;> cases t <;>
    first | rfl | exact absurd same (by decide)

def ofAssigned (w : Setting → Option Value) : Except SettingsError Settings := do
  return {
    release := ← suitable Setting.release.key (match w .release with
      | none | some .null => some none
      | some v => v.looseText?.map some)
    format := ← suitable Setting.format.key ((w .format).bind Value.looseText?)
    elide := ← suitable Setting.elide.key ((w .elide).bind Value.looseFlag?)
    unit := ← suitable Setting.unit.key ((w .unit).bind Value.unit?)
    labelWidth := ← suitable Setting.labelWidth.key ((w .labelWidth).bind Value.looseWord?)
    verbosity := ← suitable Setting.verbosity.key ((w .verbosity).bind Value.verbosity?) }

theorem Assigns.ofValue_eq (h : Assigns v w) : ofValue v = ofAssigned w := by
  obtain ⟨lexer, hlexer, -, inLexer⟩ := h.tables .release
  obtain ⟨render, hrender, -, inRender⟩ := h.tables .format
  obtain ⟨treeviz, htreeviz, -, inTreeviz⟩ := h.tables .labelWidth
  obtain ⟨log, hlog, -, inLog⟩ := h.tables .verbosity
  simp only [Setting.table] at hlexer hrender htreeviz hlog
  rw [ofValue, hlexer, hrender, htreeviz, hlog, ofAssigned, ← inLexer .release rfl, ← inRender .format rfl,
    ← inRender .elide rfl, ← inRender .unit rfl, ← inTreeviz .labelWidth rfl, ← inLog .verbosity rfl]
  rfl

end Settings
end AnnotatedSource
