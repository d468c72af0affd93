import Mathlib
import AnnotatedSource.Proofs.Assignments
import AnnotatedSource.Proofs.Placement

set_option autoImplicit false

/-!
# Layers of settings

However many layers there are and however many single settings, what is read for a setting is the value that wins: that
of the last single setting for it, or else that of the last layer which gives it one, or else the built-in one. Nothing
else of the layers counts.
-/
namespace AnnotatedSource

namespace SettingsFile

/-- The settings are those of the first candidate at which a file stands. -/
theorem firstText_eq_ok_iff {read : FileReader} {paths : List String} {text : String} : firstText read paths = .ok text ↔
    ∃ before path after, paths = before ++ path :: after ∧ read.lossyText path = .ok text ∧
      ∀ p ∈ before, ∃ fault, read p = .error fault ∧ fault.isAbsence = true := by
  induction paths with
  | nil => simp [firstText]
  | cons path paths ih =>
    rw [firstText]
    cases found : read path with
    | ok bytes =>
      have lossy : read.lossyText path = .ok (Text.Utf8.decodeLossy bytes) := by rw [FileReader.lossyText, found]; rfl
      rw [lossy]
      constructor
      · intro h
        exact ⟨[], path, paths, rfl, lossy.trans h, by simp⟩
      · rintro ⟨before, here, after, split, given, absent⟩
        cases before with
        | nil =>
          cases split
          exact lossy.symm.trans given
        | cons first before =>
          cases split
          obtain ⟨fault, missing, -⟩ := absent path List.mem_cons_self
          cases found.symm.trans missing
    | error fault =>
      have lossy : read.lossyText path = .error fault := by rw [FileReader.lossyText, found]; rfl
      simp only [lossy]
      constructor
      · intro h
        split at h
        · next absence =>
          obtain ⟨before, here, after, rfl, given, absent⟩ := ih.1 h
          exact ⟨path :: before, here, after, rfl, given, List.forall_mem_cons.2 ⟨⟨fault, found, absence⟩, absent⟩⟩
        · cases h
      · rintro ⟨before, here, after, split, given, absent⟩
        cases before with
        | nil =>
          cases split
          cases lossy.symm.trans given
        | cons first before =>
          cases split
          obtain ⟨⟨other, missing, absence⟩, absent⟩ := List.forall_mem_cons.1 absent
          cases found.symm.trans missing
          rw [if_pos absence]
          exact ih.2 ⟨before, here, after, rfl, given, absent⟩

end SettingsFile

namespace Settings

variable {v : Value} {w : Setting → Option Value} {layer : List (String × Value)}
  {layers : List (List (String × Value))} {overrides : List (Setting × Option Value)}

def layered? (layers : List (List (String × Value))) (s : Setting) : Option Value :=
  layers.reverse.findSome? s.valueIn?

theorem layered?_append (below above : List (List (String × Value))) (s : Setting) :
    layered? (below ++ above) s = (layered? above s).or (layered? below s) := by
  rw [layered?, List.reverse_append, List.findSome?_append]
  rfl

theorem layered?_cons (layer : List (String × Value)) (above : List (List (String × Value))) (s : Setting) :
    layered? (layer :: above) s = (layered? above s).or (s.valueIn? layer) := by
  rw [← List.singleton_append, layered?_append]
  simp [layered?]

theorem Assigns.putLayers {layers : List (List (String × Value))} (h : Assigns v w)
    (areLayers : ∀ layer ∈ layers, IsLayer layer) :
    Assigns (layers.foldl Settings.putLayer v) fun s => (layered? layers s).or (w s) := by
  induction layers generalizing v w with
  | nil => exact h
  | cons layer layers ih =>
    obtain ⟨isLayer, areLayers⟩ := List.forall_mem_cons.1 areLayers
    simp only [layered?_cons, Option.or_assoc]
    exact ih (h.putLayer isLayer) areLayers

def overriding? (overrides : List (Setting × Option Value)) (s : Setting) : Option Value :=
  overrides.reverse.findSome? fun (t, v) => if t = s then v else none

theorem overriding?_cons (t : Setting) (x : Option Value) (overrides : List (Setting × Option Value)) (s : Setting) :
    overriding? ((t, x) :: overrides) s = (overriding? overrides s).or (if t = s then x else none) := by
  rw [overriding?, List.reverse_cons, List.findSome?_append]
  by_cases same : t = s <;> simp [same, overriding?]

def byKey (overrides : List (Setting × Option Value)) : List (String × Option Value) :=
  overrides.map fun (s, v) => (s.key, v)

def byPlace (overrides : List (Setting × Option Value)) : List (Place × Value) :=
  overrides.filterMap fun (s, v) => v.map (s.place, ·)

theorem places_byKey (overrides : List (Setting × Option Value)) :
    places (byKey overrides) = .ok (byPlace overrides) := by
  induction overrides with
  | nil => rfl
  | cons override overrides ih =>
    obtain ⟨s, _ | v⟩ := override
    · exact ih
    · rw [byKey, List.map_cons, places, Setting.ofText?_key]
      exact congrArg (Except.map ((s.place, v) :: ·)) ih

theorem Assigns.putAll {overrides : List (Setting × Option Value)} (h : Assigns v w)
    (plain : ∀ s x, (s, some x) ∈ overrides → x.isTable = false) :
    Assigns (putAll v (byPlace overrides)) fun s => (overriding? overrides s).or (w s) := by
  induction overrides generalizing v w with
  | nil => exact h
  | cons override overrides ih =>
    have rest : ∀ s x, (s, some x) ∈ overrides → x.isTable = false := fun s x mem => plain s x (.tail _ mem)
    obtain ⟨s, _ | x⟩ := override
    · simp only [overriding?_cons, ite_self, Option.or_none]
      exact ih h rest
    · simp only [overriding?_cons, Option.or_assoc]
      exact ih (h.putPlace s (plain s x (.head _))) rest

def winner? (layers : List (List (String × Value))) (overrides : List (Setting × Option Value)) (s : Setting) :
    Option Value :=
  (overriding? overrides s).or ((layered? layers s).or (s.valueIn? builtIn))

theorem assigns_combine (areLayers : ∀ layer ∈ layers, IsLayer layer)
    (plain : ∀ s x, (s, some x) ∈ overrides → x.isTable = false) :
    Assigns (combine layers (byPlace overrides)) (winner? layers overrides) := by
  rw [combine, List.foldl_cons, putLayer_builtIn]
  exact (assigns_builtIn.putLayers areLayers).putAll plain

theorem ofLayers_eq (areLayers : ∀ layer ∈ layers, IsLayer layer)
    (plain : ∀ s x, (s, some x) ∈ overrides → x.isTable = false) :
    ofLayers layers (byPlace overrides) = ofAssigned (winner? layers overrides) :=
  (assigns_combine areLayers plain).ofValue_eq

theorem load_eq {read : FileReader} {files : List SettingsFile}
    (found : files.mapM (SettingsFile.layer read) = .ok layers) (overrides : List (Setting × Option Value)) :
    load read files (byKey overrides) = ofLayers layers (byPlace overrides) := by
  rw [load, places_byKey]
  show (files.mapM (SettingsFile.layer read) >>= fun layers => ofLayers layers (byPlace overrides)) = _
  rw [found]
  rfl

theorem isTable_of_winner? (areLayers : ∀ layer ∈ layers, IsLayer layer)
    (plain : ∀ s x, (s, some x) ∈ overrides → x.isTable = false) {s : Setting} {x : Value}
    (h : winner? layers overrides s = some x) : x.isTable = false := by
  rcases Option.or_eq_some_iff.1 h with overridden | ⟨-, h⟩
  · obtain ⟨⟨t, y⟩, mem, found⟩ := List.exists_of_findSome?_eq_some overridden
    obtain ⟨-, rfl⟩ : t = s ∧ y = some x := by simpa using found
    exact plain t x (List.mem_reverse.1 mem)
  · rcases Option.or_eq_some_iff.1 h with inLayer | ⟨-, default⟩
    · obtain ⟨layer, mem, found⟩ := List.exists_of_findSome?_eq_some inLayer
      exact isTable_of_valueIn? (areLayers _ (List.mem_reverse.1 mem)) found
    · exact isTable_of_valueIn? isLayer_builtIn default

/-- A layer that gives nothing but the winners changes none of them. -/
theorem winner?_of_winners {single : List (String × Value)}
    (values : ∀ s : Setting, s.valueIn? single = winner? layers overrides s) :
    winner? [single] [] = winner? layers overrides := by
  funext s
  show none.or ((layered? [single] s).or (s.valueIn? builtIn)) = _
  rw [layered?_cons, values, winner?]
  simp [layered?, Option.or_assoc, Option.or_self]

theorem isSome_layered?_iff {s : Setting} :
    (layered? layers s).isSome ↔ ∃ layer ∈ layers, (s.valueIn? layer).isSome := by
  simp [layered?, List.findSome?_isSome_iff]

theorem isSome_overriding?_iff {s : Setting} : (overriding? overrides s).isSome ↔ ∃ x, (s, some x) ∈ overrides := by
  simp only [overriding?, List.findSome?_isSome_iff, List.mem_reverse]
  constructor
  · rintro ⟨⟨t, x⟩, mem, found⟩
    by_cases same : t = s
    · subst same
      obtain ⟨x, rfl⟩ := Option.isSome_iff_exists.1 (by simpa using found)
      exact ⟨x, mem⟩
    · simp [same] at found
  · rintro ⟨x, mem⟩
    exact ⟨_, mem, by simp⟩

theorem winner?_without {below above : List (List (String × Value))} {s : Setting} (absent : s.valueIn? layer = none) :
    winner? (below ++ layer :: above) overrides s = winner? (below ++ above) overrides s := by
  simp only [winner?, layered?_append, layered?_cons, absent, Option.or_none]

theorem winner?_replaced {below above : List (List (String × Value))} {other : List (String × Value)} {s : Setting}
    (replaced : (∃ x, (s, some x) ∈ overrides) ∨ (∃ higher ∈ above, (s.valueIn? higher).isSome) ∨
      s.valueIn? other = s.valueIn? layer) :
    winner? (below ++ other :: above) overrides s = winner? (below ++ layer :: above) overrides s := by
  rw [← isSome_overriding?_iff, ← isSome_layered?_iff, Option.isSome_iff_exists, Option.isSome_iff_exists] at replaced
  simp only [winner?, layered?_append, layered?_cons]
  rcases replaced with ⟨x, overridden⟩ | ⟨x, higher⟩ | same
  · simp only [overridden, Option.some_or]
  · simp only [higher, Option.some_or]
  · rw [same]

def entriesOf (w : Setting → Option Value) (table : String) : List (String × Value) :=
  Setting.all.filterMap fun s => if s.table = table then (w s).map (s.name, ·) else none

def layerOf (w : Setting → Option Value) : List (String × Value) :=
  Setting.tables.map fun table => (table, .table (entriesOf w table))

theorem mem_entriesOf {table : String} {entry : String × Value} :
    entry ∈ entriesOf w table ↔ ∃ s : Setting, s.table = table ∧ s.name = entry.1 ∧ w s = some entry.2 := by
  obtain ⟨name, x⟩ := entry
  simp only [entriesOf, List.mem_filterMap, Setting.mem_all, true_and]
  refine exists_congr fun s => ?_
  by_cases same : s.table = table <;> simp [same, and_comm]

theorem isLayer_layerOf (plain : ∀ s x, w s = some x → x.isTable = false) : IsLayer (layerOf w) := by
  intro entry mem
  obtain ⟨table, htable, rfl⟩ := List.mem_map.1 mem
  refine ⟨_, rfl, Setting.mem_tables_iff.1 htable, fun entry mem => ?_, fun entry mem => ?_⟩
  · obtain ⟨s, same, named, -⟩ := mem_entriesOf.1 mem
    exact ⟨s, same, named⟩
  · obtain ⟨s, -, -, value⟩ := mem_entriesOf.1 mem
    exact plain s _ value

theorem valueIn?_layerOf (w : Setting → Option Value) (s : Setting) : s.valueIn? (layerOf w) = w s := by
  refine Value.lookup?_eq_of_mem_iff fun x => ?_
  simp only [layerOf, List.flatMap_map, List.mem_flatMap, Value.entries]
  constructor
  · rintro ⟨table, -, mem⟩
    split at mem
    · obtain ⟨t, -, named, value⟩ := mem_entriesOf.1 mem
      rwa [← Setting.name_injective named]
    · cases mem
  · intro value
    refine ⟨s.table, Setting.mem_tables_iff.2 ⟨s, rfl⟩, ?_⟩
    rw [if_pos rfl]
    exact mem_entriesOf.2 ⟨s, rfl, rfl, value⟩

theorem byPlace_without_none (before after : List (Setting × Option Value)) (s : Setting) :
    byPlace (before ++ (s, none) :: after) = byPlace (before ++ after) := by
  simp [byPlace]

theorem ofLayers_without_nil (below above : List (List (String × Value))) (settings : List (Place × Value)) :
    ofLayers (below ++ [] :: above) settings = ofLayers (below ++ above) settings := by
  simp only [ofLayers, combine, List.foldl_cons, List.foldl_append]
  rfl

theorem load_without_absent {read : FileReader} {before after : List SettingsFile} {f : SettingsFile}
    {fault : ReadFault} (found : (before ++ f :: after).mapM (SettingsFile.layer read) = .ok layers)
    (optional : f.required = false) (absent : SettingsFile.contents read f.path = .error fault)
    (overrides : List (Setting × Option Value)) :
    load read (before ++ after) (byKey overrides) = load read (before ++ f :: after) (byKey overrides) := by
  have empty : f.layer read = .ok [] := by simp [SettingsFile.layer, absent, optional]
  have split := found
  simp only [List.mapM_append, List.mapM_cons, empty, bind_eq_ok, pure_eq_ok] at split
  obtain ⟨below, hbefore, _, ⟨_, ⟨⟩, above, hafter, rfl⟩, rfl⟩ := split
  have others : (before ++ after).mapM (SettingsFile.layer read) = .ok (below ++ above) := by
    simp only [List.mapM_append, bind_eq_ok, pure_eq_ok]
    exact ⟨below, hbefore, above, hafter, rfl⟩
  rw [load_eq found, load_eq others, ofLayers_without_nil]

/-- Where every file has a layer of settings or need not be there and is not, and no single setting is a table, all of
    them do the same as one layer with nothing but the winners, in whatever arrangement. So a single setting without a
    value changes nothing, and neither does a file that is not there; a layer leaves the values of the settings that it
    does not give alone; and where a layer or a single setting replaces it, a value may be anything. -/
theorem load_eq_single_layer (read : FileReader) {files : List SettingsFile} {layers : List (List (String × Value))}
    {overrides : List (Setting × Option Value)}
    (found : files.mapM (SettingsFile.layer read) = .ok layers) (areLayers : ∀ layer ∈ layers, IsLayer layer)
    (plain : ∀ s x, (s, some x) ∈ overrides → x.isTable = false) :
    (∃ single, IsLayer single ∧ ∀ s : Setting, s.valueIn? single = winner? layers overrides s) ∧
    (∀ single, IsLayer single → (∀ s : Setting, s.valueIn? single = winner? layers overrides s) →
      load read files (byKey overrides) = ofLayers [single] [] ∧
      ∀ reader file, SettingsFile.layer reader file = .ok single →
        load read files (byKey overrides) = load reader [file] []) ∧
    (∀ before s after, overrides = before ++ (s, none) :: after →
      load read files (byKey (before ++ after)) = load read files (byKey overrides)) ∧
    (∀ before f after fault, files = before ++ f :: after → f.required = false →
      SettingsFile.contents read f.path = .error fault →
      load read (before ++ after) (byKey overrides) = load read files (byKey overrides)) ∧
    (∀ below layer above, layers = below ++ layer :: above → ∀ s : Setting, s.valueIn? layer = none →
      s.valueAt? (combine layers (byPlace overrides)) = s.valueAt? (combine (below ++ above) (byPlace overrides))) ∧
    ∀ below layer above other, layers = below ++ layer :: above → IsLayer other →
      (∀ s : Setting, (∃ x, (s, some x) ∈ overrides) ∨ (∃ higher ∈ above, (s.valueIn? higher).isSome) ∨
        s.valueIn? other = s.valueIn? layer) →
      ofLayers (below ++ other :: above) (byPlace overrides) = load read files (byKey overrides) := by
  refine ⟨?_, ?_, ?_, ?_, ?_, ?_⟩
  · exact ⟨layerOf (winner? layers overrides), isLayer_layerOf fun s x => isTable_of_winner? areLayers plain,
      valueIn?_layerOf _⟩
  · intro single isLayer values
    have alone : ofLayers [single] (byPlace []) = ofAssigned (winner? [single] []) :=
      ofLayers_eq (List.forall_mem_singleton.2 isLayer) (by simp)
    have same : load read files (byKey overrides) = ofLayers [single] [] := by
      rw [load_eq found, ofLayers_eq areLayers plain, ← winner?_of_winners values, ← alone]
      rfl
    refine ⟨same, fun reader file gives => same.trans (load_eq ?_ []).symm⟩
    rw [List.mapM_cons, gives]
    rfl
  · rintro before s after rfl
    rw [load_eq found, load_eq found, byPlace_without_none]
  · rintro before f after fault rfl optional absent
    exact load_without_absent found optional absent overrides
  · rintro below layer above rfl s absent
    have others : ∀ l ∈ below ++ above, IsLayer l := fun l mem =>
      areLayers l (((List.sublist_cons_self layer above).append_left below).subset mem)
    rw [(assigns_combine areLayers plain).valueAt?, (assigns_combine others plain).valueAt?, winner?_without absent]
  · rintro below layer above other rfl isOther replaced
    have others : ∀ l ∈ below ++ other :: above, IsLayer l := by
      rw [List.forall_mem_append, List.forall_mem_cons] at areLayers ⊢
      exact ⟨areLayers.1, isOther, areLayers.2.2⟩
    rw [load_eq found, ofLayers_eq areLayers plain, ofLayers_eq others plain]
    exact congrArg ofAssigned (funext fun s => winner?_replaced (replaced s))

def lowText : String := "[render]\noffsets = \"latin\"\n[log]\nlevel = 3\n"

def highText : String := "[render]\noffsets = \"utf16\"\n"

/-- Two files, one of them with an unknown unit and a verbosity that is none. -/
def stackedReader : FileReader := fun path =>
  if path = "low.toml" then .ok lowText.toUTF8
  else if path = "high.toml" then .ok highText.toUTF8
  else .error .notFound

def stackedFiles : List SettingsFile := [⟨"low.toml", true⟩, ⟨"absent.toml", false⟩, ⟨"high.toml", true⟩]

def stackedLayers : List (List (String × Value)) := [
  [("render", .table [("offsets", .text "latin")]), ("log", .table [("level", .integer 3)])],
  [],
  [("render", .table [("offsets", .text "utf16")])]]

def stackedOverrides : List (Setting × Option Value) := [(.verbosity, some (.text "debug")), (.format, none)]

def stackedWinners : List (String × Value) := [
  ("log", .table [("level", .text "debug")]),
  ("render", .table [("format", .text "tag"), ("offsets", .text "utf16"), ("elide_empty_text", .bool true)]),
  ("treeviz", .table [("label_width", .integer 30)])]

theorem mapM_stackedFiles : stackedFiles.mapM (SettingsFile.layer stackedReader) = .ok stackedLayers := by
  have low : SettingsFile.contents stackedReader "low.toml" = .ok lowText := by decide +kernel
  have absent : SettingsFile.contents stackedReader "absent.toml" = .error .notFound := by decide +kernel
  have high : SettingsFile.contents stackedReader "high.toml" = .ok highText := by decide +kernel
  have readsLow : Toml.read? lowText =
      some [("render", .table [("offsets", .text "latin")]), ("log", .table [("level", .integer 3)])] := by cbv
  have readsHigh : Toml.read? highText = some [("render", .table [("offsets", .text "utf16")])] := by cbv
  simp only [stackedFiles, List.mapM_cons, SettingsFile.layer, low, absent, high, readsLow, readsHigh]
  rfl

theorem load_eq_single_layer_stacked :
    stackedFiles.mapM (SettingsFile.layer stackedReader) = .ok stackedLayers ∧
    load stackedReader stackedFiles (byKey stackedOverrides) = ofLayers [stackedWinners] [] ∧
    load stackedReader stackedFiles (byKey stackedOverrides) = .ok { unit := .utf16, verbosity := .debug } := by
  have areLayers : ∀ layer ∈ stackedLayers, IsLayer layer := by decide
  have plain : ∀ s x, (s, some x) ∈ stackedOverrides → x.isTable = false := by
    simp [stackedOverrides, Value.isTable]
  have values : ∀ s : Setting, s.valueIn? stackedWinners = winner? stackedLayers stackedOverrides s := by
    intro s
    cases s <;> rfl
  obtain ⟨-, same, -⟩ := load_eq_single_layer stackedReader mapM_stackedFiles areLayers plain
  exact ⟨mapM_stackedFiles, (same stackedWinners (by decide) values).1, by decide +kernel⟩

end Settings
end AnnotatedSource
