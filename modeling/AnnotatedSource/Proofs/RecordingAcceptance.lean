import AnnotatedSource.Proofs.ExportFields

set_option autoImplicit false

/-!
# Which documents are recordings

Whether a document is taken as a recording is decided by its imports and its flags. The part with the exports
only has to be something that can be kept: it is looked into when its records are asked for.
-/
namespace AnnotatedSource

def Json.part? (i : Nat) : Json → Option Json
  | .array items => items[i]?
  | _ => none

namespace Recording

/-- What the parts of a document tell, the exports aside. A flag that is left out or null is not known, and
without one that is known a module is no facade. -/
structure Tells (document : Json) (imports : List ImportRecord) (facade : Bool) (moduleSyntax : Option Bool) :
    Prop where
  imports : ∃ items, document.part? 0 = some (.array items) ∧ List.Forall₂ ImportRecord.Written items imports
  facade : ∃ flag, Field Json.IsFlag (some none) (document.part? 2) flag ∧ facade = flag.getD false
  moduleSyntax : Field Json.IsFlag (some none) (document.part? 3) moduleSyntax

def told (r : Recording) : List ImportRecord × Bool × Option Bool := (r.imports, r.facade, r.moduleSyntax)

/-- The part with the exports, if it is there, has a value and is not nested too deep. -/
def Keepable (document : Json) : Prop :=
  ∀ v, document.part? 1 = some v → v.HasValue ∧ v.depth ≤ nestingLimit

variable {document : Json}

theorem recording?_eq (document : Json) :
    Json.recording? document = ((document.part? 0).bind Json.importRecords?).bind fun imports =>
      (Json.exports? (document.part? 1)).bind fun exports => (Json.flag? (document.part? 2)).bind fun facade =>
      (Json.flag? (document.part? 3)).bind fun moduleSyntax =>
      some ⟨imports, exports, facade.getD false, moduleSyntax⟩ := by
  match document with
  | .array (first :: rest) => rfl
  | .array [] | .null | .bool _ | .number _ | .string _ | .object _ => rfl

theorem recording?_eq_some_iff {r : Recording} : Json.recording? document = some r ↔
    Json.exports? (document.part? 1) = some r.exports ∧ Tells document r.imports r.facade r.moduleSyntax := by
  simp only [recording?_eq, Option.bind_eq_some_iff, ImportRecord.importRecords?_eq_some_iff, Json.flag?_eq_some_iff]
  constructor
  · rintro ⟨imports, ⟨_, part, items, rfl, himports⟩, exports, hexports, flag, facade, moduleSyntax, hmoduleSyntax, h⟩
    obtain rfl := Option.some.inj h
    exact ⟨hexports, ⟨items, part, himports⟩, ⟨flag, facade, rfl⟩, hmoduleSyntax⟩
  · rintro ⟨hexports, ⟨items, part, himports⟩, ⟨flag, facade, same⟩, hmoduleSyntax⟩
    refine ⟨_, ⟨_, part, items, rfl, himports⟩, _, hexports, flag, facade, _, hmoduleSyntax, ?_⟩
    rw [← same]

theorem exists_exports? (keepable : Keepable document) :
    ∃ exports, Json.exports? (document.part? 1) = some exports := by
  cases part : document.part? 1 with
  | none => exact ⟨_, rfl⟩
  | some v =>
    obtain ⟨hasValue, depth⟩ := keepable v part
    obtain ⟨value, hvalue⟩ := Json.exists_ofJson? hasValue
    exact ⟨value, by rw [Json.exports?, if_pos depth, hvalue]⟩

theorem map_told_recording? (keepable : Keepable document) : (Json.recording? document).map told =
    ((document.part? 0).bind Json.importRecords?).bind fun imports => (Json.flag? (document.part? 2)).bind fun facade =>
      (Json.flag? (document.part? 3)).bind fun moduleSyntax => some (imports, facade.getD false, moduleSyntax) := by
  obtain ⟨exports, kept⟩ := exists_exports? keepable
  rw [recording?_eq, kept]
  cases (document.part? 0).bind Json.importRecords? with
  | none => rfl
  | some imports => cases Json.flag? (document.part? 2) <;> cases Json.flag? (document.part? 3) <;> rfl

theorem exportRecords_eq_ok_iff {r : Recording} (h : Json.exports? (document.part? 1) = some r.exports)
    (records : List ExportRecord) : r.exportRecords = .ok records ↔ document.part? 1 = none ∧ records = [] ∨
      ∃ items, document.part? 1 = some (.array items) ∧ List.Forall₂ ExportRecord.Written items records := by
  rw [exportRecords]
  cases part : document.part? 1 with
  | none =>
    rw [part] at h
    rw [← Option.some.inj h]
    simp [ExportRecord.listOfValue, pure_eq_ok]
  | some v =>
    obtain ⟨-, value⟩ : v.depth ≤ nestingLimit ∧ Value.ofJson? v = some r.exports := by
      simpa [part, Json.exports?] using h
    rw [ExportRecord.listOfValue_eq_ok_iff value]
    simp

variable {text : String}

theorem ofJsonText_of_writes (written : Json.Writes document text.toList) :
    ofJsonText text = (Json.recording? document).elim (.error .undecodable) .ok := by
  rw [ofJsonText, Json.read?_of_writes written, Option.bind_some]
  cases Json.recording? document <;> rfl

theorem ofJsonText_eq_ok_iff (written : Json.Writes document text.toList) {r : Recording} :
    ofJsonText text = .ok r ↔ Json.recording? document = some r := by
  rw [ofJsonText_of_writes written]
  cases Json.recording? document <;> simp

theorem map_told_ofJsonText (written : Json.Writes document text.toList) :
    (ofJsonText text).map told = ((Json.recording? document).map told).elim (.error .undecodable) .ok := by
  rw [ofJsonText_of_writes written]
  cases Json.recording? document <;> rfl

/-- A document is taken if and only if its first part lists imports and the parts behind the exports are flags, and
nothing else in it counts for what is taken. Its exports are kept as they are, and records are read from them if
and only if they are left out or each of them is a record. -/
theorem ofJsonText_exact (written : Json.Writes document text.toList) (keepable : Keepable document) :
    (∀ imports facade moduleSyntax, (∃ exports, ofJsonText text = .ok ⟨imports, exports, facade, moduleSyntax⟩) ↔
      Tells document imports facade moduleSyntax) ∧
    (∀ (other : Json) (otherText : String), Json.Writes other otherText.toList → Keepable other →
      (∀ i ∈ [0, 2, 3], other.part? i = document.part? i) →
      (ofJsonText otherText).map told = (ofJsonText text).map told) ∧
    ∀ r, ofJsonText text = .ok r →
      (document.part? 1 = none → r.exports = .list []) ∧
      (∀ v, document.part? 1 = some v → Value.ofJson? v = some r.exports) ∧
      ∀ records, r.exportRecords = .ok records ↔ document.part? 1 = none ∧ records = [] ∨
        ∃ items, document.part? 1 = some (.array items) ∧ List.Forall₂ ExportRecord.Written items records := by
  have accepted (r : Recording) : ofJsonText text = .ok r ↔ _ :=
    (ofJsonText_eq_ok_iff written).trans recording?_eq_some_iff
  refine ⟨fun imports facade moduleSyntax => ?_, ?_, fun r accepts => ?_⟩
  · simp only [accepted, exists_and_right, exists_exports? keepable, true_and]
  · intro other otherText writtenOther keepableOther same
    rw [map_told_ofJsonText writtenOther, map_told_ofJsonText written, map_told_recording? keepableOther,
      map_told_recording? keepable, same 0 (by decide), same 2 (by decide), same 3 (by decide)]
  · have kept := ((accepted r).1 accepts).1
    refine ⟨fun absent => ?_, fun v part => ?_, exportRecords_eq_ok_iff kept⟩
    · rw [absent] at kept
      exact (Option.some.inj kept).symm
    · rw [part, Json.exports?, if_pos (keepable v part).2] at kept
      exact kept

/-- The import is an array that ends early. In the export each key is written twice, first with a value that is no
offset, and a part follows that means nothing. -/
def repeated : String :=
  "[[[null,8,9,0,10,-1]],[\x7b\"s\":1.5,\"s\":2,\"e\":null,\"e\":4\x7d],null,true,7]"

def unlisted : String := "[[[null,8,9,0,10,-1]],7,null,true]"

def shortImportJson : Json :=
  .array [.null, .ofOffset 8, .ofOffset 9, .ofOffset 0, .ofOffset 10, .ofOffset (-1)]

def repeatedExportJson : Json :=
  .object ([("s", .number ⟨false, 1, [5], none⟩), ("s", .ofOffset 2), ("e", .null), ("e", .ofOffset 4)].map
    fun m => (some m.1, m.2))

def repeatedJson : Json :=
  .array [.array [shortImportJson], .array [repeatedExportJson], .null, .bool true, .ofOffset 7]

def unlistedJson : Json := .array [.array [shortImportJson], .ofOffset 7, .null, .bool true]

theorem writes_shortImport : Json.WritesItems [shortImportJson] "[null,8,9,0,10,-1]".toList := by
  have offset := Json.writes_ofOffset
  have written := Json.Writes.array (.more .null (.more (offset 8) (.more (offset 9) (.more (offset 0)
    (.more (offset 10) (.last (offset (-1))))))))
  refine .last (.of_eq written ?_)
  decide +kernel

theorem writes_repeatedExport : Json.WritesItems [repeatedExportJson]
    "\x7b\"s\":1.5,\"s\":2,\"e\":null,\"e\":4\x7d".toList := by
  have half : Json.Writes (.number ⟨false, 1, [5], none⟩) (['1'] ++ (('.' :: ['5']) ++ [])) :=
    .number (.unsigned (Numeral.whole_toDigits 1) (.point (by decide) (by decide)) .none)
  have offset := Json.writes_ofOffset
  have written := Json.Writes.object (.more (Json.key_encode "s") half (.more (Json.key_encode "s") (offset 2)
    (.more (Json.key_encode "e") .null (.last (Json.key_encode "e") (offset 4)))))
  refine .last (.of_eq written ?_)
  decide +kernel

theorem writes_repeated : Json.Writes repeatedJson repeated.toList := by
  have written := Json.Writes.array (.more (.array writes_shortImport) (.more (.array writes_repeatedExport)
    (.more .null (.more (.bool true) (.last (Json.writes_ofOffset 7))))))
  refine .of_eq written ?_
  decide +kernel

theorem writes_unlisted : Json.Writes unlistedJson unlisted.toList := by
  have written := Json.Writes.array (.more (.array writes_shortImport) (.more (Json.writes_ofOffset 7)
    (.more .null (.last (.bool true)))))
  refine .of_eq written ?_
  decide +kernel

theorem tells_repeated : Tells repeatedJson [⟨none, 8, 9, 0, 10, -1, -1⟩] false (some true) := by
  have written : ImportRecord.Written shortImportJson ⟨none, 8, 9, 0, 10, -1, -1⟩ :=
    .array (by decide) ⟨rfl, ⟨rfl, rfl⟩, ⟨rfl, rfl⟩, ⟨rfl, rfl⟩, ⟨rfl, rfl⟩, ⟨rfl, rfl⟩, rfl⟩
  exact ⟨⟨_, rfl, .cons written .nil⟩, ⟨none, rfl, rfl⟩, rfl⟩

theorem written_repeatedExport : ExportRecord.Written repeatedExportJson ⟨none, none, 2, 4, -1, -1⟩ :=
  .object ⟨rfl, rfl, ⟨rfl, rfl⟩, ⟨rfl, rfl⟩, rfl, rfl⟩

theorem keepable_repeated : Keepable repeatedJson := by
  rintro _ ⟨⟩
  have half : Json.HasValue (.number ⟨false, 1, [5], none⟩) := .inr (by decide +kernel)
  have hasValue : Json.HasValue repeatedExportJson :=
    ⟨rfl, half, rfl, .inl rfl, rfl, trivial, rfl, .inl rfl, trivial⟩
  exact ⟨⟨hasValue, trivial⟩, by decide⟩

theorem keepable_unlisted : Keepable unlistedJson := by
  rintro _ ⟨⟩
  exact ⟨.inl rfl, Nat.zero_le _⟩

theorem ofJsonText_exact_repeated : ∃ document other,
    Json.Writes document repeated.toList ∧ Keepable document ∧ Json.Writes other unlisted.toList ∧ Keepable other ∧
    (∃ r, ofJsonText repeated = .ok r ∧ told r = ([⟨none, 8, 9, 0, 10, -1, -1⟩], false, some true) ∧
      r.exportRecords = .ok [⟨none, none, 2, 4, -1, -1⟩]) ∧
    (ofJsonText unlisted).map told = .ok ([⟨none, 8, 9, 0, 10, -1, -1⟩], false, some true) := by
  obtain ⟨accepted, alike, exports⟩ := ofJsonText_exact writes_repeated keepable_repeated
  obtain ⟨kept, read⟩ := (accepted _ _ _).2 tells_repeated
  have records := (exports _ read).2.2 [⟨none, none, 2, 4, -1, -1⟩]
  have parts : ∀ i ∈ [0, 2, 3], unlistedJson.part? i = repeatedJson.part? i := by
    simp only [List.forall_mem_cons]
    exact ⟨rfl, rfl, rfl, List.forall_mem_nil _⟩
  have same := alike unlistedJson unlisted writes_unlisted keepable_unlisted parts
  refine ⟨_, _, writes_repeated, keepable_repeated, writes_unlisted, keepable_unlisted, ⟨_, read, rfl, ?_⟩, ?_⟩
  · exact records.2 (.inr ⟨_, rfl, .cons written_repeatedExport .nil⟩)
  · rw [same, read]
    rfl

end Recording
end AnnotatedSource
