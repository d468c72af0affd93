import AnnotatedSource.Proofs.JsonTexts
import AnnotatedSource.Proofs.Placement
import AnnotatedSource.Proofs.Slots
import AnnotatedSource.RecordingFile

set_option autoImplicit false

namespace AnnotatedSource

namespace Json

def ofOffset (k : Int) : Json := .number ⟨decide (k < 0), k.natAbs, [], none⟩

def ofName : Option String → Json
  | some s => .string (some s)
  | none => .null

def ofFlag : Option Bool → Json
  | some b => .bool b
  | none => .null

theorem writes_ofOffset (k : Int) :
    Writes (ofOffset k) ((if k < 0 then ['-'] else []) ++ Nat.toDigits 10 k.natAbs) := by
  have digits := Numeral.whole_toDigits k.natAbs
  by_cases negative : k < 0
  · have written := Writes.number (.minus digits .none .none)
    rw [List.append_nil, List.append_nil] at written
    rw [ofOffset, decide_eq_true negative, if_pos negative]
    exact written
  · have written := Writes.number (.unsigned digits .none .none)
    rw [List.append_nil, List.append_nil] at written
    rw [ofOffset, decide_eq_false negative, if_neg negative]
    exact written

theorem integer?_of_holdsSigned {k : Int} (h : Word.holdsSigned k = true) :
    Numeral.integer? ⟨decide (k < 0), k.natAbs, [], none⟩ = some k := by
  have range := (Word.holdsSigned_iff k).1 h
  by_cases negative : k < 0
  · have fits : 0 < k.natAbs ∧ k.natAbs ≤ Word.signedBound := by omega
    simp only [Numeral.integer?, List.isEmpty_nil, Option.isNone_none, Bool.and_self, if_true, negative, decide_true,
      if_pos fits, Option.some.injEq]
    omega
  · have bounds : Word.signedBound ≤ Word.bound := by decide
    have fits : Word.holds k.natAbs = true := (Word.holds_iff _).2 (by omega)
    simp only [Numeral.integer?, List.isEmpty_nil, Option.isNone_none, Bool.and_self, if_true, negative, decide_false,
      Bool.false_eq_true, if_false, if_pos fits, Option.some.injEq]
    omega

theorem offset?_ofOffset {k : Int} (h : Word.holdsSigned k = true) : offset? (ofOffset k) = some k := by
  rw [ofOffset, offset?, integer?_of_holdsSigned h, Option.filter_some, if_pos h]

theorem name?_ofName (name : Option String) : name? (ofName name) = some name := by cases name <;> rfl

theorem flag?_ofFlag (flag : Option Bool) : flag? (some (ofFlag flag)) = some flag := by cases flag <;> rfl

end Json

/-! ## Imports -/

namespace ImportRecord

structure Fits (r : ImportRecord) : Prop where
  start : Word.holdsSigned r.start
  stop : Word.holdsSigned r.stop
  statementStart : Word.holdsSigned r.statementStart
  statementStop : Word.holdsSigned r.statementStop
  discriminant : Word.holdsSigned r.discriminant
  assertion : Word.holdsSigned r.assertion

def slots (r : ImportRecord) : List Slot :=
  [⟨"n", .ofName r.name, r.name.isNone⟩, ⟨"s", .ofOffset r.start, false⟩, ⟨"e", .ofOffset r.stop, false⟩,
    ⟨"ss", .ofOffset r.statementStart, false⟩, ⟨"se", .ofOffset r.statementStop, false⟩,
    ⟨"d", .ofOffset r.discriminant, false⟩, ⟨"a", .ofOffset r.assertion, r.assertion == -1⟩]

variable {r : ImportRecord} {members : List (String × Json)}

theorem nodup_slots (r : ImportRecord) : (r.slots.map Slot.key).Nodup := by
  show ["n", "s", "e", "ss", "se", "d", "a"].Nodup
  decide

theorem offsetField?_of_writtenAs (h : Slot.WrittenAs r.slots members) (field : OffsetField) {k : Int} (i : Nat)
    (hs : r.slots[i]? = some ⟨field.key, .ofOffset k, false⟩) (fits : Word.holdsSigned k) :
    offsetField? Json.fields members field = some k := by
  unfold offsetField?
  rcases field?_of_writtenAs h (nodup_slots r) (List.mem_of_getElem? hs) with found | ⟨assumed, -⟩
  · have here : field? field.key members = some (some (.ofOffset k)) := found
    rw [here]
    exact Json.offset?_ofOffset fits
  · cases assumed

theorem ofMembers?_of_writtenAs (fits : r.Fits) (h : Slot.WrittenAs r.slots members) :
    ofMembers? Json.fields members = some r := by
  have start := offsetField?_of_writtenAs h .start 1 rfl fits.start
  have stop := offsetField?_of_writtenAs h .stop 2 rfl fits.stop
  have statementStart := offsetField?_of_writtenAs h .statementStart 3 rfl fits.statementStart
  have statementStop := offsetField?_of_writtenAs h .statementStop 4 rfl fits.statementStop
  have discriminant := offsetField?_of_writtenAs h .discriminant 5 rfl fits.discriminant
  have name : field? "n" members = some (some (.ofName r.name)) ∨ r.name.isNone ∧ field? "n" members = some none :=
    field?_of_writtenAs h (nodup_slots r) (List.mem_of_getElem? (i := 0) rfl)
  have assertion : field? OffsetField.assertion.key members = some (some (.ofOffset r.assertion)) ∨
      (r.assertion == -1) ∧ field? OffsetField.assertion.key members = some none :=
    field?_of_writtenAs h (nodup_slots r) (List.mem_of_getElem? (i := 6) rfl)
  have hname : Json.fields.name? (.ofName r.name) = some r.name := Json.name?_ofName r.name
  have hassertion : Json.fields.offset? (.ofOffset r.assertion) = some r.assertion :=
    Json.offset?_ofOffset fits.assertion
  simp only [ofMembers?, start, stop, statementStart, statementStop, discriminant]
  -- the name and the assertion are each written or assumed
  rcases name with name | ⟨unnamed, name⟩ <;> rcases assertion with assertion | ⟨unasserted, assertion⟩
  · simp [name, assertion, hname, hassertion]
  · have none : r.assertion = -1 := eq_of_beq unasserted
    simp [name, assertion, hname, ← none]
  · have none : r.name = none := Option.isNone_iff_eq_none.1 unnamed
    simp [name, assertion, hassertion, ← none]
  · have none : r.name = none ∧ r.assertion = -1 := ⟨Option.isNone_iff_eq_none.1 unnamed, eq_of_beq unasserted⟩
    simp [name, assertion, ← none.1, ← none.2]

theorem ofItems?_of_renders (fits : r.Fits) {count : Nat} (omitted : ∀ s ∈ r.slots.drop count, s.assumed) :
    ofItems? Json.fields ((r.slots.take count).map Slot.value) = some r := by
  have name : Json.fields.name? (.ofName r.name) = some r.name := Json.name?_ofName r.name
  have offset {k : Int} (h : Word.holdsSigned k) : Json.fields.offset? (.ofOffset k) = some k := Json.offset?_ofOffset h
  have least : 5 < count :=
    Nat.lt_of_not_le fun early => Bool.false_ne_true (Slot.assumed_of_omitted omitted (i := 5) rfl early)
  rcases Nat.lt_or_ge 6 count with whole | short
  · have all : r.slots.take count = r.slots := List.take_of_length_le whole
    rw [all]
    simp [ofItems?, slots, name, offset fits.start, offset fits.stop, offset fits.statementStart,
      offset fits.statementStop, offset fits.discriminant, offset fits.assertion]
  · obtain rfl : count = 6 := by omega
    have none : r.assertion = -1 := eq_of_beq (omitted _ (List.mem_of_getElem? (i := 0) rfl))
    simp [ofItems?, slots, name, offset fits.start, offset fits.stop, offset fits.statementStart,
      offset fits.statementStop, offset fits.discriminant, ← none]

theorem importRecord?_of_renders (fits : r.Fits) {v : Json} (h : Slot.Renders r.slots v) :
    Json.importRecord? v = some r := by
  cases h with
  | object h => rw [Json.importRecord?, Json.keyed?_map, Option.bind_some, ofMembers?_of_writtenAs fits h]
  | array omitted => exact ofItems?_of_renders fits omitted

end ImportRecord

/-! ## Exports -/

theorem Value.ofJson?_ofOffset {k : Int} (h : Word.holdsSigned k = true) :
    ofJson? (.ofOffset k) = some (.integer k) := by
  rw [Json.ofOffset, ofJson?, Json.integer?_of_holdsSigned h]

namespace ExportRecord

structure Fits (x : ExportRecord) : Prop where
  start : Word.holdsSigned x.start
  stop : Word.holdsSigned x.stop
  localStart : Word.holdsSigned x.localStart
  localStop : Word.holdsSigned x.localStop

def slots (x : ExportRecord) : List Slot :=
  [⟨"n", .ofName x.name, x.name.isNone⟩, ⟨"ln", .ofName x.localName, x.localName.isNone⟩,
    ⟨"s", .ofOffset x.start, false⟩, ⟨"e", .ofOffset x.stop, false⟩,
    ⟨"ls", .ofOffset x.localStart, x.localStart == -1⟩, ⟨"le", .ofOffset x.localStop, x.localStop == -1⟩]

variable {x : ExportRecord} {members : List (String × Json)} {entries : List (String × Value)}

theorem nodup_slots (x : ExportRecord) : (x.slots.map Slot.key).Nodup := by
  show ["n", "ln", "s", "e", "ls", "le"].Nodup
  decide

theorem text_ofName (name : Option String) : ∃ v, Value.ofJson? (.ofName name) = some v ∧ text v = .ok name := by
  cases name with
  | none => exact ⟨.null, rfl, rfl⟩
  | some s => exact ⟨.text s, rfl, rfl⟩

theorem offset_integer {k : Int} (h : Word.holdsSigned k = true) : offset (.integer k) = .ok k := by
  rw [offset, if_pos h]

theorem optional_offset (h : Slot.WrittenAs x.slots members)
    (hentries : Value.ofMembers? (members.map fun m => (some m.1, m.2)) = some entries) {key : String} {k : Int}
    {assumed : Bool} (i : Nat) (hs : x.slots[i]? = some ⟨key, .ofOffset k, assumed⟩) (fits : Word.holdsSigned k) :
    optional offset (Value.lookup? key entries) = .ok (some k) ∨
      assumed ∧ optional offset (Value.lookup? key entries) = .ok none := by
  rcases Value.lookup?_of_writtenAs h (nodup_slots x) (List.mem_of_getElem? hs) hentries with found | ⟨assumed, absent⟩
  · have here : Value.lookup? key entries = some (.integer k) := found.trans (Value.ofJson?_ofOffset fits)
    rw [here, optional, offset_integer fits]
    exact .inl rfl
  · have none : Value.lookup? key entries = none := absent
    rw [none]
    exact .inr ⟨assumed, rfl⟩

theorem optional_text (h : Slot.WrittenAs x.slots members)
    (hentries : Value.ofMembers? (members.map fun m => (some m.1, m.2)) = some entries) {key : String}
    {name : Option String} (i : Nat) (hs : x.slots[i]? = some ⟨key, .ofName name, name.isNone⟩) :
    ∃ found, optional text (Value.lookup? key entries) = .ok found ∧ found.getD none = name := by
  rcases Value.lookup?_of_writtenAs h (nodup_slots x) (List.mem_of_getElem? hs) hentries with found | ⟨assumed, absent⟩
  · obtain ⟨v, hv, htext⟩ := text_ofName name
    have here : Value.lookup? key entries = some v := found.trans hv
    rw [here, optional, htext]
    exact ⟨some name, rfl, rfl⟩
  · have none : Value.lookup? key entries = none := absent
    rw [none]
    exact ⟨_, rfl, (Option.isNone_iff_eq_none.1 assumed).symm⟩

theorem ofEntries_of_writtenAs (fits : x.Fits) (h : Slot.WrittenAs x.slots members)
    (hentries : Value.ofMembers? (members.map fun m => (some m.1, m.2)) = some entries) :
    ofEntries entries = .ok x := by
  have must (key : String) {k : Int} (i : Nat) (hs : x.slots[i]? = some ⟨key, .ofOffset k, false⟩)
      (fits : Word.holdsSigned k) : optional offset (Value.lookup? key entries) = .ok (some k) :=
    (optional_offset h hentries i hs fits).resolve_right fun absent => Bool.false_ne_true absent.1
  have may (key : String) {k : Int} (i : Nat) (hs : x.slots[i]? = some ⟨key, .ofOffset k, k == -1⟩)
      (fits : Word.holdsSigned k) :
      ∃ found, optional offset (Value.lookup? key entries) = .ok found ∧ found.getD (-1) = k := by
    rcases optional_offset h hentries i hs fits with found | ⟨assumed, absent⟩
    · exact ⟨some k, found, rfl⟩
    · exact ⟨none, absent, (eq_of_beq assumed).symm⟩
  obtain ⟨name, hname, nameEq⟩ := optional_text h hentries 0 rfl
  obtain ⟨localName, hlocalName, localNameEq⟩ := optional_text h hentries 1 rfl
  have start := must "s" 2 rfl fits.start
  have stop := must "e" 3 rfl fits.stop
  obtain ⟨localStart, hlocalStart, localStartEq⟩ := may "ls" 4 rfl fits.localStart
  obtain ⟨localStop, hlocalStop, localStopEq⟩ := may "le" 5 rfl fits.localStop
  simp only [ofEntries, OffsetField.key, hname, hlocalName, start, stop, hlocalStart, hlocalStop]
  show Except.ok _ = _
  rw [nameEq, localNameEq, localStartEq, localStopEq]

theorem ofItems_of_renders (fits : x.Fits) {count : Nat} (omitted : ∀ s ∈ x.slots.drop count, s.assumed) :
    ∃ values, Value.ofItems? ((x.slots.take count).map Slot.value) = some values ∧ ofItems values = .ok x := by
  obtain ⟨name, hname, readName⟩ := text_ofName x.name
  obtain ⟨localName, hlocalName, readLocalName⟩ := text_ofName x.localName
  have all : Value.ofItems? (x.slots.map Slot.value) = some [name, localName, .integer x.start, .integer x.stop,
      .integer x.localStart, .integer x.localStop] := by
    simp only [slots, List.map_cons, List.map_nil, Value.ofItems?, hname, hlocalName, Value.ofJson?_ofOffset fits.start,
      Value.ofJson?_ofOffset fits.stop, Value.ofJson?_ofOffset fits.localStart, Value.ofJson?_ofOffset fits.localStop]
  refine ⟨_, (List.map_take ..).symm ▸ Value.ofItems?_take count all, ?_⟩
  have written (i : Nat) {s : Slot} (hs : x.slots[i]? = some s) (late : count ≤ i) : s.assumed :=
    Slot.assumed_of_omitted omitted hs late
  have least : 3 < count := Nat.lt_of_not_le fun early => Bool.false_ne_true (written 3 rfl early)
  rcases Nat.lt_or_ge 5 count with whole | short
  · rw [List.take_of_length_le whole]
    simp [ofItems, optional, readName, readLocalName, offset_integer fits.start, offset_integer fits.stop,
      offset_integer fits.localStart, offset_integer fits.localStop, Except.map, bind, Except.bind, pure, Except.pure]
  · have none : x.localStop = -1 := eq_of_beq (written 5 rfl short)
    obtain rfl | rfl : count = 4 ∨ count = 5 := by omega
    · have unplaced : x.localStart = -1 := eq_of_beq (written 4 rfl (Nat.le_refl 4))
      have same : ⟨x.name, x.localName, x.start, x.stop, -1, -1⟩ = x := by
        cases x
        simp_all
      simp [ofItems, optional, readName, readLocalName, offset_integer fits.start, offset_integer fits.stop,
        Except.map, bind, Except.bind, pure, Except.pure, same]
    · simp [ofItems, optional, readName, readLocalName, offset_integer fits.start, offset_integer fits.stop,
        offset_integer fits.localStart, Except.map, bind, Except.bind, pure, Except.pure, ← none]

theorem ofValue_of_renders (fits : x.Fits) {v : Json} (h : Slot.Renders x.slots v) (hasValue : v.HasValue) :
    ∃ value, Value.ofJson? v = some value ∧ ofValue value = .ok x := by
  cases h with
  | object h =>
    obtain ⟨entries, hentries⟩ := Json.exists_ofMembers? hasValue
    exact ⟨.table entries, by rw [Value.ofJson?, hentries, Option.map_some], ofEntries_of_writtenAs fits h hentries⟩
  | array omitted =>
    obtain ⟨values, hvalues, read⟩ := ofItems_of_renders fits omitted
    exact ⟨.list values, by rw [Value.ofJson?, hvalues, Option.map_some], read⟩

end ExportRecord

/-! ## Recordings -/

namespace Recording

/-- A recording as an array of its parts. The flag of the module syntax may be left out where it is not known,
and the list of exports has a value and is not nested too deep. -/
inductive Renders (imports : List ImportRecord) (exports : List ExportRecord) (facade : Bool)
    (moduleSyntax : Option Bool) : Json → Prop
  | parts {first second rest : List Json}
    (himports : List.Forall₂ (fun (r : ImportRecord) v => Slot.Renders r.slots v) imports first)
    (hexports : List.Forall₂ (fun (x : ExportRecord) v => Slot.Renders x.slots v) exports second)
    (hasValue : (Json.array second).HasValue) (depth : (Json.array second).depth ≤ nestingLimit)
    (flag : rest = [.ofFlag moduleSyntax] ∨ moduleSyntax = none ∧ rest = []) :
    Renders imports exports facade moduleSyntax (.array (.array first :: .array second :: .bool facade :: rest))

variable {imports : List ImportRecord} {exports : List ExportRecord} {facade : Bool} {moduleSyntax : Option Bool}

theorem importRecords?_of_renders (fits : ∀ r ∈ imports, r.Fits) {items : List Json}
    (h : List.Forall₂ (fun (r : ImportRecord) v => Slot.Renders r.slots v) imports items) :
    Json.importRecords? (.array items) = some imports := by
  show items.mapM Json.importRecord? = some imports
  induction h with
  | nil => rfl
  | cons hv rest ih =>
    rw [List.forall_mem_cons] at fits
    rw [List.mapM_cons, ImportRecord.importRecord?_of_renders fits.1 hv, ih fits.2]
    rfl

theorem listOfValue_of_renders (fits : ∀ x ∈ exports, x.Fits) {items : List Json}
    (h : List.Forall₂ (fun (x : ExportRecord) v => Slot.Renders x.slots v) exports items)
    (hasValue : Json.HasValues items) :
    ∃ values, Value.ofItems? items = some values ∧ values.mapM ExportRecord.ofValue = .ok exports := by
  induction h with
  | nil => exact ⟨[], rfl, rfl⟩
  | cons hv rest ih =>
    rw [List.forall_mem_cons] at fits
    obtain ⟨value, hvalue, read⟩ := ExportRecord.ofValue_of_renders fits.1 hv hasValue.1
    obtain ⟨values, hvalues, readRest⟩ := ih fits.2 hasValue.2
    refine ⟨value :: values, Value.ofItems?_cons_eq_some.2 ⟨value, values, hvalue, hvalues, rfl⟩, ?_⟩
    rw [List.mapM_cons, read, readRest]
    rfl

theorem recording?_of_renders (himports : ∀ r ∈ imports, r.Fits) (hexports : ∀ x ∈ exports, x.Fits) {document : Json}
    (h : Renders imports exports facade moduleSyntax document) : ∃ value,
      Json.recording? document = some ⟨imports, value, facade, moduleSyntax⟩ ∧
        ExportRecord.listOfValue value = .ok exports := by
  cases h with
  | @parts first second rest imports exports hasValue depth flag =>
    obtain ⟨values, hvalues, read⟩ := listOfValue_of_renders hexports exports hasValue
    refine ⟨.list values, ?_, read⟩
    have hlist : Json.exports? (some (.array second)) = some (.list values) := by
      rw [Json.exports?, if_pos depth, Value.ofJson?, hvalues, Option.map_some]
    have hflag : Json.flag? rest[0]? = some moduleSyntax := by
      rcases flag with rfl | ⟨rfl, rfl⟩
      · exact Json.flag?_ofFlag moduleSyntax
      · rfl
    rw [Json.recording?, importRecords?_of_renders himports imports]
    simp only [List.getElem?_cons_zero, List.getElem?_cons_succ, hlist, hflag]
    rfl

/-- A recording is read from every text that writes it, and its exports are read from what is kept of them. -/
theorem ofJsonText_of_renders (himports : ∀ r ∈ imports, r.Fits) (hexports : ∀ x ∈ exports, x.Fits) {document : Json}
    (h : Renders imports exports facade moduleSyntax document) {text : String}
    (htext : Json.Writes document text.toList) : ∃ r, ofJsonText text = .ok r ∧ r.imports = imports ∧
      r.facade = facade ∧ r.moduleSyntax = moduleSyntax ∧ r.exportRecords = .ok exports := by
  obtain ⟨value, read, records⟩ := recording?_of_renders himports hexports h
  refine ⟨⟨imports, value, facade, moduleSyntax⟩, ?_, rfl, rfl, rfl, records⟩
  rw [ofJsonText, Json.read?_of_writes htext, Option.bind_some, read]

/-! ### A recording with its members in reverse -/

def reversed : String :=
  "[[\x7b\"x\":1e999,\"d\":-1,\"se\":10,\"ss\":0,\"e\":9,\"s\":8,\"n\":\"\\uD83D\\ude00\"\x7d],[[\"f\",null,12,13]],true]\n"

def reversedImport : ImportRecord := ⟨some "😀", 8, 9, 0, 10, -1, -1⟩

def reversedExport : ExportRecord := ⟨some "f", none, 12, 13, -1, -1⟩

def tooLarge : String × Json := ("x", .number ⟨false, 1, [], some 999⟩)

def reversedMembers : List (String × Json) := ((reversedImport.slots.take 6).map Slot.member ++ [tooLarge]).reverse

def reversedImportJson : Json := .object (reversedMembers.map fun m => (some m.1, m.2))

def reversedExportJson : Json := .array ((reversedExport.slots.take 4).map Slot.value)

theorem renders_reversedImport : Slot.Renders reversedImport.slots reversedImportJson := by
  refine .object ⟨reversedImport.slots.take 6, [tooLarge], List.take_sublist 6 _, ?_, ?_, List.reverse_perm _⟩
  · intro s hs
    rw [← List.take_append_drop 6 reversedImport.slots] at hs
    rcases List.mem_append.1 hs with kept | dropped
    · exact .inl kept
    · obtain rfl := List.mem_singleton.1 dropped
      exact .inr rfl
  · intro m hm
    obtain rfl := List.mem_singleton.1 hm
    decide

theorem renders_reversedExport : Slot.Renders reversedExport.slots reversedExportJson := by
  refine .array fun s hs => ?_
  rcases List.mem_cons.1 hs with rfl | hs
  · rfl
  · obtain rfl := List.mem_singleton.1 hs
    rfl

theorem writes_escapedName :
    Json.Writes (.ofName reversedImport.name) ('"' :: ("\\uD83D\\ude00".toList ++ ['"'])) := by
  have high : Json.HexUnit 0xd83d ['D', '8', '3', 'D'] :=
    ⟨_, _, _, _, rfl, ⟨by decide, .inr rfl⟩, ⟨by decide, .inl rfl⟩, ⟨by decide, .inl rfl⟩, ⟨by decide, .inr rfl⟩⟩
  have low : Json.HexUnit 0xde00 ['d', 'e', '0', '0'] :=
    ⟨_, _, _, _, rfl, ⟨by decide, .inl rfl⟩, ⟨by decide, .inl rfl⟩, ⟨by decide, .inl rfl⟩, ⟨by decide, .inl rfl⟩⟩
  exact .string (Json.literal_of_spells (.unit high (.unit low .nil)))

theorem writes_reversedImport : Json.Writes reversedImportJson
    "\x7b\"x\":1e999,\"d\":-1,\"se\":10,\"ss\":0,\"e\":9,\"s\":8,\"n\":\"\\uD83D\\ude00\"\x7d".toList := by
  have large : Json.Writes tooLarge.2 (['1'] ++ ([] ++ 'e' :: ['9', '9', '9'])) :=
    .number (.unsigned (Numeral.whole_toDigits 1) .none (.lower (.unsigned (Text.decimal_toDigits 999))))
  have offset := Json.writes_ofOffset
  have written := Json.Writes.object (.more (Json.key_encode "x") large (.more (Json.key_encode "d") (offset (-1))
    (.more (Json.key_encode "se") (offset 10) (.more (Json.key_encode "ss") (offset 0)
      (.more (Json.key_encode "e") (offset 9) (.more (Json.key_encode "s") (offset 8)
        (.last (Json.key_encode "n") writes_escapedName)))))))
  refine .of_eq written ?_
  decide +kernel

theorem writes_reversedExport : Json.Writes reversedExportJson "[\"f\",null,12,13]".toList := by
  have written := Json.Writes.array (.more (.string (Json.literal_encode ['f'])) (.more .null
    (.more (Json.writes_ofOffset 12) (.last (Json.writes_ofOffset 13)))))
  refine .of_eq written ?_
  decide +kernel

theorem writes_reversed :
    Json.Writes (.array [.array [reversedImportJson], .array [reversedExportJson], .bool true]) reversed.toList := by
  have newline : Json.Blanks ['\n'] := by
    intro c hc
    rw [List.mem_singleton.1 hc]
    rfl
  have imports := Json.Writes.array (.last writes_reversedImport)
  have exports := Json.Writes.array (.last writes_reversedExport)
  have written := Json.Writes.array (.more imports (.more exports (.last (.bool true))))
  refine .of_eq (.padded Json.blanks_nil written newline) ?_
  decide +kernel

theorem ofJsonText_of_renders_reversed : ∃ document,
    Renders [⟨some "😀", 8, 9, 0, 10, -1, -1⟩] [⟨some "f", none, 12, 13, -1, -1⟩] true none document ∧
    Json.Writes document reversed.toList ∧ ∃ r, ofJsonText reversed = .ok r ∧
      r.imports = [⟨some "😀", 8, 9, 0, 10, -1, -1⟩] ∧ r.facade = true ∧ r.moduleSyntax = none ∧
      r.exportRecords = .ok [⟨some "f", none, 12, 13, -1, -1⟩] := by
  have himports : ∀ r ∈ [reversedImport], r.Fits := by
    intro r hr
    rw [List.mem_singleton.1 hr]
    exact ⟨rfl, rfl, rfl, rfl, rfl, rfl⟩
  have hexports : ∀ x ∈ [reversedExport], x.Fits := by
    intro x hx
    rw [List.mem_singleton.1 hx]
    exact ⟨rfl, rfl, rfl, rfl⟩
  have hasValue : (Json.array [reversedExportJson]).HasValue :=
    ⟨⟨rfl, trivial, .inl rfl, .inl rfl, trivial⟩, trivial⟩
  have renders : Renders [reversedImport] [reversedExport] true none
      (.array [.array [reversedImportJson], .array [reversedExportJson], .bool true]) :=
    .parts (.cons renders_reversedImport .nil) (.cons renders_reversedExport .nil) hasValue (by decide)
      (.inr ⟨rfl, rfl⟩)
  exact ⟨_, renders, writes_reversed, ofJsonText_of_renders himports hexports renders writes_reversed⟩

end Recording
end AnnotatedSource
