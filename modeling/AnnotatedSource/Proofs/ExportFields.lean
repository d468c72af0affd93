import AnnotatedSource.Proofs.ImportFields

set_option autoImplicit false

namespace AnnotatedSource

variable {α : Type}

theorem Field.assumed_of_rel {β : Type} {reads : β → α → Prop} {v : Option β} {found : Option α}
    (h : Option.Rel reads v found) (assumed : α) : Field reads (some assumed) v (found.getD assumed) := by
  cases h with
  | some read => exact read
  | none => rfl

theorem Field.exists_rel {β : Type} {reads : β → α → Prop} {v : Option β} {assumed x : α}
    (h : Field reads (some assumed) v x) : ∃ found, Option.Rel reads v found ∧ found.getD assumed = x := by
  cases v with
  | some v => exact ⟨some x, .some h, rfl⟩
  | none => exact ⟨none, .none, Option.some.inj h⟩

theorem Field.rel_some_iff {β : Type} {reads : β → α → Prop} {v : Option β} {x : α} :
    Option.Rel reads v (some x) ↔ Field reads none v x := by
  constructor
  · rintro ⟨read⟩
    exact read
  · intro h
    cases v with
    | some v => exact .some h
    | none => cases h

namespace Value

def Stands : Option Json → Option Value → Prop := Option.Rel fun v value => ofJson? v = some value

theorem length_of_ofItems? {items : List Json} {values : List Value} (h : ofItems? items = some values) :
    values.length = items.length := by
  induction items generalizing values with
  | nil =>
    obtain rfl : [] = values := Option.some.inj h
    rfl
  | cons v items ih =>
    obtain ⟨x, xs, hx, hitems, rfl⟩ := ofItems?_cons_eq_some.1 h
    rw [List.length_cons, List.length_cons, ih hitems]

theorem stands_getElem? {items : List Json} {values : List Value} (h : ofItems? items = some values) (i : Nat) :
    Stands items[i]? values[i]? := by
  induction items generalizing values i with
  | nil =>
    obtain rfl : [] = values := Option.some.inj h
    exact .none
  | cons v items ih =>
    obtain ⟨x, xs, hx, hitems, rfl⟩ := ofItems?_cons_eq_some.1 h
    cases i with
    | zero => exact .some hx
    | succ i => exact ih hitems i

theorem stands_lookup? {members : List (String × Json)} {entries : List (String × Value)}
    (h : ofMembers? (members.map fun m => (some m.1, m.2)) = some entries) (key : String) :
    Stands (lastUnder? key members) (lookup? key entries) := by
  induction members generalizing entries with
  | nil =>
    obtain rfl : [] = entries := Option.some.inj h
    exact .none
  | cons m members ih =>
    obtain ⟨x, rest, hx, hrest, rfl⟩ := ofMembers?_cons_eq_some.1 h
    have later := ih hrest
    rw [lastUnder?_cons, lookup?]
    generalize lastUnder? key members = last, lookup? key rest = found at later
    cases later with
    | some found => exact .some found
    | none =>
      by_cases same : m.1 = key
      · simp only [if_pos same]
        exact .some hx
      · simp only [if_neg same]
        exact .none

/-- Documents of one kind have values of one kind, numbers aside. -/
inductive KindOf : Json → Value → Prop
  | null : KindOf .null .null
  | bool (b : Bool) : KindOf (.bool b) (.bool b)
  | integer {n : Numeral} {k : Int} (whole : n.integer? = some k) : KindOf (.number n) (.integer k)
  | decimal {n : Numeral} (whole : n.integer? = none) (x : Double) : KindOf (.number n) (.decimal x)
  | text (s : String) : KindOf (.string (some s)) (.text s)
  | list {items : List Json} {values : List Value} (h : ofItems? items = some values) :
    KindOf (.array items) (.list values)
  | table {members : List (Option String × Json)} {entries : List (String × Value)}
    (h : ofMembers? members = some entries) : KindOf (.object members) (.table entries)

theorem kindOf_ofJson? {v : Json} {value : Value} (h : ofJson? v = some value) : KindOf v value := by
  cases v with
  | null =>
    obtain rfl := Option.some.inj h
    exact .null
  | bool b =>
    obtain rfl := Option.some.inj h
    exact .bool b
  | number n =>
    rw [ofJson?] at h
    cases whole : n.integer? with
    | some k =>
      rw [whole] at h
      obtain rfl := Option.some.inj h
      exact .integer whole
    | none =>
      rw [whole] at h
      obtain ⟨x, -, rfl⟩ := Option.map_eq_some_iff.1 h
      exact .decimal whole x
  | string =>
    obtain ⟨s, rfl, rfl⟩ := Option.map_eq_some_iff.1 h
    exact .text s
  | array items =>
    obtain ⟨values, hvalues, rfl⟩ := Option.map_eq_some_iff.1 h
    exact .list hvalues
  | object members =>
    obtain ⟨entries, hentries, rfl⟩ := Option.map_eq_some_iff.1 h
    exact .table hentries

theorem exists_keys {members : List (Option String × Json)} {entries : List (String × Value)}
    (h : ofMembers? members = some entries) :
    ∃ known : List (String × Json), members = known.map fun m => (some m.1, m.2) := by
  induction members generalizing entries with
  | nil => exact ⟨[], rfl⟩
  | cons m members ih =>
    obtain ⟨_ | key, v⟩ := m
    · cases h
    · obtain ⟨x, rest, hx, hrest, rfl⟩ := ofMembers?_cons_eq_some.1 h
      obtain ⟨known, rfl⟩ := ih hrest
      exact ⟨(key, v) :: known, rfl⟩

end Value

namespace ExportRecord

def keys : List String := ["n", "ln", "s", "e", "ls", "le"]

structure Agrees (at? : String → Option Json) (x : ExportRecord) : Prop where
  name : Field Json.IsName (some none) (at? "n") x.name
  localName : Field Json.IsName (some none) (at? "ln") x.localName
  start : Field Json.IsOffset none (at? "s") x.start
  stop : Field Json.IsOffset none (at? "e") x.stop
  localStart : Field Json.IsOffset (some (-1)) (at? "ls") x.localStart
  localStop : Field Json.IsOffset (some (-1)) (at? "le") x.localStop

/-- An object, in which the last value under a key counts, or an array of the fields in their order. -/
inductive Written : Json → ExportRecord → Prop
  | object {members : List (String × Json)} {x : ExportRecord} (agrees : Agrees (lastUnder? · members) x) :
    Written (.object (members.map fun m => (some m.1, m.2))) x
  | array {items : List Json} {x : ExportRecord} (length : items.length ≤ keys.length)
    (agrees : Agrees (fun key => items[keys.idxOf key]?) x) : Written (.array items) x

variable {v : Json} {value : Value} {x : ExportRecord}

theorem agrees_iff {at? : String → Option Json} : Agrees at? x ↔ ∃ name localName start stop localStart localStop,
    Option.Rel Json.IsName (at? "n") name ∧ Option.Rel Json.IsName (at? "ln") localName ∧
    Option.Rel Json.IsOffset (at? "s") (some start) ∧ Option.Rel Json.IsOffset (at? "e") (some stop) ∧
    Option.Rel Json.IsOffset (at? "ls") localStart ∧ Option.Rel Json.IsOffset (at? "le") localStop ∧
    x = ⟨name.getD none, localName.getD none, start, stop, localStart.getD (-1), localStop.getD (-1)⟩ := by
  constructor
  · rintro ⟨name, localName, start, stop, localStart, localStop⟩
    obtain ⟨_, name, nameEq⟩ := name.exists_rel
    obtain ⟨_, localName, localNameEq⟩ := localName.exists_rel
    obtain ⟨_, localStart, localStartEq⟩ := localStart.exists_rel
    obtain ⟨_, localStop, localStopEq⟩ := localStop.exists_rel
    refine ⟨_, _, _, _, _, _, name, localName, Field.rel_some_iff.2 start, Field.rel_some_iff.2 stop, localStart,
      localStop, ?_⟩
    rw [nameEq, localNameEq, localStartEq, localStopEq]
  · rintro ⟨_, _, _, _, _, _, name, localName, start, stop, localStart, localStop, rfl⟩
    exact ⟨.assumed_of_rel name none, .assumed_of_rel localName none, Field.rel_some_iff.1 start,
      Field.rel_some_iff.1 stop, .assumed_of_rel localStart (-1), .assumed_of_rel localStop (-1)⟩

theorem offset_eq_ok_iff (h : Value.ofJson? v = some value) (k : Int) : offset value = .ok k ↔ Json.IsOffset v k := by
  rw [← Json.offset?_eq_some_iff]
  cases Value.kindOf_ofJson? h with
  | integer whole =>
    rw [Json.offset?, whole, offset, Option.filter_some]
    split_ifs <;> simp
  | decimal whole =>
    rw [Json.offset?, whole]
    constructor <;> rintro ⟨⟩
  | _ => constructor <;> rintro ⟨⟩

theorem text_eq_ok_iff (h : Value.ofJson? v = some value) (name : Option String) :
    text value = .ok name ↔ Json.IsName v name := by
  rw [← Json.name?_eq_some_iff]
  cases Value.kindOf_ofJson? h with
  | null | text => rw [text, Json.name?, Except.ok.injEq, Option.some.injEq]
  | _ => constructor <;> rintro ⟨⟩

theorem optional_eq_ok_iff {read : Value → Except RecordFault α} {reads : Json → α → Prop}
    (hread : ∀ {v value}, Value.ofJson? v = some value → ∀ x, read value = .ok x ↔ reads v x) {v : Option Json}
    {value : Option Value} (h : Value.Stands v value) {found : Option α} :
    optional read value = .ok found ↔ Option.Rel reads v found := by
  cases h with
  | none =>
    constructor
    · intro h
      obtain rfl := Except.ok.inj h
      exact .none
    · rintro ⟨⟩
      rfl
  | @some v value hv =>
    constructor
    · intro h
      cases hx : read value with
      | ok x =>
        rw [optional, hx] at h
        obtain rfl := Except.ok.inj h
        exact .some ((hread hv x).1 hx)
      | error fault =>
        rw [optional, hx] at h
        cases h
    · rintro ⟨reads⟩
      rw [optional, (hread hv _).2 reads]
      rfl

theorem required_eq_ok_iff {field : OffsetField} {found : Option Int} {k : Int} :
    required field found = .ok k ↔ found = some k := by
  cases found <;> simp [required]

theorem ofEntries_eq_ok_iff {members : List (String × Json)} {entries : List (String × Value)}
    (h : Value.ofMembers? (members.map fun m => (some m.1, m.2)) = some entries) :
    ofEntries entries = .ok x ↔ Agrees (lastUnder? · members) x := by
  have name (key : String) (found : Option (Option String)) :
      optional text (Value.lookup? key entries) = .ok found ↔ _ :=
    optional_eq_ok_iff text_eq_ok_iff (Value.stands_lookup? h key)
  have offset (key : String) (found : Option Int) : optional offset (Value.lookup? key entries) = .ok found ↔ _ :=
    optional_eq_ok_iff offset_eq_ok_iff (Value.stands_lookup? h key)
  simp only [ofEntries, bind_eq_ok, pure_eq_ok, required_eq_ok_iff, name, offset, agrees_iff]
  constructor
  · rintro ⟨_, stop, _, localStop, _, localName, _, localStart, _, name, _, start, _, rfl, _, rfl, rfl⟩
    exact ⟨_, _, _, _, _, _, name, localName, start, stop, localStart, localStop, rfl⟩
  · rintro ⟨_, _, _, _, _, _, name, localName, start, stop, localStart, localStop, rfl⟩
    exact ⟨_, stop, _, localStop, _, localName, _, localStart, _, name, _, start, _, rfl, _, rfl, rfl⟩

def placed (index : Nat) : Option Value → Except RecordFault Int
  | some v => offset v
  | none => .error (.endsAt index)

theorem placed_eq_ok_iff {index : Nat} {v : Option Json} {value : Option Value} (h : Value.Stands v value) (k : Int) :
    placed index value = .ok k ↔ Option.Rel Json.IsOffset v (some k) := by
  rw [Field.rel_some_iff]
  cases h with
  | some hv => exact offset_eq_ok_iff hv k
  | none => constructor <;> rintro ⟨⟩

theorem ofItems_eq (values : List Value) : ofItems values = (do
    let name ← optional text values[0]?
    let localName ← optional text values[1]?
    let start ← placed 2 values[2]?
    let stop ← placed 3 values[3]?
    let localStart ← optional offset values[4]?
    let localStop ← optional offset values[5]?
    if 6 < values.length then .error (.tooLong values.length)
    else return ⟨name.getD none, localName.getD none, start, stop, localStart.getD (-1), localStop.getD (-1)⟩) := by
  unfold ofItems
  cases values[2]? <;> cases values[3]? <;> rfl

theorem ofItems_eq_ok_iff {items : List Json} {values : List Value} (h : Value.ofItems? items = some values) :
    ofItems values = .ok x ↔ items.length ≤ keys.length ∧ Agrees (fun key => items[keys.idxOf key]?) x := by
  have name (i : Nat) (found : Option (Option String)) : optional text values[i]? = .ok found ↔ _ :=
    optional_eq_ok_iff text_eq_ok_iff (Value.stands_getElem? h i)
  have offset (i : Nat) (found : Option Int) : optional offset values[i]? = .ok found ↔ _ :=
    optional_eq_ok_iff offset_eq_ok_iff (Value.stands_getElem? h i)
  have placed (i : Nat) (k : Int) : placed i values[i]? = .ok k ↔ _ := placed_eq_ok_iff (Value.stands_getElem? h i) k
  simp only [ofItems_eq, bind_eq_ok, name, offset, placed, Value.length_of_ofItems? h, agrees_iff]
  constructor
  · rintro ⟨_, name, _, localName, _, start, _, stop, _, localStart, _, localStop, read⟩
    split_ifs at read with long
    exact ⟨Nat.le_of_not_lt long, _, _, _, _, _, _, name, localName, start, stop, localStart, localStop,
      pure_eq_ok.1 read⟩
  · rintro ⟨short, _, _, _, _, _, _, name, localName, start, stop, localStart, localStop, rfl⟩
    have fits : ¬ 6 < items.length := Nat.not_lt.2 short
    refine ⟨_, name, _, localName, _, start, _, stop, _, localStart, _, localStop, ?_⟩
    rw [if_neg fits]
    rfl

theorem ofValue_eq_ok_iff (h : Value.ofJson? v = some value) : ofValue value = .ok x ↔ Written v x := by
  cases Value.kindOf_ofJson? h with
  | list hvalues =>
    rw [ofValue, ofItems_eq_ok_iff hvalues]
    constructor
    · rintro ⟨length, agrees⟩
      exact .array length agrees
    · rintro (_ | ⟨length, agrees⟩)
      exact ⟨length, agrees⟩
  | table hentries =>
    constructor
    · intro read
      obtain ⟨known, rfl⟩ := Value.exists_keys hentries
      exact .object ((ofEntries_eq_ok_iff hentries).1 read)
    · rintro ⟨agrees⟩
      exact (ofEntries_eq_ok_iff hentries).2 agrees
  | _ => constructor <;> rintro ⟨⟩

theorem mapM_ofValue_eq_ok_iff {items : List Json} {values : List Value} {records : List ExportRecord}
    (h : Value.ofItems? items = some values) :
    values.mapM ofValue = .ok records ↔ List.Forall₂ Written items records := by
  induction items generalizing values records with
  | nil =>
    obtain rfl : [] = values := Option.some.inj h
    rw [mapM_eq_ok, List.forall₂_nil_left_iff, List.forall₂_nil_left_iff]
  | cons v items ih =>
    obtain ⟨value, rest, hvalue, hrest, rfl⟩ := Value.ofItems?_cons_eq_some.1 h
    simp only [List.mapM_cons, bind_eq_ok, pure_eq_ok, ofValue_eq_ok_iff hvalue, ih hrest, List.forall₂_cons_left_iff]
    constructor
    · rintro ⟨x, hx, others, hothers, rfl⟩
      exact ⟨x, others, hx, hothers, rfl⟩
    · rintro ⟨x, others, hx, hothers, rfl⟩
      exact ⟨x, hx, others, hothers, rfl⟩

/-- The records of a list are read if and only if each of its items writes one. -/
theorem listOfValue_eq_ok_iff {records : List ExportRecord} (h : Value.ofJson? v = some value) :
    listOfValue value = .ok records ↔ ∃ items, v = .array items ∧ List.Forall₂ Written items records := by
  cases Value.kindOf_ofJson? h with
  | list hvalues =>
    rw [listOfValue, mapM_ofValue_eq_ok_iff hvalues]
    simp only [Json.array.injEq, exists_eq_left']
  | _ =>
    constructor
    · rintro ⟨⟩
    · rintro ⟨_, ⟨⟩, _⟩

end ExportRecord
end AnnotatedSource
