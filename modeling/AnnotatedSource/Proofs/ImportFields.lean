import AnnotatedSource.Proofs.RecordingTexts

set_option autoImplicit false

namespace AnnotatedSource

/-- A field has the value that is read where it stands. Where nothing stands, it has the value that is assumed
for it, if one is. -/
def Field {α β : Type} (reads : β → α → Prop) (assumed : Option α) : Option β → α → Prop
  | some v, x => reads v x
  | none, x => assumed = some x

def lastUnder? {α : Type} (key : String) (members : List (String × α)) : Option α :=
  ((members.filter (·.1 == key)).getLast?).map (·.2)

theorem lastUnder?_cons {α : Type} (key : String) (m : String × α) (members : List (String × α)) :
    lastUnder? key (m :: members) = (lastUnder? key members).or (if m.1 = key then some m.2 else none) := by
  unfold lastUnder?
  by_cases same : m.1 = key
  · rw [List.filter_cons_of_pos (by simpa using same), List.getLast?_cons, if_pos same]
    cases (members.filter (·.1 == key)).getLast? <;> rfl
  · rw [List.filter_cons_of_neg (by simpa using same), if_neg same, Option.or_none]

namespace Json

/-- A whole number within the range of offsets, with neither point nor exponent; minus zero is none. -/
def IsOffset (v : Json) (k : Int) : Prop := v = .ofOffset k ∧ Word.holdsSigned k

def IsName (v : Json) (name : Option String) : Prop := v = .ofName name

def IsFlag (v : Json) (flag : Option Bool) : Prop := v = .ofFlag flag

theorem eq_of_integer? {n : Numeral} {k : Int} (h : n.integer? = some k) :
    n = ⟨decide (k < 0), k.natAbs, [], none⟩ := by
  obtain ⟨negative, whole, fraction, exponent⟩ := n
  unfold Numeral.integer? at h
  split_ifs at h with plain below range range
  · obtain rfl : -(whole : Int) = k := Option.some.inj h
    simp_all
  · obtain rfl : (whole : Int) = k := Option.some.inj h
    simp_all

theorem offset?_eq_some_iff {v : Json} {k : Int} : offset? v = some k ↔ IsOffset v k := by
  constructor
  · intro h
    cases v with
    | number n =>
      obtain ⟨whole, range⟩ := Option.filter_eq_some_iff.1 h
      exact ⟨congrArg number (eq_of_integer? whole), range⟩
    | _ => cases h
  · rintro ⟨rfl, range⟩
    exact offset?_ofOffset range

theorem name?_eq_some_iff {v : Json} {name : Option String} : name? v = some name ↔ IsName v name := by
  constructor
  · intro h
    match v, h with
    | null, rfl => rfl
    | string (some s), rfl => rfl
  · rintro rfl
    exact name?_ofName name

theorem flag?_eq_some_iff {v : Option Json} {flag : Option Bool} :
    flag? v = some flag ↔ Field IsFlag (some none) v flag := by
  constructor
  · intro h
    match v, h with
    | none, rfl => rfl
    | some null, rfl => rfl
    | some (bool b), rfl => rfl
  · intro h
    match v, flag, h with
    | none, none, rfl => rfl
    | some _, flag, rfl => exact flag?_ofFlag flag

theorem keyed?_eq_some_iff {members : List (Option String × Json)} {known : List (String × Json)} :
    keyed? members = some known ↔ members = known.map fun m => (some m.1, m.2) := by
  refine ⟨fun h => ?_, fun h => h ▸ keyed?_map known⟩
  induction members generalizing known with
  | nil =>
    obtain rfl : [] = known := Option.some.inj h
    rfl
  | cons m members ih =>
    obtain ⟨_ | key, v⟩ := m
    · cases h
    · obtain ⟨rest, hrest, rfl⟩ := Option.map_eq_some_iff.1 h
      rw [ih hrest, List.map_cons]

end Json

namespace ImportRecord

structure Agrees (at? : String → Option Json) (r : ImportRecord) : Prop where
  name : Field Json.IsName (some none) (at? "n") r.name
  start : Field Json.IsOffset none (at? "s") r.start
  stop : Field Json.IsOffset none (at? "e") r.stop
  statementStart : Field Json.IsOffset none (at? "ss") r.statementStart
  statementStop : Field Json.IsOffset none (at? "se") r.statementStop
  discriminant : Field Json.IsOffset none (at? "d") r.discriminant
  assertion : Field Json.IsOffset (some (-1)) (at? "a") r.assertion

/-- An object in which no key of a field is written twice, or an array of the fields in their order. -/
inductive Written : Json → ImportRecord → Prop
  | object {members : List (String × Json)} {r : ImportRecord}
    (once : ∀ key ∈ keys, (members.filter (·.1 == key)).length ≤ 1) (agrees : Agrees (lastUnder? · members) r) :
    Written (.object (members.map fun m => (some m.1, m.2))) r
  | array {items : List Json} {r : ImportRecord} (length : items.length ≤ keys.length)
    (agrees : Agrees (fun key => items[keys.idxOf key]?) r) : Written (.array items) r

variable {members : List (String × Json)} {r : ImportRecord} {key : String}

theorem field?_eq_some_iff {found : Option Json} : field? key members = some found ↔
    (members.filter (·.1 == key)).length ≤ 1 ∧ lastUnder? key members = found := by
  unfold field? lastUnder?
  generalize members.filter (·.1 == key) = under
  rcases under with _ | ⟨m, _ | ⟨m', rest⟩⟩ <;> simp

theorem offsetField?_eq_some_iff {field : OffsetField} {k : Int} :
    offsetField? Json.fields members field = some k ↔
      (members.filter (·.1 == field.key)).length ≤ 1 ∧ Field Json.IsOffset none (lastUnder? field.key members) k := by
  have found := @field?_eq_some_iff members field.key
  unfold offsetField?
  constructor
  · intro h
    split at h
    next v hv =>
      obtain ⟨once, last⟩ := found.1 hv
      rw [last]
      exact ⟨once, Json.offset?_eq_some_iff.1 h⟩
    next => cases h
  · rintro ⟨once, agrees⟩
    rw [found.2 ⟨once, rfl⟩]
    cases last : lastUnder? field.key members with
    | none =>
      rw [last] at agrees
      cases agrees
    | some v =>
      rw [last] at agrees
      exact Json.offset?_eq_some_iff.2 agrees

def assumedField? {α β : Type} (read : β → Option α) (assumed : α) (key : String) (members : List (String × β)) :
    Option α :=
  (field? key members).bind fun found => found.elim (some assumed) read

theorem assumedField?_eq_some_iff {α : Type} {read : Json → Option α} {reads : Json → α → Prop}
    (hreads : ∀ v x, read v = some x ↔ reads v x) {assumed x : α} : assumedField? read assumed key members = some x ↔
      (members.filter (·.1 == key)).length ≤ 1 ∧ Field reads (some assumed) (lastUnder? key members) x := by
  simp only [assumedField?, Option.bind_eq_some_iff, field?_eq_some_iff, and_assoc, exists_and_left, exists_eq_left']
  refine and_congr_right fun _ => ?_
  cases lastUnder? key members with
  | none => rfl
  | some v => exact hreads v x

theorem ofMembers?_eq {α : Type} (reader : FieldReader α) (members : List (String × α)) :
    ofMembers? reader members = (assumedField? reader.name? none "n" members).bind fun name =>
      (offsetField? reader members .start).bind fun start => (offsetField? reader members .stop).bind fun stop =>
      (offsetField? reader members .statementStart).bind fun statementStart =>
      (offsetField? reader members .statementStop).bind fun statementStop =>
      (offsetField? reader members .discriminant).bind fun discriminant =>
      (assumedField? reader.offset? (-1) OffsetField.assertion.key members).bind fun assertion =>
      some ⟨name, start, stop, statementStart, statementStop, discriminant, assertion⟩ := by
  unfold ofMembers? assumedField?
  rcases field? "n" members with _ | _ | n <;> rcases field? OffsetField.assertion.key members with _ | _ | a <;> rfl

theorem ofMembers?_eq_some_iff : ofMembers? Json.fields members = some r ↔
    (∀ key ∈ keys, (members.filter (·.1 == key)).length ≤ 1) ∧ Agrees (lastUnder? · members) r := by
  have name (x : Option String) : assumedField? Json.fields.name? none "n" members = some x ↔ _ :=
    assumedField?_eq_some_iff fun _ _ => Json.name?_eq_some_iff
  have assertion (x : Int) : assumedField? Json.fields.offset? (-1) OffsetField.assertion.key members = some x ↔ _ :=
    assumedField?_eq_some_iff fun _ _ => Json.offset?_eq_some_iff
  simp only [ofMembers?_eq, Option.bind_eq_some_iff, offsetField?_eq_some_iff, name, assertion]
  constructor
  · rintro ⟨_, ⟨onceName, name⟩, _, ⟨onceStart, start⟩, _, ⟨onceStop, stop⟩, _, ⟨onceStatementStart, statementStart⟩, _,
      ⟨onceStatementStop, statementStop⟩, _, ⟨onceDiscriminant, discriminant⟩, _, ⟨onceAssertion, assertion⟩, h⟩
    obtain rfl := Option.some.inj h
    refine ⟨?_, name, start, stop, statementStart, statementStop, discriminant, assertion⟩
    simp only [keys, List.forall_mem_cons]
    exact ⟨onceName, onceStart, onceStop, onceStatementStart, onceStatementStop, onceDiscriminant, onceAssertion,
      List.forall_mem_nil _⟩
  · rintro ⟨once, name, start, stop, statementStart, statementStop, discriminant, assertion⟩
    simp only [keys, List.forall_mem_cons] at once
    obtain ⟨onceName, onceStart, onceStop, onceStatementStart, onceStatementStop, onceDiscriminant, onceAssertion, -⟩ :=
      once
    exact ⟨_, ⟨onceName, name⟩, _, ⟨onceStart, start⟩, _, ⟨onceStop, stop⟩, _, ⟨onceStatementStart, statementStart⟩, _,
      ⟨onceStatementStop, statementStop⟩, _, ⟨onceDiscriminant, discriminant⟩, _, ⟨onceAssertion, assertion⟩, rfl⟩

def trailing? {α β : Type} (read : β → Option α) (assumed : α) : List β → Option α
  | [] => some assumed
  | [v] => read v
  | _ => none

theorem trailing?_eq_some_iff {α : Type} {read : Json → Option α} {reads : Json → α → Prop}
    (hreads : ∀ v x, read v = some x ↔ reads v x) {assumed x : α} {rest : List Json} :
    trailing? read assumed rest = some x ↔ rest.length ≤ 1 ∧ Field reads (some assumed) rest[0]? x := by
  rcases rest with _ | ⟨v, _ | ⟨w, rest⟩⟩
  · simp [trailing?, Field]
  · simp [trailing?, Field, hreads]
  · simp [trailing?]

theorem ofItems?_eq {α : Type} (reader : FieldReader α) (n s e ss se d : α) (rest : List α) :
    ofItems? reader (n :: s :: e :: ss :: se :: d :: rest) = (reader.name? n).bind fun name =>
      (reader.offset? s).bind fun start => (reader.offset? e).bind fun stop =>
      (reader.offset? ss).bind fun statementStart => (reader.offset? se).bind fun statementStop =>
      (reader.offset? d).bind fun discriminant => (trailing? reader.offset? (-1) rest).bind fun assertion =>
      some ⟨name, start, stop, statementStart, statementStop, discriminant, assertion⟩ := by
  rcases rest with _ | ⟨a, _ | ⟨b, rest⟩⟩ <;> rfl

theorem ofItems?_eq_some_iff {items : List Json} : ofItems? Json.fields items = some r ↔
    items.length ≤ keys.length ∧ Agrees (fun key => items[keys.idxOf key]?) r := by
  have assertion (rest : List Json) (x : Int) : trailing? Json.fields.offset? (-1) rest = some x ↔ _ :=
    trailing?_eq_some_iff fun _ _ => Json.offset?_eq_some_iff
  have name (v : Json) (x : Option String) : Json.fields.name? v = some x ↔ _ := Json.name?_eq_some_iff
  have offset (v : Json) (k : Int) : Json.fields.offset? v = some k ↔ _ := Json.offset?_eq_some_iff
  rcases items with _ | ⟨n, _ | ⟨s, _ | ⟨e, _ | ⟨ss, _ | ⟨se, _ | ⟨d, rest⟩⟩⟩⟩⟩⟩
  case cons.cons.cons.cons.cons.cons =>
    simp only [ofItems?_eq, Option.bind_eq_some_iff, name, offset, assertion]
    constructor
    · rintro ⟨_, name, _, start, _, stop, _, statementStart, _, statementStop, _, discriminant, _, ⟨short, assertion⟩,
        h⟩
      obtain rfl := Option.some.inj h
      exact ⟨Nat.add_le_add_right short 6, name, start, stop, statementStart, statementStop, discriminant, assertion⟩
    · rintro ⟨length, name, start, stop, statementStart, statementStop, discriminant, assertion⟩
      have short : rest.length + 6 ≤ 1 + 6 := length
      exact ⟨_, name, _, start, _, stop, _, statementStart, _, statementStop, _, discriminant, _,
        ⟨Nat.le_of_add_le_add_right short, assertion⟩, rfl⟩
  -- in each shorter array the discriminant is missing
  all_goals exact ⟨nofun, fun ⟨_, agrees⟩ => nomatch agrees.discriminant⟩

theorem importRecord?_eq_some_iff {v : Json} : Json.importRecord? v = some r ↔ Written v r := by
  constructor
  · intro h
    cases v with
    | object members =>
      obtain ⟨known, hknown, read⟩ := Option.bind_eq_some_iff.1 h
      obtain ⟨once, agrees⟩ := ofMembers?_eq_some_iff.1 read
      rw [Json.keyed?_eq_some_iff.1 hknown]
      exact .object once agrees
    | array items =>
      obtain ⟨length, agrees⟩ := ofItems?_eq_some_iff.1 h
      exact .array length agrees
    | _ => cases h
  · intro h
    cases h with
    | object once agrees =>
      rw [Json.importRecord?, Json.keyed?_map]
      exact ofMembers?_eq_some_iff.2 ⟨once, agrees⟩
    | array length agrees => exact ofItems?_eq_some_iff.2 ⟨length, agrees⟩

theorem importRecords?_eq_some_iff {v : Json} {imports : List ImportRecord} : Json.importRecords? v = some imports ↔
    ∃ items, v = .array items ∧ List.Forall₂ Written items imports := by
  cases v with
  | array items =>
    simp only [Json.array.injEq, exists_eq_left']
    show items.mapM Json.importRecord? = some imports ↔ _
    induction items generalizing imports with
    | nil => simp [eq_comm]
    | cons v items ih =>
      simp only [List.mapM_cons, Option.bind_eq_bind, Option.bind_eq_some_iff, importRecord?_eq_some_iff, ih,
        List.forall₂_cons_left_iff]
      constructor
      · rintro ⟨r, hr, rest, hrest, h⟩
        exact ⟨r, rest, hr, hrest, (Option.some.inj h).symm⟩
      · rintro ⟨r, rest, hr, hrest, rfl⟩
        exact ⟨r, hr, rest, hrest, rfl⟩
  | _ => exact ⟨nofun, nofun⟩

end ImportRecord

end AnnotatedSource
