import AnnotatedSource.Text.Decoding

set_option autoImplicit false

namespace AnnotatedSource

inductive ReadFault where
  | notFound
  | isDirectory
  | notDirectory
  | notText
  /-- A file stands there and cannot be read. -/
  | other (reason : String)
deriving DecidableEq, Repr

namespace ReadFault

def isAbsence : ReadFault → Bool
  | notFound | isDirectory | notDirectory => true
  | notText | other _ => false

def message : ReadFault → String
  | notFound => "No such file or directory (os error 2)"
  | isDirectory => "Is a directory (os error 21)"
  | notDirectory => "Not a directory (os error 20)"
  | notText => "stream did not contain valid UTF-8"
  | other reason => reason

end ReadFault

abbrev FileReader := String → Except ReadFault ByteArray

namespace FileReader

def text (read : FileReader) (path : String) : Except ReadFault String :=
  match read path with
  | .error fault => .error fault
  | .ok bytes =>
    match Text.Utf8.decode? bytes with
    | some s => .ok s
    | none => .error .notText

def lossyText (read : FileReader) (path : String) : Except ReadFault String :=
  (read path).map Text.Utf8.decodeLossy

end FileReader

structure Directory where
  files : List (List String × ByteArray)

namespace Directory

def empty : Directory := ⟨[]⟩

def namesOf (path : String) : List String := (Text.splitOn '/' path.toList).map String.ofList

/-- A file that is added again gets the later bytes. -/
def add (d : Directory) (path : String) (bytes : ByteArray) : Directory :=
  let names := namesOf path
  ⟨(names, bytes) :: d.files.filter fun f => f.1 != names⟩

def file? (d : Directory) (place : List String) : Option ByteArray :=
  (d.files.find? (·.1 == place)).map (·.2)

def isDirectory (d : Directory) (place : List String) : Bool :=
  place.isEmpty || d.files.any fun (names, _) => place.isPrefixOf names && place.length < names.length

def isBetween (name : String) : Bool := name == "" || name == "." || name == ".."

/-- The place that names lead to from a place. Every name but the last must lead to a directory. Above
    the topmost one there are directories, and nothing else is known. -/
def walk (d : Directory) : List String → List String → Except ReadFault (List String)
  | place, [] => .ok place
  | place, name :: rest =>
    if !d.isDirectory place then .error .notDirectory
    else if name = "" ∨ name = "." then d.walk place rest
    else if name = ".." then
      if !place.isEmpty then d.walk place.dropLast rest
      else if rest.all isBetween then .error .isDirectory
      else .error .notFound
    else
      let next := place ++ [name]
      if d.isDirectory next || (d.file? next).isSome then d.walk next rest
      else .error .notFound

def read (d : Directory) : FileReader := fun path =>
  match namesOf path with
  | "" :: _ => .error .notFound
  | names =>
    match d.walk [] names with
    | .error fault => .error fault
    | .ok place =>
      match d.file? place with
      | some bytes => .ok bytes
      | none => .error .isDirectory

variable {d : Directory} {place goal names : List String} {path other : String} {bytes contents : ByteArray}

theorem isDirectory_iff : d.isDirectory place = true ↔
    place = [] ∨ ∃ file ∈ d.files, ∃ rest, rest ≠ [] ∧ place ++ rest = file.1 := by
  simp only [isDirectory, Bool.or_eq_true, List.isEmpty_iff, List.any_eq_true, Bool.and_eq_true,
    List.isPrefixOf_iff_prefix, decide_eq_true_eq]
  refine or_congr_right (exists_congr fun file => and_congr_right fun _ => ⟨?_, ?_⟩)
  · rintro ⟨⟨rest, eq⟩, longer⟩
    refine ⟨rest, ?_, eq⟩
    rintro rfl
    simp [← eq] at longer
  · rintro ⟨rest, ne, eq⟩
    refine ⟨⟨rest, eq⟩, ?_⟩
    have := List.length_pos_iff.2 ne
    simp only [← eq, List.length_append]
    omega

def Stands (d : Directory) (place : List String) : Prop := d.isDirectory place = true ∨ (d.file? place).isSome = true

/-- The way that names lead from a directory: on the spot, up, or down to what stands there. -/
inductive Leads (d : Directory) : List String → List String → List String → Prop
  | done (place : List String) : Leads d place [] place
  | stay {place goal rest : List String} {name : String} (inside : d.isDirectory place = true)
    (still : name = "" ∨ name = ".") (leads : Leads d place rest goal) : Leads d place (name :: rest) goal
  | up {place goal rest : List String} (inside : d.isDirectory place = true) (below : place ≠ [])
    (leads : Leads d place.dropLast rest goal) : Leads d place (".." :: rest) goal
  | into {place goal rest : List String} {name : String} (inside : d.isDirectory place = true)
    (proper : isBetween name = false) (stands : d.Stands (place ++ [name]))
    (leads : Leads d (place ++ [name]) rest goal) : Leads d place (name :: rest) goal

theorem walk_eq_ok_iff : d.walk place names = .ok goal ↔ d.Leads place names goal := by
  induction names generalizing place with
  | nil =>
    constructor
    · intro h
      cases h
      exact .done _
    · rintro ⟨⟩
      rfl
  | cons name rest ih =>
    constructor
    · intro h
      unfold walk at h
      split at h
      · cases h
      next outside =>
      have inside : d.isDirectory place = true := by simpa using outside
      split at h
      · next still => exact .stay inside still (ih.1 h)
      next moving =>
      split at h
      · next upward =>
        subst upward
        split at h
        · next below => exact .up inside (by simpa using below) (ih.1 h)
        · split at h <;> cases h
      · next downward =>
        have proper : isBetween name = false := by simpa [isBetween, downward] using moving
        simp only at h
        split at h
        · next stands => exact .into inside proper (Bool.or_eq_true_iff.1 stands) (ih.1 h)
        · cases h
    · intro h
      cases h with
      | stay inside still leads => simp [walk, inside, still, ih.2 leads]
      | up inside below leads => simp [walk, inside, below, ih.2 leads]
      | into inside proper stands leads =>
        simp only [isBetween, Bool.or_eq_false_iff, beq_eq_false_iff_ne] at proper
        obtain ⟨⟨empty, point⟩, points⟩ := proper
        have found := Bool.or_eq_true_iff.2 stands
        simp [walk, inside, empty, point, points, found, ih.2 leads]

/-- A path is read where its names lead, and one that begins with a slash names nothing here. -/
theorem read_eq_ok_iff : d.read path = .ok bytes ↔ (namesOf path).head? ≠ some "" ∧
    ∃ goal, d.Leads [] (namesOf path) goal ∧ d.file? goal = some bytes := by
  unfold read
  split
  · next rest absolute => simp [absolute]
  · next names relative =>
    have head : (namesOf path).head? ≠ some "" := by
      cases eq : namesOf path with
      | nil => simp
      | cons name rest =>
        intro h
        cases h
        exact relative rest eq
    simp only [ne_eq, head, not_false_eq_true, true_and, ← walk_eq_ok_iff]
    cases d.walk [] (namesOf path) with
    | error fault => simp
    | ok place => cases found : d.file? place <;> simp [found]

theorem file?_add : (d.add path bytes).file? place = if place = namesOf path then some bytes else d.file? place := by
  unfold file? add
  by_cases here : place = namesOf path
  · simp [here]
  · have kept : (d.files.filter fun f => f.1 != namesOf path).find? (·.1 == place) = d.files.find? (·.1 == place) := by
      rw [List.find?_filter]
      congr 1
      funext f
      by_cases same : f.1 = place <;> simp [same, here]
    simp [here, Ne.symm here, kept]

theorem isDirectory_add (h : d.isDirectory place = true) : (d.add path bytes).isDirectory place = true := by
  rw [isDirectory_iff] at h ⊢
  rcases h with top | ⟨file, mem, rest, ne, eq⟩
  · exact .inl top
  · refine .inr ?_
    by_cases same : file.1 = namesOf path
    · exact ⟨(namesOf path, bytes), List.mem_cons_self, rest, ne, eq.trans same⟩
    · exact ⟨file, List.mem_cons_of_mem _ (List.mem_filter.2 ⟨mem, by simpa using same⟩), rest, ne, eq⟩

theorem Stands.add (h : d.Stands place) : (d.add path bytes).Stands place := by
  rcases h with directory | file
  · exact .inl (isDirectory_add directory)
  · refine .inr ?_
    rw [file?_add]
    split
    · rfl
    · exact file

theorem Leads.add (h : d.Leads place names goal) : (d.add path bytes).Leads place names goal := by
  induction h with
  | done place => exact .done place
  | stay inside still _ ih => exact .stay (isDirectory_add inside) still ih
  | up inside below _ ih => exact .up (isDirectory_add inside) below ih
  | into inside proper stands _ ih => exact .into (isDirectory_add inside) proper stands.add ih

theorem leads_add (proper : ∀ name ∈ namesOf path, isBetween name = false) {rest : List String}
    (eq : place ++ rest = namesOf path) : (d.add path bytes).Leads place rest (namesOf path) := by
  induction rest generalizing place with
  | nil =>
    rw [← eq, List.append_nil]
    exact .done place
  | cons name rest ih =>
    have added : (namesOf path, bytes) ∈ (d.add path bytes).files := List.mem_cons_self
    have inside : (d.add path bytes).isDirectory place = true :=
      isDirectory_iff.2 (.inr ⟨_, added, name :: rest, List.cons_ne_nil name rest, eq⟩)
    have onward : (place ++ [name]) ++ rest = namesOf path := by rw [← eq, List.append_assoc, List.singleton_append]
    have stands : (d.add path bytes).Stands (place ++ [name]) := by
      by_cases last : rest = []
      · subst last
        refine .inr ?_
        rw [file?_add, if_pos (by simpa using onward)]
        rfl
      · exact .inl (isDirectory_iff.2 (.inr ⟨_, added, rest, last, onward⟩))
    exact .into inside (proper name (by simp [← eq])) stands (ih onward)

theorem read_add (proper : ∀ name ∈ namesOf path, isBetween name = false) :
    (d.add path bytes).read path = .ok bytes := by
  refine read_eq_ok_iff.2 ⟨fun first => ?_, namesOf path, leads_add proper (List.nil_append _), by simp [file?_add]⟩
  exact absurd (proper "" (List.mem_of_head? first)) (by decide)

/-- Every other file is read as before. -/
theorem read_add_of_elsewhere (h : d.read other = .ok contents)
    (elsewhere : ¬ d.Leads [] (namesOf other) (namesOf path)) : (d.add path bytes).read other = .ok contents := by
  obtain ⟨relative, goal, leads, found⟩ := read_eq_ok_iff.1 h
  have ne : goal ≠ namesOf path := by
    rintro rfl
    exact elsewhere leads
  exact read_eq_ok_iff.2 ⟨relative, goal, leads.add, by rw [file?_add, if_neg ne, found]⟩

end Directory
end AnnotatedSource
