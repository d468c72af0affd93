import AnnotatedSource.Proofs.Insertion
import AnnotatedSource.Proofs.Literals
import AnnotatedSource.Proofs.Numerals
import AnnotatedSource.Render

set_option autoImplicit false

namespace AnnotatedSource

variable {s t : List Char}

namespace Text

def PrefixFree (words : List String) : Prop := ∀ x ∈ words, ∀ y ∈ words, x.toList <+: y.toList → x = y

instance : DecidablePred PrefixFree := fun words =>
  inferInstanceAs (Decidable (∀ x ∈ words, ∀ y ∈ words, x.toList <+: y.toList → x = y))

theorem PrefixFree.append_inj {words : List String} (free : PrefixFree words) {x y : String} (hx : x ∈ words)
    (hy : y ∈ words) (h : x.toList ++ s = y.toList ++ t) : x = y ∧ s = t := by
  have same : x = y := by
    have begins : x.toList <+: y.toList ++ t := h ▸ List.prefix_append _ s
    rcases List.prefix_or_prefix_of_prefix begins (List.prefix_append _ t) with below | below
    · exact free x hx y hy below
    · exact (free y hy x hx below).symm
  subst same
  exact ⟨rfl, List.append_cancel_left h⟩

theorem append_cons_inj {c : Char} {a b : List Char} (ha : c ∉ a) (hb : c ∉ b)
    (h : a ++ c :: s = b ++ c :: t) : a = b ∧ s = t := by
  induction a generalizing b with
  | nil =>
    cases b with
    | nil => exact ⟨rfl, (List.cons.inj h).2⟩
    | cons d b =>
      have hd : c = d := (List.cons.inj h).1
      exact absurd (hd ▸ List.mem_cons_self) hb
  | cons e a ih =>
    cases b with
    | nil =>
      have he : e = c := (List.cons.inj h).1
      exact absurd (he ▸ List.mem_cons_self) ha
    | cons d b =>
      obtain ⟨rfl, tails⟩ := List.cons.inj h
      rw [List.mem_cons, not_or] at ha hb
      obtain ⟨rfl, rest⟩ := ih ha.2 hb.2 tails
      exact ⟨rfl, rest⟩

theorem not_mem_repr {c : Char} (hc : c.isDigit = false) (n : Nat) : c ∉ n.repr.toList := by
  intro hn
  rw [Nat.toList_repr] at hn
  have digit : c.isDigit = true := Nat.isDigit_of_mem_toDigits (by decide) (by decide) hn
  rw [hc] at digit
  cases digit

theorem repr_append_inj {m n : Nat} {c : Char} (hc : c.isDigit = false)
    (h : m.repr.toList ++ c :: s = n.repr.toList ++ c :: t) : m = n ∧ s = t := by
  obtain ⟨same, rest⟩ := append_cons_inj (not_mem_repr hc m) (not_mem_repr hc n) h
  rw [Nat.toList_repr, Nat.toList_repr] at same
  have value := (decimal_toDigits n).2.2
  rw [← same, (decimal_toDigits m).2.2] at value
  exact ⟨value, rest⟩

theorem ofBool_mem (b : Bool) : ofBool b ∈ ["true", "false"] := by cases b <;> simp [ofBool]

theorem ofBool_append_inj {a b : Bool} (h : (ofBool a).toList ++ s = (ofBool b).toList ++ t) : a = b ∧ s = t := by
  obtain ⟨same, rest⟩ := PrefixFree.append_inj (by decide) (ofBool_mem a) (ofBool_mem b) h
  cases a <;> cases b <;> first | exact ⟨rfl, rest⟩ | simp [ofBool] at same

end Text

theorem Span.text_append_inj {a b : Span} {c : Char} (hc : c.isDigit = false)
    (h : a.text.toList ++ c :: s = b.text.toList ++ c :: t) : a = b ∧ s = t := by
  have parts (a : Span) (rest : List Char) :
      a.text.toList ++ rest = a.start.repr.toList ++ '.' :: '.' :: (a.stop.repr.toList ++ rest) := by
    simp [Span.text]
  rw [parts, parts] at h
  obtain ⟨start, behind⟩ := Text.repr_append_inj (by decide) h
  obtain ⟨stop, rest⟩ := Text.repr_append_inj hc (List.cons.inj behind).2
  cases a
  cases b
  exact ⟨congrArg₂ Span.mk start stop, rest⟩

theorem Position.text_append_inj {a b : Position} {c : Char} (hc : c.isDigit = false)
    (h : a.text.toList ++ c :: s = b.text.toList ++ c :: t) : a = b ∧ s = t := by
  have parts (a : Position) (rest : List Char) :
      a.text.toList ++ rest = a.line.repr.toList ++ ':' :: (a.column.repr.toList ++ rest) := by
    simp [Position.text]
  rw [parts, parts] at h
  obtain ⟨line, behind⟩ := Text.repr_append_inj (by decide) h
  obtain ⟨column, rest⟩ := Text.repr_append_inj hc behind
  cases a
  cases b
  exact ⟨congrArg₂ Position.mk line column, rest⟩

/-! ## Descriptions -/

theorem ImportForm.name_append_inj {a b : ImportForm} (h : a.name.toList ++ s = b.name.toList ++ t) :
    a = b ∧ s = t := by
  have named (form : ImportForm) : form.name ∈ ["static", "dynamic", "meta"] := by cases form <;> simp [name]
  obtain ⟨same, rest⟩ := Text.PrefixFree.append_inj (by decide) (named a) (named b) h
  cases a <;> cases b <;> first | exact ⟨rfl, rest⟩ | simp [name] at same

namespace Tag

def labels : List String :=
  ["Import Module Specifier: ", "Import Statement (type: ", "Import Assertion Start Position",
    "Dynamic Import Start Position", "Export Exported Name: ", "Export Local Name: "]

def label : Tag → String
  | specifier _ => "Import Module Specifier: "
  | statement _ => "Import Statement (type: "
  | assertion => "Import Assertion Start Position"
  | dynamicKeyword => "Dynamic Import Start Position"
  | exportedName _ => "Export Exported Name: "
  | localName _ => "Export Local Name: "

def payload : Tag → String
  | specifier value | exportedName value | localName value => quoteName value
  | statement form => form.name ++ ")"
  | assertion | dynamicKeyword => ""

theorem describe_eq (tag : Tag) : tag.describe = tag.label ++ tag.payload := by
  cases tag with
  | specifier value => rfl
  | statement form => exact String.append_assoc
  | assertion => exact String.append_empty.symm
  | dynamicKeyword => exact String.append_empty.symm
  | exportedName value => rfl
  | localName value => rfl

theorem label_mem (tag : Tag) : tag.label ∈ labels := by cases tag <;> simp [label, labels]

theorem prefixFree_labels : Text.PrefixFree labels := by decide +kernel

theorem quoteName_append_inj {a b : Option String} (h : (quoteName a).toList ++ s = (quoteName b).toList ++ t) :
    a = b ∧ s = t := by
  cases a with
  | none =>
    cases b with
    | none => exact ⟨rfl, List.append_cancel_left h⟩
    | some name => simp [quoteName, Text.quote, Text.Quoted.encode] at h
  | some name =>
    cases b with
    | none => simp [quoteName, Text.quote, Text.Quoted.encode] at h
    | some other =>
      simp only [quoteName, Text.quote, String.toList_ofList] at h
      obtain ⟨same, rest⟩ := Json.encode_append_inj h
      exact ⟨congrArg some (String.toList_injective same), rest⟩

theorem payload_append_inj {a b : Tag} (labelled : a.label = b.label)
    (h : a.payload.toList ++ s = b.payload.toList ++ t) : a = b ∧ s = t := by
  cases a <;> cases b <;> try (simp [label] at labelled; done)
  case assertion.assertion | dynamicKeyword.dynamicKeyword => exact ⟨rfl, h⟩
  case statement.statement form other =>
    rw [payload, payload, String.toList_append, String.toList_append, List.append_assoc, List.append_assoc] at h
    obtain ⟨rfl, rest⟩ := ImportForm.name_append_inj h
    exact ⟨rfl, List.append_cancel_left rest⟩
  all_goals
    obtain ⟨rfl, rest⟩ := quoteName_append_inj h
    exact ⟨rfl, rest⟩

theorem describe_append_inj {a b : Tag} (h : a.describe.toList ++ s = b.describe.toList ++ t) : a = b ∧ s = t := by
  simp only [describe_eq, String.toList_append, List.append_assoc] at h
  obtain ⟨labelled, behind⟩ := prefixFree_labels.append_inj (label_mem a) (label_mem b) h
  exact payload_append_inj labelled behind

theorem describe_append_ne (tag : Tag) : tag.describe.toList ++ s ≠ ' ' :: t := by
  rw [describe_eq, String.toList_append]
  cases tag <;> simp [label]

def following (tags : List Tag) : List Char := tags.flatMap fun tag => ';' :: ' ' :: tag.describe.toList

def descriptions (tags : List Tag) : List Char := (String.intercalate "; " (tags.map describe)).toList

theorem descriptions_cons (tag : Tag) (tags : List Tag) :
    descriptions (tag :: tags) = tag.describe.toList ++ following tags := by
  simp only [descriptions, String.toList_intercalate, List.map_cons]
  induction tags generalizing tag with
  | nil => simp [following]
  | cons next tags ih =>
    rw [List.map_cons, List.map_cons, List.intercalate_cons_cons, ih]
    simp [following]

theorem following_append_inj {a b : List Tag} (h : following a ++ ' ' :: s = following b ++ ' ' :: t) :
    a = b ∧ s = t := by
  induction a generalizing b with
  | nil =>
    cases b with
    | nil => exact ⟨rfl, (List.cons.inj h).2⟩
    | cons y b => simp [following] at h
  | cons x a ih =>
    cases b with
    | nil => simp [following] at h
    | cons y b =>
      simp only [following, List.flatMap_cons, List.cons_append, List.append_assoc, List.cons.injEq, true_and] at h
      obtain ⟨rfl, behind⟩ := describe_append_inj h
      obtain ⟨rfl, rest⟩ := ih behind
      exact ⟨rfl, rest⟩

theorem descriptions_append_inj {a b : List Tag} (h : descriptions a ++ ' ' :: s = descriptions b ++ ' ' :: t) :
    a = b ∧ s = t := by
  cases a with
  | nil =>
    cases b with
    | nil => exact ⟨rfl, (List.cons.inj h).2⟩
    | cons y b =>
      rw [descriptions_cons, List.append_assoc] at h
      exact absurd h.symm (describe_append_ne y)
  | cons x a =>
    cases b with
    | nil =>
      rw [descriptions_cons, List.append_assoc] at h
      exact absurd h (describe_append_ne x)
    | cons y b =>
      rw [descriptions_cons, descriptions_cons, List.append_assoc, List.append_assoc] at h
      obtain ⟨rfl, behind⟩ := describe_append_inj h
      obtain ⟨rfl, rest⟩ := following_append_inj behind
      exact ⟨rfl, rest⟩

end Tag

/-! ## Lines -/

namespace Outline

variable {f g : Frame} {stem : String}

theorem newline_not_mem_excerpt (source : List Char) (width : Nat) (span : Span) :
    '\n' ∉ excerpt source width span := by
  have replaced (text : List Char) : '\n' ∉ text.map fun c => if c = '\n' then '↵' else c := by
    intro h
    obtain ⟨c, -, hc⟩ := List.mem_map.1 h
    split at hc
    · cases hc
    · contradiction
  unfold excerpt shorten
  split
  · intro h
    rcases List.mem_append.1 h with taken | dots
    · exact replaced _ (List.mem_of_mem_take taken)
    · simp at dots
  · exact replaced _

theorem line_toList (last : Bool) (span : Span) (tags : List Tag) : (line f stem last span tags).toList =
    stem.toList ++ ((connector last).toList ++ ' ' :: (span.text.toList ++ ' ' :: '@' ::
      ((f.table.position span.start).text.toList ++ ' ' :: (Tag.descriptions tags ++ ' ' :: '⟨' ::
        (excerpt f.source f.width span ++ ['⟩'] ++ ['\n']))))) := by
  simp [line, Tag.descriptions]

theorem connector_append_inj {a b : Bool} (h : (connector a).toList ++ s = (connector b).toList ++ t) :
    a = b ∧ s = t := by
  have listed (last : Bool) : connector last ∈ ["└─", "├─"] := by cases last <;> simp [connector]
  obtain ⟨same, rest⟩ := Text.PrefixFree.append_inj (by decide) (listed a) (listed b) h
  cases a <;> cases b <;> first | exact ⟨rfl, rest⟩ | simp [connector] at same

theorem line_append_inj {last last' : Bool} {a b : Span} {tags tags' : List Tag}
    (h : (line f stem last a tags).toList ++ s = (line g stem last' b tags').toList ++ t) :
    last = last' ∧ a = b ∧ tags = tags' ∧ s = t := by
  have ended (frame : Frame) (span : Span) : '\n' ∉ excerpt frame.source frame.width span ++ ['⟩'] := by
    simp [newline_not_mem_excerpt]
  simp only [line_toList, List.append_assoc, List.cons_append, List.append_cancel_left_eq] at h
  obtain ⟨rfl, spans⟩ := connector_append_inj h
  obtain ⟨rfl, places⟩ := Span.text_append_inj (by decide) (List.cons.inj spans).2
  obtain ⟨-, described⟩ := Position.text_append_inj (by decide) (List.cons.inj places).2
  obtain ⟨rfl, excerpts⟩ := Tag.descriptions_append_inj described
  obtain ⟨-, rest⟩ := Text.append_cons_inj (ended f a) (ended g a) (by simpa using (List.cons.inj excerpts).2)
  exact ⟨rfl, rfl, rfl, rest⟩

/-! ## Nesting -/

def Leaves (stem : String) (rest : List Char) : Prop := stem.toList <+: rest → rest = []

theorem forest_cons_toList (n : Node) (rest : Forest) : (forest f stem (n :: rest)).toList =
    (line f stem rest.isEmpty n.span n.tags).toList ++
      ((forest f (stem ++ bar rest.isEmpty) n.children).toList ++ (forest f stem rest).toList) := by
  obtain ⟨span, tags, children⟩ := n
  simp [forest, node]

theorem forest_cons_append (f : Frame) (stem : String) (n : Node) (rest : Forest) (s : List Char) :
    ∃ last behind, (forest f stem (n :: rest)).toList ++ s = stem.toList ++ ((connector last).toList ++ behind) := by
  rw [forest_cons_toList, line_toList]
  exact ⟨rest.isEmpty, _, by simp only [List.append_assoc]; rfl⟩

theorem bar_append_ne (last last' : Bool) : (bar last).toList ++ s ≠ (connector last').toList ++ t := by
  cases last <;> cases last' <;> simp [bar, connector]

theorem not_leaves_forest_cons (n : Node) (rest : Forest) :
    ¬ Leaves stem ((forest f stem (n :: rest)).toList ++ s) := by
  obtain ⟨last, behind, drawn⟩ := forest_cons_append f stem n rest s
  intro h
  rw [drawn] at h
  have ended := h (List.prefix_append _ _)
  cases last <;> simp [connector] at ended

theorem leaves_below (h : Leaves stem s) (rest : Forest) (last : Bool) :
    Leaves (stem ++ bar last) ((forest f stem rest).toList ++ s) := by
  intro begins
  rw [String.toList_append] at begins
  cases rest with
  | nil => exact h ((List.prefix_append _ _).trans begins)
  | cons n rest =>
    obtain ⟨last', behind, drawn⟩ := forest_cons_append f stem n rest s
    rw [drawn, List.prefix_append_right_inj] at begins
    obtain ⟨tail, htail⟩ := begins
    exact absurd htail (bar_append_ne last last')

theorem forest_append_inj {a b : Forest} (hs : Leaves stem s) (ht : Leaves stem t)
    (h : (forest f stem a).toList ++ s = (forest g stem b).toList ++ t) : a = b ∧ s = t := by
  -- what follows is left open: behind the children it starts without their stem
  induction a using Forest.induction generalizing b stem s t with
  | nil =>
    cases b with
    | nil => exact ⟨rfl, h⟩
    | cons m others =>
      have drawn : s = (forest g stem (m :: others)).toList ++ t := h
      exact absurd (drawn ▸ hs) (not_leaves_forest_cons m others)
  | cons n rest below ahead =>
    cases b with
    | nil =>
      have drawn : (forest f stem (n :: rest)).toList ++ s = t := h
      exact absurd (drawn ▸ ht) (not_leaves_forest_cons n rest)
    | cons m others =>
      simp only [forest_cons_toList, List.append_assoc] at h
      obtain ⟨last, spans, tags, behind⟩ := line_append_inj h
      rw [← last] at behind
      obtain ⟨children, tails⟩ := below (leaves_below hs rest rest.isEmpty) (leaves_below ht others rest.isEmpty) behind
      obtain ⟨siblings, behind⟩ := ahead hs ht tails
      have node : n = m := by
        cases n
        cases m
        simp_all
      exact ⟨congrArg₂ List.cons node siblings, behind⟩

def known : Option Bool → String
  | some b => Text.ofBool b
  | none => "unsupported"

theorem known_append_inj {a b : Option Bool} (h : (known a).toList ++ s = (known b).toList ++ t) : a = b ∧ s = t := by
  have listed (flag : Option Bool) : known flag ∈ ["true", "false", "unsupported"] := by
    rcases flag with _ | _ | _ <;> simp [known, Text.ofBool]
  obtain ⟨same, rest⟩ := Text.PrefixFree.append_inj (by decide) (listed a) (listed b) h
  rcases a with _ | _ | _ <;> rcases b with _ | _ | _ <;>
    first | exact ⟨rfl, rest⟩ | simp [known, Text.ofBool] at same

theorem header_eq (a : Annotated) : header a =
    "⧉ module (facade: " ++ Text.ofBool a.facade ++ ", hasModuleSyntax: " ++ known a.moduleSyntax ++ ")\n" := by
  obtain ⟨source, forest, segments, facade, moduleSyntax, capabilities⟩ := a
  cases moduleSyntax <;> rfl

/-- The flags and the forest can be told from an outline, whatever the widths that its texts are cut to. -/
theorem eq_of_render_eq {width width' : Nat} {a b : Annotated} (h : render width a = render width' b) :
    a.facade = b.facade ∧ a.moduleSyntax = b.moduleSyntax ∧ a.forest = b.forest := by
  have drawn := congrArg String.toList h
  simp only [render, header_eq, String.toList_append, List.append_assoc, List.append_cancel_left_eq] at drawn
  obtain ⟨facade, flags⟩ := Text.ofBool_append_inj drawn
  obtain ⟨moduleSyntax, lines⟩ := known_append_inj (List.append_cancel_left flags)
  have leaves : Leaves "" [] := fun _ => rfl
  obtain ⟨forest, -⟩ := forest_append_inj leaves leaves (by simpa using lines)
  exact ⟨facade, moduleSyntax, forest⟩

def lookalike : Recording := ⟨[⟨some "\" ⟨'m'⟩\n", 8, 9, 0, 10, -1, -1⟩], .list [], true, some false⟩

theorem eq_of_render_eq_lookalike : ∃ a b, ({} : Annotator).annotate "import 'm' // 1" lookalike = .ok a ∧
    ({ elide := true } : Annotator).annotate "import 'm' // 22" lookalike = .ok b ∧ render 10 a = render 30 b ∧
      a.facade = b.facade ∧ a.moduleSyntax = b.moduleSyntax ∧ a.forest = b.forest := by
  obtain ⟨a, ha⟩ : ∃ a, ({} : Annotator).annotate "import 'm' // 1" lookalike = .ok a := ⟨_, rfl⟩
  obtain ⟨b, hb⟩ : ∃ b, ({ elide := true } : Annotator).annotate "import 'm' // 22" lookalike = .ok b := ⟨_, rfl⟩
  have same : (({} : Annotator).annotate "import 'm' // 1" lookalike).toOption.map (render 10) =
      (({ elide := true } : Annotator).annotate "import 'm' // 22" lookalike).toOption.map (render 30) := by
    decide +kernel
  rw [ha, hb] at same
  have outline : render 10 a = render 30 b := Option.some.inj same
  exact ⟨a, b, ha, hb, outline, eq_of_render_eq outline⟩

end Outline
end AnnotatedSource
