import AnnotatedSource.Proofs.Covering
import AnnotatedSource.Proofs.JsonWriting
import AnnotatedSource.Render

set_option autoImplicit false

namespace AnnotatedSource

namespace ImportForm

def ofName? : String → Option ImportForm
  | "static" => some static
  | "dynamic" => some dynamic
  | "meta" => some metadata
  | _ => none

theorem ofName?_name (form : ImportForm) : ofName? form.name = some form := by cases form <;> rfl

end ImportForm

namespace Report

def field? (key : String) (members : List (Option String × Json)) : Option Json := members.lookup (some key)

def natural? : Json → Option Nat
  | .number ⟨false, n, [], none⟩ => some n
  | _ => none

def text? : Json → Option String
  | .string s => s
  | _ => none

def span? : Json → Option Span
  | .object members => do
    let start ← (field? "start" members).bind natural?
    let stop ← (field? "end" members).bind natural?
    return ⟨start, stop⟩
  | _ => none

def tagOf? (members : List (Option String × Json)) : String → Option Tag
  | "import-module-specifier" => ((field? "value" members).bind Json.name?).map .specifier
  | "import-statement" => (((field? "kind" members).bind text?).bind ImportForm.ofName?).map .statement
  | "import-assertion" => some .assertion
  | "dynamic-import" => some .dynamicKeyword
  | "export-exported-name" => ((field? "value" members).bind Json.name?).map .exportedName
  | "export-local-name" => ((field? "value" members).bind Json.name?).map .localName
  | _ => none

def tag? : Json → Option Tag
  | .object members => ((field? "type" members).bind text?).bind (tagOf? members)
  | _ => none

def tags? : Json → Option (List Tag)
  | .array items => items.mapM tag?
  | _ => none

mutual

def node? : Json → Option Node
  | .object members => do
    let span ← (field? "span" members).bind span?
    let tags ← (field? "tags" members).bind tags?
    let children ← childNodes? members
    return ⟨span, tags, children⟩
  | _ => none

def childNodes? : List (Option String × Json) → Option Forest
  | [] => none
  | (key, v) :: rest => if key = some "children" then forest? v else childNodes? rest

def forest? : Json → Option Forest
  | .array items => nodes? items
  | _ => none

def nodes? : List Json → Option Forest
  | [] => some []
  | v :: rest => do
    let n ← node? v
    let forest ← nodes? rest
    return n :: forest

end

mutual

def segment? : Json → Option Segment
  | .object members => do
    let span ← (field? "span" members).bind span?
    match ← (field? "kind" members).bind text? with
    | "text" => return .text span
    | "annotated" => do
      let tags ← (field? "tags" members).bind tags?
      let children ← childSegments? members
      return .annotated span tags children
    | _ => none
  | _ => none

def childSegments? : List (Option String × Json) → Option (List Segment)
  | [] => none
  | (key, v) :: rest => if key = some "children" then segmentList? v else childSegments? rest

def segmentList? : Json → Option (List Segment)
  | .array items => segments? items
  | _ => none

def segments? : List Json → Option (List Segment)
  | [] => some []
  | v :: rest => do
    let s ← segment? v
    let following ← segments? rest
    return s :: following

end

/-- What a report tells of an annotated source. -/
structure Contents where
  facade : Bool
  moduleSyntax : Option Bool
  forest : Forest
  segments : List Segment

def contents (a : Annotated) : Contents := ⟨a.facade, a.moduleSyntax, a.forest, a.segments⟩

def boolean? : Json → Option Bool
  | .bool b => some b
  | _ => none

def contents? : Json → Option Contents
  | .object members => do
    let facade ← (field? "facade" members).bind boolean?
    let moduleSyntax ← (field? "hasModuleSyntax" members).bind fun v => Json.flag? (some v)
    let forest ← (field? "tree" members).bind forest?
    let segments ← (field? "segments" members).bind segmentList?
    return ⟨facade, moduleSyntax, forest, segments⟩
  | _ => none

section Members

variable {key other : String} (v : Json) (rest : List (Option String × Json))

@[simp] theorem field?_member : field? key (member key v :: rest) = some v := by simp [field?, member]

@[simp] theorem field?_member_of_ne (h : key ≠ other) : field? key (member other v :: rest) = field? key rest := by
  have differ : (some key == some other) = false := beq_eq_false_iff_ne.2 fun eq => h (Option.some.inj eq)
  simp [field?, member, List.lookup_cons, differ]

@[simp] theorem childNodes?_member : childNodes? (member "children" v :: rest) = forest? v := by
  simp [childNodes?, member]

@[simp] theorem childNodes?_member_of_ne (h : other ≠ "children") :
    childNodes? (member other v :: rest) = childNodes? rest := by
  simp [childNodes?, member, h]

@[simp] theorem childSegments?_member : childSegments? (member "children" v :: rest) = segmentList? v := by
  simp [childSegments?, member]

@[simp] theorem childSegments?_member_of_ne (h : other ≠ "children") :
    childSegments? (member other v :: rest) = childSegments? rest := by
  simp [childSegments?, member, h]

end Members

@[simp] theorem span?_span (s : Span) : span? (span s) = some s := rfl

@[simp] theorem name?_name (value : Option String) : Json.name? (name value) = some value := by cases value <;> rfl

@[simp] theorem text?_string (s : String) : text? (string s) = some s := rfl

@[simp] theorem boolean?_bool (b : Bool) : boolean? (.bool b) = some b := rfl

@[simp] theorem forest?_array (items : List Json) : forest? (.array items) = nodes? items := rfl

@[simp] theorem segmentList?_array (items : List Json) : segmentList? (.array items) = segments? items := rfl

@[simp] theorem flag?_flag (b : Option Bool) : Json.flag? (some (flag b)) = some b := by cases b <;> rfl

theorem tag?_tag (t : Tag) : tag? (tag t) = some t := by
  cases t with
  | specifier value => exact congrArg (Option.map Tag.specifier) (name?_name value)
  | statement form => exact congrArg (Option.map Tag.statement) (ImportForm.ofName?_name form)
  | assertion => rfl
  | dynamicKeyword => rfl
  | exportedName value => exact congrArg (Option.map Tag.exportedName) (name?_name value)
  | localName value => exact congrArg (Option.map Tag.localName) (name?_name value)

@[simp] theorem tags?_tags (tags : List Tag) : tags? (.array (tags.map tag)) = some tags := by
  have read : (tags.map tag).mapM tag? = some tags := by
    induction tags with
    | nil => rfl
    | cons t rest ih => simp [tag?_tag, ih]
  exact read

theorem nodes?_nodes (forest : Forest) : nodes? (nodes forest) = some forest := by
  induction forest using Forest.induction with
  | nil => rfl
  | cons n rest below ahead =>
    obtain ⟨s, tags, children⟩ := n
    have hchildren : nodes? (nodes children) = some children := below
    have hnode : node? (node ⟨s, tags, children⟩) = some ⟨s, tags, children⟩ := by
      simp [node, node?, hchildren]
    simp [nodes, nodes?, hnode, ahead]

theorem segments?_segments (list : List Segment) : segments? (segments list) = some list := by
  induction list using Segment.induction with
  | nil => rfl
  | text s rest ahead =>
    have hsegment : segment? (segment (.text s)) = some (.text s) := by simp [segment, segment?]
    simp [segments, segments?, hsegment, ahead]
  | annotated s tags children rest below ahead =>
    have hsegment : segment? (segment (.annotated s tags children)) = some (.annotated s tags children) := by
      simp [segment, segment?, below]
    simp [segments, segments?, hsegment, ahead]

theorem contents?_document (a : Annotated) : contents? (document a) = some (contents a) := by
  simp [document, contents?, contents, nodes?_nodes, segments?_segments]

theorem isDecimal_number (n : Nat) : (number n).IsDecimal := fun _ h => nomatch h

theorem isDecimal_name (value : Option String) : (name value).IsDecimal := by cases value <;> trivial

theorem isDecimal_flag (b : Option Bool) : (flag b).IsDecimal := by cases b <;> trivial

theorem isDecimal_span (s : Span) : (span s).IsDecimal :=
  ⟨isDecimal_number s.start, isDecimal_number s.stop, trivial⟩

theorem isDecimal_tag (t : Tag) : (tag t).IsDecimal := by
  cases t with
  | specifier value => exact ⟨trivial, isDecimal_name value, trivial⟩
  | statement form => exact ⟨trivial, trivial, trivial⟩
  | assertion => exact ⟨trivial, trivial⟩
  | dynamicKeyword => exact ⟨trivial, trivial⟩
  | exportedName value => exact ⟨trivial, isDecimal_name value, trivial⟩
  | localName value => exact ⟨trivial, isDecimal_name value, trivial⟩

theorem areDecimal_tags (tags : List Tag) : Json.AreDecimal (tags.map tag) := by
  induction tags with
  | nil => trivial
  | cons t rest ih => exact ⟨isDecimal_tag t, ih⟩

theorem areDecimal_nodes (forest : Forest) : Json.AreDecimal (nodes forest) := by
  induction forest using Forest.induction with
  | nil => trivial
  | cons n rest below ahead =>
    obtain ⟨s, tags, children⟩ := n
    exact ⟨⟨isDecimal_span s, areDecimal_tags tags, below, trivial⟩, ahead⟩

theorem areDecimal_segments (list : List Segment) : Json.AreDecimal (segments list) := by
  induction list using Segment.induction with
  | nil => trivial
  | text s rest ahead => exact ⟨⟨trivial, isDecimal_span s, trivial⟩, ahead⟩
  | annotated s tags children rest below ahead =>
    exact ⟨⟨trivial, isDecimal_span s, areDecimal_tags tags, below, trivial⟩, ahead⟩

theorem isDecimal_document (a : Annotated) : (document a).IsDecimal :=
  ⟨trivial, isDecimal_flag a.moduleSyntax, areDecimal_nodes a.forest, areDecimal_segments a.segments, trivial⟩

/-- Every annotated source has a report. The report is JSON, its contents are read from the text alone, and so
    two annotated sources with one report agree in them. -/
theorem render_lossless (a : Annotated) : ∃ text, Format.report.render a = .ok text ∧
    Json.Writes (document a) text.toList ∧ (Json.read? text).bind contents? = some (contents a) ∧
    ∀ b, Format.report.render b = .ok text → contents b = contents a := by
  have reads (c : Annotated) : (Json.read? (render c)).bind contents? = some (contents c) := by
    rw [render, Json.read?_pretty (isDecimal_document c), Option.bind_some, contents?_document]
  refine ⟨render a, rfl, Json.writes_prettyAt 0 (isDecimal_document a), reads a, fun b same => ?_⟩
  have texts : render b = render a := Except.ok.inj same
  apply Option.some.inj
  rw [← reads b, ← reads a, texts]

end Report
end AnnotatedSource
