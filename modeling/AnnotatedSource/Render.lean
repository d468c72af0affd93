import AnnotatedSource.Annotated
import AnnotatedSource.Json.Writer

set_option autoImplicit false

namespace AnnotatedSource

inductive RenderError where
  | unknownFormat (name : String)
  | misfit (span : Span) (length : Nat)
  | refused (reason : String)
deriving DecidableEq, Repr

namespace RenderError

def message : RenderError → String
  | unknownFormat name => "Format '" ++ name ++ "' not found"
  | misfit span length =>
    "Serialization error: segment " ++ span.text ++ " does not fit a source of " ++ length.repr ++ " bytes"
  | refused reason => "Serialization error: " ++ reason

end RenderError

namespace Markup

def replace (c : Char) (entity : String) (text : List Char) : List Char :=
  text.flatMap fun x => if x = c then entity.toList else [x]

/-- The ampersand goes first: every later entity has one. -/
def escape (text : List Char) : List Char :=
  replace '\x27' "&apos;" <| replace '"' "&quot;" <| replace '>' "&gt;" <| replace '<' "&lt;" <|
    replace '&' "&amp;" text

def openTag (tags : List Tag) : String := "<chunk type=\"" ++ Tag.kinds tags ++ "\">"

def closeTag : String := "</chunk>"

mutual

def segment (source : List Char) : Segment → Except RenderError (List Char)
  | .text span =>
    match Text.slice? source span with
    | some text => .ok (escape text)
    | none => .error (.misfit span (Text.byteLength source))
  | .annotated _ tags children => do
    let inner ← segments source children
    return (openTag tags).toList ++ inner ++ closeTag.toList

def segments (source : List Char) : List Segment → Except RenderError (List Char)
  | [] => .ok []
  | s :: rest => do
    let first ← segment source s
    let others ← segments source rest
    return first ++ others

end

def header (a : Annotated) : String :=
  "<module facade=\"" ++ Text.ofBool a.facade ++ "\"" ++
    (match a.moduleSyntax with
    | some b => " has-module-syntax=\"" ++ Text.ofBool b ++ "\""
    | none => "") ++ ">\n"

def footer : String := "\n</module>"

def render (a : Annotated) : Except RenderError String := do
  let body ← segments a.source.toList a.segments
  return header a ++ String.ofList body ++ footer

theorem replace_append (c : Char) (entity : String) (a b : List Char) :
    replace c entity (a ++ b) = replace c entity a ++ replace c entity b := by
  simp [replace]

theorem escape_append (a b : List Char) : escape (a ++ b) = escape a ++ escape b := by
  simp [escape, replace_append]

end Markup

namespace Outline

def defaultWidth : Nat := 30

def shorten (width : Nat) (text : List Char) : List Char :=
  if width < text.length then text.take width ++ ['.', '.', '.'] else text

/-- The text of a span on one line; none of it where the span does not fit. -/
def excerpt (source : List Char) (width : Nat) (span : Span) : List Char :=
  shorten width (((Text.slice? source span).getD []).map fun c => if c = '\n' then '↵' else c)

def connector (last : Bool) : String := if last then "└─" else "├─"

def bar (last : Bool) : String := if last then "   " else "│  "

structure Frame where
  source : List Char
  table : OffsetTable
  width : Nat

def line (f : Frame) (stem : String) (last : Bool) (span : Span) (tags : List Tag) : String :=
  stem ++ connector last ++ " " ++ span.text ++ " @" ++ (f.table.position span.start).text ++ " " ++
    String.intercalate "; " (tags.map Tag.describe) ++
    " ⟨" ++ String.ofList (excerpt f.source f.width span) ++ "⟩\n"

mutual

def node (f : Frame) (stem : String) (last : Bool) : Node → String
  | ⟨span, tags, children⟩ => line f stem last span tags ++ forest f (stem ++ bar last) children

def forest (f : Frame) (stem : String) : Forest → String
  | [] => ""
  | n :: rest => node f stem rest.isEmpty n ++ forest f stem rest

end

def header (a : Annotated) : String :=
  "⧉ module (facade: " ++ Text.ofBool a.facade ++ ", hasModuleSyntax: " ++
    (match a.moduleSyntax with
    | some b => Text.ofBool b
    | none => "unsupported") ++ ")\n"

def render (width : Nat) (a : Annotated) : String :=
  let source := a.source.toList
  header a ++ forest ⟨source, .ofText source, width⟩ "" a.forest

end Outline

namespace Report

def member (key : String) (v : Json) : Option String × Json := (some key, v)

def number (n : Nat) : Json := .number (.ofNat n)

def string (s : String) : Json := .string (some s)

def name : Option String → Json
  | some s => string s
  | none => .null

def flag : Option Bool → Json
  | some b => .bool b
  | none => .null

def tag (t : Tag) : Json :=
  .object <| member "type" (string t.kind) ::
    match t with
    | .specifier value | .exportedName value | .localName value => [member "value" (name value)]
    | .statement form => [member "kind" (string form.name)]
    | .assertion | .dynamicKeyword => []

def span (s : Span) : Json :=
  .object [member "start" (number s.start), member "end" (number s.stop)]

mutual

def node : Node → Json
  | ⟨s, tags, children⟩ =>
    .object [member "span" (span s), member "tags" (.array (tags.map tag)),
      member "children" (.array (nodes children))]

def nodes : Forest → List Json
  | [] => []
  | n :: rest => node n :: nodes rest

end

mutual

def segment : Segment → Json
  | .text s => .object [member "kind" (string "text"), member "span" (span s)]
  | .annotated s tags children =>
    .object [member "kind" (string "annotated"), member "span" (span s),
      member "tags" (.array (tags.map tag)), member "children" (.array (segments children))]

def segments : List Segment → List Json
  | [] => []
  | s :: rest => segment s :: segments rest

end

def document (a : Annotated) : Json :=
  .object [member "facade" (.bool a.facade), member "hasModuleSyntax" (flag a.moduleSyntax),
    member "tree" (.array (nodes a.forest)), member "segments" (.array (segments a.segments))]

def render (a : Annotated) : String := (document a).pretty

end Report

structure Format where
  name : String
  description : String := ""
  render : Annotated → Except RenderError String

namespace Format

def markup : Format where
  name := "tag"
  description := "Source with annotated ranges wrapped in <chunk> tags"
  render := Markup.render

def outline (width : Nat) : Format where
  name := "treeviz"
  description := "One line per node with span, position and tag descriptions"
  render a := .ok (Outline.render width a)

def report : Format where
  name := "json"
  description := "Sorted tree and segments as JSON"
  render a := .ok (Report.render a)

end Format

/-- The latest registration first. -/
structure Registry where
  formats : List Format

namespace Registry

def empty : Registry := ⟨[]⟩

def register (r : Registry) (f : Format) : Registry :=
  ⟨f :: r.formats.filter fun g => g.name != f.name⟩

def builtIn : Registry :=
  ((empty.register .markup).register (.outline Outline.defaultWidth)).register .report

def get? (r : Registry) (name : String) : Option Format := r.formats.find? (·.name == name)

def has (r : Registry) (name : String) : Bool := (r.get? name).isSome

def names (r : Registry) : List String :=
  Sorting.sort (fun a b => decide (a ≤ b)) (r.formats.map (·.name))

def render (r : Registry) (a : Annotated) (name : String) : Except RenderError String :=
  match r.get? name with
  | some f => f.render a
  | none => .error (.unknownFormat name)

theorem get?_register_self (r : Registry) (f : Format) : (r.register f).get? f.name = some f := by
  simp [register, get?]

theorem get?_register_of_ne (r : Registry) (f : Format) {name : String} (h : f.name ≠ name) :
    (r.register f).get? name = r.get? name := by
  simp only [register, get?, List.find?_cons, List.find?_filter, beq_eq_false_iff_ne.2 h]
  congr 1
  funext g
  by_cases hg : g.name = name
  · simp [hg, Ne.symm h]
  · simp [hg]

end Registry
end AnnotatedSource
