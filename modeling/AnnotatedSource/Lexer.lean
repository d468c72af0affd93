import AnnotatedSource.Annotated
import AnnotatedSource.Directory

set_option autoImplicit false

namespace AnnotatedSource

inductive LexerError where
  | failed (reason : String)
  | unreadable (path : String) (fault : ReadFault)
  | undecodable
  | unknownFormat (extension : String)
deriving DecidableEq, Repr

namespace LexerError

def message : LexerError → String
  | failed reason => reason
  | unreadable path fault => "cannot read " ++ path ++ ": " ++ fault.message
  | undecodable => "cannot decode lexer output: not a recording"
  | unknownFormat extension =>
    "unsupported record file format: " ++ Text.inspect extension ++
      " (expected .json, .yaml or .yml)"

end LexerError

inductive ViewError where
  | lexer (e : LexerError)
  | release (e : ReleaseError)
  | placement (e : PlacementError)
deriving DecidableEq, Repr

namespace ViewError

def message : ViewError → String
  | lexer e => "lexer failed: " ++ e.message
  | release e => e.message
  | placement e => e.message

end ViewError

structure Lexer where
  release : Option String
  lex : String → Except LexerError Recording

namespace Lexer

def replay (r : Recording) (release : Option String) : Lexer := ⟨release, fun _ => .ok r⟩

def failing (reason : String) (release : Option String) : Lexer :=
  ⟨release, fun _ => .error (.failed reason)⟩

end Lexer

namespace Annotator

/-- A lexer that knows its release decides what is known of its recording. -/
def forLexer (a : Annotator) (lexer : Lexer) : Except ReleaseError Annotator :=
  match lexer.release with
  | some release => (Capabilities.ofText release).map fun c => { a with capabilities := c }
  | none => .ok a

def run (a : Annotator) (source : String) (lexer : Lexer) : Except ViewError Annotated :=
  match a.forLexer lexer with
  | .error e => .error (.release e)
  | .ok a =>
    match lexer.lex source with
    | .error e => .error (.lexer e)
    | .ok r =>
      match a.annotate source r with
      | .error e => .error (.placement e)
      | .ok annotated => .ok annotated

theorem run_replay_none (a : Annotator) (source : String) (r : Recording) :
    a.run source (.replay r none) = (a.annotate source r).mapError .placement := by
  show (match a.annotate source r with
    | .error e => Except.error (ViewError.placement e)
    | .ok annotated => .ok annotated) = _
  cases a.annotate source r <;> rfl

end Annotator

inductive Verbosity where
  | off
  | error
  | warn
  | info
  | debug
  | trace
deriving DecidableEq, Repr

namespace Verbosity

def rank : Verbosity → Nat
  | off => 0
  | error => 1
  | warn => 2
  | info => 3
  | debug => 4
  | trace => 5

def name : Verbosity → String
  | off => "off"
  | error => "error"
  | warn => "warn"
  | info => "info"
  | debug => "debug"
  | trace => "trace"

def all : List Verbosity := [off, error, warn, info, debug, trace]

def includes (limit level : Verbosity) : Bool := decide (level.rank ≤ limit.rank)

def atLeast (a b : Verbosity) : Verbosity := if a.includes b then a else b

end Verbosity

structure TrailEntry where
  level : Verbosity
  text : String
deriving DecidableEq, Repr

namespace TrailEntry

def line (e : TrailEntry) : String := e.level.name ++ ": " ++ e.text ++ "\n"

end TrailEntry

namespace Annotator

/-- One entry for each mark that is inserted, and for the one that cannot be. -/
def insertions (forest : Forest) : List TaggedSpan → List TrailEntry
  | [] => []
  | mark :: rest =>
    ⟨.trace, "insert " ++ mark.span.text ++ " " ++ mark.tag.kind⟩ ::
      match Forest.insert mark forest with
      | .ok next => insertions next rest
      | .error _ => []

def nestingTrail (a : Annotator) (source : String) (placed : List TaggedSpan) : List TrailEntry :=
  insertions [] placed ++
    match nested placed with
    | .ok forest =>
      let segments := Segment.ofForest a.elide forest.sorted ⟨0, Text.byteLength source.toList⟩
      [⟨.debug, "reconciled " ++ forest.size.repr ++ " nodes into " ++ segments.length.repr ++
        " top-level segments"⟩]
    | .error _ => []

def trail (a : Annotator) (source : String) (r : Recording) : List TrailEntry :=
  let ignored : List TrailEntry :=
    if !a.capabilities.exportRecords && r.hasExports then
      [⟨.warn, "lexer release does not report export records; ignoring exports"⟩]
    else []
  ignored ++
    match a.exports r with
    | .error _ => []
    | .ok exports =>
      match marksOf r.imports exports with
      | .error _ => []
      | .ok marks =>
        ⟨.debug, "collected " ++ marks.length.repr ++ " intervals from " ++ r.imports.length.repr ++
          " imports and " ++ exports.length.repr ++ " exports"⟩ ::
          match a.placed source.toList marks with
          | .error _ => []
          | .ok placed => a.nestingTrail source placed

def runTrail (a : Annotator) (source : String) (lexer : Lexer) : List TrailEntry :=
  match a.forLexer lexer, lexer.lex source with
  | .ok a, .ok r => a.trail source r
  | _, _ => []

end Annotator
end AnnotatedSource
