import AnnotatedSource.Command.Invocation
import AnnotatedSource.RecordingFile
import AnnotatedSource.Settings

set_option autoImplicit false

namespace AnnotatedSource

structure Outcome where
  code : Nat
  stdout : String
  stderr : String
deriving DecidableEq, Repr

namespace Outcome

def written (stdout : String) : Outcome := ⟨0, stdout, ""⟩

def failed (message : String) : Outcome := ⟨1, "", message ++ "\n"⟩

def after (trail : String) (o : Outcome) : Outcome := { o with stderr := trail ++ o.stderr }

end Outcome

namespace Command

def versionText : String := "modview 0.1.0\n"

def usage : String :=
  "Usage: modview [OPTIONS] <COMMAND>\n\n" ++
  "Commands:\n" ++
  "  render <SOURCE> --records <FILE> [--lexer-version <VERSION>] [--format <FORMAT>] [--offsets <UNIT>]\n" ++
  "  formats\n" ++
  "  capabilities <VERSION>\n" ++
  "  help\n\n" ++
  "Options:\n" ++
  "  -c, --config <FILE>\n" ++
  "  -v, --verbose\n" ++
  "  -h, --help\n" ++
  "  -V, --version\n"

def defaultSettingsPath : String := "modview.toml"

def settingsFile (i : Invocation) : SettingsFile :=
  match i.settings with
  | some path => ⟨path, true⟩
  | none => ⟨defaultSettingsPath, false⟩

def overrides : Request → List (String × Option Value)
  | .render r => [
    ("lexer.version", r.release.map .text), ("render.format", r.format.map .text),
    ("render.offsets", r.offsets.map .text)]
  | _ => []

def settings (read : FileReader) (i : Invocation) : Except SettingsError Settings :=
  Settings.load read [settingsFile i] (overrides i.request)

/-- Asking for more output never gives less than the settings say. -/
def verbosity (configured : Verbosity) : Nat → Verbosity
  | 0 => configured
  | 1 => configured.atLeast .info
  | 2 => configured.atLeast .debug
  | _ => .trace

def trailText (limit : Verbosity) (trail : List TrailEntry) : String :=
  String.join ((trail.filter fun e => limit.includes e.level).map TrailEntry.line)

def line (text : String) : String :=
  if text.toList.getLast? = some '\n' then text else text ++ "\n"

def rendered (s : Settings) (a : Annotator) (source : String) (lexer : Lexer) : Except String String :=
  match a.run source lexer with
  | .error e => .error e.message
  | .ok annotated =>
    match s.registry.render annotated s.format with
    | .error e => .error e.message
    | .ok text => .ok text

def render (s : Settings) (limit : Verbosity) (source : Except ReadFault String)
    (recording : Except LexerError Recording) : Outcome :=
  match source with
  | .error fault => .failed ("Error reading file: " ++ fault.message)
  | .ok source =>
    match recording with
    | .error e => .failed ("Error: " ++ e.message)
    | .ok recording =>
      match s.annotator with
      | .error e => .failed ("Error: " ++ e.message)
      | .ok annotator =>
        let lexer := Lexer.replay recording s.release
        let outcome :=
          match rendered s annotator source lexer with
          | .ok text => Outcome.written (line text)
          | .error message => .failed ("Error: " ++ message)
        outcome.after (trailText limit (annotator.runTrail source lexer))

def formatLines (chosen : String) (f : Format) : String :=
  "  " ++ f.name ++ (if f.name = chosen then " (default)" else "") ++ "\n    " ++ f.description ++ "\n"

def formats (s : Settings) : String :=
  let registry := s.registry
  "Available formats:\n\n" ++
    String.join ((registry.names.filterMap registry.get?).map (formatLines s.format))

def capabilities (release : String) : Outcome :=
  match Capabilities.ofText release with
  | .ok c => .written (c.text ++ "\n")
  | .error e => .failed ("Error: " ++ e.message)

def execute (read : FileReader) (i : Invocation) : Outcome :=
  match settings read i with
  | .error e => .failed ("Error loading configuration: " ++ e.message)
  | .ok s =>
    match i.request with
    | .render r =>
      render s (verbosity s.verbosity i.loudness) (read.text r.source)
        (Recording.ofFile r.records (read.text r.records))
    | .formats => .written (formats s)
    | .capabilities release => capabilities release

def run (read : FileReader) (words : List String) : Outcome :=
  match Invocation.ofWords words with
  | .ok i => execute read i
  | .error .help => .written usage
  | .error .version => .written versionText
  | .error (.fault e) => ⟨2, "", "error: " ++ e.message ++ "\n"⟩

/-- Every path that running the words may read. -/
def paths (words : List String) : List String :=
  match Invocation.ofWords words with
  | .ok i =>
    let path := (settingsFile i).path
    let files := SettingsFile.candidates path
    match i.request with
    | .render r => files ++ [r.source, r.records]
    | _ => files
  | .error _ => []

end Command
end AnnotatedSource
