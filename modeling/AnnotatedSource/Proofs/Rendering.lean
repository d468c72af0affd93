import AnnotatedSource.Command
import AnnotatedSource.Proofs.RecordingTexts
import AnnotatedSource.Proofs.Registrations
import AnnotatedSource.Proofs.Releases

set_option autoImplicit false

/-!
# Rendering, as the command does it

What it takes for the command to render a source. Each stage either gives the next one what it needs or ends the
command with nothing on the standard output.
-/
namespace AnnotatedSource

/-! ## Files -/

namespace Text.Utf8

theorem decode?_eq_some_iff {bytes : ByteArray} {text : String} : decode? bytes = some text ↔ bytes = text.toUTF8 := by
  rw [decode?, String.fromUTF8?]
  constructor
  · intro h
    split at h
    · rw [← Option.some.inj h]
      rfl
    · cases h
  · rintro rfl
    exact dif_pos text.isValidUTF8

end Text.Utf8

namespace FileReader

variable {read : FileReader} {path contents : String}

def Holds (read : FileReader) (path contents : String) : Prop := read path = .ok contents.toUTF8

theorem text_eq_ok_iff : read.text path = .ok contents ↔ read.Holds path contents := by
  unfold text Holds
  cases read path with
  | error fault => simp
  | ok bytes =>
    rw [Except.ok.injEq, ← Text.Utf8.decode?_eq_some_iff]
    cases decoded : Text.Utf8.decode? bytes <;> simp [decoded]

end FileReader

namespace Recording

/-- A recording in a file, in the format that the ending of its name tells. -/
inductive Loaded (read : FileReader) (path : String) (r : Recording) : Prop
  | json {text : String} (held : read.Holds path text) (ending : extension path = "json")
    (decoded : ofJsonText text = .ok r)
  | yaml {text : String} (held : read.Holds path text) (ending : extension path = "yaml" ∨ extension path = "yml")
    (decoded : ofYamlText text = .ok r)

theorem ofFile_ok (path text : String) : ofFile path (.ok text) =
    if extension path = "json" then ofJsonText text
    else if extension path = "yaml" ∨ extension path = "yml" then ofYamlText text
    else .error (.unknownFormat (extension path)) := rfl

theorem ofFile_eq_ok_iff {read : FileReader} {path : String} {r : Recording} :
    ofFile path (read.text path) = .ok r ↔ Loaded read path r := by
  constructor
  · intro h
    cases loaded : read.text path with
    | error fault =>
      rw [loaded] at h
      cases h
    | ok text =>
      have held := FileReader.text_eq_ok_iff.1 loaded
      rw [loaded, ofFile_ok] at h
      split at h
      · next ending => exact .json held ending h
      · split at h
        · next ending => exact .yaml held ending h
        · cases h
  · rintro (⟨held, ending, decoded⟩ | ⟨held, ending, decoded⟩)
    · rw [FileReader.text_eq_ok_iff.2 held, ofFile_ok, if_pos ending, decoded]
    · have other : extension path ≠ "json" := by
        rcases ending with h | h <;> simp [h]
      rw [FileReader.text_eq_ok_iff.2 held, ofFile_ok, if_neg other, if_pos ending, decoded]

end Recording

/-! ## Settings -/

namespace Settings

/-- What the release in the settings reports. It is the latest one if none is set, and one that is set must be a
    name of a release that is not too old. -/
inductive Supports (s : Settings) : Capabilities → Prop
  | latest (unnamed : s.release = none) : Supports s .latest
  | release {name : String} {x : Release} (set : s.release = some name) (named : Release.Named name x)
    (supported : Release.numbers ⟨0, 5, 0⟩ ≤ x.numbers) :
    Supports s ⟨decide (Release.numbers ⟨1, 0, 0⟩ ≤ x.numbers), decide (Release.numbers ⟨1, 5, 0⟩ ≤ x.numbers)⟩

theorem annotator_of_supports {s : Settings} {c : Capabilities} (h : s.Supports c) :
    s.annotator = .ok ⟨c, s.unit, s.elide⟩ := by
  cases h with
  | latest unnamed => rw [annotator, unnamed]
  | release set named supported =>
    simp only [annotator, set, Capabilities.ofText_of_named named, Capabilities.ofRelease_eq,
      if_neg (not_lt.2 supported), Except.map]

theorem supports_of_annotator {s : Settings} {a : Annotator} (h : s.annotator = .ok a) :
    ∃ c, s.Supports c ∧ a = ⟨c, s.unit, s.elide⟩ := by
  cases set : s.release with
  | none =>
    rw [annotator, set] at h
    cases h
    exact ⟨_, .latest set, rfl⟩
  | some name =>
    by_cases isNamed : ∃ x, Release.Named name x
    · obtain ⟨x, named⟩ := isNamed
      by_cases supported : Release.numbers ⟨0, 5, 0⟩ ≤ x.numbers
      · have supports : s.Supports _ := .release set named supported
        rw [annotator_of_supports supports] at h
        cases h
        exact ⟨_, supports, rfl⟩
      · simp only [annotator, set, Capabilities.ofText_of_named named, Capabilities.ofRelease_eq,
          if_pos (not_le.1 supported), Except.map, reduceCtorEq] at h
    · simp only [annotator, set, Capabilities.ofText_of_not_named (not_exists.1 isNamed), Except.map, reduceCtorEq] at h

/-- The release counts a second time when the recording is replayed, and changes nothing then. -/
theorem run_replay {s : Settings} {a : Annotator} (h : s.annotator = .ok a) (source : String) (r : Recording) :
    a.run source (.replay r s.release) = (a.annotate source r).mapError .placement := by
  unfold annotator at h
  split at h
  · next name set =>
    cases known : Capabilities.ofText name with
    | error e =>
      rw [known] at h
      cases h
    | ok c =>
      rw [known] at h
      cases h
      rw [set, Annotator.run_replay_ok known]
  · next unset => rw [unset, Annotator.run_replay_none]

end Settings

/-! ## Formats -/

namespace Registry

theorem render_eq_ok_iff {r : Registry} {a : Annotated} {name text : String} :
    r.render a name = .ok text ↔ ∃ f, r.get? name = some f ∧ f.render a = .ok text := by
  unfold render
  cases r.get? name <;> simp

end Registry

namespace Settings

def formats (s : Settings) : List Format := [.outline s.labelWidth, .report, .markup]

theorem get?_registry {s : Settings} {name : String} {f : Format} :
    s.registry.get? name = some f ↔ f ∈ s.formats ∧ f.name = name := by
  have formats : s.registry.formats = s.formats := rfl
  have distinct : s.registry.Distinct := (by decide : ["treeviz", "json", "tag"].Nodup)
  rw [distinct.get?_eq_some_iff, formats]

end Settings

/-! ## What is read -/

section

variable {read read' : FileReader}

theorem SettingsFile.firstText_congr {paths : List String} (same : ∀ path ∈ paths, read path = read' path) :
    firstText read paths = firstText read' paths := by
  induction paths with
  | nil => rfl
  | cons path paths ih =>
    obtain ⟨here, rest⟩ := List.forall_mem_cons.1 same
    rw [firstText, firstText, FileReader.lossyText, FileReader.lossyText, here, ih rest]

theorem Command.settings_congr {i : Invocation}
    (same : ∀ path ∈ SettingsFile.candidates (settingsFile i).path, read path = read' path) :
    settings read i = settings read' i := by
  have layer : (settingsFile i).layer read = (settingsFile i).layer read' := by
    rw [SettingsFile.layer, SettingsFile.layer, SettingsFile.contents, SettingsFile.contents,
      SettingsFile.firstText_congr same]
  simp only [settings, Settings.load, List.mapM_cons, List.mapM_nil, layer]

/-- The command reads no file but those that its words lead to. -/
theorem Command.run_congr {words : List String} (same : ∀ path ∈ paths words, read path = read' path) :
    run read words = run read' words := by
  unfold run
  unfold paths at same
  split
  · next i accepted =>
    simp only [accepted] at same
    unfold execute
    cases asked : i.request with
    | render r =>
      simp only [asked, List.forall_mem_append, List.forall_mem_cons] at same
      obtain ⟨files, source, records, -⟩ := same
      simp only [settings_congr files, FileReader.text, source, records]
    | formats =>
      simp only [asked] at same
      simp only [settings_congr same]
    | capabilities release =>
      simp only [asked] at same
      simp only [settings_congr same]
  all_goals rfl

end

/-! ## Outcomes -/

namespace Command

variable {read : FileReader} {i : Invocation} {r : RenderRequest} {text : String}

def EndsLine (text : String) : Prop := ∃ front, text = front ++ "\n"

theorem getLast?_eq_newline_iff : text.toList.getLast? = some '\n' ↔ EndsLine text := by
  rw [List.getLast?_eq_some_iff]
  constructor
  · rintro ⟨front, h⟩
    exact ⟨String.ofList front, String.toList_inj.1 (by simpa using h)⟩
  · rintro ⟨front, rfl⟩
    exact ⟨front.toList, by simp⟩

theorem line_of_endsLine (h : EndsLine text) : line text = text := if_pos (getLast?_eq_newline_iff.2 h)

theorem line_of_not_endsLine (h : ¬ EndsLine text) : line text = text ++ "\n" :=
  if_neg fun newline => h (getLast?_eq_newline_iff.1 newline)

theorem rendered_eq_ok_iff {s : Settings} {a : Annotator} (h : s.annotator = .ok a) {source : String}
    {recording : Recording} : rendered s a source (.replay recording s.release) = .ok text ↔
      ∃ annotated, a.annotate source recording = .ok annotated ∧
        ∃ f ∈ s.formats, f.name = s.format ∧ f.render annotated = .ok text := by
  rw [rendered, Settings.run_replay h]
  cases a.annotate source recording with
  | error e => simp [Except.mapError]
  | ok annotated =>
    have formatted : s.registry.render annotated s.format = .ok text ↔
        ∃ f ∈ s.formats, f.name = s.format ∧ f.render annotated = .ok text := by
      simp only [Registry.render_eq_ok_iff, Settings.get?_registry, and_assoc]
    simp only [Except.mapError, Except.ok.injEq, exists_eq_left', ← formatted]
    cases s.registry.render annotated s.format <;> simp

/-- The settings that a source is rendered by. A file that the words name must be there, the one under the usual name
    need not be; the release, the format and the unit that are asked for win over both and over what is built in. -/
inductive Configured (read : FileReader) (i : Invocation) (r : RenderRequest) (s : Settings) : Prop
  | named {path : String} (named : i.settings = some path)
    (loaded : Settings.load read [⟨path, true⟩] [("lexer.version", r.release.map .text),
      ("render.format", r.format.map .text), ("render.offsets", r.offsets.map .text)] = .ok s)
  | usual (unnamed : i.settings = none)
    (loaded : Settings.load read [⟨"modview.toml", false⟩] [("lexer.version", r.release.map .text),
      ("render.format", r.format.map .text), ("render.offsets", r.offsets.map .text)] = .ok s)

theorem settings_eq_ok_iff (h : i.request = .render r) {s : Settings} :
    settings read i = .ok s ↔ Configured read i r s := by
  rw [settings, h]
  cases file : i.settings with
  | none =>
    rw [settingsFile, file]
    exact ⟨.usual file, fun | .usual _ loaded => loaded | .named named _ => by simp [file] at named⟩
  | some path =>
    rw [settingsFile, file]
    refine ⟨.named file, fun | .usual unnamed _ => by simp [file] at unnamed | .named named loaded => ?_⟩
    cases file.symm.trans named
    exact loaded

/-- Each stage of rendering a source, up to its text in the format that the settings name. -/
inductive Renders (read : FileReader) (i : Invocation) (r : RenderRequest) (text : String) : Prop
  | intro {s : Settings} {source : String} {recording : Recording} {c : Capabilities} {annotated : Annotated}
    {f : Format} (configured : Configured read i r s) (readable : read.Holds r.source source)
    (loaded : recording.Loaded read r.records) (supported : s.Supports c)
    (reconciled : Annotator.annotate ⟨c, s.unit, s.elide⟩ source recording = .ok annotated)
    (registered : f ∈ s.formats) (chosen : f.name = s.format) (formatted : f.render annotated = .ok text)

def visible (o : Outcome) : Nat × String := (o.code, o.stdout)

theorem visible_execute_of_renders (h : i.request = .render r) (renders : Renders read i r text) :
    visible (execute read i) = (0, line text) := by
  obtain ⟨configured, readable, loaded, supported, reconciled, registered, chosen, formatted⟩ := renders
  have annotator := Settings.annotator_of_supports supported
  have rendered := (rendered_eq_ok_iff annotator).2 ⟨_, reconciled, _, registered, chosen, formatted⟩
  simp only [execute, (settings_eq_ok_iff h).2 configured, h, render, FileReader.text_eq_ok_iff.2 readable,
    Recording.ofFile_eq_ok_iff.2 loaded, annotator, rendered]
  rfl

theorem visible_execute_of_not_renders (h : i.request = .render r) (none : ∀ text, ¬ Renders read i r text) :
    visible (execute read i) = (1, "") := by
  unfold execute
  cases configured : settings read i with
  | error e => rfl
  | ok s =>
    simp only [h, render]
    cases readable : read.text r.source with
    | error fault => rfl
    | ok source =>
      cases loaded : Recording.ofFile r.records (read.text r.records) with
      | error e => rfl
      | ok recording =>
        cases annotator : s.annotator with
        | error e => rfl
        | ok a =>
          cases answer : rendered s a source (.replay recording s.release) with
          | error message =>
            simp only [answer]
            rfl
          | ok text =>
            obtain ⟨annotated, reconciled, f, registered, chosen, formatted⟩ := (rendered_eq_ok_iff annotator).1 answer
            obtain ⟨c, supported, rfl⟩ := Settings.supports_of_annotator annotator
            exact absurd (.intro ((settings_eq_ok_iff h).1 configured) (FileReader.text_eq_ok_iff.1 readable)
              (Recording.ofFile_eq_ok_iff.1 loaded) supported reconciled registered chosen formatted) (none text)

/-- What rendering answers, whatever is in the files. A text is written, to the end of its last line, exactly if
    every stage that leads to it has a result; otherwise the command fails and nothing is written. The stages know
    the release by what the settings say of it, so that it counts again with the recording changes nothing. -/
theorem run_render_outcome {words : List String} {i : Invocation} {r : RenderRequest}
    (accepted : Invocation.ofWords words = .ok i) (asked : i.request = .render r) (read : FileReader) :
    ((run read words).code = 0 ↔ ∃ text, Renders read i r text) ∧
    (∀ text, Renders read i r text → (EndsLine text → (run read words).stdout = text) ∧
      (¬ EndsLine text → (run read words).stdout = text ++ "\n")) ∧
    ((¬ ∃ text, Renders read i r text) → (run read words).code = 1 ∧ (run read words).stdout = "") ∧
    ∀ (s : Settings) (a : Annotator), (s.annotator = .ok a ↔ ∃ c, s.Supports c ∧ a = ⟨c, s.unit, s.elide⟩) ∧
      (s.annotator = .ok a → ∀ source recording,
        a.run source (.replay recording s.release) = (a.annotate source recording).mapError .placement) := by
  have executed : run read words = execute read i := by rw [run, accepted]
  have succeeds : ∀ text, Renders read i r text →
      (run read words).code = 0 ∧ (run read words).stdout = line text := by
    intro text renders
    rw [executed]
    exact Prod.mk.inj (visible_execute_of_renders asked renders)
  have fails : (¬ ∃ text, Renders read i r text) → (run read words).code = 1 ∧ (run read words).stdout = "" := by
    intro none
    rw [executed]
    exact Prod.mk.inj (visible_execute_of_not_renders asked (not_exists.1 none))
  refine ⟨⟨?_, fun ⟨text, renders⟩ => (succeeds text renders).1⟩, ?_, fails, ?_⟩
  · intro zero
    by_contra none
    exact absurd ((fails none).1.symm.trans zero) (by decide)
  · intro text renders
    rw [(succeeds text renders).2]
    exact ⟨line_of_endsLine, line_of_not_endsLine⟩
  · intro s a
    refine ⟨⟨Settings.supports_of_annotator, ?_⟩, Settings.run_replay⟩
    rintro ⟨c, supports, rfl⟩
    exact Settings.annotator_of_supports supports

def plainWords : List String := ["render", "a.js", "--records", "a.json"]

def plainRequest : RenderRequest := ⟨"a.js", "a.json", none, none, none⟩

def plainInvocation : Invocation := ⟨none, 0, .render plainRequest⟩

def plainFiles : FileReader := fun path =>
  if path = "a.js" then .ok "1".toUTF8 else if path = "a.json" then .ok "[[]]".toUTF8 else .error .notFound

def plainText : String := "<module facade=\"false\">\n1\n</module>"

theorem renders_plain : Renders plainFiles plainInvocation plainRequest plainText := by
  have writes : Json.Writes (.array [.array []]) "[[]]".toList := .array (.last (.emptyArray Json.blanks_nil))
  have decoded : Recording.ofJsonText "[[]]" = .ok ⟨[], .list [], false, none⟩ := by
    rw [Recording.ofJsonText, Json.read?_of_writes writes]
    rfl
  have configured : Configured plainFiles plainInvocation plainRequest {} := .usual rfl (by decide +kernel)
  have formatted : Format.markup.render ⟨"1", [], [.text ⟨0, 1⟩], false, none, .latest⟩ = .ok plainText := by
    decide +kernel
  exact .intro configured rfl (.json rfl rfl decoded) (.latest rfl) rfl (List.mem_of_getElem? (i := 2) rfl) rfl
    formatted

def namedWords : List String :=
  ["-c", "m.toml", "render", "a.js", "--records", "a.json", "--lexer-version", "1.4.0", "--format", "tag"]

def namedRequest : RenderRequest := ⟨"a.js", "a.json", some "1.4.0", some "tag", none⟩

def namedInvocation : Invocation := ⟨some "m.toml", 0, .render namedRequest⟩

def namedOffsets : List Int := [9, 10, 2, 11, -1, -1]

def namedRecords : String := "[[[\"m\",9,10,2,11,-1,-1]],[],false,true]"

/-- The settings name another format, and a unit in which the offsets of the record differ from those in bytes. -/
def namedFiles : FileReader := fun path =>
  if path = "m.toml" then .ok "[render]\nformat = \"json\"\noffsets = \"utf16\"\n".toUTF8
  else if path = "a.js" then .ok "é;import\"m\"".toUTF8
  else if path = "a.json" then .ok namedRecords.toUTF8
  else .error .notFound

def unsetFiles : FileReader := fun path => if path = "m.toml" then .error .notFound else namedFiles path

def namedText : String :=
  "<module facade=\"false\">\né;<chunk type=\"import-statement\">import&quot;" ++
  "<chunk type=\"import-module-specifier\">m</chunk>&quot;</chunk>\n</module>"

def namedAnnotated : Annotated where
  source := "é;import\"m\""
  forest := [⟨⟨3, 12⟩, [.statement .static], [⟨⟨10, 11⟩, [.specifier (some "m")], []⟩]⟩]
  segments := [.text ⟨0, 3⟩, .annotated ⟨3, 12⟩ [.statement .static]
    [.text ⟨3, 10⟩, .annotated ⟨10, 11⟩ [.specifier (some "m")] [.text ⟨10, 11⟩], .text ⟨11, 12⟩]]
  facade := false
  moduleSyntax := none
  capabilities := ⟨true, false⟩

theorem writes_namedRecords : Json.Writes (.array [.array [.array (.string (some "m") :: namedOffsets.map Json.ofOffset)],
    .array [], .bool false, .bool true]) namedRecords.toList := by
  have offset (k : Int) := Json.writes_ofOffset k
  have record := Json.Writes.array (.more (.string (Json.literal_encode ['m'])) (.more (offset 9) (.more (offset 10)
    (.more (offset 2) (.more (offset 11) (.more (offset (-1)) (.last (offset (-1)))))))))
  have written := Json.Writes.array (.more (.array (.last record)) (.more (.emptyArray Json.blanks_nil)
    (.more (.bool false) (.last (.bool true)))))
  refine .of_eq written ?_
  decide +kernel

theorem ofJsonText_namedRecords :
    Recording.ofJsonText namedRecords = .ok ⟨[⟨some "m", 9, 10, 2, 11, -1, -1⟩], .list [], false, some true⟩ := by
  rw [Recording.ofJsonText, Json.read?_of_writes writes_namedRecords]
  rfl

theorem renders_named : Renders namedFiles namedInvocation namedRequest namedText := by
  have configured : Configured namedFiles namedInvocation namedRequest { release := some "1.4.0", unit := .utf16 } :=
    .named rfl (by decide +kernel)
  have named : Release.Named "1.4.0" ⟨1, 4, 0⟩ := Release.ofText?_eq_some_iff.1 (by decide +kernel)
  have reconciled : Annotator.annotate ⟨⟨true, false⟩, .utf16, true⟩ namedAnnotated.source
      ⟨[⟨some "m", 9, 10, 2, 11, -1, -1⟩], .list [], false, some true⟩ = .ok namedAnnotated := by
    have placed : Annotator.placed ⟨⟨true, false⟩, .utf16, true⟩ namedAnnotated.source.toList
        [⟨⟨9, 10⟩, .specifier (some "m")⟩, ⟨⟨2, 11⟩, .statement .static⟩] =
          .ok [⟨⟨10, 11⟩, .specifier (some "m")⟩, ⟨⟨3, 12⟩, .statement .static⟩] := rfl
    exact Annotator.annotate_eq_ok.2 ⟨_, _, _, rfl, placed, rfl, rfl⟩
  have formatted : Format.markup.render namedAnnotated = .ok namedText := by decide +kernel
  exact .intro configured rfl (.json rfl rfl ofJsonText_namedRecords) (.release rfl named (by decide)) reconciled
    (List.mem_of_getElem? (i := 2) rfl) rfl formatted

/-- The format and the release that the words name win, the unit is that of the settings file, and without that file
    nothing is written. -/
theorem run_render_outcome_named :
    ((run namedFiles namedWords).code = 0 ∧ (run namedFiles namedWords).stdout = namedText ++ "\n") ∧
    ((run unsetFiles namedWords).code = 1 ∧ (run unsetFiles namedWords).stdout = "") ∧
    ((run plainFiles plainWords).code = 0 ∧ (run plainFiles plainWords).stdout = plainText ++ "\n") ∧
    (run (fun _ => .error .notFound) plainWords).code = 1 ∧
    (run (fun _ => .error .notFound) plainWords).stdout = "" := by
  have named : Invocation.ofWords namedWords = .ok namedInvocation := rfl
  have plain : Invocation.ofWords plainWords = .ok plainInvocation := rfl
  have ends {text : String} (inside : text.toList.getLast? ≠ some '\n') : ¬ EndsLine text := fun h =>
    inside (getLast?_eq_newline_iff.2 h)
  have unset : ¬ ∃ text, Renders unsetFiles namedInvocation namedRequest text := by
    rintro ⟨text, configured, -⟩
    have refused : settings unsetFiles namedInvocation = .error (.unreadable "m.toml" .notFound) := by decide +kernel
    cases refused.symm.trans ((settings_eq_ok_iff rfl).2 configured)
  have nothing : ¬ ∃ text, Renders (fun _ => .error .notFound) plainInvocation plainRequest text := by
    rintro ⟨text, -, readable, -⟩
    cases readable
  obtain ⟨namedSucceeds, namedShows, -, -⟩ := run_render_outcome named rfl namedFiles
  obtain ⟨plainSucceeds, plainShows, -, -⟩ := run_render_outcome plain rfl plainFiles
  obtain ⟨-, -, unsetFails, -⟩ := run_render_outcome named rfl unsetFiles
  obtain ⟨-, -, nothingFails, -⟩ := run_render_outcome plain rfl fun _ => .error .notFound
  exact ⟨⟨namedSucceeds.2 ⟨_, renders_named⟩, (namedShows _ renders_named).2 (ends (by decide +kernel))⟩, unsetFails unset,
    ⟨plainSucceeds.2 ⟨_, renders_plain⟩, (plainShows _ renders_plain).2 (ends (by decide))⟩, nothingFails nothing⟩

end Command
end AnnotatedSource
