set_option autoImplicit false

namespace AnnotatedSource

inductive OptionEffect where
  /-- A value, one of the choices if there are any. It can be given once. -/
  | value (choices : List String)
  | count
  | help
  | version
deriving DecidableEq, Repr

structure OptionSpec where
  long : String
  short : Option Char
  effect : OptionEffect
deriving DecidableEq, Repr

/-- What may stand at one level. A word that names a command ends the level. -/
structure Level where
  options : List OptionSpec
  commands : List String
  positions : Nat

structure Given where
  values : List (String × String) := []
  count : Nat := 0
  words : List String := []
deriving DecidableEq, Repr

inductive UsageError where
  | unknownOption (word : String)
  | unexpectedWord (word : String)
  | missingValue (option : String)
  | needlessValue (option : String)
  | repeated (option : String)
  | noChoice (option value : String)
  | missingWord (name : String)
  | missingOption (option : String)
  | missingCommand
deriving DecidableEq, Repr

namespace UsageError

def message : UsageError → String
  | unknownOption word => "unexpected argument " ++ word
  | unexpectedWord word => "unexpected argument " ++ word
  | missingValue option => "a value is required for --" ++ option
  | needlessValue option => "--" ++ option ++ " takes no value"
  | repeated option => "--" ++ option ++ " cannot be used multiple times"
  | noChoice option value => "invalid value " ++ value ++ " for --" ++ option
  | missingWord name => name ++ " is required"
  | missingOption option => "--" ++ option ++ " is required"
  | missingCommand => "a subcommand is required"

end UsageError

inductive Halt where
  | help
  | version
  | fault (e : UsageError)
deriving DecidableEq, Repr

namespace Given

def value? (g : Given) (option : String) : Option String := (g.values.find? (·.1 == option)).map (·.2)

def setValue (g : Given) (option : String) (choices : List String) (v : String) : Except Halt Given :=
  if (g.value? option).isSome then .error (.fault (.repeated option))
  else if choices.isEmpty || choices.contains v then .ok { g with values := g.values ++ [(option, v)] }
  else .error (.fault (.noChoice option v))

end Given

structure Pending where
  option : String
  choices : List String
deriving DecidableEq, Repr

/-- A lone hyphen is a word like any other. -/
def isOptionWord (word : List Char) : Bool := word.head? == some '-' && word != ['-']

namespace Level

def long? (level : Level) (name : String) : Option OptionSpec := level.options.find? (·.long == name)

def short? (level : Level) (letter : Char) : Option OptionSpec :=
  level.options.find? (·.short == some letter)

def plain (g : Given) (option : OptionSpec) : Except Halt (Given × Option Pending) :=
  match option.effect with
  | .value choices => .ok (g, some ⟨option.long, choices⟩)
  | .count => .ok ({ g with count := g.count + 1 }, none)
  | .help => .error .help
  | .version => .error .version

def longWord (level : Level) (g : Given) (word : List Char) : Except Halt (Given × Option Pending) :=
  let name := String.ofList (word.takeWhile (· != '='))
  match level.long? name, word.dropWhile (· != '=') with
  | none, _ => .error (.fault (.unknownOption ("--" ++ name)))
  | some option, [] => plain g option
  | some option, _ :: v =>
    match option.effect with
    | .value choices => (g.setValue option.long choices (String.ofList v)).map (·, none)
    | _ => .error (.fault (.needlessValue option.long))

/-- The letters behind one hyphen. What follows a letter that takes a value is that value, with or
    without an equals sign before it. -/
def letters (level : Level) (g : Given) : List Char → Except Halt (Given × Option Pending)
  | [] => .ok (g, none)
  | letter :: rest =>
    match level.short? letter with
    | none => .error (.fault (.unknownOption (String.ofList ['-', letter])))
    | some option =>
      match option.effect, rest with
      | .value choices, '=' :: v => (g.setValue option.long choices (String.ofList v)).map (·, none)
      | .value choices, c :: v =>
        (g.setValue option.long choices (String.ofList (c :: v))).map (·, none)
      | .value choices, [] => .ok (g, some ⟨option.long, choices⟩)
      | .count, rest => level.letters { g with count := g.count + 1 } rest
      | .help, _ => .error .help
      | .version, _ => .error .version

def positioned (level : Level) (g : Given) (word : String) : Except Halt Given :=
  if g.words.length < level.positions then .ok { g with words := g.words ++ [word] }
  else .error (.fault (.unexpectedWord word))

def read (level : Level) (g : Given) (pending : Option Pending) :
    List String → Except Halt (Given × Option (String × List String))
  | [] =>
    match pending with
    | some p => .error (.fault (.missingValue p.option))
    | none => .ok (g, none)
  | word :: rest =>
    match pending, word.toList with
    | some p, chars =>
      if isOptionWord chars then .error (.fault (.missingValue p.option))
      else
        match g.setValue p.option p.choices word with
        | .ok g => level.read g none rest
        | .error e => .error e
    | none, ['-', '-'] => (rest.foldlM level.positioned g).map (·, none)
    | none, '-' :: '-' :: name =>
      match level.longWord g name with
      | .ok (g, pending) => level.read g pending rest
      | .error e => .error e
    | none, '-' :: c :: name =>
      match level.letters g (c :: name) with
      | .ok (g, pending) => level.read g pending rest
      | .error e => .error e
    | none, _ =>
      if level.commands.contains word then .ok (g, some (word, rest))
      else
        match level.positioned g word with
        | .ok g => level.read g none rest
        | .error e => .error e

end Level

structure RenderRequest where
  source : String
  records : String
  release : Option String
  format : Option String
  offsets : Option String
deriving DecidableEq, Repr

inductive Request where
  | render (r : RenderRequest)
  | formats
  | capabilities (release : String)
deriving DecidableEq, Repr

structure Invocation where
  settings : Option String
  loudness : Nat
  request : Request
deriving DecidableEq, Repr

namespace Invocation

def sharedOptions : List OptionSpec := [
  ⟨"config", some 'c', .value []⟩, ⟨"verbose", some 'v', .count⟩, ⟨"help", some 'h', .help⟩]

def topLevel : Level :=
  ⟨sharedOptions ++ [⟨"version", some 'V', .version⟩], ["render", "formats", "capabilities", "help"], 0⟩

def renderLevel : Level :=
  ⟨sharedOptions ++ [⟨"records", some 'r', .value []⟩, ⟨"lexer-version", none, .value []⟩,
    ⟨"format", some 'f', .value []⟩, ⟨"offsets", none, .value ["utf8", "utf16"]⟩], [], 1⟩

def formatsLevel : Level := ⟨sharedOptions, [], 0⟩

def capabilitiesLevel : Level := ⟨sharedOptions, [], 1⟩

def level? (command : String) : Option Level :=
  if command = "render" then some renderLevel
  else if command = "formats" then some formatsLevel
  else if command = "capabilities" then some capabilitiesLevel
  else none

def required (g : Given) (option : String) : Except Halt String :=
  match g.value? option with
  | some v => .ok v
  | none => .error (.fault (.missingOption option))

def word (g : Given) (name : String) : Except Halt String :=
  match g.words with
  | v :: _ => .ok v
  | [] => .error (.fault (.missingWord name))

def requestOf (command : String) (g : Given) : Except Halt Request :=
  if command = "render" then do
    let source ← word g "source"
    let records ← required g "records"
    return .render ⟨source, records, g.value? "lexer-version", g.value? "format", g.value? "offsets"⟩
  else if command = "formats" then .ok .formats
  else (word g "version").map .capabilities

def helpOn : List String → Halt
  | [] => .help
  | [command] =>
    if topLevel.commands.contains command then .help else .fault (.unexpectedWord command)
  | _ :: word :: _ => .fault (.unexpectedWord word)

/-- An option that may stand at both levels counts at the inner one if it is given there. -/
def ofWords (words : List String) : Except Halt Invocation := do
  let (outer, command) ← topLevel.read {} none words
  match command with
  | none => .error (.fault .missingCommand)
  | some (command, rest) =>
    match level? command with
    | none => .error (helpOn rest)
    | some level =>
      let (inner, _) ← level.read {} none rest
      let request ← requestOf command inner
      return {
        settings := (inner.value? "config").or (outer.value? "config")
        loudness := if inner.count = 0 then outer.count else inner.count
        request }

end Invocation
end AnnotatedSource
