import Marginalia.Settings

/-!
The command line. A command is a verb, with options before and behind it. Options and their values
are read from left to right, and the first thing that is wrong, or the first wish for help, ends the
reading.
-/

namespace Marginalia

/-- What is to be done. -/
inductive Verb where
  /-- Bring all files in step and write the manifest. -/
  | run
  /-- List the units. -/
  | scan
  /-- Take all blocks out. -/
  | strip
  deriving DecidableEq, Repr

/-- The word for a verb. -/
def Verb.name : Verb → String
  | run => "run"
  | scan => "scan"
  | strip => "strip"

/-- The verb of a word. -/
def Verb.ofName? (s : String) : Option Verb := [run, scan, strip].find? (·.name == s)

/-- What a line says about a verb. -/
def Verb.summary : Verb → String
  | run => "Full pipeline: classify, annotate, rewrite files, write the manifest"
  | scan => "Walk, segment and resolve calls; prints the units without rewriting anything"
  | strip => "Remove every recognized annotation block under the root"

/-- A command that can be carried out. -/
structure Invocation where
  verb : Verb
  root : String
  /-- The output is JSON. -/
  json : Bool
  configFile : Option String
  overrides : Overrides
  deriving DecidableEq, Repr

/-- Why a command line holds no command. -/
inductive Refusal where
  | help
  | version
  | usage (reason : String)
  deriving DecidableEq, Repr

namespace CommandLine

/-! ### Options -/

/-- An option, with a value or without. -/
inductive Switch where
  | verbose | quiet | config | help | version
  | json | exclude | noGitignore
  | dryRun | quota | unlimitedQuota | lookback | parallelism | manifest | index | model
  deriving DecidableEq, Repr

namespace Switch

/-- The long name of an option. -/
def long : Switch → String
  | verbose => "verbose"
  | quiet => "quiet"
  | config => "config"
  | help => "help"
  | version => "version"
  | json => "json"
  | exclude => "exclude"
  | noGitignore => "no-gitignore"
  | dryRun => "dry-run"
  | quota => "quota"
  | unlimitedQuota => "unlimited-quota"
  | lookback => "lookback"
  | parallelism => "parallelism"
  | manifest => "manifest"
  | index => "index"
  | model => "model"

/-- The letter of an option. -/
def short? : Switch → Option Char
  | verbose => some 'v'
  | quiet => some 'q'
  | help => some 'h'
  | version => some 'V'
  | parallelism => some 'j'
  | _ => none

/-- The option has a value. -/
def takesValue : Switch → Bool
  | config | exclude | quota | lookback | parallelism | manifest | index | model => true
  | _ => false

/-- The value has to be a count. -/
def takesCount : Switch → Bool
  | quota | lookback | parallelism => true
  | _ => false

/-- The value has to be a path. -/
def takesPath : Switch → Bool
  | config | manifest | index => true
  | _ => false

end Switch

/-- The options that stand before a verb. -/
def topOptions : List Switch := [.verbose, .quiet, .config, .help, .version]

/-- The options that stand behind a verb. -/
def optionsOf (v : Verb) : List Switch :=
  [.verbose, .quiet, .config, .help, .json, .exclude, .noGitignore]
    ++ match v with
      | .run => [.dryRun, .quota, .unlimitedQuota, .lookback, .parallelism, .manifest, .index,
          .model]
      | .scan => []
      | .strip => [.dryRun]

/-! ### Reading -/

/-- What has been given so far. -/
structure Given where
  /-- The options with their values; flags have an empty one. -/
  options : List (Switch × String) := []
  root : Option String := none
  deriving Repr

namespace Given

/-- The option has been given. -/
def has (g : Given) (o : Switch) : Bool := (g.options.lookup o).isSome

/-- The value of an option. -/
def value? (g : Given) (o : Switch) : Option String := g.options.lookup o

/-- The count that is the value of an option. -/
def count? (g : Given) (o : Switch) : Option Nat := (g.value? o).bind Settings.count?

/-- Adds an option. Help and version end the reading, only exclusions may be given several times,
and a value must be what the option takes. -/
def add (g : Given) (o : Switch) (value : String) : Except Refusal Given :=
  if o = .help then .error .help
  else if o = .version then .error .version
  else if g.has o && o != .exclude then
    .error (.usage s!"the argument '--{o.long}' cannot be used multiple times")
  else if o.takesCount && (Settings.count? value).isNone then
    .error (.usage s!"invalid value '{value}' for '--{o.long}'")
  else if o.takesPath && value == "" then
    .error (.usage s!"a value is required for '--{o.long}' but none was supplied")
  else .ok { g with options := g.options ++ [(o, value)] }

/-- Adds the root, which may be given once. -/
def addRoot (g : Given) (path : String) : Except Refusal Given :=
  if g.root.isSome then .error (.usage s!"unexpected argument '{path}' found")
  else if path == "" then
    .error (.usage "a value is required for '[ROOT]' but none was supplied")
  else .ok { g with root := some path }

end Given

/-- The argument is an option and no value. -/
def isOption (argument : String) : Bool :=
  match argument.toList with
  | '-' :: _ :: _ => true
  | _ => false

/-- An option that waits for its value. -/
structure Reading where
  given : Given
  waiting : Option Switch := none

/-- Reads the letters behind a single dash. -/
def readLetters (allowed : List Switch) (g : Given) : List Char → Except Refusal Reading
  | [] => .ok ⟨g, none⟩
  | c :: rest =>
    match allowed.find? (·.short? == some c) with
    | none => .error (.usage s!"unexpected argument '-{c}' found")
    | some o =>
      if o.takesValue then
        match rest with
        | [] => .ok ⟨g, some o⟩
        | '=' :: value => (g.add o (String.ofList value)).map (⟨·, none⟩)
        | value => (g.add o (String.ofList value)).map (⟨·, none⟩)
      else
        match g.add o "" with
        | .ok g => readLetters allowed g rest
        | .error e => .error e

/-- Reads what stands behind two dashes. -/
def readLong (allowed : List Switch) (g : Given) (text : List Char) : Except Refusal Reading :=
  let (name, value) :=
    match Text.splitAtFirst? '=' text with
    | some (name, value) => (name, some (String.ofList value))
    | none => (text, none)
  match allowed.find? (·.long.toList == name) with
  | none => .error (.usage s!"unexpected argument '--{String.ofList name}' found")
  | some o =>
    match o.takesValue, value with
    | true, some value => (g.add o value).map (⟨·, none⟩)
    | true, none => .ok ⟨g, some o⟩
    | false, none => (g.add o "").map (⟨·, none⟩)
    | false, some value =>
      .error (.usage s!"unexpected value '{value}' for '--{o.long}' found")

/-- Reads an option. -/
def readOption (allowed : List Switch) (g : Given) (argument : String) :
    Except Refusal Reading :=
  match argument.toList with
  | '-' :: '-' :: name => readLong allowed g name
  | letters => readLetters allowed g letters.tail

/-- An option has been left without its value. -/
def missingValue (o : Switch) : Refusal :=
  .usage s!"a value is required for '--{o.long}' but none was supplied"

/-- Reads arguments. One that is no option goes to `word`, which says whether to go on. -/
def readArguments (allowed : List Switch) (r : Reading) :
    List String → Except Refusal (Given × Option (String × List String))
  | [] =>
    match r.waiting with
    | some o => .error (missingValue o)
    | none => .ok (r.given, none)
  | argument :: rest =>
    match r.waiting with
    | some o =>
      if isOption argument then .error (missingValue o)
      else
        match r.given.add o argument with
        | .ok g => readArguments allowed ⟨g, none⟩ rest
        | .error e => .error e
    | none =>
      if isOption argument && argument != "--" then
        match readOption allowed r.given argument with
        | .ok r => readArguments allowed r rest
        | .error e => .error e
      else .ok (r.given, some (argument, rest))

/-- Reads the arguments behind a verb. -/
def readRest (allowed : List Switch) (fuel : Nat) (r : Reading) (arguments : List String) :
    Except Refusal Given :=
  match fuel with
  | 0 => .ok r.given
  | fuel + 1 =>
    match readArguments allowed r arguments with
    | .error e => .error e
    | .ok (g, none) => .ok g
    | .ok (g, some ("--", rest)) => rest.foldlM Given.addRoot g
    | .ok (g, some (word, rest)) =>
      match g.addRoot word with
      | .ok g => readRest allowed fuel ⟨g, none⟩ rest
      | .error e => .error e

/-- A wish for help on a verb must name one that there is. -/
def helpOn : List String → Refusal
  | [] => .help
  | [word] =>
    if word = "help" || (Verb.ofName? word).isSome then .help
    else .usage s!"unrecognized subcommand '{word}'"
  | _ :: word :: _ => .usage s!"unrecognized subcommand '{word}'"

/-- The command that options make up. -/
def invocation (v : Verb) (top g : Given) : Except Refusal Invocation :=
  if g.has .quota && g.has .unlimitedQuota then
    .error (.usage "the argument '--quota' cannot be used with '--unlimited-quota'")
  else
    let excluded := g.options.filterMap fun (o, value) =>
      if o = .exclude then some value else none
    .ok {
      verb := v
      root := g.root.getD "."
      json := g.has .json
      configFile := (g.value? .config).orElse fun _ => top.value? .config
      overrides := {
        quota := g.count? .quota
        unlimitedQuota := g.has .unlimitedQuota
        lookback := g.count? .lookback
        parallelism := g.count? .parallelism
        manifest := g.value? .manifest
        index := g.value? .index
        model := g.value? .model
        exclude := excluded.flatMap fun e =>
          (Text.splitAtEach ',' e.toList).map String.ofList
        dryRun := g.has .dryRun
        noIgnoreFiles := g.has .noGitignore } }

/-- Reads a command line. -/
def parse (arguments : List String) : Except Refusal Invocation := do
  let (top, verb) ← readArguments topOptions ⟨{}, none⟩ arguments
  match verb with
  | none => throw (.usage "a subcommand is required but one was not provided")
  | some (word, rest) =>
    if word = "help" then throw (helpOn rest)
    match Verb.ofName? word with
    | none => throw (.usage s!"unrecognized subcommand '{word}'")
    | some v => invocation v top (← readRest (optionsOf v) (rest.length + 1) ⟨{}, none⟩ rest)

/-- What the program is called, and its version. -/
def versionText : String := "madl 0.1.1"

/-- An option in the help text. -/
def helpLine (o : Switch) : String :=
  let letter := match o.short? with
    | some c => s!"-{c}, "
    | none => "    "
  s!"  {letter}--{o.long}"

/-- How the program is used. -/
def helpText : String :=
  "\n".intercalate (
    ["Extract methods, classify reusability and keep MADL annotation blocks in sync", "",
      "Usage: madl [OPTIONS] <COMMAND>", "", "Commands:"]
    ++ [Verb.run, .scan, .strip].map (fun v => s!"  {v.name}: {v.summary}")
    ++ ["", "Options:"] ++ topOptions.map helpLine
    ++ ["", "The files that a command may see are named on standard input, one path a line."])

end CommandLine

end Marginalia
