import Marginalia.Settings.File

/-!
Where settings come from. A file comes first, variables of the environment go before it, and what is
given for one run alone goes before both.
-/

namespace Marginalia

/-- Why there are no settings. -/
inductive SettingsError where
  | unreadable (path : String)
  | invalidFile (path : String)
  | invalidQuota (text : String)
  deriving DecidableEq, Repr

/-- The wording of an error. -/
def SettingsError.message : SettingsError → String
  | unreadable path => s!"Failed to read config {path}"
  | invalidFile path => s!"Invalid config {path}"
  | invalidQuota text => s!"Invalid MADL_QUOTA {Text.quoted text}"

/-- Settings for one run alone. -/
structure Overrides where
  quota : Option Nat := none
  unlimitedQuota : Bool := false
  lookback : Option Nat := none
  parallelism : Option Nat := none
  manifest : Option String := none
  index : Option String := none
  model : Option String := none
  /-- Exclusions besides those that are there already. -/
  exclude : List String := []
  dryRun : Bool := false
  noIgnoreFiles : Bool := false
  deriving DecidableEq, Repr

/-- Variables and their values. -/
abbrev Environment := List (String × String)

namespace Settings

/-- The file that is looked for in the root. -/
def fileName : String := "madl.toml"

/-- The settings in a file. -/
def ofFile (t : FileTree) (path : String) : Except SettingsError RunConfig :=
  match t.readText path with
  | .error _ => .error (.unreadable path)
  | .ok text =>
    match RunConfig.ofDocument? text with
    | some c => .ok c
    | none => .error (.invalidFile path)

/-- The settings in the named file or, if there is one, in the file of the root. -/
def load (t : FileTree) (root : String) (explicit : Option String) :
    Except SettingsError RunConfig := do
  let standard := Path.join root fileName
  let path := explicit.orElse fun _ => if t.isFile standard then some standard else none
  let c ← match path with
    | some path => ofFile t path
    | none => pure {}
  return { c with root := root }

/-- A count in decimal digits, perhaps with a plus sign. -/
def count? (text : String) : Option Nat :=
  let ds := match text.toList with
    | '+' :: rest => rest
    | ds => ds
  if ds.isEmpty || !ds.all Char.isDigit then none
  else some (Decimal.value ds) |>.filter (· < Numeral.countBound)

/-- A budget: a count, or a word for no limit. -/
def quota? (text : String) : Option (Option Nat) :=
  let word := String.ofList (text.toList.map Char.toLower)
  if word = "unlimited" || word = "none" then some none else (count? text).map some

/-- The variables that settings are read from. -/
def variableNames : List String :=
  ["MADL_QUOTA", "MADL_LLM_BASE_URL", "MADL_LLM_MODEL", "MADL_API_KEY"]

/-- The value of a variable, unless it is blank. -/
def visible? (e : Environment) (name : String) : Option String :=
  ((e.lookup name).map Text.trimmed).filter (· != "")

/-- The settings with those of the environment. -/
def withEnvironment (c : RunConfig) (e : Environment) : Except SettingsError RunConfig := do
  let quota ←
    match visible? e "MADL_QUOTA" with
    | none => pure c.quota
    | some text =>
      match quota? text with
      | some quota => pure quota
      | none => throw (.invalidQuota text)
  let model := c.model
  return { c with
    quota := quota
    model := { model with
      baseUrl := (visible? e "MADL_LLM_BASE_URL").getD model.baseUrl
      model := (visible? e "MADL_LLM_MODEL").getD model.model
      apiKey := (visible? e "MADL_API_KEY").orElse fun _ => model.apiKey } }

/-- The settings with those for one run. -/
def withOverrides (c : RunConfig) (o : Overrides) : RunConfig :=
  { c with
    quota := if o.unlimitedQuota then none else o.quota.orElse fun _ => c.quota
    lookback := o.lookback.getD c.lookback
    parallelism := o.parallelism.getD c.parallelism
    manifest := o.manifest.orElse fun _ => c.manifest
    index := o.index.orElse fun _ => c.index
    model := { c.model with model := o.model.getD c.model.model }
    exclude := c.exclude ++ o.exclude
    dryRun := c.dryRun || o.dryRun
    heedsIgnoreFiles := c.heedsIgnoreFiles && !o.noIgnoreFiles }

/-- The settings of a run: those of a file, of the environment and of the run itself. -/
def resolve (t : FileTree) (root : String) (explicit : Option String) (e : Environment)
    (o : Overrides) : Except SettingsError RunConfig := do
  return withOverrides (← withEnvironment (← load t root explicit) e) o

/-- What is given for one run leaves the root alone. -/
theorem root_withOverrides (c : RunConfig) (o : Overrides) : (withOverrides c o).root = c.root :=
  rfl

end Settings

end Marginalia
