import Marginalia.Url.Authority
import Marginalia.Url.Path

/-!
Absolute addresses and their normal form: a scheme, perhaps an authority, a path, perhaps a query
and perhaps a fragment.
-/

namespace Marginalia

/-- An absolute address; all parts are in normal form. -/
structure Url where
  scheme : String
  authority : Option Url.Authority
  path : List Char
  query : Option (List Char)
  fragment : Option (List Char)
  deriving DecidableEq, Repr

namespace Url

open Text

/-- The text of an address. Without an authority a path must not look like one. -/
def text (u : Url) : String :=
  let start := match u.authority with
    | some authority => authority.text
    | none => if u.path.take 2 = ['/', '/'] then ['/', '.'] else []
  let tail (mark : Char) (part : Option (List Char)) : List Char :=
    (part.map (mark :: ·)).getD []
  u.scheme ++ ":" ++ String.ofList (start ++ u.path ++ tail '?' u.query ++ tail '#' u.fragment)

/-- The address names a host. -/
def hasHost (u : Url) : Bool := u.authority.any (!·.host.isEmpty)

/-- The address without credentials that can be shown to the host instead. -/
def withoutCredentials (u : Url) : Url :=
  { u with authority := u.authority.map fun a =>
      { a with credentials := a.credentials.filter (!·.canBeShown) } }

/-! ### Reading -/

/-- Cuts the scheme off a text, in lower case. -/
def splitScheme? (text : List Char) : Option (String × List Char) := do
  let (scheme, rest) ← splitAtFirst? ':' text
  let first ← scheme.head?
  if first.isAlpha && scheme.all fun c => c.isAlphanum || ['+', '-', '.'].contains c then
    some (String.ofList (scheme.map Char.toLower), rest)
  else none

/-- The authority and the path of an address that leads to a machine. -/
def machineParts? (socket : Nat) (rest : List Char) : Option (Authority × List Char) := do
  let rest := rest.dropWhile (· == '/')
  let (authority, _) ← Authority.ofText? (.machine socket) (rest.takeWhile (· != '/'))
  return (authority, (pathOf false ((rest.dropWhile (· != '/')).drop 1)).1)

/-- The host and the path of an address that leads to a file. A drive is no host, and the own
machine needs none. -/
def fileParts? (rest : List Char) : Option (Authority × List Char) := do
  let noHost : Authority := ⟨none, [], none⟩
  match rest with
  | '/' :: '/' :: rest =>
    let host := rest.takeWhile (· != '/')
    if isDrive host then return (noHost, (pathOf true rest).1)
    let path := rest.drop host.length
    let host ← if host.isEmpty then some [] else host? .file host
    if host.isEmpty || host = "localhost".toList then return (noHost, (pathOf true path).1)
    let (path, onDrive) := pathOf true (path.drop 1)
    return (⟨none, if onDrive then [] else host, none⟩, path)
  | '/' :: rest => return (noHost, (pathOf true rest).1)
  | rest => return (noHost, (pathOf true rest).1)

/-- The authority and the path of an address that leads anywhere. -/
def anyParts? (rest : List Char) : Option (Option Authority × List Char) := do
  match rest with
  | '/' :: '/' :: rest =>
    let text := rest.takeWhile (· != '/')
    let (authority, left) ← Authority.ofText? .anything text
    let path := rest.drop text.length
    return (some authority,
      if left.isEmpty then
        match path with
        | [] => []
        | _ :: path => (pathOf false path).1
      else (pathOf false (left ++ path)).1)
  | '/' :: rest => return (none, (pathOf false rest).1)
  | rest => return (none, escape [] rest)

/-- Reads an absolute address. Control characters and spaces around it and line breaks inside say
nothing. -/
def parse? (s : String) : Option Url := do
  let outer (c : Char) : Bool := c.toNat ≤ 32
  let text := dropTrailing outer (s.toList.dropWhile outer)
  let text := text.filter fun c => !(['\t', '\n', '\r'].contains c)
  let (scheme, rest) ← splitScheme? text
  let target := Target.ofScheme scheme
  let (rest, fragment) :=
    match splitAtFirst? '#' rest with
    | some (rest, f) => (rest, some f)
    | none => (rest, none)
  let (rest, query) :=
    match splitAtFirst? '?' rest with
    | some (rest, q) => (rest, some q)
    | none => (rest, none)
  let rest := if target.isKnown then rest.map fun c => if c = '\\' then '/' else c else rest
  let (authority, path) ← match target with
    | .machine socket => (machineParts? socket rest).map fun (a, path) => (some a, path)
    | .file => (fileParts? rest).map fun (a, path) => (some a, path)
    | .anything => anyParts? rest
  return {
    scheme, authority, path
    query := query.map (escape (queryExtra ++ if target.isKnown then ['\x27'] else []))
    fragment := fragment.map (escape fragmentExtra) }

/-- Taking credentials away changes nothing else. -/
theorem hasHost_withoutCredentials (u : Url) : u.withoutCredentials.hasHost = u.hasHost := by
  simp only [hasHost, withoutCredentials]
  cases u.authority <;> rfl

end Url

end Marginalia
