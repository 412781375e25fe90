import Marginalia.Domain
import Marginalia.Url.Address
import Marginalia.Url.Escape
import Marginalia.Url.Scheme

/-!
What stands between the two slashes of an address and its path: perhaps a user and a password, a
host, and perhaps a socket of the host.
-/

namespace Marginalia.Url

open Text

/-- A user and a password in normal form. -/
structure Credentials where
  user : List Char
  password : Option (List Char)
  deriving DecidableEq, Repr

namespace Credentials

/-- The credentials that text in front of a host stands for; without a user and a password there
are none. -/
def ofText? (text : List Char) : Option Credentials :=
  let (user, password) :=
    match splitAtFirst? ':' text with
    | none => (text, [])
    | some (user, password) => (user, password)
  if user.isEmpty && password.isEmpty then none
  else
    some ⟨escape userExtra user,
      if password.isEmpty then none else some (escape userExtra password)⟩

/-- The text of credentials. -/
def text (c : Credentials) : List Char :=
  c.user ++ (match c.password with
    | none => []
    | some password => ':' :: password) ++ ['@']

/-- The credentials can be shown to a host: the user is text, and the user or the password says
something. -/
def canBeShown (c : Credentials) : Bool :=
  match unescaped? c.user with
  | none => false
  | some user => !user.isEmpty || (c.password.bind unescaped?).isSome

end Credentials

/-! ### Hosts -/

/-- A host in brackets in normal form. -/
def bracketedHost? (inner : List Char) : Option (List Char) :=
  match dropEnd? [']'] inner with
  | none => none
  | some text => (Address.eightGroups? text).map fun g => '[' :: Address.eightGroupsText g ++ [']']

/-- A host with a name of a domain, in normal form; one that ends in a number is an address. -/
def namedHost? (host : List Char) : Option (List Char) := do
  let name ← Domain.toAscii? (← unescaped? host)
  if name.isEmpty then none
  else if Address.endsInNumber name then (Address.fourBytes? name).map Address.fourBytesText
  else some name

/-- A character that no host may have. -/
def isRefusedInHost (c : Char) : Bool :=
  c.toNat = 0
    || [' ', '#', '/', ':', '<', '>', '?', '@', '[', '\\', ']', '^', '|'].contains c

/-- A host in normal form; only with an unknown scheme there need not be one. -/
def host? (target : Target) (host : List Char) : Option (List Char) :=
  match host with
  | '[' :: inner => bracketedHost? inner
  | host =>
    if target.isKnown then namedHost? host
    else if host.any isRefusedInHost then none
    else some (escape [] host)

/-! ### Sockets -/

/-- Cuts a host off at the first colon outside of brackets. -/
def splitSocket (inside : Bool) : List Char → List Char × Option (List Char)
  | [] => ([], none)
  | c :: rest =>
    if c = ':' && !inside then ([], some rest)
    else
      let (host, socket) := splitSocket (c = '[' || (inside && c != ']')) rest
      (c :: host, socket)

/-- A socket, if it needs to be named, and what follows it; only a backslash may follow. -/
def socket? (target : Target) (text : List Char) : Option (Option Nat × List Char) :=
  let digits := text.takeWhile Char.isDigit
  let rest := text.dropWhile Char.isDigit
  let n := Decimal.value digits
  if !rest.head?.all (· == '\\') || n ≥ 65536 then none
  else some (if digits.isEmpty || target = .machine n then none else some n, rest)

/-! ### Authorities -/

/-- Whom an address leads to; all parts are in normal form. -/
structure Authority where
  credentials : Option Credentials
  host : List Char
  socket : Option Nat
  deriving DecidableEq, Repr

namespace Authority

/-- The text of an authority, with the slashes in front of it. -/
def text (a : Authority) : List Char :=
  '/' :: '/' :: (a.credentials.map Credentials.text).getD [] ++ a.host
    ++ match a.socket with
      | none => []
      | some n => ':' :: Decimal.digits n

/-- The authority that text stands for, and what follows it. A user needs a host, and so does a
socket. -/
def ofText? (target : Target) (text : List Char) : Option (Authority × List Char) := do
  let (user, rest) :=
    match splitAtLast? '@' text with
    | some (user, rest) => (some user, rest)
    | none => (none, text)
  let credentials := user.bind Credentials.ofText?
  let (hostText, socketText) := splitSocket false rest
  let host ← host? target hostText
  let (socket, rest) ← (socketText.map (socket? target)).getD (some (none, []))
  if host.isEmpty && (user == some [] || credentials.isSome || socketText.isSome) then none
  else some (⟨credentials, host, socket⟩, rest)

end Authority

end Marginalia.Url
