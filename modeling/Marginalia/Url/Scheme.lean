/-!
The schemes of addresses. With some of them an address leads to a machine on the web, with one to a
file; in these a backslash counts as a slash. All others are left to whoever knows them.
-/

namespace Marginalia.Url

/-- What an address of a scheme leads to. -/
inductive Target where
  /-- A machine; the number is that of the socket that need not be named. -/
  | machine (socket : Nat)
  | file
  | anything
  deriving DecidableEq, Repr

/-- What addresses of a scheme lead to. -/
def Target.ofScheme (scheme : String) : Target :=
  match scheme with
  | "http" | "ws" => .machine 80
  | "https" | "wss" => .machine 443
  | "ftp" => .machine 21
  | "file" => .file
  | _ => .anything

/-- The web or the files: the host is a name of a domain, and a backslash counts as a slash. -/
def Target.isKnown (t : Target) : Bool := t != .anything

end Marginalia.Url
