import Marginalia.Enrichment.Question
import Marginalia.IndexId
import Marginalia.World

/-!
Indexes take in the finished units and give them identifiers. An index may keep nothing, may be a
file to which one line a unit is appended, or may be a service.
-/

namespace Marginalia

/-- Where finished units go. -/
inductive Index where
  | null
  /-- The file with a serial number. -/
  | file (serial : Nat)
  | service (ingest : Service String)

namespace Index

/-- The line that stands for a unit. -/
def line (u : CodeUnit) : String :=
  Json.toText (Json.ofFields [
    ("id", .string u.id.indexId), ("unit_id", .string u.id.text), ("file", .string u.file),
    ("text", .string u.embeddingText)]) ++ "\n"

/-- Opens an index file at a path, with the directories above it. -/
def openAt (t : FileTree) (path : String) : Except FileError Index × FileTree :=
  match t.makeParents path with
  | .error e => (.error e, t)
  | .ok t =>
    match t.openFile path with
    | .error e => (.error e, t)
    | .ok (serial, t) => (.ok (.file serial), t)

/-- Takes a unit in: its identifier, and the world behind it. -/
def ingest (i : Index) (u : CodeUnit) (w : World) : CallResult String × World :=
  match i with
  | null => (.answer u.id.indexId, w)
  | file serial =>
    (.answer u.id.indexId, { w with tree := w.tree.change serial (·.append (line u)) })
  | service ask => ((ask w.calls u).result, w.afterCall (ask w.calls u))

/-- Taking a unit in leaves the budget alone. -/
theorem budget_ingest (i : Index) (u : CodeUnit) (w : World) :
    (i.ingest u w).2.budget = w.budget := by
  cases i with
  | null => rfl
  | file serial => rfl
  | service ask => exact w.budget_afterCall _

end Index

end Marginalia
