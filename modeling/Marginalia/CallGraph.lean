import Marginalia.CodeUnit

/-!
The call graph. A node stands for a unit, an edge for one name that its body calls. Two indexes lead
from identifiers and from names to nodes; a name leads to the node that was added last under it.
-/

namespace Marginalia

/-- A unit in the graph. -/
structure CallNode where
  id : UnitId
  name : String
  file : String
  deriving DecidableEq, Repr

/-- The node of a unit. -/
def CallNode.ofUnit (u : CodeUnit) : CallNode := ⟨u.id, u.name, u.file⟩

/-- A call from one node to another, with the name that is called. -/
structure CallEdge where
  caller : Nat
  callee : Nat
  name : String
  deriving DecidableEq, Repr

/-- How large a graph is. -/
structure GraphStats where
  nodes : Nat
  edges : Nat
  deriving DecidableEq, Repr

/-- Units and their calls. -/
structure CallGraph where
  /-- The nodes by number. -/
  nodes : Array CallNode
  /-- The calls, the newest first. -/
  edges : List CallEdge
  /-- The numbers of the nodes by identifier. -/
  byId : List (UnitId × Nat)
  /-- The numbers of the nodes by name, the newest first. -/
  byName : List (String × Nat)
  deriving Repr

/-- What can be wrong with a graph. -/
inductive GraphError where
  | duplicateUnit (id : UnitId)
  | nodeNotFound (id : UnitId)
  deriving DecidableEq, Repr

/-- The wording of a graph error. -/
def GraphError.message : GraphError → String
  | duplicateUnit id => s!"Duplicate unit id: {id.text}"
  | nodeNotFound id => s!"Node not found: {id.text}"

namespace CallGraph

/-- A graph without nodes. -/
def empty : CallGraph := ⟨#[], [], [], []⟩

/-- The number of the node with an identifier. -/
def find? (g : CallGraph) (id : UnitId) : Option Nat := g.byId.lookup id

/-- The number of the node that was added last under a name. -/
def resolve? (g : CallGraph) (name : String) : Option Nat := g.byName.lookup name

/-- Adds a node under the next number, unless its identifier is taken. -/
def addNode? (g : CallGraph) (node : CallNode) : Option CallGraph :=
  match g.find? node.id with
  | some _ => none
  | none =>
    let number := g.nodes.size
    some { g with
      nodes := g.nodes.push node
      byId := (node.id, number) :: g.byId
      byName := (node.name, number) :: g.byName }

/-- Adds a call. -/
def addEdge (g : CallGraph) (e : CallEdge) : CallGraph := { g with edges := e :: g.edges }

/-- The nodes that a node calls, the newest call first. -/
def callees (g : CallGraph) (node : Nat) : List Nat :=
  (g.edges.filter (·.caller == node)).map (·.callee)

/-- The nodes that call a node, the newest call first. -/
def callers (g : CallGraph) (node : Nat) : List Nat :=
  (g.edges.filter (·.callee == node)).map (·.caller)

/-- The nodes on either side of a node, those it calls first. -/
def neighbours (g : CallGraph) (node : Nat) : List Nat := g.callees node ++ g.callers node

/-- How large the graph is. -/
def stats (g : CallGraph) : GraphStats := ⟨g.nodes.size, g.edges.length⟩

/-! ### Neighbourhoods -/

/-- Adds the nodes that have not been visited yet to the fresh ones. -/
def collectFresh (visited : List Nat) (fresh : List Nat) (nodes : List Nat) : List Nat :=
  nodes.foldl
    (fun fresh n => if visited.contains n || fresh.contains n then fresh else fresh ++ [n])
    fresh

/-- The nodes next to a frontier that have not been visited yet, in the order in which they are
met. -/
def nextFrontier (g : CallGraph) (visited frontier : List Nat) : List Nat :=
  frontier.foldl (fun fresh n => collectFresh visited fresh (g.neighbours n)) []

/-- The nodes at most `steps` steps behind a frontier, each with its distance from the start. -/
def relatedFrom (g : CallGraph) (visited frontier : List Nat) (distance : Nat) :
    (steps : Nat) → List (Nat × Nat)
  | 0 => []
  | steps + 1 =>
    match g.nextFrontier visited frontier with
    | [] => []
    | fresh =>
      fresh.map (·, distance + 1)
        ++ relatedFrom g (visited ++ fresh) fresh (distance + 1) steps

/-- The other nodes within `depth` steps of a node, in either direction, each with its distance, the
near ones first. -/
def related (g : CallGraph) (node depth : Nat) : List (Nat × Nat) :=
  g.relatedFrom [node] [node] 0 depth

/-- The identifiers of the units related to a unit. -/
def relatedUnits (g : CallGraph) (id : UnitId) (depth : Nat) : Except GraphError (List UnitId) :=
  match g.find? id with
  | none => .error (.nodeNotFound id)
  | some node =>
    .ok ((g.related node depth).filterMap fun (n, _) => g.nodes[n]?.map (·.id))

/-! ### Building -/

/-- A graph with one node for each unit, in their order. -/
def ofUnits (units : List CodeUnit) : Except GraphError CallGraph :=
  units.foldlM (fun g u =>
    match g.addNode? (.ofUnit u) with
    | some g => .ok g
    | none => .error (.duplicateUnit u.id)) empty

/-- The calls of the units that lead to a unit. -/
def callsOf (g : CallGraph) (units : List CodeUnit) : List CallEdge :=
  units.zipIdx.flatMap fun (u, caller) =>
    u.callsOut.filterMap fun name => (g.resolve? name).map fun callee => ⟨caller, callee, name⟩

/-- The units with their callers, whatever callers they had before. -/
def withCallers (units : List CodeUnit) (calls : List CallEdge) : List CodeUnit :=
  units.zipIdx.map fun (u, callee) =>
    let callers := (calls.filter (·.callee == callee)).filterMap fun e =>
      units[e.caller]?.map (·.id)
    callers.foldl CodeUnit.addCaller { u with callsIn := [] }

/-- The graph of the units of a scan, and the units with their callers. -/
def build (units : List CodeUnit) : Except GraphError (CallGraph × List CodeUnit) := do
  let g ← ofUnits units
  let calls := g.callsOf units
  return (calls.foldl addEdge g, withCallers units calls)

/-- A node that is added gets the next number. -/
theorem size_addNode? {g g' : CallGraph} {node : CallNode} (h : g.addNode? node = some g') :
    g'.nodes.size = g.nodes.size + 1 := by
  unfold addNode? at h
  split at h
  · exact absurd h (by simp)
  · cases h
    simp

end CallGraph

open Json in
instance : Writable CallNode :=
  ⟨fun n => ofFields [
    ("unit_id", toJson n.id), ("name", toJson n.name), ("file_path", toJson n.file)]⟩

open Json in
instance : Readable CallNode :=
  ⟨fun v => do
    let r ← record? ["unit_id", "name", "file_path"] v
    return ⟨← r.field "unit_id", ← r.field "name", ← r.field "file_path"⟩⟩

open Json in
instance : Writable GraphStats :=
  ⟨fun s => ofFields [("nodes", toJson s.nodes), ("edges", toJson s.edges)]⟩

open Json in
instance : Readable GraphStats :=
  ⟨fun v => do
    let r ← record? ["nodes", "edges"] v
    return ⟨← r.field "nodes", ← r.field "edges"⟩⟩

end Marginalia
