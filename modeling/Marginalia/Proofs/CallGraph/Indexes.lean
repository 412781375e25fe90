import Mathlib.Order.Bounds.Basic
import Marginalia.Proofs.CallGraph

/-!
How a graph comes about. Nodes and calls are added one after the other; a node whose identifier is
taken is refused and leaves no trace. So both indexes can be read off the nodes, whatever has been
added in which order, and each call that was added is seen once from either of its ends.
-/

namespace Marginalia

/-- Something that is done to a graph. -/
inductive GraphOperation where
  | addNode (node : CallNode)
  | addEdge (e : CallEdge)

namespace GraphOperation

/-- The nodes that are offered to a graph, taken or not. -/
def offered (ops : List GraphOperation) : List CallNode :=
  ops.filterMap fun
    | addNode node => some node
    | addEdge _ => none

/-- The calls that are added to a graph. -/
def edges (ops : List GraphOperation) : List CallEdge :=
  ops.filterMap fun
    | addNode _ => none
    | addEdge e => some e

/-- The nodes that are the first ones offered under their identifiers, in their order. -/
def firstOffered (ops : List GraphOperation) : List CallNode :=
  ((offered ops).map (·.id)).eraseDups.filterMap fun id => (offered ops).find? (·.id == id)

variable {ops : List GraphOperation} {node : CallNode}

theorem edges_addNode (ops : List GraphOperation) (node : CallNode) :
    edges (ops ++ [.addNode node]) = edges ops := by
  simp [edges, List.filterMap_append]

theorem edges_addEdge (ops : List GraphOperation) (e : CallEdge) :
    edges (ops ++ [.addEdge e]) = edges ops ++ [e] := by
  simp [edges, List.filterMap_append]

theorem exists_find?_offered {id : UnitId} (h : id ∈ (offered ops).map (·.id)) :
    ∃ n, (offered ops).find? (·.id == id) = some n ∧ n.id = id := by
  obtain ⟨n, hn, hid⟩ := List.mem_map.1 h
  have hsome : ((offered ops).find? (·.id == id)).isSome := by
    rw [List.find?_isSome]
    exact ⟨n, hn, by simpa using hid⟩
  obtain ⟨m, hm⟩ := Option.isSome_iff_exists.1 hsome
  exact ⟨m, hm, by simpa using List.find?_some hm⟩

theorem map_id_firstOffered (ops : List GraphOperation) :
    (firstOffered ops).map (·.id) = ((offered ops).map (·.id)).eraseDups := by
  have hfound : ∀ id ∈ ((offered ops).map (·.id)).eraseDups,
      ((offered ops).find? (·.id == id)).map (·.id) = some id := by
    intro id hid
    obtain ⟨n, hn, rfl⟩ := exists_find?_offered (List.mem_eraseDups.1 hid)
    rw [hn, Option.map_some]
  rw [firstOffered, List.map_filterMap, List.filterMap_congr hfound, List.filterMap_some]

theorem mem_map_id_firstOffered {id : UnitId} :
    id ∈ (firstOffered ops).map (·.id) ↔ id ∈ (offered ops).map (·.id) := by
  rw [map_id_firstOffered, List.mem_eraseDups]

/-- A node comes last, unless its identifier came before. -/
theorem firstOffered_addNode (ops : List GraphOperation) (node : CallNode) :
    firstOffered (ops ++ [.addNode node])
      = firstOffered ops ++ if node.id ∈ (offered ops).map (·.id) then [] else [node] := by
  have hoffered : offered (ops ++ [.addNode node]) = offered ops ++ [node] := by
    simp [offered, List.filterMap_append]
  -- under an old identifier the new node is not the first one
  have hold : ∀ id ∈ ((offered ops).map (·.id)).eraseDups,
      (offered ops ++ [node]).find? (·.id == id) = (offered ops).find? (·.id == id) := by
    intro id hid
    obtain ⟨n, hn, -⟩ := exists_find?_offered (List.mem_eraseDups.1 hid)
    rw [List.find?_append, hn, Option.some_or]
  rw [firstOffered, hoffered, List.map_append, List.map_singleton, eraseDups_concat,
    List.filterMap_append, List.filterMap_congr hold, firstOffered]
  split
  · rw [List.filterMap_nil]
  · next h =>
    have hnone : (offered ops).find? (·.id == node.id) = none := by
      rw [List.find?_eq_none]
      intro n hn hid
      exact h (List.mem_map.2 ⟨n, hn, by simpa using hid⟩)
    simp [List.find?_append, hnone]

theorem firstOffered_addEdge (ops : List GraphOperation) (e : CallEdge) :
    firstOffered (ops ++ [.addEdge e]) = firstOffered ops := by
  have hoffered : offered (ops ++ [.addEdge e]) = offered ops := by
    simp [offered, List.filterMap_append]
  rw [firstOffered, hoffered, firstOffered]

end GraphOperation

namespace CallGraph

open GraphOperation

variable {g g' : CallGraph} {ops : List GraphOperation} {node : CallNode}

/-- Does something to a graph. A node that is refused leaves it as it is. -/
def apply (g : CallGraph) : GraphOperation → CallGraph
  | .addNode node => (g.addNode? node).getD g
  | .addEdge e => g.addEdge e

/-- It can be done to the graph: a call is added between nodes that are there. -/
def Admits (g : CallGraph) : GraphOperation → Prop
  | .addNode _ => True
  | .addEdge e => e.caller < g.nodes.size ∧ e.callee < g.nodes.size

instance (g : CallGraph) : (op : GraphOperation) → Decidable (g.Admits op)
  | .addNode _ => .isTrue trivial
  | .addEdge _ => inferInstanceAs (Decidable (_ ∧ _))

/-- The operations can be done to the graph one after the other. -/
def AdmitsAll : CallGraph → List GraphOperation → Prop
  | _, [] => True
  | g, op :: ops => g.Admits op ∧ (g.apply op).AdmitsAll ops

instance decidableAdmitsAll : (g : CallGraph) → (ops : List GraphOperation) →
    Decidable (g.AdmitsAll ops)
  | _, [] => .isTrue trivial
  | g, op :: ops =>
    have := decidableAdmitsAll (g.apply op) ops
    inferInstanceAs (Decidable (g.Admits op ∧ (g.apply op).AdmitsAll ops))

/-- The empty graph becomes this one by these operations. -/
inductive ComesBy : List GraphOperation → CallGraph → Prop
  | start : ComesBy [] empty
  | step {ops : List GraphOperation} {g : CallGraph} (before : ComesBy ops g)
      (op : GraphOperation) (admits : g.Admits op) : ComesBy (ops ++ [op]) (g.apply op)

/-- Whatever can be done to a graph leads to another one. -/
theorem ComesBy.append {more : List GraphOperation} (h : ComesBy ops g)
    (hmore : g.AdmitsAll more) : ComesBy (ops ++ more) (more.foldl apply g) := by
  induction more generalizing ops g with
  | nil =>
    rw [List.append_nil]
    exact h
  | cons op more ih =>
    rw [List.append_cons, List.foldl_cons]
    exact ih (h.step op hmore.1) hmore.2

/-! ### Indexes -/

/-- The numbers of nodes under what `key` tells of them, the newest first. -/
def numbersBy {κ : Type} (key : CallNode → κ) (nodes : List CallNode) : List (κ × Nat) :=
  (nodes.zipIdx.map fun (n, i) => (key n, i)).reverse

theorem numbersBy_concat {κ : Type} (key : CallNode → κ) (nodes : List CallNode)
    (node : CallNode) :
    numbersBy key (nodes ++ [node]) = (key node, nodes.length) :: numbersBy key nodes := by
  simp [numbersBy, List.zipIdx_append]

/-- The numbers of the nodes that carry a key. -/
def carriers {κ : Type} (key : CallNode → κ) (nodes : List CallNode) (k : κ) : Set Nat :=
  {i | ∃ n ∈ nodes[i]?, key n = k}

section

variable {κ : Type} {key : CallNode → κ} {nodes : List CallNode} {k : κ} {i : Nat}

theorem lt_of_mem_carriers (h : i ∈ carriers key nodes k) : i < nodes.length := by
  obtain ⟨n, hn, -⟩ := h
  exact (List.getElem?_eq_some_iff.1 hn).1

theorem mem_carriers_concat :
    i ∈ carriers key (nodes ++ [node]) k
      ↔ i ∈ carriers key nodes k ∨ i = nodes.length ∧ key node = k := by
  rcases Nat.lt_trichotomy i nodes.length with hi | rfl | hi
  · simp [carriers, List.getElem?_append_left hi, hi.ne]
  · simp [carriers]
  · have hnone : (nodes ++ [node])[i]? = none := List.getElem?_eq_none (by
      rw [List.length_append, List.length_singleton]
      exact hi)
    simp [carriers, hnone, hi.le, hi.ne']

/-- No two nodes carry one key, if the keys differ. -/
theorem carriers_subsingleton (h : (nodes.map key).Nodup) :
    (carriers key nodes k).Subsingleton := by
  rintro i ⟨n, hn, rfl⟩ j ⟨m, hm, hkey⟩
  have hi : (nodes.map key)[i]? = some (key n) := by rw [List.getElem?_map, hn, Option.map_some]
  have hj : (nodes.map key)[j]? = some (key n) := by
    rw [List.getElem?_map, hm, Option.map_some, hkey]
  exact (List.getElem?_inj (List.getElem?_eq_some_iff.1 hi).1 h).1 (hi.trans hj.symm)

variable [DecidableEq κ]

/-- A key leads to the last node that carries it. -/
theorem lookup_numbersBy_eq_some :
    (numbersBy key nodes).lookup k = some i ↔ IsGreatest (carriers key nodes k) i := by
  induction nodes using List.reverseRecOn with
  | nil => simp [numbersBy, carriers, IsGreatest]
  | append_singleton nodes node ih =>
    rw [numbersBy_concat, List.lookup_cons]
    by_cases hk : key node = k
    · -- the node that comes last takes the key over
      have hgreatest : IsGreatest (carriers key (nodes ++ [node]) k) nodes.length := by
        refine ⟨mem_carriers_concat.2 (.inr ⟨rfl, hk⟩), fun j hj => ?_⟩
        rcases mem_carriers_concat.1 hj with hj | ⟨rfl, -⟩
        · exact (lt_of_mem_carriers hj).le
        · exact le_rfl
      have hfound : (k == key node) = true := by simp [hk]
      simp only [hfound, Option.some.injEq]
      constructor
      · rintro rfl
        exact hgreatest
      · exact hgreatest.unique
    · have hsame : carriers key (nodes ++ [node]) k = carriers key nodes k := by
        ext j
        simp [mem_carriers_concat, hk]
      have hpassed : (k == key node) = false := by simpa using Ne.symm hk
      rw [hsame, ← ih, hpassed]

theorem lookup_numbersBy_eq_none :
    (numbersBy key nodes).lookup k = none ↔ ∀ n ∈ nodes, key n ≠ k := by
  induction nodes using List.reverseRecOn with
  | nil => simp [numbersBy]
  | append_singleton nodes node ih =>
    rw [numbersBy_concat, List.lookup_cons, List.forall_mem_append, List.forall_mem_singleton, ← ih]
    by_cases hk : key node = k
    · simp [hk]
    · have hpassed : (k == key node) = false := by simpa using Ne.symm hk
      simp [hpassed, hk]

end

/-! ### Runs -/

/-- What a graph holds of the operations that led to it. -/
structure Holds (ops : List GraphOperation) (g : CallGraph) : Prop where
  nodes : g.nodes.toList = firstOffered ops
  edges : g.edges = (GraphOperation.edges ops).reverse
  byId : g.byId = numbersBy (·.id) g.nodes.toList
  byName : g.byName = numbersBy (·.name) g.nodes.toList
  ends : ∀ e ∈ g.edges, e.caller < g.nodes.size ∧ e.callee < g.nodes.size

theorem holds_empty : Holds [] empty where
  nodes := rfl
  edges := rfl
  byId := rfl
  byName := rfl
  ends := by simp [empty]

namespace Holds

variable (h : Holds ops g)
include h

theorem nodup_ids : (g.nodes.toList.map (·.id)).Nodup := by
  rw [h.nodes, map_id_firstOffered]
  exact nodup_eraseDups _

theorem find?_eq_none {id : UnitId} : g.find? id = none ↔ ∀ n ∈ g.nodes.toList, n.id ≠ id := by
  rw [find?, h.byId, lookup_numbersBy_eq_none]

/-- An identifier leads to the one node that carries it. -/
theorem find?_eq_some {id : UnitId} {i : Nat} :
    g.find? id = some i ↔ i ∈ carriers (·.id) g.nodes.toList id := by
  rw [find?, h.byId, lookup_numbersBy_eq_some]
  constructor
  · exact And.left
  · intro hi
    exact ⟨hi, fun j hj => (carriers_subsingleton h.nodup_ids hj hi).le⟩

theorem addNode?_eq_none : g.addNode? node = none ↔ ∃ n ∈ g.nodes.toList, n.id = node.id := by
  have hnone : g.find? node.id = none ↔ ∀ n ∈ g.nodes.toList, n.id ≠ node.id := h.find?_eq_none
  rw [addNode?]
  cases hfind : g.find? node.id with
  | none =>
    have hfresh := hnone.1 hfind
    simpa using hfresh
  | some i =>
    have htaken : ¬∀ n ∈ g.nodes.toList, n.id ≠ node.id := by
      rw [← hnone, hfind]
      exact Option.some_ne_none i
    simpa using htaken

/-- A node that is taken gets the next number, and both indexes learn of it. -/
theorem addNode? (hadd : g.addNode? node = some g') :
    Holds (ops ++ [.addNode node]) g' := by
  have hfree : node.id ∉ (offered ops).map (·.id) := by
    intro hid
    rw [← mem_map_id_firstOffered, ← h.nodes] at hid
    obtain ⟨n, hn, hid⟩ := List.mem_map.1 hid
    rw [h.addNode?_eq_none.2 ⟨n, hn, hid⟩] at hadd
    cases hadd
  rw [CallGraph.addNode?] at hadd
  split at hadd
  · cases hadd
  · cases hadd
    constructor
    · rw [firstOffered_addNode, if_neg hfree, ← h.nodes, Array.toList_push]
    · rw [edges_addNode, h.edges]
    · rw [Array.toList_push, numbersBy_concat, ← h.byId, Array.length_toList]
    · rw [Array.toList_push, numbersBy_concat, ← h.byName, Array.length_toList]
    · intro e he
      rw [Array.size_push]
      exact (h.ends e he).imp Nat.lt_succ_of_lt Nat.lt_succ_of_lt

/-- A node that is refused leaves no trace. -/
theorem refused (hadd : g.addNode? node = none) : Holds (ops ++ [.addNode node]) g where
  nodes := by
    obtain ⟨n, hn, hid⟩ := h.addNode?_eq_none.1 hadd
    have htaken : node.id ∈ (offered ops).map (·.id) := by
      rw [← mem_map_id_firstOffered, ← h.nodes, ← hid]
      exact List.mem_map_of_mem hn
    rw [firstOffered_addNode, if_pos htaken, List.append_nil, h.nodes]
  edges := by rw [edges_addNode, h.edges]
  byId := h.byId
  byName := h.byName
  ends := h.ends

theorem addEdge {e : CallEdge} (hends : e.caller < g.nodes.size ∧ e.callee < g.nodes.size) :
    Holds (ops ++ [.addEdge e]) (g.addEdge e) where
  nodes := by rw [firstOffered_addEdge, ← h.nodes, CallGraph.addEdge]
  edges := by rw [CallGraph.addEdge, h.edges, edges_addEdge, List.reverse_concat]
  byId := h.byId
  byName := h.byName
  ends d hd := by
    rcases List.mem_cons.1 hd with rfl | hd
    · exact hends
    · exact h.ends d hd

/-- One operation is kept. -/
theorem apply {op : GraphOperation} (hadmits : g.Admits op) : Holds (ops ++ [op]) (g.apply op) := by
  cases op with
  | addEdge e => exact h.addEdge hadmits
  | addNode node =>
    rw [CallGraph.apply]
    cases hadd : g.addNode? node with
    | none => exact h.refused hadd
    | some g' => exact h.addNode? hadd

end Holds

/-- A graph holds what was done to it. -/
theorem ComesBy.holds (h : ComesBy ops g) : Holds ops g := by
  induction h with
  | start => exact holds_empty
  | step before op hadmits ih => exact ih.apply hadmits

/-! ### Both ends of a call -/

/-- The calls that leave the nodes, node after node, as pairs of ends. -/
def leaving (g : CallGraph) : List (Nat × Nat) :=
  (List.range g.nodes.size).flatMap fun a => (g.callees a).map (a, ·)

/-- The calls that reach the nodes, node after node, as pairs of ends. -/
def reaching (g : CallGraph) : List (Nat × Nat) :=
  (List.range g.nodes.size).flatMap fun b => (g.callers b).map (·, b)

/-- Taking a list apart by numbers below a bound only changes its order. -/
theorem flatMap_filter_perm {α : Type} {f : α → Nat} {bound : Nat} {l : List α}
    (hf : ∀ x ∈ l, f x < bound) :
    ((List.range bound).flatMap fun i => l.filter (f · == i)).Perm l := by
  have hbelow : ∀ n, ((List.range n).flatMap fun i => l.filter (f · == i)).Perm
      (l.filter (f · < n)) := by
    intro n
    induction n with
    | zero => simp
    | succ n ih =>
      have hlow : (l.filter (f · < n + 1)).filter (f · < n) = l.filter (f · < n) := by
        rw [List.filter_filter]
        exact List.filter_congr fun x _ => by grind
      have hlast : (l.filter (f · < n + 1)).filter (fun x => !decide (f x < n))
          = l.filter (f · == n) := by
        rw [List.filter_filter]
        exact List.filter_congr fun x _ => by grind
      rw [List.range_succ, List.flatMap_append, List.flatMap_singleton, ← hlast]
      exact ((ih.trans (.of_eq hlow.symm)).append_right _).trans (List.filter_append_perm _ _)
  have hall : l.filter (f · < bound) = l :=
    List.filter_eq_self.2 fun x hx => decide_eq_true (hf x hx)
  have hperm := hbelow bound
  rwa [hall] at hperm

/-- Calls as pairs of their ends. -/
def endsOf (calls : List CallEdge) : List (Nat × Nat) := calls.map fun e => (e.caller, e.callee)

theorem map_callees (g : CallGraph) (a : Nat) :
    (g.callees a).map (a, ·) = endsOf (g.edges.filter (·.caller == a)) := by
  rw [callees, List.map_map, endsOf]
  refine List.map_congr_left fun e he => ?_
  obtain ⟨-, rfl⟩ : e ∈ g.edges ∧ e.caller = a := by simpa using he
  rfl

theorem map_callers (g : CallGraph) (b : Nat) :
    (g.callers b).map (·, b) = endsOf (g.edges.filter (·.callee == b)) := by
  rw [callers, List.map_map, endsOf]
  refine List.map_congr_left fun e he => ?_
  obtain ⟨-, rfl⟩ : e ∈ g.edges ∧ e.callee = b := by simpa using he
  rfl

/-- Taken apart by one of their ends, the calls are those that were added. -/
theorem Holds.flatMap_endsOf_perm (h : Holds ops g) {f : CallEdge → Nat}
    (hf : ∀ e ∈ g.edges, f e < g.nodes.size) :
    ((List.range g.nodes.size).flatMap fun i => endsOf (g.edges.filter (f · == i))).Perm
      (endsOf (GraphOperation.edges ops)) := by
  have hsame : ((List.range g.nodes.size).flatMap fun i => endsOf (g.edges.filter (f · == i)))
      = endsOf ((List.range g.nodes.size).flatMap fun i => g.edges.filter (f · == i)) := by
    rw [endsOf, List.map_flatMap]
    rfl
  have hadded : g.edges.Perm (GraphOperation.edges ops) :=
    h.edges ▸ List.reverse_perm _
  rw [hsame]
  exact ((flatMap_filter_perm hf).trans hadded).map _

/-- The graph can be read off what has been done to it. -/
structure Reflects (ops : List GraphOperation) (g : CallGraph) : Prop where
  /-- The nodes are numbered in the order in which they were added. -/
  nodes : g.nodes.toList = firstOffered ops
  /-- A node is refused if its identifier is taken. -/
  refused : ∀ node, g.addNode? node = none ↔ ∃ n ∈ g.nodes.toList, n.id = node.id
  /-- A node that is refused leaves no trace. -/
  unchanged : ∀ node, g.addNode? node = none → g.apply (.addNode node) = g
  /-- A node that is not refused gets the next number. -/
  added : ∀ node g', g.addNode? node = some g' →
    g'.nodes.toList = g.nodes.toList ++ [node] ∧ g'.find? node.id = some g.nodes.size
      ∧ g'.resolve? node.name = some g.nodes.size ∧ g'.edges = g.edges
  /-- An identifier leads to the node that carries it. -/
  find? : ∀ id i, g.find? id = some i ↔ ∃ n ∈ g.nodes[i]?, n.id = id
  /-- A name leads to the last node that carries it. -/
  resolve? : ∀ name i, g.resolve? name = some i
    ↔ IsGreatest {i | ∃ n ∈ g.nodes[i]?, n.name = name} i
  resolve?_none : ∀ name, g.resolve? name = none ↔ ∀ n ∈ g.nodes.toList, n.name ≠ name
  /-- A node calls what calls from it lead to, the newest call first. -/
  callees : ∀ a, g.callees a
    = (((GraphOperation.edges ops).filter (·.caller == a)).map (·.callee)).reverse
  callers : ∀ b, g.callers b
    = (((GraphOperation.edges ops).filter (·.callee == b)).map (·.caller)).reverse
  /-- Each call is seen once from either end. -/
  leaving : g.leaving.Perm (endsOf (GraphOperation.edges ops))
  reaching : g.reaching.Perm (endsOf (GraphOperation.edges ops))

theorem added_of_addNode? (hadd : g.addNode? node = some g') :
    g'.nodes.toList = g.nodes.toList ++ [node] ∧ g'.find? node.id = some g.nodes.size
      ∧ g'.resolve? node.name = some g.nodes.size ∧ g'.edges = g.edges := by
  rw [CallGraph.addNode?] at hadd
  split at hadd
  · cases hadd
  · cases hadd
    exact ⟨Array.toList_push, List.lookup_cons_self, List.lookup_cons_self, rfl⟩

/-- Whatever is done to a graph, its indexes and its calls tell of it. -/
theorem reflects_of_comesBy (h : ComesBy ops g) : Reflects ops g := by
  have hg := h.holds
  constructor
  · exact hg.nodes
  · exact fun node => hg.addNode?_eq_none
  · intro node hrefused
    rw [apply, hrefused, Option.getD_none]
  · exact fun node g' => added_of_addNode?
  · intro id i
    rw [hg.find?_eq_some, carriers, Set.mem_ofPred_eq, Array.getElem?_toList]
  · intro name i
    rw [resolve?, hg.byName, lookup_numbersBy_eq_some, carriers]
    simp only [Array.getElem?_toList]
  · intro name
    rw [resolve?, hg.byName, lookup_numbersBy_eq_none]
  · intro a
    rw [callees, hg.edges, List.filter_reverse, List.map_reverse]
  · intro b
    rw [callers, hg.edges, List.filter_reverse, List.map_reverse]
  · simp only [CallGraph.leaving, map_callees]
    exact hg.flatMap_endsOf_perm fun e he => (hg.ends e he).1
  · simp only [CallGraph.reaching, map_callers]
    exact hg.flatMap_endsOf_perm fun e he => (hg.ends e he).2

/-- Two units share a name, a third one comes under an identifier that is taken, and the second unit
calls itself and is called twice by the first. -/
def crowdedOperations : List GraphOperation := [
  .addNode ⟨⟨"a"⟩, "run", "f"⟩, .addNode ⟨⟨"b"⟩, "run", "f"⟩, .addEdge ⟨0, 1, "run"⟩,
  .addNode ⟨⟨"a"⟩, "stop", "f"⟩, .addEdge ⟨1, 1, "run"⟩, .addEdge ⟨0, 1, "again"⟩]

/-- The graph of these operations. -/
def crowdedGraph : CallGraph := crowdedOperations.foldl apply empty

theorem comesBy_crowded : ComesBy crowdedOperations crowdedGraph :=
  ComesBy.start.append (by decide)

theorem reflects_of_comesBy_crowded :
    ComesBy crowdedOperations crowdedGraph ∧ Reflects crowdedOperations crowdedGraph
      ∧ crowdedGraph.resolve? "run" = some 1 ∧ crowdedGraph.resolve? "stop" = none
      ∧ crowdedGraph.callees 0 = [1, 1] ∧ crowdedGraph.callers 1 = [0, 1, 0] :=
  ⟨comesBy_crowded, reflects_of_comesBy comesBy_crowded, by decide, by decide, by decide,
    by decide⟩

end CallGraph
end Marginalia
