import Mathlib.Combinatorics.SimpleGraph.Metric
import Marginalia.Proofs.CallGraph.Indexes

/-!
The search around a node. Seen without directions, the calls form a graph, and the search finds the
nodes of this graph by their distances, layer by layer. A search that keeps a queue and ends when
the queue is empty finds the same in the same order.
-/

namespace Marginalia
namespace CallGraph

variable {g : CallGraph}

/-- The calls without their directions. -/
def undirected (g : CallGraph) : SimpleGraph Nat :=
  .fromRel fun a b => ∃ e ∈ g.edges, e.caller = a ∧ e.callee = b

theorem adj_iff_mem_neighbours {n m : Nat} :
    g.undirected.Adj n m ↔ n ≠ m ∧ m ∈ g.neighbours n := by
  have hcallees : m ∈ g.callees n ↔ ∃ e ∈ g.edges, e.caller = n ∧ e.callee = m := by
    simp [callees, and_assoc]
  have hcallers : m ∈ g.callers n ↔ ∃ e ∈ g.edges, e.caller = m ∧ e.callee = n := by
    simp [callers, and_assoc, and_comm]
  rw [undirected, SimpleGraph.fromRel_adj, neighbours, List.mem_append, hcallees, hcallers]

/-! ### Layers -/

section

variable {visited fresh nodes frontier : List Nat} {m n : Nat}

theorem collectFresh_cons :
    collectFresh visited fresh (n :: nodes)
      = collectFresh visited (if n ∈ visited ∨ n ∈ fresh then fresh else fresh ++ [n]) nodes := by
  simp [collectFresh]

theorem mem_collectFresh :
    m ∈ collectFresh visited fresh nodes ↔ m ∈ fresh ∨ m ∈ nodes ∧ m ∉ visited := by
  induction nodes generalizing fresh with
  | nil => simp [collectFresh]
  | cons n nodes ih =>
    rw [collectFresh_cons, ih, List.mem_cons]
    split
    · next hn =>
      have hold : m = n → m ∈ visited ∨ m ∈ fresh := fun h => h ▸ hn
      tauto
    · next hn =>
      have hnew : m = n → m ∉ visited := fun h => h ▸ fun hv => hn (.inl hv)
      rw [List.mem_append, List.mem_singleton]
      tauto

theorem nodup_collectFresh (h : fresh.Nodup) : (collectFresh visited fresh nodes).Nodup := by
  induction nodes generalizing fresh with
  | nil => exact h
  | cons n nodes ih =>
    rw [collectFresh_cons]
    refine ih ?_
    split
    · exact h
    · next hn => exact List.nodup_append.2 ⟨h, List.nodup_singleton n, by grind⟩

/-- Collecting node after node. -/
theorem mem_foldl_collectFresh :
    m ∈ frontier.foldl (fun fresh n => collectFresh visited fresh (g.neighbours n)) fresh
      ↔ m ∈ fresh ∨ m ∉ visited ∧ ∃ f ∈ frontier, m ∈ g.neighbours f := by
  induction frontier generalizing fresh with
  | nil => simp
  | cons f frontier ih =>
    rw [List.foldl_cons, ih, mem_collectFresh, List.exists_mem_cons_iff]
    tauto

theorem mem_nextFrontier :
    m ∈ g.nextFrontier visited frontier ↔ m ∉ visited ∧ ∃ f ∈ frontier, m ∈ g.neighbours f := by
  rw [nextFrontier, mem_foldl_collectFresh]
  simp

theorem nodup_nextFrontier : (g.nextFrontier visited frontier).Nodup :=
  List.foldlRecOn frontier _ List.nodup_nil fun _ hfresh _ _ => nodup_collectFresh hfresh

end

/-! ### Distances -/

section

variable {G : SimpleGraph Nat} {n m k : Nat}

theorem edist_le_of_adj {f : Nat} (hadj : G.Adj f m) (hf : G.edist n f ≤ k) :
    G.edist n m ≤ (k + 1 : Nat) :=
  calc G.edist n m ≤ G.edist n f + G.edist f m := G.edist_triangle
    _ ≤ k + 1 := by
      rw [SimpleGraph.edist_eq_one_iff_adj.2 hadj]
      gcongr

/-- A node behind the start has a neighbour that is one step nearer. -/
theorem exists_adj_of_edist_eq (h : G.edist n m = (k + 1 : Nat)) :
    ∃ f, G.Adj f m ∧ G.edist n f = k := by
  obtain ⟨p, hp⟩ := SimpleGraph.exists_walk_of_edist_eq_coe h
  rw [← p.length_reverse] at hp
  cases hq : p.reverse with
  | nil =>
    rw [hq] at hp
    cases hp
  | @cons _ f _ hadj q =>
    rw [hq, SimpleGraph.Walk.length_cons] at hp
    have hle : G.edist n f ≤ k := by
      rw [SimpleGraph.edist_comm, ← Nat.succ.inj hp]
      exact SimpleGraph.edist_le q
    obtain ⟨j, hj, hjk⟩ := ENat.le_natCast_iff.1 hle
    have hmj := edist_le_of_adj hadj.symm hj.le
    rw [h, Nat.cast_le] at hmj
    exact ⟨f, hadj.symm, by rw [hj, Nat.le_antisymm hjk (Nat.le_of_succ_le_succ hmj)]⟩

theorem edist_le_succ_iff :
    G.edist n m ≤ (k + 1 : Nat) ↔ G.edist n m ≤ k ∨ G.edist n m = (k + 1 : Nat) := by
  rw [le_iff_lt_or_eq, Nat.cast_succ, ENat.lt_add_one_iff (ENat.natCast_ne_top k)]

end

/-- The search stands at a distance: it has visited what is as near, and the frontier holds what is
just as far away. -/
structure StandsAt (g : CallGraph) (n k : Nat) (visited frontier : List Nat) : Prop where
  visited : ∀ m, m ∈ visited ↔ g.undirected.edist n m ≤ k
  frontier : ∀ m, m ∈ frontier ↔ g.undirected.edist n m = k

variable {n k : Nat} {visited frontier : List Nat}

theorem standsAt_start (g : CallGraph) (n : Nat) : g.StandsAt n 0 [n] [n] where
  visited m := by
    rw [Nat.cast_zero, nonpos_iff_eq_zero, SimpleGraph.edist_eq_zero_iff, List.mem_singleton,
      eq_comm]
  frontier m := by
    rw [Nat.cast_zero, SimpleGraph.edist_eq_zero_iff, List.mem_singleton, eq_comm]

/-- What is found next is one step farther away. -/
theorem StandsAt.mem_nextFrontier (h : g.StandsAt n k visited frontier) {m : Nat} :
    m ∈ g.nextFrontier visited frontier ↔ g.undirected.edist n m = (k + 1 : Nat) := by
  rw [CallGraph.mem_nextFrontier, h.visited]
  constructor
  · rintro ⟨hfar, f, hf, hm⟩
    have hne : f ≠ m := fun heq => hfar (heq ▸ ((h.frontier f).1 hf).le)
    have hle := edist_le_of_adj (adj_iff_mem_neighbours.2 ⟨hne, hm⟩) ((h.frontier f).1 hf).le
    exact hle.antisymm (by exact_mod_cast Order.add_one_le_of_lt (not_le.1 hfar))
  · intro hm
    obtain ⟨f, hadj, hf⟩ := exists_adj_of_edist_eq hm
    refine ⟨?_, f, (h.frontier f).2 hf, (adj_iff_mem_neighbours.1 hadj).2⟩
    rw [hm]
    exact_mod_cast Nat.not_succ_le_self k

/-- The search goes on to the next distance. -/
theorem StandsAt.step (h : g.StandsAt n k visited frontier) :
    g.StandsAt n (k + 1) (visited ++ g.nextFrontier visited frontier)
      (g.nextFrontier visited frontier) where
  visited m := by
    rw [List.mem_append, h.visited, h.mem_nextFrontier, edist_le_succ_iff]
  frontier m := h.mem_nextFrontier

/-- A layer comes before the layers behind it. -/
theorem relatedFrom_succ (g : CallGraph) (visited frontier : List Nat) (k steps : Nat) :
    g.relatedFrom visited frontier k (steps + 1)
      = (g.nextFrontier visited frontier).map (·, k + 1)
        ++ g.relatedFrom (visited ++ g.nextFrontier visited frontier)
          (g.nextFrontier visited frontier) (k + 1) steps := by
  rw [relatedFrom]
  split
  · next hnone =>
    -- behind an empty layer there is nothing
    rw [hnone]
    cases steps <;> rfl
  · rfl

section

variable (h : g.StandsAt n k visited frontier)
include h

/-- The layers hold what lies behind the frontier, and nothing beyond the last step. -/
theorem StandsAt.mem_relatedFrom {steps m j : Nat} :
    (m, j) ∈ g.relatedFrom visited frontier k steps
      ↔ g.undirected.edist n m = j ∧ k < j ∧ j ≤ k + steps := by
  induction steps generalizing k visited frontier with
  | zero =>
    simp only [relatedFrom, List.not_mem_nil, false_iff]
    omega
  | succ steps ih =>
    rw [relatedFrom_succ, List.mem_append, ih h.step, List.mem_map]
    constructor
    · rintro (⟨m', hm, hpair⟩ | ⟨hm, hlt, hle⟩)
      · obtain ⟨rfl, rfl⟩ := Prod.mk.inj hpair
        exact ⟨h.mem_nextFrontier.1 hm, by omega, by omega⟩
      · exact ⟨hm, by omega, by omega⟩
    · rintro ⟨hm, hlt, hle⟩
      rcases Nat.eq_or_lt_of_le (Nat.succ_le_of_lt hlt) with rfl | hlt
      · exact .inl ⟨m, h.mem_nextFrontier.2 hm, rfl⟩
      · exact .inr ⟨hm, hlt, by omega⟩

theorem StandsAt.pairwise_relatedFrom (steps : Nat) :
    (g.relatedFrom visited frontier k steps).Pairwise fun x y => x.2 ≤ y.2 := by
  induction steps generalizing k visited frontier with
  | zero => exact .nil
  | succ steps ih =>
    rw [relatedFrom_succ, List.pairwise_append]
    refine ⟨?_, ih h.step, ?_⟩
    · exact List.pairwise_map.2 (List.pairwise_of_forall fun _ _ => le_rfl)
    · rintro x hx ⟨m, j⟩ hy
      obtain ⟨m', -, rfl⟩ := List.mem_map.1 hx
      exact (h.step.mem_relatedFrom.1 hy).2.1.le

theorem StandsAt.nodup_relatedFrom (steps : Nat) :
    ((g.relatedFrom visited frontier k steps).map Prod.fst).Nodup := by
  induction steps generalizing k visited frontier with
  | zero => exact .nil
  | succ steps ih =>
    have hlayer : ((g.nextFrontier visited frontier).map (·, k + 1)).map Prod.fst
        = g.nextFrontier visited frontier := by
      rw [List.map_map]
      exact List.map_id _
    rw [relatedFrom_succ, List.map_append, hlayer, List.nodup_append]
    refine ⟨nodup_nextFrontier, ih h.step, ?_⟩
    rintro m hm _ hm' rfl
    obtain ⟨⟨_, j⟩, hj, rfl⟩ := List.mem_map.1 hm'
    obtain ⟨hdist, hlt, -⟩ := h.step.mem_relatedFrom.1 hj
    rw [h.mem_nextFrontier.1 hm, Nat.cast_inj] at hdist
    omega

end

/-- One step more only adds to what is found. -/
theorem relatedFrom_prefix_succ (g : CallGraph) (visited frontier : List Nat) (k steps : Nat) :
    g.relatedFrom visited frontier k steps <+: g.relatedFrom visited frontier k (steps + 1) := by
  induction steps generalizing k visited frontier with
  | zero => exact List.nil_prefix
  | succ steps ih =>
    rw [relatedFrom_succ, relatedFrom_succ g visited frontier k (steps + 1),
      List.prefix_append_right_inj]
    exact ih _ _ _

theorem mem_related {depth m j : Nat} :
    (m, j) ∈ g.related n depth ↔ g.undirected.edist n m = j ∧ m ≠ n ∧ j ≤ depth := by
  rw [related, (standsAt_start g n).mem_relatedFrom, Nat.zero_add]
  refine and_congr_right fun hdist => and_congr_left' ?_
  have hzero : j = 0 ↔ n = m := by
    rw [← Nat.cast_eq_zero (R := ℕ∞), ← hdist, SimpleGraph.edist_eq_zero_iff]
  rw [Nat.pos_iff_ne_zero, Ne, hzero, ne_comm]

/-- What lies within a smaller depth is what is found first. -/
theorem related_eq_filter (g : CallGraph) (n depth : Nat) :
    g.related n depth = (g.related n (depth + 1)).filter (·.2 ≤ depth) := by
  obtain ⟨added, hadded⟩ := relatedFrom_prefix_succ g [n] [n] 0 depth
  have hnodup : (g.related n (depth + 1)).Nodup :=
    ((standsAt_start g n).nodup_relatedFrom (depth + 1)).of_map _
  rw [related, ← hadded] at hnodup
  have hnear : (g.related n depth).filter (·.2 ≤ depth) = g.related n depth :=
    List.filter_eq_self.2 fun ⟨m, j⟩ hx => decide_eq_true (mem_related.1 hx).2.2
  have hfar : added.filter (·.2 ≤ depth) = [] := by
    refine List.filter_eq_nil_iff.2 fun ⟨m, j⟩ hx hle => ?_
    have hmem : (m, j) ∈ g.related n (depth + 1) := by
      rw [related, ← hadded]
      exact List.mem_append_right _ hx
    obtain ⟨hdist, hne, -⟩ := mem_related.1 hmem
    have hfound : (m, j) ∈ g.related n depth := mem_related.2 ⟨hdist, hne, of_decide_eq_true hle⟩
    exact (List.nodup_append.1 hnodup).2.2 _ hfound _ hx rfl
  rw [related.eq_1 g n (depth + 1), ← hadded, List.filter_append, hfar, List.append_nil]
  exact hnear.symm

/-! ### A queue -/

/-- A search that keeps a queue. -/
structure QueueSearch where
  visited : List Nat
  /-- What has been found, each with its distance. -/
  found : List (Nat × Nat)
  /-- What is to be looked at, each with its distance. -/
  queue : List (Nat × Nat)

namespace QueueSearch

/-- The search starts with the node itself. -/
def start (n : Nat) : QueueSearch := ⟨[n], [], [(n, 0)]⟩

/-- A node is met at a distance. -/
def meet (distance : Nat) (s : QueueSearch) (n : Nat) : QueueSearch :=
  if n ∈ s.visited then s
  else ⟨s.visited ++ [n], s.found ++ [(n, distance)], s.queue ++ [(n, distance)]⟩

/-- The first node of the queue is looked at, unless it stands at the depth. -/
def turn (g : CallGraph) (depth : Nat) (s : QueueSearch) : QueueSearch :=
  match s.queue with
  | [] => s
  | (n, distance) :: queue =>
    if distance = depth then { s with queue }
    else (g.neighbours n).foldl (meet (distance + 1)) { s with queue }

/-- The search has come to a distance: it has looked at part of a layer and has met the nodes
`fresh`. -/
def within (visited fresh : List Nat) (found queue : List (Nat × Nat)) (distance : Nat) :
    QueueSearch :=
  ⟨visited ++ fresh, found ++ fresh.map (·, distance), queue ++ fresh.map (·, distance)⟩

variable {visited fresh nodes frontier : List Nat} {found queue : List (Nat × Nat)}
  {n distance depth : Nat}

/-- Meeting nodes is collecting the fresh ones. -/
theorem foldl_meet :
    nodes.foldl (meet distance) (within visited fresh found queue distance)
      = within visited (collectFresh visited fresh nodes) found queue distance := by
  induction nodes generalizing fresh with
  | nil => rfl
  | cons n nodes ih =>
    rw [List.foldl_cons, collectFresh_cons, ← ih, meet]
    congr 1
    by_cases hn : n ∈ visited ∨ n ∈ fresh
    · simp [within, hn]
    · simp [within, hn]

/-- The queue is worked off up to the nodes of the next layer. -/
theorem iterate_turn_layer (hdepth : distance ≠ depth) :
    (turn g depth)^[frontier.length]
        (within visited fresh found (frontier.map (·, distance)) (distance + 1))
      = within visited
        (frontier.foldl (fun fresh n => collectFresh visited fresh (g.neighbours n)) fresh)
        found [] (distance + 1) := by
  induction frontier generalizing fresh with
  | nil => rfl
  | cons n frontier ih =>
    have hturn : turn g depth
        (within visited fresh found ((n :: frontier).map (·, distance)) (distance + 1))
        = (g.neighbours n).foldl (meet (distance + 1))
          (within visited fresh found (frontier.map (·, distance)) (distance + 1)) :=
      if_neg hdepth
    rw [List.length_cons, Function.iterate_succ_apply, hturn, foldl_meet, ih, List.foldl_cons]

/-- At the depth the queue is only emptied. -/
theorem iterate_turn_depth :
    (turn g depth)^[frontier.length] ⟨visited, found, frontier.map (·, depth)⟩
      = ⟨visited, found, []⟩ := by
  induction frontier with
  | nil => rfl
  | cons n frontier ih =>
    have hturn : turn g depth ⟨visited, found, (n :: frontier).map (·, depth)⟩
        = ⟨visited, found, frontier.map (·, depth)⟩ := if_pos rfl
    rw [List.length_cons, Function.iterate_succ_apply, hturn, ih]

/-- Layer by layer, the queue becomes empty and all layers are found. -/
theorem exists_iterate_turn (visited frontier : List Nat) (found : List (Nat × Nat)) {steps : Nat}
    (h : distance + steps = depth) :
    ∃ turns all, (turn g depth)^[turns] ⟨visited, found, frontier.map (·, distance)⟩
      = ⟨all, found ++ g.relatedFrom visited frontier distance steps, []⟩ := by
  induction steps generalizing visited frontier found distance with
  | zero =>
    obtain rfl : distance = depth := h
    refine ⟨frontier.length, visited, ?_⟩
    rw [iterate_turn_depth, relatedFrom, List.append_nil]
  | succ steps ih =>
    have hlayer := @iterate_turn_layer g visited [] frontier found distance depth (by omega)
    obtain ⟨turns, all, hturns⟩ := ih (visited ++ g.nextFrontier visited frontier)
      (g.nextFrontier visited frontier)
      (found ++ (g.nextFrontier visited frontier).map (·, distance + 1))
      (show distance + 1 + steps = depth by omega)
    refine ⟨turns + frontier.length, all, ?_⟩
    rw [Function.iterate_add_apply, relatedFrom_succ, ← List.append_assoc, ← hturns]
    congr 1
    simpa [within, nextFrontier] using hlayer

end QueueSearch
/-! ### Identifiers -/

section

variable {ops : List GraphOperation} (h : Holds ops g)
include h

theorem Holds.lt_of_adj {m : Nat} (hadj : g.undirected.Adj n m) : m < g.nodes.size := by
  rw [undirected, SimpleGraph.fromRel_adj] at hadj
  obtain ⟨-, ⟨e, he, -, rfl⟩ | ⟨e, he, rfl, -⟩⟩ := hadj
  · exact (h.ends e he).2
  · exact (h.ends e he).1

/-- What is found are nodes of the graph. -/
theorem Holds.lt_of_mem_related {depth m j : Nat} (hm : (m, j) ∈ g.related n depth) :
    m < g.nodes.size := by
  obtain ⟨hdist, hne, -⟩ := mem_related.1 hm
  cases j with
  | zero => exact absurd (SimpleGraph.edist_eq_zero_iff.1 hdist).symm hne
  | succ j =>
    obtain ⟨f, hadj, -⟩ := exists_adj_of_edist_eq hdist
    exact h.lt_of_adj hadj

theorem Holds.relatedUnits_of_carries {i depth : Nat} {node : CallNode}
    (hnode : g.nodes[i]? = some node) :
    ∃ ids, g.relatedUnits node.id depth = .ok ids
      ∧ ids.map some = (g.related i depth).map fun x => g.nodes[x.1]?.map (·.id) := by
  have hfind : g.find? node.id = some i :=
    h.find?_eq_some.2 ⟨node, by rw [Array.getElem?_toList]; exact hnode, rfl⟩
  refine ⟨_, by rw [relatedUnits, hfind], ?_⟩
  rw [List.map_filterMap_some_eq_filter_map_isSome, List.filter_eq_self]
  intro id hid
  obtain ⟨⟨m, j⟩, hm, rfl⟩ := List.mem_map.1 hid
  rw [Option.isSome_map, Array.getElem?_eq_getElem (h.lt_of_mem_related hm), Option.isSome_some]

theorem Holds.relatedUnits_eq_error {id : UnitId} {depth : Nat} :
    g.relatedUnits id depth = .error (.nodeNotFound id)
      ↔ ∀ node ∈ g.nodes.toList, node.id ≠ id := by
  rw [← h.find?_eq_none, relatedUnits]
  split <;> simp [*]

end

/-- The search from a node finds every other node within the depth once, with its distance. -/
structure FindsNearest (g : CallGraph) (n depth : Nat) : Prop where
  /-- A node is found with a distance if that is how far away it is, whichever way one goes. -/
  mem_iff : ∀ m j, (m, j) ∈ g.related n depth
    ↔ m ≠ n ∧ g.undirected.edist n m = j ∧ j ≤ depth
  nodup : ((g.related n depth).map Prod.fst).Nodup
  sorted : (g.related n depth).Pairwise fun x y => x.2 ≤ y.2
  /-- A deeper search begins with the same and goes on behind the depth. -/
  begins : g.related n depth <+: g.related n (depth + 1)
  nearer : g.related n depth = (g.related n (depth + 1)).filter (·.2 ≤ depth)
  /-- A search that keeps a queue ends with an empty queue and finds the same. -/
  ends : ∃ turns visited,
    (QueueSearch.turn g depth)^[turns] (.start n) = ⟨visited, g.related n depth, []⟩

/-- The search goes by the identifiers of units, and fails if no unit has the identifier. -/
structure RelatesUnits (g : CallGraph) (id : UnitId) (depth : Nat) : Prop where
  notFound : g.relatedUnits id depth = .error (.nodeNotFound id)
    ↔ ∀ node ∈ g.nodes.toList, node.id ≠ id
  /-- The units are those of the nodes that are found, in the same order. -/
  found : ∀ i, (∃ node ∈ g.nodes[i]?, node.id = id) → ∃ ids, g.relatedUnits id depth = .ok ids
    ∧ ids.map some = (g.related i depth).map fun x => g.nodes[x.1]?.map (·.id)

theorem findsNearest (g : CallGraph) (n depth : Nat) : g.FindsNearest n depth where
  mem_iff m j := by rw [mem_related, and_left_comm]
  nodup := (standsAt_start g n).nodup_relatedFrom depth
  sorted := (standsAt_start g n).pairwise_relatedFrom depth
  begins := relatedFrom_prefix_succ g [n] [n] 0 depth
  nearer := related_eq_filter g n depth
  ends := QueueSearch.exists_iterate_turn [n] [n] [] (Nat.zero_add depth)

/-- In whatever way a graph came about, the search finds the nearest nodes. -/
theorem finds_nearest_of_comesBy {ops : List GraphOperation} (h : ComesBy ops g) :
    (∀ n depth, g.FindsNearest n depth) ∧ ∀ id depth, g.RelatesUnits id depth := by
  refine ⟨findsNearest g, fun id depth => ⟨h.holds.relatedUnits_eq_error, ?_⟩⟩
  rintro i ⟨node, hnode, rfl⟩
  exact h.holds.relatedUnits_of_carries hnode

/-- Three units call each other in a circle, one of them twice. A fourth unit calls itself, and a
fifth one stands alone. -/
def circleOperations : List GraphOperation := [
  .addNode ⟨⟨"a"⟩, "a", "f"⟩, .addNode ⟨⟨"b"⟩, "b", "f"⟩, .addNode ⟨⟨"c"⟩, "c", "f"⟩,
  .addNode ⟨⟨"d"⟩, "d", "f"⟩, .addNode ⟨⟨"e"⟩, "e", "f"⟩, .addEdge ⟨0, 1, "b"⟩,
  .addEdge ⟨1, 2, "c"⟩, .addEdge ⟨2, 0, "a"⟩, .addEdge ⟨0, 1, "b"⟩, .addEdge ⟨3, 2, "c"⟩,
  .addEdge ⟨3, 3, "d"⟩]

/-- The graph of these operations. -/
def circleGraph : CallGraph := circleOperations.foldl apply empty

theorem comesBy_circle : ComesBy circleOperations circleGraph :=
  ComesBy.start.append (by decide)

theorem finds_nearest_of_comesBy_circle :
    ComesBy circleOperations circleGraph
      ∧ ((∀ n depth, circleGraph.FindsNearest n depth)
        ∧ ∀ id depth, circleGraph.RelatesUnits id depth)
      ∧ circleGraph.related 0 2 = [(1, 1), (2, 1), (3, 2)]
      ∧ circleGraph.related 0 1 = [(1, 1), (2, 1)]
      ∧ (circleGraph.relatedUnits ⟨"d"⟩ 1).toOption = some [⟨"c"⟩] :=
  ⟨comesBy_circle, finds_nearest_of_comesBy comesBy_circle, by decide, by decide, by decide⟩

end CallGraph
end Marginalia
