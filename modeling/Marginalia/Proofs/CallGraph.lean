import Mathlib.Algebra.BigOperators.Group.Finset.Basic
import Mathlib.Algebra.GroupWithZero.Nat
import Mathlib.Algebra.Order.BigOperators.Group.Multiset
import Mathlib.Data.List.Sort
import Marginalia.CallGraph
import Marginalia.Proofs.Distinct
import Marginalia.Proofs.Segment

/-!
Three views of the calls among units: the names that the bodies call, the edges of the graph and
the callers of each unit. They agree whenever the identifiers differ, whatever callers the units
had before. Units cut from texts call no name twice and never their own, so their graph has neither
loops nor parallel edges and holds one edge for each caller.
-/

namespace Marginalia

namespace CodeUnit

/-- One unit is another one with callers of its own. -/
def HasCallers (u v : CodeUnit) : Prop := ∃ callers, v = { u with callsIn := callers }

theorem HasCallers.range {u v : CodeUnit} (h : u.HasCallers v) : v.range = u.range := by
  obtain ⟨callers, rfl⟩ := h
  rfl

/-- Adding callers changes nothing but the callers. -/
theorem hasCallers_foldl_addCaller (callers : List UnitId) (u : CodeUnit) :
    u.HasCallers (callers.foldl addCaller u) := by
  induction callers generalizing u with
  | nil => exact ⟨u.callsIn, rfl⟩
  | cons c callers ih =>
    obtain ⟨callers', h⟩ := ih (u.addCaller c)
    rw [List.foldl_cons, h]
    refine ⟨callers', ?_⟩
    unfold addCaller
    split <;> rfl

theorem HasCallers.eq {u v : CodeUnit} (h : u.HasCallers v) :
    v = { u with callsIn := v.callsIn } := by
  obtain ⟨callers, rfl⟩ := h
  rfl

/-- The unit was cut from a text. -/
def IsCut (u : CodeUnit) : Prop := ∃ o text file l, u ∈ segment o text file l

/-- The unit before its callers are known. -/
def withoutCallers (u : CodeUnit) : CodeUnit := { u with callsIn := [] }

end CodeUnit

namespace CallGraph

variable {units : List CodeUnit}

/-! ### What a name leads to -/

/-- A name leads to a unit: the last one that has it. -/
def LeadsTo (units : List CodeUnit) (name : String) (j : Nat) : Prop :=
  (∃ v ∈ units[j]?, v.name = name) ∧ ∀ w ∈ units.drop (j + 1), w.name ≠ name

instance (name : String) (j : Nat) : Decidable (LeadsTo units name j) :=
  inferInstanceAs (Decidable (_ ∧ _))

theorem LeadsTo.lt {name : String} {j : Nat} (h : LeadsTo units name j) : j < units.length := by
  obtain ⟨⟨v, hv, -⟩, -⟩ := h
  exact (List.getElem?_eq_some_iff.1 hv).1

theorem LeadsTo.name_eq {name name' : String} {j : Nat} (h : LeadsTo units name j)
    (h' : LeadsTo units name' j) : name = name' := by
  obtain ⟨⟨v, hv, rfl⟩, -⟩ := h
  obtain ⟨⟨w, hw, rfl⟩, -⟩ := h'
  rw [Option.mem_unique hv hw]

/-- A unit that comes last takes its name over. -/
theorem leadsTo_concat (units : List CodeUnit) (u : CodeUnit) (name : String) (j : Nat) :
    LeadsTo (units ++ [u]) name j
      ↔ if u.name = name then j = units.length else LeadsTo units name j := by
  unfold LeadsTo
  rcases Nat.lt_trichotomy j units.length with hj | rfl | hj
  · rw [List.getElem?_append_left hj, List.drop_append_of_le_length hj, List.forall_mem_append,
      List.forall_mem_singleton]
    split
    · next h => simp [h, hj.ne]
    · next h => simp [h]
  · rw [List.getElem?_concat_length, List.drop_of_length_le (by simp), List.getElem?_eq_none le_rfl]
    simp
  · rw [List.getElem?_eq_none (by rw [List.length_append, List.length_singleton]; exact hj),
      List.getElem?_eq_none hj.le]
    simp [hj.ne']

/-! ### The nodes -/

/-- The graph has a node for each unit, under its position, and no edges yet. -/
structure Numbers (g : CallGraph) (units : List CodeUnit) : Prop where
  nodes : g.nodes.toList = units.map .ofUnit
  edges : g.edges = []
  find? : ∀ id, g.find? id = none ↔ id ∉ units.map (·.id)
  resolve? : ∀ name j, g.resolve? name = some j ↔ LeadsTo units name j

theorem numbers_empty : Numbers empty [] where
  nodes := rfl
  edges := rfl
  find? id := by simp [CallGraph.find?, empty]
  resolve? name j := by simp [CallGraph.resolve?, empty, LeadsTo]

/-- A unit with an identifier of its own gets the next node. -/
theorem Numbers.concat {g : CallGraph} (h : g.Numbers units) {u : CodeUnit}
    (hu : u.id ∉ units.map (·.id)) :
    ∃ g', g.addNode? (.ofUnit u) = some g' ∧ g'.Numbers (units ++ [u]) := by
  have hsize : g.nodes.size = units.length := by
    rw [← Array.length_toList, h.nodes, List.length_map]
  have hfind : g.find? u.id = none := (h.find? u.id).2 hu
  refine ⟨_, by rw [addNode?, CallNode.ofUnit, hfind], ?_⟩
  constructor
  · simp [h.nodes, CallNode.ofUnit]
  · exact h.edges
  · intro id
    have := h.find? id
    rw [CallGraph.find?] at this ⊢
    by_cases hid : id = u.id
    · simp [hid]
    · have hid' : (id == u.id) = false := by simpa using hid
      simp only [List.lookup_cons, hid', this]
      simp [hid]
  · intro name j
    have := h.resolve? name j
    rw [CallGraph.resolve?] at this ⊢
    rw [leadsTo_concat, ← this, ← hsize]
    by_cases hname : u.name = name
    · simp [hname, eq_comm]
    · have hname' : (name == u.name) = false := by simpa using Ne.symm hname
      simp [List.lookup_cons, hname, hname']

/-- Units with different identifiers have a graph. -/
theorem exists_ofUnits (hids : (units.map (·.id)).Nodup) :
    ∃ g, ofUnits units = .ok g ∧ g.Numbers units := by
  induction units using List.reverseRecOn with
  | nil => exact ⟨empty, rfl, numbers_empty⟩
  | append_singleton units u ih =>
    rw [List.map_append, List.map_singleton, List.nodup_append] at hids
    obtain ⟨g, hg, hnumbers⟩ := ih hids.1
    have hu : u.id ∉ units.map (·.id) := fun h => hids.2.2 _ h _ (List.mem_singleton_self _) rfl
    obtain ⟨g', hg', hnumbers'⟩ := hnumbers.concat hu
    refine ⟨g', ?_, hnumbers'⟩
    unfold ofUnits at hg ⊢
    rw [List.foldlM_append, hg]
    simp [bind, Except.bind, hg', pure, Except.pure]

/-! ### The calls -/

/-- One unit calls another: its body calls a name that leads there. -/
def Calls (units : List CodeUnit) (i j : Nat) : Prop :=
  ∃ u ∈ units[i]?, ∃ name ∈ u.callsOut, LeadsTo units name j

instance (i j : Nat) : Decidable (Calls units i j) :=
  inferInstanceAs (Decidable (∃ u ∈ units[i]?, _))

theorem Calls.lt {i j : Nat} (h : Calls units i j) : i < units.length := by
  obtain ⟨u, hu, -⟩ := h
  exact (List.getElem?_eq_some_iff.1 hu).1

/-- The units that call a unit, by their positions. -/
def callersOf (units : List CodeUnit) (j : Nat) : List Nat :=
  (List.range units.length).filter (Calls units · j)

/-- The identifiers of the units at some positions. -/
def idsAt (units : List CodeUnit) (positions : List Nat) : List UnitId :=
  positions.filterMap fun i => units[i]?.map (·.id)

@[simp] theorem mem_callersOf {i j : Nat} : i ∈ callersOf units j ↔ Calls units i j := by
  simp only [callersOf, List.mem_filter, List.mem_range, decide_eq_true_eq]
  exact ⟨And.right, fun h => ⟨h.lt, h⟩⟩

theorem pairwise_callersOf (units : List CodeUnit) (j : Nat) :
    (callersOf units j).Pairwise (· < ·) :=
  List.pairwise_lt_range.filter _

section

variable {g : CallGraph} (h : g.Numbers units)
include h

theorem Numbers.mem_callsOf {e : CallEdge} :
    e ∈ g.callsOf units
      ↔ ∃ u ∈ units[e.caller]?, e.name ∈ u.callsOut ∧ LeadsTo units e.name e.callee := by
  simp only [callsOf, List.mem_flatMap, List.mem_filterMap, Option.map_eq_some_iff, h.resolve?,
    Prod.exists, List.mk_mem_zipIdx_iff_getElem?, Option.mem_def]
  constructor
  · rintro ⟨u, i, hu, name, hname, j, hj, rfl⟩
    exact ⟨u, hu, hname, hj⟩
  · rintro ⟨u, hu, hname, hj⟩
    exact ⟨u, e.caller, hu, e.name, hname, e.callee, hj, rfl⟩

/-- The calls are those among the units. -/
theorem Numbers.exists_call_iff {i j : Nat} :
    (∃ e ∈ g.callsOf units, e.caller = i ∧ e.callee = j) ↔ Calls units i j := by
  constructor
  · rintro ⟨e, he, rfl, rfl⟩
    obtain ⟨u, hu, hname, hj⟩ := h.mem_callsOf.1 he
    exact ⟨u, hu, e.name, hname, hj⟩
  · rintro ⟨u, hu, name, hname, hj⟩
    exact ⟨⟨i, j, name⟩, h.mem_callsOf.2 ⟨u, hu, hname, hj⟩, rfl, rfl⟩

end

/-- The calls come in the order of their callers. -/
theorem pairwise_caller_callsOf (g : CallGraph) (units : List CodeUnit) :
    (g.callsOf units).Pairwise fun d e => d.caller ≤ e.caller := by
  unfold callsOf
  have hcaller : ∀ x : CodeUnit × Nat, ∀ e ∈ x.1.callsOut.filterMap (fun name =>
      (g.resolve? name).map fun callee => (⟨x.2, callee, name⟩ : CallEdge)), e.caller = x.2 := by
    intro x e he
    obtain ⟨name, -, hname⟩ := List.mem_filterMap.1 he
    obtain ⟨callee, -, rfl⟩ := Option.map_eq_some_iff.1 hname
    rfl
  rw [List.pairwise_flatMap]
  constructor
  · intro x hx
    exact List.pairwise_of_forall_mem_list fun d hd e he => by
      rw [hcaller x d hd, hcaller x e he]
  · have hnumbers : (units.zipIdx.map Prod.snd).Pairwise (· < ·) := by
      rw [List.zipIdx_map_snd]
      exact List.pairwise_lt_range'
    exact (List.pairwise_map.1 hnumbers).imp fun {x y} hxy d hd e he => by
      rw [hcaller x d hd, hcaller y e he]
      exact hxy.le

/-! ### The callers -/

theorem idsAt_concat (units : List CodeUnit) (positions : List Nat) (i : Nat) :
    idsAt units (positions ++ [i])
      = idsAt units positions ++ (units[i]?.map (·.id)).toList := by
  rw [idsAt, List.filterMap_append]
  cases h : units[i]? <;> simp [idsAt, h]

theorem mem_idsAt (hids : (units.map (·.id)).Nodup) {positions : List Nat} {i : Nat} {u : CodeUnit}
    (hu : units[i]? = some u) : u.id ∈ idsAt units positions ↔ i ∈ positions := by
  rw [idsAt, List.mem_filterMap]
  constructor
  · rintro ⟨k, hk, hid⟩
    have hi : (units.map (·.id))[i]? = some u.id := by rw [List.getElem?_map, hu]; rfl
    rw [← List.getElem?_map, ← hi] at hid
    have hlt : k < (units.map (·.id)).length := by
      by_contra hge
      rw [List.getElem?_eq_none (not_lt.1 hge), hi] at hid
      cases hid
    rwa [← (List.getElem?_inj hlt hids).1 hid]
  · intro hi
    exact ⟨i, hi, by rw [hu]; rfl⟩

/-- A caller that none of the recorded ones comes after is recorded behind them, unless it is
among them. -/
theorem exists_callsIn_step (hids : (units.map (·.id)).Nodup) {known : List Nat} {i : Nat}
    {u : CodeUnit} (hknown : known.Pairwise (· < ·)) (hle : ∀ k ∈ known, k ≤ i)
    (hu : u.callsIn = idsAt units known) :
    ∃ all : List Nat, all.Pairwise (· < ·) ∧ (∀ j, j ∈ all ↔ j ∈ known ∨ j = i)
      ∧ ((idsAt units [i]).foldl CodeUnit.addCaller u).callsIn = idsAt units all := by
  by_cases hi : i ∈ known
  · refine ⟨known, hknown, fun j => ⟨.inl, ?_⟩, ?_⟩
    · rintro (hj | rfl)
      exacts [hj, hi]
    · rw [← hu]
      cases hunit : units[i]? with
      | none => simp [idsAt, hunit]
      | some v =>
        have hmem : v.id ∈ u.callsIn := hu ▸ (mem_idsAt hids hunit).2 hi
        simp [idsAt, hunit, CodeUnit.addCaller, hmem]
  · refine ⟨known ++ [i], ?_, fun j => by simp, ?_⟩
    · refine List.pairwise_append.2 ⟨hknown, List.pairwise_singleton _ _, fun k hk j hj => ?_⟩
      obtain rfl := List.mem_singleton.1 hj
      exact lt_of_le_of_ne (hle k hk) fun heq => hi (heq ▸ hk)
    · rw [idsAt_concat, ← hu]
      cases hunit : units[i]? with
      | none => simp [idsAt, hunit]
      | some v =>
        have hmem : v.id ∉ u.callsIn := fun h => hi ((mem_idsAt hids hunit).1 (hu ▸ h))
        simp [idsAt, hunit, CodeUnit.callsIn_addCaller, hmem]

/-- Positions that come in order leave each of them once among the callers, in order. The induction
is on the positions still to come; none of them stands before one that is already recorded. -/
theorem exists_callsIn_foldl (hids : (units.map (·.id)).Nodup) {positions known : List Nat}
    {u : CodeUnit} (hsorted : positions.Pairwise (· ≤ ·)) (hknown : known.Pairwise (· < ·))
    (hle : ∀ k ∈ known, ∀ i ∈ positions, k ≤ i) (hu : u.callsIn = idsAt units known) :
    ∃ all : List Nat, all.Pairwise (· < ·) ∧ (∀ i, i ∈ all ↔ i ∈ known ∨ i ∈ positions)
      ∧ ((idsAt units positions).foldl CodeUnit.addCaller u).callsIn = idsAt units all := by
  induction positions generalizing known u with
  | nil => exact ⟨known, hknown, by simp, hu⟩
  | cons i positions ih =>
    rw [List.pairwise_cons] at hsorted
    obtain ⟨grown, hgrown, hmem, hv⟩ := exists_callsIn_step hids hknown
      (fun k hk => hle k hk i List.mem_cons_self) hu
    have hle' : ∀ k ∈ grown, ∀ j ∈ positions, k ≤ j := by
      intro k hk j hj
      rcases (hmem k).1 hk with hk | rfl
      · exact hle k hk j (List.mem_cons_of_mem _ hj)
      · exact hsorted.1 j hj
    obtain ⟨all, hall, hmem', heq⟩ := ih hsorted.2 hgrown hle' hv
    refine ⟨all, hall, fun j => ?_, ?_⟩
    · rw [hmem', hmem, List.mem_cons, or_assoc]
    · have hcons : idsAt units (i :: positions) = idsAt units [i] ++ idsAt units positions :=
        List.filterMap_append (l := [i])
      rw [hcons, List.foldl_append]
      exact heq

/-- Two increasing lists of the same positions are equal. -/
theorem eq_callersOf {positions : List Nat} {j : Nat} (hsorted : positions.Pairwise (· < ·))
    (hmem : ∀ i, i ∈ positions ↔ Calls units i j) : positions = callersOf units j := by
  refine List.Pairwise.eq_of_mem_iff hsorted (pairwise_callersOf units j) fun i => ?_
  rw [hmem, mem_callersOf]

/-- The callers of a unit are those that call it, in their order. -/
theorem Numbers.withCallers_eq {g : CallGraph} (h : g.Numbers units)
    (hids : (units.map (·.id)).Nodup) :
    withCallers units (g.callsOf units)
      = units.mapIdx fun j u => { u with callsIn := idsAt units (callersOf units j) } := by
  rw [withCallers, List.mapIdx_eq_zipIdx_map]
  refine List.map_congr_left fun ⟨u, j⟩ _ => ?_
  have hcallers : ((g.callsOf units).filter (·.callee == j)).filterMap
      (fun e => units[e.caller]?.map (·.id))
      = idsAt units (((g.callsOf units).filter (·.callee == j)).map (·.caller)) := by
    rw [idsAt, List.filterMap_map]
    rfl
  have hsorted : (((g.callsOf units).filter (·.callee == j)).map (·.caller)).Pairwise (· ≤ ·) :=
    List.pairwise_map.2 ((pairwise_caller_callsOf g units).filter _)
  have hnone : ([] : List Nat).Pairwise (· < ·) := .nil
  obtain ⟨all, hall, hmem, heq⟩ := exists_callsIn_foldl hids hsorted hnone (by simp)
    (show ({ u with callsIn := [] } : CodeUnit).callsIn = idsAt units [] from rfl)
  have hall' : all = callersOf units j := by
    refine eq_callersOf hall fun i => ?_
    rw [hmem, ← h.exists_call_iff]
    simp [and_comm, and_assoc]
  simp only [hcallers]
  rw [(CodeUnit.hasCallers_foldl_addCaller _ _).eq, heq, hall']

/-- The callers that units had before make no difference. -/
theorem build_withoutCallers (units : List CodeUnit) :
    build (units.map CodeUnit.withoutCallers) = build units := by
  have hnodes : ofUnits (units.map CodeUnit.withoutCallers) = ofUnits units := by
    unfold ofUnits
    rw [List.foldlM_map]
    rfl
  have hcalls : ∀ g : CallGraph,
      g.callsOf (units.map CodeUnit.withoutCallers) = g.callsOf units := by
    intro g
    unfold callsOf
    rw [List.zipIdx_map, List.flatMap_map]
    rfl
  have hcallers : ∀ calls,
      withCallers (units.map CodeUnit.withoutCallers) calls = withCallers units calls := by
    intro calls
    unfold withCallers
    rw [List.zipIdx_map, List.map_map]
    refine List.map_congr_left fun x _ => ?_
    simp only [List.getElem?_map, Option.map_map]
    rfl
  unfold build
  simp only [hnodes, hcalls, hcallers]

/-! ### Units cut from texts -/

/-- A unit that is cut from a text calls every name once at most, and never its own. -/
theorem callsOut_of_mem_segment {o : SegmentOptions} {text file : String} {l : Language}
    {u : CodeUnit} (hu : u ∈ segment o text file l) : u.callsOut.Nodup ∧ u.name ∉ u.callsOut := by
  obtain ⟨h, scope, start, body, hunit⟩ := exists_unitAt?_of_mem_segment hu
  rw [unitAt?_eq] at hunit
  split at hunit
  · cases hunit
  · obtain rfl := Option.some.inj hunit
    refine ⟨nodup_eraseDups _, fun hcall => ?_⟩
    rw [callsOfBody, List.mem_eraseDups, List.mem_filter] at hcall
    simpa [countsAsCall] using hcall.2

section

variable {g : CallGraph} (h : g.Numbers units)
  (hcut : ∀ u ∈ units, u.callsOut.Nodup ∧ u.name ∉ u.callsOut)
include h hcut

theorem Numbers.caller_ne_callee {e : CallEdge} (he : e ∈ g.callsOf units) :
    e.caller ≠ e.callee := by
  intro heq
  obtain ⟨u, hu, hname, ⟨v, hv, hvname⟩, -⟩ := h.mem_callsOf.1 he
  obtain rfl := Option.mem_unique hu (heq ▸ hv)
  exact (hcut u (List.mem_of_getElem? hu)).2 (hvname ▸ hname)

/-- No unit calls another one twice, since it calls it under its name. -/
theorem Numbers.nodup_callsOf : ((g.callsOf units).map fun e => (e.caller, e.callee)).Nodup := by
  have hpairs : (g.callsOf units).map (fun e => (e.caller, e.callee))
      = units.zipIdx.flatMap fun x =>
        (x.1.callsOut.filterMap g.resolve?).map fun callee => (x.2, callee) := by
    simp only [callsOf, List.map_flatMap, List.map_filterMap, Option.map_map]
    rfl
  rw [hpairs, List.nodup_flatMap]
  constructor
  · intro x hx
    refine List.Nodup.map (fun j j' hj => (Prod.mk.inj hj).2) ?_
    refine List.Nodup.filterMap (fun name name' j hj hj' => ?_)
      (hcut x.1 (List.fst_mem_of_mem_zipIdx hx)).1
    exact ((h.resolve? name j).1 hj).name_eq ((h.resolve? name' j).1 hj')
  · have hnumbers : (units.zipIdx.map Prod.snd).Nodup := by
      rw [List.zipIdx_map_snd]
      exact List.nodup_range'
    refine (List.pairwise_map.1 hnumbers).imp fun {x y} hxy => ?_
    intro p hp hp'
    obtain ⟨j, -, rfl⟩ := List.mem_map.1 hp
    obtain ⟨j', -, heq⟩ := List.mem_map.1 hp'
    exact hxy (Prod.mk.inj heq).1.symm

/-- The calls of a unit come from its callers, in their order. -/
theorem Numbers.caller_callsOf (j : Nat) :
    ((g.callsOf units).filter (·.callee == j)).map (·.caller) = callersOf units j := by
  have hle : (((g.callsOf units).filter (·.callee == j)).map (·.caller)).Pairwise (· ≤ ·) :=
    List.pairwise_map.2 ((pairwise_caller_callsOf g units).filter _)
  have hnodup : (((g.callsOf units).filter (·.callee == j)).map (·.caller)).Nodup := by
    have hpairs := List.pairwise_map.1 (h.nodup_callsOf hcut)
    refine List.pairwise_map.2 ((hpairs.filter _).imp_of_mem fun {d e} hd he hde heq => ?_)
    have hd' : d.callee = j := by simpa using (List.mem_filter.1 hd).2
    have he' : e.callee = j := by simpa using (List.mem_filter.1 he).2
    exact hde (by rw [heq, hd', he'])
  refine eq_callersOf (hle.imp₂ (fun i k hik hne => lt_of_le_of_ne hik hne) hnodup) fun i => ?_
  rw [← h.exists_call_iff]
  simp [and_comm, and_assoc]

/-- There are as many calls as there are callers of all the units. -/
theorem Numbers.length_callsOf :
    (g.callsOf units).length = ((List.range units.length).map fun j =>
      (callersOf units j).length).sum := by
  have hcount : ∀ j, (callersOf units j).length
      = Multiset.count j (((g.callsOf units).map (·.callee) : List Nat) : Multiset Nat) := by
    intro j
    rw [← h.caller_callsOf hcut j, List.length_map, ← List.countP_eq_length_filter,
      Multiset.coe_count, List.count, List.countP_map]
    rfl
  have hmem : ∀ j ∈ (((g.callsOf units).map (·.callee) : List Nat) : Multiset Nat),
      j ∈ Finset.range units.length := by
    intro j hj
    obtain ⟨e, he, rfl⟩ := List.mem_map.1 (Multiset.mem_coe.1 hj)
    obtain ⟨-, -, -, hleads⟩ := h.mem_callsOf.1 he
    exact Finset.mem_range.2 hleads.lt
  have hsum := Multiset.sum_count_eq_card hmem
  rw [Multiset.coe_card, List.length_map] at hsum
  rw [← hsum]
  simp only [hcount]
  rfl

end

/-! ### The graph of a scan -/

/-- Adding calls puts them before the edges, the newest first. -/
theorem foldl_addEdge (g : CallGraph) (calls : List CallEdge) :
    calls.foldl addEdge g = { g with edges := calls.reverse ++ g.edges } := by
  induction calls generalizing g with
  | nil => rfl
  | cons e calls ih => simp [ih, addEdge]

theorem length_idsAt (units : List CodeUnit) {positions : List Nat}
    (h : ∀ i ∈ positions, i < units.length) :
    (idsAt units positions).length = positions.length := by
  induction positions with
  | nil => rfl
  | cons i positions ih =>
    rw [List.forall_mem_cons] at h
    have := ih h.2
    rw [idsAt] at this ⊢
    simp [h.1, this]

/-- The three views of the calls agree: the edges of the graph and the callers of the units are
those calls, and nothing else about the units has changed. -/
structure MirrorsCalls (g : CallGraph) (units units' : List CodeUnit) : Prop where
  nodes : g.nodes.toList = units.map .ofUnit
  edges : ∀ i j, (∃ e ∈ g.edges, e.caller = i ∧ e.callee = j) ↔ Calls units i j
  callers : units' = units.mapIdx fun j u => { u with callsIn := idsAt units (callersOf units j) }
  distinct : ∀ v ∈ units', v.callsIn.Nodup

/-- There is one edge for each caller of a unit, and no unit is its own. -/
structure HasEdgePerCaller (g : CallGraph) (units' : List CodeUnit) : Prop where
  loops : ∀ e ∈ g.edges, e.caller ≠ e.callee
  parallels : (g.edges.map fun e => (e.caller, e.callee)).Nodup
  callers : ∀ j, ∀ v ∈ units'[j]?,
    (g.callers j).map (fun i => g.nodes[i]?.map (·.id)) = v.callsIn.reverse.map some
  count : g.stats.edges = (units'.map (·.callsIn.length)).sum

theorem Numbers.mirrorsCalls {g : CallGraph} (h : g.Numbers units)
    (hids : (units.map (·.id)).Nodup) :
    ((g.callsOf units).foldl addEdge g).MirrorsCalls units
      (withCallers units (g.callsOf units)) := by
  refine ⟨?_, fun i j => ?_, h.withCallers_eq hids, fun v hv => ?_⟩
  · rw [foldl_addEdge]
    exact h.nodes
  · rw [← h.exists_call_iff, foldl_addEdge, h.edges, List.append_nil]
    simp only [List.mem_reverse]
  · rw [h.withCallers_eq hids] at hv
    obtain ⟨j, -, rfl⟩ := List.mem_mapIdx.1 hv
    refine List.Nodup.filterMap (fun i i' id hi hi' => ?_)
      ((pairwise_callersOf units j).imp ne_of_lt)
    rw [Option.mem_def, ← List.getElem?_map] at hi hi'
    exact (List.getElem?_inj (List.getElem?_eq_some_iff.1 hi).1 hids).1 (hi.trans hi'.symm)

theorem Numbers.hasEdgePerCaller {g : CallGraph} (h : g.Numbers units)
    (hids : (units.map (·.id)).Nodup)
    (hcut : ∀ u ∈ units, u.callsOut.Nodup ∧ u.name ∉ u.callsOut) :
    ((g.callsOf units).foldl addEdge g).HasEdgePerCaller
      (withCallers units (g.callsOf units)) := by
  rw [foldl_addEdge, h.edges, List.append_nil, h.withCallers_eq hids]
  constructor
  · intro e he
    exact h.caller_ne_callee hcut (List.mem_reverse.1 he)
  · simpa only [List.map_reverse, List.nodup_reverse] using h.nodup_callsOf hcut
  · intro j v hv
    rw [Option.mem_def, List.getElem?_mapIdx, Option.map_eq_some_iff] at hv
    obtain ⟨u, -, rfl⟩ := hv
    rw [callers, List.filter_reverse, List.map_reverse, h.caller_callsOf hcut j, idsAt,
      ← List.filterMap_reverse, List.map_filterMap, ← List.filterMap_eq_map]
    refine List.filterMap_congr fun i hi => ?_
    have hlt := (mem_callersOf.1 (List.mem_reverse.1 hi)).lt
    have hnode : g.nodes[i]? = some (.ofUnit units[i]) := by
      rw [← Array.getElem?_toList, h.nodes, List.getElem?_map, List.getElem?_eq_getElem hlt]
      rfl
    simp only [Function.comp_apply, hnode, List.getElem?_eq_getElem hlt]
    rfl
  · have hlengths : (units.mapIdx fun j u =>
        { u with callsIn := idsAt units (callersOf units j) }).map (·.callsIn.length)
        = (List.range units.length).map fun j => (callersOf units j).length := by
      refine List.ext_getElem (by simp) fun j hj hj' => ?_
      simp [length_idsAt units fun i hi => (mem_callersOf.1 hi).lt]
    rw [stats, List.length_reverse, h.length_callsOf hcut, hlengths]

/-- Units with different identifiers have a graph that mirrors their calls, the same one again
when it is built anew, and units cut from texts have an edge for each caller. -/
theorem build_mirrors_calls (hids : (units.map (·.id)).Nodup) :
    ∃ g units', build units = .ok (g, units') ∧ g.MirrorsCalls units units'
      ∧ build units' = .ok (g, units')
      ∧ ((∀ u ∈ units, u.IsCut) → g.HasEdgePerCaller units') := by
  obtain ⟨g, hg, hnumbers⟩ := exists_ofUnits hids
  have hbuild : build units = .ok ((g.callsOf units).foldl addEdge g,
      withCallers units (g.callsOf units)) := by
    rw [build, hg]
    rfl
  refine ⟨_, _, hbuild, hnumbers.mirrorsCalls hids, ?_, fun hcut => ?_⟩
  · have hsame : (withCallers units (g.callsOf units)).map CodeUnit.withoutCallers
        = units.map CodeUnit.withoutCallers := by
      rw [hnumbers.withCallers_eq hids]
      exact List.ext_getElem (by simp) fun j hj hj' => by simp [CodeUnit.withoutCallers]
    rw [← build_withoutCallers, hsame, build_withoutCallers, hbuild]
  · refine hnumbers.hasEdgePerCaller hids fun u hu => ?_
    obtain ⟨o, text, file, l, hmem⟩ := hcut u hu
    exact callsOut_of_mem_segment hmem

/-- Both files define the same name, which leads to the later one, and one unit calls itself. -/
theorem build_mirrors_calls_shadowed :
    let units := segment {} "def load():\n  parse()\n  parse()\ndef parse():\n  load()\n" "a.py" .python
      ++ segment {} "def parse():\n  parse()\n  load()\n" "b.py" .python
    (units.map (·.id)).Nodup ∧ (∀ u ∈ units, u.IsCut)
      ∧ ∃ g units', build units = .ok (g, units') ∧ g.MirrorsCalls units units'
        ∧ build units' = .ok (g, units') ∧ g.HasEdgePerCaller units'
        ∧ g.edges = [⟨2, 0, "load"⟩, ⟨1, 0, "load"⟩, ⟨0, 2, "parse"⟩] := by
  intro units
  have hids : (units.map (·.id)).Nodup := by decide +kernel
  have hcut : ∀ u ∈ units, u.IsCut := fun u hu =>
    (List.mem_append.1 hu).elim (fun h => ⟨_, _, _, _, h⟩) fun h => ⟨_, _, _, _, h⟩
  obtain ⟨g, units', hbuild, hmirrors, hagain, hedges⟩ := build_mirrors_calls hids
  have hcomputed : (build units).toOption.map (·.1.edges)
      = some [⟨2, 0, "load"⟩, ⟨1, 0, "load"⟩, ⟨0, 2, "parse"⟩] := by decide +kernel
  rw [hbuild] at hcomputed
  exact ⟨hids, hcut, g, units', hbuild, hmirrors, hagain, hedges hcut, Option.some.inj hcomputed⟩

end CallGraph
end Marginalia
