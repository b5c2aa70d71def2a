import Mathlib.Data.Set.Finite.List
import Flowchart.Ranks
import Flowchart.Proofs.Propagation

/-! The layers of a chart are longest walks along its edges, and the nodes reported as unresolved
are those that a cycle holds back. Edges count only between nodes of the chart, and several edges
between the same nodes count as one. -/
namespace Flowchart

namespace Chart

variable {c : Chart}

/-- An edge leads from one node of a chart to another. -/
def Joined (c : Chart) (source target : String) : Prop :=
  source ∈ c.ids ∧ target ∈ c.ids ∧ ⟨source, target⟩ ∈ c.edges

/-! Positions and ids name the same nodes. -/

@[simp] theorem length_ids (c : Chart) : c.ids.length = c.nodes.length := by simp [ids]

theorem id_injective {i j : Fin c.nodes.length}
    (same : (c.nodes.get i).id = (c.nodes.get j).id) : i = j := by
  have unique (k l : Nat) (hk : k < c.ids.length) (hl : l < c.ids.length)
      (same : c.ids[k] = c.ids[l]) : k = l := (List.Nodup.getElem_inj_iff c.distinct).mp same
  exact Fin.ext (unique i j (by simp) (by simp) (by simpa [ids] using same))

theorem exists_position {id : String} (known : id ∈ c.ids) :
    ∃ i : Fin c.nodes.length, (c.nodes.get i).id = id := by
  obtain ⟨n, member, rfl⟩ := List.mem_map.mp known
  obtain ⟨i, bound, rfl⟩ := List.mem_iff_getElem.mp member
  exact ⟨⟨i, bound⟩, rfl⟩

theorem id_mem_ids (i : Fin c.nodes.length) : (c.nodes.get i).id ∈ c.ids :=
  List.mem_map_of_mem (List.getElem_mem i.isLt)

theorem position?_eq_some_iff {id : String} {i : Fin c.nodes.length} :
    c.position? id = some i ↔ (c.nodes.get i).id = id := by
  simp only [position?, List.findFinIdx?_eq_some_iff, decide_eq_true_eq]
  constructor
  · exact And.left
  · rintro rfl
    refine ⟨rfl, fun j before same => ?_⟩
    have := id_injective (i := j) (j := i) same
    omega

/-- An edge between two nodes is a link between their positions. -/
theorem link_eq_some_iff {e : Edge} {i j : Fin c.nodes.length} :
    (do return (← c.position? e.source, ← c.position? e.target)) = some (i, j) ↔
      e = ⟨(c.nodes.get i).id, (c.nodes.get j).id⟩ := by
  constructor
  · intro found
    obtain ⟨k, start, found⟩ := Option.bind_eq_some_iff.mp found
    obtain ⟨l, finish, same⟩ := Option.bind_eq_some_iff.mp found
    obtain ⟨rfl, rfl⟩ := Prod.mk.inj (Option.some.inj same)
    rw [position?_eq_some_iff.mp start, position?_eq_some_iff.mp finish]
  · rintro rfl
    have start : c.position? (c.nodes.get i).id = some i := position?_eq_some_iff.mpr rfl
    have finish : c.position? (c.nodes.get j).id = some j := position?_eq_some_iff.mpr rfl
    exact Option.bind_eq_some_iff.mpr ⟨i, start, Option.bind_eq_some_iff.mpr ⟨j, finish, rfl⟩⟩

theorem mem_links {i j : Fin c.nodes.length} :
    (i, j) ∈ c.links ↔ c.Joined (c.nodes.get i).id (c.nodes.get j).id := by
  simp only [links, List.mem_filterMap, link_eq_some_iff, exists_eq_right, Joined, id_mem_ids,
    true_and]

/-! What the ranks say of a node. -/

theorem lookup_zip {keys : List String} (unique : keys.Nodup) (values : List Nat) (i : Nat)
    (inKeys : i < keys.length) (inValues : i < values.length) :
    (keys.zip values).lookup keys[i] = some values[i] := by
  induction keys generalizing values i with
  | nil => simp at inKeys
  | cons key keys ih =>
    cases values with
    | nil => simp at inValues
    | cons value values =>
      obtain ⟨fresh, unique⟩ := List.nodup_cons.mp unique
      cases i with
      | zero => simp
      | succ i =>
        have inKeys : i < keys.length := by simpa using inKeys
        have other : (keys[i] == key) = false :=
          beq_eq_false_iff_ne.mpr fun same => fresh (same ▸ List.getElem_mem inKeys)
        simpa [List.lookup_cons, other] using ih unique values i inKeys (by simpa using inValues)

theorem layer?_ranks (i : Fin c.nodes.length) :
    c.ranks.layer? (c.nodes.get i).id = some (c.layering.layer.get i) := by
  have found := lookup_zip c.distinct c.layering.layer.toList i (by simp) (by simp)
  change _ = some c.layering.layer[i]
  simpa [Ranks.layer?, ranks, ids] using found

theorem mem_unresolved {id : String} :
    id ∈ c.ranks.unresolved ↔
      ∃ i : Fin c.nodes.length, (c.nodes.get i).id = id ∧ c.layering.released.get i = false := by
  simp only [ranks, List.mem_map, List.mem_filter]
  constructor
  · rintro ⟨⟨id, released⟩, ⟨member, held⟩, rfl⟩
    obtain ⟨i, bound, same⟩ := List.mem_iff_getElem.mp member
    simp only [List.getElem_zip, Prod.mk.injEq] at same
    obtain ⟨name, state⟩ := same
    have bound : i < c.nodes.length := by simp at bound; omega
    refine ⟨⟨i, bound⟩, by simpa [ids] using name, ?_⟩
    change c.layering.released[i] = false
    simpa [← state] using held
  · rintro ⟨i, rfl, held⟩
    refine ⟨((c.nodes.get i).id, false), ⟨?_, rfl⟩, rfl⟩
    refine List.mem_iff_getElem.mpr ⟨i, by simp, ?_⟩
    change c.layering.released[i] = false at held
    simpa [ids] using held

theorem unresolved_sublist (c : Chart) : c.ranks.unresolved.Sublist c.ids := by
  have names : (c.ids.zip c.layering.released.toList).map Prod.fst = c.ids :=
    List.map_fst_zip (by simp)
  have kept : c.ranks.unresolved.Sublist
      ((c.ids.zip c.layering.released.toList).map Prod.fst) := List.filter_sublist.map Prod.fst
  rwa [names] at kept

theorem map_fst_layers (c : Chart) : c.ranks.layers.map Prod.fst = c.ids :=
  List.map_fst_zip (by simp)

def layerOf (c : Chart) (id : String) : Nat := (c.ranks.layer? id).getD 0

theorem layerOf_id (i : Fin c.nodes.length) : c.layerOf (c.nodes.get i).id = c.layering.layer.get i := by
  rw [layerOf, layer?_ranks, Option.getD_some]

theorem layer?_eq_layerOf {id : String} (known : id ∈ c.ids) :
    c.ranks.layer? id = some (c.layerOf id) := by
  obtain ⟨i, rfl⟩ := exists_position known
  rw [layer?_ranks, layerOf_id]

theorem layerOf_eq_zero {id : String} (unknown : id ∉ c.ids) : c.layerOf id = 0 := by
  have absent : c.ranks.layer? id = none := by
    rw [Ranks.layer?, List.lookup_eq_none_iff]
    intro entry member
    have listed := List.mem_map_of_mem (f := Prod.fst) member
    rw [map_fst_layers] at listed
    exact bne_iff_ne.mpr fun same => unknown (same ▸ listed)
  rw [layerOf, absent, Option.getD_none]

theorem mem_layers_of_layer? {id : String} {l : Nat} (inLayer : c.ranks.layer? id = some l) :
    (id, l) ∈ c.ranks.layers := by
  obtain ⟨before, after, layers, _⟩ := List.lookup_eq_some_iff.mp inLayer
  rw [layers]
  simp

theorem mem_ids_of_layer? {id : String} {l : Nat} (inLayer : c.ranks.layer? id = some l) :
    id ∈ c.ids := by
  rw [← c.map_fst_layers]
  exact List.mem_map_of_mem (f := Prod.fst) (mem_layers_of_layer? inLayer)

/-- The laws of the propagation, said of ids. -/
theorem ranks_settled (c : Chart) :
    Settled c.Joined (fun id => id ∉ c.ranks.unresolved) c.layerOf := by
  have settled : Settled (fun i j => (i, j) ∈ c.links) (fun i => c.layering.released.get i = true)
      (fun i => c.layering.layer.get i) := Propagation.finish_settled c.links
  have free (i : Fin c.nodes.length) :
      (c.nodes.get i).id ∉ c.ranks.unresolved ↔ c.layering.released.get i = true := by
    rw [mem_unresolved]
    constructor
    · intro absent
      by_contra held
      exact absent ⟨i, rfl, by simpa using held⟩
    · rintro released ⟨j, same, held⟩
      rw [id_injective same, released] at held
      cases held
  constructor
  · intro id
    by_cases known : id ∈ c.ids
    · obtain ⟨i, rfl⟩ := exists_position known
      rw [free, settled.released_iff]
      constructor
      · rintro before u ⟨known, edge⟩
        obtain ⟨j, rfl⟩ := exists_position known
        exact (free j).mpr (before j (mem_links.mpr ⟨known, edge⟩))
      · exact fun before j link => (free j).mp (before _ (mem_links.mp link))
    · have absent : id ∉ c.ranks.unresolved := mt (c.unresolved_sublist.subset ·) known
      exact iff_of_true absent fun u edge => absurd edge.2.1 known
  · rintro u v edge before
    obtain ⟨i, rfl⟩ := exists_position edge.1
    obtain ⟨j, rfl⟩ := exists_position edge.2.1
    rw [layerOf_id, layerOf_id]
    exact settled.above i j (mem_links.mpr edge) ((free i).mp before)
  · intro id
    by_cases known : id ∈ c.ids
    · obtain ⟨j, rfl⟩ := exists_position known
      rw [layerOf_id]
      rcases settled.reached j with bottom | ⟨i, link, before, next⟩
      · exact .inl bottom
      · refine .inr ⟨(c.nodes.get i).id, mem_links.mp link, (free i).mpr before, ?_⟩
        rw [layerOf_id, next]
    · exact .inl (layerOf_eq_zero known)

instance (c : Chart) : Finite {id // ¬id ∉ c.ranks.unresolved} :=
  (c.ranks.unresolved.finite_toSet.subset fun _ held => not_not.mp held).to_subtype

/-- Exactly the nodes on a cycle or behind one are unresolved, each once and in the order of the
nodes, and every node has a layer. -/
theorem unresolved_exact (c : Chart) :
    c.ranks.unresolved.Sublist c.ids ∧ c.ranks.unresolved.Nodup ∧
    (∀ id, id ∈ c.ranks.unresolved ↔ BehindCycle c.Joined id) ∧
    (c.ranks.hasCycle = true ↔ ∃ id, Relation.TransGen c.Joined id id) ∧
    c.ranks.layers.map Prod.fst = c.ids ∧ c.ids.Nodup := by
  have report (id : String) : id ∈ c.ranks.unresolved ↔ BehindCycle c.Joined id := by
    have := c.ranks_settled.released_iff_not_behindCycle (v := id)
    exact not_iff_not.mp this
  refine ⟨c.unresolved_sublist, c.unresolved_sublist.nodup c.distinct, report, ?_,
    c.map_fst_layers, c.distinct⟩
  rw [Ranks.hasCycle, Bool.not_eq_true', List.isEmpty_eq_false_iff_exists_mem]
  constructor
  · rintro ⟨id, held⟩
    obtain ⟨u, cycle, _⟩ := (report id).mp held
    exact ⟨u, cycle⟩
  · rintro ⟨id, cycle⟩
    exact ⟨id, (report id).mpr ⟨id, cycle, .refl⟩⟩

/-- The layer of a node that no cycle holds back is the number of edges on a longest walk to it.
Other nodes come one layer after the last of their predecessors that are not held back. -/
theorem layers_longest (c : Chart) :
    (∀ id ∈ c.ids, id ∉ c.ranks.unresolved →
      (∀ nodes, Walk c.Joined nodes id → nodes.Nodup) ∧
      ∃ k, c.ranks.layer? id = some k ∧
        IsGreatest {k | ∃ nodes, Walk c.Joined nodes id ∧ nodes.length = k + 1} k) ∧
    (∀ id ∈ c.ranks.unresolved,
      ((∀ u, c.Joined u id → u ∈ c.ranks.unresolved) → c.ranks.layer? id = some 0) ∧
      ((∃ u, c.Joined u id ∧ u ∉ c.ranks.unresolved) →
        ∃ k, c.ranks.layer? id = some (k + 1) ∧
          IsGreatest {l | ∃ u, c.Joined u id ∧ u ∉ c.ranks.unresolved ∧
            c.ranks.layer? u = some l} k)) ∧
    (∀ u v, c.Joined u v → u ∉ c.ranks.unresolved →
      ∃ k l, c.ranks.layer? u = some k ∧ c.ranks.layer? v = some l ∧ k + 1 ≤ l) := by
  have settled := c.ranks_settled
  refine ⟨?_, ?_, ?_⟩
  · intro id known free
    exact ⟨fun nodes walk => settled.nodup_of_walk walk free,
      _, layer?_eq_layerOf known, settled.layer_isGreatest free⟩
  · intro id held
    rw [layer?_eq_layerOf (c.unresolved_sublist.subset held)]
    constructor
    · intro none
      exact congrArg some (settled.layer_eq_zero fun u edge free => free (none u edge))
    · rintro ⟨u, edge, free⟩
      obtain ⟨k, next, greatest⟩ := settled.layer_eq_succ edge free
      refine ⟨k, congrArg some next, ?_⟩
      have same : {l | ∃ u, c.Joined u id ∧ u ∉ c.ranks.unresolved ∧ c.ranks.layer? u = some l} =
          {l | ∃ u, c.Joined u id ∧ u ∉ c.ranks.unresolved ∧ c.layerOf u = l} := by
        ext l
        refine exists_congr fun u => and_congr_right fun edge => and_congr_right fun _ => ?_
        rw [layer?_eq_layerOf edge.1, Option.some.injEq]
      rwa [same]
  · intro u v edge free
    exact ⟨_, _, layer?_eq_layerOf edge.1, layer?_eq_layerOf edge.2.1,
      settled.above u v edge free⟩

/-- A cycle that is reached from a node before it. -/
def fed : Chart where
  direction := .leftRight
  nodes := [⟨"X", "X", none⟩, ⟨"A", "A", none⟩, ⟨"B", "B", none⟩]
  edges := [⟨"X", "A"⟩, ⟨"A", "B"⟩, ⟨"B", "A"⟩]
  distinct := by decide

theorem layers_longest_fed :
    ("A" ∈ fed.ranks.unresolved ∧ fed.Joined "X" "A" ∧ "X" ∉ fed.ranks.unresolved) ∧
      ∃ k, fed.ranks.layer? "A" = some (k + 1) ∧
        IsGreatest {l | ∃ u, fed.Joined u "A" ∧ u ∉ fed.ranks.unresolved ∧
          fed.ranks.layer? u = some l} k := by
  have held : "A" ∈ fed.ranks.unresolved := by decide +kernel
  have free : "X" ∉ fed.ranks.unresolved := by decide +kernel
  have edge : fed.Joined "X" "A" := by simp [Joined, ids, fed]
  exact ⟨⟨held, edge, free⟩, ((layers_longest fed).2.1 "A" held).2 ⟨"X", edge, free⟩⟩

end Chart

end Flowchart
