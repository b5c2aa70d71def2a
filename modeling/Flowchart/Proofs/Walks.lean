import Mathlib.Data.Fintype.Card
import Mathlib.Data.Fintype.EquivFin
import Mathlib.Logic.Relation
import Mathlib.Order.Bounds.Basic
import Mathlib.Order.WellFounded

/-! Layerings of a directed graph in which the nodes on a cycle or behind one are held back. Three
local laws, one node and its predecessors at a time, fix the whole layering: which nodes are
released, and that the layer of a released node is the length of a longest walk to it. -/
namespace Flowchart

/-- A walk along edges, by its nodes in order, and its last node. -/
inductive Walk (joined : α → α → Prop) : List α → α → Prop where
  | single (v : α) : Walk joined [v] v
  | snoc : Walk joined nodes u → joined u v → Walk joined (nodes ++ [v]) v

/-- The nodes on a cycle and those that can be reached from one. -/
def BehindCycle (joined : α → α → Prop) (v : α) : Prop :=
  ∃ u, Relation.TransGen joined u u ∧ Relation.ReflTransGen joined u v

/-- A node is released when all its predecessors are, and its layer is the least one after those
of its released predecessors. -/
structure Settled (joined : α → α → Prop) (released : α → Prop) (layer : α → Nat) : Prop where
  released_iff : ∀ v, released v ↔ ∀ u, joined u v → released u
  above : ∀ u v, joined u v → released u → layer u < layer v
  reached : ∀ v, layer v = 0 ∨ ∃ u, joined u v ∧ released u ∧ layer v = layer u + 1

namespace Settled

variable {joined : α → α → Prop} {released : α → Prop} {layer : α → Nat}

theorem released_of_reaches (settled : Settled joined released layer)
    (reaches : Relation.ReflTransGen joined u v) (free : released v) : released u := by
  induction reaches with
  | refl => exact free
  | tail _ last ih => exact ih ((settled.released_iff _).mp free _ last)

theorem layer_lt_of_reaches (settled : Settled joined released layer)
    (reaches : Relation.TransGen joined u v) (free : released v) : layer u < layer v := by
  induction reaches with
  | single edge => exact settled.above _ _ edge ((settled.released_iff _).mp free _ edge)
  | tail _ last ih =>
    have before := (settled.released_iff _).mp free _ last
    exact (ih before).trans (settled.above _ _ last before)

/-- Layers grow along a cycle if its nodes are released, so they are not. -/
theorem not_behindCycle (settled : Settled joined released layer) (free : released v) :
    ¬BehindCycle joined v := by
  rintro ⟨u, cycle, reaches⟩
  have onCycle := settled.released_of_reaches reaches free
  exact Nat.lt_irrefl _ (settled.layer_lt_of_reaches cycle onCycle)

/-- A node that is held back has a predecessor that is held back, too. Going back from node to
node among finitely many ones comes round to a cycle. -/
theorem behindCycle [Finite {v // ¬released v}] (settled : Settled joined released layer)
    (held : ¬released v) : BehindCycle joined v := by
  by_contra none
  let Before := {u // ¬released u ∧ Relation.ReflTransGen joined u v}
  let before (a b : Before) := Relation.TransGen joined a.1 b.1
  have : Finite Before :=
    Finite.of_injective (fun u => (⟨u.1, u.2.1⟩ : {v // ¬released v})) fun a b same =>
      Subtype.ext (congrArg (fun u => u.1) same)
  have : IsTrans Before before := ⟨fun _ _ _ => Relation.TransGen.trans⟩
  have : Std.Irrefl before := ⟨fun u cycle => none ⟨u.1, cycle, u.2.2⟩⟩
  have founded : WellFounded before := Finite.wellFounded_of_trans_of_irrefl before
  obtain ⟨first, _, least⟩ := founded.has_min Set.univ ⟨⟨v, held, .refl⟩, trivial⟩
  have blocked : ∃ u, joined u first.1 ∧ ¬released u := by
    simpa using mt (settled.released_iff first.1).mpr first.2.1
  obtain ⟨u, edge, held⟩ := blocked
  exact least ⟨u, held, .head edge first.2.2⟩ trivial (.single edge)

theorem released_iff_not_behindCycle [Finite {v // ¬released v}]
    (settled : Settled joined released layer) : released v ↔ ¬BehindCycle joined v :=
  ⟨settled.not_behindCycle, fun free => by_contra fun held => free (settled.behindCycle held)⟩

theorem layer_le_of_mem_walk (settled : Settled joined released layer)
    (walk : Walk joined nodes v) (free : released v) : ∀ u ∈ nodes, layer u ≤ layer v := by
  induction walk with
  | single v => simp
  | @snoc nodes u v _ edge ih =>
    have before := (settled.released_iff _).mp free _ edge
    have step := settled.above _ _ edge before
    intro w member
    rcases List.mem_append.mp member with earlier | last
    · exact (ih before w earlier).trans step.le
    · rw [List.mem_singleton.mp last]

/-- A walk to a released node comes to no node twice. -/
theorem nodup_of_walk (settled : Settled joined released layer)
    (walk : Walk joined nodes v) (free : released v) : nodes.Nodup := by
  induction walk with
  | single v => simp
  | @snoc nodes u v walk edge ih =>
    have before := (settled.released_iff _).mp free _ edge
    have step := settled.above _ _ edge before
    refine List.nodup_append.mpr ⟨ih before, by simp, ?_⟩
    intro a earlier b last
    rw [List.mem_singleton.mp last]
    rintro rfl
    have := settled.layer_le_of_mem_walk walk before _ earlier
    omega

theorem length_le_of_walk (settled : Settled joined released layer)
    (walk : Walk joined nodes v) (free : released v) : nodes.length ≤ layer v + 1 := by
  induction walk with
  | single v => simp
  | @snoc nodes u v _ edge ih =>
    have before := (settled.released_iff _).mp free _ edge
    have step := settled.above _ _ edge before
    have shorter := ih before
    simp only [List.length_append, List.length_singleton]
    omega

theorem exists_walk (settled : Settled joined released layer) (v : α) :
    ∃ nodes, Walk joined nodes v ∧ nodes.length = layer v + 1 := by
  induction size : layer v generalizing v with
  | zero => exact ⟨[v], .single v, rfl⟩
  | succ k ih =>
    rcases settled.reached v with bottom | ⟨u, edge, _, next⟩
    · omega
    · obtain ⟨nodes, walk, length⟩ := ih u (by omega)
      exact ⟨nodes ++ [v], .snoc walk edge, by simp [length]⟩

/-- The layer of a released node is the number of edges on a longest walk to it. -/
theorem layer_isGreatest (settled : Settled joined released layer) (free : released v) :
    IsGreatest {k | ∃ nodes, Walk joined nodes v ∧ nodes.length = k + 1} (layer v) := by
  constructor
  · exact settled.exists_walk v
  · rintro k ⟨nodes, walk, length⟩
    have := settled.length_le_of_walk walk free
    omega

/-- A node with a released predecessor comes one layer after the last of them. -/
theorem layer_eq_succ (settled : Settled joined released layer) (edge : joined u v)
    (free : released u) :
    ∃ k, layer v = k + 1 ∧ IsGreatest {l | ∃ u, joined u v ∧ released u ∧ layer u = l} k := by
  rcases settled.reached v with bottom | ⟨w, last, freed, next⟩
  · have := settled.above u v edge free
    omega
  · refine ⟨layer w, next, ⟨w, last, freed, rfl⟩, ?_⟩
    rintro l ⟨u, edge, free, rfl⟩
    have := settled.above u v edge free
    omega

theorem layer_eq_zero (settled : Settled joined released layer)
    (none : ∀ u, joined u v → ¬released u) : layer v = 0 := by
  rcases settled.reached v with bottom | ⟨u, edge, free, _⟩
  · exact bottom
  · exact absurd free (none u edge)

end Settled

end Flowchart
