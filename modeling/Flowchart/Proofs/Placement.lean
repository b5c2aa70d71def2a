import Mathlib.Algebra.Order.BigOperators.Group.List
import Mathlib.Algebra.Order.Group.Nat
import Mathlib.Data.List.Induction
import Flowchart.Placement

/-! Places of items, compared two at a time: items of one layer follow each other across it, and
layers follow each other along the primary axis, in either order. -/
namespace Flowchart

theorem max?_getD_mem {ns : List Nat} (nonempty : ns ≠ []) : ns.max?.getD 0 ∈ ns := by
  cases largest : ns.max? with
  | none => exact absurd (List.max?_eq_none_iff.mp largest) nonempty
  | some n => exact List.max?_mem largest

theorem max?_getD_le {ns : List Nat} {bound : Nat} (each : ∀ n ∈ ns, n ≤ bound) :
    ns.max?.getD 0 ≤ bound := by
  cases largest : ns.max? with
  | none => exact Nat.zero_le bound
  | some n => exact (List.max?_le_iff largest).mpr each

theorem exists_last {p : α → Prop} {xs : List α} (found : ∃ x ∈ xs, p x) :
    ∃ before x after, xs = before ++ x :: after ∧ p x ∧ ∀ y ∈ after, ¬p y := by
  induction xs using List.reverseRecOn with
  | nil => simp at found
  | append_singleton xs x ih =>
    by_cases here : p x
    · exact ⟨xs, x, [], rfl, here, by simp⟩
    · obtain ⟨y, member, holds⟩ := found
      have earlier : y ∈ xs := by
        rcases List.mem_append.mp member with earlier | last
        · exact earlier
        · exact absurd (List.mem_singleton.mp last ▸ holds) here
      obtain ⟨before, y, after, rfl, holds, none⟩ := ih ⟨y, earlier, holds⟩
      refine ⟨before, y, after ++ [x], by simp, holds, fun z later => ?_⟩
      rcases List.mem_append.mp later with later | last
      · exact none z later
      · exact List.mem_singleton.mp last ▸ here

namespace Placement

variable {gap : Measure} {items : List Item}

theorem advance_append (gap : Measure) (before after : List Item) (layer : Nat) :
    advance gap (before ++ after) layer = advance gap before layer + advance gap after layer := by
  simp only [advance, members, List.filter_append, List.map_append, ← List.sum_eq_foldr,
    List.sum_append_nat]

theorem advance_take_succ (gap : Measure) {i : Nat} (bound : i < items.length) :
    advance gap (items.take (i + 1)) items[i].layer =
      advance gap (items.take i) items[i].layer + (items[i].size.across + gap.across) := by
  rw [List.take_succ_eq_append_getElem bound, advance_append]
  simp [advance, members]

/-- The items between two others push the second one further. -/
theorem advance_between (gap : Measure) (items : List Item) {i j : Nat} (order : i < j)
    (layer : Nat) :
    advance gap (items.take j) layer = advance gap (items.take (i + 1)) layer +
      advance gap ((items.take j).drop (i + 1)) layer := by
  rw [← advance_append]
  congr 1
  have split := List.take_append_drop (i + 1) (items.take j)
  rwa [List.take_take, Nat.min_eq_left order, eq_comm] at split

theorem advance_eq_zero {between : List Item} {layer : Nat}
    (none : ∀ item ∈ between, item.layer ≠ layer) : advance gap between layer = 0 := by
  have empty : members between layer = [] := by
    simpa [members] using none
  simp [advance, empty]

@[simp] theorem length_bands (gap : Measure) (items : List Item) :
    (bands gap items).length = (items.map Item.layer).max?.getD 0 + 1 := by
  simp [bands]

theorem layer_lt_length_bands (gap : Measure) {item : Item} (member : item ∈ items) :
    item.layer < (bands gap items).length := by
  rw [length_bands]
  exact Nat.lt_succ_of_le (List.le_max?_getD_of_mem (List.mem_map_of_mem member))

theorem getElem_bands {layer : Nat} (bound : layer < (bands gap items).length) :
    (bands gap items)[layer] = band gap (members items layer) := by
  simp [bands]

theorem along_le_depth {item : Item} (member : item ∈ items)
    (bound : item.layer < (bands gap items).length) :
    item.size.along ≤ (bands gap items)[item.layer].depth := by
  rw [getElem_bands]
  apply List.le_max?_getD_of_mem
  exact List.mem_map_of_mem (f := fun item : Item => item.size.along)
    (List.mem_filter.mpr ⟨member, by simp⟩)

/-- Layers in order: the next one starts after the whole of a layer and the gap. -/
theorem start_add_le_start (gap : Measure) {table : List Band} {l m : Nat} (order : l < m)
    (bound : l < table.length) :
    start gap false table l + (table[l].depth + gap.along) ≤ start gap false table m := by
  have part : (table.take (l + 1)).Sublist (table.take m) := List.take_sublist_take_left order
  have sum := (part.map fun b => b.depth + gap.along).sum_le_sum fun _ _ => Nat.zero_le _
  rw [List.take_succ_eq_append_getElem bound] at sum
  simp only [List.map_append, List.map_cons, List.map_nil, List.sum_append_nat, List.sum_cons,
    List.sum_nil] at sum
  simp only [start, Bool.false_eq_true, if_false, ← List.sum_eq_foldr]
  omega

/-- Layers in reverse: a layer starts after the whole of the one behind it and the gap. -/
theorem start_add_le_start_reversed (gap : Measure) {table : List Band} {l m : Nat} (order : l < m)
    (bound : m < table.length) :
    start gap true table m + (table[m].depth + gap.along) ≤ start gap true table l := by
  have part : (table.drop m).Sublist (table.drop (l + 1)) := List.drop_sublist_drop_left table order
  have sum := (part.map fun b => b.depth + gap.along).sum_le_sum fun _ _ => Nat.zero_le _
  rw [List.drop_eq_getElem_cons bound] at sum
  simp only [List.map_cons, List.sum_cons] at sum
  simp only [start, if_true, ← List.sum_eq_foldr]
  omega

/-- In reverse order the last layer comes first. -/
theorem start_eq_zero (gap : Measure) {table : List Band} {l : Nat}
    (last : table.length ≤ l + 1) : start gap true table l = 0 := by
  simp [start, List.drop_eq_nil_of_le last]

/-- Layers in order: just the depth of a layer and the gap lie between its start and that of the next
one. -/
theorem start_succ (gap : Measure) {table : List Band} {l : Nat} (bound : l < table.length) :
    start gap false table (l + 1) = start gap false table l + (table[l].depth + gap.along) := by
  simp only [start, Bool.false_eq_true, if_false, ← List.sum_eq_foldr]
  rw [List.take_succ_eq_append_getElem bound, List.map_append, List.sum_append_nat,
    List.map_singleton, List.sum_cons, List.sum_nil, Nat.add_zero]

/-- Layers in reverse: a layer comes just the depth of the next one and the gap after that. -/
theorem start_reversed (gap : Measure) {table : List Band} {l : Nat}
    (bound : l + 1 < table.length) :
    start gap true table l =
      start gap true table (l + 1) + (table[l + 1].depth + gap.along) := by
  simp only [start, if_true]
  rw [List.drop_eq_getElem_cons bound, List.map_cons, List.foldr_cons, Nat.add_comm]

theorem depth_le {depth layer : Nat} (shallow : ∀ item ∈ items, item.size.along ≤ depth)
    (bound : layer < (bands gap items).length) : (bands gap items)[layer].depth ≤ depth := by
  rw [getElem_bands]
  refine max?_getD_le fun size member => ?_
  obtain ⟨item, inside, rfl⟩ := List.mem_map.mp member
  exact shallow item (List.mem_filter.mp inside).1

theorem getElem?_places (gap : Measure) (reversed : Bool) {i : Nat} {item : Item}
    (at_i : items[i]? = some item) :
    (places gap reversed items)[i]? = some
      { along := start gap reversed (bands gap items) item.layer
        across := margin (bands gap items) item.layer +
          advance gap (items.take i) item.layer } := by
  simp [places, List.getElem?_mapIdx, at_i]

variable {reversed : Bool} {i j : Nat} {a b : Item} {p q : Measure}

/-- Items of one layer start together, and the second comes after the first with a gap between
them, and after whatever stands between them. -/
theorem places_same_layer (at_i : items[i]? = some a) (at_j : items[j]? = some b)
    (place_i : (places gap reversed items)[i]? = some p)
    (place_j : (places gap reversed items)[j]? = some q) (order : i < j)
    (same : a.layer = b.layer) :
    p.along = q.along ∧ q.across = p.across + a.size.across + gap.across +
      advance gap ((items.take j).drop (i + 1)) a.layer := by
  rw [getElem?_places gap reversed at_i, Option.some.injEq] at place_i
  rw [getElem?_places gap reversed at_j, Option.some.injEq, ← same,
    advance_between gap items order] at place_j
  obtain ⟨bound, rfl⟩ := List.getElem?_eq_some_iff.mp at_i
  rw [advance_take_succ gap bound] at place_j
  subst place_i place_j
  refine ⟨rfl, ?_⟩
  simp only
  omega

/-- Of two layers the one that is placed first ends a gap before the other starts. -/
theorem places_lower_layer (at_i : items[i]? = some a) (at_j : items[j]? = some b)
    (place_i : (places gap reversed items)[i]? = some p)
    (place_j : (places gap reversed items)[j]? = some q) (lower : a.layer < b.layer) :
    if reversed then q.along + b.size.along + gap.along ≤ p.along
    else p.along + a.size.along + gap.along ≤ q.along := by
  rw [getElem?_places gap reversed at_i, Option.some.injEq] at place_i
  rw [getElem?_places gap reversed at_j, Option.some.injEq] at place_j
  subst place_i place_j
  have first := layer_lt_length_bands gap (List.mem_of_getElem? at_i)
  have second := layer_lt_length_bands gap (List.mem_of_getElem? at_j)
  cases reversed with
  | false =>
    have := along_le_depth (List.mem_of_getElem? at_i) first
    have := start_add_le_start gap lower first
    simp only [Bool.false_eq_true, if_false]
    omega
  | true =>
    have := along_le_depth (List.mem_of_getElem? at_j) second
    have := start_add_le_start_reversed gap lower second
    simp only [if_true]
    omega

/-- Neighbouring layers are no further apart than the deepest item and the gap. -/
theorem places_next_layer (at_i : items[i]? = some a) (at_j : items[j]? = some b)
    (place_i : (places gap reversed items)[i]? = some p)
    (place_j : (places gap reversed items)[j]? = some q) (next : b.layer = a.layer + 1)
    {depth : Nat} (shallow : ∀ item ∈ items, item.size.along ≤ depth) :
    if reversed then p.along ≤ q.along + depth + gap.along
    else q.along ≤ p.along + depth + gap.along := by
  rw [getElem?_places gap reversed at_i, Option.some.injEq] at place_i
  rw [getElem?_places gap reversed at_j, Option.some.injEq, next] at place_j
  subst place_i place_j
  have second := layer_lt_length_bands gap (List.mem_of_getElem? at_j)
  rw [next] at second
  cases reversed with
  | false =>
    have deep := depth_le shallow (Nat.lt_of_succ_lt second)
    simp only [Bool.false_eq_true, if_false]
    rw [start_succ gap (Nat.lt_of_succ_lt second)]
    omega
  | true =>
    have deep := depth_le shallow second
    simp only [if_true]
    rw [start_reversed gap second]
    omega

end Placement

end Flowchart
