import Mathlib.Tactic.MkIffOfInductiveProp
import Flowchart.Proofs.Arrangement
import Flowchart.Proofs.RoundTrip
import Flowchart.Proofs.Trails

/-! The routes of the edges of an arranged chart. Seen in the direction of the chart a route is a
trail that goes one way along and at most one way across, so it meets no cell twice. It needs a
cell to go forwards, or two to go backwards, and an arrangement leaves that room between any two
boxes, also between a box and itself. -/
namespace Flowchart

theorem toward_cases (a b : Int) : toward a b = 1 ∨ toward a b = -1 := by
  unfold toward
  split <;> simp

/-- A run in steps of a known kind. -/
theorem run_eq_map_range {a b step : Int} {k : Nat} (unit : step = 1 ∨ step = -1)
    (reach : a + step * k = b) : run a b = (List.range k).map fun i : Nat => a + step * i := by
  have size : (b - a).natAbs = k := by rcases unit with rfl | rfl <;> omega
  rw [run, size]
  refine List.map_congr_left fun i member => ?_
  have same : toward a b = step := by
    have := List.mem_range.mp member
    unfold toward
    rcases unit with rfl | rfl <;> split <;> omega
  rw [same]

theorem mem_run_iff {a b x : Int} : x ∈ run a b ↔ a ≤ x ∧ x < b ∨ b < x ∧ x ≤ a := by
  rw [run, List.mem_map]
  constructor
  · rintro ⟨i, inside, rfl⟩
    have := List.mem_range.mp inside
    unfold toward
    split <;> omega
  · intro between
    refine ⟨(x - a).natAbs, List.mem_range.mpr (by omega), ?_⟩
    unfold toward
    split <;> omega

/-- A number lies between two others, in whichever order they come. -/
def Between (a b x : Int) : Prop := min a b ≤ x ∧ x ≤ max a b

/-- The cell in the middle of a side of a box. -/
def Box.middle (b : Box) : Side → Int × Int
  | .left => (b.x, b.y + b.height / 2)
  | .right => (b.right - 1, b.y + b.height / 2)
  | .above => (b.x + b.width / 2, b.y)
  | .below => (b.x + b.width / 2, b.bottom - 1)

namespace Direction

/-- A place seen in a direction. -/
def cell (d : Direction) (along across : Int) : Int × Int :=
  if d.isHorizontal then (along, across) else (across, along)

/-- The direction that has along what another one has across. -/
def turned : Direction → Direction
  | leftRight => topBottom
  | rightLeft => bottomTop
  | topBottom => leftRight
  | bottomTop => rightLeft

/-- The side of a box that its edges leave through. -/
def ahead : Direction → Side
  | leftRight => .right
  | rightLeft => .left
  | topBottom => .below
  | bottomTop => .above

theorem arrow_eq (d : Direction) : d.arrow = .arrow d.ahead := by cases d <;> rfl

/-- The side through which an edge goes on along the direction. -/
def travel (d : Direction) (a b : Box) : Side :=
  d.sideAlong (toward (d.departure a).1 (d.arrival b).1)

/-- There is a cell to go from a box to another one forwards, or there are two to go backwards. -/
def Passable (d : Direction) (a b : Box) : Prop :=
  (d.departure a).1 < (d.arrival b).1 ∨ (d.arrival b).1 + 1 < (d.departure a).1

theorem route_eq (d : Direction) (a b : Box) :
    d.route a b = if (d.departure a).2 = (d.arrival b).2 then
        d.straight (d.departure a).1 (d.arrival b).1 (d.departure a).2
      else d.bent (d.departure a).1 (d.arrival b).1 (d.departure a).2 (d.arrival b).2 := rfl

theorem stroke_eq (d : Direction) (along across : Int) (mark : Mark) :
    d.stroke along across mark = ⟨(d.cell along across).1, (d.cell along across).2, mark⟩ := by
  cases d <;> rfl

@[simp] theorem cell_stroke (d : Direction) (along across : Int) (mark : Mark) :
    (d.stroke along across mark).cell = d.cell along across := by
  cases d <;> rfl

theorem plot_stroke (d : Direction) (style : Style) (along across : Int) (mark : Mark) :
    (d.stroke along across mark).plot style = ⟨d.cell along across, style.glyph mark⟩ := by
  rw [Stroke.plot, cell_stroke, stroke_eq]

theorem cell_turned (d : Direction) (along across : Int) :
    d.turned.cell across along = d.cell along across := by
  cases d <;> rfl

theorem sideAlong_turned (d : Direction) : d.turned.sideAlong = d.sideAcross := by
  cases d <;> rfl

theorem stroke_turned (d : Direction) (along across : Int) :
    d.turned.stroke across along d.turned.lineAlong = d.stroke along across d.lineAcross := by
  cases d <;> rfl

theorem sideAlong_opposite_ne (d : Direction) (step turn : Int) :
    (d.sideAlong step).opposite ≠ d.sideAcross turn := by
  by_cases onward : 0 < step <;> by_cases aside : 0 < turn <;> cases d <;>
    simp [sideAlong, sideAcross, isHorizontal, onward, aside, Side.opposite]

theorem joining_opposite_sideAlong (d : Direction) (step : Int) :
    .joining (d.sideAlong step).opposite (d.sideAlong step) = d.lineAlong := by
  by_cases onward : 0 < step <;> cases d <;> simp [sideAlong, isHorizontal, onward] <;> rfl

theorem opposite_sideAlong (d : Direction) {step : Int} (unit : step = 1 ∨ step = -1) :
    (d.sideAlong step).opposite = d.sideAlong (-step) := by
  cases d <;> rcases unit with rfl | rfl <;> rfl

theorem opposite_sideAcross (d : Direction) {step : Int} (unit : step = 1 ∨ step = -1) :
    (d.sideAcross step).opposite = d.sideAcross (-step) := by
  rw [← sideAlong_turned]
  exact d.turned.opposite_sideAlong unit

theorem beyond_sideAlong (d : Direction) {step : Int} (unit : step = 1 ∨ step = -1)
    (along across : Int) :
    (d.sideAlong step).beyond (d.cell along across) = d.cell (along + step) across := by
  cases d <;> rcases unit with rfl | rfl <;> rfl

theorem beyond_sideAcross (d : Direction) {step : Int} (unit : step = 1 ∨ step = -1)
    (along across : Int) :
    (d.sideAcross step).beyond (d.cell along across) = d.cell along (across + step) := by
  rw [← sideAlong_turned, ← d.cell_turned, ← d.cell_turned]
  exact d.turned.beyond_sideAlong unit across along

/-! Straight lines are parts of trails. -/

section Lines

variable {a b step : Int} {k : Nat} (unit : step = 1 ∨ step = -1) (reach : a + step * k = b)

include unit in
theorem beyond_step (d : Direction) (across : Int) (i : Nat) :
    (d.sideAlong step).beyond (d.cell (a + step * i) across) =
      d.cell (a + step * (i + 1 : Nat)) across := by
  rw [d.beyond_sideAlong unit, Int.natCast_succ, Int.mul_add, Int.mul_one, Int.add_assoc]

include unit reach

theorem trail_along (d : Direction) (across : Int) (moves : List Side) :
    trail (d.sideAlong step).opposite (d.cell a across)
        (List.replicate k (d.sideAlong step) ++ moves) =
      (run a b).map (fun along => d.stroke along across d.lineAlong) ++
        trail (d.sideAlong step).opposite (d.cell b across) moves := by
  have line := trail_replicate_append (fun i => d.cell (a + step * i) across)
    (d.beyond_step unit across) k moves
  simp only [reach, d.joining_opposite_sideAlong, ← stroke_eq] at line
  simpa [run_eq_map_range unit reach, Function.comp_def] using line

theorem walk_along (d : Direction) (across : Int) :
    walk (d.cell a across) (List.replicate k (d.sideAlong step)) = d.cell b across := by
  have line := walk_replicate (fun i => d.cell (a + step * i) across)
    (d.beyond_step unit across) k
  simpa [reach] using line

theorem trail_across (d : Direction) (along : Int) (moves : List Side) :
    trail (d.sideAcross step).opposite (d.cell along a)
        (List.replicate k (d.sideAcross step) ++ moves) =
      (run a b).map (fun across => d.stroke along across d.lineAcross) ++
        trail (d.sideAcross step).opposite (d.cell along b) moves := by
  have line := trail_along unit reach d.turned along moves
  simpa only [sideAlong_turned, cell_turned, stroke_turned] using line

theorem walk_across (d : Direction) (along : Int) :
    walk (d.cell along a) (List.replicate k (d.sideAcross step)) = d.cell along b := by
  have line := walk_along unit reach d.turned along
  simpa only [sideAlong_turned, cell_turned] using line

end Lines

theorem exists_steps {a b step : Int} (unit : step = 1 ∨ step = -1)
    (onward : 0 ≤ step * (b - a)) : ∃ k : Nat, a + step * k = b := by
  refine ⟨(b - a).natAbs, ?_⟩
  rcases unit with rfl | rfl <;> omega

/-- A trail that goes one way along and at most one way across leads to where it comes to. -/
theorem leads_trail {d : Direction} (style : Style) {start finish across across' step turn : Int}
    {moves : List Side} (unit : step = 1 ∨ step = -1)
    (sides : ∀ side ∈ moves, side = d.sideAlong step ∨ side = d.sideAcross turn)
    (comes : walk (d.cell start across) (moves ++ [d.sideAlong step]) = d.cell finish across') :
    Leads style d.ahead (d.sideAlong step) (d.cell start across) (d.cell finish across')
      ((trail (d.sideAlong step).opposite (d.cell start across) (moves ++ [d.sideAlong step]) ++
        [d.stroke (finish - step) across' d.arrow]).map (Stroke.plot style)) := by
  have path := connects_trail style (d.sideAlong_opposite_ne step turn) sides (d.cell start across)
  rw [comes] at path
  have final : walk (d.cell start across) moves = d.cell (finish - step) across' := by
    have before := path.before
    rw [← Int.sub_add_cancel finish step, ← d.beyond_sideAlong unit] at before
    exact Side.beyond_inj.mp before
  rw [final] at path
  rw [List.map_append, List.map_singleton, plot_stroke, arrow_eq, style.glyph_arrow]
  exact ⟨_, _, rfl, path⟩

/-- A straight line goes all its steps along. -/
theorem leads_straight (d : Direction) (style : Style) {start finish : Int}
    (apart : start ≠ finish) (across : Int) :
    Leads style d.ahead (d.sideAlong (toward start finish)) (d.cell start across)
      (d.cell finish across) ((d.straight start finish across).map (Stroke.plot style)) := by
  have unit := toward_cases start finish
  obtain ⟨k, further⟩ := exists_steps (a := start + toward start finish) (b := finish) unit (by
    unfold toward
    split <;> omega)
  rw [straight]
  generalize toward start finish = step at *
  have reach : start + step * (k + 1 : Nat) = finish := by
    rw [Int.natCast_succ, Int.mul_add]
    omega
  have line := d.trail_along unit reach across []
  rw [List.replicate_succ', List.append_nil, trail, List.append_nil] at line
  have sides : ∀ side ∈ List.replicate k (d.sideAlong step),
      side = d.sideAlong step ∨ side = d.sideAcross step :=
    fun side member => .inl (List.eq_of_mem_replicate member)
  have comes : walk (d.cell start across) (List.replicate k (d.sideAlong step) ++
      [d.sideAlong step]) = d.cell finish across := by
    rw [← List.replicate_succ', d.walk_along unit reach]
  rw [← line]
  exact leads_trail style unit sides comes

/-- The moves of a bent line, but for the last one. -/
def legs (d : Direction) (step turn : Int) (k₁ k₂ k₃ : Nat) : List Side :=
  List.replicate k₁ (d.sideAlong step) ++ d.sideAcross turn ::
    (List.replicate k₂ (d.sideAcross turn) ++ List.replicate k₃ (d.sideAlong step))

theorem legs_concat (d : Direction) (step turn : Int) (k₁ k₂ k₃ : Nat) :
    d.legs step turn k₁ k₂ k₃ ++ [d.sideAlong step] =
      List.replicate k₁ (d.sideAlong step) ++ d.sideAcross turn ::
        (List.replicate k₂ (d.sideAcross turn) ++
          d.sideAlong step :: (List.replicate k₃ (d.sideAlong step) ++ [])) := by
  simp [legs, ← List.replicate_succ, List.replicate_succ']

theorem eq_of_mem_legs {d : Direction} {step turn : Int} {k₁ k₂ k₃ : Nat} (side : Side)
    (member : side ∈ d.legs step turn k₁ k₂ k₃) :
    side = d.sideAlong step ∨ side = d.sideAcross turn := by
  simp only [legs, List.mem_append, List.mem_cons, List.mem_replicate] at member
  rcases member with ⟨_, same⟩ | same | ⟨_, same⟩ | ⟨_, same⟩
  all_goals simp [same]

section Legs

variable {start middle finish across across' step turn : Int} {k₁ k₂ k₃ : Nat}
  (unit : step = 1 ∨ step = -1) (unit' : turn = 1 ∨ turn = -1)
  (before : start + step * k₁ = middle) (aside : across + turn + turn * k₂ = across')
  (after : middle + step + step * k₃ = finish)
include unit unit' before aside after

theorem walk_legs (d : Direction) :
    walk (d.cell start across) (d.legs step turn k₁ k₂ k₃ ++ [d.sideAlong step]) =
      d.cell finish across' := by
  rw [legs_concat, walk_append, d.walk_along unit before, walk_cons, d.beyond_sideAcross unit',
    walk_append, d.walk_across unit' aside, walk_cons, d.beyond_sideAlong unit, List.append_nil,
    d.walk_along unit after]

/-- The moves of a bent line draw its three lines and two corners. -/
theorem trail_legs (d : Direction) :
    trail (d.sideAlong step).opposite (d.cell start across)
        (d.legs step turn k₁ k₂ k₃ ++ [d.sideAlong step]) =
      (run start middle).map (fun along => d.stroke along across d.lineAlong)
        ++ [d.stroke middle across (.joining (d.sideAlong (-step)) (d.sideAcross turn))]
        ++ (run (across + turn) across').map (fun across => d.stroke middle across d.lineAcross)
        ++ [d.stroke middle across' (.joining (d.sideAcross (-turn)) (d.sideAlong step))]
        ++ (run (middle + step) finish).map (fun along => d.stroke along across' d.lineAlong) := by
  rw [legs_concat, d.trail_along unit before, trail, d.beyond_sideAcross unit',
    d.trail_across unit' aside, trail, d.beyond_sideAlong unit, d.trail_along unit after, trail,
    ← d.stroke_eq, ← d.stroke_eq, d.opposite_sideAlong unit, d.opposite_sideAcross unit']
  simp

end Legs

/-- A bent line goes along, then across, then along again. -/
theorem leads_bent (d : Direction) (style : Style) {start finish across across' : Int}
    (far : start < finish ∨ finish + 1 < start) (bend : across ≠ across') :
    Leads style d.ahead (d.sideAlong (toward start finish)) (d.cell start across)
      (d.cell finish across') ((d.bent start finish across across').map (Stroke.plot style)) := by
  have unit := toward_cases start finish
  have unit' := toward_cases across across'
  -- the middle is rounded down, so backwards it lies before the goal only if that is two cells off
  obtain ⟨k₁, before⟩ := exists_steps (a := start) (b := start + (finish - start) / 2) unit (by
    unfold toward
    split <;> omega)
  obtain ⟨k₂, aside⟩ := exists_steps (a := across + toward across across') (b := across') unit' (by
    unfold toward
    split <;> omega)
  obtain ⟨k₃, after⟩ := exists_steps
    (a := start + (finish - start) / 2 + toward start finish) (b := finish) unit (by
      unfold toward
      split <;> omega)
  rw [bent, ← d.trail_legs unit unit' before aside after]
  exact leads_trail style unit eq_of_mem_legs (d.walk_legs unit unit' before aside after)

/-- The places where a route starts and ends, as cells at the boxes. -/
theorem cell_departure (d : Direction) (a : Box) :
    d.cell (d.departure a).1 (d.departure a).2 = d.ahead.beyond (a.middle d.ahead) := by
  cases d <;> simp [cell, departure, ahead, isHorizontal, Side.beyond, Box.middle, Box.right,
    Box.bottom]

theorem cell_arrival (d : Direction) (b : Box) :
    d.cell (d.arrival b).1 (d.arrival b).2 = b.middle d.ahead.opposite := by
  cases d <;> simp [cell, arrival, ahead, isHorizontal, Side.opposite, Box.middle, Box.right,
    Box.bottom]

theorem leads_route (d : Direction) (style : Style) {a b : Box} (passable : d.Passable a b) :
    Leads style d.ahead (d.travel a b) (d.ahead.beyond (a.middle d.ahead))
      (b.middle d.ahead.opposite) ((d.route a b).map (Stroke.plot style)) := by
  rw [← cell_departure, ← cell_arrival, route_eq]
  split
  · next level =>
    have apart : (d.departure a).1 ≠ (d.arrival b).1 := by
      unfold Passable at passable
      omega
    rw [← level]
    exact d.leads_straight style apart _
  · next bend => exact d.leads_bent style passable bend

/-- Where a route turns, half way between its ends. -/
def bend (d : Direction) (a b : Box) : Int :=
  (d.departure a).1 + ((d.arrival b).1 - (d.departure a).1) / 2

/-- A place on the way from one box to another: on the line of the source before the bend, at the
bend between the two lines, or on the line of the target after the bend. -/
@[mk_iff]
structure OnRoute (d : Direction) (a b : Box) (along across : Int) : Prop where
  between : (d.departure a).1 ≤ along ∧ along < (d.arrival b).1 ∨
    (d.arrival b).1 < along ∧ along ≤ (d.departure a).1
  beside : Between (d.departure a).2 (d.arrival b).2 across
  leg : across = (d.departure a).2 ∧ Between (d.departure a).1 (d.bend a b) along ∨
    along = d.bend a b ∨
    across = (d.arrival b).2 ∧ Between (d.bend a b) (d.arrival b).1 along

/-- All strokes of a route lie on the way. -/
theorem exists_onRoute (d : Direction) {a b : Box} (passable : d.Passable a b) {s : Stroke}
    (member : s ∈ d.route a b) :
    ∃ along across, s.cell = d.cell along across ∧ d.OnRoute a b along across := by
  unfold Passable at passable
  simp only [onRoute_iff, Between, bend]
  rw [route_eq] at member
  split at member
  · next level =>
    simp only [straight, List.mem_append, List.mem_map, List.mem_singleton] at member
    rcases member with ⟨along, inside, rfl⟩ | rfl
    all_goals refine ⟨_, _, d.cell_stroke .., ?_⟩
    · have := mem_run_iff.mp inside
      omega
    · unfold toward
      split <;> omega
  · simp only [bent, List.mem_append, List.mem_map, List.mem_singleton] at member
    rcases member with ((((⟨along, inside, rfl⟩ | rfl) | ⟨across, inside, rfl⟩) | rfl) |
      ⟨along, inside, rfl⟩) | rfl
    all_goals refine ⟨_, _, d.cell_stroke .., ?_⟩
    · have := mem_run_iff.mp inside
      omega
    · omega
    · have := mem_run_iff.mp inside
      unfold toward at this
      split at this <;> omega
    · omega
    · have := mem_run_iff.mp inside
      unfold toward at this
      split at this <;> omega
    · unfold toward
      split <;> omega

theorem onRoute_bend (d : Direction) {a b : Box} (passable : d.Passable a b) {across : Int}
    (beside : Between (d.departure a).2 (d.arrival b).2 across) :
    d.OnRoute a b (d.bend a b) across := by
  unfold Passable at passable
  refine ⟨?_, beside, .inr (.inl rfl)⟩
  unfold bend
  omega

/-- A route has a stroke at every place on the way. -/
theorem exists_mem_route (d : Direction) {a b : Box} {along across : Int}
    (on : d.OnRoute a b along across) : ∃ s ∈ d.route a b, s.cell = d.cell along across := by
  obtain ⟨between, beside, leg⟩ := on
  unfold Between at beside leg
  rw [route_eq]
  split
  · next level =>
    obtain rfl : across = (d.departure a).2 := by omega
    have inside : along ∈ run (d.departure a).1 (d.arrival b).1 := by
      rw [mem_run_iff]
      omega
    exact ⟨_, List.mem_append_left _ (List.mem_map_of_mem inside), d.cell_stroke ..⟩
  · next turns =>
    simp only [bent, List.mem_append, List.mem_map, List.mem_singleton]
    by_cases corner : along = d.bend a b
    · have inside : across = (d.departure a).2 ∨ across = (d.arrival b).2 ∨ across ∈
          run ((d.departure a).2 + toward (d.departure a).2 (d.arrival b).2) (d.arrival b).2 := by
        rw [mem_run_iff]
        unfold toward
        split <;> omega
      obtain rfl := corner
      rcases inside with rfl | rfl | inside
      · exact ⟨_, .inl (.inl (.inl (.inl (.inr rfl)))), d.cell_stroke ..⟩
      · exact ⟨_, .inl (.inl (.inr rfl)), d.cell_stroke ..⟩
      · exact ⟨_, .inl (.inl (.inl (.inr ⟨across, inside, rfl⟩))), d.cell_stroke ..⟩
    · rcases leg with ⟨rfl, before⟩ | here | ⟨rfl, after⟩
      · have inside : along ∈ run (d.departure a).1 (d.bend a b) := by
          rw [mem_run_iff]
          omega
        exact ⟨_, .inl (.inl (.inl (.inl (.inl ⟨along, inside, rfl⟩)))), d.cell_stroke ..⟩
      · exact absurd here corner
      · have inside : along ∈ run (d.bend a b + toward (d.departure a).1 (d.arrival b).1)
            (d.arrival b).1 := by
          rw [mem_run_iff]
          unfold toward
          split <;> omega
        exact ⟨_, .inl (.inr ⟨along, inside, rfl⟩), d.cell_stroke ..⟩

theorem departure_along (d : Direction) (a : Box) :
    (d.departure a).1 = if d.isReversed then ((d.position a).along : Int) - 1
      else (d.position a).along + (d.extent a).along := by
  cases d <;> rfl

theorem arrival_along (d : Direction) (b : Box) :
    (d.arrival b).1 = if d.isReversed then
        ((d.position b).along : Int) + (d.extent b).along - 1
      else (d.position b).along := by
  cases d <;> rfl

theorem departure_across (d : Direction) (a : Box) :
    (d.departure a).2 = (d.position a).across + (d.extent a).across / 2 := by
  cases d <;> rfl

theorem arrival_across (d : Direction) (b : Box) :
    (d.arrival b).2 = (d.position b).across + (d.extent b).across / 2 := by
  cases d <;> rfl

/-- Along a direction the cells of a box lie between its ends. -/
theorem along_of_covers (d : Direction) {a : Box} {x y : Nat} (covers : a.Covers x y)
    {along across : Int} (here : d.cell along across = ((x : Int), (y : Int))) :
    (d.position a).along ≤ along ∧ along < (d.position a).along + (d.extent a).along := by
  obtain ⟨left, right, top, bottom⟩ := covers
  simp only [Box.right, Box.bottom] at right bottom
  cases d <;> simp only [cell, position, extent, measure, isHorizontal, Bool.false_eq_true,
    if_true, if_false, Prod.mk.injEq] at here ⊢ <;> omega

/-- Across a direction the cells of a box lie between its sides. -/
theorem across_of_covers (d : Direction) {a : Box} {x y : Nat} (covers : a.Covers x y)
    {along across : Int} (here : d.cell along across = ((x : Int), (y : Int))) :
    (d.position a).across ≤ across ∧ across < (d.position a).across + (d.extent a).across := by
  have inside := d.turned.along_of_covers covers ((d.cell_turned along across).trans here)
  cases d <;> exact inside

end Direction

namespace Chart

variable {c : Chart}

theorem node?_eq_some {n : Node} (member : n ∈ c.nodes) : c.node? n.id = some n := by
  have found : (c.node? n.id).isSome := List.find?_isSome.mpr ⟨n, member, by simp⟩
  obtain ⟨m, same⟩ := Option.isSome_iff_exists.mp found
  have id : m.id = n.id := by simpa using List.find?_some same
  rw [same, List.inj_on_of_nodup_map c.distinct (List.mem_of_find?_eq_some same) member id]

/-- The node of an id stands in its layer, in its box. -/
theorem exists_stands_of_mem_ids {id : String} (known : id ∈ c.ids) :
    ∃ i layer box, c.Stands i layer box ∧ c.ranks.layer? id = some layer ∧
      c.arrange.box? id = some box := by
  obtain ⟨i, rfl⟩ := exists_position known
  have node : c.nodes[i.val]? = some (c.nodes.get i) := List.getElem?_eq_getElem i.isLt
  obtain ⟨place, _, placed⟩ := getElem?_arrange node
  refine ⟨i, _, _, ⟨_, placed, layer?_ranks i, rfl⟩, layer?_ranks i, ?_⟩
  have found := node?_eq_some (List.mem_of_getElem? placed)
  rw [box?, found]
  rfl

namespace Stands

variable {i j l m : Nat} {a b : Box}

theorem along_eq_of_layer_eq (first : c.Stands i l a) (second : c.Stands j l b) :
    (c.direction.position a).along = (c.direction.position b).along := by
  rcases Nat.lt_trichotomy i j with before | rfl | after
  · exact first.along_eq second before
  · obtain ⟨n, node, _, inA⟩ := first
    obtain ⟨n', node', _, inB⟩ := second
    obtain rfl := Option.some.inj (node.symm.trans node')
    obtain rfl := Option.some.inj (inA.symm.trans inB)
    rfl
  · exact (second.along_eq first after).symm

/-- A box is three rows high and at least five columns wide. -/
theorem three_le_size (stands : c.Stands i l a) : 3 ≤ a.width ∧ 3 ≤ a.height := by
  obtain ⟨_, node, _, inBox⟩ := stands
  obtain ⟨n, place, _, _, rfl⟩ := exists_of_getElem?_arrange node
  obtain rfl := Option.some.inj inBox
  have broad : 5 ≤ n.width := Nat.le_max_right _ 5
  rw [Direction.width_box, Direction.height_box]
  exact ⟨Nat.le_trans (by decide) broad, Nat.le_refl 3⟩

theorem three_le_extent (stands : c.Stands i l a) : 3 ≤ (c.direction.extent a).along := by
  have size := stands.three_le_size
  rw [Direction.extent, Direction.measure]
  split
  · exact size.1
  · exact size.2

theorem three_le_breadth (stands : c.Stands i l a) : 3 ≤ (c.direction.extent a).across := by
  have size := stands.three_le_size
  rw [Direction.extent, Direction.measure]
  split
  · exact size.2
  · exact size.1

theorem passable (first : c.Stands i l a) (second : c.Stands j m b) : c.direction.Passable a b := by
  have size := first.three_le_extent
  have size' := second.three_le_extent
  have gap : 2 ≤ c.direction.gap.along := by
    rw [Direction.gap]
    split <;> decide
  rw [Direction.Passable, Direction.departure_along, Direction.arrival_along]
  rcases Nat.lt_trichotomy l m with lower | rfl | higher
  · have apart := first.lower_layer second lower
    cases order : c.direction.isReversed <;>
      simp only [order, Bool.false_eq_true, if_true, if_false] at apart ⊢ <;> omega
  · -- both boxes start together, so the edge goes back or on over the extent of one of them
    have same := first.along_eq_of_layer_eq second
    split <;> omega
  · have apart := second.lower_layer first higher
    cases order : c.direction.isReversed <;>
      simp only [order, Bool.false_eq_true, if_true, if_false] at apart ⊢ <;> omega

/-- An edge to a higher layer stays out of both of its boxes. -/
theorem not_covers (first : c.Stands i l a) (second : c.Stands j m b) (lower : l < m) {s : Stroke}
    (member : s ∈ c.direction.route a b) {x y : Nat} (here : s.cell = ((x : Int), (y : Int))) :
    ¬a.Covers x y ∧ ¬b.Covers x y := by
  obtain ⟨along, across, place, on⟩ := c.direction.exists_onRoute (first.passable second) member
  have between := on.between
  rw [Direction.departure_along, Direction.arrival_along] at between
  rw [place] at here
  have apart := first.lower_layer second lower
  refine ⟨fun covers => ?_, fun covers => ?_⟩
  all_goals
    have inside := c.direction.along_of_covers covers here
    cases order : c.direction.isReversed <;>
      simp only [order, Bool.false_eq_true, if_true, if_false] at apart between <;> omega

end Stands

theorem forall₂_filterMap {R : α → β → Prop} {f : α → Option β} {xs : List α}
    (each : ∀ x ∈ xs, ∃ y, f x = some y ∧ R x y) : List.Forall₂ R xs (xs.filterMap f) := by
  induction xs with
  | nil => exact .nil
  | cons x xs ih =>
    obtain ⟨y, found, related⟩ := each x List.mem_cons_self
    rw [List.filterMap_cons_some found]
    exact .cons related (ih fun x member => each x (List.mem_cons_of_mem _ member))

/-- The characters that the edges put into cells, edge by edge. -/
def plots (c : Chart) (style : Style) : List (List Plot) :=
  c.routes.map (List.map (Stroke.plot style))

/-- A drawing is made by the strokes of all its routes, one after another. -/
theorem grid_eq_trace (c : Chart) (style : Style) :
    c.grid style = (c.boxLayer style).trace style c.routes.flatten := by
  rw [Grid.trace, List.foldl_flatten]
  rfl

/-- A drawing consists of the boxes and, on top of them, the characters of the edges. -/
theorem grid_eq_foldl_plots (c : Chart) (style : Style) :
    c.grid style = (c.plots style).flatten.foldl
      (fun g p => g.plot p.cell.1 p.cell.2 p.char) (c.boxLayer style) := by
  rw [grid_eq_trace, plots, ← List.map_flatten, List.foldl_map]
  rfl

/-- Every edge of an accepted source is drawn over the boxes as a path of lines and corners, with an
arrowhead on top of its last cell that points the way the chart runs. The path starts just outside
of the middle of the side of its source that the chart runs towards, and ends before the middle of
the opposite side of its target. If the target is in a higher layer, the path stays out of both
boxes. -/
theorem routes_lead {source : String} {c : Chart} (accepted : read source = .ok c)
    (style : Style) :
    c.arrange.grid style = (c.arrange.plots style).flatten.foldl
      (fun g p => g.plot p.cell.1 p.cell.2 p.char) (c.arrange.boxLayer style) ∧
    List.Forall₂ (fun e plots => ∃ a b,
        c.arrange.box? e.source = some a ∧ c.arrange.box? e.target = some b ∧
        Leads style c.direction.ahead (c.direction.travel a b)
          (c.direction.ahead.beyond (a.middle c.direction.ahead))
          (b.middle c.direction.ahead.opposite) plots ∧
        ∀ l m, c.ranks.layer? e.source = some l → c.ranks.layer? e.target = some m → l < m →
          ∀ p ∈ plots, ∀ x y : Nat, p.cell = ((x : Int), (y : Int)) →
            ¬a.Covers x y ∧ ¬b.Covers x y)
      c.edges (c.arrange.plots style) := by
  refine ⟨grid_eq_foldl_plots .., List.forall₂_map_right_iff.mpr ?_⟩
  refine forall₂_filterMap fun e member => ?_
  obtain ⟨known, known'⟩ := (describable_of_read accepted).ends e member
  obtain ⟨i, l, a, first, layer, box⟩ := exists_stands_of_mem_ids known
  obtain ⟨j, m, b, second, layer', box'⟩ := exists_stands_of_mem_ids known'
  refine ⟨c.direction.route a b, ?_, a, b, box, box', ?_, ?_⟩
  · rw [box, box']
    rfl
  · exact c.direction.leads_route style (first.passable second)
  · intro l' m' inLayer inLayer' lower p plotted x y here
    obtain rfl := Option.some.inj (layer.symm.trans inLayer)
    obtain rfl := Option.some.inj (layer'.symm.trans inLayer')
    obtain ⟨s, inside, rfl⟩ := List.mem_map.mp plotted
    exact first.not_covers second lower inside here

/-- A straight edge, a bent one and one that goes back through its own box. -/
def looped : Chart := fork.connect "C" "C"

theorem routes_lead_looped :
    read "flowchart LR\nA --> B\nA --> C\nC --> C" = .ok looped ∧
      ∃ up down back, looped.arrange.plots .ascii = [up, down, back] ∧
        down = [⟨(5, 3), '-'⟩, ⟨(6, 3), '-'⟩, ⟨(7, 3), '+'⟩, ⟨(7, 4), '|'⟩, ⟨(7, 5), '|'⟩,
          ⟨(7, 6), '+'⟩, ⟨(8, 6), '-'⟩, ⟨(8, 6), '>'⟩] ∧
        Leads .ascii .right .right (5, 3) (9, 6) down ∧
        (∀ p ∈ down, ∀ x y : Nat, p.cell = ((x : Int), (y : Int)) →
          ¬(⟨0, 2, 5, 3⟩ : Box).Covers x y ∧ ¬(⟨9, 5, 5, 3⟩ : Box).Covers x y) ∧
        Leads .ascii .right .left (14, 6) (9, 6) back := by
  have accepted : read "flowchart LR\nA --> B\nA --> C\nC --> C" = .ok looped := by
    decide +kernel
  have boxA : looped.arrange.box? "A" = some ⟨0, 2, 5, 3⟩ := by decide +kernel
  have boxC : looped.arrange.box? "C" = some ⟨9, 5, 5, 3⟩ := by decide +kernel
  have layerA : looped.ranks.layer? "A" = some 0 := by decide +kernel
  have layerC : looped.ranks.layer? "C" = some 1 := by decide +kernel
  have second : (looped.arrange.plots .ascii)[1]? = some [⟨(5, 3), '-'⟩, ⟨(6, 3), '-'⟩,
      ⟨(7, 3), '+'⟩, ⟨(7, 4), '|'⟩, ⟨(7, 5), '|'⟩, ⟨(7, 6), '+'⟩, ⟨(8, 6), '-'⟩,
      ⟨(8, 6), '>'⟩] := by decide +kernel
  obtain ⟨up, _, _, later, all⟩ := List.forall₂_cons_left_iff.mp (routes_lead accepted .ascii).2
  obtain ⟨down, _, ⟨a, c, atA, atC, leads, clear⟩, last, rfl⟩ :=
    List.forall₂_cons_left_iff.mp later
  obtain ⟨back, _, ⟨c', c'', atC', atC'', returns, _⟩, none, rfl⟩ :=
    List.forall₂_cons_left_iff.mp last
  obtain rfl := List.forall₂_nil_left_iff.mp none
  obtain rfl := Option.some.inj (boxA.symm.trans atA)
  obtain rfl := Option.some.inj (boxC.symm.trans atC)
  obtain rfl := Option.some.inj (boxC.symm.trans atC')
  obtain rfl := Option.some.inj (boxC.symm.trans atC'')
  rw [all] at second
  exact ⟨accepted, up, down, back, all, Option.some.inj second, leads,
    clear 0 1 layerA layerC (by decide), returns⟩

end Chart

end Flowchart
