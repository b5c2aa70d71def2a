import Flowchart.Proofs.Routes

/-! Routes drawn step by step, with places counted in signed 64-bit words. A line goes on by one
cell at a time until it meets its goal, and nothing else stops it: if it missed the goal, it would
not end, and a sum that no word holds has no result. Whatever the two boxes are, also if they
overlap, are empty or stand the wrong way round, each line of an edge meets its goal, and what is
drawn is the route between the boxes. -/
namespace Flowchart

/-- A signed 64-bit word holds the number. -/
def Fits (a : Int) : Prop := -2 ^ 63 ≤ a ∧ a < 2 ^ 63

/-- A line that goes on in steps until it meets its goal, and the places that it leaves. -/
inductive Advances (step goal : Int) : Int → List Int → Prop where
  | arrived : Advances step goal goal []
  | onward : a ≠ goal → Fits (a + step) → Advances step goal (a + step) places →
      Advances step goal a (a :: places)

/-- Induction on the steps that are left. -/
theorem advances_iff_of_reach {step goal a : Int} {k : Nat} (unit : step = 1 ∨ step = -1)
    (reach : a + step * k = goal) (start : Fits a) (finish : Fits goal) {places : List Int} :
    Advances step goal a places ↔ places = run a goal := by
  induction k generalizing a places with
  | zero =>
    obtain rfl : a = goal := by simpa using reach
    rw [run_self]
    constructor
    · intro line
      cases line with
      | arrived => rfl
      | onward apart => exact absurd rfl apart
    · rintro rfl
      exact .arrived
  | succ k ih =>
    have apart : a ≠ goal := by rcases unit with rfl | rfl <;> omega
    have ahead : toward a goal = step := by
      unfold toward
      rcases unit with rfl | rfl <;> split <;> omega
    have fits : Fits (a + step) := by
      unfold Fits at *
      rcases unit with rfl | rfl <;> omega
    have left : a + step + step * k = goal := by rcases unit with rfl | rfl <;> omega
    rw [run_eq_cons apart, ahead]
    constructor
    · intro line
      cases line with
      | arrived => exact absurd rfl apart
      | onward _ _ rest =>
        obtain rfl := (ih left fits).mp rest
        rfl
    · rintro rfl
      exact .onward apart fits ((ih left fits).mpr rfl)

/-- A line that starts with a step towards its goal meets it. -/
theorem advances_iff {a goal : Int} (start : Fits a) (finish : Fits goal) {places : List Int} :
    Advances (toward a goal) goal a places ↔ places = run a goal := by
  obtain ⟨k, reach⟩ := Direction.exists_steps (a := a) (b := goal) (toward_cases a goal) (by
    unfold toward
    split <;> omega)
  exact advances_iff_of_reach (toward_cases a goal) reach start finish

namespace Direction

/-- The strokes of an edge in the order in which they are drawn: one line if its ends are level,
and else three. Words have to hold every sum. -/
inductive Draws (d : Direction) (start finish across across' : Int) : List Stroke → Prop where
  | straight : across = across' → Advances (toward start finish) finish start line →
      Fits (finish - toward start finish) →
      Draws d start finish across across'
        (line.map (fun along => d.stroke along across d.lineAlong)
          ++ [d.stroke (finish - toward start finish) across' d.arrow])
  | bent : across ≠ across' →
      step = toward start finish → turn = toward across across' →
      middle = start + (finish - start) / 2 → further = middle + step →
      Fits (finish - start) → Fits middle → Fits (across + turn) → Fits further →
      Fits (finish - step) →
      Advances (toward start middle) middle start before →
      Advances turn across' (across + turn) aside →
      Advances (toward further finish) finish further after →
      Draws d start finish across across'
        (before.map (fun along => d.stroke along across d.lineAlong)
          ++ [d.stroke middle across (.joining (d.sideAlong (-step)) (d.sideAcross turn))]
          ++ aside.map (fun across => d.stroke middle across d.lineAcross)
          ++ [d.stroke middle across' (.joining (d.sideAcross (-turn)) (d.sideAlong step))]
          ++ after.map (fun along => d.stroke along across' d.lineAlong)
          ++ [d.stroke (finish - step) across' d.arrow])

/-- Words hold the ends of an edge, the way between them and the place of the arrowhead. -/
structure Countable (start finish across across' : Int) : Prop where
  leaves : -1 ≤ start ∧ start < 2 ^ 63
  comes : -1 ≤ finish ∧ finish < 2 ^ 63
  way : finish - start < 2 ^ 63
  level : 0 ≤ across ∧ across < 2 ^ 63
  level' : 0 ≤ across' ∧ across' < 2 ^ 63
  arrowhead : finish - toward start finish < 2 ^ 63

namespace Countable

variable {start finish across across' : Int} {strokes : List Stroke}

theorem fits (countable : Countable start finish across across') :
    Fits start ∧ Fits finish ∧ Fits across' ∧ Fits (finish - toward start finish) := by
  obtain ⟨leaves, comes, _, _, level', arrowhead⟩ := countable
  have := toward_cases start finish
  unfold Fits
  omega

theorem draws_straight_iff (countable : Countable start finish across across) (d : Direction) :
    d.Draws start finish across across strokes ↔ strokes = d.straight start finish across := by
  obtain ⟨fits, fits', _, final⟩ := countable.fits
  constructor
  · intro drawn
    cases drawn with
    | straight _ line => rw [(advances_iff fits fits').mp line, straight]
    | bent turns => exact absurd rfl turns
  · rintro rfl
    exact .straight rfl ((advances_iff fits fits').mpr rfl) final

theorem draws_bent_iff (countable : Countable start finish across across') (d : Direction)
    (turns : across ≠ across') :
    d.Draws start finish across across' strokes ↔
      strokes = d.bent start finish across across' := by
  obtain ⟨fits, fits', beside', final⟩ := countable.fits
  obtain ⟨leaves, comes, way, level, level', _⟩ := countable
  have unit := toward_cases across across'
  have far : Fits (finish - start) := by unfold Fits; omega
  have half : Fits (start + (finish - start) / 2) := by unfold Fits; omega
  -- The last line may start one step beyond its end; it looks for its own way and turns round.
  have next : Fits (start + (finish - start) / 2 + toward start finish) := by
    unfold Fits toward
    split <;> omega
  have away : Fits (across + toward across across') := by
    unfold Fits toward
    split <;> omega
  -- The line across keeps its step, so it must not start beyond its end.
  obtain ⟨k, reach⟩ := exists_steps (a := across + toward across across') (b := across') unit (by
    unfold toward
    split <;> omega)
  constructor
  · intro drawn
    cases drawn with
    | straight level => exact absurd level turns
    | bent _ step turn middle further _ _ _ _ _ before aside after =>
      subst step turn middle further
      rw [(advances_iff fits half).mp before, (advances_iff next fits').mp after,
        (advances_iff_of_reach unit reach away beside').mp aside, bent]
  · rintro rfl
    exact .bent turns rfl rfl rfl rfl far half away next final ((advances_iff fits half).mpr rfl)
      ((advances_iff_of_reach unit reach away beside').mpr rfl) ((advances_iff next fits').mpr rfl)

end Countable

/-- The numbers met in finding the ends of an edge: the places and sizes of the boxes, the far side
of one of them, and the middles of both. -/
def numbers (d : Direction) (a b : Box) : List Nat :=
  let far := if d.isReversed then b else a
  [a.x, a.y, a.width, a.height, b.x, b.y, b.width, b.height,
    (d.position far).along + (d.extent far).along,
    (d.position a).across + (d.extent a).across / 2,
    (d.position b).across + (d.extent b).across / 2]

/-- Words hold all that it takes to tell the ends of an edge, and the place of its arrowhead. That
place is too far off if both ends are in the last cell that can be counted. -/
@[mk_iff]
structure InRange (d : Direction) (a b : Box) : Prop where
  ends : ∀ k ∈ d.numbers a b, k < 2 ^ 63
  arrowhead : (d.arrival b).1 - toward (d.departure a).1 (d.arrival b).1 < 2 ^ 63

instance (d : Direction) (a b : Box) : Decidable (d.InRange a b) :=
  decidable_of_iff _ (d.inRange_iff a b).symm

theorem countable_of_inRange {d : Direction} {a b : Box} (inRange : d.InRange a b) :
    Countable (d.departure a).1 (d.arrival b).1 (d.departure a).2 (d.arrival b).2 := by
  obtain ⟨ends, arrowhead⟩ := inRange
  simp only [numbers, List.forall_mem_cons] at ends
  obtain ⟨_, _, _, _, _, _, _, _, far, level, level', _⟩ := ends
  rw [departure_along, arrival_along] at arrowhead ⊢
  rw [departure_across, arrival_across]
  cases d <;> simp only [isReversed, position, extent, measure, isHorizontal, if_true, if_false,
    Bool.false_eq_true] at far level level' arrowhead ⊢ <;> constructor <;> omega

/-- Between any two boxes, wherever they stand and whatever their sizes are, every line of an edge
comes to its end. There is one way to draw the edge, and it has as many strokes as there are cells
on its lines, one for each bend and one for the arrowhead. -/
theorem draws_route {d : Direction} {a b : Box} {start across finish across' : Int}
    (leaves : d.departure a = (start, across)) (comes : d.arrival b = (finish, across'))
    (inRange : d.InRange a b) :
    (∀ strokes, d.Draws start finish across across' strokes ↔ strokes = d.route a b) ∧
      (d.route a b).length =
        if across = across' then (finish - start).natAbs + 1
        else
          let middle := start + (finish - start) / 2
          let step := if start < finish then 1 else -1
          (middle - start).natAbs + (across' - across).natAbs
            + (finish - (middle + step)).natAbs + 2 := by
  have countable := countable_of_inRange inRange
  have whole := d.route_eq a b
  rw [leaves, comes] at countable whole
  rw [whole]
  dsimp only
  split
  · next level =>
    obtain rfl : across = across' := level
    exact ⟨fun _ => countable.draws_straight_iff d, by simp [straight]⟩
  · next turns =>
    refine ⟨fun _ => countable.draws_bent_iff d turns, ?_⟩
    have aside : (across' - (across + toward across across')).natAbs + 1
        = (across' - across).natAbs := by
      unfold toward
      split <;> omega
    have step : toward start finish = if start < finish then 1 else -1 := rfl
    simp only [bent, List.length_append, List.length_map, length_run, List.length_singleton]
    rw [step]
    omega

/-- The target has no cell and stands beside the end of the source, so its line goes backwards. -/
theorem draws_route_beside :
    leftRight.departure ⟨4, 0, 5, 3⟩ = (9, 1) ∧ leftRight.arrival ⟨9, 4, 0, 0⟩ = (9, 4) ∧
      leftRight.InRange ⟨4, 0, 5, 3⟩ ⟨9, 4, 0, 0⟩ ∧
      (leftRight.route ⟨4, 0, 5, 3⟩ ⟨9, 4, 0, 0⟩).length = 6 ∧
      leftRight.Draws 9 9 1 4
        [⟨9, 1, .joining .right .below⟩, ⟨9, 2, .vertical⟩, ⟨9, 3, .vertical⟩,
          ⟨9, 4, .joining .above .left⟩, ⟨8, 4, .horizontal⟩, ⟨10, 4, .arrow .right⟩] := by
  have leaves : leftRight.departure ⟨4, 0, 5, 3⟩ = (9, 1) := by decide
  have comes : leftRight.arrival ⟨9, 4, 0, 0⟩ = (9, 4) := by decide
  have inRange : leftRight.InRange ⟨4, 0, 5, 3⟩ ⟨9, 4, 0, 0⟩ := by decide
  obtain ⟨only, size⟩ := draws_route leaves comes inRange
  exact ⟨leaves, comes, inRange, size, (only _).mpr (by decide)⟩

end Direction

end Flowchart
