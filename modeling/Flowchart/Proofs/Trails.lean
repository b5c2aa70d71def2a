import Flowchart.Stroke

/-! Paths from cell to cell. A trail is made from the sides through which it leaves its cells, one
after another; each cell is filled with the line or the corner between the side from which the
trail comes and the one through which it goes on. If it never goes back the way it has gone, that
is, if no two of its sides are opposite, it comes to no cell twice, and it is a path that connects
its first cell with the one that it comes to. What a path is made of are the characters that are
seen in its cells, in either style. -/
namespace Flowchart

def Stroke.cell (s : Stroke) : Int × Int := (s.x, s.y)

namespace Side

def opposite : Side → Side
  | left => right
  | right => left
  | above => below
  | below => above

/-- The cell that lies beyond a side of a cell. -/
def beyond : Side → Int × Int → Int × Int
  | left, (x, y) => (x - 1, y)
  | right, (x, y) => (x + 1, y)
  | above, (x, y) => (x, y - 1)
  | below, (x, y) => (x, y + 1)

theorem opposite_ne (side : Side) : side.opposite ≠ side := by
  cases side <;> decide

theorem opposite_comm {s t : Side} : s.opposite = t ↔ t.opposite = s := by
  cases s <;> cases t <;> decide

@[simp] theorem beyond_inj {side : Side} {p q : Int × Int} :
    side.beyond p = side.beyond q ↔ p = q := by
  cases side <;> simp [beyond, Prod.ext_iff]

end Side

/-- A character that is put into a cell. -/
structure Plot where
  cell : Int × Int
  char : Char
  deriving DecidableEq, Repr

def Stroke.plot (style : Style) (s : Stroke) : Plot := ⟨s.cell, style.glyph s.mark⟩

namespace Style

/-- The line or the corner between two sides of a cell. -/
def joint? : Style → Side → Side → Option Char
  | _, .left, .left | _, .right, .right | _, .above, .above | _, .below, .below => none
  | unicode, .left, .right | unicode, .right, .left => some '─'
  | unicode, .above, .below | unicode, .below, .above => some '│'
  | unicode, .right, .below | unicode, .below, .right => some '┌'
  | unicode, .left, .below | unicode, .below, .left => some '┐'
  | unicode, .right, .above | unicode, .above, .right => some '└'
  | unicode, .left, .above | unicode, .above, .left => some '┘'
  | ascii, .left, .right | ascii, .right, .left => some '-'
  | ascii, .above, .below | ascii, .below, .above => some '|'
  | ascii, _, _ => some '+'

def arrowhead : Style → Side → Char
  | unicode, .right => '▶'
  | unicode, .left => '◀'
  | unicode, .below => '▼'
  | unicode, .above => '▲'
  | ascii, .right => '>'
  | ascii, .left => '<'
  | ascii, .below => 'v'
  | ascii, .above => '^'

theorem joint?_eq (style : Style) {s t : Side} (apart : s ≠ t) :
    style.joint? s t = some (style.glyph (.joining s t)) := by
  cases style <;> cases s <;> cases t <;> first | contradiction | rfl

theorem glyph_arrow (style : Style) (side : Side) :
    style.glyph (.arrow side) = style.arrowhead side := by
  cases style <;> cases side <;> rfl

end Style

/-- A path that comes from a side into its first cell. Each cell but the last shows the line or the
corner between the side from which the path comes and the side through which it goes on, and the
next cell lies beyond that side. -/
inductive Jointed (style : Style) : Side → List Plot → Prop where
  | last (entry : Side) (p : Plot) : Jointed style entry [p]
  | step : q.cell = Side.beyond leave p.cell → style.joint? entry leave = some p.char →
      Jointed style leave.opposite (q :: rest) → Jointed style entry (p :: q :: rest)

/-- The strokes of a trail, one for each side through which it leaves a cell. -/
def trail (entry : Side) (cell : Int × Int) : List Side → List Stroke
  | [] => []
  | leave :: moves =>
    ⟨cell.1, cell.2, .joining entry leave⟩ :: trail leave.opposite (leave.beyond cell) moves

/-- The cell that a trail comes to. -/
def walk (cell : Int × Int) (moves : List Side) : Int × Int :=
  moves.foldl (fun cell side => side.beyond cell) cell

/-- No two sides are opposite. -/
def Steady (moves : List Side) : Prop := ∀ side ∈ moves, side.opposite ∉ moves

/-- Two sides that are not opposite can take turns. -/
theorem steady_of_forall {s t : Side} (apart : s.opposite ≠ t) {moves : List Side}
    (two : ∀ side ∈ moves, side = s ∨ side = t) : Steady moves := by
  intro side member back
  have self := side.opposite_ne
  rcases two side member with rfl | rfl <;> rcases two _ back with same | same
  · exact self same
  · exact apart same
  · exact apart (Side.opposite_comm.mp same)
  · exact self same

theorem walk_cons (cell : Int × Int) (side : Side) (moves : List Side) :
    walk cell (side :: moves) = walk (side.beyond cell) moves := rfl

theorem walk_append (cell : Int × Int) (moves more : List Side) :
    walk cell (moves ++ more) = walk (walk cell moves) more := List.foldl_append

theorem jointed_trail (style : Style) {entry : Side} {moves : List Side} (nonempty : moves ≠ [])
    (steady : Steady moves) (fresh : entry ∉ moves) (cell : Int × Int) :
    Jointed style entry ((trail entry cell moves).map (Stroke.plot style)) := by
  induction moves generalizing entry cell with
  | nil => exact absurd rfl nonempty
  | cons leave moves ih =>
    cases moves with
    | nil => exact .last ..
    | cons next moves =>
      have later : Steady (next :: moves) := fun side member back =>
        steady side (List.mem_cons_of_mem _ member) (List.mem_cons_of_mem _ back)
      have apart : leave.opposite ∉ next :: moves := fun back =>
        steady leave List.mem_cons_self (List.mem_cons_of_mem _ back)
      refine .step rfl (style.joint?_eq ?_) (ih (by simp) later apart _)
      rintro rfl
      exact fresh List.mem_cons_self

/-- How far a cell lies the way that a trail goes: to the right or to the left, and below or
above. -/
def progress (moves : List Side) (cell : Int × Int) : Int :=
  (if .right ∈ moves then cell.1 else -cell.1) + (if .below ∈ moves then cell.2 else -cell.2)

theorem progress_beyond {moves : List Side} {side : Side} (steady : Steady moves)
    (member : side ∈ moves) (cell : Int × Int) :
    progress moves (side.beyond cell) = progress moves cell + 1 := by
  have back := steady side member
  cases side with
  | left | above =>
    simp only [Side.opposite] at back
    simp only [progress, Side.beyond, back, if_false]
    omega
  | right | below =>
    simp only [progress, Side.beyond, member, if_true]
    omega

/-- Every move is progress, so all cells that are still to come lie further on. -/
theorem progress_trail {moves all : List Side} (steady : Steady all) (part : moves ⊆ all)
    (entry : Side) (cell : Int × Int) :
    (trail entry cell moves).Pairwise (fun s t => progress all s.cell < progress all t.cell) ∧
      ∀ s ∈ trail entry cell moves, progress all cell ≤ progress all s.cell := by
  induction moves generalizing entry cell with
  | nil => simp [trail]
  | cons leave moves ih =>
    obtain ⟨ordered, further⟩ :=
      ih (List.subset_of_cons_subset part) leave.opposite (leave.beyond cell)
    have onward := progress_beyond steady (part List.mem_cons_self) cell
    constructor
    · refine List.pairwise_cons.mpr ⟨fun t member => ?_, ordered⟩
      have := further t member
      change progress all cell < _
      omega
    · intro s member
      rcases List.mem_cons.mp member with rfl | later
      · exact Int.le_refl _
      · have := further s later
        omega

theorem nodup_trail {moves : List Side} (steady : Steady moves) (entry : Side) (cell : Int × Int) :
    ((trail entry cell moves).map Stroke.cell).Nodup := by
  rw [List.Nodup, List.pairwise_map]
  refine (progress_trail steady (List.Subset.refl _) entry cell).1.imp fun less same => ?_
  rw [same] at less
  exact Int.lt_irrefl _ less

theorem head?_trail (entry : Side) (cell : Int × Int) {moves : List Side} (nonempty : moves ≠ []) :
    ((trail entry cell moves).map Stroke.cell).head? = some cell := by
  cases moves with
  | nil => exact absurd rfl nonempty
  | cons leave moves => rfl

/-- The last stroke of a trail is in the cell before the one that the trail comes to. -/
theorem trail_concat (entry : Side) (cell : Int × Int) (moves : List Side) (side : Side) :
    ∃ mark, trail entry cell (moves ++ [side]) =
      trail entry cell moves ++ [⟨(walk cell moves).1, (walk cell moves).2, mark⟩] := by
  induction moves generalizing entry cell with
  | nil => exact ⟨_, rfl⟩
  | cons leave moves ih =>
    obtain ⟨mark, rest⟩ := ih leave.opposite (leave.beyond cell)
    exact ⟨mark, by rw [List.cons_append, trail, rest]; rfl⟩

/-- A straight part of a trail, through cells that follow each other beyond one side. -/
theorem trail_replicate_append {side : Side} (cell : Nat → Int × Int)
    (steps : ∀ i, side.beyond (cell i) = cell (i + 1)) (k : Nat) (moves : List Side) :
    trail side.opposite (cell 0) (List.replicate k side ++ moves) =
      (List.range k).map (fun i => ⟨(cell i).1, (cell i).2, .joining side.opposite side⟩) ++
        trail side.opposite (cell k) moves := by
  induction k generalizing cell with
  | zero => rfl
  | succ k ih =>
    have rest := ih (fun i => cell (i + 1)) fun i => steps (i + 1)
    rw [List.replicate_succ, List.cons_append, trail, steps, rest, List.range_succ_eq_map]
    simp [Function.comp_def]

theorem walk_replicate {side : Side} (cell : Nat → Int × Int)
    (steps : ∀ i, side.beyond (cell i) = cell (i + 1)) (k : Nat) :
    walk (cell 0) (List.replicate k side) = cell k := by
  induction k generalizing cell with
  | zero => rfl
  | succ k ih =>
    have rest := ih (fun i => cell (i + 1)) fun i => steps (i + 1)
    rw [List.replicate_succ, walk_cons, steps]
    exact rest

theorem map_cell_plot (style : Style) (strokes : List Stroke) :
    (strokes.map (Stroke.plot style)).map Plot.cell = strokes.map Stroke.cell := by
  rw [List.map_map]
  rfl

/-- A path up to the cell before a goal. It comes to no cell twice, and the sides through which it
enters its first cell and leaves its last one lie opposite. -/
structure Connects (style : Style) (travel : Side) (start goal : Int × Int) (path : List Plot)
    (final : Int × Int) : Prop where
  jointed : Jointed style travel.opposite path
  distinct : (path.map Plot.cell).Nodup
  first : (path.map Plot.cell).head? = some start
  last : (path.map Plot.cell).getLast? = some final
  before : travel.beyond final = goal

/-- Characters that lead to a goal: a path, and on top of its last cell an arrowhead that points
to a side. -/
def Leads (style : Style) (points travel : Side) (start goal : Int × Int) (plots : List Plot) :
    Prop :=
  ∃ path final, plots = path ++ [⟨final, style.arrowhead points⟩] ∧
    Connects style travel start goal path final

/-- What leads further than one step starts in a cell to which it does not return. -/
theorem Leads.exists_cons {style : Style} {points travel : Side} {start goal : Int × Int}
    {plots : List Plot} (leads : Leads style points travel start goal plots)
    (far : travel.beyond start ≠ goal) :
    ∃ first rest, plots = first :: rest ∧ first.cell = start ∧ ∀ p ∈ rest, p.cell ≠ start := by
  obtain ⟨path, final, rfl, connects⟩ := leads
  cases path with
  | nil => cases connects.first
  | cons first path =>
    obtain rfl : first.cell = start := Option.some.inj connects.first
    obtain ⟨fresh, _⟩ := List.nodup_cons.mp connects.distinct
    refine ⟨first, _, rfl, rfl, fun p member back => ?_⟩
    rcases List.mem_append.mp member with onPath | arrowhead
    · exact fresh (List.mem_map.mpr ⟨p, onPath, back⟩)
    · obtain rfl := List.mem_singleton.mp arrowhead
      rw [← back] at far
      exact far connects.before

theorem connects_trail (style : Style) {travel turn : Side} (apart : travel.opposite ≠ turn)
    {moves : List Side} (sides : ∀ side ∈ moves, side = travel ∨ side = turn)
    (start : Int × Int) :
    Connects style travel start (walk start (moves ++ [travel]))
      ((trail travel.opposite start (moves ++ [travel])).map (Stroke.plot style))
      (walk start moves) := by
  have steady : Steady (moves ++ [travel]) := by
    refine steady_of_forall apart fun side member => ?_
    rcases List.mem_append.mp member with earlier | final
    · exact sides side earlier
    · exact .inl (List.mem_singleton.mp final)
  have nonempty : moves ++ [travel] ≠ [] := by simp
  have cells := map_cell_plot style (trail travel.opposite start (moves ++ [travel]))
  constructor
  case jointed => exact jointed_trail style nonempty steady (steady _ (by simp)) start
  case distinct => exact cells ▸ nodup_trail steady _ _
  case first => exact cells ▸ head?_trail _ _ nonempty
  case last =>
    obtain ⟨mark, last⟩ := trail_concat travel.opposite start moves travel
    rw [cells, last]
    simp [Stroke.cell]
  case before =>
    rw [walk_append]
    rfl

end Flowchart
