import Flowchart.Proofs.Relabelling
import Flowchart.Proofs.Reversal
import Flowchart.Proofs.Rows

/-! Bottom to top is top to bottom upside down. The boxes of the one arrangement are those of the
other turned upside down, and so are the edges between neighbouring layers, because two rows lie
between these and every edge turns in the second one of them on its way. The strokes of a frame come
in another order, but in no row of it. -/
namespace Flowchart

/-! Upside down a corner at the top becomes the one at the bottom, and arrowheads turn round. -/

namespace Side

def flipped : Side → Side
  | left => left
  | right => right
  | above => below
  | below => above

end Side

namespace Mark

def flipped : Mark → Mark
  | topLeft => bottomLeft
  | topRight => bottomRight
  | bottomLeft => topLeft
  | bottomRight => topRight
  | horizontal => horizontal
  | vertical => vertical
  | arrow side => arrow side.flipped

theorem flipped_joining (s t : Side) : (joining s t).flipped = joining s.flipped t.flipped := by
  cases s <;> cases t <;> rfl

end Mark

namespace Style

/-- The character that a cell shows upside down. -/
def flip : Char → Char
  | '┌' => '└'
  | '└' => '┌'
  | '┐' => '┘'
  | '┘' => '┐'
  | '▼' => '▲'
  | '▲' => '▼'
  | c => c

theorem flip_glyph (mark : Mark) : flip (unicode.glyph mark) = unicode.glyph mark.flipped := by
  cases mark with
  | arrow side => cases side <;> rfl
  | _ => rfl

theorem flip_eq_self {c : Char} (other : c ∉ ['┌', '┐', '└', '┘', '▲', '▼']) : flip c = c := by
  simp only [List.mem_cons, List.not_mem_nil, or_false, not_or] at other
  unfold flip
  split <;> simp_all

end Style

theorem Cell.flip_ofChar_glyph (mark : Mark) :
    (ofChar (Style.unicode.glyph mark)).relabel Style.flip =
      ofChar (Style.unicode.glyph mark.flipped) := by
  rw [ofChar, ofChar, if_neg (Style.glyph_plain _ mark).2.1, if_neg (Style.glyph_plain _ _).2.1,
    relabel, Style.flip_glyph]

namespace Stroke

/-- A stroke in a drawing of some height that is turned upside down. -/
def flipped (height : Nat) (s : Stroke) : Stroke := ⟨s.x, height - 1 - s.y, s.mark.flipped⟩

/-- In the rows of a drawing, strokes come in the same order as others upside down. -/
def Mirrors (height : Nat) (strokes strokes' : List Stroke) : Prop :=
  ∀ i : Nat, i < height → strokes'.filter (fun s => s.y = (i : Int)) =
    (strokes.filter fun s => s.y = ((height - 1 - i : Nat) : Int)).map (flipped height)

theorem mirrors_map (height : Nat) (strokes : List Stroke) :
    Mirrors height strokes (strokes.map (flipped height)) := by
  intro i below
  rw [List.filter_map]
  congr 1
  refine List.filter_congr fun s _ => decide_eq_decide.mpr ?_
  simp only [flipped]
  omega

theorem mirrors_frame {height : Nat} {b : Box} (three : b.height = 3) (inside : b.bottom ≤ height) :
    Mirrors height b.frame (b.flipped height).frame := by
  intro i below
  have three' : (b.flipped height).height = 3 := three
  rw [Box.bottom, three] at inside
  have x : (b.flipped height).x = b.x := rfl
  have width : (b.flipped height).width = b.width := rfl
  have right : (b.flipped height).right = b.right := rfl
  have y : ((b.flipped height).y : Int) = height - 3 - b.y := by
    simp only [Box.flipped, three]
    omega
  rw [Box.filter_frame three', Box.filter_frame three]
  obtain ⟨j, opposite, own⟩ : ∃ j, height - 1 - i = j ∧ (i : Int) = height - 1 - j :=
    ⟨_, rfl, by omega⟩
  have first : (i : Int) = (b.flipped height).y ↔ (j : Int) = b.y + 2 := by omega
  have second : (i : Int) = (b.flipped height).y + 1 ↔ (j : Int) = b.y + 1 := by omega
  have third : (i : Int) = (b.flipped height).y + 2 ↔ (j : Int) = b.y := by omega
  simp only [opposite, first, second, third, x, width, right]
  rw [own]
  by_cases top : (j : Int) = b.y
  · simp [top, flipped, Mark.flipped, Function.comp_def]
  · by_cases middle : (j : Int) = b.y + 1
    · simp [middle, flipped, Mark.flipped]
    · simp only [if_neg top, if_neg middle]
      split <;> simp [flipped, Mark.flipped, Function.comp_def]

end Stroke

theorem toward_sub {a b : Int} (apart : a ≠ b) (c : Int) : toward (c - a) (c - b) = -toward a b := by
  unfold toward
  split <;> split <;> omega

theorem run_sub (a b c : Int) : run (c - a) (c - b) = (run a b).map (c - ·) := by
  by_cases same : a = b
  · simp [same]
  · have size : (c - b - (c - a)).natAbs = (b - a).natAbs := by omega
    rw [run, run, size, toward_sub same, List.map_map]
    refine List.map_congr_left fun i _ => ?_
    simp only [Function.comp_apply]
    rw [Int.neg_mul]
    omega

namespace Direction

variable {d : Direction} (vertical : d.isHorizontal = false)

section Vertical

include vertical

theorem arrow_reverse : d.reverse.arrow = d.arrow.flipped := by
  cases d <;> first | rfl | cases vertical

theorem flipped_stroke (height : Nat) (along across : Int) (mark : Mark) :
    (d.stroke along across mark).flipped height =
      d.reverse.stroke (height - 1 - along) across mark.flipped := by
  cases d <;> first | rfl | cases vertical

theorem sideAlong_reverse {step : Int} (unit : step = 1 ∨ step = -1) :
    d.reverse.sideAlong (-step) = (d.sideAlong step).flipped := by
  rcases unit with rfl | rfl <;> cases d <;> first | rfl | cases vertical

theorem sideAcross_reverse (turn : Int) :
    d.reverse.sideAcross turn = (d.sideAcross turn).flipped := by
  simp only [sideAcross, isHorizontal_reverse, vertical]
  by_cases right : 0 < turn <;> simp [right, Side.flipped]

theorem flipped_lineAlong : d.lineAlong.flipped = d.reverse.lineAlong := by
  simp [lineAlong, vertical, Mark.flipped]

theorem flipped_lineAcross : d.lineAcross.flipped = d.reverse.lineAcross := by
  simp [lineAcross, vertical, Mark.flipped]

theorem straight_reverse (height : Nat) {start finish : Int} (apart : start ≠ finish)
    (across : Int) :
    d.reverse.straight (height - 1 - start) (height - 1 - finish) across =
      (d.straight start finish across).map (Stroke.flipped height) := by
  rw [straight, straight, run_sub, toward_sub apart]
  simp only [List.map_append, List.map_map, List.map_singleton, Function.comp_def,
    flipped_stroke vertical, flipped_lineAlong vertical, arrow_reverse vertical]
  congr 3
  omega

/-- Half way stays half way if that is a whole number of steps. -/
theorem bent_reverse (height : Nat) {start finish : Int} (apart : start ≠ finish)
    (even : (finish - start) % 2 = 0) (across across' : Int) :
    d.reverse.bent (height - 1 - start) (height - 1 - finish) across across' =
      (d.bent start finish across across').map (Stroke.flipped height) := by
  have step := toward_sub apart (height - 1)
  have middle : (height : Int) - 1 - start + (height - 1 - finish - (height - 1 - start)) / 2 =
      height - 1 - (start + (finish - start) / 2) := by omega
  have onward (place step : Int) : (height : Int) - 1 - place + -step = height - 1 - (place + step) :=
    by omega
  have back (place step : Int) : (height : Int) - 1 - place - -step = height - 1 - (place - step) :=
    by omega
  have ahead := d.sideAlong_reverse vertical (toward_cases start finish)
  have unit : -toward start finish = 1 ∨ -toward start finish = -1 := by
    rcases toward_cases start finish with unit | unit <;> simp [unit]
  have behind := d.sideAlong_reverse vertical unit
  rw [bent, bent]
  simp only [step, middle, onward, back, run_sub, ahead, behind]
  simp only [List.map_append, List.map_map, List.map_singleton, Function.comp_def,
    flipped_stroke vertical, flipped_lineAlong vertical, flipped_lineAcross vertical,
    arrow_reverse vertical, Mark.flipped_joining, sideAcross_reverse vertical]

theorem departure_flipped {height : Nat} {b : Box} (inside : b.bottom ≤ height) :
    d.reverse.departure (b.flipped height) =
      (height - 1 - (d.departure b).1, (d.departure b).2) := by
  rw [Box.bottom] at inside
  cases d with
  | leftRight | rightLeft => cases vertical
  | topBottom | bottomTop =>
    simp only [reverse, departure, Box.flipped, Prod.mk.injEq, and_true]
    omega

theorem arrival_flipped {height : Nat} {b : Box} (inside : b.bottom ≤ height) :
    d.reverse.arrival (b.flipped height) = (height - 1 - (d.arrival b).1, (d.arrival b).2) := by
  rw [Box.bottom] at inside
  cases d with
  | leftRight | rightLeft => cases vertical
  | topBottom | bottomTop =>
    simp only [reverse, arrival, Box.flipped, Prod.mk.injEq, and_true]
    omega

theorem route_reverse {height : Nat} {a b : Box} (insideA : a.bottom ≤ height)
    (insideB : b.bottom ≤ height) (apart : (d.departure a).1 ≠ (d.arrival b).1)
    (even : ((d.arrival b).1 - (d.departure a).1) % 2 = 0) :
    d.reverse.route (a.flipped height) (b.flipped height) =
      (d.route a b).map (Stroke.flipped height) := by
  simp only [route, departure_flipped vertical insideA, arrival_flipped vertical insideB]
  split
  · exact straight_reverse vertical height apart _
  · exact bent_reverse vertical height apart even _ _

end Vertical

end Direction

namespace Row

theorem flip_trace (height : Nat) (row : Row width) (strokes : List Stroke) :
    (row.trace .unicode strokes).relabel Style.flip =
      (row.relabel Style.flip).trace .unicode (strokes.map (Stroke.flipped height)) := by
  rw [trace, trace, List.foldl_map]
  refine (List.foldl_hom (relabel Style.flip) fun row s => ?_).symm
  have x : (s.flipped height).x = s.x := rfl
  by_cases inside : 0 ≤ s.x
  · rw [if_pos inside, if_pos (x ▸ inside), relabel_put rfl, Cell.flip_ofChar_glyph]
    rfl
  · rw [if_neg inside, if_neg (x ▸ inside)]

theorem text_replicate_blank (width : Nat) :
    text (.replicate width .blank) = List.replicate width ' ' := by
  rw [text, Vector.toList_replicate, Cell.filterMap_char?_replicate_blank]

end Row

namespace Grid

variable {g g' : Grid width height} {reach : Nat}

/-- The first rows of a grid are those of another one upside down. -/
def Mirrors (reach : Nat) (g g' : Grid width height) : Prop :=
  ∀ i, i < reach → g'.rows[i]? = (g.rows[reach - 1 - i]?).map (Row.relabel Style.flip)

theorem getElem?_rows_blank (width : Nat) {height i : Nat} (inside : i < height) :
    (blank width height).rows[i]? = some (.replicate width .blank) := by
  simp [blank, inside]

theorem mirrors_blank (fits : reach ≤ height) :
    Mirrors reach (blank width height) (blank width height) := by
  intro i below
  rw [getElem?_rows_blank width (by omega), getElem?_rows_blank width (by omega), Option.map_some,
    Row.relabel, Vector.map_replicate]
  rfl

namespace Mirrors

theorem trace (mirrors : Mirrors reach g g') {strokes strokes' : List Stroke}
    (flipped : Stroke.Mirrors reach strokes strokes') :
    Mirrors reach (g.trace .unicode strokes) (g'.trace .unicode strokes') := by
  intro i below
  rw [getElem?_rows_trace, getElem?_rows_trace, mirrors i below, flipped i below, Option.map_map,
    Option.map_map]
  congr 1
  funext row
  exact (row.flip_trace reach _).symm

theorem draw (mirrors : Mirrors reach g g') {b : Box} (three : b.height = 3)
    (inside : b.bottom ≤ reach) {label : String} (kept : ∀ c ∈ label.toList, Style.flip c = c) :
    Mirrors reach (b.draw .unicode g label) ((b.flipped reach).draw .unicode g' label) := by
  have framed := mirrors.trace (Stroke.mirrors_frame three inside)
  intro i below
  have middle : i = (b.flipped reach).y + 1 ↔ reach - 1 - i = b.y + 1 := by
    rw [Box.bottom, three] at inside
    simp only [Box.flipped, three]
    omega
  rw [Box.draw, Box.draw, write, write, getElem?_rows_mapRow, getElem?_rows_mapRow, framed i below]
  simp only [middle]
  split
  · rw [Option.map_map, Option.map_map]
    congr 1
    funext row
    rw [Function.comp_apply, Function.comp_apply, Row.relabel_write rfl, Cell.relabel_ofText kept]
    rfl
  · rfl

end Mirrors

end Grid

namespace Chart

variable {c : Chart}

/-- The boxes and, on top of them, the edges, on a grid of any size. -/
def paint (c : Chart) (style : Style) (width height : Nat) : Grid width height :=
  c.routes.foldl (Grid.trace style) (c.nodes.foldl (Node.draw style) (.blank width height))

theorem grid_eq_paint (c : Chart) (style : Style) :
    c.grid style = c.paint style c.columns c.rows := rfl

section Vertical

variable (vertical : c.direction.isHorizontal = false)
include vertical

/-- From the border of its source to that of its target an edge takes two steps. -/
theorem Stands.arrival_sub_departure {i j k : Nat} {a b : Box} (first : c.Stands i k a)
    (second : c.Stands j (k + 1) b) :
    (c.direction.arrival b).1 - (c.direction.departure a).1 =
      if c.direction.isReversed then -2 else 2 := by
  have next := first.top_next vertical second
  have deep := first.extent_along vertical
  have deep' := second.extent_along vertical
  rw [Direction.arrival_along, Direction.departure_along, deep, deep']
  simp only [Direction.position, Direction.extent, Direction.measure, vertical, Bool.false_eq_true,
    if_false, Box.bottom] at deep deep' next ⊢
  cases order : c.direction.isReversed <;>
    simp only [order, Bool.false_eq_true, if_true, if_false] at next ⊢ <;> omega

variable (stepwise : c.Stepwise)
include stepwise

/-- The edges are turned upside down, too, and keep their order. -/
theorem routes_reversed :
    c.reversed.arrange.routes = c.arrange.routes.map (List.map (Stroke.flipped c.reach)) := by
  have routes (c : Chart) : c.arrange.routes = c.edges.filterMap c.arrange.route? := rfl
  rw [routes, routes, List.map_filterMap]
  refine List.filterMap_congr fun e member => ?_
  obtain ⟨l, m, a, b, spans⟩ := exists_spans (stepwise.known e member).1 (stepwise.known e member).2
  obtain ⟨rfl, i, j, first, second⟩ := stepwise.stands member spans
  have far := first.arrival_sub_departure vertical second
  have insideA := (height_and_bottom_le vertical first.mem_placed).2
  have insideB := (height_and_bottom_le vertical second.mem_placed).2
  have apart : (c.direction.departure a).1 ≠ (c.direction.arrival b).1 := by
    split at far <;> omega
  have even : ((c.direction.arrival b).1 - (c.direction.departure a).1) % 2 = 0 := by
    rw [far]
    split <;> rfl
  rw [spans.route, Option.map_some, ← Direction.route_reverse vertical insideA insideB apart even,
    route?, box?_reversed vertical, box?_reversed vertical, spans.box, spans.box']
  rfl

/-- The reversed chart is drawn as the other one upside down. -/
theorem mirrors_paint (kept : ∀ n ∈ c.nodes, ∀ ch ∈ n.label.toList, Style.flip ch = ch)
    (width : Nat) {height : Nat} (fits : c.reach ≤ height) :
    Grid.Mirrors c.reach (c.arrange.paint .unicode width height)
      (c.reversed.arrange.paint .unicode width height) := by
  rw [paint, paint, routes_reversed vertical stepwise, nodes_reversed vertical, List.foldl_map,
    List.foldl_map]
  refine List.foldl_rel (r := Grid.Mirrors c.reach) ?_ fun strokes _ g g' mirrors =>
    mirrors.trace (Stroke.mirrors_map _ strokes)
  refine List.foldl_rel (r := Grid.Mirrors c.reach) (Grid.mirrors_blank fits) ?_
  intro n member g g' mirrors
  rw [Node.draw, Node.draw]
  cases given : n.box with
  | none => exact mirrors
  | some box =>
    obtain ⟨three, inside⟩ := height_and_bottom_le vertical
      (List.mem_filterMap.mpr ⟨n, member, given⟩)
    obtain ⟨m, known, _, _, rfl⟩ := exists_of_mem_arrange member
    exact mirrors.draw three inside (kept m known)

/-- Nothing is drawn below the lowest box. -/
theorem getElem?_rows_paint_below (style : Style) (width : Nat) {height i : Nat}
    (below : c.reach ≤ i) (inside : i < height) :
    (c.arrange.paint style width height).rows[i]? = some (.replicate width .blank) := by
  refine List.foldlRecOn (motive := fun g : Grid width height =>
    g.rows[i]? = some (.replicate width .blank)) c.arrange.routes _ ?_ fun g before strokes drawn =>
      (Grid.getElem?_rows_trace_of_lt g style fun s member => ?_).trans before
  · refine List.foldlRecOn (motive := fun g : Grid width height =>
      g.rows[i]? = some (.replicate width .blank)) c.arrange.nodes _
        (Grid.getElem?_rows_blank width inside) fun g before n member => ?_
    rw [Node.draw]
    split
    · next box given =>
      obtain ⟨three, bottom⟩ : box.height = 3 ∧ box.bottom ≤ c.reach :=
        height_and_bottom_le vertical (List.mem_filterMap.mpr ⟨n, member, given⟩)
      rw [Box.bottom, three] at bottom
      have first : (i : Int) ≠ box.y := by omega
      have second : i ≠ box.y + 1 := by omega
      have second' : (i : Int) ≠ box.y + 1 := by omega
      have third : (i : Int) ≠ box.y + 2 := by omega
      rw [Box.getElem?_rows_draw, Box.filter_frame three, before]
      simp only [if_neg first, if_neg second, if_neg second', if_neg third]
      rfl
    · exact before
  · obtain ⟨e, edge, l, m, a, b, spans, rfl⟩ := exists_spans_of_mem_routes drawn
    obtain ⟨rfl, _, _, first, second⟩ := stepwise.stands edge spans
    have rows := first.row_of_mem_route vertical second member
    have next := first.top_next vertical second
    have insideA := (height_and_bottom_le vertical first.mem_placed).2
    have insideB := (height_and_bottom_le vertical second.mem_placed).2
    simp only [Box.bottom] at rows next insideA insideB
    cases order : c.direction.isReversed <;>
      simp only [order, Bool.false_eq_true, if_true, if_false] at rows next <;> omega

end Vertical

/-- If only the direction in the header is the opposite one, the chart is the reversed one. -/
theorem read_reversed {source source' : String} {header header' : Text.Line}
    {body : List Text.Line} (lines : Text.contentLines source = header :: body)
    (lines' : Text.contentLines source' = header' :: body) {d : Direction}
    (ahead : Header.read? header.text = some d)
    (back : Header.read? header'.text = some d.reverse) (accepted : read source = .ok c) :
    c.direction = d ∧ read source' = .ok c.reversed := by
  obtain ⟨⟨d', statements⟩, parsed, rfl⟩ := read_eq_ok_iff.mp accepted
  obtain ⟨header₁, body₁, forms, lines₁, keyword, texts, meant⟩ :=
    Document.read_eq_ok_iff.mp parsed
  obtain ⟨rfl, rfl⟩ := List.cons.inj (lines.symm.trans lines₁)
  obtain rfl := Option.some.inj (ahead.symm.trans keyword)
  have described := (Document.mk d statements).describes_chart
  have described' := (Document.mk d.reverse statements).describes_chart
  refine ⟨described.direction, read_eq_ok_iff.mpr ⟨⟨d.reverse, statements⟩, ?_, ?_⟩⟩
  · exact Document.read_eq_ok_iff.mpr ⟨header', body, forms, lines', back, texts, meant⟩
  · exact described'.eq ⟨congrArg Direction.reverse described.direction, described.nodes,
      described.edges⟩

/-- What the rows of a drawing read. -/
theorem getElem?_splitOn_draw (style : Style) (one_line : c.Labelled ('\n' ∉ ·.toList))
    {width height : Nat} (columns : c.columns = width) (rows : c.rows = height) (i : Nat) :
    ((c.draw style).toList.splitOn '\n')[i]? =
      ((c.paint style width height).rows[i]?).map Row.text := by
  subst columns rows
  rw [splitOn_draw style one_line, grid_eq_paint, Grid.lines, List.getElem?_map,
    Vector.getElem?_toList]

/-- If every edge leads to the next layer, the drawing from the bottom to the top is the one from
the top to the bottom upside down, but for the two blank rows that are last in both: its rows come
in the opposite order, with corners and arrowheads turned. Labels must not hold any of these. -/
theorem upside_down {source source' : String} {header header' : Text.Line} {body : List Text.Line}
    (lines : Text.contentLines source = header :: body)
    (lines' : Text.contentLines source' = header' :: body)
    (down : Header.read? header.text = some .topBottom)
    (up : Header.read? header'.text = some .bottomTop)
    (accepted : read source = .ok c) (stepwise : c.Stepwise)
    (unmarked : ∀ n ∈ c.nodes, ∀ ch ∈ n.label.toList, ch ∉ ['┌', '┐', '└', '┘', '▲', '▼'])
    (room : Option Nat) :
    ∃ height drawing drawing',
      Flowchart.render ⟨.unicode, room⟩ source = .ok drawing ∧
      Flowchart.render ⟨.unicode, room⟩ source' = .ok drawing' ∧
      (drawing.toList.splitOn '\n').length = height + 2 ∧
      (drawing'.toList.splitOn '\n').length = height + 2 ∧
      (∀ i, height ≤ i → i < height + 2 →
        (drawing.toList.splitOn '\n')[i]? = some (List.replicate c.arrange.columns ' ') ∧
        (drawing'.toList.splitOn '\n')[i]? = some (List.replicate c.arrange.columns ' ')) ∧
      ∀ i < height, (drawing'.toList.splitOn '\n')[i]? =
        ((drawing.toList.splitOn '\n')[height - 1 - i]?).map (List.map Style.flip) := by
  obtain ⟨direction, accepted'⟩ := read_reversed lines lines' down up accepted
  have vertical : c.direction.isHorizontal = false := by rw [direction]; rfl
  have vertical' : c.reversed.direction.isHorizontal = false := by
    rw [direction_reversed, Direction.isHorizontal_reverse, vertical]
  have one_line : c.Labelled ('\n' ∉ ·.toList) := label_one_line accepted
  have one_line' : c.reversed.Labelled ('\n' ∉ ·.toList) := label_one_line accepted'
  have rows (i : Nat) := getElem?_splitOn_draw .unicode one_line.arrange rfl
    (rows_eq vertical) i
  have rows' (i : Nat) := getElem?_splitOn_draw .unicode one_line'.arrange
    (columns_reversed vertical) (rows_eq vertical') i
  rw [reach_reversed] at rows'
  refine ⟨c.reach, c.arrange.draw .unicode, c.reversed.arrange.draw .unicode, ?_, ?_, ?_, ?_, ?_, ?_⟩
  · rw [Flowchart.render, accepted]
    rfl
  · rw [Flowchart.render, accepted']
    rfl
  · rw [splitOn_draw _ one_line.arrange, Grid.length_lines, rows_eq vertical]
  · rw [splitOn_draw _ one_line'.arrange, Grid.length_lines, rows_eq vertical', reach_reversed]
  · intro i below inside
    have blank := getElem?_rows_paint_below vertical stepwise .unicode c.arrange.columns below inside
    have blank' := getElem?_rows_paint_below vertical' stepwise .unicode c.arrange.columns
      (c.reach_reversed.trans_le below) inside
    rw [rows, rows', blank, blank', Option.map_some, Row.text_replicate_blank]
    exact ⟨rfl, rfl⟩
  · intro i above
    have kept : ∀ n ∈ c.nodes, ∀ ch ∈ n.label.toList, Style.flip ch = ch := fun n member ch inside =>
      Style.flip_eq_self (unmarked n member ch inside)
    rw [rows, rows', mirrors_paint vertical stepwise kept c.arrange.columns (Nat.le_add_right _ 2) i
      above, Option.map_map, Option.map_map]
    congr 1
    funext row
    exact Row.text_relabel row

/-- Two edges that leave a node together, one of them with a bend. -/
theorem upside_down_risen :
    Text.contentLines "flowchart TB\nA --> B\nA --> C" =
      ⟨1, "flowchart TB".toList⟩ :: (Text.contentLines "flowchart BT\nA --> B\nA --> C").tail ∧
    read "flowchart TB\nA --> B\nA --> C" = .ok risen.reversed ∧ risen.reversed.Stepwise ∧
      (∀ n ∈ risen.reversed.nodes, ∀ ch ∈ n.label.toList, ch ∉ ['┌', '┐', '└', '┘', '▲', '▼']) ∧
      ∃ height drawing drawing',
        Flowchart.render .default "flowchart TB\nA --> B\nA --> C" = .ok drawing ∧
        Flowchart.render .default "flowchart BT\nA --> B\nA --> C" = .ok drawing' ∧
        (drawing.toList.splitOn '\n').length = height + 2 ∧
        ∀ i < height, (drawing'.toList.splitOn '\n')[i]? =
          ((drawing.toList.splitOn '\n')[height - 1 - i]?).map (List.map Style.flip) := by
  have lines : Text.contentLines "flowchart TB\nA --> B\nA --> C" =
      ⟨1, "flowchart TB".toList⟩ :: (Text.contentLines "flowchart BT\nA --> B\nA --> C").tail := by
    decide +kernel
  have lines' : Text.contentLines "flowchart BT\nA --> B\nA --> C" =
      ⟨1, "flowchart BT".toList⟩ :: (Text.contentLines "flowchart BT\nA --> B\nA --> C").tail := by
    decide +kernel
  have accepted : read "flowchart TB\nA --> B\nA --> C" = .ok risen.reversed := by decide +kernel
  have stepwise : risen.reversed.Stepwise := by decide +kernel
  have unmarked : ∀ n ∈ risen.reversed.nodes, ∀ ch ∈ n.label.toList,
      ch ∉ ['┌', '┐', '└', '┘', '▲', '▼'] := by
    intro n member ch inside
    have letters : risen.reversed.nodes.flatMap (·.label.toList) = ['A', 'B', 'C'] := by decide
    have letter : ch ∈ ['A', 'B', 'C'] := letters ▸ List.mem_flatMap.mpr ⟨n, member, inside⟩
    simp only [List.mem_cons, List.not_mem_nil, or_false] at letter
    rcases letter with rfl | rfl | rfl <;> decide
  obtain ⟨height, drawing, drawing', drawn, drawn', rows, _, _, turned⟩ :=
    upside_down lines lines' (by decide) (by decide) accepted stepwise unmarked none
  exact ⟨lines, accepted, stepwise, unmarked, height, drawing, drawing', drawn, drawn', rows, turned⟩

end Chart

end Flowchart
