import Flowchart.Proofs.Alignment

/-! The two styles draw the same picture. Every mark goes to the same cell in both, so the plain
drawing is the other one with each glyph exchanged for its plain character, where a glyph was shown
whole, in part or not at all any more. Labels must not hold glyphs of their own. -/
namespace Flowchart

theorem map_intercalate (f : α → β) (sign : List α) (ps : List (List α)) :
    (List.intercalate sign ps).map f = List.intercalate (sign.map f) (ps.map (List.map f)) := by
  induction ps with
  | nil => rfl
  | cons p ps ih =>
    cases ps with
    | nil => simp
    | cons q ps =>
      rw [List.intercalate_cons_cons, List.map_append, List.map_append, ih, List.map_cons,
        List.map_cons, List.map_cons, List.intercalate_cons_cons]

namespace Style

/-- The plain character for a glyph. All other characters stay. -/
def plain : Char → Char
  | '┌' | '┐' | '└' | '┘' => '+'
  | '─' => '-'
  | '│' => '|'
  | '▶' => '>'
  | '◀' => '<'
  | '▼' => 'v'
  | '▲' => '^'
  | c => c

@[simp] theorem plain_glyph (mark : Mark) : plain (unicode.glyph mark) = ascii.glyph mark := by
  cases mark with
  | arrow side => cases side <;> rfl
  | _ => rfl

theorem plain_eq_self {c : Char} (other : ∀ mark, unicode.glyph mark ≠ c) : plain c = c := by
  unfold plain
  split
  · exact absurd rfl (other .topLeft)
  · exact absurd rfl (other .topRight)
  · exact absurd rfl (other .bottomLeft)
  · exact absurd rfl (other .bottomRight)
  · exact absurd rfl (other .horizontal)
  · exact absurd rfl (other .vertical)
  · exact absurd rfl (other (.arrow .right))
  · exact absurd rfl (other (.arrow .left))
  · exact absurd rfl (other (.arrow .below))
  · exact absurd rfl (other (.arrow .above))
  · rfl

end Style

namespace Cell

/-- Exchanges the character that a cell shows. -/
def relabel (f : Char → Char) : Cell → Cell
  | shown c => shown (f c)
  | covered => covered

@[simp] theorem relabel_eq_covered_iff {f : Char → Char} {cell : Cell} :
    cell.relabel f = covered ↔ cell = covered := by
  cases cell <;> simp [relabel]

theorem relabel_ofText {f : Char → Char} {s : String} (kept : ∀ c ∈ s.toList, f c = c) :
    (ofText s).map (relabel f) = ofText s := by
  have fixed : ∀ cell ∈ ofText s, cell.relabel f = cell := by
    intro cell member
    cases cell with
    | shown c => rw [relabel, kept c (mem_of_shown_mem_ofText member)]
    | covered => rfl
  rw [List.map_congr_left fixed, List.map_id']

theorem relabel_ofChar_glyph (mark : Mark) :
    (ofChar (Style.unicode.glyph mark)).relabel Style.plain = ofChar (Style.ascii.glyph mark) := by
  rw [ofChar, ofChar, if_neg (Style.glyph_plain _ mark).2.1, if_neg (Style.glyph_plain _ mark).2.1,
    relabel, Style.plain_glyph]

end Cell

namespace Row

variable {f : Char → Char}

def relabel (f : Char → Char) (row : Row width) : Row width := row.map (Cell.relabel f)

theorem getElem?_relabel_eq_covered_iff (row : Row width) (column : Nat) :
    (row.relabel f)[column]? = some .covered ↔ row[column]? = some .covered := by
  simp [relabel]

theorem relabel_setIfInBounds (row : Row width) (column : Nat) (cell : Cell) :
    relabel f (row.setIfInBounds column cell) =
      (relabel f row).setIfInBounds column (cell.relabel f) :=
  Vector.map_setIfInBounds

/-- What is blanked around a cell depends on which cells are covered, and those stay the same. -/
theorem relabel_put (blank : f ' ' = ' ') (row : Row width) (column : Nat) (cell : Cell) :
    (row.put column cell).relabel f = (row.relabel f).put column (cell.relabel f) := by
  have blank : Cell.blank.relabel f = .blank := congrArg Cell.shown blank
  have before (row : Row width) :
      (row.clearBefore column).relabel f = (row.relabel f).clearBefore column := by
    simp only [clearBefore, getElem?_relabel_eq_covered_iff]
    split
    · rw [relabel_setIfInBounds, blank]
    · rfl
  have after (row : Row width) :
      (row.uncover (column + 1)).relabel f = (row.relabel f).uncover (column + 1) := by
    simp only [uncover, getElem?_relabel_eq_covered_iff]
    split
    · rw [relabel_setIfInBounds, blank]
    · rfl
  rw [put, put, relabel_setIfInBounds, after, before]

theorem relabel_write (blank : f ' ' = ' ') (row : Row width) (column : Nat)
    (cells : List Cell) :
    (row.write column cells).relabel f =
      (row.relabel f).write column (cells.map (Cell.relabel f)) := by
  induction cells generalizing row column with
  | nil => rfl
  | cons cell cells ih => rw [write, ih, relabel_put blank, List.map_cons, write]

theorem text_relabel (row : Row width) : (row.relabel f).text = row.text.map f := by
  rw [text, text, relabel, Vector.toList_map, List.filterMap_map, List.map_filterMap]
  refine List.filterMap_congr fun cell _ => ?_
  cases cell <;> rfl

end Row

namespace Grid

variable {f : Char → Char}

def relabel (f : Char → Char) (g : Grid width height) : Grid width height :=
  ⟨g.rows.map (Row.relabel f)⟩

theorem relabel_mapRow {h h' : Row width → Row width}
    (commute : ∀ row : Row width, (h row).relabel f = h' (row.relabel f)) (g : Grid width height)
    (row : Nat) : (g.mapRow row h).relabel f = (g.relabel f).mapRow row h' := by
  unfold mapRow
  split
  · simp [relabel, commute]
  · rfl

theorem relabel_blank (blank : f ' ' = ' ') :
    (Grid.blank width height).relabel f = Grid.blank width height := by
  have cell : Cell.blank.relabel f = .blank := congrArg Cell.shown blank
  simp [relabel, Row.relabel, Grid.blank, cell]

theorem render_relabel (line : f '\n' = '\n') (g : Grid width height) :
    (g.relabel f).render = g.render.map f := by
  have lines : (g.relabel f).lines = g.lines.map (List.map f) := by
    simp [Grid.lines, relabel, Vector.toList_map, Function.comp_def, Row.text_relabel]
  apply String.toList_inj.mp
  rw [render, render, String.toList_map, String.toList_ofList, String.toList_ofList, lines,
    map_intercalate, List.map_singleton, line]

theorem relabel_plot (g : Grid width height) (x y : Int) (mark : Mark) :
    (g.plot x y (Style.unicode.glyph mark)).relabel Style.plain =
      (g.relabel Style.plain).plot x y (Style.ascii.glyph mark) := by
  rw [plot, plot]
  split
  · refine relabel_mapRow (fun r => ?_) g _
    rw [Row.relabel_put rfl, Cell.relabel_ofChar_glyph]
  · rfl

theorem relabel_trace (g : Grid width height) (strokes : List Stroke) :
    (g.trace .unicode strokes).relabel Style.plain =
      (g.relabel Style.plain).trace .ascii strokes :=
  (List.foldl_hom (relabel Style.plain) fun g s => (g.relabel_plot s.x s.y s.mark).symm).symm

theorem relabel_write {s : String} (blank : f ' ' = ' ') (kept : ∀ c ∈ s.toList, f c = c)
    (g : Grid width height) (row column : Nat) :
    (g.write row column s).relabel f = (g.relabel f).write row column s := by
  refine relabel_mapRow (fun r => ?_) g row
  rw [Row.relabel_write blank, Cell.relabel_ofText kept]

end Grid

/-- No character of a label is a glyph. -/
def Text.Unmarked (label : String) : Prop := ∀ mark, Style.unicode.glyph mark ∉ label.toList

theorem Box.relabel_draw {label : String} (unmarked : Text.Unmarked label) (b : Box)
    (g : Grid columns rows) :
    (b.draw .unicode g label).relabel Style.plain = b.draw .ascii (g.relabel Style.plain) label := by
  have kept : ∀ c ∈ label.toList, Style.plain c = c := by
    intro c member
    exact Style.plain_eq_self fun mark same => unmarked mark (same ▸ member)
  rw [draw, draw, Grid.relabel_write rfl kept, Grid.relabel_trace]

namespace Chart

variable {c : Chart}

theorem relabel_boxLayer (unmarked : c.Labelled Text.Unmarked) :
    (c.boxLayer .unicode).relabel Style.plain = c.boxLayer .ascii := by
  refine List.foldl_rel (r := fun g g' => Grid.relabel Style.plain g = g') (Grid.relabel_blank rfl) ?_
  rintro n member g _ rfl
  cases n.box with
  | none => rfl
  | some box => exact box.relabel_draw (unmarked n member) g

theorem relabel_grid (unmarked : c.Labelled Text.Unmarked) :
    (c.grid .unicode).relabel Style.plain = c.grid .ascii := by
  rw [grid, grid, ← relabel_boxLayer unmarked]
  exact (List.foldl_hom (Grid.relabel Style.plain) fun g s => (g.relabel_trace s).symm).symm

/-- The plain drawing of a chart, however its boxes lie and its edges run, is the other one with
each glyph exchanged for its plain character. -/
theorem draw_ascii (c : Chart)
    (unmarked : ∀ n ∈ c.nodes, ∀ mark, Style.unicode.glyph mark ∉ n.label.toList) :
    c.draw .ascii = (c.draw .unicode).map Style.plain := by
  rw [draw, draw, ← relabel_grid unmarked, Grid.render_relabel rfl]

/-- A frame and a bent edge that lie upon wide characters. -/
theorem draw_ascii_overlapping :
    let c : Chart :=
      { direction := .topBottom
        nodes := [⟨"A", "世界語", some ⟨3, 1, 8, 3⟩⟩, ⟨"B", "+", some ⟨0, 0, 5, 3⟩⟩]
        edges := [⟨"B", "A"⟩]
        distinct := by decide }
    (∀ n ∈ c.nodes, ∀ mark, Style.unicode.glyph mark ∉ n.label.toList) ∧
      c.draw .ascii = (c.draw .unicode).map Style.plain := by
  intro c
  have unmarked : ∀ n ∈ c.nodes, ∀ mark, Style.unicode.glyph mark ∉ n.label.toList := by
    intro n member mark
    simp only [c, List.mem_cons, List.not_mem_nil, or_false] at member
    rcases member with rfl | rfl
    all_goals
      cases mark with
      | arrow side => cases side <;> decide
      | _ => decide
  exact ⟨unmarked, c.draw_ascii unmarked⟩

end Chart

end Flowchart
