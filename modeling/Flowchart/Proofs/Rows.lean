import Flowchart.Proofs.Alignment

/-! The rows of a drawing, each for itself. A stroke belongs to one row, so what a row shows depends
on the strokes in it and on their order, but not on those in other rows. -/
namespace Flowchart

theorem Cell.filterMap_char?_replicate_blank (n : Nat) :
    (List.replicate n Cell.blank).filterMap Cell.char? = List.replicate n ' ' :=
  List.filterMap_replicate_of_some rfl

/-- Draws the strokes of one row, apart from those to the left of it. -/
def Row.trace (style : Style) (row : Row width) (strokes : List Stroke) : Row width :=
  strokes.foldl (fun row s =>
    if 0 ≤ s.x then row.put s.x.toNat (.ofChar (style.glyph s.mark)) else row) row

/-- The strokes of a frame of three rows, row by row. -/
theorem Box.filter_frame {b : Box} (three : b.height = 3) (row : Int) :
    b.frame.filter (·.y = row) =
      let columns := (List.range (b.width - 2)).map fun i : Nat => (b.x + 1 + i : Int)
      if row = b.y then
        ⟨b.x, row, .topLeft⟩ :: ⟨b.right - 1, row, .topRight⟩ ::
          columns.map fun x => ⟨x, row, .horizontal⟩
      else if row = b.y + 1 then [⟨b.x, row, .vertical⟩, ⟨b.right - 1, row, .vertical⟩]
      else if row = b.y + 2 then
        ⟨b.x, row, .bottomLeft⟩ :: ⟨b.right - 1, row, .bottomRight⟩ ::
          columns.map fun x => ⟨x, row, .horizontal⟩
      else [] := by
  have bottom : ((b.bottom : Nat) : Int) - 1 = b.y + 2 := by
    rw [Box.bottom, three]
    omega
  have middle : (List.range (b.height - 2)).map (fun i : Nat => (b.y + 1 + i : Int)) = [b.y + 1] := by
    rw [three]
    simp
  simp only [frame, bottom, middle, List.filter_append, List.filter_flatMap]
  by_cases first : row = b.y
  · subst first
    simp [List.filter_cons, ← List.map_eq_flatMap]
  · by_cases second : row = b.y + 1
    · subst second
      simp [List.filter_cons]
    · by_cases third : row = b.y + 2
      · subst third
        simp [List.filter_cons, ← List.map_eq_flatMap]
      · simp only [if_neg first, if_neg second, if_neg third]
        simp [List.filter_cons, Ne.symm first, Ne.symm second, Ne.symm third]

namespace Grid

variable {g : Grid width height}

theorem cell?_of_getElem? {i : Nat} {row : Row width} (found : g.rows[i]? = some row) (j : Nat) :
    g.cell? i j = row[j]? := by
  rw [cell?, found, Option.bind_some]

theorem getElem?_rows_mapRow (g : Grid width height) (row : Nat) (f : Row width → Row width)
    (i : Nat) :
    (g.mapRow row f).rows[i]? = if i = row then (g.rows[i]?).map f else g.rows[i]? := by
  unfold mapRow
  by_cases same : i = row
  · subst same
    split
    · next inside => simp [inside]
    · next outside => simp [outside]
  · rw [if_neg same]
    split
    · simp [Ne.symm same]
    · rfl

theorem getElem?_rows_plot (g : Grid width height) (style : Style) (s : Stroke) (i : Nat) :
    (g.plot s.x s.y (style.glyph s.mark)).rows[i]? =
      if s.y = i then (g.rows[i]?).map (·.trace style [s]) else g.rows[i]? := by
  simp only [plot, Row.trace, List.foldl_cons, List.foldl_nil]
  by_cases left : 0 ≤ s.x
  · by_cases top : 0 ≤ s.y
    · rw [if_pos ⟨left, top⟩, Grid.set, getElem?_rows_mapRow]
      have same : i = s.y.toNat ↔ s.y = i := by omega
      simp only [same, left, if_true]
    · rw [if_neg fun inside => top inside.2, if_neg (by omega)]
  · rw [if_neg fun inside => left inside.1]
    simp [left]

theorem getElem?_rows_trace (g : Grid width height) (style : Style) (strokes : List Stroke)
    (i : Nat) :
    (g.trace style strokes).rows[i]? =
      (g.rows[i]?).map (·.trace style (strokes.filter (·.y = i))) := by
  induction strokes generalizing g with
  | nil => simp [trace, Row.trace]
  | cons s strokes ih =>
    refine (ih _).trans ?_
    rw [getElem?_rows_plot]
    by_cases here : s.y = i
    · simp [here, Row.trace, Function.comp_def]
    · simp [here]

/-- Strokes above a row do not change it. -/
theorem getElem?_rows_trace_of_lt (g : Grid width height) (style : Style) {strokes : List Stroke}
    {i : Nat} (above : ∀ s ∈ strokes, s.y < i) : (g.trace style strokes).rows[i]? = g.rows[i]? := by
  have missed : strokes.filter (fun s => s.y = (i : Int)) = [] :=
    List.filter_eq_nil_iff.mpr fun s member => by simpa using (above s member).ne
  rw [getElem?_rows_trace, missed]
  exact Option.map_id'

end Grid

/-- What drawing a box of three rows does to a row. -/
theorem Box.getElem?_rows_draw (b : Box) (style : Style) (g : Grid columns rows) (label : String)
    (i : Nat) :
    (b.draw style g label).rows[i]? = (g.rows[i]?).map fun row =>
      let framed := row.trace style (b.frame.filter (·.y = i))
      if i = b.y + 1 then framed.write (b.labelColumn label) (Cell.ofText label)
      else framed := by
  rw [draw, Grid.write, Grid.getElem?_rows_mapRow, Grid.getElem?_rows_trace]
  split
  · rw [Option.map_map]
    rfl
  · rfl

/-- Draws the box of a node, if it has one. -/
def Node.draw (style : Style) (g : Grid columns rows) (n : Node) : Grid columns rows :=
  match n.box with
  | some box => box.draw style g n.label
  | none => g

theorem Chart.boxLayer_eq (c : Chart) (style : Style) :
    c.boxLayer style = c.nodes.foldl (Node.draw style) (.blank c.columns c.rows) := rfl

end Flowchart
