import Flowchart.Proofs.Rows
import Flowchart.Proofs.Splicing

/-! Texts that do not fit. A text may start anywhere, and what lies beyond the end of its row is
dropped. Columns are counted in 64 bits, though: a text that comes to a column which cannot be
counted has no result, even if nothing of it would have been kept. -/
namespace Flowchart

namespace Row

variable {row : Row width} {cells : List Cell} {column i : Nat}

theorem put_of_le (outside : width ≤ column) (row : Row width) (cell : Cell) :
    row.put column cell = row := by
  apply Vector.toList_inj.mp
  apply List.ext_getElem?
  intro i
  rw [Vector.getElem?_toList, Vector.getElem?_toList]
  have here : ¬(i = column ∧ column < width) := by omega
  have uncovered : row[column]? ≠ some .covered := by simp [outside]
  have after : ¬(i = column + 1 ∧ row[i]? = some .covered) := by
    rintro ⟨rfl, covered⟩
    have := (Vector.getElem?_eq_some_iff.mp covered).1
    omega
  rw [getElem?_put, if_neg here, if_neg fun cut => uncovered cut.2, if_neg after]

theorem write_of_le (outside : width ≤ column) (row : Row width) (cells : List Cell) :
    row.write column cells = row := by
  induction cells generalizing column with
  | nil => rfl
  | cons cell cells ih => rw [write, put_of_le outside, ih (by omega)]

theorem write_append (row : Row width) (column : Nat) (cells more : List Cell) :
    row.write column (cells ++ more) =
      (row.write column cells).write (column + cells.length) more := by
  induction cells generalizing row column with
  | nil => rfl
  | cons cell cells ih =>
    rw [List.cons_append, write, ih, write, List.length_cons, Nat.add_assoc, Nat.add_comm 1]

theorem not_covered_of_le (beyond : width ≤ i) (p : Prop) :
    ¬(row[i]? = some .covered ∧ p) := by simp [beyond]

/-- A text may reach over the end of the row, unless the end cuts one of its characters. -/
theorem whole_write_clipped (whole : Cell.Whole row.toList)
    (start : ∀ i, column = i + 1 → ¬(row[i]? = some .covered ∧ row[i + 1]? = some .covered))
    (new : Cell.Whole cells) (edge : column < width → cells[width - column]? ≠ some .covered)
    (finish : ¬(row[column + cells.length]? = some .covered ∧
      row[column + cells.length + 1]? = some .covered)) :
    Cell.Whole (row.write column cells).toList := by
  rcases Nat.lt_or_ge column width with inside | outside
  · rcases Nat.lt_or_ge width (column + cells.length) with clipped | fits
    · have length : (cells.take (width - column)).length = width - column := by
        rw [List.length_take]
        omega
      have parts := List.take_append_drop (width - column) cells
      have kept : Cell.Whole (cells.take (width - column)) := by
        rw [← parts] at new
        refine (new.of_append ?_).1
        rw [List.getElem?_drop, Nat.add_zero]
        exact edge inside
      rw [← parts, write_append, write_of_le (by omega)]
      exact whole_overwrite whole kept (by omega) start (not_covered_of_le (by omega) _)
    · exact whole_overwrite whole new fits start finish
  · rwa [write_of_le outside]

end Row

namespace Grid

theorem mapRow_id (g : Grid width height) (row : Nat) : g.mapRow row (fun r => r) = g := by
  simp [mapRow]

theorem mapRow_mapRow (g : Grid width height) (row : Nat) (f f' : Row width → Row width) :
    (g.mapRow row f).mapRow row f' = g.mapRow row fun r => f' (f r) := by
  by_cases inside : row < height
  · simp [mapRow, inside]
  · simp [mapRow, inside]

/-- Outside of the cells that are written, a cell is blanked if it loses the rest of its
character. -/
theorem cell?_mapRow_write (g : Grid width height) {row column i j : Nat} {cells : List Cell}
    (outside : ¬(i = row ∧ column ≤ j ∧ j < column + cells.length)) :
    (g.mapRow row (·.write column cells)).cell? i j =
      if i = row ∧ cells ≠ [] ∧ (j + 1 = column ∧ g.cell? i column = some .covered ∨
          j = column + cells.length ∧ g.cell? i j = some .covered)
        then some .blank else g.cell? i j := by
  rw [cell?_mapRow]
  by_cases same : i = row
  · subst same
    rw [if_pos rfl]
    cases found : g.rows[i]? with
    | none => simp [cell?, found]
    | some r =>
      rw [Option.bind_some, cell?_of_getElem? found, cell?_of_getElem? found]
      by_cases empty : cells = []
      · simp [empty, Row.write]
      · have apart : j < column ∨ column + cells.length ≤ j := by omega
        rw [Row.getElem?_write_outside r empty apart]
        simp only [ne_eq, empty, not_false_eq_true, true_and]
  · simp only [same, if_false, false_and]

/-- The columns are counted one by one, but the last of them decides. -/
theorem putWords_eq (g : Grid width height) (row : Nat) {column : Nat}
    (bound : column ≤ UInt64.size) (cells : List Cell) :
    g.putWords row column cells =
      if column + cells.length ≤ UInt64.size then some (g.mapRow row (·.write column cells))
      else none := by
  induction cells generalizing g column with
  | nil =>
    rw [putWords, List.length_nil, Nat.add_zero, if_pos bound]
    exact congrArg some (mapRow_id g row).symm
  | cons cell cells ih =>
    have next : column + 1 + cells.length = column + (cells.length + 1) := by omega
    rw [putWords, List.length_cons]
    split
    · next inside =>
      have bound : column + 1 ≤ UInt64.size := inside
      rw [ih _ bound, next, mapRow_mapRow]
      rfl
    · next outside => rw [if_neg (by omega)]

theorem writeWord_eq (g : Grid width height) (row : Nat) (column : UInt64) (s : String) :
    g.writeWord row column.toNat s =
      if column.toNat + Text.displayWidth s ≤ UInt64.size then some (g.write row column.toNat s)
      else none := by
  rw [writeWord, putWords_eq g row column.toNat_lt.le, Cell.length_ofText]
  rfl

end Grid

end Flowchart
