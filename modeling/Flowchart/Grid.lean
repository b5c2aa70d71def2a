import Flowchart.Text.Columns

/-! A grid of character cells. A character of several columns is shown in its first cell and covers
the cells after it. Writing over one of these cells blanks the neighbours that would be left
without the rest of their character. Writes outside the grid are dropped. -/
namespace Flowchart

inductive Cell where
  | shown (c : Char)
  /-- Covered by the character that is shown to the left. -/
  | covered
  deriving DecidableEq, Repr

namespace Cell

def blank : Cell := shown ' '

/-- The null character stands for a covered cell. -/
def ofChar (c : Char) : Cell := if c = '\x00' then covered else shown c

def char? : Cell → Option Char
  | shown c => some c
  | covered => none

/-- The cells that a text takes up when it is written in a row. -/
def ofText (s : String) : List Cell :=
  s.toList.flatMap fun c => ofChar c :: List.replicate (Text.columns c - 1) covered

theorem length_ofText (s : String) : (ofText s).length = Text.displayWidth s := by
  unfold ofText Text.displayWidth
  induction s.toList with
  | nil => rfl
  | cons c cs ih =>
    have := Text.columns_pos c
    simp only [List.flatMap_cons, List.length_append, List.length_cons, List.length_replicate,
      List.map_cons, List.foldr_cons, ih]
    omega

end Cell

abbrev Row (width : Nat) := Vector Cell width

namespace Row

/-- Blanks the cell to the left of a covered one. -/
def clearBefore (row : Row width) (column : Nat) : Row width :=
  if row[column]? = some .covered ∧ 0 < column then row.setIfInBounds (column - 1) .blank else row

/-- Blanks a covered cell. -/
def uncover (row : Row width) (column : Nat) : Row width :=
  if row[column]? = some .covered then row.setIfInBounds column .blank else row

/-- Puts a cell at a column. If the old cell there was covered, the cell to its left is blanked;
if the cell to its right is covered, it is blanked, too. -/
def put (row : Row width) (column : Nat) (cell : Cell) : Row width :=
  ((row.clearBefore column).uncover (column + 1)).setIfInBounds column cell

/-- Puts cells one after another, from a column on. -/
def write (row : Row width) (column : Nat) : List Cell → Row width
  | [] => row
  | cell :: cells => (row.put column cell).write (column + 1) cells

def text (row : Row width) : List Char := row.toList.filterMap Cell.char?

theorem getElem?_clearBefore (row : Row width) (column i : Nat) :
    (row.clearBefore column)[i]? =
      if i + 1 = column ∧ row[column]? = some .covered then some .blank else row[i]? := by
  unfold clearBefore
  split
  · next old =>
    have inside : column < width := by
      have := Vector.getElem?_eq_some_iff.mp old.1
      exact this.1
    rw [Vector.getElem?_setIfInBounds]
    by_cases before : i + 1 = column
    · rw [if_pos (by omega), if_pos (by omega), if_pos ⟨before, old.1⟩]
    · rw [if_neg (by omega), if_neg fun h => before h.1]
  · next old =>
    rw [if_neg]
    rintro ⟨before, covered⟩
    exact old ⟨covered, by omega⟩

theorem getElem?_uncover (row : Row width) (column i : Nat) :
    (row.uncover column)[i]? =
      if i = column ∧ row[i]? = some .covered then some .blank else row[i]? := by
  unfold uncover
  split
  · next old =>
    rw [Vector.getElem?_setIfInBounds]
    by_cases same : column = i
    · subst same
      rw [if_pos rfl, if_pos (Vector.getElem?_eq_some_iff.mp old).1, if_pos ⟨rfl, old⟩]
    · rw [if_neg same, if_neg fun h => same h.1.symm]
  · next old =>
    rw [if_neg]
    rintro ⟨rfl, covered⟩
    exact old covered

/-- What a row holds after a cell has been put: the cell, a blank on either side where a neighbour
lost the rest of its character, and what it held before elsewhere. -/
theorem getElem?_put (row : Row width) (column : Nat) (cell : Cell) (i : Nat) :
    (row.put column cell)[i]? =
      if i = column ∧ column < width then some cell
      else if i + 1 = column ∧ row[column]? = some .covered then some .blank
      else if i = column + 1 ∧ row[i]? = some .covered then some .blank
      else row[i]? := by
  unfold put
  rw [Vector.getElem?_setIfInBounds, getElem?_uncover, getElem?_clearBefore]
  by_cases same : column = i
  · subst same
    by_cases inside : column < width
    · simp [inside]
    · simp [inside]
  · have here : ¬(i = column ∧ column < width) := fun h => same h.1.symm
    rw [if_neg same, if_neg here]
    by_cases after : i = column + 1
    · have apart : ¬(i + 1 = column ∧ row[column]? = some .covered) := fun h => by omega
      simp only [apart, if_false]
    · simp only [after, false_and, if_false]

end Row

structure Grid (width height : Nat) where
  rows : Vector (Row width) height
  deriving DecidableEq, Repr

namespace Grid

def blank (width height : Nat) : Grid width height := ⟨.replicate height (.replicate width .blank)⟩

/-- The cell in a row and a column. -/
def cell? (g : Grid width height) (row column : Nat) : Option Cell :=
  (g.rows[row]?).bind (·[column]?)

def mapRow (g : Grid width height) (row : Nat) (f : Row width → Row width) : Grid width height :=
  if h : row < height then ⟨g.rows.set row (f g.rows[row])⟩ else g

def set (g : Grid width height) (row column : Nat) (c : Char) : Grid width height :=
  g.mapRow row (·.put column (.ofChar c))

/-- As `set`, for coordinates that may lie to the left of the grid or above it. -/
def plot (g : Grid width height) (x y : Int) (c : Char) : Grid width height :=
  if 0 ≤ x ∧ 0 ≤ y then g.set y.toNat x.toNat c else g

/-- Writes a text from a column on. -/
def write (g : Grid width height) (row column : Nat) (s : String) : Grid width height :=
  g.mapRow row (·.write column (Cell.ofText s))

/-- Puts cells one after another, in columns that are counted in 64 bits. There is no result if one
of the columns cannot be counted, even in a row that is not in the grid. -/
def putWords (g : Grid width height) (row column : Nat) : List Cell → Option (Grid width height)
  | [] => some g
  | cell :: cells =>
    if column < UInt64.size then
      (g.mapRow row (·.put column cell)).putWords row (column + 1) cells
    else none

/-- As `write`, with columns that are counted in 64 bits. -/
def writeWord (g : Grid width height) (row column : Nat) (s : String) :
    Option (Grid width height) :=
  g.putWords row column (Cell.ofText s)

theorem cell?_mapRow (g : Grid width height) (row : Nat) (f : Row width → Row width)
    (i j : Nat) :
    (g.mapRow row f).cell? i j =
      if i = row then (g.rows[i]?).bind fun r => (f r)[j]? else g.cell? i j := by
  unfold mapRow cell?
  by_cases same : i = row
  · subst same
    split
    · next inside => simp [inside]
    · next outside => simp [outside]
  · rw [if_neg same]
    split
    · simp [Ne.symm same]
    · rfl

/-- What a grid holds after a character has been set: the character, a blank on either side where
a neighbour lost the rest of its character, and what it held before elsewhere. -/
theorem cell?_set (g : Grid width height) (row column : Nat) (c : Char) (i j : Nat) :
    (g.set row column c).cell? i j =
      if i = row ∧ j = column ∧ row < height ∧ column < width then some (.ofChar c)
      else if i = row ∧ j + 1 = column ∧ g.cell? row column = some .covered then some .blank
      else if i = row ∧ j = column + 1 ∧ g.cell? i j = some .covered then some .blank
      else g.cell? i j := by
  rw [set, cell?_mapRow]
  by_cases same : i = row
  · subst same
    by_cases inside : i < height
    · simp [cell?, inside, Row.getElem?_put]
    · simp [cell?, inside]
  · simp [same]

theorem cell?_blank (width height i j : Nat) :
    (blank width height).cell? i j = if i < height ∧ j < width then some .blank else none := by
  by_cases inside : i < height <;> simp [cell?, blank, Vector.getElem?_replicate, inside]

/-- The rows from top to bottom, without the covered cells. -/
def lines (g : Grid width height) : List (List Char) := g.rows.toList.map Row.text

def render (g : Grid width height) : String := String.ofList (List.intercalate ['\n'] g.lines)

end Grid

end Flowchart
