import Flowchart.Proofs.Crossings
import Flowchart.Proofs.Rows
import Flowchart.Proofs.Splicing

/-! A box with its label. A box is drawn where no other one is, so it changes no cell outside of it
and cuts no character. Over blanks its middle row holds its label, between blanks that center it. -/
namespace Flowchart

namespace Grid

variable {g : Grid width height} {b : Box}

/-- No row of the grid has a character that is cut. -/
def Whole (g : Grid width height) : Prop := ∀ row ∈ g.rows.toList, Cell.Whole row.toList

/-- No character reaches into the cells of a box or out of them. -/
structure Clear (g : Grid width height) (b : Box) : Prop where
  inside : ∀ x y, b.Covers x y → g.cell? y x ≠ some .covered
  beside : ∀ y, b.y ≤ y → y < b.bottom → g.cell? y b.right ≠ some .covered

theorem whole_blank : (blank width height).Whole := by
  intro row member
  rw [blank, Vector.toList_replicate] at member
  rw [List.eq_of_mem_replicate member, Vector.toList_replicate]
  exact .replicate (by decide) width

/-- Where no other box is, no character is in the way. -/
theorem Enclosed.clear {boxes : List Box} (enclosed : g.Enclosed boxes) (positive : 0 < b.width)
    (apart : ∀ a ∈ boxes, ∀ x y, ¬(a.Covers x y ∧ b.Covers x y)) : g.Clear b where
  inside x y covers here := by
    obtain ⟨a, member, inA⟩ := enclosed x y here
    exact apart a member x y ⟨inA.covers, covers⟩
  beside y top bottom here := by
    obtain ⟨a, member, left, right, vertical⟩ := enclosed b.right y here
    refine apart a member (b.right - 1) y ⟨⟨?_, ?_, vertical⟩, ⟨?_, ?_, top, bottom⟩⟩ <;>
      simp only [Box.right] at * <;> omega

namespace Whole

theorem mapRow {f : Row width → Row width} (whole : g.Whole) (row : Nat)
    (keeps : ∀ r, g.rows[row]? = some r → Cell.Whole r.toList → Cell.Whole (f r).toList) :
    (g.mapRow row f).Whole := by
  rw [Grid.mapRow]
  split
  · next bound =>
    intro r member
    rw [Vector.toList_set] at member
    rcases List.mem_or_eq_of_mem_set member with old | rfl
    · exact whole r old
    · exact keeps _ (Vector.getElem?_eq_getElem bound) (whole _ (by simp))
  · exact whole

/-- Strokes over single characters of one column cut nothing. -/
theorem trace (whole : g.Whole) (style : Style) {strokes : List Stroke}
    (free : ∀ s ∈ strokes, ∀ i j : Nat, s.cell = ((j : Int), (i : Int)) →
      j < width ∧ g.cell? i j ≠ some .covered ∧ g.cell? i (j + 1) ≠ some .covered) :
    (g.trace style strokes).Whole := by
  induction strokes generalizing g with
  | nil => exact whole
  | cons s strokes ih =>
    have plotted : (g.plot s.x s.y (style.glyph s.mark)).Whole := by
      rcases g.plot_cases style s with ⟨i, j, here, set⟩ | ⟨_, same⟩
      · obtain ⟨inside, start, finish⟩ := free s List.mem_cons_self i j here
        obtain ⟨narrow, visible, _⟩ := style.glyph_plain s.mark
        rw [set, Grid.set, Cell.ofChar, if_neg visible]
        refine whole.mapRow i fun r found kept => ?_
        rw [cell?_of_getElem? found] at start finish
        exact Row.whole_put kept narrow inside start finish
      · rwa [same]
    refine ih plotted fun t member i j here => ?_
    obtain ⟨inside, start, finish⟩ := free t (List.mem_cons_of_mem s member) i j here
    exact ⟨inside, mt covered_of_covered_plot start, mt covered_of_covered_plot finish⟩

theorem write {s : String} (whole : g.Whole) {row column : Nat} (visible : '\x00' ∉ s.toList)
    (fits : column + Text.displayWidth s ≤ width) (start : g.cell? row column ≠ some .covered)
    (finish : g.cell? row (column + Text.displayWidth s) ≠ some .covered) :
    (g.write row column s).Whole := by
  refine whole.mapRow row fun r found kept => ?_
  rw [cell?_of_getElem? found, ← Cell.length_ofText] at finish
  rw [cell?_of_getElem? found] at start
  rw [← Cell.length_ofText] at fits
  exact Row.whole_write kept (.ofText visible) fits start finish

theorem displayWidth_line (whole : g.Whole) {line : List Char} (member : line ∈ g.lines) :
    Text.displayWidth (String.ofList line) = width := by
  obtain ⟨row, inside, rfl⟩ := List.mem_map.mp member
  rw [Row.text, (whole row inside).displayWidth_eq, Vector.length_toList]

end Whole

end Grid

namespace Box

variable {b : Box} {g : Grid columns rows} {label : String}

/-- The strokes of a frame are in cells of the box. -/
theorem covers_of_mem_frame (broad : 2 ≤ b.width) (high : 2 ≤ b.height) {s : Stroke}
    (member : s ∈ b.frame) {x y : Nat} (here : s.cell = ((x : Int), (y : Int))) : b.Covers x y := by
  obtain ⟨left, top⟩ := Prod.mk.inj here
  simp only [frame, right, bottom, List.mem_append, List.mem_cons, List.mem_flatMap, List.mem_map,
    List.mem_range, List.not_mem_nil, or_false] at member
  rw [Covers, right, bottom]
  rcases member with ((rfl | rfl | rfl | rfl) | ⟨_, ⟨i, bound, rfl⟩, rfl | rfl⟩) |
      ⟨_, ⟨i, bound, rfl⟩, rfl | rfl⟩ <;>
    simp only at left top <;> omega

section Draw

variable (clear : g.Clear b) (three : b.height = 3) (room : Text.displayWidth label + 2 ≤ b.width)
  (style : Style)
include clear three room

theorem whole_draw (whole : g.Whole) (visible : '\x00' ∉ label.toList) (fits : b.right ≤ columns) :
    (b.draw style g label).Whole := by
  have label_in (i : Nat) (within : i ≤ Text.displayWidth label) :
      b.Covers (b.labelColumn label + i) (b.y + 1) := by
    rw [Covers, right, bottom, labelColumn]
    omega
  have free (x y : Nat) (covers : b.Covers x y) :
      (g.trace style b.frame).cell? y x ≠ some .covered :=
    mt Grid.covered_of_covered_trace (clear.inside x y covers)
  rw [draw]
  refine (whole.trace style fun s member i j here => ?_).write visible ?_
    (free _ _ (label_in 0 (Nat.zero_le _))) (free _ _ (label_in _ (Nat.le_refl _)))
  · have covers := covers_of_mem_frame (by omega) (by omega) member here
    have start := clear.inside j i covers
    obtain ⟨left, right, vertical⟩ := covers
    refine ⟨by omega, start, ?_⟩
    rcases Nat.lt_or_ge (j + 1) b.right with before | last
    · exact clear.inside _ _ ⟨by omega, before, vertical⟩
    · have edge : j + 1 = b.right := by omega
      rw [edge]
      exact clear.beside i vertical.1 vertical.2
  · have := label_in _ (Nat.le_refl _)
    obtain ⟨_, inside, _⟩ := this
    omega

/-- Drawing a box changes no cell outside of it. -/
theorem cell?_draw_of_not_covers {x y : Nat} (outside : ¬b.Covers x y) :
    (b.draw style g label).cell? y x = g.cell? y x := by
  have framed : (g.trace style b.frame).cell? y x = g.cell? y x := by
    refine Grid.cell?_trace_of_shares fun s member k shares here => ?_
    have covers := covers_of_mem_frame (by omega) (by omega) member here
    obtain rfl | ⟨rfl, covered⟩ | ⟨rfl, covered⟩ := shares
    · exact outside covers
    · obtain ⟨left, right, vertical⟩ := covers
      rw [Covers] at outside
      have edge : b.right = k + 1 := by omega
      exact clear.beside y vertical.1 vertical.2 (edge ▸ covered)
    · exact clear.inside _ _ covers covered
  rw [draw, Grid.write, Grid.cell?_mapRow]
  split
  · next same =>
    have far : x + 1 < b.labelColumn label ∨
        b.labelColumn label + (Cell.ofText label).length < x := by
      rw [Covers, right, bottom] at outside
      rw [Cell.length_ofText, labelColumn]
      omega
    rw [← framed, Grid.cell?]
    congr 1
    funext row
    exact Row.getElem?_write_far _ far
  · exact framed

end Draw

/-- The middle row of a box up to its right border: the left border and the label between blanks. -/
def insideCells (b : Box) (style : Style) (label : String) : List Cell :=
  let blanks := b.width - Text.displayWidth label
  .shown (style.glyph .vertical) :: (List.replicate (blanks / 2 - 1) .blank ++
    (Cell.ofText label ++ List.replicate (blanks - blanks / 2 - 1) .blank))

def captionCells (b : Box) (style : Style) (label : String) : List Cell :=
  b.insideCells style label ++ [.shown (style.glyph .vertical)]

theorem length_insideCells (room : Text.displayWidth label + 2 ≤ b.width) (style : Style) :
    (b.insideCells style label).length = b.width - 1 := by
  simp only [insideCells, List.length_cons, List.length_append, List.length_replicate,
    Cell.length_ofText]
  omega

theorem length_captionCells (room : Text.displayWidth label + 2 ≤ b.width) (style : Style) :
    (b.captionCells style label).length = b.width := by
  rw [captionCells, List.length_append, length_insideCells room, List.length_singleton]
  omega

theorem whole_insideCells (visible : '\x00' ∉ label.toList) (b : Box) (style : Style) :
    Cell.Whole (b.insideCells style label) := by
  have narrow : Text.columns ' ' = 1 := by decide
  exact (Cell.Whole.replicate (style.glyph_plain .vertical).1 1).append
    ((Cell.Whole.replicate narrow _).append ((Cell.Whole.ofText visible).append (.replicate narrow _)))

theorem filterMap_char?_insideCells (visible : '\x00' ∉ label.toList) (b : Box) (style : Style) :
    (b.insideCells style label).filterMap Cell.char? =
      style.glyph .vertical ::
        (List.replicate ((b.width - Text.displayWidth label) / 2 - 1) ' ' ++
          (label.toList ++ List.replicate (b.width - Text.displayWidth label -
            (b.width - Text.displayWidth label) / 2 - 1) ' ')) := by
  simp only [insideCells, List.filterMap_cons, List.filterMap_append,
    Cell.filterMap_char?_replicate_blank, Cell.filterMap_char?_ofText visible]
  rfl

end Box

theorem Cell.uncovered_replicate_append {right : List Cell} (uncovered : right[0]? ≠ some covered)
    (n : Nat) : (List.replicate n blank ++ right)[0]? ≠ some covered := by
  cases n with
  | zero => exact uncovered
  | succ n => simp [List.replicate_succ, blank]

/-- In the middle row of a box its frame has a line at either end. -/
theorem Row.trace_middle (row : Row width) (style : Style) {b : Box} (three : b.height = 3)
    (positive : 0 < b.width) :
    row.trace style (b.frame.filter (·.y = ((b.y + 1 : Nat) : Int))) =
      (row.put b.x (.shown (style.glyph .vertical))).put (b.right - 1)
        (.shown (style.glyph .vertical)) := by
  have first : ((b.y + 1 : Nat) : Int) ≠ b.y := by omega
  have second : ((b.y + 1 : Nat) : Int) = b.y + 1 := by omega
  have last : ((b.right : Int) - 1).toNat = b.right - 1 := by omega
  have inside : 0 ≤ (b.right : Int) - 1 := by
    rw [Box.right]
    omega
  rw [Box.filter_frame three]
  simp only [if_neg first, if_pos second, Row.trace, List.foldl_cons, List.foldl_nil,
    Int.natCast_nonneg, Int.toNat_natCast, if_true, if_pos inside, last, Cell.ofChar,
    if_neg (style.glyph_plain .vertical).2.1]

/-- A box that is drawn over blanks shows its label in the middle row. -/
theorem Row.toList_caption {row : Row width} {b : Box} {label : String} {left right : List Cell}
    (parts : row.toList = left ++ (List.replicate b.width .blank ++ right))
    (place : left.length = b.x) (finish : right[0]? ≠ some .covered) (three : b.height = 3)
    (room : Text.displayWidth label + 2 ≤ b.width) (style : Style) :
    ((row.trace style (b.frame.filter (·.y = ((b.y + 1 : Nat) : Int)))).write
      (b.labelColumn label) (Cell.ofText label)).toList =
        left ++ (b.captionCells style label ++ right) := by
  let border : Cell := .shown (style.glyph .vertical)
  obtain ⟨p, half⟩ : ∃ p, (b.width - Text.displayWidth label) / 2 - 1 = p := ⟨_, rfl⟩
  obtain ⟨k, rest⟩ : ∃ k, b.width - Text.displayWidth label -
      (b.width - Text.displayWidth label) / 2 - 1 = k := ⟨_, rfl⟩
  have size : b.width = p + (Text.displayWidth label + (k + 1)) + 1 := by omega
  have first : (row.put b.x border).toList =
      left ++ border :: (List.replicate (p + (Text.displayWidth label + (k + 1))) .blank ++ right) :=
    toList_put (by rw [parts, size, List.replicate_succ, List.cons_append]) place
      Cell.blank_ne_covered (Cell.uncovered_replicate_append finish _)
  have second : ((row.put b.x border).put (b.right - 1) border).toList =
      (left ++ border :: List.replicate (p + (Text.displayWidth label + k)) .blank) ++
        border :: right := by
    refine toList_put ?_ ?_ Cell.blank_ne_covered finish
    · rw [first, ← Nat.add_assoc, ← Nat.add_assoc, ← Nat.add_assoc, List.replicate_succ']
      simp
    · simp only [List.length_append, List.length_cons, List.length_replicate, Box.right]
      omega
  rw [trace_middle row style three (by omega), Box.captionCells, Box.insideCells, half, rest]
  have third : ((row.put b.x border).put (b.right - 1) border).toList =
      (left ++ border :: .replicate p .blank) ++ (List.replicate (Text.displayWidth label) .blank ++
        (List.replicate k .blank ++ border :: right)) := by
    rw [second, ← List.replicate_append_replicate, ← List.replicate_append_replicate]
    simp only [List.append_assoc, List.cons_append]
  refine (toList_write third ?_ ?_ ?_ ?_).trans (by simp [border])
  · simp only [List.length_append, List.length_cons, List.length_replicate, Box.labelColumn]
    omega
  · rw [List.length_replicate, Cell.length_ofText]
  · exact Cell.uncovered_replicate_append (Cell.uncovered_replicate_append (by simp [border]) _) _
  · exact Cell.uncovered_replicate_append (by simp [border]) _

end Flowchart
