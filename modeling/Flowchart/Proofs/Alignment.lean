import Flowchart.Proofs.Arrangement
import Flowchart.Proofs.Labels
import Flowchart.Proofs.Pairing
import Flowchart.Render

/-! The rows of a drawing. Marks take one column each and labels lie within their boxes, so every
row stays aligned whatever is drawn, and splitting a drawing at its line feeds gives as many rows
as the grid has, each as wide as the grid. -/
namespace Flowchart

namespace Style

/-- A glyph takes one column, and it neither stands for a covered cell nor ends a line. -/
theorem glyph_plain (style : Style) (mark : Mark) :
    Text.columns (style.glyph mark) = 1 ∧ style.glyph mark ≠ '\x00' ∧ style.glyph mark ≠ '\n' := by
  cases mark with
  | arrow side => cases style <;> cases side <;> decide
  | _ => cases style <;> decide

end Style

namespace Grid

@[simp] theorem length_lines (g : Grid width height) : g.lines.length = height := by simp [lines]

/-- No row holds a character that ends a line. -/
def Unbroken (g : Grid width height) : Prop := ∀ row ∈ g.rows.toList, .shown '\n' ∉ row.toList

theorem unbroken_blank : (blank width height).Unbroken := by
  intro row member
  rw [blank, Vector.toList_replicate] at member
  rw [List.eq_of_mem_replicate member]
  exact Row.aligned_blank.one_line

namespace Unbroken

variable {g : Grid width height}

theorem mapRow {f : Row width → Row width} (unbroken : g.Unbroken) (row : Nat)
    (keeps : ∀ r : Row width, .shown '\n' ∉ r.toList → .shown '\n' ∉ (f r).toList) :
    (g.mapRow row f).Unbroken := by
  rw [Grid.mapRow]
  split
  · intro r member
    rw [Vector.toList_set] at member
    rcases List.mem_or_eq_of_mem_set member with old | rfl
    · exact unbroken r old
    · exact keeps _ (unbroken _ (by simp))
  · exact unbroken

theorem trace (unbroken : g.Unbroken) (style : Style) (strokes : List Stroke) :
    (g.trace style strokes).Unbroken := by
  refine List.foldlRecOn strokes _ unbroken fun g unbroken s _ => ?_
  rw [Grid.plot]
  split
  · refine unbroken.mapRow _ fun r whole member => ?_
    obtain ⟨_, visible, one_line⟩ := style.glyph_plain s.mark
    rcases Row.mem_put member with new | blank | old
    · rw [Cell.ofChar, if_neg visible] at new
      exact one_line (Cell.shown.inj new).symm
    · cases blank
    · exact whole old
  · exact unbroken

theorem write {s : String} (unbroken : g.Unbroken) (row column : Nat)
    (one_line : '\n' ∉ s.toList) : (g.write row column s).Unbroken := by
  refine unbroken.mapRow row fun r whole member => ?_
  rcases Row.mem_write member with new | blank | old
  · exact one_line (Cell.mem_of_shown_mem_ofText new)
  · cases blank
  · exact whole old

theorem splitOn_render (unbroken : g.Unbroken) (positive : 0 < height) :
    g.render.toList.splitOn '\n' = g.lines := by
  rw [render, String.toList_ofList]
  apply List.splitOn_intercalate '\n'
  · intro line member
    obtain ⟨row, inside, rfl⟩ := List.mem_map.mp member
    exact Row.not_mem_text (unbroken row inside)
  · apply List.ne_nil_of_length_pos
    rwa [length_lines]

end Unbroken

def Aligned (g : Grid width height) : Prop := ∀ row ∈ g.rows.toList, row.Aligned

theorem aligned_blank : (blank width height).Aligned := by
  intro row member
  rw [blank, Vector.toList_replicate] at member
  rw [List.eq_of_mem_replicate member]
  exact Row.aligned_blank

namespace Aligned

variable {g : Grid width height}

theorem mapRow {f : Row width → Row width} (aligned : g.Aligned) (row : Nat)
    (keeps : ∀ r : Row width, r.Aligned → (f r).Aligned) : (g.mapRow row f).Aligned := by
  rw [Grid.mapRow]
  split
  · intro r member
    rw [Vector.toList_set] at member
    rcases List.mem_or_eq_of_mem_set member with old | rfl
    · exact aligned r old
    · exact keeps _ (aligned _ (by simp))
  · exact aligned

theorem plot (aligned : g.Aligned) (style : Style) (s : Stroke) :
    (g.plot s.x s.y (style.glyph s.mark)).Aligned := by
  rw [Grid.plot]
  split
  · obtain ⟨narrow, visible, one_line⟩ := style.glyph_plain s.mark
    exact aligned.mapRow _ fun r whole => whole.put _ visible narrow one_line
  · exact aligned

theorem trace (aligned : g.Aligned) (style : Style) (strokes : List Stroke) :
    (g.trace style strokes).Aligned := by
  rw [Grid.trace]
  induction strokes generalizing g with
  | nil => exact aligned
  | cons s strokes ih => exact ih (aligned.plot style s)

theorem write {row column : Nat} {s : String} (aligned : g.Aligned)
    (paired : Cell.Paired (Cell.ofText s)) (one_line : '\n' ∉ s.toList)
    (fits : column + Text.displayWidth s ≤ width) : (g.write row column s).Aligned := by
  refine aligned.mapRow row fun r whole => ?_
  refine whole.write paired (fun member => one_line (Cell.mem_of_shown_mem_ofText member)) ?_
  rw [Cell.length_ofText]
  exact .inl fits

theorem displayWidth_line (aligned : g.Aligned) {line : List Char} (member : line ∈ g.lines) :
    Text.displayWidth (String.ofList line) = width := by
  obtain ⟨row, inside, rfl⟩ := List.mem_map.mp member
  exact (aligned row inside).displayWidth_text

theorem unbroken (aligned : g.Aligned) : g.Unbroken := fun row member =>
  (aligned row member).one_line

theorem splitOn_render (aligned : g.Aligned) (positive : 0 < height) :
    g.render.toList.splitOn '\n' = g.lines :=
  aligned.unbroken.splitOn_render positive

end Aligned

end Grid

/-- A label that a grid can hold: in one line, without the character that stands for a covered
cell, and without the only character of three columns. -/
structure Text.Plain (label : String) : Prop where
  visible : '\x00' ∉ label.toList
  narrow : '\u17D8' ∉ label.toList
  one_line : '\n' ∉ label.toList

theorem Text.Plain.paired {label : String} (plain : Plain label) :
    Cell.Paired (Cell.ofText label) := by
  refine Cell.paired_ofText plain.visible fun c member => ?_
  have other : c.toNat ≠ 0x17D8 := by
    intro same
    have : c = '\u17D8' := Char.ext (UInt32.toNat_inj.mp same)
    exact plain.narrow (this ▸ member)
  rw [columns, if_neg other]
  split <;> omega

theorem Box.aligned_draw {g : Grid columns rows} {b : Box} {label : String} (style : Style)
    (aligned : g.Aligned) (plain : Text.Plain label) (room : Text.displayWidth label ≤ b.width)
    (inside : b.right ≤ columns) : (b.draw style g label).Aligned := by
  refine (aligned.trace style b.frame).write plain.paired plain.one_line ?_
  rw [right] at inside
  rw [labelColumn]
  omega

namespace Chart

variable {c : Chart}

/-- Every node with a box has a label that fits into it. -/
def Roomy (c : Chart) : Prop :=
  ∀ n ∈ c.nodes, ∀ box, n.box = some box → Text.displayWidth n.label ≤ box.width

theorem right_le_columns {box : Box} (placed : box ∈ c.placed) : box.right ≤ c.columns :=
  Nat.le_trans (List.le_max?_getD_of_mem (List.mem_map_of_mem placed)) (Nat.le_add_right _ 2)

theorem aligned_boxLayer (style : Style) (plain : c.Labelled Text.Plain) (roomy : c.Roomy) :
    (c.boxLayer style).Aligned := by
  refine List.foldlRecOn c.nodes _ Grid.aligned_blank fun g aligned n member => ?_
  split
  · next box given =>
    have placed : box ∈ c.placed := List.mem_filterMap.mpr ⟨n, member, given⟩
    exact box.aligned_draw style aligned (plain n member) (roomy n member box given)
      (right_le_columns placed)
  · exact aligned

theorem aligned_grid (style : Style) (plain : c.Labelled Text.Plain) (roomy : c.Roomy) :
    (c.grid style).Aligned := by
  have boxes := aligned_boxLayer style plain roomy
  exact List.foldlRecOn c.routes _ boxes fun g aligned strokes _ => aligned.trace style strokes

theorem unbroken_boxLayer (style : Style) (one_line : c.Labelled ('\n' ∉ ·.toList)) :
    (c.boxLayer style).Unbroken := by
  refine List.foldlRecOn c.nodes _ Grid.unbroken_blank fun g unbroken n member => ?_
  split
  · next box _ => exact (unbroken.trace style box.frame).write _ _ (one_line n member)
  · exact unbroken

theorem unbroken_grid (style : Style) (one_line : c.Labelled ('\n' ∉ ·.toList)) :
    (c.grid style).Unbroken :=
  List.foldlRecOn c.routes _ (unbroken_boxLayer style one_line) fun _ unbroken strokes _ =>
    unbroken.trace style strokes

/-- The drawing is read row by row. -/
theorem splitOn_draw (style : Style) (one_line : c.Labelled ('\n' ∉ ·.toList)) :
    (c.draw style).toList.splitOn '\n' = (c.grid style).lines :=
  (unbroken_grid style one_line).splitOn_render (Nat.succ_pos _)

theorem exists_of_mem_arrange {n : Node} (member : n ∈ c.arrange.nodes) :
    ∃ m ∈ c.nodes, ∃ box, box.width = m.width ∧ n = { m with box := some box } := by
  obtain ⟨i, found⟩ := List.mem_iff_getElem?.mp member
  obtain ⟨m, place, known, _, rfl⟩ := exists_of_getElem?_arrange found
  refine ⟨m, List.mem_of_getElem? known, _, ?_, rfl⟩
  cases c.direction <;> rfl

theorem roomy_arrange (c : Chart) : c.arrange.Roomy := by
  intro n member box given
  obtain ⟨m, _, own, size, rfl⟩ := exists_of_mem_arrange member
  obtain rfl := Option.some.inj given
  have := Nat.le_max_left (Text.displayWidth m.label + 2) 5
  show Text.displayWidth m.label ≤ own.width
  rw [size, Node.width]
  omega

theorem Labelled.arrange {p : String → Prop} (labelled : c.Labelled p) : c.arrange.Labelled p := by
  intro n member
  obtain ⟨m, old, box, _, rfl⟩ := exists_of_mem_arrange member
  exact labelled m old

/-- Splitting the drawing of an accepted source at its line feeds gives two rows more than the
lowest box reaches down, and each row takes two columns more than the rightmost box reaches. This
holds for any strokes on top of the boxes, also for those that hit half of a wide character. -/
theorem render_aligned (options : Options) {source : String} {c : Chart}
    (accepted : read source = .ok c)
    (plain : ∀ n ∈ c.nodes, '\x00' ∉ n.label.toList ∧ '\u17D8' ∉ n.label.toList) :
    ∃ drawing, render options source = .ok drawing ∧
      (drawing.toList.splitOn '\n').length = (c.arrange.placed.map Box.bottom).max?.getD 0 + 2 ∧
      (∀ row ∈ drawing.toList.splitOn '\n', Text.displayWidth (String.ofList row) =
        (c.arrange.placed.map Box.right).max?.getD 0 + 2) ∧
      ∀ strokes, ∀ row ∈ ((c.arrange.boxLayer options.style).trace options.style strokes).lines,
        Text.displayWidth (String.ofList row) =
          (c.arrange.placed.map Box.right).max?.getD 0 + 2 := by
  have labelled : c.arrange.Labelled Text.Plain := Labelled.arrange fun n member =>
    ⟨(plain n member).1, (plain n member).2, label_one_line accepted n member⟩
  have aligned := aligned_grid options.style labelled (roomy_arrange c)
  have rows := aligned.splitOn_render (Nat.succ_pos _)
  refine ⟨c.arrange.draw options.style, ?_, ?_, ?_, ?_⟩
  · rw [Flowchart.render, accepted]
    rfl
  · rw [draw, rows, Grid.length_lines]
    rfl
  · intro row member
    rw [draw, rows] at member
    exact aligned.displayWidth_line member
  · intro strokes row member
    have boxes := aligned_boxLayer options.style labelled (roomy_arrange c)
    exact (boxes.trace options.style strokes).displayWidth_line member

/-- The edge runs over both characters of the label. -/
theorem render_aligned_wide :
    ∃ c : Chart, read "flowchart LR\nA[世界] --> A" = .ok c ∧
      (∀ n ∈ c.nodes, '\x00' ∉ n.label.toList ∧ '\u17D8' ∉ n.label.toList) ∧
      ∃ drawing, Flowchart.render .default "flowchart LR\nA[世界] --> A" = .ok drawing ∧
        (drawing.toList.splitOn '\n').length = 5 ∧
        ∀ row ∈ drawing.toList.splitOn '\n', Text.displayWidth (String.ofList row) = 8 := by
  let c : Chart := ⟨.leftRight, [⟨"A", "世界", none⟩], [⟨"A", "A"⟩], by decide⟩
  have accepted : read "flowchart LR\nA[世界] --> A" = .ok c := by decide +kernel
  have plain : ∀ n ∈ c.nodes, '\x00' ∉ n.label.toList ∧ '\u17D8' ∉ n.label.toList := by decide
  have placed : c.arrange.placed = [⟨0, 0, 6, 3⟩] := by decide +kernel
  obtain ⟨drawing, drawn, rows, columns, _⟩ := render_aligned .default accepted plain
  rw [placed] at rows columns
  exact ⟨c, accepted, plain, drawing, drawn, rows, columns⟩

end Chart

end Flowchart
