import Flowchart.Proofs.Captions

/-! Boxes show their labels. They are drawn one after another, each where no other one is, so each
stays as it is when others are drawn later. Without edges a drawing shows all of them like this:
every row is as wide as the drawing, and the middle row of a box holds its label. -/
namespace Flowchart

/-- A node has a box that fits its label, within a drawing. -/
structure Node.Placed (n : Node) (columns rows : Nat) (b : Box) : Prop where
  given : n.box = some b
  three : b.height = 3
  room : Text.displayWidth n.label + 2 ≤ b.width
  right : b.right ≤ columns
  bottom : b.bottom ≤ rows

/-- The boxes of two nodes have no cell in common. -/
def Node.Apart (n m : Node) : Prop :=
  ∀ a b, n.box = some a → m.box = some b → ∀ x y, ¬(a.Covers x y ∧ b.Covers x y)

namespace Node

variable {n : Node} {g : Grid columns rows} {b : Box}

theorem Placed.draw (placed : n.Placed columns rows b) (style : Style) (g : Grid columns rows) :
    n.draw style g = b.draw style g n.label := by
  rw [Node.draw, placed.given]

/-- The cells of a box that is drawn over blanks, in its middle row. -/
theorem Placed.cell?_draw (placed : n.Placed columns rows b) (clear : g.Clear b)
    (blank : ∀ x y, b.Covers x y → g.cell? y x = some .blank) (style : Style) {i : Nat}
    (within : i < b.width) :
    (n.draw style g).cell? (b.y + 1) (b.x + i) = (b.captionCells style n.label)[i]? := by
  obtain ⟨given, three, room, right, bottom⟩ := placed
  rw [Box.right] at right
  rw [Box.bottom] at bottom
  obtain ⟨row, found⟩ : ∃ row, g.rows[b.y + 1]? = some row :=
    ⟨_, Vector.getElem?_eq_getElem (by omega)⟩
  have cell := Grid.cell?_of_getElem? found
  have start : (row.toList.take b.x).length = b.x := by
    rw [List.length_take, Vector.length_toList]
    omega
  have parts : row.toList = row.toList.take b.x ++ (List.replicate b.width .blank ++
      row.toList.drop (b.x + (List.replicate b.width Cell.blank).length)) := by
    refine row.toList_eq_of_getElem? _ (by rwa [List.length_replicate]) fun j bound => ?_
    rw [List.length_replicate] at bound
    rw [← cell, blank _ _ ⟨by omega, by rw [Box.right]; omega, by omega, by rw [Box.bottom]; omega⟩,
      List.getElem?_replicate_of_lt bound]
  have finish : (row.toList.drop (b.x + (List.replicate b.width Cell.blank).length))[0]? ≠
      some .covered := by
    rw [List.getElem?_drop, List.length_replicate, Nat.add_zero, Vector.getElem?_toList, ← cell]
    exact clear.beside _ (by omega) (by rw [Box.bottom]; omega)
  have drawn := Row.toList_caption parts start finish three room style
  rw [Node.draw, given]
  simp only [Grid.cell?, Box.getElem?_rows_draw, found, Option.map_some, Option.bind_some, if_true]
  rw [← Vector.getElem?_toList, drawn, List.getElem?_append_right (by omega), start,
    Nat.add_sub_cancel_left, List.getElem?_append_left (by rwa [Box.length_captionCells room])]

/-- The boxes of some nodes are still to be drawn, each over blanks and apart from the others. -/
structure Pending (g : Grid columns rows) (boxes : List Box) (nodes : List Node) : Prop where
  whole : g.Whole
  enclosed : g.Enclosed boxes
  visible : ∀ n ∈ nodes, '\x00' ∉ n.label.toList
  placed : ∀ n ∈ nodes, ∃ b, n.Placed columns rows b
  apart : nodes.Pairwise Apart
  free : ∀ n ∈ nodes, ∀ b, n.box = some b → ∀ a ∈ boxes, ∀ x y, ¬(a.Covers x y ∧ b.Covers x y)
  blank : ∀ n ∈ nodes, ∀ b, n.box = some b → ∀ x y, b.Covers x y → g.cell? y x = some .blank

namespace Pending

variable {boxes : List Box} {nodes : List Node}

theorem clear (pending : Pending g boxes nodes) (member : n ∈ nodes)
    (placed : n.Placed columns rows b) : g.Clear b := by
  have room := placed.room
  exact pending.enclosed.clear (by omega) (pending.free n member b placed.given)

/-- Drawing the next box changes no cell outside of it. -/
theorem cell?_draw_of_not_covers (pending : Pending g boxes (n :: nodes)) (style : Style)
    {x y : Nat} (outside : ∀ b, n.box = some b → ¬b.Covers x y) :
    (n.draw style g).cell? y x = g.cell? y x := by
  obtain ⟨b, placed⟩ := pending.placed n List.mem_cons_self
  rw [placed.draw, Box.cell?_draw_of_not_covers (pending.clear List.mem_cons_self placed)
    placed.three placed.room style (outside b placed.given)]

/-- Drawing the next box leaves the others to be drawn. -/
theorem step (pending : Pending g boxes (n :: nodes)) (style : Style)
    (placed : n.Placed columns rows b) : Pending (n.draw style g) (boxes ++ [b]) nodes where
  whole := by
    rw [placed.draw]
    exact Box.whole_draw (pending.clear List.mem_cons_self placed) placed.three placed.room style
      pending.whole (pending.visible n List.mem_cons_self) placed.right
  enclosed := by
    have more : g.Enclosed (boxes ++ [b]) := by
      intro x y here
      obtain ⟨a, member, inside⟩ := pending.enclosed x y here
      exact ⟨a, List.mem_append_left _ member, inside⟩
    rw [placed.draw]
    exact more.draw (by simp) placed.room (by rw [placed.three]; decide)
  visible m member := pending.visible m (List.mem_cons_of_mem n member)
  placed m member := pending.placed m (List.mem_cons_of_mem n member)
  apart := (List.pairwise_cons.mp pending.apart).2
  free m member a given other inside := by
    rcases List.mem_append.mp inside with old | new
    · exact pending.free m (List.mem_cons_of_mem n member) a given other old
    · rw [List.mem_singleton.mp new]
      exact (List.pairwise_cons.mp pending.apart).1 m member b a placed.given given
  blank m member a given x y covers := by
    rw [pending.cell?_draw_of_not_covers style fun b' given' covers' =>
      (List.pairwise_cons.mp pending.apart).1 m member b' a given' given x y ⟨covers', covers⟩]
    exact pending.blank m (List.mem_cons_of_mem n member) a given x y covers

theorem whole_foldl (pending : Pending g boxes nodes) (style : Style) :
    (nodes.foldl (Node.draw style) g).Whole := by
  induction nodes generalizing g boxes with
  | nil => exact pending.whole
  | cons n nodes ih =>
    obtain ⟨b, placed⟩ := pending.placed n List.mem_cons_self
    exact ih (pending.step style placed)

theorem cell?_foldl_of_not_covers (pending : Pending g boxes nodes) (style : Style) {x y : Nat}
    (outside : ∀ n ∈ nodes, ∀ b, n.box = some b → ¬b.Covers x y) :
    (nodes.foldl (Node.draw style) g).cell? y x = g.cell? y x := by
  induction nodes generalizing g boxes with
  | nil => rfl
  | cons n nodes ih =>
    obtain ⟨b, placed⟩ := pending.placed n List.mem_cons_self
    rw [List.foldl_cons, ih (pending.step style placed) fun m member =>
        outside m (List.mem_cons_of_mem n member),
      pending.cell?_draw_of_not_covers style (outside n List.mem_cons_self)]

/-- Once all boxes are drawn, the middle row of each one shows its label. -/
theorem cell?_foldl (pending : Pending g boxes nodes) (style : Style) (member : n ∈ nodes)
    (placed : n.Placed columns rows b) {i : Nat} (within : i < b.width) :
    (nodes.foldl (Node.draw style) g).cell? (b.y + 1) (b.x + i) =
      (b.captionCells style n.label)[i]? := by
  induction nodes generalizing g boxes with
  | nil => cases member
  | cons m nodes ih =>
    obtain ⟨a, placed'⟩ := pending.placed m List.mem_cons_self
    have others := pending.step style placed'
    rw [List.foldl_cons]
    rcases List.mem_cons.mp member with rfl | later
    · have here : b.Covers (b.x + i) (b.y + 1) := by
        have three := placed.three
        rw [Box.Covers, Box.right, Box.bottom]
        omega
      rw [others.cell?_foldl_of_not_covers style fun m member a given covers =>
        (List.pairwise_cons.mp pending.apart).1 m member b a placed.given given _ _ ⟨here, covers⟩]
      exact placed.cell?_draw (pending.clear List.mem_cons_self placed)
        (pending.blank n List.mem_cons_self b placed.given) style within
    · exact ih others later

end Pending

end Node

namespace Chart

variable {c : Chart} {n : Node} {b : Box}

theorem exists_placed (member : n ∈ c.arrange.nodes) :
    ∃ b, n.Placed c.arrange.columns c.arrange.rows b := by
  obtain ⟨i, found⟩ := List.mem_iff_getElem?.mp member
  obtain ⟨m, place, _, _, rfl⟩ := exists_of_getElem?_arrange found
  have inside : c.direction.box place m.width Node.height ∈ c.arrange.placed :=
    List.mem_filterMap.mpr ⟨_, member, rfl⟩
  refine ⟨_, rfl, Direction.height_box .., ?_, right_le_columns inside, ?_⟩
  · rw [Direction.width_box]
    exact Nat.le_max_left _ 5
  · exact Nat.le_trans (List.le_max?_getD_of_mem (List.mem_map_of_mem (f := Box.bottom) inside))
      (Nat.le_add_right _ 2)

theorem pairwise_apart (c : Chart) : c.arrange.nodes.Pairwise Node.Apart := by
  rw [List.pairwise_iff_getElem]
  intro i j boundI boundJ order a b given given'
  have stands (k : Nat) (bound : k < c.arrange.nodes.length) (box : Box)
      (given : c.arrange.nodes[k].box = some box) : ∃ l, c.Stands k l box := by
    have found := List.getElem?_eq_getElem bound
    obtain ⟨m, _, node, _, same⟩ := exists_of_getElem?_arrange found
    obtain ⟨l, layer, _⟩ := getElem?_items node
    exact ⟨l, _, found, by rwa [same], given⟩
  obtain ⟨l, first⟩ := stands i boundI a given
  obtain ⟨m, second⟩ := stands j boundJ b given'
  exact first.disjoint second (Nat.ne_of_lt order)

/-- At first all boxes are still to be drawn. -/
theorem pending_blank (visible : c.Labelled ('\x00' ∉ ·.toList)) :
    Node.Pending (.blank c.arrange.columns c.arrange.rows) [] c.arrange.nodes where
  whole := Grid.whole_blank
  enclosed := Grid.enclosed_blank []
  visible := visible.arrange
  placed _ := exists_placed
  apart := c.pairwise_apart
  free := by simp
  blank n member b given x y covers := by
    obtain ⟨b', placed⟩ := exists_placed member
    obtain rfl := Option.some.inj (given.symm.trans placed.given)
    obtain ⟨_, right, _, bottom⟩ := covers
    rw [Grid.cell?_blank, if_pos ⟨bottom.trans_le placed.bottom, right.trans_le placed.right⟩]

/-- What a row shows that holds the caption of a box. -/
theorem exists_text_of_caption {row : Row width} (whole : Cell.Whole row.toList) {label : String}
    (visible : '\x00' ∉ label.toList) (room : Text.displayWidth label + 2 ≤ b.width)
    (fits : b.right ≤ width) (style : Style)
    (here : ∀ i < b.width, row[b.x + i]? = (b.captionCells style label)[i]?) :
    ∃ before spaces after,
      let inside := style.glyph .vertical ::
        (List.replicate ((b.width - Text.displayWidth label) / 2 - 1) ' ' ++
          (label.toList ++ List.replicate spaces ' '))
      row.text = before ++ (inside ++ style.glyph .vertical :: after) ∧
      Text.displayWidth (String.ofList before) = b.x ∧
      Text.displayWidth (String.ofList (before ++ inside)) = b.x + b.width - 1 := by
  have size := Box.length_captionCells room style
  have parts := row.toList_eq_of_getElem? (b.captionCells style label) (by rwa [size]) (by rwa [size])
  have start : (row.toList.take b.x).length = b.x := by
    rw [Box.right] at fits
    rw [List.length_take, Vector.length_toList]
    omega
  rw [parts] at whole
  have left := (whole.of_append (by simp [Box.captionCells, Box.insideCells])).1
  have inside := Box.filterMap_char?_insideCells visible b style
  refine ⟨(row.toList.take b.x).filterMap Cell.char?,
    b.width - Text.displayWidth label - (b.width - Text.displayWidth label) / 2 - 1,
    (row.toList.drop (b.x + (b.captionCells style label).length)).filterMap Cell.char?, ?_, ?_, ?_⟩
  · rw [Row.text, ← inside]
    refine (congrArg (List.filterMap Cell.char?) parts).trans ?_
    rw [List.filterMap_append, List.filterMap_append, Box.captionCells, List.filterMap_append,
      List.append_assoc]
    rfl
  · rw [left.displayWidth_eq, start]
  · rw [← inside, ← List.filterMap_append,
      (left.append (Box.whole_insideCells visible b style)).displayWidth_eq, List.length_append, start,
      Box.length_insideCells room]
    omega

/-- The drawing of a source without edges shows every label in the middle of its box, character for
character, and every row is as wide as the drawing. Labels must not hold the character that stands
for a covered cell. -/
theorem labels_shown {source : String} {c : Chart} (accepted : read source = .ok c)
    (unlinked : c.edges = []) (visible : ∀ n ∈ c.nodes, '\x00' ∉ n.label.toList)
    (options : Options) :
    ∃ drawing, Flowchart.render options source = .ok drawing ∧
      (∀ row ∈ drawing.toList.splitOn '\n',
        Text.displayWidth (String.ofList row) = c.arrange.columns) ∧
      ∀ n ∈ c.arrange.nodes, ∃ b before spaces after, n.box = some b ∧
        let border := options.style.glyph .vertical
        let inside := border ::
          (List.replicate ((b.width - Text.displayWidth n.label) / 2 - 1) ' ' ++
            (n.label.toList ++ List.replicate spaces ' '))
        (drawing.toList.splitOn '\n')[b.y + b.height / 2]? =
          some (before ++ (inside ++ border :: after)) ∧
        Text.displayWidth (String.ofList before) = b.x ∧
        Text.displayWidth (String.ofList (before ++ inside)) = b.x + b.width - 1 := by
  have labelled : c.Labelled ('\x00' ∉ ·.toList) := visible
  have one_line : c.arrange.Labelled ('\n' ∉ ·.toList) :=
    Labelled.arrange (label_one_line accepted)
  have pending := pending_blank labelled
  have unrouted : c.arrange.grid options.style = c.arrange.boxLayer options.style := by
    have unrouted : c.arrange.routes = [] := by
      rw [routes, show c.arrange.edges = [] from unlinked, List.filterMap_nil]
    rw [grid, unrouted, List.foldl_nil]
  have whole : (c.arrange.grid options.style).Whole := unrouted ▸ pending.whole_foldl options.style
  have rows := splitOn_draw options.style one_line
  refine ⟨c.arrange.draw options.style, ?_, ?_, ?_⟩
  · rw [Flowchart.render, accepted]
    rfl
  · intro line member
    rw [rows] at member
    exact whole.displayWidth_line member
  · intro n member
    obtain ⟨b, placed⟩ := exists_placed member
    have middle : b.y + b.height / 2 = b.y + 1 := by rw [placed.three]
    have bound : b.y + 1 < c.arrange.rows := by
      have bottom := placed.bottom
      rw [Box.bottom, placed.three] at bottom
      omega
    obtain ⟨row, found⟩ : ∃ row, (c.arrange.grid options.style).rows[b.y + 1]? = some row :=
      ⟨_, Vector.getElem?_eq_getElem bound⟩
    have inside : row ∈ (c.arrange.grid options.style).rows.toList :=
      List.mem_of_getElem? (by rwa [Vector.getElem?_toList])
    obtain ⟨before, spaces, after, text, width, width'⟩ := exists_text_of_caption (whole row inside)
      (labelled.arrange n member) placed.room placed.right options.style fun i within => by
        rw [← pending.cell?_foldl options.style member placed within, ← boxLayer_eq, ← unrouted,
          Grid.cell?_of_getElem? found]
    refine ⟨b, before, spaces, after, placed.given, ?_, width, width'⟩
    rw [rows, middle, Grid.lines, List.getElem?_map, Vector.getElem?_toList, found, Option.map_some,
      text]

/-- Labels with characters of two and of three columns, in boxes side by side. -/
theorem labels_shown_wide :
    ∃ c : Chart, read "flowchart TB\nA[世]\nB[\u17D8!]" = .ok c ∧ c.edges = [] ∧
      (∀ n ∈ c.nodes, '\x00' ∉ n.label.toList) ∧
      ∃ drawing, Flowchart.render .default "flowchart TB\nA[世]\nB[\u17D8!]" = .ok drawing ∧
        (∀ row ∈ drawing.toList.splitOn '\n', Text.displayWidth (String.ofList row) = 17) ∧
        ∃ before spaces after, Text.displayWidth (String.ofList before) = 9 ∧
          (drawing.toList.splitOn '\n')[1]? =
            some (before ++ ('│' :: ("\u17D8!".toList ++ List.replicate spaces ' ') ++ '│' :: after)) := by
  let c : Chart :=
    ⟨.topBottom, [⟨"A", "世", none⟩, ⟨"B", "\u17D8!", none⟩], [], by decide⟩
  have accepted : read "flowchart TB\nA[世]\nB[\u17D8!]" = .ok c := by decide +kernel
  have visible : ∀ n ∈ c.nodes, '\x00' ∉ n.label.toList := by decide
  have columns : c.arrange.columns = 17 := by decide +kernel
  have member : (⟨"B", "\u17D8!", some ⟨9, 0, 6, 3⟩⟩ : Node) ∈ c.arrange.nodes := by decide +kernel
  obtain ⟨drawing, drawn, rows, shown⟩ := labels_shown accepted rfl visible .default
  obtain ⟨b, before, spaces, after, given, text, width, _⟩ := shown _ member
  obtain rfl := Option.some.inj given
  rw [columns] at rows
  have size : (6 - Text.displayWidth "\u17D8!") / 2 - 1 = 0 := by decide +kernel
  simp only [size, List.replicate_zero, List.nil_append] at text
  exact ⟨c, accepted, rfl, visible, drawing, drawn, rows, before, spaces, after, width, text⟩

/-- A null character is counted as one column and gets a cell, but it is not shown. -/
theorem label_cut :
    ∃ c drawing, read "flowchart TB\nA[a\x00b]" = .ok c ∧ c.edges = [] ∧
      Flowchart.render .default "flowchart TB\nA[a\x00b]" = .ok drawing ∧
      ∃ row ∈ drawing.toList.splitOn '\n',
        Text.displayWidth (String.ofList row) ≠ c.arrange.columns := by
  refine ⟨⟨.topBottom, [⟨"A", "a\x00b", none⟩], [], by decide⟩,
    "┌───┐  \n│ab│  \n└───┘  \n       \n       ", by decide +kernel, rfl, by decide +kernel,
    "│ab│  ".toList, by decide +kernel, by decide +kernel⟩

end Chart

end Flowchart
