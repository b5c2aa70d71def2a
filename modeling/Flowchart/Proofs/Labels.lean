import Flowchart.Document

/-! Where labels come from. Every id and every label that a source declares stands in one of its
content lines, so the label of a node never goes over the end of a line. -/
namespace Flowchart

theorem not_mem_of_mem_splitOn {source piece : List Char} {c : Char}
    (member : piece ∈ source.splitOn c) : c ∉ piece := by
  induction source generalizing piece with
  | nil =>
    rw [List.splitOn_nil, List.mem_singleton] at member
    simp [member]
  | cons d source ih =>
    rw [List.splitOn_cons_eq_if_modifyHead] at member
    split at member
    · rcases List.mem_cons.mp member with rfl | later
      · simp
      · exact ih later
    · next other =>
      obtain ⟨first, others, whole⟩ := List.exists_cons_of_ne_nil (List.splitOn_ne_nil c source)
      rw [whole, List.modifyHead_cons] at member
      rcases List.mem_cons.mp member with rfl | later
      · have absent : c ∉ first := ih (by simp [whole])
        simp only [List.mem_cons, not_or]
        exact ⟨fun same => other (by simp [same]), absent⟩
      · exact ih (by simp [whole, later])

theorem isInfix_takeWhile (p : α → Bool) (l : List α) : l.takeWhile p <:+: l :=
  ⟨[], l.dropWhile p, by simp⟩

theorem isInfix_dropWhile (p : α → Bool) (l : List α) : l.dropWhile p <:+: l :=
  ⟨l.takeWhile p, [], by simp⟩

namespace Text

theorem trim_subset (cs : List Char) : trim cs ⊆ cs := by
  intro c member
  have kept : c ∈ (trimStart cs).reverse := by
    apply (isInfix_dropWhile isBlank _).subset
    exact List.mem_reverse.mp member
  exact (isInfix_dropWhile isBlank cs).subset (List.mem_reverse.mp kept)

/-- A text stands in a content line of a source. -/
def InLine (source text : String) : Prop :=
  ∃ line ∈ contentLines source, text.toList <:+: line.text

theorem not_mem_of_mem_contentLines {source : String} {line : Line}
    (member : line ∈ contentLines source) : '\n' ∉ line.text := by
  obtain ⟨⟨piece, number⟩, cut, rfl⟩ := List.mem_map.mp (List.mem_filter.mp member).1
  have inside : piece ∈ source.toList.splitOn '\n' := by
    have := (List.mem_zipIdx cut).2.2
    rw [this]
    exact List.getElem_mem _
  exact fun here => not_mem_of_mem_splitOn inside (trim_subset piece here)

end Text

namespace Reference

/-- The id and the label of a reference stand in a text. -/
structure Within (r : Reference) (cs : List Char) : Prop where
  id : r.id.toList <:+: cs
  label : ∀ label, r.label = some label → label.toList <:+: cs

theorem Within.mono {r : Reference} {cs whole : List Char} (within : r.Within cs)
    (inside : cs <:+: whole) : r.Within whole where
  id := within.id.trans inside
  label label given := (within.label label given).trans inside

theorem isInfix_readLabel (cs : List Char) :
    (∀ label, (readLabel cs).1 = some label → label.toList <:+: cs) ∧ (readLabel cs).2 <:+: cs := by
  unfold readLabel
  split
  · next inside =>
    have opened : inside <:+: '[' :: inside := (List.suffix_cons '[' inside).isInfix
    split
    · simp
    · next rest closed =>
      have left : rest <:+: '[' :: inside := by
        have after : rest <:+: inside.dropWhile (· ≠ ']') := by
          rw [closed]
          exact (List.suffix_cons _ rest).isInfix
        exact (after.trans (isInfix_dropWhile _ inside)).trans opened
      split
      · simpa using left
      · refine ⟨fun label given => ?_, left⟩
        cases given
        rw [String.toList_ofList]
        exact (isInfix_takeWhile _ inside).trans opened
  · simp

theorem within_of_read? {cs rest : List Char} {r : Reference} (h : read? cs = some (r, rest)) :
    r.Within cs ∧ rest <:+: cs := by
  have tail := isInfix_dropWhile Text.isWord cs
  have label := isInfix_readLabel (cs.dropWhile Text.isWord)
  unfold read? at h
  split at h
  · cases h
  · cases h
    refine ⟨⟨?_, fun text given => (label.1 text given).trans tail⟩, label.2.trans tail⟩
    rw [String.toList_ofList]
    exact isInfix_takeWhile Text.isWord cs

end Reference

namespace Statement

theorem isInfix_of_arrow? {cs rest : List Char} (h : arrow? cs = some rest) : rest <:+: cs := by
  unfold arrow? at h
  split at h
  · next tail arrow =>
    have passed : tail <:+: cs := by
      have gap := isInfix_dropWhile Text.isGap cs
      rw [arrow] at gap
      exact List.IsInfix.trans ⟨['-', '-', '>'], [], by simp⟩ gap
    cases h
    exact (isInfix_dropWhile Text.isGap tail).trans passed
  · cases h

theorem within_of_readLinks? {cs : List Char} {rs : List Reference} (h : readLinks? cs = some rs) :
    ∀ r ∈ rs, r.Within cs := by
  fun_induction readLinks? cs generalizing rs with
  | case1 => simp_all
  | case2 => simp_all
  | case3 cs nonempty reference rest link ih =>
    obtain ⟨others, read, rfl⟩ := Option.map_eq_some_iff.mp h
    obtain ⟨after, arrow, target⟩ := Option.bind_eq_some_iff.mp link
    have passed := isInfix_of_arrow? arrow
    have within := Reference.within_of_read? target
    intro r member
    rcases List.mem_cons.mp member with rfl | later
    · exact within.1.mono passed
    · exact (ih read r later).mono (within.2.trans passed)

theorem within_of_read {line : Text.Line} {s : Statement} (h : read line = .ok s) :
    ∀ r ∈ s.references, r.Within line.text := by
  unfold read at h
  split at h
  · next parsed =>
    cases h
    obtain ⟨⟨first, rest⟩, head, tail⟩ := Option.bind_eq_some_iff.mp parsed
    obtain ⟨links, read, made⟩ := Option.bind_eq_some_iff.mp tail
    cases made
    have within := Reference.within_of_read? head
    intro r member
    rcases List.mem_cons.mp member with rfl | later
    · exact within.1
    · exact (within_of_readLinks? read r later).mono within.2
  · cases h

end Statement

theorem forall_mem_of_mapM {f : α → Except ε β} {p : β → Prop} :
    ∀ {xs : List α} {ys : List β}, xs.mapM f = .ok ys →
      (∀ x ∈ xs, ∀ y, f x = .ok y → p y) → ∀ y ∈ ys, p y
  | [], ys, whole, _ => by
    cases whole
    simp
  | x :: xs, ys, whole, each => by
    rw [List.mapM_cons] at whole
    cases first : f x with
    | error e =>
      rw [first] at whole
      cases whole
    | ok y =>
      cases rest : xs.mapM f with
      | error e =>
        rw [first, rest] at whole
        cases whole
      | ok others =>
        rw [first, rest] at whole
        cases whole
        intro z member
        rcases List.mem_cons.mp member with rfl | later
        · exact each x (by simp) z first
        · exact forall_mem_of_mapM rest (fun w inside => each w (by simp [inside])) z later

/-- Every reference of a document stands in a content line of its source. -/
theorem Document.within_of_read {source : String} {d : Document} (h : read source = .ok d) :
    ∀ s ∈ d.statements, ∀ r ∈ s.references, ∃ line ∈ Text.contentLines source,
      r.Within line.text := by
  unfold read at h
  split at h
  · cases h
  · next header body content =>
    split at h
    · cases h
    · next direction _ =>
      cases statements : body.mapM Statement.read with
      | error e =>
        rw [statements] at h
        cases h
      | ok ss =>
        rw [statements] at h
        cases h
        refine forall_mem_of_mapM statements fun line member s parsed r inside => ?_
        exact ⟨line, by simp [content, member], Statement.within_of_read parsed r inside⟩

namespace Chart

/-- All nodes of a chart are labelled with texts of a kind. -/
def Labelled (p : String → Prop) (c : Chart) : Prop := ∀ n ∈ c.nodes, p n.label

namespace Labelled

variable {p : String → Prop} {c : Chart}

theorem declare {id : String} {label : Option String} (labelled : c.Labelled p) (named : p id)
    (given : ∀ text, label = some text → p text) : (c.declare id label).Labelled p := by
  unfold Chart.declare
  split
  · cases label with
    | none => exact labelled
    | some text =>
      intro n member
      obtain ⟨old, inside, rfl⟩ := List.mem_map.mp member
      split
      · exact given text rfl
      · exact labelled old inside
  · intro n member
    rcases List.mem_append.mp member with old | new
    · exact labelled n old
    · rw [List.mem_singleton.mp new]
      cases label with
      | none => exact named
      | some text => exact given text rfl

theorem connect (links : List (Reference × Reference)) (labelled : c.Labelled p) :
    (links.foldl (fun c (source, target) => c.connect source.id target.id) c).Labelled p := by
  induction links generalizing c with
  | nil => exact labelled
  | cons link links ih => exact ih labelled

theorem addStatement {s : Statement} (labelled : c.Labelled p)
    (named : ∀ r ∈ s.references, p r.id)
    (given : ∀ r ∈ s.references, ∀ text, r.label = some text → p text) :
    (c.addStatement s).Labelled p := by
  refine connect s.links ?_
  generalize s.references = rs at named given
  induction rs generalizing c with
  | nil => exact labelled
  | cons r rs ih =>
    refine ih (labelled.declare (named r (by simp)) (given r (by simp))) ?_ ?_
    · exact fun later member => named later (by simp [member])
    · exact fun later member => given later (by simp [member])

theorem chart {d : Document} (named : ∀ s ∈ d.statements, ∀ r ∈ s.references, p r.id)
    (given : ∀ s ∈ d.statements, ∀ r ∈ s.references, ∀ text, r.label = some text → p text) :
    d.chart.Labelled p := by
  have empty : (Chart.empty d.direction).Labelled p := by simp [Chart.empty, Labelled]
  rw [Document.chart]
  generalize Chart.empty d.direction = c at empty
  generalize d.statements = ss at named given
  induction ss generalizing c with
  | nil => exact empty
  | cons s ss ih =>
    refine ih _ (empty.addStatement (named s (by simp)) (given s (by simp))) ?_ ?_
    · exact fun later member => named later (by simp [member])
    · exact fun later member => given later (by simp [member])

end Labelled

theorem labelled_of_read {source : String} {c : Chart} (h : read source = .ok c) :
    c.Labelled (Text.InLine source) := by
  unfold read at h
  cases parsed : Document.read source with
  | error e =>
    rw [parsed] at h
    cases h
  | ok d =>
    rw [parsed] at h
    cases h
    have within := Document.within_of_read parsed
    refine .chart (fun s inside r member => ?_) (fun s inside r member text label => ?_)
    · obtain ⟨line, content, here⟩ := within s inside r member
      exact ⟨line, content, here.id⟩
    · obtain ⟨line, content, here⟩ := within s inside r member
      exact ⟨line, content, here.label text label⟩

theorem label_one_line {source : String} {c : Chart} (h : read source = .ok c) :
    ∀ n ∈ c.nodes, '\n' ∉ n.label.toList := by
  intro n member here
  obtain ⟨line, content, inside⟩ := labelled_of_read h n member
  exact Text.not_mem_of_mem_contentLines content (inside.subset here)

end Chart

end Flowchart
