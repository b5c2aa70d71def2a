import Flowchart.Printing
import Flowchart.Proofs.Labels
import Flowchart.Proofs.Meaning
import Mathlib.Data.List.Induction

/-! Documents and charts written out and read again. A written statement starts with a word and
ends with a word or a bracket, so nothing is trimmed off and no line is taken for a comment, and a
label may hold anything but a closing bracket and a line feed. -/
namespace Flowchart

namespace Text

/-- A text that is a content line as it stands. -/
structure Bare (cs : List Char) : Prop extends Trimmed cs where
  one_line : '\n' ∉ cs
  content : ∀ number, Line.isContent ⟨number, cs⟩

theorem contentLines_intercalate {ls : List (List Char)} (nonempty : ls ≠ [])
    (bare : ∀ l ∈ ls, Bare l) :
    contentLines (String.ofList (List.intercalate ['\n'] ls)) =
      (ls.zipIdx 1).map fun (text, number) => ⟨number, text⟩ := by
  have kept : lines (String.ofList (List.intercalate ['\n'] ls)) =
      (ls.zipIdx 1).map fun (text, number) => ⟨number, text⟩ := by
    rw [lines, String.toList_ofList,
      List.splitOn_intercalate '\n' (fun l member => (bare l member).one_line) nonempty]
    apply List.map_congr_left
    intro (text, number) member
    have inside : text ∈ ls := List.fst_mem_of_mem_zipIdx member
    show Line.mk number (trim text) = ⟨number, text⟩
    rw [(bare text inside).trim_eq]
  rw [contentLines, kept, List.filter_eq_self]
  intro line member
  obtain ⟨⟨text, number⟩, inside, rfl⟩ := List.mem_map.mp member
  exact (bare text (List.fst_mem_of_mem_zipIdx inside)).content number

end Text

namespace Reference

/-- A reference that can be written down in a line. -/
structure Plain (r : Reference) : Prop where
  id_ne_nil : r.id.toList ≠ []
  isWord_of_mem : ∀ c ∈ r.id.toList, Text.isWord c
  label_ne_nil : ∀ label, r.label = some label → label.toList ≠ []
  not_close : ∀ label, r.label = some label → ']' ∉ label.toList
  one_line : ∀ label, r.label = some label → '\n' ∉ label.toList

theorem Form.plain_reference (f : Form)
    (one_line : ∀ label, f.reference.label = some label → '\n' ∉ label.toList) :
    f.reference.Plain where
  id_ne_nil := by simpa [reference] using f.word_ne_nil
  isWord_of_mem := by simpa [reference] using f.isWord_of_mem
  label_ne_nil label stated := (bracketLabel_eq_some_iff.mp stated).2
  not_close label stated := f.not_mem_bracket _ (bracketLabel_eq_some_iff.mp stated).1
  one_line := one_line

namespace Plain

variable {r : Reference}

/-- The usual spelling of a reference. -/
def form (plain : r.Plain) : Form where
  word := r.id.toList
  bracket := r.label.map String.toList
  word_ne_nil := plain.id_ne_nil
  isWord_of_mem := plain.isWord_of_mem
  not_mem_bracket := by
    intro inside given
    obtain ⟨label, stated, rfl⟩ := Option.map_eq_some_iff.mp given
    exact plain.not_close label stated

theorem text_form (plain : r.Plain) : plain.form.text = r.spelling := by
  show r.id.toList ++ Form.bracketText (r.label.map String.toList) = r.spelling
  rw [spelling]
  cases r.label <;> simp [Form.bracketText]

theorem reference_form (plain : r.Plain) : plain.form.reference = r := by
  have label : Form.bracketLabel (r.label.map String.toList) = r.label := by
    cases stated : r.label with
    | none => rfl
    | some label => exact Form.bracketLabel_eq_some_iff.mpr ⟨rfl, plain.label_ne_nil label stated⟩
  show Reference.mk (String.ofList r.id.toList) (Form.bracketLabel (r.label.map String.toList)) = r
  rw [label, String.ofList_toList]

theorem exists_isWord_cons_spelling (plain : r.Plain) :
    ∃ c cs, Text.isWord c ∧ r.spelling = c :: cs := by
  rw [← plain.text_form]
  exact plain.form.exists_isWord_cons_text

theorem spelling_ne_nil (plain : r.Plain) : r.spelling ≠ [] := by
  obtain ⟨c, cs, _, spelled⟩ := plain.exists_isWord_cons_spelling
  simp [spelled]

theorem stops_reverse_spelling (plain : r.Plain) :
    Text.Stops Text.isBlank r.spelling.reverse := by
  rw [← plain.text_form]
  exact plain.form.trimmed_text.last

theorem not_mem_spelling (plain : r.Plain) : '\n' ∉ r.spelling := by
  have word := Text.not_mem_of_forall plain.isWord_of_mem Text.isWord_newline
  rw [spelling]
  split
  · exact word
  · next label stated =>
    have inside := plain.one_line label stated
    simp [word, inside]

end Plain

end Reference

namespace Statement

/-- An arrow with a space on both sides. -/
def Arrow.spaced : Arrow := ⟨[' '], [' '], by simp [Text.isGap], by simp [Text.isGap]⟩

def Plain (s : Statement) : Prop := ∀ r ∈ s.references, r.Plain

theorem exists_links {rest : List Reference} (plain : ∀ r ∈ rest, r.Plain) :
    ∃ links, Form.linksText links = rest.flatMap (fun r => [' ', '-', '-', '>', ' '] ++ r.spelling) ∧
      links.map (fun (_, target) => target.reference) = rest := by
  induction rest with
  | nil => exact ⟨[], rfl, rfl⟩
  | cons r rest ih =>
    obtain ⟨links, text, meant⟩ := ih fun later member => plain later (by simp [member])
    have first : r.Plain := plain r (by simp)
    refine ⟨(.spaced, first.form) :: links, ?_, ?_⟩
    · rw [Form.linksText, text, first.text_form, List.flatMap_cons, List.append_assoc]
      rfl
    · rw [List.map_cons, meant]
      exact congrArg (· :: rest) first.reference_form

namespace Plain

variable {s : Statement}

theorem first (plain : s.Plain) : s.first.Plain := plain s.first (by simp [references])

theorem rest (plain : s.Plain) : ∀ r ∈ s.rest, r.Plain :=
  fun r member => plain r (by simp [references, member])

theorem exists_form (plain : s.Plain) : ∃ f : Form, f.text = s.spelling ∧ f.statement = s := by
  obtain ⟨links, text, meant⟩ := exists_links plain.rest
  refine ⟨⟨plain.first.form, links⟩, ?_, ?_⟩
  · rw [Form.text, text, plain.first.text_form, spelling]
  · rw [Form.statement, meant, plain.first.reference_form]

/-- More links leave the end of a line what it was: the end of a reference. -/
theorem stops_reverse_links {rest : List Reference} (plain : ∀ r ∈ rest, r.Plain)
    {cs : List Char} (last : Text.Stops Text.isBlank cs.reverse) :
    Text.Stops Text.isBlank
      (cs ++ rest.flatMap fun r => [' ', '-', '-', '>', ' '] ++ r.spelling).reverse := by
  induction rest generalizing cs with
  | nil => simpa using last
  | cons r rest ih =>
    have first : r.Plain := plain r (by simp)
    rw [List.flatMap_cons, ← List.append_assoc, ← List.append_assoc]
    apply ih fun later member => plain later (by simp [member])
    exact Text.stops_reverse_append _ first.spelling_ne_nil first.stops_reverse_spelling

theorem not_mem_links {rest : List Reference} (plain : ∀ r ∈ rest, r.Plain) :
    '\n' ∉ rest.flatMap fun r => [' ', '-', '-', '>', ' '] ++ r.spelling := by
  intro member
  obtain ⟨r, inside, here⟩ := List.mem_flatMap.mp member
  simp [(plain r inside).not_mem_spelling] at here

theorem bare_spelling (plain : s.Plain) : Text.Bare s.spelling := by
  obtain ⟨c, cs, word, spelled⟩ := plain.first.exists_isWord_cons_spelling
  have start : s.spelling = c :: (cs ++ s.rest.flatMap fun r =>
      [' ', '-', '-', '>', ' '] ++ r.spelling) := by simp [spelling, spelled]
  refine ⟨⟨?_, ?_⟩, ?_, ?_⟩
  · rw [start, Text.stops_cons]
    exact Text.isBlank_eq_false_of_isWord word
  · exact stops_reverse_links plain.rest plain.first.stops_reverse_spelling
  · simp only [spelling, List.mem_append, not_or]
    exact ⟨plain.first.not_mem_spelling, not_mem_links plain.rest⟩
  · intro number
    have percent : c ≠ '%' := by
      rintro rfl
      rw [Text.isWord_eq_false_of_mark (by simp)] at word
      contradiction
    rw [start]
    refine (Text.isContent_iff _).mpr ⟨List.cons_ne_nil _ _, ?_⟩
    rintro ⟨rest, same⟩
    exact percent (List.cons.inj same).1.symm

end Plain

end Statement

theorem Header.bare_spelling (d : Direction) : Text.Bare (spelling d) := by
  cases d <;> exact ⟨⟨by decide, by decide⟩, by decide, fun _ => rfl⟩

namespace Document

def Plain (d : Document) : Prop := ∀ s ∈ d.statements, s.Plain

theorem exists_forms {statements : List Statement} (plain : ∀ s ∈ statements, s.Plain) :
    ∃ forms : List Statement.Form,
      statements.map Statement.spelling = forms.map Statement.Form.text ∧
      statements = forms.map Statement.Form.statement := by
  induction statements with
  | nil => exact ⟨[], rfl, rfl⟩
  | cons s statements ih =>
    obtain ⟨forms, texts, meant⟩ := ih fun later member => plain later (by simp [member])
    obtain ⟨form, text, rfl⟩ := (plain s (by simp)).exists_form
    exact ⟨form :: forms, by simp [text, texts], by simp [← meant]⟩

/-- A plain document is read back from its own text. -/
theorem read_spelling {d : Document} (plain : d.Plain) : read d.spelling = .ok d := by
  have bare : ∀ l ∈ Header.spelling d.direction :: d.statements.map Statement.spelling,
      Text.Bare l := by
    intro l member
    rcases List.mem_cons.mp member with rfl | inside
    · exact Header.bare_spelling d.direction
    · obtain ⟨s, known, rfl⟩ := List.mem_map.mp inside
      exact (plain s known).bare_spelling
  have content := Text.contentLines_intercalate (List.cons_ne_nil _ _) bare
  rw [List.zipIdx_cons, List.map_cons] at content
  obtain ⟨forms, texts, meant⟩ := exists_forms plain
  refine read_eq_ok_iff.mpr ⟨_, _, forms, content, Header.read?_spelling d.direction, ?_, meant⟩
  rw [List.map_map, ← texts]
  exact List.zipIdx_map_fst _ _

/-- Every document that was read is plain: its references are parts of single lines. -/
theorem plain_of_read {source : String} {d : Document} (h : read source = .ok d) : d.Plain := by
  have within := within_of_read h
  obtain ⟨_, _, forms, _, _, _, meant⟩ := read_eq_ok_iff.mp h
  intro s known r member
  have one_line : ∀ label, r.label = some label → '\n' ∉ label.toList := by
    intro label stated here
    obtain ⟨line, content, inside⟩ := within s known r member
    exact Text.not_mem_of_mem_contentLines content ((inside.label label stated).subset here)
  have spelled : ∃ f : Reference.Form, f.reference = r := by
    rw [meant] at known
    obtain ⟨form, _, rfl⟩ := List.mem_map.mp known
    rcases List.mem_cons.mp member with rfl | later
    · exact ⟨form.first, rfl⟩
    · obtain ⟨link, _, rfl⟩ := List.mem_map.mp later
      exact ⟨link.2, rfl⟩
  obtain ⟨f, rfl⟩ := spelled
  exact f.plain_reference one_line

end Document

namespace Reference

theorem labelOf_cases (rs : List Reference) (id : String) :
    labelOf rs id = id ∨ ∃ r ∈ rs, r.label = some (labelOf rs id) := by
  rw [labelOf]
  cases last : ((rs.filter (·.id = id)).filterMap label).getLast? with
  | none => exact .inl rfl
  | some text =>
    obtain ⟨r, member, stated⟩ := List.mem_filterMap.mp (List.mem_of_getLast? last)
    exact .inr ⟨r, (List.mem_filter.mp member).1, stated⟩

/-- Nodes are declared by one labelled reference each. -/
theorem declared_map {nodes : List Node} (distinct : (nodes.map Node.id).Nodup)
    (bare : ∀ n ∈ nodes, n.box = none) :
    declared (nodes.map fun n => ⟨n.id, some n.label⟩) = nodes := by
  -- From the end, which is where a reference adds its node.
  induction nodes using List.reverseRecOn with
  | nil => rfl
  | append_singleton nodes n ih =>
    rw [List.map_append, List.nodup_append] at distinct
    have new : n.id ∉ (nodes.map fun n => Reference.mk n.id (some n.label)).map Reference.id := by
      intro member
      rw [List.map_map] at member
      exact distinct.2.2 n.id member n.id (by simp) rfl
    rw [List.map_append, List.map_singleton, declared_append_of_not_mem new,
      ih distinct.1 fun m member => bare m (by simp [member])]
    have empty : n.box = none := bare n (by simp)
    simp [← empty]

/-- Mentioning declared ids without a label declares nothing more. -/
theorem declared_append_mentions {rs more : List Reference}
    (known : ∀ r ∈ more, r.id ∈ rs.map Reference.id ∧ r.label = none) :
    declared (rs ++ more) = declared rs := by
  induction more generalizing rs with
  | nil => rw [List.append_nil]
  | cons r more ih =>
    obtain ⟨mentioned, unlabelled⟩ := known r (by simp)
    have step : declared (rs ++ [r]) = declared rs := by
      rw [declared_append_of_mem mentioned]
      simp [unlabelled]
    rw [List.append_cons, ih, step]
    intro later member
    obtain ⟨mentioned, unlabelled⟩ := known later (by simp [member])
    exact ⟨by simp [mentioned], unlabelled⟩

end Reference

namespace Chart

theorem references_document (c : Chart) :
    c.document.statements.flatMap Statement.references =
      (c.nodes.map fun n => ⟨n.id, some n.label⟩) ++
        c.edges.flatMap fun e => [⟨e.source, none⟩, ⟨e.target, none⟩] := by
  rw [document, List.flatMap_append, List.flatMap_map, List.flatMap_map, List.map_eq_flatMap]
  rfl

theorem edges_document (c : Chart) :
    c.document.statements.flatMap Statement.edges = c.edges := by
  simp [document, List.flatMap_map, Statement.edges, Statement.links, Statement.references]

/-- A chart that can be described: without boxes, with words for ids, with labels that fit into
brackets in one line, and with no edge whose ends are not nodes. Its ids are distinct anyway. -/
structure Describable (c : Chart) : Prop where
  ids : ∀ n ∈ c.nodes, n.id.toList ≠ [] ∧ ∀ ch ∈ n.id.toList, Text.isWord ch
  labels : ∀ n ∈ c.nodes, n.label.toList ≠ [] ∧ ']' ∉ n.label.toList ∧ '\n' ∉ n.label.toList
  boxes : ∀ n ∈ c.nodes, n.box = none
  ends : ∀ e ∈ c.edges, e.source ∈ c.ids ∧ e.target ∈ c.ids

namespace Describable

variable {c : Chart}

theorem plain_mention (describable : c.Describable) {id : String} (known : id ∈ c.ids) :
    (Reference.mk id none).Plain := by
  obtain ⟨n, member, rfl⟩ := List.mem_map.mp known
  obtain ⟨nonempty, word⟩ := describable.ids n member
  exact ⟨nonempty, word, by simp, by simp, by simp⟩

theorem plain_document (describable : c.Describable) : c.document.Plain := by
  intro s known r member
  rcases List.mem_append.mp known with node | edge
  · obtain ⟨n, inside, rfl⟩ := List.mem_map.mp node
    obtain rfl := List.mem_singleton.mp member
    obtain ⟨nonempty, word⟩ := describable.ids n inside
    obtain ⟨labelled, unclosed, one_line⟩ := describable.labels n inside
    refine ⟨nonempty, word, ?_, ?_, ?_⟩
    all_goals
      intro label stated
      obtain rfl := Option.some.inj stated
      assumption
  · obtain ⟨e, inside, rfl⟩ := List.mem_map.mp edge
    obtain ⟨source, target⟩ := describable.ends e inside
    rcases List.mem_cons.mp member with rfl | later
    · exact describable.plain_mention source
    · obtain rfl := List.mem_singleton.mp later
      exact describable.plain_mention target

theorem chart_document (describable : c.Describable) : c.document.chart = c := by
  have nodes := Reference.declared_map c.distinct describable.boxes
  have mentions : ∀ r ∈ c.edges.flatMap (fun e => [Reference.mk e.source none, ⟨e.target, none⟩]),
      r.id ∈ (c.nodes.map fun n => Reference.mk n.id (some n.label)).map Reference.id ∧
        r.label = none := by
    have same : (c.nodes.map fun n => Reference.mk n.id (some n.label)).map Reference.id = c.ids := by
      simp [Chart.ids]
    intro r member
    obtain ⟨e, inside, here⟩ := List.mem_flatMap.mp member
    obtain ⟨source, target⟩ := describable.ends e inside
    rw [same]
    rcases List.mem_cons.mp here with rfl | later
    · exact ⟨source, rfl⟩
    · obtain rfl := List.mem_singleton.mp later
      exact ⟨target, rfl⟩
  have described := c.document.describes_chart
  rw [references_document, edges_document] at described
  refine described.eq ⟨rfl, ?_, rfl⟩
  rw [Reference.declared_append_mentions mentions, nodes]

end Describable

theorem describable_of_read {source : String} {c : Chart} (accepted : read source = .ok c) :
    c.Describable := by
  obtain ⟨d, parsed, rfl⟩ := read_eq_ok_iff.mp accepted
  have plain : ∀ r ∈ d.statements.flatMap Statement.references, r.Plain := by
    intro r member
    obtain ⟨s, known, here⟩ := List.mem_flatMap.mp member
    exact Document.plain_of_read parsed s known r here
  obtain ⟨-, nodes, edges⟩ := d.describes_chart
  have ids : ∀ n ∈ d.chart.nodes, n.id.toList ≠ [] ∧ ∀ ch ∈ n.id.toList, Text.isWord ch := by
    intro n member
    rw [nodes] at member
    obtain ⟨r, known, same⟩ := List.mem_map.mp (Reference.eq_of_mem_declared member).1
    rw [← same]
    exact ⟨(plain r known).id_ne_nil, (plain r known).isWord_of_mem⟩
  refine ⟨ids, ?_, ?_, ?_⟩
  · intro n member
    obtain ⟨nonempty, word⟩ := ids n member
    rw [nodes] at member
    have label : n.label = Reference.labelOf (d.statements.flatMap Statement.references) n.id :=
      congrArg Node.label (Reference.eq_of_mem_declared member).2
    rcases Reference.labelOf_cases (d.statements.flatMap Statement.references) n.id with
      unlabelled | ⟨r, known, stated⟩
    · rw [label, unlabelled]
      exact ⟨nonempty, Text.not_mem_of_forall word (Text.isWord_eq_false_of_mark (by simp)),
        Text.not_mem_of_forall word Text.isWord_newline⟩
    · rw [← label] at stated
      exact ⟨(plain r known).label_ne_nil _ stated, (plain r known).not_close _ stated,
        (plain r known).one_line _ stated⟩
  · intro n member
    rw [nodes] at member
    exact congrArg Node.box (Reference.eq_of_mem_declared member).2
  · intro e member
    rw [edges] at member
    obtain ⟨s, inside, here⟩ := List.mem_flatMap.mp member
    obtain ⟨⟨source, target⟩, link, rfl⟩ := List.mem_map.mp here
    obtain ⟨first, second⟩ := List.of_mem_zip link
    have declared : ∀ r ∈ s.references, r.id ∈ d.chart.ids := by
      intro r member
      apply (mem_ids_of_nodes nodes r.id).mpr
      exact List.mem_map_of_mem (List.mem_flatMap.mpr ⟨s, inside, member⟩)
    exact ⟨declared source first, declared target (List.mem_cons_of_mem _ second)⟩

/-- The charts that some source describes are those whose own text describes them: a header, a
line for each node with its label, and a line for each edge. -/
theorem describable_iff (c : Chart) :
    (c.Describable ↔ read c.document.spelling = .ok c) ∧
    (c.Describable ↔ ∃ source, read source = .ok c) := by
  have own : c.Describable → read c.document.spelling = .ok c := by
    intro describable
    have parsed := Document.read_spelling describable.plain_document
    exact read_eq_ok_iff.mpr ⟨c.document, parsed, describable.chart_document⟩
  refine ⟨⟨own, describable_of_read⟩, fun describable => ⟨_, own describable⟩, ?_⟩
  rintro ⟨source, accepted⟩
  exact describable_of_read accepted

example :
    (Chart.mk .topBottom [⟨"a", "%% [\r", none⟩, ⟨"b", " --> ", none⟩] [⟨"b", "a"⟩]
      (by decide)).document.spelling = "flowchart TB\na[%% [\r]\nb[ --> ]\nb --> a" := by decide

end Chart

end Flowchart
