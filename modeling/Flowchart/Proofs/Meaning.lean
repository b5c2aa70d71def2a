import Flowchart.Document
import Flowchart.Proofs.Grammar
import Mathlib.Data.List.Forall2

/-! What an accepted source means. Its references, in the order in which they are read, declare the
nodes of the chart: each id where it is mentioned first, with the label stated for it last. The
edges run from each reference of a line to the next one of that line. -/
namespace Flowchart

theorem mapM_eq_ok_iff {f : α → Except ε β} {xs : List α} {ys : List β} :
    xs.mapM f = .ok ys ↔ List.Forall₂ (fun x y => f x = .ok y) xs ys := by
  induction xs generalizing ys with
  | nil => cases ys <;> simp [pure, Except.pure]
  | cons x xs ih =>
    rw [List.mapM_cons]
    cases first : f x with
    | error e => cases ys <;> simp [bind, Except.bind, first]
    | ok y =>
      cases rest : xs.mapM f with
      | error e => cases ys <;> simp [bind, Except.bind, first, ← ih, rest]
      | ok others => cases ys <;> simp [bind, Except.bind, pure, Except.pure, first, ← ih, rest]

theorem eraseDups_append_singleton [DecidableEq α] (xs : List α) (x : α) :
    (xs ++ [x]).eraseDups = if x ∈ xs then xs.eraseDups else xs.eraseDups ++ [x] := by
  rw [List.eraseDups_append]
  split <;> simp_all [List.removeAll, List.eraseDups_cons]

namespace Reference

/-- The label that references give to an id: the one stated last, or the id if there is none. -/
def labelOf (rs : List Reference) (id : String) : String :=
  ((rs.filter (·.id = id)).filterMap label).getLast?.getD id

theorem labelOf_append_singleton (rs : List Reference) (r : Reference) (id : String) :
    labelOf (rs ++ [r]) id = if r.id = id then r.label.getD (labelOf rs id) else labelOf rs id := by
  rw [labelOf, labelOf, List.filter_append]
  split
  · next same => cases stated : r.label <;> simp [same, stated]
  · next other => simp [other]

theorem labelOf_of_not_mem {rs : List Reference} {id : String} (new : id ∉ rs.map Reference.id) :
    labelOf rs id = id := by
  have unmentioned : rs.filter (·.id = id) = [] := by
    apply List.filter_eq_nil_iff.mpr
    intro r member same
    exact new (List.mem_map.mpr ⟨r, member, of_decide_eq_true same⟩)
  simp [labelOf, unmentioned]

/-- The nodes that references declare. -/
def declared (rs : List Reference) : List Node :=
  (rs.map Reference.id).eraseDups.map fun id => ⟨id, labelOf rs id, none⟩

theorem map_id_declared (rs : List Reference) :
    (declared rs).map Node.id = (rs.map Reference.id).eraseDups := by
  simp [declared, Function.comp_def]

theorem eq_of_mem_declared {rs : List Reference} {n : Node} (member : n ∈ declared rs) :
    n.id ∈ rs.map Reference.id ∧ n = ⟨n.id, labelOf rs n.id, none⟩ := by
  obtain ⟨id, known, rfl⟩ := List.mem_map.mp member
  exact ⟨List.mem_eraseDups.mp known, rfl⟩

/-- One more reference to a known id changes its label at most. -/
theorem declared_append_of_mem {rs : List Reference} {r : Reference}
    (known : r.id ∈ rs.map Reference.id) :
    declared (rs ++ [r]) = (declared rs).map fun n =>
      if n.id = r.id then { n with label := r.label.getD n.label } else n := by
  rw [declared, List.map_append, List.map_singleton, eraseDups_append_singleton, if_pos known,
    declared, List.map_map]
  apply List.map_congr_left
  intro id _
  by_cases same : id = r.id
  · subst same
    simp [labelOf_append_singleton]
  · simp [labelOf_append_singleton, same, Ne.symm same]

/-- A reference to a new id adds a node at the end. -/
theorem declared_append_of_not_mem {rs : List Reference} {r : Reference}
    (new : r.id ∉ rs.map Reference.id) :
    declared (rs ++ [r]) = declared rs ++ [⟨r.id, r.label.getD r.id, none⟩] := by
  rw [declared, List.map_append, List.map_singleton, eraseDups_append_singleton, if_neg new,
    List.map_append, List.map_singleton, labelOf_append_singleton, if_pos rfl,
    labelOf_of_not_mem new, declared]
  congr 1
  apply List.map_congr_left
  intro id member
  have other : r.id ≠ id := by
    rintro rfl
    exact new (List.mem_eraseDups.mp member)
  rw [labelOf_append_singleton, if_neg other]

end Reference

/-- The edges of a statement: from each of its references to the next one. -/
def Statement.edges (s : Statement) : List Edge :=
  s.links.map fun (source, target) => ⟨source.id, target.id⟩

namespace Chart

variable {c : Chart} {rs : List Reference}

theorem mem_ids_of_nodes (described : c.nodes = Reference.declared rs) (id : String) :
    id ∈ c.ids ↔ id ∈ rs.map Reference.id := by
  rw [ids, described, Reference.map_id_declared, List.mem_eraseDups]

theorem nodes_declare_of_mem {id : String} (label : Option String) (known : id ∈ c.ids) :
    (c.declare id label).nodes =
      c.nodes.map fun n => if n.id = id then { n with label := label.getD n.label } else n := by
  unfold declare
  rw [dif_pos known]
  cases label with
  | none => simp
  | some label => rfl

theorem nodes_declare_of_not_mem {id : String} (label : Option String) (new : id ∉ c.ids) :
    (c.declare id label).nodes = c.nodes ++ [⟨id, label.getD id, none⟩] := by
  unfold declare
  rw [dif_neg new]

theorem nodes_declare (described : c.nodes = Reference.declared rs) (r : Reference) :
    (c.declare r.id r.label).nodes = Reference.declared (rs ++ [r]) := by
  have seen := mem_ids_of_nodes described r.id
  by_cases known : r.id ∈ c.ids
  · rw [nodes_declare_of_mem r.label known, described,
      Reference.declared_append_of_mem (seen.mp known)]
  · rw [nodes_declare_of_not_mem r.label known, described,
      Reference.declared_append_of_not_mem (mt seen.mpr known)]

theorem edges_declare (c : Chart) (id : String) (label : Option String) :
    (c.declare id label).edges = c.edges := by
  unfold declare
  split
  · cases label <;> rfl
  · rfl

theorem direction_declare (c : Chart) (id : String) (label : Option String) :
    (c.declare id label).direction = c.direction := by
  unfold declare
  split
  · cases label <;> rfl
  · rfl

/-- What a chart says once references are declared and links are drawn. -/
structure Describes (c : Chart) (d : Direction) (rs : List Reference) (edges : List Edge) : Prop where
  direction : c.direction = d
  nodes : c.nodes = Reference.declared rs
  edges : c.edges = edges

namespace Describes

variable {d : Direction} {edges : List Edge}

theorem empty (d : Direction) : (Chart.empty d).Describes d [] [] := ⟨rfl, rfl, rfl⟩

theorem declare (described : c.Describes d rs edges) (r : Reference) :
    (c.declare r.id r.label).Describes d (rs ++ [r]) edges where
  direction := (direction_declare ..).trans described.direction
  nodes := nodes_declare described.nodes r
  edges := (edges_declare ..).trans described.edges

theorem connect (described : c.Describes d rs edges) (source target : String) :
    (c.connect source target).Describes d rs (edges ++ [⟨source, target⟩]) where
  direction := described.direction
  nodes := described.nodes
  edges := congrArg (· ++ _) described.edges

theorem declareAll (described : c.Describes d rs edges) (more : List Reference) :
    (more.foldl (fun c r => c.declare r.id r.label) c).Describes d (rs ++ more) edges := by
  induction more generalizing c rs with
  | nil => simpa using described
  | cons r more ih => simpa using ih (described.declare r)

theorem connectAll (described : c.Describes d rs edges) (links : List (Reference × Reference)) :
    (links.foldl (fun c (source, target) => c.connect source.id target.id) c).Describes d rs
      (edges ++ links.map fun (source, target) => ⟨source.id, target.id⟩) := by
  induction links generalizing c edges with
  | nil => simpa using described
  | cons link links ih => simpa using ih (described.connect link.1.id link.2.id)

theorem addStatement (described : c.Describes d rs edges) (s : Statement) :
    (c.addStatement s).Describes d (rs ++ s.references) (edges ++ s.edges) :=
  (described.declareAll s.references).connectAll s.links

theorem addStatements (described : c.Describes d rs edges) (statements : List Statement) :
    (statements.foldl Chart.addStatement c).Describes d
      (rs ++ statements.flatMap Statement.references) (edges ++ statements.flatMap Statement.edges) := by
  induction statements generalizing c rs edges with
  | nil => simpa using described
  | cons s statements ih => simpa using ih (described.addStatement s)

theorem eq {c' : Chart} (described : c.Describes d rs edges) (described' : c'.Describes d rs edges) :
    c = c' :=
  Chart.ext (described.direction.trans described'.direction.symm)
    (described.nodes.trans described'.nodes.symm) (described.edges.trans described'.edges.symm)

end Describes

end Chart

/-- The chart of a document is described by all of its references and links in their order. -/
theorem Document.describes_chart (d : Document) :
    d.chart.Describes d.direction (d.statements.flatMap Statement.references)
      (d.statements.flatMap Statement.edges) := by
  simpa [chart] using (Chart.Describes.empty d.direction).addStatements d.statements

namespace Statement

theorem read_eq_ok_iff {line : Text.Line} {s : Statement} :
    read line = .ok s ↔ ofText? line.text = some s := by
  unfold read
  split
  · next parsed => simp [parsed]
  · next failed => simp [failed]

theorem forall₂_read_iff {lines : List Text.Line} {statements : List Statement} :
    List.Forall₂ (fun line s => read line = .ok s) lines statements ↔
      ∃ forms : List Form, lines.map Text.Line.text = forms.map Form.text ∧
        statements = forms.map Form.statement := by
  constructor
  · intro all
    induction all with
    | nil => exact ⟨[], rfl, rfl⟩
    | cons first _ ih =>
      obtain ⟨form, spelled, meant⟩ := exists_form_of_ofText? (read_eq_ok_iff.mp first)
      obtain ⟨forms, texts, rfl⟩ := ih
      refine ⟨form :: forms, ?_, ?_⟩
      · rw [List.map_cons, List.map_cons, texts, spelled]
      · rw [List.map_cons, meant]
  · rintro ⟨forms, texts, rfl⟩
    induction forms generalizing lines with
    | nil =>
      rw [List.map_eq_nil_iff.mp texts]
      exact .nil
    | cons form forms ih =>
      obtain ⟨line, others, rfl, spelled, rest⟩ := List.map_eq_cons_iff.mp texts
      refine .cons (read_eq_ok_iff.mpr ?_) (ih rest)
      rw [spelled, ofText?_text]

end Statement

/-- A source is accepted if its content is a header and then lines of the grammar. -/
theorem Document.read_eq_ok_iff {source : String} {d : Document} :
    read source = .ok d ↔ ∃ header body, ∃ forms : List Statement.Form,
      Text.contentLines source = header :: body ∧
      Header.read? header.text = some d.direction ∧
      body.map Text.Line.text = forms.map Statement.Form.text ∧
      d.statements = forms.map Statement.Form.statement := by
  constructor
  · intro h
    unfold read at h
    split at h
    · cases h
    · next header body content =>
      split at h
      · cases h
      · next direction keyword =>
        cases parsed : body.mapM Statement.read with
        | error e =>
          rw [parsed] at h
          cases h
        | ok statements =>
          rw [parsed] at h
          cases h
          obtain ⟨forms, texts, meant⟩ := Statement.forall₂_read_iff.mp (mapM_eq_ok_iff.mp parsed)
          exact ⟨header, body, forms, content, keyword, texts, meant⟩
  · rintro ⟨header, body, forms, content, keyword, texts, meant⟩
    have parsed := mapM_eq_ok_iff.mpr (Statement.forall₂_read_iff.mpr ⟨forms, texts, meant⟩)
    rw [read, content]
    simp only [keyword, parsed]
    rfl

theorem Chart.read_eq_ok_iff {source : String} {c : Chart} :
    read source = .ok c ↔ ∃ d, Document.read source = .ok d ∧ d.chart = c := by
  rw [read]
  cases Document.read source <;> simp [Except.map]

/-- Each reference of a form with the next one. -/
def Statement.Form.pairs (f : Form) : List (Reference × Reference) :=
  f.references.zip f.references.tail

namespace Chart

/-- A chart says what lines say, whose references are read line by line and from left to right. -/
structure Means (c : Chart) (forms : List Statement.Form) : Prop where
  ids : c.ids = ((forms.flatMap Statement.Form.references).map Reference.id).eraseDups
  labels : ∀ n ∈ c.nodes,
    n.label = Reference.labelOf (forms.flatMap Statement.Form.references) n.id
  boxes : ∀ n ∈ c.nodes, n.box = none
  edges : c.edges = forms.flatMap fun form =>
    form.pairs.map fun (source, target) => ⟨source.id, target.id⟩

theorem Describes.means {c : Chart} {d : Direction} {forms : List Statement.Form}
    (described : c.Describes d ((forms.map Statement.Form.statement).flatMap Statement.references)
      ((forms.map Statement.Form.statement).flatMap Statement.edges)) : c.Means forms := by
  obtain ⟨-, nodes, edges⟩ := described
  rw [List.flatMap_map] at nodes edges
  have made : ∀ n ∈ c.nodes,
      n = ⟨n.id, Reference.labelOf (forms.flatMap Statement.Form.references) n.id, none⟩ := by
    intro n member
    rw [nodes] at member
    exact (Reference.eq_of_mem_declared member).2
  refine ⟨?_, ?_, ?_, edges⟩
  · rw [ids, nodes, Reference.map_id_declared]
    rfl
  · exact fun n member => congrArg Node.label (made n member)
  · exact fun n member => congrArg Node.box (made n member)

/-- The chart of an accepted source has the ids of the source's references in the order of their
first mention, labels each with the last label stated for it or else with itself, gives no node a
box, and joins the references of each line to one another in their order: one edge fewer than the
line has references. -/
theorem read_meaning {source : String} {c : Chart} (accepted : read source = .ok c) :
    ∃ header body forms, Text.contentLines source = header :: body ∧
      Header.read? header.text = some c.direction ∧
      body.map Text.Line.text = forms.map Statement.Form.text ∧
      c.Means forms ∧
      ∀ form ∈ forms, form.pairs.length + 1 = form.references.length := by
  obtain ⟨d, parsed, rfl⟩ := read_eq_ok_iff.mp accepted
  obtain ⟨header, body, forms, content, keyword, texts, meant⟩ := Document.read_eq_ok_iff.mp parsed
  have described := d.describes_chart
  rw [meant] at described
  refine ⟨header, body, forms, content, ?_, texts, described.means, fun form _ => ?_⟩
  · rw [described.direction, keyword]
  · simp [Statement.Form.pairs, Statement.Form.references]

/-- A node is labelled, mentioned with empty brackets and with none, and labelled again. -/
theorem read_meaning_relabelled :
    ∃ c : Chart, read "flowchart LR\nB[x] --> A --> B[]\n\n%% B[y]\nB[z]-->B" = .ok c ∧
      ∃ forms : List Statement.Form,
        ["B[x] --> A --> B[]".toList, "B[z]-->B".toList] = forms.map Statement.Form.text ∧
        c.Means forms := by
  let c : Chart := ⟨.leftRight, [⟨"B", "z", none⟩, ⟨"A", "A", none⟩],
    [⟨"B", "A"⟩, ⟨"A", "B"⟩, ⟨"B", "B"⟩], by decide⟩
  have accepted : read "flowchart LR\nB[x] --> A --> B[]\n\n%% B[y]\nB[z]-->B" = .ok c := by
    decide +kernel
  have lines : (Text.contentLines "flowchart LR\nB[x] --> A --> B[]\n\n%% B[y]\nB[z]-->B").map
      Text.Line.text =
      ["flowchart LR".toList, "B[x] --> A --> B[]".toList, "B[z]-->B".toList] := by decide +kernel
  obtain ⟨header, body, forms, content, _, texts, means, _⟩ := read_meaning accepted
  rw [content, List.map_cons, texts] at lines
  exact ⟨c, accepted, forms, (List.cons.inj lines).2.symm, means⟩

end Chart

end Flowchart
