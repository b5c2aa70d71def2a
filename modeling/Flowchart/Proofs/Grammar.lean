import Flowchart.Proofs.Scanning
import Flowchart.Statement

/-! The grammar of statements. A form says how the parts of a reference, an arrow or a statement
are spelled, so that a text belongs to the grammar if it is the text of a form. A text is the text
of at most one form, and reading finds exactly that one: the reader takes the longest word, closes
a bracket at the first chance and never returns to a choice, and still it misses no form. -/
namespace Flowchart

namespace Reference

/-- A word, and the text between the brackets if there are any. -/
@[ext]
structure Form where
  word : List Char
  bracket : Option (List Char)
  word_ne_nil : word ≠ []
  isWord_of_mem : ∀ c ∈ word, Text.isWord c
  not_mem_bracket : ∀ inside, bracket = some inside → ']' ∉ inside

namespace Form

def bracketText : Option (List Char) → List Char
  | none => []
  | some inside => '[' :: inside ++ [']']

/-- Empty brackets are no label. -/
def bracketLabel : Option (List Char) → Option String
  | none | some [] => none
  | some inside => some (String.ofList inside)

theorem bracketLabel_eq_some_iff {bracket : Option (List Char)} {label : String} :
    bracketLabel bracket = some label ↔ bracket = some label.toList ∧ label.toList ≠ [] := by
  cases bracket with
  | none => simp [bracketLabel]
  | some inside =>
    cases inside with
    | nil =>
      constructor
      · intro h
        cases h
      · rintro ⟨spelled, nonempty⟩
        exact absurd (Option.some.inj spelled).symm nonempty
    | cons c cs =>
      have shown : bracketLabel (some (c :: cs)) = some (String.ofList (c :: cs)) := rfl
      rw [shown]
      constructor
      · intro h
        cases h
        simp
      · rintro ⟨spelled, -⟩
        rw [Option.some.inj spelled, String.ofList_toList]

def text (f : Form) : List Char := f.word ++ bracketText f.bracket

def reference (f : Form) : Reference := ⟨String.ofList f.word, bracketLabel f.bracket⟩

end Form

/-- A character that would belong to the reference before it. -/
def goesOn (c : Char) : Bool := Text.isWord c || c = '['

theorem stops_isWord_bracketText {rest : List Char} (ends : Text.Stops goesOn rest)
    (bracket : Option (List Char)) :
    Text.Stops Text.isWord (Form.bracketText bracket ++ rest) := by
  cases bracket with
  | some inside => exact Text.stops_cons.mpr (Text.isWord_eq_false_of_mark (by simp))
  | none =>
    intro c first
    have outside : goesOn c = false := ends c first
    simp only [goesOn, Bool.or_eq_false_iff] at outside
    exact outside.1

theorem ne_close_of_mem {inside : List Char} (unclosed : ']' ∉ inside) :
    ∀ c ∈ inside, decide (c ≠ ']') = true := by
  intro c member
  apply decide_eq_true
  rintro rfl
  exact unclosed member

theorem stops_at_close (rest : List Char) :
    Text.Stops (fun c => decide (c ≠ ']')) (']' :: rest) := by simp

theorem readLabel_of_closed {inside : List Char} (rest : List Char) (unclosed : ']' ∉ inside) :
    readLabel ('[' :: (inside ++ ']' :: rest)) = (Form.bracketLabel (some inside), rest) := by
  have before := ne_close_of_mem unclosed
  rw [readLabel, Text.takeWhile_append_of_stops before (stops_at_close rest),
    Text.dropWhile_append_of_stops before (stops_at_close rest)]
  cases inside <;> rfl

theorem readLabel_of_not_closed {cs : List Char}
    (unclosed : ∀ inside, cs = '[' :: inside → ']' ∉ inside) : readLabel cs = (none, cs) := by
  unfold readLabel
  split
  · next inside =>
    have never_closed : inside.dropWhile (· ≠ ']') = [] :=
      List.dropWhile_eq_nil_iff.mpr (ne_close_of_mem (unclosed inside rfl))
    rw [never_closed]
  · rfl

theorem readLabel_bracketText {bracket : Option (List Char)} {rest : List Char}
    (unclosed : ∀ inside, bracket = some inside → ']' ∉ inside) (ends : Text.Stops goesOn rest) :
    readLabel (Form.bracketText bracket ++ rest) = (Form.bracketLabel bracket, rest) := by
  cases bracket with
  | some inside =>
    have whole : Form.bracketText (some inside) ++ rest = '[' :: (inside ++ ']' :: rest) := by
      simp [Form.bracketText]
    rw [whole, readLabel_of_closed rest (unclosed inside rfl)]
  | none =>
    apply readLabel_of_not_closed
    rintro inside rfl
    simp [goesOn] at ends

/-- Whatever a text begins with, reading a label takes away some bracket or none. -/
theorem exists_bracket (cs : List Char) :
    ∃ bracket : Option (List Char), (∀ inside, bracket = some inside → ']' ∉ inside) ∧
      cs = Form.bracketText bracket ++ (readLabel cs).2 ∧
      (readLabel cs).1 = Form.bracketLabel bracket := by
  by_cases closed : ∃ inside, cs = '[' :: inside ∧ ']' ∈ inside
  · obtain ⟨inside, rfl, member⟩ := closed
    obtain ⟨label, rest, rfl, unclosed⟩ := List.eq_append_cons_of_mem member
    rw [readLabel_of_closed rest unclosed]
    refine ⟨some label, ?_, by simp [Form.bracketText], rfl⟩
    rintro _ ⟨⟩
    exact unclosed
  · have unread : readLabel cs = (none, cs) := by
      apply readLabel_of_not_closed
      intro inside opened member
      exact closed ⟨inside, opened, member⟩
    rw [unread]
    exact ⟨none, by simp, rfl, rfl⟩

/-- A form is read back whatever follows, as long as that does not go on with the reference. -/
theorem read?_text (f : Form) {rest : List Char} (ends : Text.Stops goesOn rest) :
    read? (f.text ++ rest) = some (f.reference, rest) := by
  have stops := stops_isWord_bracketText ends f.bracket
  rw [Form.text, List.append_assoc, read?, Text.takeWhile_append_of_stops f.isWord_of_mem stops,
    Text.dropWhile_append_of_stops f.isWord_of_mem stops,
    readLabel_bracketText f.not_mem_bracket ends]
  cases spelled : f.word with
  | nil => exact absurd spelled f.word_ne_nil
  | cons c cs => simp [Form.reference, spelled]

theorem exists_form_of_read? {cs rest : List Char} {r : Reference}
    (h : read? cs = some (r, rest)) : ∃ f : Form, cs = f.text ++ rest ∧ r = f.reference := by
  obtain ⟨bracket, unclosed, whole, label⟩ := exists_bracket (cs.dropWhile Text.isWord)
  unfold read? at h
  split at h
  · cases h
  · next nonempty =>
    simp only [Option.some.injEq, Prod.mk.injEq] at h
    obtain ⟨rfl, rfl⟩ := h
    let f : Form :=
      { word := cs.takeWhile Text.isWord
        bracket := bracket
        word_ne_nil := nonempty
        isWord_of_mem := fun c member => List.mem_takeWhile_imp member
        not_mem_bracket := unclosed }
    refine ⟨f, ?_, ?_⟩
    · rw [Form.text, List.append_assoc, ← whole, List.takeWhile_append_dropWhile]
    · rw [Form.reference, ← label]

theorem ofText?_eq_some_iff {cs : List Char} {r : Reference} :
    ofText? cs = some r ↔ ∃ f : Form, f.text = cs ∧ f.reference = r := by
  constructor
  · intro h
    unfold ofText? at h
    split at h
    · next found =>
      cases h
      obtain ⟨f, rfl, rfl⟩ := exists_form_of_read? found
      exact ⟨f, by simp, rfl⟩
    · cases h
  · rintro ⟨f, rfl, rfl⟩
    have read := read?_text f (Text.stops_nil goesOn)
    rw [List.append_nil] at read
    rw [ofText?, read]

theorem isNone_ofText?_iff {cs : List Char} :
    (ofText? cs).isNone ↔ ¬ ∃ f : Form, f.text = cs := by
  rw [Option.isNone_iff_eq_none]
  constructor
  · rintro failed ⟨f, spelled⟩
    rw [ofText?_eq_some_iff.mpr ⟨f, spelled, rfl⟩] at failed
    cases failed
  · intro never
    apply Option.eq_none_iff_forall_not_mem.mpr
    intro r read
    obtain ⟨f, spelled, _⟩ := ofText?_eq_some_iff.mp read
    exact never ⟨f, spelled⟩

namespace Form

theorem bracketText_append_inj {bracket bracket' : Option (List Char)} {rest rest' : List Char}
    (unclosed : ∀ inside, bracket = some inside → ']' ∉ inside)
    (open' : ∀ inside, bracket' = some inside → ']' ∉ inside)
    (ends : Text.Stops goesOn rest) (ends' : Text.Stops goesOn rest')
    (same : bracketText bracket ++ rest = bracketText bracket' ++ rest') :
    bracket = bracket' ∧ rest = rest' := by
  cases bracket with
  | none =>
    cases bracket' with
    | none => exact ⟨rfl, same⟩
    | some inside' =>
      simp only [bracketText, List.nil_append, List.cons_append] at same
      simp [same, goesOn] at ends
  | some inside =>
    cases bracket' with
    | none =>
      simp only [bracketText, List.nil_append, List.cons_append] at same
      simp [← same, goesOn] at ends'
    | some inside' =>
      simp only [bracketText, List.cons_append, List.append_assoc, List.nil_append,
        List.cons.injEq, true_and] at same
      obtain ⟨rfl, left⟩ := Text.run_append_inj (ne_close_of_mem (unclosed inside rfl))
        (ne_close_of_mem (open' inside' rfl)) (stops_at_close rest) (stops_at_close rest') same
      exact ⟨rfl, (List.cons.inj left).2⟩

theorem text_append_inj {f g : Form} {rest rest' : List Char} (ends : Text.Stops goesOn rest)
    (ends' : Text.Stops goesOn rest') (same : f.text ++ rest = g.text ++ rest') :
    f = g ∧ rest = rest' := by
  rw [text, text, List.append_assoc, List.append_assoc] at same
  obtain ⟨word, after⟩ := Text.run_append_inj f.isWord_of_mem g.isWord_of_mem
    (stops_isWord_bracketText ends f.bracket) (stops_isWord_bracketText ends' g.bracket) same
  obtain ⟨bracket, left⟩ :=
    bracketText_append_inj f.not_mem_bracket g.not_mem_bracket ends ends' after
  exact ⟨Form.ext word bracket, left⟩

/-- The first character of a form is the first one of its word. -/
theorem exists_isWord_cons_text (f : Form) : ∃ c cs, Text.isWord c ∧ f.text = c :: cs := by
  cases spelled : f.word with
  | nil => exact absurd spelled f.word_ne_nil
  | cons c cs =>
    refine ⟨c, cs ++ bracketText f.bracket, f.isWord_of_mem c (by simp [spelled]), ?_⟩
    simp [text, spelled]

theorem stops_isGap_text (f : Form) (rest : List Char) : Text.Stops Text.isGap (f.text ++ rest) := by
  obtain ⟨c, cs, word, first⟩ := f.exists_isWord_cons_text
  rw [first, List.cons_append, Text.stops_cons]
  exact Text.isGap_eq_false_of_isWord word

/-- The last character of a form is a bracket, or else the last one of its word. -/
theorem trimmed_text (f : Form) : Text.Trimmed f.text where
  first := by
    obtain ⟨c, cs, word, first⟩ := f.exists_isWord_cons_text
    rw [first, Text.stops_cons]
    exact Text.isBlank_eq_false_of_isWord word
  last := by
    cases bracket : f.bracket with
    | none =>
      intro c last
      rw [text, bracket, bracketText, List.append_nil] at last
      have member : c ∈ f.word := List.mem_reverse.mp (List.mem_of_head? last)
      exact Text.isBlank_eq_false_of_isWord (f.isWord_of_mem c member)
    | some inside =>
      have closed : f.text = (f.word ++ '[' :: inside) ++ [']'] := by
        simp [text, bracket, bracketText]
      rw [closed]
      apply Text.stops_reverse_append _ (List.cons_ne_nil _ _)
      rw [List.reverse_singleton, Text.stops_cons]
      decide

end Form

end Reference

namespace Statement

/-- The gaps on both sides of an arrow, which may be empty. -/
@[ext]
structure Arrow where
  before : List Char
  after : List Char
  isGap_before : ∀ c ∈ before, Text.isGap c
  isGap_after : ∀ c ∈ after, Text.isGap c

namespace Arrow

def text (a : Arrow) : List Char := a.before ++ '-' :: '-' :: '>' :: a.after

theorem text_append (a : Arrow) (rest : List Char) :
    a.text ++ rest = a.before ++ '-' :: '-' :: '>' :: (a.after ++ rest) := by simp [text]

theorem stops_at_dash (rest : List Char) : Text.Stops Text.isGap ('-' :: rest) := by
  rw [Text.stops_cons]
  decide

theorem stops_goesOn_text (a : Arrow) (rest : List Char) :
    Text.Stops Reference.goesOn (a.text ++ rest) := by
  rw [text_append]
  cases gap : a.before with
  | nil =>
    have dash : Text.isWord '-' = false := Text.isWord_eq_false_of_mark (by simp)
    simp [Reference.goesOn, dash]
  | cons c cs =>
    have space : Text.isGap c := a.isGap_before c (by simp [gap])
    have word : Text.isWord c = false := by
      apply Bool.eq_false_iff.mpr
      intro word
      rw [Text.isGap_eq_false_of_isWord word] at space
      contradiction
    have bracket : c ≠ '[' := by
      rintro rfl
      exact absurd space (by decide)
    simp [Reference.goesOn, word, bracket]

theorem text_append_inj {a b : Arrow} {rest rest' : List Char} (ends : Text.Stops Text.isGap rest)
    (ends' : Text.Stops Text.isGap rest') (same : a.text ++ rest = b.text ++ rest') :
    a = b ∧ rest = rest' := by
  rw [text_append, text_append] at same
  obtain ⟨before, after⟩ := Text.run_append_inj a.isGap_before b.isGap_before
    (stops_at_dash _) (stops_at_dash _) same
  simp only [List.cons.injEq, true_and] at after
  obtain ⟨after, left⟩ := Text.run_append_inj a.isGap_after b.isGap_after ends ends' after
  exact ⟨Arrow.ext before after, left⟩

end Arrow

theorem arrow?_text (a : Arrow) {rest : List Char} (ends : Text.Stops Text.isGap rest) :
    arrow? (a.text ++ rest) = some rest := by
  rw [a.text_append, arrow?, Text.dropWhile_append_of_stops a.isGap_before (Arrow.stops_at_dash _)]
  simp only [Text.dropWhile_append_of_stops a.isGap_after ends]

theorem exists_arrow_of_arrow? {cs rest : List Char} (h : arrow? cs = some rest) :
    ∃ a : Arrow, cs = a.text ++ rest := by
  unfold arrow? at h
  split at h
  · next tail dashes =>
    cases h
    let a : Arrow :=
      { before := cs.takeWhile Text.isGap
        after := tail.takeWhile Text.isGap
        isGap_before := fun c member => List.mem_takeWhile_imp member
        isGap_after := fun c member => List.mem_takeWhile_imp member }
    refine ⟨a, ?_⟩
    rw [a.text_append, List.takeWhile_append_dropWhile, ← dashes,
      List.takeWhile_append_dropWhile]
  · cases h

/-- The references of a statement, and the arrows between them. -/
@[ext]
structure Form where
  first : Reference.Form
  rest : List (Arrow × Reference.Form)

namespace Form

/-- The text of arrows, each with the reference it points at. -/
def linksText : List (Arrow × Reference.Form) → List Char
  | [] => []
  | (arrow, target) :: links => arrow.text ++ (target.text ++ linksText links)

def text (f : Form) : List Char := f.first.text ++ linksText f.rest

def references (f : Form) : List Reference :=
  f.first.reference :: f.rest.map fun (_, target) => target.reference

def statement (f : Form) : Statement :=
  ⟨f.first.reference, f.rest.map fun (_, target) => target.reference⟩

@[simp] theorem references_statement (f : Form) : f.statement.references = f.references := rfl

theorem stops_goesOn_linksText (links : List (Arrow × Reference.Form)) :
    Text.Stops Reference.goesOn (linksText links) := by
  cases links with
  | nil => exact Text.stops_nil _
  | cons link links => exact link.1.stops_goesOn_text _

theorem linksText_inj {links links' : List (Arrow × Reference.Form)}
    (same : linksText links = linksText links') : links = links' := by
  induction links generalizing links' with
  | nil =>
    cases links' with
    | nil => rfl
    | cons link links' => simp [linksText, Arrow.text] at same
  | cons link links ih =>
    cases links' with
    | nil => simp [linksText, Arrow.text] at same
    | cons link' links' =>
      rw [linksText, linksText] at same
      obtain ⟨arrow, after⟩ := Arrow.text_append_inj (link.2.stops_isGap_text _)
        (link'.2.stops_isGap_text _) same
      obtain ⟨target, left⟩ := Reference.Form.text_append_inj (stops_goesOn_linksText links)
        (stops_goesOn_linksText links') after
      rw [Prod.ext arrow target, ih left]

theorem text_injective : Function.Injective text := by
  intro f g same
  obtain ⟨first, left⟩ := Reference.Form.text_append_inj (stops_goesOn_linksText f.rest)
    (stops_goesOn_linksText g.rest) same
  exact Form.ext first (linksText_inj left)

end Form

theorem readLinks?_linksText (links : List (Arrow × Reference.Form)) :
    readLinks? (Form.linksText links) = some (links.map fun (_, target) => target.reference) := by
  induction links with
  | nil => simp [Form.linksText, readLinks?]
  | cons link links ih =>
    have arrow := arrow?_text link.1 (link.2.stops_isGap_text (Form.linksText links))
    have target := Reference.read?_text link.2 (Form.stops_goesOn_linksText links)
    have read : readLink? (Form.linksText (link :: links)) =
        some (link.2.reference, Form.linksText links) := by
      rw [Form.linksText, readLink?, arrow, Option.bind_some, target]
    rw [readLinks?, if_neg (by simp [Form.linksText, Arrow.text])]
    split
    · next missing =>
      rw [read] at missing
      cases missing
    · next found =>
      rw [read] at found
      cases found
      rw [ih]
      rfl

theorem exists_links_of_readLinks? {cs : List Char} {rs : List Reference}
    (h : readLinks? cs = some rs) :
    ∃ links, cs = Form.linksText links ∧ rs = links.map fun (_, target) => target.reference := by
  fun_induction readLinks? cs generalizing rs with
  | case1 cs empty =>
    cases h
    exact ⟨[], List.isEmpty_iff.mp empty, rfl⟩
  | case2 => cases h
  | case3 cs nonempty reference rest link ih =>
    obtain ⟨others, read, rfl⟩ := Option.map_eq_some_iff.mp h
    obtain ⟨after, arrow, target⟩ := Option.bind_eq_some_iff.mp link
    obtain ⟨a, rfl⟩ := exists_arrow_of_arrow? arrow
    obtain ⟨f, rfl, rfl⟩ := Reference.exists_form_of_read? target
    obtain ⟨links, rfl, rfl⟩ := ih read
    exact ⟨(a, f) :: links, rfl, rfl⟩

theorem ofText?_text (f : Form) : ofText? f.text = some f.statement := by
  have first := Reference.read?_text f.first (Form.stops_goesOn_linksText f.rest)
  simp [ofText?, Form.text, first, readLinks?_linksText, Form.statement]

theorem exists_form_of_ofText? {cs : List Char} {s : Statement} (h : ofText? cs = some s) :
    ∃ f : Form, f.text = cs ∧ f.statement = s := by
  obtain ⟨⟨first, rest⟩, head, tail⟩ := Option.bind_eq_some_iff.mp h
  obtain ⟨targets, read, made⟩ := Option.bind_eq_some_iff.mp tail
  obtain ⟨f, rfl, rfl⟩ := Reference.exists_form_of_read? head
  obtain ⟨links, rfl, rfl⟩ := exists_links_of_readLinks? read
  cases made
  exact ⟨⟨f, links⟩, rfl, rfl⟩

/-- A text is a statement exactly if it is a chain of references with arrows between them, spelled
in any way the grammar allows. There is one way to take a text apart like that, and the references
read from it are the parts of that chain in their order. -/
theorem ofText?_exact :
    (∀ cs, (ofText? cs).isSome ↔ ∃ f : Form, f.text = cs) ∧
    Function.Injective Form.text ∧
    ∀ f : Form, (ofText? f.text).map references = some f.references := by
  refine ⟨fun cs => ⟨fun accepted => ?_, ?_⟩, Form.text_injective, fun f => ?_⟩
  · obtain ⟨s, read⟩ := Option.isSome_iff_exists.mp accepted
    obtain ⟨f, spelled, _⟩ := exists_form_of_ofText? read
    exact ⟨f, spelled⟩
  · rintro ⟨f, rfl⟩
    rw [ofText?_text, Option.isSome_some]
  · rw [ofText?_text]
    rfl

/-- An arrow inside brackets is text, and no gap is needed around an arrow. -/
example : ofText? "a[x --> [y]-->\tb[]".toList = some ⟨⟨"a", some "x --> [y"⟩, [⟨"b", none⟩]⟩ := by
  decide +kernel

end Statement

end Flowchart
