import Flowchart.Proofs.Cutting
import Mathlib.Data.Set.List

/-! When cutting a line and reading it agree. A line whose pieces are references is a statement if
and only if there are only gaps beside its arrows: then the pieces are its references, padded with
gaps. Any other blank beside an arrow is one that trimming a piece takes away, but reading does not
pass. -/
namespace Flowchart

namespace Statement

/-- A reference with gaps on both sides, which may be empty. -/
structure Padded where
  before : List Char
  form : Reference.Form
  after : List Char
  isGap_before : ∀ c ∈ before, Text.isGap c
  isGap_after : ∀ c ∈ after, Text.isGap c

namespace Padded

def text (p : Padded) : List Char := p.before ++ (p.form.text ++ p.after)

/-- The text of padded references with arrows between them. -/
def joined (ps : List Padded) : List Char := List.intercalate arrowSign (ps.map text)

theorem joined_singleton (p : Padded) : joined [p] = p.text := List.intercalate_singleton

theorem joined_cons_cons (p q : Padded) (ps : List Padded) :
    joined (p :: q :: ps) = p.text ++ (arrowSign ++ joined (q :: ps)) :=
  intercalate_cons arrowSign p.text (List.cons_ne_nil q.text (ps.map text))

theorem isBlank_before (p : Padded) : ∀ c ∈ p.before, Text.isBlank c :=
  fun c member => Text.isBlank_of_isGap (p.isGap_before c member)

theorem isBlank_after (p : Padded) : ∀ c ∈ p.after, Text.isBlank c :=
  fun c member => Text.isBlank_of_isGap (p.isGap_after c member)

theorem trim_text (p : Padded) : Text.trim p.text = p.form.text :=
  p.form.trimmed_text.trim_surrounded p.isBlank_before p.isBlank_after

theorem isGap_trimmedOff (p : Padded) : ∀ c ∈ Text.trimmedOff p.text, Text.isGap c := by
  obtain ⟨c, cs, _, chars⟩ := p.form.exists_isWord_cons_text
  rw [text, p.form.trimmed_text.trimmedOff_eq p.isBlank_before p.isBlank_after (by simp [chars])]
  intro c member
  rcases List.mem_append.mp member with before | after
  · exact p.isGap_before c before
  · exact p.isGap_after c after

theorem exists_of_trim {cs : List Char} (valid : ∃ f : Reference.Form, f.text = Text.trim cs)
    (gaps : ∀ c ∈ Text.trimmedOff cs, Text.isGap c) : ∃ p : Padded, p.text = cs := by
  obtain ⟨f, same⟩ := valid
  refine ⟨⟨Text.blanksBefore cs, f, Text.blanksAfter cs, ?_, ?_⟩, ?_⟩
  · exact fun c member => gaps c (List.mem_append_left _ member)
  · exact fun c member => gaps c (List.mem_append_right _ member)
  · simp only [text, same, Text.blanksBefore_append]

theorem clear_text {p : Padded} (clear : ¬ arrowSign <:+: p.form.text) : ¬ arrowSign <:+: p.text :=
  clear_blanks_append (clear_append_blanks clear p.isBlank_after) p.isBlank_before

theorem exists_joined_eq (p : Padded) (ps : List Padded) :
    ∃ rest, joined (p :: ps) = p.before ++ (p.form.text ++ rest) := by
  cases ps with
  | nil => exact ⟨p.after, joined_singleton p⟩
  | cons q ps =>
    refine ⟨p.after ++ (arrowSign ++ joined (q :: ps)), ?_⟩
    rw [joined_cons_cons]
    simp [text]

/-- If all pieces are references, no reference has been cut. -/
theorem clear_of_forall_pieces {ps : List Padded}
    (valid : ∀ q ∈ pieces (joined ps), ∃ f : Reference.Form, f.text = Text.trim q) :
    ∀ p ∈ ps, ¬ arrowSign <:+: p.text := by
  induction ps with
  | nil => simp
  | cons p ps ih =>
    have first : ¬ arrowSign <:+: p.text := by
      refine clear_text fun arrow => ?_
      obtain ⟨rest, same⟩ := exists_joined_eq p ps
      obtain ⟨front, others, cut, _, bad⟩ := p.form.exists_bad_piece arrow p.isBlank_before rest
      exact bad (valid _ (by simp [same, cut]))
    refine List.forall_mem_cons.mpr ⟨first, ?_⟩
    cases ps with
    | nil => simp
    | cons q ps =>
      refine ih fun piece member => valid piece ?_
      rw [joined_cons_cons, pieces_append first]
      exact List.mem_cons_of_mem _ member

theorem cut_joined {ps : List Padded} (nonempty : ps ≠ [])
    (clear : ∀ p ∈ ps, ¬ arrowSign <:+: p.text) :
    Cut (joined ps) (ps.map text) where
  ne_nil := by simpa using nonempty
  joined := rfl
  clear := List.forall_mem_map.mpr clear

/-- Arrows between padded references are arrows between the references themselves. -/
theorem exists_linksText (p : Padded) (ps : List Padded) :
    ∃ links after, (∀ c ∈ after, Text.isBlank c) ∧
      joined (p :: ps) = p.before ++ ((p.form.text ++ Form.linksText links) ++ after) := by
  induction ps generalizing p with
  | nil => exact ⟨[], p.after, p.isBlank_after, by simp [joined_singleton, text, Form.linksText]⟩
  | cons q ps ih =>
    obtain ⟨links, after, blank, same⟩ := ih q
    let arrow : Arrow := ⟨p.after, q.before, p.isGap_after, q.isGap_before⟩
    refine ⟨(arrow, q.form) :: links, after, blank, ?_⟩
    rw [joined_cons_cons, same]
    simp [text, Form.linksText, Arrow.text, arrow, arrowSign]

theorem exists_form {ps : List Padded} (nonempty : ps ≠ []) (trimmed : Text.Trimmed (joined ps)) :
    ∃ f : Form, f.text = joined ps := by
  obtain ⟨p, ps, rfl⟩ := List.exists_cons_of_ne_nil nonempty
  obtain ⟨links, after, blank, same⟩ := exists_linksText p ps
  rw [same] at trimmed ⊢
  have start := trimmed.eq_nil_of_blanks_append p.isBlank_before
  rw [← List.append_assoc] at trimmed
  have finish := trimmed.eq_nil_of_append_blanks blank
  exact ⟨⟨p.form, links⟩, by simp [start, finish, Form.text]⟩

theorem exists_of_links {gap : List Char} (gaps : ∀ c ∈ gap, Text.isGap c) (f : Reference.Form)
    (links : List (Arrow × Reference.Form)) :
    ∃ p ps, joined (p :: ps) = gap ++ (f.text ++ Form.linksText links) ∧
      (p :: ps).map form = f :: links.map Prod.snd := by
  induction links generalizing gap f with
  | nil =>
    refine ⟨⟨gap, f, [], gaps, by simp⟩, [], ?_, rfl⟩
    simp [joined_singleton, text, Form.linksText]
  | cons link links ih =>
    obtain ⟨q, ps, same, forms⟩ := ih link.1.isGap_after link.2
    refine ⟨⟨gap, f, link.1.before, gaps, link.1.isGap_before⟩, q :: ps, ?_, ?_⟩
    · rw [joined_cons_cons, same]
      simp [text, Form.linksText, Arrow.text, arrowSign]
    · rw [List.map_cons, forms, List.map_cons]

theorem exists_of_form (f : Form) : ∃ ps : List Padded, ps ≠ [] ∧ joined ps = f.text ∧
    f.references = ps.map fun p => p.form.reference := by
  obtain ⟨p, ps, same, forms⟩ := exists_of_links (List.forall_mem_nil _) f.first f.rest
  refine ⟨p :: ps, List.cons_ne_nil p ps, same, ?_⟩
  have references := congrArg (List.map Reference.Form.reference) forms
  simpa [Form.references, Function.comp_def] using references.symm

end Padded

/-- A character with at most blanks between it and an arrow. -/
def BesideArrow (cs : List Char) (c : Char) : Prop :=
  ∃ left gap right, (∀ b ∈ gap, Text.isBlank b) ∧
    (cs = left ++ (arrowSign ++ (gap ++ c :: right)) ∨
      cs = left ++ (c :: (gap ++ (arrowSign ++ right))))

/-- Before and after a piece there is an arrow, or the text ends. -/
theorem exists_around {ps : List (List Char)} {p : List Char} (member : p ∈ ps) :
    ∃ left right, List.intercalate arrowSign ps = left ++ (p ++ right) ∧
      (left = [] ∨ ∃ start, left = start ++ arrowSign) ∧
      (right = [] ∨ ∃ rest, right = arrowSign ++ rest) := by
  induction ps with
  | nil => cases member
  | cons q ps ih =>
    cases ps with
    | nil =>
      obtain rfl := List.mem_singleton.mp member
      exact ⟨[], [], by simp, .inl rfl, .inl rfl⟩
    | cons q' ps =>
      rw [intercalate_cons arrowSign q (List.cons_ne_nil q' ps)]
      rcases List.mem_cons.mp member with rfl | later
      · exact ⟨[], _, rfl, .inl rfl, .inr ⟨_, rfl⟩⟩
      · obtain ⟨left, right, same, before, after⟩ := ih later
        refine ⟨q ++ (arrowSign ++ left), right, by simp [same], .inr ?_, after⟩
        rcases before with rfl | ⟨start, rfl⟩
        · exact ⟨q, by simp⟩
        · exact ⟨q ++ (arrowSign ++ start), by simp⟩

variable {cs : List Char} {ps : List (List Char)}

/-- The ends of a trimmed line are not blank, so what is trimmed off a piece is beside an arrow. -/
theorem Cut.besideArrow (cut : Cut cs ps) (trimmed : Text.Trimmed cs) {p : List Char} (member : p ∈ ps)
    {c : Char} (off : c ∈ Text.trimmedOff p) : Text.isBlank c ∧ BesideArrow cs c := by
  obtain ⟨left, right, same, before, after⟩ := exists_around member
  rw [cut.joined, ← Text.blanksBefore_append p] at same
  subst same
  rcases List.mem_append.mp off with start | finish
  · have blank := Text.isBlank_blanksBefore p
    refine ⟨blank c start, ?_⟩
    rcases before with rfl | ⟨left, rfl⟩
    · rw [List.nil_append, List.append_assoc] at trimmed
      rw [trimmed.eq_nil_of_blanks_append blank] at start
      cases start
    · obtain ⟨gap, more, split⟩ := List.append_of_mem start
      refine ⟨left, gap, more ++ (Text.trim p ++ Text.blanksAfter p) ++ right, fun b inside => ?_, ?_⟩
      · exact blank b (by simp [split, inside])
      · exact .inl (by simp [split])
  · have blank := Text.isBlank_blanksAfter p
    refine ⟨blank c finish, ?_⟩
    rcases after with rfl | ⟨right, rfl⟩
    · rw [List.append_nil, ← List.append_assoc, ← List.append_assoc] at trimmed
      rw [trimmed.eq_nil_of_append_blanks blank] at finish
      cases finish
    · obtain ⟨more, gap, split⟩ := List.append_of_mem finish
      refine ⟨left ++ (Text.blanksBefore p ++ (Text.trim p ++ more)), gap, right, fun b inside => ?_, ?_⟩
      · exact blank b (by simp [split, inside])
      · exact .inr (by simp [split])

/-- If all pieces of a statement are references, they are its references with gaps around them. -/
theorem Form.exists_pieces (f : Form)
    (valid : ∀ p ∈ pieces f.text, ∃ g : Reference.Form, g.text = Text.trim p) :
    ∃ ps : List Padded, pieces f.text = ps.map Padded.text ∧
      f.references = ps.map fun p => p.form.reference := by
  obtain ⟨ps, nonempty, same, references⟩ := Padded.exists_of_form f
  rw [← same] at valid ⊢
  have cut := Padded.cut_joined nonempty (Padded.clear_of_forall_pieces valid)
  exact ⟨ps, cut.eq_pieces.symm, references⟩

/-- Between references there may be gaps beside the arrows, and nothing else. -/
theorem Cut.exists_form_iff (cut : Cut cs ps) (trimmed : Text.Trimmed cs)
    (valid : ∀ p ∈ ps, ∃ f : Reference.Form, f.text = Text.trim p) :
    (∃ f : Form, f.text = cs) ↔ ∀ p ∈ ps, ∀ c ∈ Text.trimmedOff p, Text.isGap c := by
  constructor
  · rintro ⟨f, rfl⟩
    obtain ⟨padded, same, _⟩ := f.exists_pieces (cut.eq_pieces ▸ valid)
    rw [cut.eq_pieces, same]
    exact List.forall_mem_map.mpr fun p _ => p.isGap_trimmedOff
  · -- Each piece is a padded reference, so the line is made of them.
    intro gaps
    have made : ps ∈ Set.range (List.map Padded.text) := by
      rw [Set.range_list_map]
      exact fun p member => Padded.exists_of_trim (valid p member) (gaps p member)
    obtain ⟨padded, rfl⟩ := made
    have nonempty : padded ≠ [] := by simpa using cut.ne_nil
    obtain rfl : Padded.joined padded = cs := cut.joined
    exact Padded.exists_form nonempty trimmed

/-- A trimmed line whose pieces are references is a statement exactly if whatever is trimmed off
beside an arrow is a space or a tab, and then its references are the pieces in their order. So a line
with an arrow is blamed as a whole only if another blank character stands beside an arrow. -/
theorem ofText?_iff_gaps (trimmed : Text.Trimmed cs) (cut : Cut cs ps) :
    ((∀ p ∈ ps, ∃ f : Reference.Form, f.text = Text.trim p) →
      ((ofText? cs).isSome ↔ ∀ p ∈ ps, ∀ c ∈ Text.trimmedOff p, Text.isGap c) ∧
      ∀ s, ofText? cs = some s →
        s.references.map some = ps.map fun p => Reference.ofText? (Text.trim p)) ∧
    ∀ number text, arrowSign <:+: cs →
      read ⟨number, cs⟩ = .error (.invalidSyntax number text (some lineSuggestion)) →
      ∃ c, BesideArrow cs c ∧ Text.isBlank c ∧ ¬ Text.isGap c := by
  have accepted : (ofText? cs).isSome ↔ ∃ f : Form, f.text = cs := by
    rw [Option.isSome_iff_exists]
    constructor
    · rintro ⟨s, parsed⟩
      obtain ⟨f, spelled, _⟩ := exists_form_of_ofText? parsed
      exact ⟨f, spelled⟩
    · rintro ⟨f, rfl⟩
      exact ⟨f.statement, ofText?_text f⟩
  refine ⟨fun valid => ⟨accepted.trans (cut.exists_form_iff trimmed valid), fun s parsed => ?_⟩,
    fun number text arrow refused => ?_⟩
  · obtain ⟨f, rfl, rfl⟩ := exists_form_of_ofText? parsed
    obtain ⟨padded, same, references⟩ := f.exists_pieces (cut.eq_pieces ▸ valid)
    rw [cut.eq_pieces, same, Form.references_statement, references, List.map_map, List.map_map]
    refine List.map_congr_left fun p _ => ?_
    have read := Reference.ofText?_eq_some_iff.mpr ⟨p.form, rfl, rfl⟩
    simp only [Function.comp_apply, p.trim_text, read]
  · have valid := (blamed_of_read refused).forall_pieces rfl arrow
    have malformed := (read_eq_error_iff.mp refused).1
    rw [← cut.eq_pieces] at valid
    rw [cut.exists_form_iff trimmed valid] at malformed
    push Not at malformed
    obtain ⟨p, member, c, off, other⟩ := malformed
    obtain ⟨blank, beside⟩ := cut.besideArrow trimmed member off
    exact ⟨c, beside, blank, other⟩

/-- An ideographic space before the second arrow is trimmed off, but is no gap. -/
theorem ofText?_iff_gaps_wide :
    let cs := "a\t-->b[ ]\u3000--> c".toList
    let ps := ["a\t".toList, "b[ ]\u3000".toList, " c".toList]
    Text.Trimmed cs ∧ Cut cs ps ∧ (∀ p ∈ ps, ∃ f : Reference.Form, f.text = Text.trim p) ∧
      (¬ ∀ p ∈ ps, ∀ c ∈ Text.trimmedOff p, Text.isGap c) ∧ ¬ (ofText? cs).isSome ∧
      arrowSign <:+: cs ∧
      read ⟨1, cs⟩ = .error (.invalidSyntax 1 (String.ofList cs) (some lineSuggestion)) ∧
      ∃ c, BesideArrow cs c ∧ Text.isBlank c ∧ ¬ Text.isGap c := by
  intro cs ps
  have trimmed : Text.Trimmed cs := ⟨by decide +kernel, by decide +kernel⟩
  have cut : Cut cs ps := by
    have same : pieces cs = ps := by decide +kernel
    rw [← same]
    exact cut_pieces cs
  have valid : ∀ p ∈ ps, ∃ f : Reference.Form, f.text = Text.trim p := by
    have parsed : ∀ p ∈ ps, ¬ (Reference.ofText? (Text.trim p)).isNone := by decide +kernel
    intro p member
    simpa only [Reference.isNone_ofText?_iff, not_not] using parsed p member
  have other : ¬ ∀ p ∈ ps, ∀ c ∈ Text.trimmedOff p, Text.isGap c := by
    intro gaps
    have wide := gaps "b[ ]\u3000".toList (by simp [ps]) '\u3000' (by decide +kernel)
    exact absurd wide (by decide)
  have arrow : arrowSign <:+: cs := by decide +kernel
  have refused : read ⟨1, cs⟩ = .error (.invalidSyntax 1 (String.ofList cs) (some lineSuggestion)) := by
    decide +kernel
  have agree := ofText?_iff_gaps trimmed cut
  exact ⟨trimmed, cut, valid, other, mt (agree.1 valid).1.mp other, arrow, refused,
    agree.2 1 _ arrow refused⟩

end Statement

end Flowchart
