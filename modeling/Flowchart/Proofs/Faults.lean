import Flowchart.Proofs.Blame
import Flowchart.Proofs.Meaning

/-! Which sources are refused, and with what. The first line at fault decides, in the order of the
source: its number counts every line, and nothing that follows it is looked at. -/
namespace Flowchart

namespace Direction

theorem ofKeyword?_eq_some_iff {cs : List Char} {d : Direction} :
    ofKeyword? cs = some d ↔ cs.map Char.toUpper = d.keyword.toList := by
  constructor
  · intro h
    unfold ofKeyword? at h
    split at h
    all_goals cases h
    all_goals assumption
  · intro same
    rw [ofKeyword?, same]
    cases d <;> rfl

end Direction

namespace Header

/-- The word, a gap and a keyword, whatever the case of their letters. -/
def Spelled (cs : List Char) (d : Direction) : Prop :=
  ∃ name gap keyword, cs = name ++ gap ++ keyword ∧ name.map Char.toLower = word ∧
    gap ≠ [] ∧ (∀ c ∈ gap, Text.isGap c) ∧ keyword.map Char.toUpper = d.keyword.toList

/-- No letter of a keyword is a gap. -/
theorem stops_isGap_keyword {keyword : List Char} {d : Direction}
    (spelled : keyword.map Char.toUpper = d.keyword.toList) : Text.Stops Text.isGap keyword := by
  cases keyword with
  | nil => exact Text.stops_nil _
  | cons c cs =>
    rw [Text.stops_cons]
    apply Bool.eq_false_iff.mpr
    intro gap
    simp only [Text.isGap, Bool.or_eq_true, decide_eq_true_eq] at gap
    rcases gap with rfl | rfl
    all_goals
      cases d
      all_goals
        simp only [List.map_cons] at spelled
        exact absurd (List.cons.inj spelled).1 (by decide)

theorem read?_eq_some_iff {cs : List Char} {d : Direction} :
    read? cs = some d ↔ Spelled cs d := by
  constructor
  · intro h
    unfold read? at h
    split at h
    · next name =>
      split at h
      · next c rest after =>
        split at h
        · next gap =>
          refine ⟨cs.take word.length, c :: rest.takeWhile Text.isGap, rest.dropWhile Text.isGap,
            ?_, name, by simp, ?_, Direction.ofKeyword?_eq_some_iff.mp h⟩
          · rw [List.append_assoc, List.cons_append, List.takeWhile_append_dropWhile, ← after,
              List.take_append_drop]
          · intro c' member
            rcases List.mem_cons.mp member with rfl | later
            · exact gap
            · exact List.mem_takeWhile_imp later
        · cases h
      · cases h
    · cases h
  · rintro ⟨name, gap, keyword, rfl, named, nonempty, all, spelled⟩
    have length : name.length = word.length := by rw [← named, List.length_map]
    have front : (name ++ gap ++ keyword).take word.length = name := by
      rw [List.append_assoc, ← length, List.take_left]
    have back : (name ++ gap ++ keyword).drop word.length = gap ++ keyword := by
      rw [List.append_assoc, ← length, List.drop_left]
    cases gap with
    | nil => exact absurd rfl nonempty
    | cons c gap =>
      have inside : ∀ c ∈ gap, Text.isGap c := fun c' member => all c' (by simp [member])
      rw [read?, front, if_pos named, back]
      simp only [List.cons_append, all c (by simp), if_true]
      rw [Text.dropWhile_append_of_stops inside (stops_isGap_keyword spelled)]
      exact Direction.ofKeyword?_eq_some_iff.mpr spelled

end Header

namespace Text

/-- A line of a source that is neither blank nor a comment. Lines are numbered from one. -/
structure ContentLine (source : String) (line : Line) : Prop where
  stands : ∃ i raw, (source.toList.splitOn '\n')[i]? = some raw ∧ line = ⟨i + 1, trim raw⟩
  ne_nil : line.text ≠ []
  no_comment : ¬ ['%', '%'] <+: line.text

theorem mem_contentLines_iff {source : String} {line : Line} :
    line ∈ contentLines source ↔ ContentLine source line := by
  have stands : line ∈ lines source ↔
      ∃ i raw, (source.toList.splitOn '\n')[i]? = some raw ∧ line = ⟨i + 1, trim raw⟩ := by
    rw [lines, List.mem_map]
    constructor
    · rintro ⟨⟨raw, number⟩, member, rfl⟩
      obtain ⟨low, found⟩ := List.mk_mem_zipIdx_iff_le_and_getElem?_sub.mp member
      exact ⟨number - 1, raw, found, by rw [Nat.sub_add_cancel low]⟩
    · rintro ⟨i, raw, found, rfl⟩
      refine ⟨(raw, i + 1), ?_, rfl⟩
      exact List.mk_mem_zipIdx_iff_le_and_getElem?_sub.mpr ⟨by omega, by simpa using found⟩
  rw [contentLines, List.mem_filter, stands, isContent_iff]
  constructor
  · rintro ⟨here, nonempty, read⟩
    exact ⟨here, nonempty, read⟩
  · rintro ⟨here, nonempty, read⟩
    exact ⟨here, nonempty, read⟩

theorem contentLines_ascending (source : String) :
    (contentLines source).Pairwise (·.number < ·.number) := by
  apply List.Pairwise.filter
  apply List.pairwise_map.mpr
  have numbers : ((source.toList.splitOn '\n').zipIdx 1).Pairwise (·.2 < ·.2) := by
    apply List.pairwise_map.mp
    rw [List.zipIdx_map_snd]
    exact List.pairwise_lt_range' 1
  exact numbers

/-- The first content line of a source, which has to be the header. -/
structure Opens (source : String) (line : Line) : Prop where
  content : ContentLine source line
  first : ∀ other, ContentLine source other → line.number ≤ other.number

/-- The first content line after the header that is no statement. -/
structure Offends (source : String) (header line : Line) : Prop where
  content : ContentLine source line
  later : header.number < line.number
  malformed : ¬ ∃ f : Statement.Form, f.text = line.text
  first : ∀ other, ContentLine source other → header.number < other.number →
    other.number < line.number → ∃ f : Statement.Form, f.text = other.text

variable {source : String} {header line : Line} {body : List Line}

theorem contentLines_eq_nil_iff : contentLines source = [] ↔ ∀ line, ¬ ContentLine source line := by
  rw [List.eq_nil_iff_forall_not_mem]
  simp only [mem_contentLines_iff]

theorem mem_body_iff (content : contentLines source = header :: body) :
    line ∈ body ↔ ContentLine source line ∧ header.number < line.number := by
  have ascending := contentLines_ascending source
  rw [content, List.pairwise_cons] at ascending
  rw [← mem_contentLines_iff, content, List.mem_cons]
  constructor
  · intro member
    exact ⟨.inr member, ascending.1 line member⟩
  · rintro ⟨rfl | member, later⟩
    · exact absurd later (Nat.lt_irrefl _)
    · exact member

theorem opens_iff : Opens source line ↔ ∃ body, contentLines source = line :: body := by
  constructor
  · rintro ⟨content, first⟩
    cases all : contentLines source with
    | nil => exact absurd content (contentLines_eq_nil_iff.mp all line)
    | cons header body =>
      have least := first header (mem_contentLines_iff.mp (by simp [all]))
      rw [← mem_contentLines_iff, all] at content
      rcases List.mem_cons.mp content with rfl | later
      · exact ⟨body, rfl⟩
      · have := ((mem_body_iff all).mp later).2
        omega
  · rintro ⟨body, all⟩
    refine ⟨mem_contentLines_iff.mp (by simp [all]), fun other content => ?_⟩
    rw [← mem_contentLines_iff, all] at content
    rcases List.mem_cons.mp content with rfl | later
    · exact Nat.le_refl _
    · exact Nat.le_of_lt ((mem_body_iff all).mp later).2

theorem Opens.unique {other : Line} (opens : Opens source line) (opens' : Opens source other) :
    line = other := by
  obtain ⟨body, content⟩ := opens_iff.mp opens
  obtain ⟨body', content'⟩ := opens_iff.mp opens'
  rw [content] at content'
  exact (List.cons.inj content').1

theorem offends_iff (content : contentLines source = header :: body) :
    Offends source header line ↔ ∃ good rest, body = good ++ line :: rest ∧
      (∀ other ∈ good, ∃ f : Statement.Form, f.text = other.text) ∧
      ¬ ∃ f : Statement.Form, f.text = line.text := by
  have ascending := contentLines_ascending source
  rw [content, List.pairwise_cons] at ascending
  constructor
  · rintro ⟨stands, later, malformed, first⟩
    obtain ⟨good, rest, rfl⟩ := List.append_of_mem ((mem_body_iff content).mpr ⟨stands, later⟩)
    refine ⟨good, rest, rfl, fun other member => ?_, malformed⟩
    obtain ⟨stands', later'⟩ := (mem_body_iff content).mp (List.mem_append_left _ member)
    have before := (List.pairwise_append.mp ascending.2).2.2 other member line (by simp)
    exact first other stands' later' before
  · rintro ⟨good, rest, rfl, grammatical, malformed⟩
    have inside : line ∈ good ++ line :: rest := by simp
    obtain ⟨stands, later⟩ := (mem_body_iff content).mp inside
    refine ⟨stands, later, malformed, fun other stands' later' before => ?_⟩
    have member := (mem_body_iff content).mpr ⟨stands', later'⟩
    rcases List.mem_append.mp member with inside | after
    · exact grammatical other inside
    · have tail := (List.pairwise_append.mp ascending.2).2.1
      rcases List.mem_cons.mp after with rfl | behind
      · exact absurd before (Nat.lt_irrefl _)
      · have := List.rel_of_pairwise_cons tail behind
        omega

end Text

theorem mapM_eq_error_iff {f : α → Except ε β} {xs : List α} {e : ε} :
    xs.mapM f = .error e ↔ ∃ good bad rest, xs = good ++ bad :: rest ∧
      (∀ x ∈ good, ∃ y, f x = .ok y) ∧ f bad = .error e := by
  induction xs with
  | nil => simp [pure, Except.pure]
  | cons x xs ih =>
    have whole : (x :: xs).mapM f = .error e ↔
        f x = .error e ∨ (∃ y, f x = .ok y) ∧ xs.mapM f = .error e := by
      rw [List.mapM_cons]
      cases f x with
      | error e' => simp [bind, Except.bind]
      | ok y => cases xs.mapM f <;> simp [bind, Except.bind, pure, Except.pure]
    rw [whole, ih]
    constructor
    · rintro (first | ⟨passed, good, bad, rest, rfl, all, failed⟩)
      · exact ⟨[], x, xs, rfl, by simp, first⟩
      · exact ⟨x :: good, bad, rest, rfl, List.forall_mem_cons.mpr ⟨passed, all⟩, failed⟩
    · rintro ⟨good, bad, rest, split, all, failed⟩
      cases good with
      | nil =>
        obtain ⟨rfl, rfl⟩ := List.cons.inj split
        exact .inl failed
      | cons y good =>
        obtain ⟨rfl, rfl⟩ := List.cons.inj split
        obtain ⟨passed, later⟩ := List.forall_mem_cons.mp all
        exact .inr ⟨passed, good, bad, rest, rfl, later, failed⟩

namespace Statement

theorem exists_read_ok_iff {line : Text.Line} :
    (∃ s, read line = .ok s) ↔ ∃ f : Form, f.text = line.text := by
  constructor
  · rintro ⟨s, parsed⟩
    obtain ⟨f, spelled, _⟩ := exists_form_of_ofText? (read_eq_ok_iff.mp parsed)
    exact ⟨f, spelled⟩
  · rintro ⟨f, spelled⟩
    exact ⟨f.statement, read_eq_ok_iff.mpr (by rw [← spelled, ofText?_text])⟩

theorem read_eq_error_iff {line : Text.Line} {e : ReadError} :
    read line = .error e ↔ (¬ ∃ f : Form, f.text = line.text) ∧ blame line = e := by
  rw [← exists_read_ok_iff]
  unfold read
  cases ofText? line.text <;> simp

end Statement

theorem Header.read?_eq_none_iff {cs : List Char} :
    read? cs = none ↔ ¬ ∃ d, Spelled cs d := by
  simp only [← read?_eq_some_iff, Option.eq_none_iff_forall_ne_some, not_exists, ne_eq]

/-- A source is refused for want of content, for its first content line or for a later one. -/
inductive Document.Refusal (source : String) : ReadError → Prop
  | empty (nothing : ∀ line, ¬ Text.ContentLine source line) : Refusal source .emptyInput
  | header {header : Text.Line} (opens : Text.Opens source header)
      (misspelled : ¬ ∃ d, Header.Spelled header.text d) :
      Refusal source (.unsupportedDiagram header.number (some Header.suggestion))
  | statement {header line : Text.Line} {text : String} {advice : Option String}
      (opens : Text.Opens source header) (spelled : ∃ d, Header.Spelled header.text d)
      (offends : Text.Offends source header line)
      (blamed : Statement.Blamed line.text text advice) :
      Refusal source (.invalidSyntax line.number text advice)

theorem Text.mapM_read_eq_error_iff {source : String} {header : Line} {body : List Line}
    {e : ReadError} (content : contentLines source = header :: body) :
    body.mapM Statement.read = .error e ↔
      ∃ line, Offends source header line ∧ Statement.blame line = e := by
  simp only [mapM_eq_error_iff, Statement.exists_read_ok_iff, Statement.read_eq_error_iff,
    offends_iff content]
  constructor
  · rintro ⟨good, bad, rest, split, all, malformed, blamed⟩
    exact ⟨bad, ⟨good, rest, split, all, malformed⟩, blamed⟩
  · rintro ⟨bad, ⟨good, rest, split, all, malformed⟩, blamed⟩
    exact ⟨good, bad, rest, split, all, malformed, blamed⟩

theorem Document.read_eq_error_iff {source : String} {e : ReadError} :
    read source = .error e ↔ Refusal source e := by
  constructor
  · intro h
    unfold read at h
    split at h
    · next empty =>
      cases h
      exact .empty (Text.contentLines_eq_nil_iff.mp empty)
    · next header body content =>
      have opens : Text.Opens source header := Text.opens_iff.mpr ⟨body, content⟩
      split at h
      · next unread =>
        cases h
        exact .header opens (Header.read?_eq_none_iff.mp unread)
      · next direction keyword =>
        have spelled : ∃ d, Header.Spelled header.text d :=
          ⟨direction, Header.read?_eq_some_iff.mp keyword⟩
        cases parsed : body.mapM Statement.read with
        | ok statements =>
          rw [parsed] at h
          cases h
        | error e' =>
          rw [parsed] at h
          cases h
          obtain ⟨line, offends, blamed⟩ := (Text.mapM_read_eq_error_iff content).mp parsed
          obtain ⟨text, advice, same⟩ := Statement.exists_blame line
          rw [← blamed, same]
          exact .statement opens spelled offends (Statement.blamed_iff.mpr same)
  · intro refused
    cases refused with
    | empty nothing => rw [read, Text.contentLines_eq_nil_iff.mpr nothing]
    | header opens misspelled =>
      obtain ⟨body, content⟩ := Text.opens_iff.mp opens
      rw [read, content]
      simp only [Header.read?_eq_none_iff.mpr misspelled]
    | statement opens spelled offends blamed =>
      obtain ⟨body, content⟩ := Text.opens_iff.mp opens
      obtain ⟨direction, keyword⟩ := spelled
      have parsed := (Text.mapM_read_eq_error_iff content).mpr
        ⟨_, offends, Statement.blamed_iff.mp blamed⟩
      rw [read, content]
      simp only [Header.read?_eq_some_iff.mpr keyword, parsed]
      rfl

namespace Text

variable {source other : String} {n : Nat}

/-- The first lines of two sources are the same. -/
def Agree (source other : String) (n : Nat) : Prop :=
  (other.toList.splitOn '\n').take n = (source.toList.splitOn '\n').take n

theorem Agree.symm (agree : Agree source other n) : Agree other source n := Eq.symm agree

theorem ContentLine.of_agree {line : Line} (content : ContentLine source line)
    (agree : Agree source other n) (within : line.number ≤ n) : ContentLine other line := by
  obtain ⟨⟨i, raw, found, rfl⟩, nonempty, read⟩ := content
  refine ⟨⟨i, raw, ?_, rfl⟩, nonempty, read⟩
  have inside : i < n := within
  rw [← List.getElem?_take_of_lt inside, agree, List.getElem?_take_of_lt inside, found]

theorem Opens.of_agree {header : Line} (opens : Opens source header) (agree : Agree source other n)
    (within : header.number ≤ n) : Opens other header where
  content := opens.content.of_agree agree within
  first line content := by
    by_contra before
    have back := content.of_agree agree.symm (by omega)
    exact before (opens.first line back)

theorem Offends.of_agree {header line : Line} (offends : Offends source header line)
    (agree : Agree source other n) (within : line.number ≤ n) : Offends other header line where
  content := offends.content.of_agree agree within
  later := offends.later
  malformed := offends.malformed
  first line' content later before :=
    offends.first line' (content.of_agree agree.symm (by omega)) later before

end Text

theorem Document.Refusal.of_agree {source other : String} {n : Nat} {e : ReadError}
    (refused : Refusal source e) (agree : Text.Agree source other n) (numbered : e.line? = some n) :
    Refusal other e := by
  cases refused with
  | empty => cases numbered
  | header opens misspelled =>
    obtain rfl := Option.some.inj numbered
    exact .header (opens.of_agree agree (Nat.le_refl _)) misspelled
  | statement opens spelled offends blamed =>
    obtain rfl := Option.some.inj numbered
    exact .statement (opens.of_agree agree (Nat.le_of_lt offends.later)) spelled
      (offends.of_agree agree (Nat.le_refl _)) blamed

namespace Chart

theorem read_eq_error_iff {source : String} {e : ReadError} :
    read source = .error e ↔ Document.Refusal source e := by
  rw [← Document.read_eq_error_iff, read]
  cases Document.read source <;> simp [Except.map]

theorem exists_read_ok_iff {source : String} :
    (∃ c, read source = .ok c) ↔
      ∃ header, Text.Opens source header ∧ (∃ d, Header.Spelled header.text d) ∧
        ∀ line, Text.ContentLine source line → header.number < line.number →
          ∃ f : Statement.Form, f.text = line.text := by
  constructor
  · rintro ⟨c, accepted⟩
    obtain ⟨d, parsed, _⟩ := read_eq_ok_iff.mp accepted
    obtain ⟨header, body, forms, content, keyword, texts, _⟩ := Document.read_eq_ok_iff.mp parsed
    refine ⟨header, Text.opens_iff.mpr ⟨body, content⟩,
      ⟨d.direction, Header.read?_eq_some_iff.mp keyword⟩, fun line stands later => ?_⟩
    have member := List.mem_map_of_mem (f := Text.Line.text)
      ((Text.mem_body_iff content).mpr ⟨stands, later⟩)
    rw [texts] at member
    obtain ⟨form, _, spelled⟩ := List.mem_map.mp member
    exact ⟨form, spelled⟩
  · rintro ⟨header, opens, spelled, grammatical⟩
    cases accepted : read source with
    | ok c => exact ⟨c, rfl⟩
    | error e =>
      cases read_eq_error_iff.mp accepted with
      | empty nothing => exact absurd opens.content (nothing header)
      | header opens' misspelled =>
        obtain rfl := opens.unique opens'
        exact absurd spelled misspelled
      | statement opens' _ offends _ =>
        obtain rfl := opens.unique opens'
        exact absurd (grammatical _ offends.content offends.later) offends.malformed

/-- What is wrong with a source is decided line by line. -/
structure Judged (source : String) : Prop where
  emptyInput_iff : read source = .error .emptyInput ↔ ∀ line, ¬ Text.ContentLine source line
  /-- The first content line has to be a header. -/
  unsupportedDiagram_iff : ∀ number advice,
    read source = .error (.unsupportedDiagram number advice) ↔
    ∃ header, Text.Opens source header ∧ (¬ ∃ d, Header.Spelled header.text d) ∧
      number = header.number ∧ advice = some Header.suggestion
  /-- The first later one that is no statement is blamed, by its number among all lines. -/
  invalidSyntax_iff : ∀ number text advice,
    read source = .error (.invalidSyntax number text advice) ↔
      ∃ header line, Text.Opens source header ∧ (∃ d, Header.Spelled header.text d) ∧
        Text.Offends source header line ∧ number = line.number ∧
        Statement.Blamed line.text text advice
  accepted_iff : (∃ c, read source = .ok c) ↔
    ∃ header, Text.Opens source header ∧ (∃ d, Header.Spelled header.text d) ∧
      ∀ line, Text.ContentLine source line → header.number < line.number →
        ∃ f : Statement.Form, f.text = line.text
  /-- The lines up to the one at fault decide alone. -/
  decided : ∀ other e number, read source = .error e → e.line? = some number →
    (other.toList.splitOn '\n').take number = (source.toList.splitOn '\n').take number →
    read other = .error e

/-- A source without content is empty, and otherwise its first fault is reported. -/
theorem read_first_fault (source : String) : Judged source := by
  constructor
  case emptyInput_iff =>
    rw [read_eq_error_iff]
    exact ⟨fun | .empty nothing => nothing, .empty⟩
  case unsupportedDiagram_iff =>
    intro number advice
    rw [read_eq_error_iff]
    constructor
    · rintro ⟨⟩
      next header opens misspelled => exact ⟨header, opens, misspelled, rfl, rfl⟩
    · rintro ⟨header, opens, misspelled, rfl, rfl⟩
      exact .header opens misspelled
  case invalidSyntax_iff =>
    intro number text advice
    rw [read_eq_error_iff]
    constructor
    · rintro ⟨⟩
      next header line opens spelled offends blamed =>
        exact ⟨header, line, opens, spelled, offends, rfl, blamed⟩
    · rintro ⟨header, line, opens, spelled, offends, rfl, blamed⟩
      exact .statement opens spelled offends blamed
  case accepted_iff => exact exists_read_ok_iff
  case decided =>
    intro other e number refused numbered agree
    rw [read_eq_error_iff] at refused ⊢
    exact refused.of_agree agree numbered

/-- The fifth line is at fault, whatever the lines after it say. -/
theorem read_first_fault_fifth :
    let source := "\r\n%% note\nFlowChart\ttb\n\n A[x] --> B]y --> C[\nD"
    let other := "\r\n%% note\nFlowChart\ttb\n\n A[x] --> B]y --> C[\n]\n"
    let fault := ReadError.invalidSyntax 5 "B]y" (some Statement.pieceSuggestion)
    read source = .error fault ∧ fault.line? = some 5 ∧
      (other.toList.splitOn '\n').take 5 = (source.toList.splitOn '\n').take 5 ∧
      read other = .error fault := by
  intro source other fault
  have refused : read source = .error fault := by decide +kernel
  have agree : (other.toList.splitOn '\n').take 5 = (source.toList.splitOn '\n').take 5 := by
    decide +kernel
  exact ⟨refused, rfl, agree, (read_first_fault source).decided other fault 5 refused rfl agree⟩

end Chart

end Flowchart
