import Flowchart.Proofs.Captions
import Flowchart.Proofs.Clipping

/-! Runs of calls on a grid. Each call puts cells into one row, from any column on, and a run has a
result if the columns of all its calls can be counted. A row is as wide as the grid as long as no
call cuts a character at the edge of the grid, and none leaves two cells of a character of three
columns. -/
namespace Flowchart

namespace Grid

inductive Call where
  | write (row column : UInt64) (text : String)
  | set (row column : UInt64) (c : Char)
  | plot (x y : Int64) (c : Char)
  deriving DecidableEq, Repr

namespace Call

/-- The row and the column of the first cell, which need not be in the grid. -/
def target : Call → Option (Nat × Nat)
  | write row column _ | set row column _ => some (row.toNat, column.toNat)
  | plot x y _ =>
    if 0 ≤ x.toInt ∧ 0 ≤ y.toInt then some (y.toInt.toNat, x.toInt.toNat) else none

def cells : Call → List Cell
  | write _ _ text => Cell.ofText text
  | set _ _ c | plot _ _ c => [.ofChar c]

/-- Characters that can be shown, as a text or in a single column. -/
def Admissible : Call → Prop
  | write _ _ text => '\x00' ∉ text.toList
  | set _ _ c | plot _ _ c => c ≠ '\x00' ∧ Text.columns c = 1

instance (call : Call) : Decidable call.Admissible :=
  match call with
  | write _ _ _ => inferInstanceAs (Decidable (¬_))
  | set _ _ _ | plot _ _ _ => inferInstanceAs (Decidable (_ ∧ _))

/-- The column after the last cell is at most the number of columns that can be counted. -/
def Countable (call : Call) : Prop :=
  ∀ place ∈ call.target, place.2 + call.cells.length ≤ UInt64.size

instance (call : Call) : Decidable call.Countable := inferInstanceAs (Decidable (∀ _ ∈ _, _))

theorem Admissible.whole {call : Call} (admissible : call.Admissible) :
    Cell.Whole call.cells := by
  have one {c : Char} (plain : c ≠ '\x00' ∧ Text.columns c = 1) : Cell.Whole [.ofChar c] := by
    rw [Cell.ofChar, if_neg plain.1]
    exact .replicate plain.2 1
  cases call with
  | write row column text => exact .ofText admissible
  | set row column c => exact one admissible
  | plot x y c => exact one admissible

/-- The call puts something into a cell. -/
def Hits (call : Call) (i j : Nat) : Prop :=
  ∃ place ∈ call.target, i = place.1 ∧ place.2 ≤ j ∧ j < place.2 + call.cells.length

/-- The call does not put anything into the cell, but overwrites another one of its character. -/
def Cuts (call : Call) (g : Grid width height) (i j : Nat) : Prop :=
  ∃ place ∈ call.target, i = place.1 ∧ call.cells ≠ [] ∧
    (j + 1 = place.2 ∧ g.cell? i place.2 = some .covered ∨
      j = place.2 + call.cells.length ∧ g.cell? i j = some .covered)

/-- Next to the cells of the call, a character that loses some of its cells loses the others, too,
and nothing else changes. -/
structure Repairs (call : Call) (g g' : Grid width height) : Prop where
  blanked : ∀ i j, ¬call.Hits i j → call.Cuts g i j → g'.cell? i j = some .blank
  kept : ∀ i j, ¬call.Hits i j → ¬call.Cuts g i j → g'.cell? i j = g.cell? i j

/-- The call cuts no character at the edge of the grid, and overwrites none of which it leaves two
cells. -/
@[mk_iff]
structure Spares (call : Call) (g : Grid width height) : Prop where
  edge : ∀ place ∈ call.target, place.1 < height → place.2 < width →
    call.cells[width - place.2]? ≠ some .covered
  start : call.cells ≠ [] → ∀ place ∈ call.target,
    ¬(g.cell? place.1 (place.2 - 1) = some .covered ∧ g.cell? place.1 place.2 = some .covered)
  finish : call.cells ≠ [] → ∀ place ∈ call.target,
    ¬(g.cell? place.1 (place.2 + call.cells.length) = some .covered ∧
      g.cell? place.1 (place.2 + call.cells.length + 1) = some .covered)

instance (call : Call) (g : Grid width height) : Decidable (call.Spares g) :=
  decidable_of_iff _ (call.spares_iff g).symm

end Call

/-- There is no result if the columns of a text cannot be counted. -/
def perform (g : Grid width height) : Call → Option (Grid width height)
  | .write row column text => g.writeWord row.toNat column.toNat text
  | .set row column c => some (g.set row.toNat column.toNat c)
  | .plot x y c => some (g.plot x.toInt y.toInt c)

def performAll (g : Grid width height) (calls : List Call) : Option (Grid width height) :=
  calls.foldlM perform g

/-- Every call spares the characters that are there when it is made. -/
def Spared (g : Grid width height) : List Call → Prop
  | [] => True
  | call :: calls => call.Spares g ∧ ∀ g' ∈ g.perform call, g'.Spared calls

instance decidableSpared (g : Grid width height) : (calls : List Call) → Decidable (g.Spared calls)
  | [] => .isTrue trivial
  | _ :: calls =>
    have := fun g' : Grid width height => decidableSpared g' calls
    inferInstanceAs (Decidable (_ ∧ _))

variable {g : Grid width height} {call : Call} {calls : List Call}

/-- The grid after a call whose columns can be counted. -/
def performed (g : Grid width height) (call : Call) : Grid width height :=
  match call.target with
  | some (row, column) => g.mapRow row (·.write column call.cells)
  | none => g

theorem perform_eq (g : Grid width height) (call : Call) :
    g.perform call = if call.Countable then some (g.performed call) else none := by
  cases call with
  | write row column text =>
    rw [perform, writeWord_eq]
    refine if_congr ?_ rfl rfl
    simp [Call.Countable, Call.target, Call.cells, Cell.length_ofText]
  | set row column c =>
    rw [if_pos]
    · rfl
    · intro place target
      obtain rfl := Option.some.inj target
      exact column.toNat_lt
  | plot x y c =>
    rw [if_pos]
    · rw [perform, plot, performed, Call.target]
      split <;> rfl
    · intro place target
      rw [Call.target] at target
      split at target
      · obtain rfl := Option.some.inj target
        have := x.toInt_lt
        simp only [Call.cells, List.length_singleton, UInt64.size]
        omega
      · cases target

theorem performAll_cons (g : Grid width height) (call : Call) (calls : List Call) :
    g.performAll (call :: calls) = (g.perform call).bind (·.performAll calls) := rfl

theorem performAll_eq (g : Grid width height) (countable : ∀ call ∈ calls, call.Countable) :
    g.performAll calls = some (calls.foldl performed g) := by
  induction calls generalizing g with
  | nil => rfl
  | cons call calls ih =>
    obtain ⟨first, rest⟩ := List.forall_mem_cons.mp countable
    rw [performAll_cons, perform_eq, if_pos first, Option.bind_some, ih _ rest, List.foldl_cons]

/-- Only columns that cannot be counted keep a run from its result. -/
theorem isSome_performAll (g : Grid width height) (calls : List Call) :
    (g.performAll calls).isSome ↔ ∀ call ∈ calls, call.Countable := by
  induction calls generalizing g with
  | nil => simp [performAll]
  | cons call calls ih =>
    rw [performAll_cons, perform_eq, List.forall_mem_cons]
    by_cases countable : call.Countable
    · simp [countable, ih]
    · simp [countable]

theorem repairs_performed (g : Grid width height) (call : Call) :
    call.Repairs g (g.performed call) := by
  rw [performed]
  split
  · next row column target =>
    have hits {i j : Nat} : call.Hits i j ↔
        i = row ∧ column ≤ j ∧ j < column + call.cells.length := by
      simp [Call.Hits, target]
    have cuts {i j : Nat} : call.Cuts g i j ↔
        i = row ∧ call.cells ≠ [] ∧ (j + 1 = column ∧ g.cell? i column = some .covered ∨
          j = column + call.cells.length ∧ g.cell? i j = some .covered) := by
      simp [Call.Cuts, target]
    constructor
    · intro i j outside cut
      rw [cell?_mapRow_write g (mt hits.mpr outside), if_pos (cuts.mp cut)]
    · intro i j outside uncut
      rw [cell?_mapRow_write g (mt hits.mpr outside), if_neg (mt cuts.mpr uncut)]
  · next target =>
    constructor
    · rintro i j _ ⟨_, here, _⟩
      rw [target] at here
      cases here
    · exact fun _ _ _ _ => rfl

/-- A call keeps characters whole if it spares them. -/
theorem Whole.performed (whole : g.Whole) (admissible : call.Admissible) (spares : call.Spares g) :
    (g.performed call).Whole := by
  rw [Grid.performed]
  split
  · next row column target =>
    refine whole.mapRow row fun r found kept => ?_
    have cell := cell?_of_getElem? found
    have inside := (Vector.getElem?_eq_some_iff.mp found).1
    by_cases empty : call.cells = []
    · rwa [empty]
    have start := spares.start empty _ target
    have finish := spares.finish empty _ target
    simp only [cell] at start finish
    refine Row.whole_write_clipped kept ?_ admissible.whole (spares.edge _ target inside) finish
    rintro k rfl
    exact start
  · exact whole

theorem Whole.foldl_performed (whole : g.Whole) (admissible : ∀ call ∈ calls, call.Admissible)
    (countable : ∀ call ∈ calls, call.Countable) (spared : g.Spared calls) :
    (calls.foldl Grid.performed g).Whole := by
  induction calls generalizing g with
  | nil => exact whole
  | cons call calls ih =>
    obtain ⟨first, others⟩ := List.forall_mem_cons.mp admissible
    obtain ⟨counted, rest⟩ := List.forall_mem_cons.mp countable
    have made : g.performed call ∈ g.perform call := by rw [perform_eq, if_pos counted]; rfl
    exact ih (whole.performed first spared.1) others rest (spared.2 _ made)

theorem Unbroken.foldl_performed (unbroken : g.Unbroken)
    (one_line : ∀ call ∈ calls, .shown '\n' ∉ call.cells) :
    (calls.foldl Grid.performed g).Unbroken := by
  refine List.foldlRecOn (motive := Unbroken) calls _ unbroken fun g unbroken call member => ?_
  rw [Grid.performed]
  split
  · next row column target =>
    refine unbroken.mapRow row fun r kept broken => ?_
    rcases Row.mem_write broken with new | blank | old
    · exact one_line call member new
    · cases blank
    · exact kept old
  · exact unbroken

/-- What a run of calls makes of an empty grid. -/
structure Neat (calls : List Call) (g : Grid width height) : Prop where
  length_lines : g.lines.length = height
  displayWidth_line : ∀ line ∈ g.lines, Text.displayWidth (String.ofList line) = width
  /-- Unless a line feed is written, each row is a line of its own. -/
  splitOn_render : 0 < height → (∀ call ∈ calls, .shown '\n' ∉ call.cells) →
    g.render.toList.splitOn '\n' = g.lines
  /-- No call leaves a part of a character that it cuts. -/
  repairs : ∀ before call after, calls = before ++ call :: after →
    ∃ h h', (blank width height).performAll before = some h ∧ h.perform call = some h' ∧
      call.Repairs h h'

/-- Rows keep the width of the grid in any run of calls on an empty one whose columns can be
counted, whatever is overwritten. Only at the edge of the grid, and within characters of three
columns, the calls must spare the characters. -/
theorem rows_kept_aligned {width height : UInt64} {calls : List Call}
    (admissible : ∀ call ∈ calls, call.Admissible)
    (countable : ∀ call ∈ calls, call.Countable)
    (spared : (blank width.toNat height.toNat).Spared calls) :
    ∃ g, (blank width.toNat height.toNat).performAll calls = some g ∧ g.Neat calls := by
  refine ⟨_, performAll_eq _ countable, ?_⟩
  have whole := whole_blank.foldl_performed admissible countable spared
  constructor
  · exact length_lines _
  · exact fun line member => whole.displayWidth_line member
  · intro positive one_line
    exact (unbroken_blank.foldl_performed one_line).splitOn_render positive
  · rintro before call after rfl
    rw [List.forall_mem_append, List.forall_mem_cons] at countable
    obtain ⟨earlier, here, _⟩ := countable
    refine ⟨_, _, performAll_eq _ earlier, ?_, repairs_performed _ call⟩
    rw [perform_eq, if_pos here]

/-- The second column of a wide character is overwritten, then the one in the middle of three, and
the last text is cut. -/
theorem rows_kept_aligned_overwritten :
    let calls : List Call := [.write 0 0 "日x\u17D8", .set 0 1 '-', .plot 4 0 '+', .write 0 5 "ab"]
    (∀ call ∈ calls, call.Admissible) ∧ (∀ call ∈ calls, call.Countable) ∧
      (blank 6 1).Spared calls ∧
      ((blank 6 1).performAll calls).map Grid.lines = some [" -x +a".toList] ∧
      ∃ g, (blank 6 1).performAll calls = some g ∧ g.Neat calls := by
  intro calls
  have admissible : ∀ call ∈ calls, call.Admissible := by decide +kernel
  have countable : ∀ call ∈ calls, call.Countable := by decide +kernel
  have spared : (blank (UInt64.toNat 6) (UInt64.toNat 1)).Spared calls := by decide +kernel
  exact ⟨admissible, countable, spared, by decide +kernel,
    rows_kept_aligned admissible countable spared⟩

/-- A character of three columns loses its first two, and the third one is not shown. A character of
two columns at the edge is shown all the same. -/
theorem rows_misaligned :
    let calls : List Call := [.write 0 0 "\u17D8", .set 0 0 'x', .write 0 2 "世"]
    (∀ call ∈ calls, call.Admissible) ∧ (∀ call ∈ calls, call.Countable) ∧
      ((blank 3 1).performAll (calls.take 2)).map Grid.lines = some ["x ".toList] ∧
      Text.displayWidth "x " = 2 ∧
      ((blank 3 1).performAll calls).map Grid.lines = some ["x 世".toList] ∧
      Text.displayWidth "x 世" = 4 := by
  decide +kernel

end Grid

end Flowchart
