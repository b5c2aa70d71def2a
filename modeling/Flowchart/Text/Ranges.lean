/-! Sets of code points, written as tables of ranges in ascending order. Looking a code point up
stops at the first range that lies above it; `contains_iff` says that this loses nothing. -/
namespace Flowchart.Text

/-- Code points from `first` to `last`, both included, for each pair `(first, last)`. -/
abbrev Ranges := List (Nat × Nat)

namespace Ranges

def contains : Ranges → Nat → Bool
  | [], _ => false
  | (first, last) :: rest, code => first ≤ code && (code ≤ last || contains rest code)

/-- No range is empty, and each ends before the next one starts. -/
def ascending : Ranges → Bool
  | [] => true
  | [(first, last)] => first ≤ last
  | (first, last) :: (first', last') :: rest =>
    first ≤ last && last < first' && ascending ((first', last') :: rest)

theorem ascending_tail {range : Nat × Nat} {rest : Ranges} (h : ascending (range :: rest)) :
    ascending rest := by
  cases rest with
  | nil => rfl
  | cons next rest => simp_all [ascending]

theorem first_le_of_mem {range : Nat × Nat} {rest : Ranges} (h : ascending (range :: rest)) :
    ∀ other ∈ rest, range.1 ≤ other.1 := by
  induction rest generalizing range with
  | nil => simp
  | cons next rest ih =>
    have tail := ih (ascending_tail h)
    simp only [ascending, Bool.and_eq_true, decide_eq_true_eq] at h
    intro other member
    rcases List.mem_cons.mp member with rfl | member
    · omega
    · have := tail other member
      omega

theorem contains_iff {ranges : Ranges} (h : ascending ranges) (code : Nat) :
    ranges.contains code ↔ ∃ range ∈ ranges, range.1 ≤ code ∧ code ≤ range.2 := by
  induction ranges with
  | nil => simp [contains]
  | cons range rest ih =>
    have bound := first_le_of_mem h
    simp only [contains, Bool.and_eq_true, Bool.or_eq_true, decide_eq_true_eq,
      ih (ascending_tail h), List.mem_cons, or_and_right, exists_or, exists_eq_left]
    constructor
    · rintro ⟨low, high | later⟩
      · exact .inl ⟨low, high⟩
      · exact .inr later
    · rintro (⟨low, high⟩ | ⟨other, member, low, high⟩)
      · exact ⟨low, .inl high⟩
      · exact ⟨Nat.le_trans (bound other member) low, .inr ⟨other, member, low, high⟩⟩

end Ranges

end Flowchart.Text
