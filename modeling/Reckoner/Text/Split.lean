/-!
# Splitting a text at a mark

The parts of a list of characters between the places where one character stands. The mark ends one
part and begins the next, so there is one part more than there are marks.
-/

set_option autoImplicit false

namespace Reckoner.Text

/-- The parts between the places where a mark stands. -/
def splitAtMark (mark : Char) : List Char → List (List Char)
  | [] => [[]]
  | c :: rest =>
    if c = mark then [] :: splitAtMark mark rest
    else
      match splitAtMark mark rest with
      | [] => [[c]]
      | first :: others => (c :: first) :: others

theorem splitAtMark_ne_nil (mark : Char) (characters : List Char) :
    splitAtMark mark characters ≠ [] := by
  fun_cases splitAtMark mark characters <;> simp

theorem not_mem_of_mem_splitAtMark {mark : Char} {characters part : List Char}
    (member : part ∈ splitAtMark mark characters) : mark ∉ part := by
  induction characters generalizing part with
  | nil => simp_all [splitAtMark]
  | cons c rest inner =>
    simp only [splitAtMark] at member
    split at member
    · rcases List.mem_cons.1 member with rfl | later
      · simp
      · exact inner later
    · rename_i different
      have differs : mark ≠ c := fun equal => different equal.symm
      split at member
      · rw [List.mem_singleton.1 member, List.mem_singleton]
        exact differs
      · rename_i first others parts
        rcases List.mem_cons.1 member with rfl | later
        · have absent := @inner first (by rw [parts]; exact List.mem_cons_self)
          exact fun held => (List.mem_cons.1 held).elim differs absent
        · exact inner (by rw [parts]; exact List.mem_cons_of_mem _ later)

end Reckoner.Text
