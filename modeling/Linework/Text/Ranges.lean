/-!
# Sets of characters given by ranges

A character class is a list of inclusive code point ranges in increasing order. Membership stops
at the first range that begins beyond the code point, so the classes that hold ASCII are quick to
test on ASCII text.
-/

namespace Linework.Text

/-- Inclusive code point ranges, in increasing order. -/
abbrev Ranges := List (Nat × Nat)

/-- Whether a code point lies in one of the ranges. -/
def Ranges.contains (n : Nat) : Ranges → Bool
  | [] => false
  | (low, high) :: rest => if n < low then false else n ≤ high || contains n rest

/-- A code point is in the ranges only if one of them holds it. -/
theorem Ranges.exists_mem_of_contains {n : Nat} {rs : Ranges} (h : contains n rs = true) :
    ∃ r ∈ rs, r.1 ≤ n ∧ n ≤ r.2 := by
  induction rs with
  | nil => cases h
  | cons r rs ih =>
    obtain ⟨low, high⟩ := r
    rw [contains] at h
    split at h
    · cases h
    · next above =>
      rw [Bool.or_eq_true, decide_eq_true_eq] at h
      rcases h with below | rest
      · exact ⟨(low, high), List.mem_cons_self, Nat.le_of_not_lt above, below⟩
      · obtain ⟨r, mem, inside⟩ := ih rest
        exact ⟨r, List.mem_cons_of_mem _ mem, inside⟩

end Linework.Text
