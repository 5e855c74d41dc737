/-!
# Powers of two and of ten

They bound the words of a machine and scale decimals.
-/

namespace ColorMarks

/-- Two multiplied by itself so many times. -/
def twoTo (n : Nat) : Nat := Nat.pow 2 n

/-- Ten multiplied by itself so many times. -/
def tenTo (n : Nat) : Nat := Nat.pow 10 n

theorem twoTo_succ (n : Nat) : twoTo (n + 1) = twoTo n * 2 := rfl

theorem twoTo_pos (n : Nat) : 0 < twoTo n := by
  induction n with
  | zero => decide
  | succ n ih => rw [twoTo_succ]; omega

end ColorMarks
