/-!
# Powers of two and of ten

The two bases in which numbers are written here, raised to a natural power.
-/

namespace BraceScript

/-- Two to the power `n`. -/
def twoTo (n : Nat) : Nat := Nat.pow 2 n

/-- Ten to the power `n`. -/
def tenTo (n : Nat) : Nat := Nat.pow 10 n

end BraceScript
