/-!
# Powers of two and ten

The bases of the number formats: words of a machine count in powers of two, decimals in powers of
ten.
-/

namespace Shortlist.Number

/-- Two to the power `n`. -/
def twoTo (n : Nat) : Nat := Nat.pow 2 n

/-- Ten to the power `n`. -/
def tenTo (n : Nat) : Nat := Nat.pow 10 n

end Shortlist.Number
