/-!
# Powers of two and ten

The bases of binary and decimal numbers, raised to whole powers.
-/

namespace Downline.Decimal

/-- Two to a power. -/
def twoTo (n : Nat) : Nat := Nat.pow 2 n

/-- Ten to a power. -/
def tenTo (n : Nat) : Nat := Nat.pow 10 n

end Downline.Decimal
