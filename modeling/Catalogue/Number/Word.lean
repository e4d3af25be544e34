/-! Whole numbers of 64 bits, one of which is for the sign. -/

namespace Catalogue.Number

/-- The bound below which the whole numbers of 64 bits lie. -/
def wordBound : Int := 9223372036854775808

/-- A number has no more than 64 bits. -/
def FitsWord (n : Int) : Prop := -wordBound ≤ n ∧ n < wordBound

instance (n : Int) : Decidable (FitsWord n) := by unfold FitsWord; infer_instance

end Catalogue.Number
