import Mathlib.Algebra.Order.Field.Basic

/-!
# Ordered fields

Two steps of the instance search, for sections on ordered fields to make local instances.
Where all of Mathlib is imported, the search tries the star-ordered rings before it comes to
these steps.
-/

namespace BadmintonRobot.Numeric

variable (K : Type) [Field K] [LinearOrder K] [IsStrictOrderedRing K]

theorem isOrderedRing : IsOrderedRing K := IsStrictOrderedRing.toIsOrderedRing

theorem zeroLEOneClass : ZeroLEOneClass K := (isOrderedRing K).toZeroLEOneClass

end BadmintonRobot.Numeric
