/-!
Integers brought into a word's range by clamping: a value outside the range becomes the nearest
end of it.
-/

namespace LabelPress

def clampInt32 (n : Int) : Int32 :=
  Int32.ofInt (max (-2147483648) (min n 2147483647))

def clampedAdd (a b : Int32) : Int32 := clampInt32 (a.toInt + b.toInt)

def clampedMul (a b : Int32) : Int32 := clampInt32 (a.toInt * b.toInt)

theorem toInt_clampInt32 (n : Int) :
    (clampInt32 n).toInt = max (-2147483648) (min n 2147483647) := by
  unfold clampInt32
  exact Int32.toInt_ofInt_of_le (by omega) (by omega)

end LabelPress
