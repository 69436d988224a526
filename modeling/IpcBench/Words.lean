/-!
Conversions to the 64-bit integer types of C. An operation on machine integers
is the mathematical operation followed by the conversion to the type of its
result.
-/

namespace Words

def sizeT (value : Int) : Nat :=
  (value % 18446744073709551616).toNat

def ssizeT (value : Int) : Int :=
  (value + 9223372036854775808) % 18446744073709551616 - 9223372036854775808

def intT (value : Int) : Int :=
  (value + 2147483648) % 4294967296 - 2147483648

theorem sizeT_eq {value : Int} (lower : 0 ≤ value) (upper : value < 18446744073709551616) :
    sizeT value = value.toNat := by
  unfold sizeT
  omega

@[simp] theorem sizeT_natCast {value : Nat} (upper : value < 18446744073709551616) :
    sizeT (value : Int) = value := by
  unfold sizeT
  omega

theorem sizeT_sub {left right : Nat} (fits : left < 18446744073709551616)
    (below : right ≤ left) : sizeT ((left : Int) - right) = left - right := by
  unfold sizeT
  omega

theorem sizeT_add {left right : Nat} (fits : left + right < 18446744073709551616) :
    sizeT ((left : Int) + right) = left + right := by
  unfold sizeT
  omega

theorem ssizeT_eq {value : Int} (lower : -9223372036854775808 ≤ value)
    (upper : value < 9223372036854775808) : ssizeT value = value := by
  unfold ssizeT
  omega

theorem intT_eq {value : Int} (lower : -2147483648 ≤ value) (upper : value < 2147483648) :
    intT value = value := by
  unfold intT
  omega

theorem ssizeT_ssizeT_add (left right : Int) :
    ssizeT (ssizeT left + right) = ssizeT (left + right) := by
  unfold ssizeT
  omega

theorem sizeT_sizeT_add (left right : Int) :
    sizeT (sizeT left + right) = sizeT (left + right) := by
  unfold sizeT
  omega

theorem sizeT_sizeT_sub (left right : Int) :
    sizeT (sizeT left - right) = sizeT (left - right) := by
  unfold sizeT
  omega

end Words
