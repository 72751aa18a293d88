/-! Decimal digits of naturals. -/

set_option autoImplicit false

namespace Admission.Text

theorem digitChar_ne_zero {digit : Nat} (pos : 0 < digit) (lt : digit < 10) :
    digit.digitChar ≠ '0' := by
  have value := Nat.toNat_digitChar_sub_48_of_lt_ten lt
  intro eq
  rw [eq] at value
  simp at value
  omega

theorem head?_toDigits_ne_zero {n : Nat} (pos : 0 < n) : (Nat.toDigits 10 n).head? ≠ some '0' := by
  induction n using Nat.base_induction 10 (by decide) with
  | single n lt =>
    rw [Nat.toDigits_of_lt_base lt]
    simpa using digitChar_ne_zero pos lt
  | digit n digit lt higher ih =>
    rw [← Nat.toDigits_append_toDigits (by decide) higher lt, List.head?_append]
    cases eq : Nat.toDigits 10 n with
    | nil => exact absurd eq Nat.toDigits_ne_nil
    | cons c digits => simpa [eq] using ih higher

theorem all_isDigit_toDigits (n : Nat) : (Nat.toDigits 10 n).all Char.isDigit = true :=
  List.all_eq_true.2 fun _ mem => Nat.isDigit_of_mem_toDigits (by decide) (by decide) mem

end Admission.Text
