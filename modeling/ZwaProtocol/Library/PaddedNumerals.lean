import Mathlib.Algebra.Ring.Nat

/-!
Numerals of a fixed number of digits. A numeral that is padded on the left with zeros is
one: its digits are read off the value, from the last place on.
-/

namespace PaddedNumerals

/-- The low `count` digits of a value, most significant first. -/
def numeral (base : Nat) : Nat → Nat → List Char
  | 0, _ => []
  | count + 1, value => numeral base count (value / base) ++ [Nat.digitChar (value % base)]

theorem numeral_zero (base count : Nat) : numeral base count 0 = List.replicate count '0' := by
  induction count with
  | zero => rfl
  | succ count ih =>
      rw [numeral, Nat.zero_div, ih, Nat.zero_mod, List.replicate_succ']
      rfl

theorem leftpad_concat {α : Type*} (pad last : α) {front : List α} {count : Nat}
    (h : front.length ≤ count) :
    (front ++ [last]).leftpad (count + 1) pad = front.leftpad count pad ++ [last] := by
  have hcount : count + 1 - (front ++ [last]).length = count - front.length := by
    rw [List.length_append, List.length_singleton]
    omega
  rw [List.leftpad, List.leftpad, hcount, List.append_assoc]

theorem leftpad_toDigits {base : Nat} (large : 1 < base) {count value : Nat}
    (h : value < base ^ (count + 1)) :
    (Nat.toDigits base value).leftpad (count + 1) '0' = numeral base (count + 1) value := by
  induction count generalizing value with
  | zero =>
      rw [Nat.zero_add, Nat.pow_one] at h
      rw [Nat.toDigits_of_lt_base h, numeral, Nat.mod_eq_of_lt h]
      rfl
  | succ count ih =>
      by_cases hsmall : value < base
      · rw [Nat.toDigits_of_lt_base hsmall, numeral, Nat.div_eq_of_lt hsmall,
          Nat.mod_eq_of_lt hsmall, numeral_zero, List.leftpad, List.length_singleton,
          Nat.add_sub_cancel]
      · have hquotient : value / base < base ^ (count + 1) := by
          rw [Nat.div_lt_iff_lt_mul (by omega), ← Nat.pow_succ]
          exact h
        have hlength : (Nat.toDigits base (value / base)).length ≤ count + 1 :=
          (Nat.length_toDigits_le_iff large (Nat.succ_pos count)).mpr hquotient
        have hrest := ih hquotient
        rw [Nat.toDigits_of_base_le large (Nat.le_of_not_lt hsmall), leftpad_concat _ _ hlength,
          hrest]
        rfl

end PaddedNumerals
