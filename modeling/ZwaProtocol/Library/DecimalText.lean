import Mathlib.Data.List.Basic
import Mathlib.Data.List.Induction

/-!
Decimal numerals. A list of digits denotes a number whatever zeros stand in front; it is
the numeral of that number exactly when it is not padded.
-/

namespace DecimalText

/-- A zero stands in front of another digit. -/
def Padded (digits : List Char) : Prop := 1 < digits.length ∧ digits.head? = some '0'

instance (digits : List Char) : Decidable (Padded digits) := inferInstanceAs (Decidable (_ ∧ _))

theorem le_ofDigitChars (digits : List Char) (init : Nat) :
    init ≤ Nat.ofDigitChars 10 digits init := by
  induction digits generalizing init with
  | nil => exact Nat.le_refl init
  | cons c digits ih =>
      rw [Nat.ofDigitChars_cons]
      exact Nat.le_trans (by omega) (ih _)

theorem digitChar_of_isDigit {c : Char} (h : c.isDigit) :
    c.toNat - '0'.toNat < 10 ∧ (c.toNat - '0'.toNat).digitChar = c := by
  obtain ⟨hlow, hhigh⟩ := Char.isDigit_iff_toNat.mp h
  have hzero : '0'.toNat = 48 := rfl
  have hnine : '9'.toNat = 57 := rfl
  have hsmall : c.toNat - '0'.toNat < 10 := by omega
  refine ⟨hsmall, Char.toNat_inj.mp ?_⟩
  rw [Nat.toNat_digitChar_of_lt_ten hsmall]
  omega

/-- The numeral of a positive number starts with another digit than zero. -/
theorem head?_toDigits {n : Nat} (positive : 0 < n) : (Nat.toDigits 10 n).head? ≠ some '0' := by
  induction n using Nat.strongRecOn with
  | ind n ih =>
      by_cases hsmall : n < 10
      · rw [Nat.toDigits_of_lt_base hsmall, List.head?_cons]
        simp only [ne_eq, Option.some.injEq, Nat.digitChar_eq_zero]
        omega
      · have hhead := ih (n / 10) (by omega) (by omega)
        rw [Nat.toDigits_of_base_le (by decide) (Nat.le_of_not_lt hsmall),
          List.head?_append_of_ne_nil _ Nat.toDigits_ne_nil]
        exact hhead

theorem not_padded_toDigits (n : Nat) : ¬ Padded (Nat.toDigits 10 n) := by
  rintro ⟨hlength, hhead⟩
  by_cases hzero : n = 0
  · rw [hzero, Nat.toDigits_zero] at hlength
    exact absurd hlength (by decide)
  · exact head?_toDigits (Nat.pos_of_ne_zero hzero) hhead

/-- Unpadded digits are the numeral of the number they denote. -/
theorem toDigits_ofDigitChars {digits : List Char} (numeral : ∀ c ∈ digits, c.isDigit)
    (nonempty : digits ≠ []) (unpadded : ¬ Padded digits) :
    Nat.toDigits 10 (Nat.ofDigitChars 10 digits 0) = digits := by
  induction digits using List.reverseRecOn with
  | nil => exact absurd rfl nonempty
  | append_singleton front c ih =>
      obtain ⟨hsmall, hdigit⟩ := digitChar_of_isDigit (numeral c (by simp))
      rw [Nat.ofDigitChars_append, Nat.ofDigitChars_cons, Nat.ofDigitChars_nil]
      by_cases hfront : front = []
      · subst hfront
        rw [Nat.ofDigitChars_nil, Nat.mul_zero, Nat.zero_add, Nat.toDigits_of_lt_base hsmall,
          hdigit]
        rfl
      · -- The front holds the leading digit, so it is not padded and not zero.
        have hhead : front.head? ≠ some '0' := by
          intro hhead
          refine unpadded ⟨?_, ?_⟩
          · have hlength := List.length_pos_iff.mpr hfront
            rw [List.length_append, List.length_singleton]
            omega
          · rw [List.head?_append_of_ne_nil _ hfront, hhead]
        have hrest := ih (fun c hc => numeral c (List.mem_append_left _ hc)) hfront
          (fun hpadded => hhead hpadded.2)
        have hpositive : 0 < Nat.ofDigitChars 10 front 0 := by
          refine Nat.pos_of_ne_zero (fun hzero => hhead ?_)
          rw [← hrest, hzero, Nat.toDigits_zero]
          rfl
        rw [← Nat.toDigits_append_toDigits (by decide) hpositive hsmall, hrest,
          Nat.toDigits_of_lt_base hsmall, hdigit]

theorem toDigits_ofDigitChars_iff {digits : List Char} (numeral : ∀ c ∈ digits, c.isDigit)
    (nonempty : digits ≠ []) :
    Nat.toDigits 10 (Nat.ofDigitChars 10 digits 0) = digits ↔ ¬ Padded digits := by
  constructor
  · intro h
    rw [← h]
    exact not_padded_toDigits _
  · exact toDigits_ofDigitChars numeral nonempty

end DecimalText
