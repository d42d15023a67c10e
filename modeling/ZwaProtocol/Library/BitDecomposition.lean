import Mathlib.Algebra.Field.ZMod
import Mathlib.Data.Vector.Basic
import Mathlib.Tactic.Ring

/-!
Bit decompositions over a prime field: a width of bits below the modulus
represents exactly the numbers of that width, and comparison is read off the top
bit of a difference. The relations are those of circomlib's `Num2Bits` and
`LessThan`.
-/

namespace BitDecomposition

section Bits
variable {F : Type*} [CommRing F]

/-- The value of little-endian bits. -/
def compose : List F → F
  | [] => 0
  | bit :: bits => bit + 2 * compose bits

/-- The little-endian bits of a number. -/
def decompose : Nat → Nat → List F
  | 0, _ => []
  | width + 1, n => ((n % 2 : Nat) : F) :: decompose width (n / 2)

@[simp] theorem length_decompose (width n : Nat) :
    (decompose width n : List F).length = width := by
  induction width generalizing n with
  | zero => rfl
  | succ width ih => simp [decompose, ih]

theorem compose_decompose {width n : Nat} (h : n < 2 ^ width) :
    compose (decompose width n : List F) = (n : F) := by
  induction width generalizing n with
  | zero =>
      have hzero : n = 0 := by simpa using h
      simp [decompose, compose, hzero]
  | succ width ih =>
      have hhalf : n / 2 < 2 ^ width := by
        rw [pow_succ] at h
        omega
      have hsplit : (n : F) = ((n % 2 + 2 * (n / 2) : Nat) : F) := by rw [Nat.mod_add_div]
      rw [decompose, compose, ih hhalf, hsplit]
      push_cast
      rfl

theorem binary_decompose (width n : Nat) :
    ∀ bit ∈ (decompose width n : List F), bit * (bit - 1) = 0 := by
  induction width generalizing n with
  | zero => simp [decompose]
  | succ width ih =>
      intro bit hbit
      obtain rfl | hbit := List.mem_cons.mp hbit
      · obtain h | h := Nat.mod_two_eq_zero_or_one n
        · simp [h]
        · simp [h]
      · exact ih _ bit hbit

theorem binary_iff [IsDomain F] {bit : F} : bit * (bit - 1) = 0 ↔ bit = 0 ∨ bit = 1 := by
  rw [mul_eq_zero, sub_eq_zero]

/-- Binary signals are the bits of some number of their width. -/
theorem exists_decompose [IsDomain F] (bits : List F) (binary : ∀ bit ∈ bits, bit * (bit - 1) = 0) :
    ∃ n < 2 ^ bits.length, bits = decompose bits.length n := by
  induction bits with
  | nil => exact ⟨0, by simp, rfl⟩
  | cons bit bits ih =>
      obtain ⟨n, hn, hbits⟩ := ih fun b hb => binary b (List.mem_cons_of_mem _ hb)
      have hpow : 2 ^ (bit :: bits).length = 2 * 2 ^ bits.length := by
        rw [List.length_cons, pow_succ, Nat.mul_comm]
      obtain rfl | rfl := binary_iff.mp (binary bit List.mem_cons_self)
      · refine ⟨2 * n, by omega, ?_⟩
        rw [List.length_cons, decompose, Nat.mul_mod_right, Nat.mul_div_cancel_left n (by decide),
          ← hbits, Nat.cast_zero]
      · refine ⟨2 * n + 1, by omega, ?_⟩
        have hmod : (2 * n + 1) % 2 = 1 := by omega
        have hdiv : (2 * n + 1) / 2 = n := by omega
        rw [List.length_cons, decompose, hmod, hdiv, ← hbits, Nat.cast_one]

theorem getLast?_decompose (width n : Nat) :
    (decompose (width + 1) n : List F).getLast? = some ((n / 2 ^ width % 2 : Nat) : F) := by
  induction width generalizing n with
  | zero => simp [decompose]
  | succ width ih =>
      have hne : (decompose (width + 1) (n / 2) : List F) ≠ [] := by simp [decompose]
      rw [decompose, List.getLast?_cons, ih, Nat.div_div_eq_div_mul, pow_succ']
      rfl

end Bits

section Relations
variable {p : Nat}

/-- `Num2Bits(n)`: binary bits whose sum is the input. -/
def Num2Bits (width : Nat) (input : ZMod p) (bits : List.Vector (ZMod p) width) : Prop :=
  (∀ bit ∈ bits.toList, bit * (bit - 1) = 0) ∧ compose bits.toList = input

/-- `LessThan(n)`: the top bit of `a + 2^n - b`, inverted. -/
def LessThan (width : Nat) (a b out : ZMod p) (bits : List.Vector (ZMod p) (width + 1)) : Prop :=
  Num2Bits (width + 1) (a + 2 ^ width - b) bits ∧ out = 1 - bits.toList.getLast?.getD 0

variable [Fact p.Prime]

/-- Below the modulus a number is its own representative. -/
theorem val_eq_of_cast {n : Nat} {value : ZMod p} (h : n < p) (cast : (n : ZMod p) = value) :
    value.val = n := by
  rw [← cast, ZMod.val_cast_of_lt h]

theorem Num2Bits.exists_decompose {width : Nat} {input : ZMod p}
    {bits : List.Vector (ZMod p) width} (h : Num2Bits width input bits) (fits : 2 ^ width ≤ p) :
    input.val < 2 ^ width ∧ bits.toList = decompose width input.val := by
  obtain ⟨n, hn, hbits⟩ := BitDecomposition.exists_decompose bits.toList h.1
  rw [bits.toList_length] at hn hbits
  have hvalue : (n : ZMod p) = input := by
    rw [← compose_decompose hn, ← hbits]
    exact h.2
  rw [val_eq_of_cast (hn.trans_le fits) hvalue]
  exact ⟨hn, hbits⟩

/-- A width that fits the modulus represents exactly the numbers below its power. -/
theorem num2Bits_iff {width : Nat} {input : ZMod p} (fits : 2 ^ width ≤ p) :
    (∃ bits, Num2Bits width input bits) ↔ input.val < 2 ^ width := by
  constructor
  · rintro ⟨bits, h⟩
    exact (h.exists_decompose fits).1
  · intro h
    refine ⟨⟨decompose width input.val, length_decompose _ _⟩, binary_decompose _ _, ?_⟩
    exact (compose_decompose h).trans (ZMod.natCast_zmod_val input)

theorem val_difference {width : Nat} {a b : ZMod p} (fits : 2 ^ (width + 1) ≤ p)
    (ha : a.val < 2 ^ width) (hb : b.val < 2 ^ width) :
    (a + 2 ^ width - b).val = a.val + 2 ^ width - b.val := by
  rw [pow_succ] at fits
  refine val_eq_of_cast (by omega) ?_
  rw [Nat.cast_sub (by omega)]
  simp

/-- On operands of its width the comparison is the order of the numbers. -/
theorem lessThan_iff {width : Nat} {a b out : ZMod p} (fits : 2 ^ (width + 1) ≤ p)
    (ha : a.val < 2 ^ width) (hb : b.val < 2 ^ width) :
    (∃ bits, LessThan width a b out bits) ↔ out = if a.val < b.val then 1 else 0 := by
  have hdifference := val_difference fits ha hb
  have hbound : (a + 2 ^ width - b).val < 2 ^ (width + 1) := by
    rw [hdifference, pow_succ]
    omega
  have htop {bits : List.Vector (ZMod p) (width + 1)}
      (h : Num2Bits (width + 1) (a + 2 ^ width - b) bits) :
      1 - bits.toList.getLast?.getD 0 = if a.val < b.val then 1 else 0 := by
    rw [(h.exists_decompose fits).2, getLast?_decompose, hdifference, Option.getD_some]
    by_cases hlt : a.val < b.val
    · have hdiv : (a.val + 2 ^ width - b.val) / 2 ^ width = 0 := Nat.div_eq_of_lt (by omega)
      simp [hdiv, hlt]
    · have hdiv : (a.val + 2 ^ width - b.val) / 2 ^ width = 1 :=
        Nat.div_eq_of_lt_le (by omega) (by omega)
      simp [hdiv, hlt]
  constructor
  · rintro ⟨bits, hbits, rfl⟩
    exact htop hbits
  · rintro rfl
    obtain ⟨bits, hbits⟩ := (num2Bits_iff fits).mpr hbound
    exact ⟨bits, hbits, (htop hbits).symm⟩

/-- On any operands the comparison reads off whether the difference fits one bit less. -/
theorem lessThan_difference_iff {width : Nat} {a b out : ZMod p} (fits : 2 ^ (width + 1) ≤ p) :
    (∃ bits, LessThan width a b out bits) ↔ (a + 2 ^ width - b).val < 2 ^ (width + 1) ∧
      out = if (a + 2 ^ width - b).val < 2 ^ width then 1 else 0 := by
  have htop {bits : List.Vector (ZMod p) (width + 1)}
      (h : Num2Bits (width + 1) (a + 2 ^ width - b) bits) :
      1 - bits.toList.getLast?.getD 0
        = if (a + 2 ^ width - b).val < 2 ^ width then 1 else 0 := by
    obtain ⟨hfits, hbits⟩ := h.exists_decompose fits
    rw [hbits, getLast?_decompose, Option.getD_some]
    by_cases hlt : (a + 2 ^ width - b).val < 2 ^ width
    · simp [Nat.div_eq_of_lt hlt, hlt]
    · rw [pow_succ] at hfits
      have hdiv : (a + 2 ^ width - b).val / 2 ^ width = 1 :=
        Nat.div_eq_of_lt_le (by omega) (by omega)
      simp [hdiv, hlt]
  constructor
  · rintro ⟨bits, hbits, rfl⟩
    exact ⟨(hbits.exists_decompose fits).1, htop hbits⟩
  · rintro ⟨hfits, rfl⟩
    obtain ⟨bits, hbits⟩ := (num2Bits_iff fits).mpr hfits
    exact ⟨bits, hbits, (htop hbits).symm⟩

/-- A sum with a number below the modulus wraps at most once. -/
theorem val_add_natCast {a : ZMod p} {shift : Nat} (h : shift < p) :
    (a + (shift : ZMod p)).val = if a.val + shift < p then a.val + shift else a.val + shift - p := by
  have ha := ZMod.val_lt a
  rw [ZMod.val_add, ZMod.val_natCast_of_lt h]
  split
  · next hlt => exact Nat.mod_eq_of_lt hlt
  · next hge =>
      rw [Nat.mod_eq_sub_mod (Nat.le_of_not_lt hge), Nat.mod_eq_of_lt (by omega)]

end Relations

end BitDecomposition
