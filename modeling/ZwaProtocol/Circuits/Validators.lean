import ZwaProtocol.Circuits.ZkOrigin

/-!
The validators and the comparator they are built from, which no circuit of the repository
instantiates yet. The validators do not range check what they are given, so each accepts
besides the values below its bound a few just below zero.
-/
namespace ZwaProtocol
open ConstraintSystem ConstraintSystem.Circuit

section Templates
variable (lib : Circomlib)

/-- `out` is the output signal of the `LessThan` component. -/
def zkLessThan (width : Nat) (in0 in1 out : Fr) : Circuit Fr Fr := do
  require (width ≤ 252)
  require (lib.lessThan width in0 in1 out)
  return out

def numOriginClasses : Fr := 7

def maxLineageDepth : Fr := 4294967295

def maxNonce : Fr := 18446744073709551615

def validOriginClass (origin out : Fr) : Circuit Fr Fr :=
  zkLessThan lib 8 origin numOriginClasses out

def validDepth (depth out : Fr) : Circuit Fr Fr :=
  zkLessThan lib 32 depth maxLineageDepth out

def validNonce (nonce out : Fr) : Circuit Fr Fr :=
  zkLessThan lib 64 nonce maxNonce out

end Templates

namespace Circomlib

/-- circomlib's `LessThan` on any operands: the difference, shifted by the width, has one bit
more than it, and the output is the complement of that bit. -/
def ComparesByDifference (lib : Circomlib) : Prop :=
  ∀ width ≤ 252, ∀ a b out : Fr, lib.lessThan width a b out ↔
    (a + ((2 ^ width : Nat) : Fr) - b).val < 2 ^ (width + 1) ∧
      out = if (a + ((2 ^ width : Nat) : Fr) - b).val < 2 ^ width then 1 else 0

theorem bitwise_comparesByDifference : bitwise.ComparesByDifference := by
  intro width h a b out
  rw [Nat.cast_pow, Nat.cast_ofNat]
  exact BitDecomposition.lessThan_difference_iff (two_pow_le_modulus (Nat.succ_le_succ h))

end Circomlib

section Validators
variable {lib : Circomlib} (compares : lib.ComparesByDifference) {width bound : Nat}
  {value out : Fr}
include compares

/-- A comparison with a constant, as of the value shifted by what the constant leaves. -/
theorem zkLessThan_constant_iff (hwidth : width ≤ 252) (hbound : bound ≤ 2 ^ width) :
    (zkLessThan lib width value (bound : Fr) out).holds ↔
      (value + ((2 ^ width - bound : Nat) : Fr)).val < 2 ^ (width + 1) ∧
        out = if (value + ((2 ^ width - bound : Nat) : Fr)).val < 2 ^ width then 1 else 0 := by
  have hshift : value + ((2 ^ width - bound : Nat) : Fr)
      = value + ((2 ^ width : Nat) : Fr) - (bound : Fr) := by
    rw [Nat.cast_sub hbound, add_sub_assoc]
  rw [hshift]
  simp only [zkLessThan, holds_bind, holds_require, holds_pure, hwidth,
    compares width hwidth value (bound : Fr) out, true_and, and_true]

/-- What a validator makes of every value: it accepts those below the bound and those less
than `2 ^ width - bound` below zero, rejects the next `2 ^ width`, and has no assignment for
the others. -/
theorem zkLessThan_verdicts (hwidth : width ≤ 252) (hbound : bound ≤ 2 ^ width)
    (hpos : 0 < bound) :
    ((zkLessThan lib width value (bound : Fr) 1).holds ↔
      value.val < bound ∨ modulus ≤ value.val + (2 ^ width - bound)) ∧
    ((zkLessThan lib width value (bound : Fr) 0).holds ↔
      bound ≤ value.val ∧ value.val < 2 ^ width + bound) ∧
    ((zkLessThan lib width value (bound : Fr) out).holds → out = 0 ∨ out = 1) := by
  have hfits : 2 ^ (width + 1) ≤ modulus := Circomlib.two_pow_le_modulus (Nat.succ_le_succ hwidth)
  have hdouble : 2 ^ (width + 1) = 2 ^ width * 2 := pow_succ 2 width
  have hshift : 2 ^ width - bound < modulus := by omega
  have hval := BitDecomposition.val_add_natCast (a := value) hshift
  have hlt := ZMod.val_lt value
  have haccepts (shifted : Nat) : (1 : Fr) = (if shifted < 2 ^ width then 1 else 0) ↔
      shifted < 2 ^ width := by
    split <;> simp_all
  have hrejects (shifted : Nat) : (0 : Fr) = (if shifted < 2 ^ width then 1 else 0) ↔
      ¬ shifted < 2 ^ width := by
    split <;> simp_all
  simp only [zkLessThan_constant_iff compares hwidth hbound, haccepts, hrejects]
  refine ⟨?_, ?_, ?_⟩
  · split at hval <;> omega
  · split at hval <;> omega
  · rintro ⟨-, rfl⟩
    exact (ite_eq_or_eq _ _ _).symm

end Validators

theorem modulus_le_val_add_one {value : Fr} : modulus ≤ value.val + 1 ↔ value = -1 := by
  have hlt := ZMod.val_lt value
  have hminus : (-1 : Fr).val = modulus - 1 := by
    rw [ZMod.neg_val, if_neg one_ne_zero, ZMod.val_one]
  constructor
  · intro hle
    refine ZMod.val_injective _ ?_
    rw [hminus]
    omega
  · rintro rfl
    rw [hminus]
    omega

/-- The validators, for every field element. Each output is 0 or 1. It can be 1 exactly for
the values below the bound and those next below zero: 249 for the origin class, `-1` for the
depth and `-1` for the nonce; and it can be 0 exactly for the next values from the bound on,
as many as the width of the comparison counts. -/
theorem validators_accept_exactly {lib : Circomlib} (compares : lib.ComparesByDifference)
    (value out : Fr) :
    (((validOriginClass lib value 1).holds ↔ value.val < 7 ∨ modulus ≤ value.val + 249) ∧
      ((validOriginClass lib value 0).holds ↔ 7 ≤ value.val ∧ value.val < 2 ^ 8 + 7) ∧
      ((validOriginClass lib value out).holds → out = 0 ∨ out = 1)) ∧
    (((validDepth lib value 1).holds ↔ value.val < 4294967295 ∨ value = -1) ∧
      ((validDepth lib value 0).holds ↔
        4294967295 ≤ value.val ∧ value.val < 2 ^ 32 + 4294967295) ∧
      ((validDepth lib value out).holds → out = 0 ∨ out = 1)) ∧
    (((validNonce lib value 1).holds ↔ value.val < 18446744073709551615 ∨ value = -1) ∧
      ((validNonce lib value 0).holds ↔ 18446744073709551615 ≤ value.val ∧
        value.val < 2 ^ 64 + 18446744073709551615) ∧
      ((validNonce lib value out).holds → out = 0 ∨ out = 1)) := by
  have horigin := @zkLessThan_verdicts lib compares 8 7 value out (by decide) (by decide)
    (by decide)
  have hdepth := @zkLessThan_verdicts lib compares 32 4294967295 value out (by decide)
    (by decide) (by decide)
  have hnonce := @zkLessThan_verdicts lib compares 64 18446744073709551615 value out (by decide)
    (by decide) (by decide)
  refine ⟨?_, ?_, ?_⟩
  · simpa [validOriginClass, numOriginClasses] using horigin
  · simpa [validDepth, maxLineageDepth, modulus_le_val_add_one] using hdepth
  · simpa [validNonce, maxNonce, modulus_le_val_add_one] using hnonce

theorem validators_accept_exactly_minus_one : (validDepth .bitwise (-1) 1).holds :=
  (validators_accept_exactly Circomlib.bitwise_comparesByDifference (-1) 0).2.1.1.mpr (.inr rfl)

end ZwaProtocol
