import ZwaProtocol.Library.ConstraintSystem
import ZwaProtocol.Library.MerkleTree
import ZwaProtocol.Library.BitDecomposition
import ZwaProtocol.Protocol.ScalarField

/-!
The templates both circuits include: comparators, the binary check, the Poseidon
wrappers and the Merkle verifier. circomlib is a parameter, known by the relations
its components put on their signals.
-/
namespace ZwaProtocol
open ConstraintSystem ConstraintSystem.Circuit MerkleTree

/-- The circomlib components the templates use. The relations are satisfiability:
the bits inside a component are part of the assignment. -/
structure Circomlib where
  num2Bits : Nat → Fr → Prop
  lessThan : Nat → Fr → Fr → Fr → Prop

namespace Circomlib

/-- What circomlib documents: `Num2Bits` is a range check and `LessThan` compares
operands of its width. -/
structure Lawful (lib : Circomlib) : Prop where
  num2Bits_iff : ∀ width < 254, ∀ input, lib.num2Bits width input ↔ input.val < 2 ^ width
  lessThan_iff : ∀ width ≤ 252, ∀ a b out : Fr, a.val < 2 ^ width → b.val < 2 ^ width →
    (lib.lessThan width a b out ↔ out = if a.val < b.val then 1 else 0)

def bitwise : Circomlib where
  num2Bits width input := ∃ bits, BitDecomposition.Num2Bits width input bits
  lessThan width a b out := ∃ bits, BitDecomposition.LessThan width a b out bits

theorem two_pow_le_modulus {width : Nat} (h : width ≤ 253) : 2 ^ width ≤ modulus :=
  (Nat.pow_le_pow_right (by decide) h).trans two_pow_253_lt_modulus.le

theorem bitwise_lawful : bitwise.Lawful where
  num2Bits_iff _ h _ :=
    BitDecomposition.num2Bits_iff (two_pow_le_modulus (Nat.le_of_lt_succ h))
  lessThan_iff _ h _ _ _ ha hb :=
    BitDecomposition.lessThan_iff (two_pow_le_modulus (Nat.succ_le_succ h)) ha hb

end Circomlib

section Comparators

/-- `inv` is the hinted signal. -/
def zkIsZero (input inv : Fr) : Circuit Fr Fr := do
  let out := 1 - input * inv
  enforce (input * out) 0
  return out

def zkIsEqual (in0 in1 inv : Fr) : Circuit Fr Fr :=
  zkIsZero (in1 - in0) inv

/-- `out` is the output signal of the `LessThan` component. -/
def zkGreaterEqThan (lib : Circomlib) (width : Nat) (in0 in1 out : Fr) : Circuit Fr Fr := do
  -- A compile-time assertion on the template's parameter.
  require (width ≤ 251)
  require (lib.lessThan (width + 1) in1 (in0 + 1) out)
  return out

def zkMux1 (c0 c1 s : Fr) : Circuit Fr Fr := do
  enforce (s * (s - 1)) 0
  return c0 + s * (c1 - c0)

def isBinary (value : Fr) : Circuit Fr Fr := do
  enforce (value * (value - 1)) 0
  return 1

/-- The output is 1 exactly on equal inputs, for any hint. -/
theorem zkIsEqual_iff (in0 in1 inv : Fr) :
    ((zkIsEqual in0 in1 inv).holds ∧ (zkIsEqual in0 in1 inv).out = 1) ↔ in0 = in1 := by
  simp only [zkIsEqual, zkIsZero, holds_bind, holds_enforce, holds_pure, out_bind, out_pure,
    and_true]
  constructor
  · rintro ⟨hzero, hone⟩
    rw [hone, mul_one, sub_eq_zero] at hzero
    exact hzero.symm
  · rintro rfl
    simp

/-- The comparison is decided by its inputs: the hint cannot change the output. -/
theorem zkIsEqual_out {in0 in1 inv : Fr} (holds : (zkIsEqual in0 in1 inv).holds) :
    (zkIsEqual in0 in1 inv).out = if in0 = in1 then 1 else 0 := by
  split
  · next heq => simp [zkIsEqual, zkIsZero, heq]
  · next hne =>
      simp only [zkIsEqual, zkIsZero, holds_bind, holds_enforce, holds_pure, and_true] at holds
      simp only [zkIsEqual, zkIsZero, out_bind, out_pure]
      exact (mul_eq_zero.mp holds).resolve_left (sub_ne_zero.mpr (Ne.symm hne))

theorem isBinary_iff (value : Fr) :
    ((isBinary value).holds ∧ (isBinary value).out = 1) ↔ value = 0 ∨ value = 1 := by
  rw [← BitDecomposition.binary_iff]
  simp [isBinary]

/-- The comparison has no overflow at the largest operand. -/
theorem zkGreaterEqThan_iff {lib : Circomlib} (lawful : lib.Lawful) {width : Nat}
    (h : width ≤ 251) {in0 in1 out : Fr} (h0 : in0.val < 2 ^ width) (h1 : in1.val < 2 ^ width) :
    ((zkGreaterEqThan lib width in0 in1 out).holds ↔
        out = if in1.val ≤ in0.val then 1 else 0) ∧
      (zkGreaterEqThan lib width in0 in1 out).out = out := by
  have hpow : 2 ^ (width + 1) ≤ modulus := Circomlib.two_pow_le_modulus (by omega)
  have hone : (in0 + 1).val = in0.val + 1 := by
    refine BitDecomposition.val_eq_of_cast (n := in0.val + 1) ?_ (by simp)
    rw [pow_succ] at hpow
    omega
  have hlessThan := lawful.lessThan_iff (width + 1) (by omega) in1 (in0 + 1) out
    (by rw [pow_succ]; omega) (by rw [hone, pow_succ]; omega)
  refine ⟨?_, rfl⟩
  simp only [zkGreaterEqThan, holds_bind, holds_require, holds_pure, h, hlessThan, hone,
    Nat.lt_succ_iff, true_and, and_true]

end Comparators

section Poseidon
variable (H : List Fr → Fr)

def poseidonHash2 (in0 in1 : Fr) : Circuit Fr Fr := query H [in0, in1]

def poseidonHash3 (in0 in1 in2 : Fr) : Circuit Fr Fr := query H [in0, in1, in2]

def poseidonHash4 (in0 in1 in2 in3 : Fr) : Circuit Fr Fr := query H [in0, in1, in2, in3]

def poseidonHash6 (in0 in1 in2 in3 in4 in5 : Fr) : Circuit Fr Fr :=
  query H [in0, in1, in2, in3, in4, in5]

end Poseidon

section Merkle
variable (H : List Fr → Fr)

/-- One level: both sides are selected by the path index. -/
def merkleLevel (node : Fr) (signals : Fr × Fr) : Circuit Fr Fr := do
  let left ← zkMux1 node signals.1 signals.2
  let right ← zkMux1 signals.1 node signals.2
  poseidonHash2 H left right

/-- `inv` is the hint of the root check. -/
def merkleProofVerifier {depth : Nat} (leaf root : Fr)
    (pathElements pathIndices : List.Vector Fr depth) (inv : Fr) : Circuit Fr Fr := do
  pathIndices.toList.forM fun index => do
    let valid ← isBinary index
    enforce valid 1
  let top ← (pathElements.toList.zip pathIndices.toList).foldlM (merkleLevel H) leaf
  zkIsEqual top root inv

/-- The wiring both circuits repeat: a verifier whose `valid` is constrained to 1. -/
def merkleMembership {depth : Nat} (leaf root : Fr)
    (pathElements pathIndices : List.Vector Fr depth) (inv : Fr) : Circuit Fr Unit := do
  let valid ← merkleProofVerifier H leaf root pathElements pathIndices inv
  enforce valid 1

def stepOf (signals : Fr × Fr) : Step Fr := ⟨decide (signals.2 = 1), signals.1⟩

/-- The path the signals of a verifier spell. -/
def pathOf {depth : Nat} (pathElements pathIndices : List.Vector Fr depth) : List (Step Fr) :=
  (pathElements.toList.zip pathIndices.toList).map stepOf

def BinaryIndices {depth : Nat} (pathIndices : List.Vector Fr depth) : Prop :=
  ∀ index ∈ pathIndices.toList, index = 0 ∨ index = 1

theorem binaryIndices_zero (depth : Nat) : BinaryIndices (List.Vector.replicate depth 0) :=
  fun _ hindex => .inl (List.eq_of_mem_replicate hindex)

@[simp] theorem length_pathOf {depth : Nat} (pathElements pathIndices : List.Vector Fr depth) :
    (pathOf pathElements pathIndices).length = depth := by
  simp [pathOf]

theorem exists_pathOf {depth : Nat} {path : List (Step Fr)} (h : path.length = depth) :
    ∃ pathElements pathIndices : List.Vector Fr depth,
      BinaryIndices pathIndices ∧ pathOf pathElements pathIndices = path := by
  refine ⟨⟨path.map Step.sibling, by simp [h]⟩,
    ⟨path.map fun step => if step.right then 1 else 0, by simp [h]⟩, ?_, ?_⟩
  · intro index hindex
    obtain ⟨step, -, rfl⟩ := List.mem_map.mp hindex
    by_cases hright : step.right = true
    · exact .inr (if_pos hright)
    · exact .inl (if_neg hright)
  · show ((path.map Step.sibling).zip
      (path.map fun step => if step.right then (1 : Fr) else 0)).map stepOf = path
    rw [List.zip_map', List.map_map]
    refine (List.map_congr_left fun step _ => ?_).trans (List.map_id path)
    ext
    · by_cases hright : step.right = true <;> simp [stepOf, hright]
    · rfl

/-- On a bit, a level hashes the children of its step. -/
theorem merkleLevel_spec {signals : Fr × Fr} (binary : signals.2 = 0 ∨ signals.2 = 1)
    (node : Fr) :
    merkleLevel H node signals =
      ⟨H ((stepOf signals).children node), True, [(stepOf signals).children node]⟩ := by
  obtain ⟨sibling, index⟩ := signals
  obtain rfl | rfl := binary
  · simp [merkleLevel, zkMux1, poseidonHash2, query, enforce, bind, pure, stepOf, Step.children]
  · simp [merkleLevel, zkMux1, poseidonHash2, query, enforce, bind, pure, stepOf, Step.children]

theorem merkleLevels_spec {signals : List (Fr × Fr)}
    (binary : ∀ level ∈ signals, level.2 = 0 ∨ level.2 = 1) (leaf : Fr) :
    signals.foldlM (merkleLevel H) leaf =
      ⟨climb H leaf (signals.map stepOf), True, climbInputs H leaf (signals.map stepOf)⟩ := by
  induction signals generalizing leaf with
  | nil => rfl
  | cons level signals ih =>
      have hlevel := merkleLevel_spec H (binary level List.mem_cons_self) leaf
      have hrest := ih fun l hl => binary l (List.mem_cons_of_mem _ hl)
      rw [List.foldlM_cons, hlevel]
      simp only [bind, hrest, true_and, List.map_cons, climb, climbInputs, List.singleton_append]

theorem binary_zip {depth : Nat} (pathElements : List.Vector Fr depth)
    {pathIndices : List.Vector Fr depth} (binary : BinaryIndices pathIndices) :
    ∀ level ∈ pathElements.toList.zip pathIndices.toList, level.2 = 0 ∨ level.2 = 1 :=
  fun _ hlevel => binary _ (List.of_mem_zip hlevel).2

variable {depth : Nat} (leaf root : Fr) (pathElements pathIndices : List.Vector Fr depth)
  (inv : Fr)

theorem merkleProofVerifier_holds :
    (merkleProofVerifier H leaf root pathElements pathIndices inv).holds ↔
      BinaryIndices pathIndices ∧
        (zkIsEqual (climb H leaf (pathOf pathElements pathIndices)) root inv).holds := by
  simp only [merkleProofVerifier, holds_bind, holds_enforce, holds_forM, isBinary_iff]
  refine and_congr_right fun (binary : BinaryIndices pathIndices) => ?_
  rw [merkleLevels_spec H (binary_zip pathElements binary), true_and]
  rfl

section Binary
variable {pathIndices} (binary : BinaryIndices pathIndices)
include binary

theorem merkleProofVerifier_out :
    (merkleProofVerifier H leaf root pathElements pathIndices inv).out =
      (zkIsEqual (climb H leaf (pathOf pathElements pathIndices)) root inv).out := by
  simp only [merkleProofVerifier, out_bind, merkleLevels_spec H (binary_zip pathElements binary)]
  rfl

theorem merkleProofVerifier_hashed :
    (merkleProofVerifier H leaf root pathElements pathIndices inv).hashed =
      climbInputs H leaf (pathOf pathElements pathIndices) := by
  have hempty : (pathIndices.toList.forM fun index => do
      let valid ← isBinary index
      enforce valid 1 : Circuit Fr Unit).hashed = [] := by
    rw [hashed_forM]
    simp [isBinary]
  simp only [merkleProofVerifier, hashed_bind, hempty,
    merkleLevels_spec H (binary_zip pathElements binary)]
  simp [zkIsEqual, zkIsZero, pathOf]

end Binary

/-- The verifier accepts exactly the paths that climb to the root. -/
theorem merkleProofVerifier_accepts_iff :
    ((merkleProofVerifier H leaf root pathElements pathIndices inv).holds ∧
        (merkleProofVerifier H leaf root pathElements pathIndices inv).out = 1) ↔
      BinaryIndices pathIndices ∧ climb H leaf (pathOf pathElements pathIndices) = root := by
  rw [merkleProofVerifier_holds, and_assoc]
  refine and_congr_right fun binary => ?_
  rw [merkleProofVerifier_out H leaf root pathElements inv binary, zkIsEqual_iff]

/-- Whatever the hint, its output is one bit of its inputs. -/
theorem merkleProofVerifier_bit
    (holds : (merkleProofVerifier H leaf root pathElements pathIndices inv).holds) :
    (merkleProofVerifier H leaf root pathElements pathIndices inv).out =
      if climb H leaf (pathOf pathElements pathIndices) = root then 1 else 0 := by
  obtain ⟨binary, check⟩ :=
    (merkleProofVerifier_holds H leaf root pathElements pathIndices inv).mp holds
  rw [merkleProofVerifier_out H leaf root pathElements inv binary, zkIsEqual_out check]

theorem merkleMembership_holds :
    (merkleMembership H leaf root pathElements pathIndices inv).holds ↔
      BinaryIndices pathIndices ∧ climb H leaf (pathOf pathElements pathIndices) = root := by
  rw [← merkleProofVerifier_accepts_iff H leaf root pathElements pathIndices inv]
  rfl

theorem merkleMembership_hashed (binary : BinaryIndices pathIndices) :
    (merkleMembership H leaf root pathElements pathIndices inv).hashed =
      climbInputs H leaf (pathOf pathElements pathIndices) := by
  rw [merkleMembership, hashed_bind, merkleProofVerifier_hashed H leaf root pathElements inv binary]
  exact List.append_nil _

end Merkle

end ZwaProtocol
