import ZwaProtocol.Protocol.Error
import ZwaProtocol.Protocol.FieldLimbs

/-!
Canonical BN254 scalar field elements: 32 big-endian bytes below the modulus.
The bound is part of the value, so an unreduced element cannot be built, and
the derived byte order is the order of the integers.
-/
namespace ZwaProtocol
open ByteStrings

def modulus : Nat :=
  21888242871839275222246405745257275088548364400416034343698204186575808495617

/-- `MODULUS_BE`. -/
def modulusBe : List.Vector UInt8 32 :=
  ⟨[0x30, 0x64, 0x4e, 0x72, 0xe1, 0x31, 0xa0, 0x29, 0xb8, 0x50, 0x45, 0xb6, 0x81, 0x81, 0x58, 0x5d,
    0x28, 0x33, 0xe8, 0x48, 0x79, 0xb9, 0x70, 0x91, 0x43, 0xe1, 0xf5, 0x93, 0xf0, 0x00, 0x00, 0x01],
    rfl⟩

theorem beNat_modulusBe : beNat modulusBe.toList = modulus := by decide +kernel

theorem modulus_lt : modulus < 256 ^ 32 := by decide +kernel

theorem two_pow_253_lt_modulus : 2 ^ 253 < modulus := by decide +kernel

/-- The array comparison of the source is lexicographic; on 32 bytes it is the
comparison of the integers. -/
theorem compare_modulusBe_iff (bytes : List.Vector UInt8 32) :
    compare bytes.toList modulusBe.toList = .lt ↔ beNat bytes.toList < modulus := by
  rw [compare_eq_compare_beNat (by simp), beNat_modulusBe, Nat.compare_eq_lt]

structure FieldElement where
  bytes : List.Vector UInt8 32
  reduced : compare bytes.toList modulusBe.toList = .lt
  deriving DecidableEq

namespace FieldElement

def zero : FieldElement := ⟨⟨List.replicate 32 0, rfl⟩, by decide +kernel⟩

def fromBeBytes (bytes : List.Vector UInt8 32) : Result FieldElement :=
  if h : compare bytes.toList modulusBe.toList = .lt then .ok ⟨bytes, h⟩
  else .error (.invalidFieldEncoding .notReduced)

def fromBeSlice (bytes : List UInt8) : Result FieldElement :=
  if h : bytes.length = 32 then fromBeBytes ⟨bytes, h⟩
  else .error (.invalidFieldEncoding .wrongLength)

def toBeBytes (element : FieldElement) : List.Vector UInt8 32 := element.bytes

def toNat (element : FieldElement) : Nat := beNat element.bytes.toList

theorem toNat_lt (element : FieldElement) : element.toNat < modulus :=
  (compare_modulusBe_iff element.bytes).mp element.reduced

theorem toNat_inj {x y : FieldElement} (h : x.toNat = y.toNat) : x = y := by
  obtain ⟨xs, _⟩ := x
  obtain ⟨ys, _⟩ := y
  have hbytes : xs = ys := List.Vector.eq _ _ (beNat_inj (by simp) h)
  subst hbytes
  rfl

@[simp] theorem toNat_zero : zero.toNat = 0 := by
  show beNat (List.replicate 32 0) = 0
  simpa using beNat_replicate_zero_append 32 []

/-- The element of an integer below the modulus. -/
def ofNat (n : Nat) (h : n < modulus) : FieldElement :=
  ⟨⟨toBe 32 n, length_toBe 32 n⟩, by
    refine (compare_modulusBe_iff _).mpr ?_
    show beNat (toBe 32 n) < modulus
    rwa [beNat_toBe_of_lt (h.trans modulus_lt)]⟩

@[simp] theorem toNat_ofNat (n : Nat) (h : n < modulus) : (ofNat n h).toNat = n :=
  beNat_toBe_of_lt (h.trans modulus_lt)

private theorem beNat_padded {width n : Nat} (zeros : Nat) (h : n < 256 ^ width) :
    beNat (List.replicate zeros 0 ++ toBe width n) = n := by
  rw [beNat_replicate_zero_append, beNat_toBe_of_lt h]

theorem u64_lt_modulus (value : UInt64) : value.toNat < modulus :=
  value.toNat_lt.trans (by decide +kernel)

theorem u128_lt_modulus (value : BitVec 128) : value.toNat < modulus :=
  value.isLt.trans (by decide +kernel)

def fromU64 (value : UInt64) : FieldElement :=
  ⟨⟨List.replicate 24 0 ++ u64ToBeBytes value, by simp [u64ToBeBytes]⟩, by
    refine (compare_modulusBe_iff _).mpr ?_
    show beNat (List.replicate 24 0 ++ toBe 8 value.toNat) < modulus
    rw [beNat_padded 24 value.toNat_lt]
    exact u64_lt_modulus value⟩

@[simp] theorem toNat_fromU64 (value : UInt64) : (fromU64 value).toNat = value.toNat :=
  beNat_padded 24 value.toNat_lt

/-- Every `u128` is below the modulus, so the bytes need no check. -/
def fromU128 (value : BitVec 128) : FieldElement :=
  ⟨⟨List.replicate 16 0 ++ toBe 16 value.toNat, by simp⟩, by
    refine (compare_modulusBe_iff _).mpr ?_
    show beNat (List.replicate 16 0 ++ toBe 16 value.toNat) < modulus
    rw [beNat_padded 16 value.isLt]
    exact u128_lt_modulus value⟩

@[simp] theorem toNat_fromU128 (value : BitVec 128) : (fromU128 value).toNat = value.toNat :=
  beNat_padded 16 value.isLt

theorem fromU64_inj {x y : UInt64} (h : fromU64 x = fromU64 y) : x = y :=
  UInt64.toNat.inj (by simpa using congrArg toNat h)

theorem fromU128_inj {x y : BitVec 128} (h : fromU128 x = fromU128 y) : x = y :=
  BitVec.eq_of_toNat_eq (by simpa using congrArg toNat h)

/-- `u8::is_ascii_digit`. -/
def isAsciiDigit (byte : UInt8) : Bool := 0x30 ≤ byte && byte ≤ 0x39

def fromDecimalStr (text : String) : Result FieldElement := do
  let bytes := text.toUTF8.toList
  if bytes.isEmpty || !bytes.all isAsciiDigit then
    throw (.invalidFieldEncoding .notDecimal)
  let limbs ← bytes.foldlM (fun limbs byte =>
      match mulAddSmall limbs 10 (byte - 0x30).toUInt64 with
      | (limbs, some ()) => pure limbs
      | (_, none) => throw (.invalidFieldEncoding .decimalOverflow))
    Limbs.zero
  fromBeBytes (limbsToBeBytes limbs)

/-- The digit loop, least significant digit first. -/
def decimalDigits (limbs : Limbs) : List UInt8 :=
  if h : limbs = Limbs.zero then []
  else
    let divided := divRemSmall limbs 10
    -- `u8::try_from(remainder).unwrap_or(0)`
    let digit := if divided.2 < 256 then divided.2.toUInt8 else 0
    (0x30 + digit) :: decimalDigits divided.1
termination_by limbs.toNat
decreasing_by
  have hpositive : limbs.toNat ≠ 0 := fun hzero => h ((Limbs.toNat_eq_zero_iff limbs).mp hzero)
  rw [(divRemSmall_spec limbs 10 (by decide)).1]
  exact Nat.div_lt_self (Nat.pos_of_ne_zero hpositive) (by decide)

def toDecimalString (element : FieldElement) : String :=
  let limbs := beBytesToLimbs element.bytes
  if limbs = Limbs.zero then "0"
  else (String.fromUTF8? ⟨(decimalDigits limbs).reverse.toArray⟩).getD ""

theorem fromBeBytes_toBeBytes (element : FieldElement) :
    fromBeBytes element.toBeBytes = .ok element := by
  simp [fromBeBytes, toBeBytes, element.reduced]

theorem fromBeSlice_toBeBytes (element : FieldElement) :
    fromBeSlice element.toBeBytes.toList = .ok element := by
  rw [fromBeSlice, dif_pos (by simp)]
  exact fromBeBytes_toBeBytes element

instance : Ord FieldElement where
  compare x y := compare x.bytes.toList y.bytes.toList

theorem compare_eq (x y : FieldElement) : compare x y = compare x.toNat y.toNat :=
  compare_eq_compare_beNat (by simp)

instance : Std.TransOrd FieldElement where
  eq_swap {x y} := by
    rw [compare_eq, compare_eq]
    exact Std.OrientedCmp.eq_swap
  isLE_trans {x y z} hxy hyz := by
    rw [compare_eq] at hxy hyz ⊢
    exact Std.TransCmp.isLE_trans hxy hyz

instance : Std.LawfulEqOrd FieldElement where
  eq_of_compare {x y} h := by
    rw [compare_eq, Nat.compare_eq_eq] at h
    exact toNat_inj h

end FieldElement

end ZwaProtocol
