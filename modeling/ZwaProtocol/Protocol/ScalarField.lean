import ZwaProtocol.Library.PrattCertificate
import ZwaProtocol.Protocol.Field

/-!
The modulus is prime, so the canonical elements are the elements of a field.
Primality is checked through a certificate of Lucas tests.
-/
namespace ZwaProtocol
open PrattCertificate

/-- Certified primes from 3 up to the modulus, each with a primitive root and the
factors of its predecessor. -/
def modulusCertificate : List Link :=
  [⟨3, 2, [(2, 1)]⟩, ⟨13, 2, [(2, 2), (3, 1)]⟩, ⟨7, 3, [(2, 1), (3, 1)]⟩,
   ⟨29, 2, [(2, 2), (7, 1)]⟩, ⟨5, 2, [(2, 2)]⟩, ⟨491, 2, [(2, 1), (5, 1), (7, 2)]⟩,
   ⟨983, 5, [(2, 1), (491, 1)]⟩, ⟨11, 2, [(2, 1), (5, 1)]⟩, ⟨5501, 2, [(2, 2), (5, 3), (11, 1)]⟩,
   ⟨11003, 2, [(2, 1), (5501, 1)]⟩, ⟨449, 3, [(2, 6), (7, 1)]⟩,
   ⟨237073, 15, [(2, 4), (3, 1), (11, 1), (449, 1)]⟩, ⟨41, 6, [(2, 3), (5, 1)]⟩,
   ⟨3691, 2, [(2, 1), (3, 2), (5, 1), (41, 1)]⟩, ⟨17, 3, [(2, 4)]⟩,
   ⟨4999, 3, [(2, 1), (3, 1), (7, 2), (17, 1)]⟩,
   ⟨405928799, 22, [(2, 1), (11, 1), (3691, 1), (4999, 1)]⟩, ⟨53, 2, [(2, 2), (13, 1)]⟩,
   ⟨107, 2, [(2, 1), (53, 1)]⟩, ⟨661, 2, [(2, 2), (3, 1), (5, 1), (11, 1)]⟩,
   ⟨31, 3, [(2, 1), (3, 1), (5, 1)]⟩, ⟨93001, 14, [(2, 3), (3, 1), (5, 3), (31, 1)]⟩,
   ⟨12048837557, 2, [(2, 2), (7, 2), (661, 1), (93001, 1)]⟩,
   ⟨5156902474397, 2, [(2, 2), (107, 1), (12048837557, 1)]⟩,
   ⟨1670836401704629, 2, [(2, 2), (3, 4), (5156902474397, 1)]⟩, ⟨137, 3, [(2, 3), (17, 1)]⟩,
   ⟨823, 3, [(2, 1), (3, 1), (137, 1)]⟩, ⟨19, 2, [(2, 1), (3, 2)]⟩, ⟨23, 5, [(2, 1), (11, 1)]⟩,
   ⟨47, 5, [(2, 1), (23, 1)]⟩, ⟨37, 2, [(2, 2), (3, 2)]⟩, ⟨223, 3, [(2, 1), (3, 1), (37, 1)]⟩,
   ⟨20963, 2, [(2, 1), (47, 1), (223, 1)]⟩, ⟨41927, 5, [(2, 1), (20963, 1)]⟩,
   ⟨1593227, 2, [(2, 1), (19, 1), (41927, 1)]⟩, ⟨83, 2, [(2, 1), (41, 1)]⟩,
   ⟨379, 2, [(2, 1), (3, 3), (7, 1)]⟩, ⟨409, 21, [(2, 3), (3, 1), (17, 1)]⟩,
   ⟨1637, 2, [(2, 2), (409, 1)]⟩, ⟨229, 6, [(2, 2), (3, 1), (19, 1)]⟩,
   ⟨71, 7, [(2, 1), (5, 1), (7, 1)]⟩, ⟨853, 2, [(2, 2), (3, 1), (71, 1)]⟩,
   ⟨639533339, 2, [(2, 1), (229, 1), (853, 1), (1637, 1)]⟩,
   ⟨65865678001877903, 5, [(2, 1), (83, 1), (379, 1), (1637, 1), (639533339, 1)]⟩,
   ⟨13818364434197438864469338081, 3,
     [(2, 5), (5, 1), (823, 1), (1593227, 1), (65865678001877903, 1)]⟩,
   ⟨modulus, 5,
     [(2, 28), (3, 2), (13, 1), (29, 1), (983, 1), (11003, 1), (237073, 1), (405928799, 1),
      (1670836401704629, 1), (13818364434197438864469338081, 1)]⟩]

theorem modulus_prime : Nat.Prime modulus := by
  have hchecks : chainChecks 256 [2] modulusCertificate = true := by decide +kernel
  have hprimes : ∀ q ∈ [2], Nat.Prime q := by simpa using Nat.prime_two
  have hne : modulusCertificate ≠ [] := List.cons_ne_nil _ _
  exact prime_of_chainChecks hprimes hchecks _ (List.getLast_mem hne)

instance : Fact (Nat.Prime modulus) := ⟨modulus_prime⟩

/-- The scalar field, `ark_bn254::Fr` and the field of the circuits' signals. -/
abbrev Fr := ZMod modulus

namespace FieldElement

/-- `Fr::from_be_bytes_mod_order` on a canonical element. -/
def toFr (element : FieldElement) : Fr := (element.toNat : Fr)

/-- The canonical bytes of a field value. -/
def fromFr (value : Fr) : FieldElement := ofNat value.val value.val_lt

@[simp] theorem val_toFr (element : FieldElement) : element.toFr.val = element.toNat :=
  ZMod.val_cast_of_lt element.toNat_lt

@[simp] theorem toNat_fromFr (value : Fr) : (fromFr value).toNat = value.val := by
  simp [fromFr]

@[simp] theorem toFr_fromFr (value : Fr) : (fromFr value).toFr = value := by
  rw [toFr, toNat_fromFr, ZMod.natCast_zmod_val]

@[simp] theorem fromFr_toFr (element : FieldElement) : fromFr element.toFr = element :=
  toNat_inj (by simp)

theorem toFr_injective : Function.Injective toFr :=
  Function.LeftInverse.injective fromFr_toFr

@[simp] theorem toFr_zero : zero.toFr = 0 := by
  simp [toFr]

theorem toFr_fromU64 (value : UInt64) : (fromU64 value).toFr = (value.toNat : Fr) := by
  simp [toFr]

theorem toFr_fromU128 (value : BitVec 128) : (fromU128 value).toFr = (value.toNat : Fr) := by
  simp [toFr]

end FieldElement

end ZwaProtocol
