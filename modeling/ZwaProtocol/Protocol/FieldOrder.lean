import ZwaProtocol.Protocol.FieldText
import ZwaProtocol.Protocol.Replay

/-!
Field elements and their integers. Every constructor yields the one encoding of an
integer below the modulus, and the derived orders, down to the keys of the replay
store, are the order of the integers.
-/
namespace ZwaProtocol
open ByteStrings

namespace FieldElement

theorem compare_modulusBe (bytes : List.Vector UInt8 32) :
    compare bytes.toList modulusBe.toList = compare (beNat bytes.toList) modulus := by
  rw [compare_eq_compare_beNat (by simp), beNat_modulusBe]

theorem fromBeBytes_eq_ok {bytes : List.Vector UInt8 32} {element : FieldElement} :
    fromBeBytes bytes = .ok element ↔ bytes = element.toBeBytes := by
  constructor
  · intro h
    unfold fromBeBytes at h
    split at h
    · rw [← Except.ok.inj h]
      rfl
    · exact absurd h (by simp)
  · rintro rfl
    exact fromBeBytes_toBeBytes element

theorem fromBeBytes_isOk_iff (bytes : List.Vector UInt8 32) :
    (∃ element, fromBeBytes bytes = .ok element) ↔ beNat bytes.toList < modulus := by
  rw [← compare_modulusBe_iff]
  constructor
  · rintro ⟨element, h⟩
    rw [fromBeBytes_eq_ok.mp h]
    exact element.reduced
  · intro hreduced
    exact ⟨⟨bytes, hreduced⟩, dif_pos hreduced⟩

theorem fromBeSlice_eq_ok {slice : List UInt8} {element : FieldElement} :
    fromBeSlice slice = .ok element ↔ slice = element.toBeBytes.toList := by
  constructor
  · intro h
    unfold fromBeSlice at h
    split at h
    · exact congrArg List.Vector.toList (fromBeBytes_eq_ok.mp h)
    · exact absurd h (by simp)
  · rintro rfl
    exact fromBeSlice_toBeBytes element

theorem eq_iff_toNat {x y : FieldElement} : x = y ↔ x.toNat = y.toNat :=
  ⟨congrArg toNat, toNat_inj⟩

/-- The 32 bytes of an integer below 2^256 are told by the integer. -/
theorem eq_toBeBytes {element : FieldElement} {bytes : List.Vector UInt8 32}
    (h : beNat bytes.toList = element.toNat) : bytes = element.toBeBytes :=
  List.Vector.eq _ _ (beNat_inj (by simp) h)

end FieldElement

theorem FieldNewtype.compare_eq_toNat {name : FieldNewtypeName} (x y : FieldNewtype name) :
    compare x y = compare x.value.toNat y.value.toNat := by
  rw [compare_eq, FieldElement.compare_eq]

theorem FieldNewtype.eq_iff_toNat {name : FieldNewtypeName} {x y : FieldNewtype name} :
    x = y ↔ x.value.toNat = y.value.toNat := by
  rw [← value_injective.eq_iff, FieldElement.eq_iff_toNat]

/-- The store lists its records in the order of the integers of their keys. -/
theorem ReplayStore.keys_ordered (store : ReplayStore) :
    store.records.keys.Pairwise (fun earlier later => earlier.value.toNat < later.value.toNat) := by
  refine store.records.ordered_keys.imp ?_
  intro earlier later h
  rwa [FieldNewtype.compare_eq_toNat, Nat.compare_eq_lt] at h

open FieldElement

/-- A field element is the 32-byte encoding of an integer below the modulus, and the only
one of that integer, whichever constructor built it; a byte array is accepted exactly
where its integer is below the modulus; and comparing elements, wrapped elements and keys
of the store is comparing integers. -/
theorem field_elements_numeric :
    (∀ element : FieldElement, element.toNat < modulus ∧
      beNat element.toBeBytes.toList = element.toNat ∧
      ∀ bytes : List.Vector UInt8 32, beNat bytes.toList = element.toNat →
        bytes = element.toBeBytes) ∧
    (∀ bytes : List.Vector UInt8 32,
      compare bytes.toList modulusBe.toList = compare (beNat bytes.toList) modulus ∧
      ((∃ element, fromBeBytes bytes = .ok element) ↔ beNat bytes.toList < modulus) ∧
      ∀ element, fromBeBytes bytes = .ok element ↔ bytes = element.toBeBytes) ∧
    (∀ slice element, fromBeSlice slice = .ok element ↔ slice = element.toBeBytes.toList) ∧
    FieldElement.zero.toNat = 0 ∧
    (∀ value : UInt64, (fromU64 value).toNat = value.toNat) ∧
    (∀ value : BitVec 128, (fromU128 value).toNat = value.toNat) ∧
    (∀ text element, fromDecimalStr text = .ok element →
      element.toNat = Nat.ofDigitChars 10 text.toList 0) ∧
    (∀ x y : FieldElement, compare x y = compare x.toNat y.toNat ∧
      (x = y ↔ x.toNat = y.toNat)) ∧
    (∀ (name : FieldNewtypeName) (x y : FieldNewtype name),
      compare x y = compare x.value.toNat y.value.toNat ∧
      (x = y ↔ x.value.toNat = y.value.toNat)) ∧
    ∀ store : ReplayStore, store.records.keys.Pairwise
      (fun earlier later => earlier.value.toNat < later.value.toNat) := by
  refine ⟨fun element => ?_, fun bytes => ?_, fun slice element => fromBeSlice_eq_ok, toNat_zero,
    toNat_fromU64, toNat_fromU128, fun text element hparsed => ?_, fun x y => ?_,
    fun name x y => ?_, ReplayStore.keys_ordered⟩
  · exact ⟨element.toNat_lt, rfl, fun bytes => eq_toBeBytes⟩
  · exact ⟨compare_modulusBe bytes, fromBeBytes_isOk_iff bytes, fun element => fromBeBytes_eq_ok⟩
  · exact (fromDecimalStr_eq_ok.mp hparsed).2
  · exact ⟨compare_eq x y, eq_iff_toNat⟩
  · exact ⟨FieldNewtype.compare_eq_toNat x y, FieldNewtype.eq_iff_toNat⟩

end ZwaProtocol
