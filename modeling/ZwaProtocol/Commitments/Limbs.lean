import ZwaProtocol.Protocol.Bytes
import ZwaProtocol.Protocol.Field

/-!
The limb encodings of the circuits: an `AssetBase` as two little-endian 128-bit
integers, an Orchard receiver as three of 128, 128 and 88 bits. Both are lossless.
-/
namespace ZwaProtocol
open ByteStrings

/-- `u128::from_le_bytes` on 16 bytes. -/
def u128FromLeBytes (bytes : List UInt8) : BitVec 128 := BitVec.ofNat 128 (leNat bytes)

/-- `u128::to_le_bytes`. -/
def u128ToLeBytes (value : BitVec 128) : List UInt8 := toLe 16 value.toNat

/-- Up to 16 bytes, padded with zeros on the right. -/
def littleEndianU128 (bytes : List UInt8) : BitVec 128 :=
  let width := min bytes.length 16
  u128FromLeBytes (bytes.take width ++ List.replicate (16 - width) 0)

theorem toNat_littleEndianU128 {bytes : List UInt8} (h : bytes.length ≤ 16) :
    (littleEndianU128 bytes).toNat = leNat bytes := by
  have hlt := leNat_lt bytes
  have hpow : 256 ^ bytes.length ≤ 256 ^ 16 := Nat.pow_le_pow_right (by decide) h
  have hmod : leNat bytes % 2 ^ 128 = leNat bytes := Nat.mod_eq_of_lt (hlt.trans_le hpow)
  simp only [littleEndianU128, Nat.min_eq_left h, List.take_length, u128FromLeBytes,
    BitVec.toNat_ofNat, leNat_append, leNat_replicate_zero, Nat.mul_zero, Nat.add_zero, hmod]

theorem littleEndianU128_toLe {width : Nat} (value : BitVec 128) (h : width ≤ 16)
    (fits : value.toNat < 256 ^ width) : littleEndianU128 (toLe width value.toNat) = value := by
  refine BitVec.eq_of_toNat_eq ?_
  rw [toNat_littleEndianU128 (by simpa using h), leNat_toLe_of_lt fits]

theorem toLe_littleEndianU128 {bytes : List UInt8} (h : bytes.length ≤ 16) :
    toLe bytes.length (littleEndianU128 bytes).toNat = bytes := by
  rw [toNat_littleEndianU128 h, toLe_leNat]

structure AssetBaseLimbs where
  hi : BitVec 128
  lo : BitVec 128
  deriving DecidableEq

def encodeAssetBase (asset : AssetBaseBytes) : AssetBaseLimbs where
  hi := littleEndianU128 (asset.bytes.toList.drop 16)
  lo := littleEndianU128 (asset.bytes.toList.take 16)

def decodeAssetBase (limbs : AssetBaseLimbs) : AssetBaseBytes :=
  ⟨⟨u128ToLeBytes limbs.lo ++ u128ToLeBytes limbs.hi, by simp [u128ToLeBytes]⟩⟩

theorem encodeAssetBase_decodeAssetBase (limbs : AssetBaseLimbs) :
    encodeAssetBase (decodeAssetBase limbs) = limbs := by
  have hbytes : (decodeAssetBase limbs).bytes.toList
      = toLe 16 limbs.lo.toNat ++ toLe 16 limbs.hi.toNat := rfl
  have hlo := littleEndianU128_toLe limbs.lo (le_refl 16) limbs.lo.isLt
  have hhi := littleEndianU128_toLe limbs.hi (le_refl 16) limbs.hi.isLt
  rw [encodeAssetBase, hbytes, List.take_left' (length_toLe _ _),
    List.drop_left' (length_toLe _ _), hlo, hhi]

theorem decodeAssetBase_encodeAssetBase (asset : AssetBaseBytes) :
    decodeAssetBase (encodeAssetBase asset) = asset := by
  obtain ⟨bytes⟩ := asset
  have hlength : bytes.toList.length = 32 := bytes.toList_length
  have hlo : (bytes.toList.take 16).length = 16 := by simp [hlength]
  have hhi : (bytes.toList.drop 16).length = 16 := by simp [hlength]
  refine congrArg AssetBaseBytes.mk (List.Vector.eq _ _ ?_)
  have hlow := toLe_littleEndianU128 hlo.le
  have hhigh := toLe_littleEndianU128 hhi.le
  rw [hlo] at hlow
  rw [hhi] at hhigh
  show toLe 16 (littleEndianU128 (bytes.toList.take 16)).toNat
      ++ toLe 16 (littleEndianU128 (bytes.toList.drop 16)).toNat = bytes.toList
  rw [hlow, hhigh, List.take_append_drop]

theorem encodeAssetBase_injective : Function.Injective encodeAssetBase :=
  Function.LeftInverse.injective decodeAssetBase_encodeAssetBase

/-- Receiver limbs; the third is at most 88 bits wide. -/
structure ReceiverLimbs where
  limb0 : BitVec 128
  limb1 : BitVec 128
  limb2 : BitVec 128
  narrow : limb2.toNat ≤ 2 ^ 88 - 1
  deriving DecidableEq

def receiverLimb2Bits : UInt32 := 88

/-- `RECEIVER_LIMB2_MAX`. -/
def receiverLimb2Max : BitVec 128 := (1 <<< 88) - 1

def ReceiverLimbs.new (limb0 limb1 limb2 : BitVec 128) : Result ReceiverLimbs :=
  if h : receiverLimb2Max < limb2 then .error (.limbOutOfRange .receiverLimb2 receiverLimb2Bits)
  else .ok ⟨limb0, limb1, limb2, by
    have hmax : receiverLimb2Max.toNat = 2 ^ 88 - 1 := by decide
    rw [← hmax]
    exact Nat.le_of_not_lt h⟩

def encodeReceiver (receiver : OrchardReceiverBytes) : ReceiverLimbs where
  limb0 := littleEndianU128 (receiver.bytes.toList.take 16)
  limb1 := littleEndianU128 ((receiver.bytes.toList.drop 16).take 16)
  limb2 := littleEndianU128 (receiver.bytes.toList.drop 32)
  narrow := by
    have hlength : (receiver.bytes.toList.drop 32).length = 11 := by
      simp [receiver.bytes.toList_length]
    have hlt := leNat_lt (receiver.bytes.toList.drop 32)
    rw [toNat_littleEndianU128 (by omega)]
    rw [hlength] at hlt
    exact Nat.le_pred_of_lt hlt

def decodeReceiver (limbs : ReceiverLimbs) : OrchardReceiverBytes :=
  ⟨⟨u128ToLeBytes limbs.limb0 ++ u128ToLeBytes limbs.limb1
      ++ (u128ToLeBytes limbs.limb2).take 11, by simp [u128ToLeBytes]⟩⟩

theorem encodeReceiver_decodeReceiver (limbs : ReceiverLimbs) :
    encodeReceiver (decodeReceiver limbs) = limbs := by
  obtain ⟨limb0, limb1, limb2, hnarrow⟩ := limbs
  have hbytes : (decodeReceiver ⟨limb0, limb1, limb2, hnarrow⟩).bytes.toList
      = toLe 16 limb0.toNat ++ (toLe 16 limb1.toNat ++ toLe 11 limb2.toNat) := by
    show toLe 16 limb0.toNat ++ toLe 16 limb1.toNat ++ (toLe 16 limb2.toNat).take 11 = _
    rw [take_toLe 11 16 _ (by decide), List.append_assoc]
  have h0 := littleEndianU128_toLe limb0 (le_refl 16) limb0.isLt
  have h1 := littleEndianU128_toLe limb1 (le_refl 16) limb1.isLt
  have h2 := littleEndianU128_toLe limb2 (show 11 ≤ 16 by decide)
    (Nat.lt_of_le_of_lt hnarrow (by decide))
  have hdrop : (toLe 16 limb0.toNat ++ (toLe 16 limb1.toNat ++ toLe 11 limb2.toNat)).drop 32
      = toLe 11 limb2.toNat := by
    rw [← List.append_assoc]
    exact List.drop_left' (by simp)
  simp only [encodeReceiver, hbytes, hdrop, List.take_left' (length_toLe 16 _),
    List.drop_left' (length_toLe 16 _), h0, h1, h2]

theorem decodeReceiver_encodeReceiver (receiver : OrchardReceiverBytes) :
    decodeReceiver (encodeReceiver receiver) = receiver := by
  obtain ⟨bytes⟩ := receiver
  have hlength : bytes.toList.length = 43 := bytes.toList_length
  have h0 : (bytes.toList.take 16).length = 16 := by simp [hlength]
  have h1 : ((bytes.toList.drop 16).take 16).length = 16 := by simp [hlength]
  have h2 : (bytes.toList.drop 32).length = 11 := by simp [hlength]
  have hlimb0 := toLe_littleEndianU128 h0.le
  have hlimb1 := toLe_littleEndianU128 h1.le
  have hlimb2 := toLe_littleEndianU128 (h2.trans_le (by decide))
  rw [h0] at hlimb0
  rw [h1] at hlimb1
  rw [h2] at hlimb2
  refine congrArg OrchardReceiverBytes.mk (List.Vector.eq _ _ ?_)
  show toLe 16 (littleEndianU128 (bytes.toList.take 16)).toNat
      ++ toLe 16 (littleEndianU128 ((bytes.toList.drop 16).take 16)).toNat
      ++ (toLe 16 (littleEndianU128 (bytes.toList.drop 32)).toNat).take 11 = bytes.toList
  rw [take_toLe 11 16 _ (by decide), hlimb0, hlimb1, hlimb2, List.append_assoc]
  have hmiddle : (bytes.toList.drop 16).take 16 ++ bytes.toList.drop 32 = bytes.toList.drop 16 := by
    have hsplit := List.take_append_drop 16 (bytes.toList.drop 16)
    rwa [List.drop_drop] at hsplit
  rw [hmiddle, List.take_append_drop]

theorem encodeReceiver_injective : Function.Injective encodeReceiver :=
  Function.LeftInverse.injective decodeReceiver_encodeReceiver

theorem toNat_receiverLimb2Max : receiverLimb2Max.toNat = 2 ^ 88 - 1 := by decide

/-- The private fields hold only what the constructor accepts. -/
theorem ReceiverLimbs.new_fields (limbs : ReceiverLimbs) :
    new limbs.limb0 limbs.limb1 limbs.limb2 = .ok limbs := by
  have hnarrow : ¬ receiverLimb2Max < limbs.limb2 := by
    rw [BitVec.lt_def, toNat_receiverLimb2Max]
    exact Nat.not_lt.mpr limbs.narrow
  rw [new, dif_neg hnarrow]

theorem ReceiverLimbs.new_eq_ok {limb0 limb1 limb2 : BitVec 128} {limbs : ReceiverLimbs} :
    new limb0 limb1 limb2 = .ok limbs ↔
      limbs.limb0 = limb0 ∧ limbs.limb1 = limb1 ∧ limbs.limb2 = limb2 := by
  constructor
  · intro h
    unfold new at h
    split at h
    · exact absurd h (by simp)
    · cases h
      exact ⟨rfl, rfl, rfl⟩
  · rintro ⟨rfl, rfl, rfl⟩
    exact limbs.new_fields

/-- The limb codecs are bijections onto the ranges of the circuits: both round trips of
both codecs, the constructor of the receiver limbs accepting exactly the encodings of
receivers, and limbs that stay apart, below the modulus, as field elements. -/
theorem limb_codecs_bijective :
    (∀ asset, decodeAssetBase (encodeAssetBase asset) = asset) ∧
    (∀ limbs, encodeAssetBase (decodeAssetBase limbs) = limbs) ∧
    (∀ receiver, decodeReceiver (encodeReceiver receiver) = receiver) ∧
    (∀ receiver, (encodeReceiver receiver).limb2.toNat < 2 ^ 88) ∧
    (∀ limb0 limb1 limb2 : BitVec 128,
      (∃ limbs, ReceiverLimbs.new limb0 limb1 limb2 = .ok limbs) ↔
        ∃ receiver, (encodeReceiver receiver).limb0 = limb0 ∧
          (encodeReceiver receiver).limb1 = limb1 ∧ (encodeReceiver receiver).limb2 = limb2) ∧
    (∀ limbs, encodeReceiver (decodeReceiver limbs) = limbs) ∧
    Function.Injective FieldElement.fromU128 ∧
    ∀ limb : BitVec 128, (FieldElement.fromU128 limb).toNat = limb.toNat ∧
      (FieldElement.fromU128 limb).toNat < modulus := by
  have hnarrow (receiver : OrchardReceiverBytes) :
      (encodeReceiver receiver).limb2.toNat < 2 ^ 88 :=
    Nat.lt_of_le_of_lt (encodeReceiver receiver).narrow (by decide)
  refine ⟨decodeAssetBase_encodeAssetBase, encodeAssetBase_decodeAssetBase,
    decodeReceiver_encodeReceiver, hnarrow, ?_, encodeReceiver_decodeReceiver,
    fun _ _ => FieldElement.fromU128_inj, ?_⟩
  · intro limb0 limb1 limb2
    constructor
    · rintro ⟨limbs, hnew⟩
      refine ⟨decodeReceiver limbs, ?_⟩
      rw [encodeReceiver_decodeReceiver]
      exact ReceiverLimbs.new_eq_ok.mp hnew
    · rintro ⟨receiver, hfields⟩
      exact ⟨encodeReceiver receiver, ReceiverLimbs.new_eq_ok.mpr hfields⟩
  · intro limb
    exact ⟨FieldElement.toNat_fromU128 limb, FieldElement.toNat_lt _⟩

end ZwaProtocol
