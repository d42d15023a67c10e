import ZwaProtocol.Commitments.TradeBinding

/-!
The field values of trades are exactly the twelve-tuples in range: a range check
on each value is all it takes to decode an intent.
-/
namespace ZwaProtocol
open FieldElement

section Ranges

theorem val_fromU64_lt (word : UInt64) : (fromU64 word).toFr.val < 2 ^ 64 := by
  rw [val_toFr, toNat_fromU64]
  exact word.toNat_lt

theorem inRange_u64_iff {value : Fr} :
    value.val < 2 ^ 64 ↔ ∃ word : UInt64, (fromU64 word).toFr = value := by
  constructor
  · intro h
    refine ⟨UInt64.ofNat value.val, ?_⟩
    rw [toFr_fromU64, UInt64.toNat_ofNat_of_lt' h, ZMod.natCast_zmod_val]
  · rintro ⟨word, rfl⟩
    exact val_fromU64_lt word

theorem inRange_u128_iff {value : Fr} :
    value.val < 2 ^ 128 ↔ ∃ word : BitVec 128, (fromU128 word).toFr = value := by
  constructor
  · intro h
    refine ⟨BitVec.ofNat 128 value.val, ?_⟩
    rw [toFr_fromU128, BitVec.toNat_ofNat, Nat.mod_eq_of_lt h, ZMod.natCast_zmod_val]
  · rintro ⟨word, rfl⟩
    rw [val_toFr, toNat_fromU128]
    exact word.isLt

theorem inRange_assetBase_iff {hi lo : Fr} :
    (hi.val < 2 ^ 128 ∧ lo.val < 2 ^ 128) ↔
      ∃ asset : AssetBaseBytes, (fromU128 (encodeAssetBase asset).hi).toFr = hi ∧
        (fromU128 (encodeAssetBase asset).lo).toFr = lo := by
  constructor
  · rintro ⟨hhi, hlo⟩
    obtain ⟨hiWord, rfl⟩ := inRange_u128_iff.mp hhi
    obtain ⟨loWord, rfl⟩ := inRange_u128_iff.mp hlo
    refine ⟨decodeAssetBase ⟨hiWord, loWord⟩, ?_⟩
    rw [encodeAssetBase_decodeAssetBase]
    exact ⟨rfl, rfl⟩
  · rintro ⟨asset, rfl, rfl⟩
    exact ⟨inRange_u128_iff.mpr ⟨_, rfl⟩, inRange_u128_iff.mpr ⟨_, rfl⟩⟩

end Ranges

structure TradeFields.InRange (fields : TradeFields) : Prop where
  offeredAsset : fields.offeredAssetHi.val < 2 ^ 128 ∧ fields.offeredAssetLo.val < 2 ^ 128
  requestedAsset : fields.requestedAssetHi.val < 2 ^ 128 ∧ fields.requestedAssetLo.val < 2 ^ 128
  offeredAmount : fields.offeredAmount.val < 2 ^ 64
  requestedAmount : fields.requestedAmount.val < 2 ^ 64
  matcherFeeAmount : fields.matcherFeeAmount.val < 2 ^ 64
  nonce : fields.nonce.val < 2 ^ 64
  expiry : fields.expiry.val < 2 ^ 64

/-- The values in range are the values of intents. -/
theorem TradeFields.inRange_iff {fields : TradeFields} :
    fields.InRange ↔ ∃ intent : TradeIntent, intent.fields = fields := by
  constructor
  · intro h
    obtain ⟨offeredAsset, hoffered⟩ := inRange_assetBase_iff.mp h.offeredAsset
    obtain ⟨requestedAsset, hrequested⟩ := inRange_assetBase_iff.mp h.requestedAsset
    obtain ⟨offeredAmount, hofferedAmount⟩ := inRange_u64_iff.mp h.offeredAmount
    obtain ⟨requestedAmount, hrequestedAmount⟩ := inRange_u64_iff.mp h.requestedAmount
    obtain ⟨feeAmount, hfeeAmount⟩ := inRange_u64_iff.mp h.matcherFeeAmount
    obtain ⟨nonce, hnonce⟩ := inRange_u64_iff.mp h.nonce
    obtain ⟨expiry, hexpiry⟩ := inRange_u64_iff.mp h.expiry
    refine ⟨{
      offeredAsset, requestedAsset
      offeredAmount := ⟨offeredAmount⟩
      requestedAmount := ⟨requestedAmount⟩
      recipientCommitment := ⟨fromFr fields.recipientCommitment⟩
      policyRoot := ⟨fromFr fields.policyRoot⟩
      matcherFee := ⟨⟨feeAmount⟩, ⟨fromFr fields.matcherFeeRecipientCommitment⟩⟩
      nonce := ⟨nonce⟩
      expiry := .new expiry }, ?_⟩
    exact TradeFields.ext hoffered.1 hoffered.2 hofferedAmount hrequested.1 hrequested.2
      hrequestedAmount (toFr_fromFr _) (toFr_fromFr _) hfeeAmount (toFr_fromFr _) hnonce hexpiry
  · rintro ⟨intent, rfl⟩
    exact {
      offeredAsset := inRange_assetBase_iff.mpr ⟨intent.offeredAsset, rfl, rfl⟩
      requestedAsset := inRange_assetBase_iff.mpr ⟨intent.requestedAsset, rfl, rfl⟩
      offeredAmount := val_fromU64_lt intent.offeredAmount.get
      requestedAmount := val_fromU64_lt intent.requestedAmount.get
      matcherFeeAmount := val_fromU64_lt intent.matcherFee.amount.get
      nonce := val_fromU64_lt intent.nonce.get
      expiry := val_fromU64_lt intent.expiry.get }

end ZwaProtocol
