import ZwaProtocol.Commitments.Trade

/-!
The trade commitment binds the whole intent. The staged hash is one term over
the twelve field values of a trade; the engine evaluates that term, records
every list it hashes, and the term determines the intent.
-/
namespace ZwaProtocol
open HashStaging FieldElement

/-- The domain separator as the circuits hash it. -/
def Domain.asFr (domain : Domain) : Fr := domain.asField.toFr

/-- The field values a trade is committed as. -/
@[ext] structure TradeFields where
  offeredAssetHi : Fr
  offeredAssetLo : Fr
  offeredAmount : Fr
  requestedAssetHi : Fr
  requestedAssetLo : Fr
  requestedAmount : Fr
  recipientCommitment : Fr
  policyRoot : Fr
  matcherFeeAmount : Fr
  matcherFeeRecipientCommitment : Fr
  nonce : Fr
  expiry : Fr

section Staging

def assetStaging (hi lo : Fr) : Staging Fr :=
  .hash [.value Domain.assetV1.asFr, .value hi, .value lo]

namespace TradeFields
variable (fields : TradeFields)

def feeStaging : Staging Fr :=
  .hash [.value Domain.feeV1.asFr, .value Domain.zecAssetTag.asFr,
    .value fields.matcherFeeAmount, .value fields.matcherFeeRecipientCommitment]

def partA : Staging Fr :=
  .hash [.value Domain.tradeAV1.asFr, assetStaging fields.offeredAssetHi fields.offeredAssetLo,
    .value fields.offeredAmount, assetStaging fields.requestedAssetHi fields.requestedAssetLo]

def partB : Staging Fr :=
  .hash [.value Domain.tradeBV1.asFr, .value fields.requestedAmount,
    .value fields.recipientCommitment, .value fields.policyRoot]

def metaStaging : Staging Fr :=
  .hash [.value Domain.tradeMetaV1.asFr, fields.feeStaging, .value fields.nonce,
    .value fields.expiry]

/-- The seven hashes of `TradeCommitmentV1`. -/
def staging : Staging Fr :=
  .hash [.value Domain.tradeV1.asFr, fields.partA, fields.partB, fields.metaStaging]

theorem staging_sameShape (others : TradeFields) : fields.staging.SameShape others.staging := by
  simp [staging, partA, partB, metaStaging, feeStaging, assetStaging]

theorem staging_injective : Function.Injective staging := by
  intro fields others h
  simp only [staging, partA, partB, metaStaging, feeStaging, assetStaging, Staging.hash.injEq,
    List.cons.injEq, Staging.value.injEq] at h
  ext <;> simp only [h]

theorem eq_of_eval_eq {H : List Fr → Fr} {recorded : Set (List Fr)}
    (injective : Set.InjOn H recorded) {fields others : TradeFields}
    (hfields : ∀ xs ∈ fields.staging.inputs H, xs ∈ recorded)
    (hothers : ∀ xs ∈ others.staging.inputs H, xs ∈ recorded)
    (h : fields.staging.eval H = others.staging.eval H) : fields = others :=
  staging_injective
    (Staging.eq_of_eval_eq injective _ _ (fields.staging_sameShape others) hfields hothers h)

end TradeFields

end Staging

/-- What the engine commits an intent as. -/
def TradeIntent.fields (intent : TradeIntent) : TradeFields where
  offeredAssetHi := (fromU128 (encodeAssetBase intent.offeredAsset).hi).toFr
  offeredAssetLo := (fromU128 (encodeAssetBase intent.offeredAsset).lo).toFr
  offeredAmount := (fromU64 intent.offeredAmount.get).toFr
  requestedAssetHi := (fromU128 (encodeAssetBase intent.requestedAsset).hi).toFr
  requestedAssetLo := (fromU128 (encodeAssetBase intent.requestedAsset).lo).toFr
  requestedAmount := (fromU64 intent.requestedAmount.get).toFr
  recipientCommitment := intent.recipientCommitment.value.toFr
  policyRoot := intent.policyRoot.value.toFr
  matcherFeeAmount := (fromU64 intent.matcherFee.amount.get).toFr
  matcherFeeRecipientCommitment := intent.matcherFee.recipientCommitment.value.toFr
  nonce := (fromU64 intent.nonce.get).toFr
  expiry := (fromU64 intent.expiry.get).toFr

theorem toFr_fromU64_injective : Function.Injective (fun value => (fromU64 value).toFr) :=
  fun _ _ h => fromU64_inj (toFr_injective h)

theorem toFr_fromU128_injective : Function.Injective (fun value => (fromU128 value).toFr) :=
  fun _ _ h => fromU128_inj (toFr_injective h)

theorem assetBase_eq_of_limbs {asset other : AssetBaseBytes}
    (hi : (fromU128 (encodeAssetBase asset).hi).toFr = (fromU128 (encodeAssetBase other).hi).toFr)
    (lo : (fromU128 (encodeAssetBase asset).lo).toFr = (fromU128 (encodeAssetBase other).lo).toFr) :
    asset = other := by
  have hhi := toFr_fromU128_injective hi
  have hlo := toFr_fromU128_injective lo
  cases hasset : encodeAssetBase asset
  cases hother : encodeAssetBase other
  rw [hasset, hother] at hhi hlo
  refine encodeAssetBase_injective ?_
  rw [hasset, hother]
  exact congrArg₂ AssetBaseLimbs.mk hhi hlo

theorem U64Newtype.eq_of_toFr {name : U64NewtypeName} {x y : U64Newtype name}
    (h : (fromU64 x.get).toFr = (fromU64 y.get).toFr) : x = y := by
  cases x
  cases y
  exact congrArg U64Newtype.mk (toFr_fromU64_injective h)

theorem FieldNewtype.eq_of_toFr {name : FieldNewtypeName} {x y : FieldNewtype name}
    (h : x.value.toFr = y.value.toFr) : x = y :=
  FieldNewtype.value_injective (toFr_injective h)

theorem MatcherFee.eq_of_toFr {fee other : MatcherFee}
    (amount : (fromU64 fee.amount.get).toFr = (fromU64 other.amount.get).toFr)
    (recipient : fee.recipientCommitment.value.toFr = other.recipientCommitment.value.toFr) :
    fee = other := by
  cases fee
  cases other
  exact congrArg₂ MatcherFee.mk (U64Newtype.eq_of_toFr amount) (FieldNewtype.eq_of_toFr recipient)

theorem TradeExpiry.eq_of_toFr {expiry other : TradeExpiry}
    (h : (fromU64 expiry.get).toFr = (fromU64 other.get).toFr) : expiry = other := by
  cases expiry
  cases other
  exact congrArg TradeExpiry.mk (U64Newtype.eq_of_toFr h)

theorem TradeIntent.fields_injective : Function.Injective TradeIntent.fields := by
  intro i j h
  simp only [TradeIntent.fields, TradeFields.mk.injEq] at h
  obtain ⟨offeredHi, offeredLo, offeredAmount, requestedHi, requestedLo, requestedAmount,
    recipient, policyRoot, feeAmount, feeRecipient, nonce, expiry⟩ := h
  exact TradeIntent.ext (assetBase_eq_of_limbs offeredHi offeredLo)
    (U64Newtype.eq_of_toFr offeredAmount) (assetBase_eq_of_limbs requestedHi requestedLo)
    (U64Newtype.eq_of_toFr requestedAmount) (FieldNewtype.eq_of_toFr recipient)
    (FieldNewtype.eq_of_toFr policyRoot) (MatcherFee.eq_of_toFr feeAmount feeRecipient)
    (U64Newtype.eq_of_toFr nonce) (TradeExpiry.eq_of_toFr expiry)

variable (H : List Fr → Fr)

/-- Refinement: the engine's commitment is the value of the staging. -/
theorem toFr_tradeCommitmentV1 (intent : TradeIntent) :
    (tradeCommitmentV1 H intent).value.value.toFr = intent.fields.staging.eval H := by
  simp [tradeCommitmentV1, tradeCommitmentParts, assetCommitment, feeCommitment,
    TradeFields.staging, TradeFields.partA, TradeFields.partB, TradeFields.metaStaging,
    TradeFields.feeStaging, assetStaging, TradeIntent.fields, Domain.asFr]

theorem staging_inputs_subset (intent : TradeIntent) :
    intent.fields.staging.inputs H ⊆ (tradeCommitmentParts H intent).inputs := by
  simp [tradeCommitmentParts, assetCommitment, feeCommitment, TradeFields.staging,
    TradeFields.partA, TradeFields.partB, TradeFields.metaStaging, TradeFields.feeStaging,
    assetStaging, TradeIntent.fields, Domain.asFr]

theorem inputs_tradeCommitmentV1 (intent : TradeIntent) :
    (tradeCommitmentV1 H intent).inputs = (tradeCommitmentParts H intent).inputs := by
  simp [tradeCommitmentV1]

theorem verifyTradeCommitment_ok {intent : TradeIntent} {expected : TradeCommitment}
    (h : (verifyTradeCommitment H intent expected).value = .ok ()) :
    (tradeCommitmentV1 H intent).value = expected := by
  by_contra hne
  simp [verifyTradeCommitment, hne] at h

/-- A commitment determines the intent, or the hashes of the two stagings collide. -/
theorem intent_eq_or_collision {i j : TradeIntent}
    (h : (tradeCommitmentV1 H i).value = (tradeCommitmentV1 H j).value) :
    i = j ∨
      Collision H ((tradeCommitmentParts H i).inputs ++ (tradeCommitmentParts H j).inputs) := by
  have heval : i.fields.staging.eval H = j.fields.staging.eval H := by
    rw [← toFr_tradeCommitmentV1, ← toFr_tradeCommitmentV1, h]
  refine (Staging.eq_or_collision (i.fields.staging_sameShape j.fields)
    (staging_inputs_subset H i) (staging_inputs_subset H j) heval).imp_left fun hstaging => ?_
  exact TradeIntent.fields_injective (TradeFields.staging_injective hstaging)

/-- `TradeCommitmentV1` binds the whole intent for any hash: two intents with one
commitment, or two that verify against one commitment, are equal, or two
different lists among those hashed for them have one digest. -/
theorem tradeCommitmentV1_binds_intent :
    (∀ i j : TradeIntent,
      (tradeCommitmentV1 H i).value = (tradeCommitmentV1 H j).value →
      i = j ∨
        Collision H ((tradeCommitmentParts H i).inputs ++ (tradeCommitmentParts H j).inputs)) ∧
    ∀ (i j : TradeIntent) (commitment : TradeCommitment),
      (verifyTradeCommitment H i commitment).value = .ok () →
      (verifyTradeCommitment H j commitment).value = .ok () →
      i = j ∨
        Collision H ((tradeCommitmentParts H i).inputs ++ (tradeCommitmentParts H j).inputs) := by
  refine ⟨fun i j h => intent_eq_or_collision H h, fun i j commitment hi hj => ?_⟩
  refine intent_eq_or_collision H ?_
  rw [verifyTradeCommitment_ok H hi, verifyTradeCommitment_ok H hj]

/-- Under a constant hash two intents share a commitment, and the lists collide. -/
theorem tradeCommitmentV1_binds_intent_constant :
    TradeIntent.blank 1 = .blank 2 ∨ Collision (fun _ => 0)
      ((tradeCommitmentParts (fun _ => 0) (.blank 1)).inputs
        ++ (tradeCommitmentParts (fun _ => 0) (.blank 2)).inputs) :=
  (tradeCommitmentV1_binds_intent (fun _ => 0)).1 (.blank 1) (.blank 2)
    (by simp [tradeCommitmentV1, tradeCommitmentParts])

end ZwaProtocol
