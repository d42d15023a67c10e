import ZwaProtocol.Circuits.Common

/-!
`RwaTradeProvenanceV1`: the asset and the policy of an authorized issuance are
those of the trade. An assignment gives every input signal and every hint; the
template computes the assigned signals from them.
-/
namespace ZwaProtocol
open ConstraintSystem ConstraintSystem.Circuit MerkleTree HashStaging

structure ProvenanceSignals (depth : Nat) where
  authorizedIssuanceRoot : Fr
  tradeCommitment : Fr
  issuerCommitment : Fr
  offeredAssetHi : Fr
  offeredAssetLo : Fr
  seriesCommitment : Fr
  policyRoot : Fr
  issuanceNonce : Fr
  issuanceMerkleSiblings : List.Vector Fr depth
  issuanceMerklePathIndices : List.Vector Fr depth
  offeredAmount : Fr
  requestedAssetHi : Fr
  requestedAssetLo : Fr
  requestedAmount : Fr
  recipientCommitment : Fr
  matcherFeeAmount : Fr
  matcherFeeRecipientCommitment : Fr
  nonce : Fr
  expiry : Fr
  /-- `issuanceMembership.rootCheck.isz.inv`. -/
  issuanceRootInv : Fr

def rwaTradeProvenanceV1 (lib : Circomlib) (H : List Fr → Fr) {depth : Nat}
    (signals : ProvenanceSignals depth) : Circuit Fr Unit := do
  require (lib.num2Bits 128 signals.offeredAssetHi)
  require (lib.num2Bits 128 signals.offeredAssetLo)
  require (lib.num2Bits 128 signals.requestedAssetHi)
  require (lib.num2Bits 128 signals.requestedAssetLo)
  require (lib.num2Bits 64 signals.issuanceNonce)
  require (lib.num2Bits 64 signals.offeredAmount)
  require (lib.num2Bits 64 signals.requestedAmount)
  require (lib.num2Bits 64 signals.matcherFeeAmount)
  require (lib.num2Bits 64 signals.nonce)
  require (lib.num2Bits 64 signals.expiry)
  let offeredAsset ←
    poseidonHash3 H domainAssetV1 signals.offeredAssetHi signals.offeredAssetLo
  let issuanceMeta ←
    poseidonHash4 H domainIssuanceMetaV1 signals.seriesCommitment signals.policyRoot
      signals.issuanceNonce
  let issuanceLeaf ←
    poseidonHash4 H domainIssuanceV1 signals.issuerCommitment offeredAsset issuanceMeta
  merkleMembership H issuanceLeaf signals.authorizedIssuanceRoot
    signals.issuanceMerkleSiblings signals.issuanceMerklePathIndices signals.issuanceRootInv
  let requestedAsset ←
    poseidonHash3 H domainAssetV1 signals.requestedAssetHi signals.requestedAssetLo
  let fee ←
    poseidonHash4 H domainFeeV1 zecAssetTag signals.matcherFeeAmount
      signals.matcherFeeRecipientCommitment
  let tradePartA ←
    poseidonHash4 H domainTradeAV1 offeredAsset signals.offeredAmount requestedAsset
  let tradePartB ←
    poseidonHash4 H domainTradeBV1 signals.requestedAmount signals.recipientCommitment
      signals.policyRoot
  let tradeMeta ← poseidonHash4 H domainTradeMetaV1 fee signals.nonce signals.expiry
  let trade ← poseidonHash4 H domainTradeV1 tradePartA tradePartB tradeMeta
  enforce trade signals.tradeCommitment

@[ext] structure IssuanceFields where
  issuerCommitment : Fr
  assetHi : Fr
  assetLo : Fr
  seriesCommitment : Fr
  policyRoot : Fr
  issuanceNonce : Fr

/-- The three hashes of the leaf. -/
def IssuanceFields.staging (fields : IssuanceFields) : Staging Fr :=
  .hash [.value domainIssuanceV1, .value fields.issuerCommitment,
    assetStaging fields.assetHi fields.assetLo,
    .hash [.value domainIssuanceMetaV1, .value fields.seriesCommitment,
      .value fields.policyRoot, .value fields.issuanceNonce]]

/-- What is hashed for the metadata of the leaf. -/
def IssuanceFields.metaInput (fields : IssuanceFields) : List Fr :=
  [domainIssuanceMetaV1, fields.seriesCommitment, fields.policyRoot, fields.issuanceNonce]

/-- What is hashed for the leaf. -/
def IssuanceFields.leafInput (H : List Fr → Fr) (fields : IssuanceFields) : List Fr :=
  [domainIssuanceV1, fields.issuerCommitment, (assetStaging fields.assetHi fields.assetLo).eval H,
    H fields.metaInput]

theorem IssuanceFields.staging_eval (H : List Fr → Fr) (fields : IssuanceFields) :
    fields.staging.eval H = H (fields.leafInput H) := rfl

theorem IssuanceFields.staging_inputs (H : List Fr → Fr) (fields : IssuanceFields) :
    fields.staging.inputs H = fields.leafInput H ::
      ((assetStaging fields.assetHi fields.assetLo).inputs H ++ [fields.metaInput]) := rfl

namespace ProvenanceSignals
variable {depth : Nat} (signals : ProvenanceSignals depth)

def trade : TradeFields where
  offeredAssetHi := signals.offeredAssetHi
  offeredAssetLo := signals.offeredAssetLo
  offeredAmount := signals.offeredAmount
  requestedAssetHi := signals.requestedAssetHi
  requestedAssetLo := signals.requestedAssetLo
  requestedAmount := signals.requestedAmount
  recipientCommitment := signals.recipientCommitment
  policyRoot := signals.policyRoot
  matcherFeeAmount := signals.matcherFeeAmount
  matcherFeeRecipientCommitment := signals.matcherFeeRecipientCommitment
  nonce := signals.nonce
  expiry := signals.expiry

def issuance : IssuanceFields where
  issuerCommitment := signals.issuerCommitment
  assetHi := signals.offeredAssetHi
  assetLo := signals.offeredAssetLo
  seriesCommitment := signals.seriesCommitment
  policyRoot := signals.policyRoot
  issuanceNonce := signals.issuanceNonce

def issuancePath : List (Step Fr) :=
  pathOf signals.issuanceMerkleSiblings signals.issuanceMerklePathIndices

end ProvenanceSignals

section Spec
variable (lib : Circomlib) (H : List Fr → Fr) {depth : Nat} (signals : ProvenanceSignals depth)

/-- The circuit states its range checks and two equations of stagings. -/
theorem rwaTradeProvenanceV1_holds :
    (rwaTradeProvenanceV1 lib H signals).holds ↔
      signals.trade.RangeChecks lib ∧ lib.num2Bits 64 signals.issuanceNonce ∧
      BinaryIndices signals.issuanceMerklePathIndices ∧
      climb H (signals.issuance.staging.eval H) signals.issuancePath =
        signals.authorizedIssuanceRoot ∧
      signals.trade.staging.eval H = signals.tradeCommitment := by
  simp only [rwaTradeProvenanceV1, poseidonHash3, poseidonHash4, holds_bind, holds_require,
    out_query, holds_query, holds_enforce, merkleMembership_holds, true_and,
    circuitDomains_eq, TradeFields.staging, TradeFields.partA, TradeFields.partB,
    TradeFields.metaStaging, TradeFields.feeStaging, IssuanceFields.staging, assetStaging,
    Staging.eval, Staging.evals, ProvenanceSignals.trade, ProvenanceSignals.issuance,
    ProvenanceSignals.issuancePath]
  constructor
  · rintro ⟨offeredHi, offeredLo, requestedHi, requestedLo, issuanceNonce, offeredAmount,
      requestedAmount, feeAmount, nonce, expiry, ⟨binary, member⟩, commits⟩
    exact ⟨⟨offeredHi, offeredLo, requestedHi, requestedLo, offeredAmount, requestedAmount,
      feeAmount, nonce, expiry⟩, issuanceNonce, binary, member, commits⟩
  · rintro ⟨⟨offeredHi, offeredLo, requestedHi, requestedLo, offeredAmount, requestedAmount,
      feeAmount, nonce, expiry⟩, issuanceNonce, binary, member, commits⟩
    exact ⟨offeredHi, offeredLo, requestedHi, requestedLo, issuanceNonce, offeredAmount,
      requestedAmount, feeAmount, nonce, expiry, ⟨binary, member⟩, commits⟩

theorem provenance_trade_inputs_subset :
    signals.trade.staging.inputs H ⊆ (rwaTradeProvenanceV1 lib H signals).hashed := by
  simp [rwaTradeProvenanceV1, poseidonHash3, poseidonHash4, circuitDomains_eq,
    TradeFields.staging, TradeFields.partA, TradeFields.partB, TradeFields.metaStaging,
    TradeFields.feeStaging, assetStaging, ProvenanceSignals.trade]

theorem provenance_issuance_inputs_subset :
    signals.issuance.staging.inputs H ⊆ (rwaTradeProvenanceV1 lib H signals).hashed := by
  simp [rwaTradeProvenanceV1, poseidonHash3, poseidonHash4, circuitDomains_eq,
    IssuanceFields.staging, assetStaging, ProvenanceSignals.issuance]

end Spec

end ZwaProtocol
