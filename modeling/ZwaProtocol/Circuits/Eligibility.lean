import ZwaProtocol.Circuits.Common
import ZwaProtocol.Credentials.CredentialBinding

/-!
`RwaInvestorEligibilityV1`: a credential under the active root, permitted by the
policy of the trade, whose subject and receiver the trade settles to. One receiver
commitment feeds the credential leaf and the recipient binding.
-/
namespace ZwaProtocol
open ConstraintSystem ConstraintSystem.Circuit MerkleTree HashStaging

structure EligibilitySignals (credentialDepth policyDepth : Nat) where
  activeCredentialRoot : Fr
  tradeCommitment : Fr
  subjectSecret : Fr
  credentialAuthorityCommitment : Fr
  investorClass : Fr
  jurisdiction : Fr
  credentialExpiry : Fr
  credentialNonce : Fr
  credentialMerkleSiblings : List.Vector Fr credentialDepth
  credentialMerklePathIndices : List.Vector Fr credentialDepth
  policyRoot : Fr
  allowedInvestorClass : Fr
  allowedJurisdiction : Fr
  policyMerkleSiblings : List.Vector Fr policyDepth
  policyMerklePathIndices : List.Vector Fr policyDepth
  receiverLimb0 : Fr
  receiverLimb1 : Fr
  receiverLimb2 : Fr
  offeredAssetHi : Fr
  offeredAssetLo : Fr
  offeredAmount : Fr
  requestedAssetHi : Fr
  requestedAssetLo : Fr
  requestedAmount : Fr
  matcherFeeAmount : Fr
  matcherFeeRecipientCommitment : Fr
  nonce : Fr
  expiry : Fr
  /-- `credentialMembership.rootCheck.isz.inv`. -/
  credentialRootInv : Fr
  /-- `policyMembership.rootCheck.isz.inv`. -/
  policyRootInv : Fr
  /-- `validThroughTrade.lt.out`. -/
  validThroughTradeOut : Fr

/-- The template has no outputs; the signal returned is `recipientHasher.out`. -/
def rwaInvestorEligibilityV1 (lib : Circomlib) (H : List Fr → Fr)
    {credentialDepth policyDepth : Nat}
    (signals : EligibilitySignals credentialDepth policyDepth) : Circuit Fr Fr := do
  require (lib.num2Bits 128 signals.offeredAssetHi)
  require (lib.num2Bits 128 signals.offeredAssetLo)
  require (lib.num2Bits 128 signals.requestedAssetHi)
  require (lib.num2Bits 128 signals.requestedAssetLo)
  require (lib.num2Bits 128 signals.receiverLimb0)
  require (lib.num2Bits 128 signals.receiverLimb1)
  require (lib.num2Bits 88 signals.receiverLimb2)
  require (lib.num2Bits 8 signals.investorClass)
  require (lib.num2Bits 8 signals.allowedInvestorClass)
  require (lib.num2Bits 16 signals.jurisdiction)
  require (lib.num2Bits 16 signals.allowedJurisdiction)
  require (lib.num2Bits 64 signals.credentialExpiry)
  require (lib.num2Bits 64 signals.credentialNonce)
  require (lib.num2Bits 64 signals.offeredAmount)
  require (lib.num2Bits 64 signals.requestedAmount)
  require (lib.num2Bits 64 signals.matcherFeeAmount)
  require (lib.num2Bits 64 signals.nonce)
  require (lib.num2Bits 64 signals.expiry)
  enforce signals.investorClass signals.allowedInvestorClass
  enforce signals.jurisdiction signals.allowedJurisdiction
  let subject ← poseidonHash2 H domainSubjectV1 signals.subjectSecret
  let receiver ←
    poseidonHash4 H domainReceiverV1 signals.receiverLimb0 signals.receiverLimb1
      signals.receiverLimb2
  let credentialMeta ←
    poseidonHash4 H domainCredentialMetaV1 signals.investorClass signals.jurisdiction
      signals.credentialExpiry
  let credentialLeaf ←
    poseidonHash6 H domainCredentialV2 signals.credentialAuthorityCommitment subject
      credentialMeta signals.credentialNonce receiver
  merkleMembership H credentialLeaf signals.activeCredentialRoot
    signals.credentialMerkleSiblings signals.credentialMerklePathIndices
    signals.credentialRootInv
  let recipient ← poseidonHash3 H domainRecipientBindingV1 subject receiver
  let policyLeaf ←
    poseidonHash3 H domainEligibilityPolicyV1 signals.allowedInvestorClass
      signals.allowedJurisdiction
  merkleMembership H policyLeaf signals.policyRoot signals.policyMerkleSiblings
    signals.policyMerklePathIndices signals.policyRootInv
  let valid ←
    zkGreaterEqThan lib 64 signals.credentialExpiry signals.expiry
      signals.validThroughTradeOut
  enforce valid 1
  let offeredAsset ←
    poseidonHash3 H domainAssetV1 signals.offeredAssetHi signals.offeredAssetLo
  let requestedAsset ←
    poseidonHash3 H domainAssetV1 signals.requestedAssetHi signals.requestedAssetLo
  let fee ←
    poseidonHash4 H domainFeeV1 zecAssetTag signals.matcherFeeAmount
      signals.matcherFeeRecipientCommitment
  let tradePartA ←
    poseidonHash4 H domainTradeAV1 offeredAsset signals.offeredAmount requestedAsset
  let tradePartB ←
    poseidonHash4 H domainTradeBV1 signals.requestedAmount recipient signals.policyRoot
  let tradeMeta ← poseidonHash4 H domainTradeMetaV1 fee signals.nonce signals.expiry
  let trade ← poseidonHash4 H domainTradeV1 tradePartA tradePartB tradeMeta
  enforce trade signals.tradeCommitment
  return recipient

def policyLeaf (H : List Fr → Fr) (investorClass jurisdiction : Fr) : Fr :=
  H [domainEligibilityPolicyV1, investorClass, jurisdiction]

namespace EligibilitySignals
variable {credentialDepth policyDepth : Nat}
  (signals : EligibilitySignals credentialDepth policyDepth)

def credential : CredentialFields where
  authorityCommitment := signals.credentialAuthorityCommitment
  subjectSecret := signals.subjectSecret
  investorClass := signals.investorClass
  jurisdiction := signals.jurisdiction
  credentialExpiry := signals.credentialExpiry
  nonce := signals.credentialNonce
  receiverLimb0 := signals.receiverLimb0
  receiverLimb1 := signals.receiverLimb1
  receiverLimb2 := signals.receiverLimb2

/-- The trade the circuit commits to: its recipient is computed. -/
def trade (H : List Fr → Fr) : TradeFields where
  offeredAssetHi := signals.offeredAssetHi
  offeredAssetLo := signals.offeredAssetLo
  offeredAmount := signals.offeredAmount
  requestedAssetHi := signals.requestedAssetHi
  requestedAssetLo := signals.requestedAssetLo
  requestedAmount := signals.requestedAmount
  recipientCommitment := signals.credential.recipientStaging.eval H
  policyRoot := signals.policyRoot
  matcherFeeAmount := signals.matcherFeeAmount
  matcherFeeRecipientCommitment := signals.matcherFeeRecipientCommitment
  nonce := signals.nonce
  expiry := signals.expiry

def credentialPath : List (Step Fr) :=
  pathOf signals.credentialMerkleSiblings signals.credentialMerklePathIndices

def policyPath : List (Step Fr) :=
  pathOf signals.policyMerkleSiblings signals.policyMerklePathIndices

end EligibilitySignals

structure CredentialFields.RangeChecks (lib : Circomlib) (fields : CredentialFields) : Prop where
  receiverLimb0 : lib.num2Bits 128 fields.receiverLimb0
  receiverLimb1 : lib.num2Bits 128 fields.receiverLimb1
  receiverLimb2 : lib.num2Bits 88 fields.receiverLimb2
  investorClass : lib.num2Bits 8 fields.investorClass
  jurisdiction : lib.num2Bits 16 fields.jurisdiction
  credentialExpiry : lib.num2Bits 64 fields.credentialExpiry
  nonce : lib.num2Bits 64 fields.nonce

theorem CredentialFields.rangeChecks_iff {lib : Circomlib} (lawful : lib.Lawful)
    {fields : CredentialFields} : fields.RangeChecks lib ↔ fields.InRange := by
  have h8 := lawful.num2Bits_iff 8 (by decide)
  have h16 := lawful.num2Bits_iff 16 (by decide)
  have h64 := lawful.num2Bits_iff 64 (by decide)
  have h88 := lawful.num2Bits_iff 88 (by decide)
  have h128 := lawful.num2Bits_iff 128 (by decide)
  constructor
  · intro h
    exact {
      investorClass := (h8 _).mp h.investorClass
      jurisdiction := (h16 _).mp h.jurisdiction
      credentialExpiry := (h64 _).mp h.credentialExpiry
      nonce := (h64 _).mp h.nonce
      receiverLimb0 := (h128 _).mp h.receiverLimb0
      receiverLimb1 := (h128 _).mp h.receiverLimb1
      receiverLimb2 := (h88 _).mp h.receiverLimb2 }
  · intro h
    exact {
      investorClass := (h8 _).mpr h.investorClass
      jurisdiction := (h16 _).mpr h.jurisdiction
      credentialExpiry := (h64 _).mpr h.credentialExpiry
      nonce := (h64 _).mpr h.nonce
      receiverLimb0 := (h128 _).mpr h.receiverLimb0
      receiverLimb1 := (h128 _).mpr h.receiverLimb1
      receiverLimb2 := (h88 _).mpr h.receiverLimb2 }

section Spec
variable (lib : Circomlib) (H : List Fr → Fr) {credentialDepth policyDepth : Nat}
  (signals : EligibilitySignals credentialDepth policyDepth)

structure EligibilityHolds : Prop where
  tradeRanges : (signals.trade H).RangeChecks lib
  credentialRanges : signals.credential.RangeChecks lib
  allowedRanges : lib.num2Bits 8 signals.allowedInvestorClass ∧
    lib.num2Bits 16 signals.allowedJurisdiction
  allowed : signals.investorClass = signals.allowedInvestorClass ∧
    signals.jurisdiction = signals.allowedJurisdiction
  credentialBinary : BinaryIndices signals.credentialMerklePathIndices
  credentialMember : climb H (signals.credential.staging.eval H) signals.credentialPath =
    signals.activeCredentialRoot
  policyBinary : BinaryIndices signals.policyMerklePathIndices
  policyMember : climb H (policyLeaf H signals.allowedInvestorClass signals.allowedJurisdiction)
    signals.policyPath = signals.policyRoot
  valid : (zkGreaterEqThan lib 64 signals.credentialExpiry signals.expiry
    signals.validThroughTradeOut).holds ∧ signals.validThroughTradeOut = 1
  commits : (signals.trade H).staging.eval H = signals.tradeCommitment

/-- The circuit states its checks on the stagings of its credential and its trade. -/
theorem rwaInvestorEligibilityV1_holds :
    (rwaInvestorEligibilityV1 lib H signals).holds ↔ EligibilityHolds lib H signals := by
  have hvalid : (zkGreaterEqThan lib 64 signals.credentialExpiry signals.expiry
      signals.validThroughTradeOut).out = signals.validThroughTradeOut := rfl
  simp only [rwaInvestorEligibilityV1, poseidonHash2, poseidonHash3, poseidonHash4,
    poseidonHash6, holds_bind, holds_require, out_query, holds_query, holds_enforce,
    holds_pure, merkleMembership_holds, hvalid, true_and, and_true, circuitDomains_eq]
  constructor
  · rintro ⟨offeredHi, offeredLo, requestedHi, requestedLo, limb0, limb1, limb2, investorClass,
      allowedClass, jurisdiction, allowedJurisdiction, credentialExpiry, credentialNonce,
      offeredAmount, requestedAmount, feeAmount, nonce, expiry, sameClass, sameJurisdiction,
      ⟨credentialBinary, credentialMember⟩, ⟨policyBinary, policyMember⟩, covers, valid,
      commits⟩
    exact {
      tradeRanges := ⟨offeredHi, offeredLo, requestedHi, requestedLo, offeredAmount,
        requestedAmount, feeAmount, nonce, expiry⟩
      credentialRanges := ⟨limb0, limb1, limb2, investorClass, jurisdiction, credentialExpiry,
        credentialNonce⟩
      allowedRanges := ⟨allowedClass, allowedJurisdiction⟩
      allowed := ⟨sameClass, sameJurisdiction⟩
      credentialBinary, credentialMember, policyBinary, policyMember
      valid := ⟨covers, valid⟩
      commits }
  · intro h
    exact ⟨h.tradeRanges.offeredAssetHi, h.tradeRanges.offeredAssetLo,
      h.tradeRanges.requestedAssetHi, h.tradeRanges.requestedAssetLo,
      h.credentialRanges.receiverLimb0, h.credentialRanges.receiverLimb1,
      h.credentialRanges.receiverLimb2, h.credentialRanges.investorClass, h.allowedRanges.1,
      h.credentialRanges.jurisdiction, h.allowedRanges.2, h.credentialRanges.credentialExpiry,
      h.credentialRanges.nonce, h.tradeRanges.offeredAmount, h.tradeRanges.requestedAmount,
      h.tradeRanges.matcherFeeAmount, h.tradeRanges.nonce, h.tradeRanges.expiry, h.allowed.1,
      h.allowed.2, ⟨h.credentialBinary, h.credentialMember⟩, ⟨h.policyBinary, h.policyMember⟩,
      h.valid.1, h.valid.2, h.commits⟩

/-- The signal the circuit returns is the recipient of its trade. -/
theorem rwaInvestorEligibilityV1_out :
    (rwaInvestorEligibilityV1 lib H signals).out = (signals.trade H).recipientCommitment := by
  simp only [rwaInvestorEligibilityV1, poseidonHash2, poseidonHash3, poseidonHash4, out_bind,
    out_pure, out_query, circuitDomains_eq]
  rfl

theorem eligibility_trade_inputs_subset :
    (signals.trade H).staging.inputs H ⊆ (rwaInvestorEligibilityV1 lib H signals).hashed := by
  simp [rwaInvestorEligibilityV1, poseidonHash2, poseidonHash3, poseidonHash4, poseidonHash6,
    circuitDomains_eq, TradeFields.staging, TradeFields.partA, TradeFields.partB,
    TradeFields.metaStaging, TradeFields.feeStaging, assetStaging, EligibilitySignals.trade,
    CredentialFields.recipientStaging, CredentialFields.subjectStaging,
    CredentialFields.receiverStaging, EligibilitySignals.credential]

theorem eligibility_credential_inputs_subset :
    signals.credential.staging.inputs H ⊆ (rwaInvestorEligibilityV1 lib H signals).hashed := by
  simp [rwaInvestorEligibilityV1, poseidonHash2, poseidonHash3, poseidonHash4, poseidonHash6,
    circuitDomains_eq, CredentialFields.staging, CredentialFields.subjectStaging,
    CredentialFields.receiverStaging, CredentialFields.metaStaging,
    EligibilitySignals.credential]

theorem eligibility_path_inputs_subset
    (binary : BinaryIndices signals.credentialMerklePathIndices) :
    climbInputs H (signals.credential.staging.eval H) signals.credentialPath ⊆
      (rwaInvestorEligibilityV1 lib H signals).hashed := by
  have hmember := merkleMembership_hashed H (signals.credential.staging.eval H)
    signals.activeCredentialRoot signals.credentialMerkleSiblings
    signals.credentialMerklePathIndices signals.credentialRootInv binary
  intro pair hpair
  have hmembership : pair ∈ (merkleMembership H (signals.credential.staging.eval H)
    signals.activeCredentialRoot signals.credentialMerkleSiblings
    signals.credentialMerklePathIndices signals.credentialRootInv).hashed := hmember ▸ hpair
  simp only [rwaInvestorEligibilityV1, poseidonHash2, poseidonHash3, poseidonHash4,
    poseidonHash6, hashed_bind, hashed_require, hashed_enforce, out_query, hashed_query,
    circuitDomains_eq, List.mem_append]
  tauto

end Spec

end ZwaProtocol
