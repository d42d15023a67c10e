import ZwaProtocol.Circuits.Eligibility
import ZwaProtocol.Circuits.SharedEligibility

/-!
The generator of the receiver-binding evidence: one credential tree for each of two
receivers, the trade for each, and the four circuit inputs put together from them. What it
reads from the frozen fixture is an argument; files and process output are left out.
-/
namespace ZwaProtocol
open HashStaging SharedEngine SharedEligibility

namespace FixtureGenerator

def phase0gGoldenTradeCommitment : String :=
  "10187400613857124614980227259922066295752635539032972479692659299555113110306"

def credentialDepth : Nat := 3

def credentialLeafIndex : Nat := 3

/-- The fixture's `trade`. Its integers are those of `BigInt` on the fixture's text. -/
structure ReferenceTrade where
  offeredAssetBase : String
  requestedAssetBase : String
  offeredAmount : Int
  requestedAmount : Int
  recipientCommitment : String
  policyRoot : Int
  matcherFeeAmount : Int
  matcherFeeRecipientCommitment : Int
  nonce : Int
  expiry : Int
  subjectSecret : Int
  credentialAuthorityCommitment : Int
  investorClass : Int
  jurisdiction : Int
  credentialExpiry : Int
  credentialNonce : Int

/-- The fixture's `policy`. -/
structure ReferencePolicy where
  policyRoot : Int
  investorClass : Int
  jurisdiction : Int
  merkleSiblings : List Int
  merklePathIndices : List Int

structure CredentialTree where
  leaves : List Int
  root : Option Int
  siblings : List (Option Int)
  pathIndices : List Nat

structure Issued where
  binding : Binding
  credential : Credential
  tree : CredentialTree

/-- The inputs of the circuit by name, before they are printed. -/
structure EligibilityInput where
  activeCredentialRoot : Option Int
  tradeCommitment : Int
  subjectSecret : Int
  credentialAuthorityCommitment : Int
  investorClass : Int
  jurisdiction : Int
  credentialExpiry : Int
  credentialNonce : Int
  credentialMerkleSiblings : List (Option Int)
  credentialMerklePathIndices : List Int
  policyRoot : Int
  allowedInvestorClass : Int
  allowedJurisdiction : Int
  policyMerkleSiblings : List Int
  policyMerklePathIndices : List Int
  receiverLimb0 : Int
  receiverLimb1 : Int
  receiverLimb2 : Int
  offeredAssetHi : Int
  offeredAssetLo : Int
  offeredAmount : Int
  requestedAssetHi : Int
  requestedAssetLo : Int
  requestedAmount : Int
  matcherFeeAmount : Int
  matcherFeeRecipientCommitment : Int
  nonce : Int
  expiry : Int

/-- The four inputs of the fixture. -/
structure Fixture where
  approvedReceiverInput : EligibilityInput
  substitutedReceiverInput : EligibilityInput
  mutatedApprovedReceiverInput : EligibilityInput
  mutatedTradeRecipientInput : EligibilityInput

section Hasher
variable (H : List Fr → Fr)

def fillerLeaf (index : Nat) : Js Int :=
  ExceptT.lift (hasher H [index + 1, 0xf111e4])

def buildCredentialTree (credentialLeaf : Int) : Js CredentialTree := do
  let leaves ← (List.range (1 <<< credentialDepth)).mapM fun i =>
    if i = credentialLeafIndex then pure credentialLeaf else fillerLeaf H i
  let levels ← buildMerkleTree H leaves
  let proof ← merkleProof levels credentialLeafIndex
  return {
    leaves
    root := (levels.getLastD []).head?
    siblings := proof.siblings
    pathIndices := proof.pathIndices }

def issueCredential (fields : CredentialRequest) (receiverHex : String) : Js Issued := do
  let binding ← computeRecipientBinding H fields.subjectSecret receiverHex
  let credential ← computeCredential H
    { fields with approvedReceiverCommitment := binding.receiverCommitment }
  let tree ← buildCredentialTree H credential.credentialLeaf
  return { binding, credential, tree }

def eligibilityInput (trade : ReferenceTrade) (policy : ReferencePolicy) (issued : Issued)
    (receiverLimbs : ReceiverHexLimbs) (tradeCommitment : Int) : Js EligibilityInput := do
  let offered ← assetIdToLimbs trade.offeredAssetBase
  let requested ← assetIdToLimbs trade.requestedAssetBase
  return {
    activeCredentialRoot := issued.tree.root
    tradeCommitment
    subjectSecret := trade.subjectSecret
    credentialAuthorityCommitment := trade.credentialAuthorityCommitment
    investorClass := trade.investorClass
    jurisdiction := trade.jurisdiction
    credentialExpiry := trade.credentialExpiry
    credentialNonce := trade.credentialNonce
    credentialMerkleSiblings := issued.tree.siblings
    credentialMerklePathIndices := issued.tree.pathIndices.map Int.ofNat
    policyRoot := policy.policyRoot
    allowedInvestorClass := policy.investorClass
    allowedJurisdiction := policy.jurisdiction
    policyMerkleSiblings := policy.merkleSiblings
    policyMerklePathIndices := policy.merklePathIndices
    receiverLimb0 := receiverLimbs.limb0
    receiverLimb1 := receiverLimbs.limb1
    receiverLimb2 := receiverLimbs.limb2
    offeredAssetHi := offered.hi
    offeredAssetLo := offered.lo
    offeredAmount := trade.offeredAmount
    requestedAssetHi := requested.hi
    requestedAssetLo := requested.lo
    requestedAmount := trade.requestedAmount
    matcherFeeAmount := trade.matcherFeeAmount
    matcherFeeRecipientCommitment := trade.matcherFeeRecipientCommitment
    nonce := trade.nonce
    expiry := trade.expiry }

def tradeFor (trade : ReferenceTrade) (recipientCommitment : Int) : Js Trade :=
  computeTrade H {
    offeredAssetBase := trade.offeredAssetBase
    requestedAssetBase := trade.requestedAssetBase
    offeredAmount := trade.offeredAmount
    requestedAmount := trade.requestedAmount
    recipientCommitment
    policyRoot := trade.policyRoot
    matcherFeeAmount := trade.matcherFeeAmount
    matcherFeeRecipientCommitment := trade.matcherFeeRecipientCommitment
    nonce := trade.nonce
    expiry := trade.expiry }

/-- `main`'s `credentialFields`: what it approves is set by `issueCredential`. -/
def credentialFields (trade : ReferenceTrade) : CredentialRequest where
  credentialAuthorityCommitment := trade.credentialAuthorityCommitment
  subjectSecret := trade.subjectSecret
  investorClass := trade.investorClass
  jurisdiction := trade.jurisdiction
  credentialExpiry := trade.credentialExpiry
  credentialNonce := trade.credentialNonce
  approvedReceiverCommitment := 0

/-- `main` on the fixture it reads, up to the inputs it writes. -/
def main (trade : ReferenceTrade) (policy : ReferencePolicy) (receiverA receiverB : String) :
    Js Fixture := do
  let limbsA ← receiverToLimbs receiverA
  let limbsB ← receiverToLimbs receiverB
  let approvesA ← issueCredential H (credentialFields trade) receiverA
  let approvesB ← issueCredential H (credentialFields trade) receiverB
  let tradeA ← tradeFor H trade approvesA.binding.recipientCommitment
  let tradeB ← tradeFor H trade approvesB.binding.recipientCommitment
  if toString tradeA.tradeCommitment ≠ phase0gGoldenTradeCommitment then
    throw ("Phase 0G golden TradeCommitmentV1 regression: got " ++
      toString tradeA.tradeCommitment)
  if toString approvesA.binding.recipientCommitment ≠ trade.recipientCommitment then
    throw "recipient binding for receiver A no longer matches Phase 0G"
  let approvedReceiverInput ←
    eligibilityInput trade policy approvesA limbsA tradeA.tradeCommitment
  let substitutedReceiverInput ←
    eligibilityInput trade policy approvesA limbsB tradeB.tradeCommitment
  let mutatedApprovedReceiverInput ←
    eligibilityInput trade policy approvesB limbsA tradeA.tradeCommitment
  let mutatedTradeRecipientInput ←
    eligibilityInput trade policy approvesA limbsB tradeA.tradeCommitment
  return {
    approvedReceiverInput, substitutedReceiverInput, mutatedApprovedReceiverInput,
    mutatedTradeRecipientInput }

end Hasher

end FixtureGenerator

end ZwaProtocol
