import Mathlib.Data.Vector.Mem
import ZwaProtocol.Circuits.ProvenanceStatement
import ZwaProtocol.Circuits.EligibilityStatement

/-!
Both circuits and the engine stage one trade. Two proofs with one public trade
commitment are about the trade that verifies against it.
-/
namespace ZwaProtocol
open MerkleTree HashStaging FieldElement

section Splicing
variable {lib : Circomlib} {H : List Fr → Fr} {issuanceDepth credentialDepth policyDepth : Nat}
  {provenance : ProvenanceSignals issuanceDepth}
  {eligibility : EligibilitySignals credentialDepth policyDepth} {intent : TradeIntent}
  {commitment : TradeCommitment} {recorded : Set (List Fr)}

theorem provenance_trade_eq (injective : Set.InjOn H recorded)
    (hcircuit : ∀ xs ∈ (rwaTradeProvenanceV1 lib H provenance).hashed, xs ∈ recorded)
    (hengine : ∀ xs ∈ (tradeCommitmentParts H intent).inputs, xs ∈ recorded)
    (holds : (rwaTradeProvenanceV1 lib H provenance).holds)
    (commits : provenance.tradeCommitment = (tradeCommitmentV1 H intent).value.value.toFr) :
    provenance.trade = intent.fields := by
  obtain ⟨-, -, -, -, hcommits⟩ := (rwaTradeProvenanceV1_holds lib H provenance).mp holds
  refine TradeFields.eq_of_eval_eq injective ?_ ?_ ?_
  · exact fun xs hxs => hcircuit xs (provenance_trade_inputs_subset lib H provenance hxs)
  · exact fun xs hxs => hengine xs (staging_inputs_subset H intent hxs)
  · rw [hcommits, commits, toFr_tradeCommitmentV1]

theorem eligibility_trade_eq (injective : Set.InjOn H recorded)
    (hcircuit : ∀ xs ∈ (rwaInvestorEligibilityV1 lib H eligibility).hashed, xs ∈ recorded)
    (hengine : ∀ xs ∈ (tradeCommitmentParts H intent).inputs, xs ∈ recorded)
    (holds : EligibilityHolds lib H eligibility)
    (commits : eligibility.tradeCommitment = (tradeCommitmentV1 H intent).value.value.toFr) :
    eligibility.trade H = intent.fields := by
  refine TradeFields.eq_of_eval_eq injective ?_ ?_ ?_
  · exact fun xs hxs => hcircuit xs (eligibility_trade_inputs_subset lib H eligibility hxs)
  · exact fun xs hxs => hengine xs (staging_inputs_subset H intent hxs)
  · rw [holds.commits, commits, toFr_tradeCommitmentV1]

end Splicing

section Sample

/-- Credentials told apart by their holders, codes, nonces and receivers. -/
def sampleCredential (k : Nat) : ActiveCredential where
  authorityCommitment := ⟨fromU64 31⟩
  subjectSecret := ⟨fromU64 (.ofNat (100 + k))⟩
  investorClass := ⟨.ofNat _ k⟩
  jurisdiction := ⟨.ofNat _ (k + 1)⟩
  credentialExpiry := .new 2000
  nonce := ⟨.ofNat k⟩
  approvedReceiver := ⟨.replicate 43 (.ofNat (k + 1))⟩

def sampleCredentials : List.Vector ActiveCredential 8 :=
  .ofFn fun k => sampleCredential k

def sampleCredentialLeaves : List Fr :=
  sampleCredentials.toList.map fun credential => credential.fields.staging.eval sampleHash

/-- The leaves of the policies that permit the codes of one credential each. -/
def samplePolicyLeaves : List Fr :=
  (List.range 8).map fun k => policyLeaf sampleHash k ↑(k + 1)

def sampleRoot (leaves : List Fr) : Fr := (ancestors sampleHash 3 leaves).headD 0

def sampleSiblings (leaves : List Fr) (k : Nat) : List.Vector Fr 3 :=
  .ofFn fun level => ((opening sampleHash 3 leaves k).map Step.sibling).getD level 0

def sampleIndices (k : Nat) : List.Vector Fr 3 :=
  .ofFn fun level => if k.testBit level then 1 else 0

theorem binaryIndices_sample (k : Nat) : BinaryIndices (sampleIndices k) := by
  intro index hindex
  obtain ⟨level, rfl⟩ := (List.Vector.mem_iff_get _ _).mp hindex
  rw [sampleIndices, List.Vector.get_ofFn]
  split
  · exact .inr rfl
  · exact .inl rfl

/-- A trade to the holder of credential 5, under the root of the policies. -/
def sampleIntent : TradeIntent where
  offeredAsset := ⟨.replicate 32 1⟩
  offeredAmount := ⟨70⟩
  requestedAsset := ⟨.replicate 32 2⟩
  requestedAmount := ⟨80⟩
  recipientCommitment := (bindRecipient sampleHash (sampleCredential 5).subjectSecret
    (sampleCredential 5).approvedReceiver).value.recipientCommitment
  policyRoot := ⟨fromFr (sampleRoot samplePolicyLeaves)⟩
  matcherFee := ⟨⟨3⟩, ⟨fromU64 17⟩⟩
  nonce := ⟨4⟩
  expiry := .new 1000

def sampleIssuer : Fr := 11

def sampleSeries : Fr := 12

/-- The leaves of issuances of the traded asset, told apart by their nonces. -/
def sampleIssuanceLeaves : List Fr :=
  (List.range 8).map fun k =>
    (issuanceFields sampleIssuer sampleSeries (.ofNat k) sampleIntent).staging.eval sampleHash

/-- The trade of issuance 6. -/
def sampleProvenance : ProvenanceSignals 3 :=
  .honest sampleIssuer sampleSeries 6 sampleIntent (sampleRoot sampleIssuanceLeaves)
    (tradeCommitmentV1 sampleHash sampleIntent).value.value.toFr
    (sampleSiblings sampleIssuanceLeaves 6) (sampleIndices 6)

def sampleEligibility : EligibilitySignals 3 3 :=
  .honest (sampleCredential 5) sampleIntent (sampleRoot sampleCredentialLeaves)
    (tradeCommitmentV1 sampleHash sampleIntent).value.value.toFr
    (sampleSiblings sampleCredentialLeaves 5) (sampleIndices 5)
    (sampleSiblings samplePolicyLeaves 5) (sampleIndices 5)

theorem sampleProvenance_holds :
    (rwaTradeProvenanceV1 .bitwise sampleHash sampleProvenance).holds :=
  ProvenanceSignals.honest_holds Circomlib.bitwise_lawful (binaryIndices_sample 6)
    (by decide +kernel)

theorem sampleEligibility_holds :
    (rwaInvestorEligibilityV1 .bitwise sampleHash sampleEligibility).holds := by
  rw [rwaInvestorEligibilityV1_holds]
  exact EligibilitySignals.honest_holds Circomlib.bitwise_lawful rfl (by decide +kernel)
    (binaryIndices_sample 5) (binaryIndices_sample 5) (by decide +kernel) (by decide +kernel)

end Sample

/-- No splicing and no policy substitution. Proofs of the two circuits with one
public trade commitment, and an intent that verifies against it, agree on every
value of the trade, on the recipient the eligibility circuit computes, and on the
policy: the root hashed into the issuance leaf that the provenance circuit opens
under the authorized root is the intent's, and the policy of the eligibility circuit
is a member under it; or two different lists among those hashed have one digest. -/
theorem proofs_agree_with_intent (lib : Circomlib) (H : List Fr → Fr)
    {issuanceDepth credentialDepth policyDepth : Nat}
    (provenance : ProvenanceSignals issuanceDepth)
    (eligibility : EligibilitySignals credentialDepth policyDepth) (intent : TradeIntent)
    (commitment : TradeCommitment)
    (provenanceHolds : (rwaTradeProvenanceV1 lib H provenance).holds)
    (eligibilityHolds : (rwaInvestorEligibilityV1 lib H eligibility).holds)
    (provenancePublic : provenance.tradeCommitment = commitment.value.toFr)
    (eligibilityPublic : eligibility.tradeCommitment = commitment.value.toFr)
    (verified : (verifyTradeCommitment H intent commitment).value = .ok ()) :
    Collision H ((rwaTradeProvenanceV1 lib H provenance).hashed
      ++ (rwaInvestorEligibilityV1 lib H eligibility).hashed
      ++ (tradeCommitmentParts H intent).inputs) ∨
    provenance.trade = intent.fields ∧ eligibility.trade H = intent.fields ∧
      (rwaInvestorEligibilityV1 lib H eligibility).out = provenance.recipientCommitment ∧
      provenance.issuance.staging.inputs H ⊆ (rwaTradeProvenanceV1 lib H provenance).hashed ∧
      climb H (provenance.issuance.staging.eval H) provenance.issuancePath =
        provenance.authorizedIssuanceRoot ∧
      provenance.issuance.policyRoot = intent.policyRoot.value.toFr ∧
      climb H (policyLeaf H eligibility.allowedInvestorClass eligibility.allowedJurisdiction)
        eligibility.policyPath = intent.policyRoot.value.toFr := by
  by_cases hcollision : Collision H ((rwaTradeProvenanceV1 lib H provenance).hashed
      ++ (rwaInvestorEligibilityV1 lib H eligibility).hashed
      ++ (tradeCommitmentParts H intent).inputs)
  · exact .inl hcollision
  · have hinjective := injOn_of_not_collision hcollision
    rw [← verifyTradeCommitment_ok H verified] at provenancePublic eligibilityPublic
    have hholds := (rwaInvestorEligibilityV1_holds lib H eligibility).mp eligibilityHolds
    obtain ⟨-, -, -, hissued, -⟩ := (rwaTradeProvenanceV1_holds lib H provenance).mp provenanceHolds
    have hprovenance := provenance_trade_eq hinjective
      (fun xs hxs => List.mem_append_left _ (List.mem_append_left _ hxs))
      (fun xs hxs => List.mem_append_right _ hxs) provenanceHolds provenancePublic
    have heligibility := eligibility_trade_eq hinjective
      (fun xs hxs => List.mem_append_left _ (List.mem_append_right _ hxs))
      (fun xs hxs => List.mem_append_right _ hxs) hholds eligibilityPublic
    refine .inr ⟨hprovenance, heligibility, ?_, provenance_issuance_inputs_subset lib H provenance,
      hissued, congrArg TradeFields.policyRoot hprovenance, ?_⟩
    · rw [rwaInvestorEligibilityV1_out, heligibility, ← hprovenance]
      rfl
    · exact hholds.policyMember.trans (congrArg TradeFields.policyRoot heligibility)

/-- The sample proofs hash no two lists to one digest, so they agree. -/
theorem proofs_agree_with_intent_sample :
    sampleProvenance.trade = sampleIntent.fields ∧
      sampleEligibility.trade sampleHash = sampleIntent.fields ∧
      (rwaInvestorEligibilityV1 .bitwise sampleHash sampleEligibility).out =
        sampleProvenance.recipientCommitment ∧
      sampleProvenance.issuance.staging.inputs sampleHash ⊆
        (rwaTradeProvenanceV1 .bitwise sampleHash sampleProvenance).hashed ∧
      climb sampleHash (sampleProvenance.issuance.staging.eval sampleHash)
        sampleProvenance.issuancePath = sampleRoot sampleIssuanceLeaves ∧
      sampleProvenance.issuance.policyRoot = sampleIntent.policyRoot.value.toFr ∧
      climb sampleHash (policyLeaf sampleHash sampleEligibility.allowedInvestorClass
        sampleEligibility.allowedJurisdiction) sampleEligibility.policyPath =
          sampleIntent.policyRoot.value.toFr := by
  have hverified : (verifyTradeCommitment sampleHash sampleIntent
      (tradeCommitmentV1 sampleHash sampleIntent).value).value = .ok () := by
    simp [verifyTradeCommitment]
  have hagree := proofs_agree_with_intent .bitwise sampleHash sampleProvenance sampleEligibility
    sampleIntent _ sampleProvenance_holds sampleEligibility_holds rfl rfl hverified
  exact hagree.resolve_left (not_collision_of_nodup (by decide +kernel))

end ZwaProtocol
