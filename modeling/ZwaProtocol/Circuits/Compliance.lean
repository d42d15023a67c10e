import ZwaProtocol.Circuits.ApprovedReceiver
import ZwaProtocol.Circuits.Registry

/-!
Compliance end to end. The authorized issuances, the active credentials and the policies
are registries of the engine; proofs of both circuits against their roots are proofs that the
intent trades a registered issuance, under its policy, to the holder of a registered
credential which that policy permits.
-/
namespace ZwaProtocol
open MerkleTree FieldElement HashStaging SharedEngine SharedEligibility
open ConstraintSystem ConstraintSystem.Circuit

section Registries
variable (H : List Fr → Fr)

abbrev IssuanceRegistry := Registry H (computeIssuance H) Issuance.issuanceLeaf

abbrev CredentialRegistry :=
  Registry H (fun entry : CredentialRequest × String => issue H entry.1 entry.2)
    (fun issued => issued.2.credentialLeaf)

abbrev PolicyRegistry :=
  Registry H (fun codes : Int × Int => computePolicyLeaf H codes.1 codes.2) id

/-- Issuances of an intent's asset under its policy, told apart by their nonces. -/
def IssuanceRegistry.ofNonces (issuer series : Fr) (intent : TradeIntent) (height : Nat)
    (nonces : List UInt64) (length : nonces.length = 2 ^ height) : IssuanceRegistry H :=
  .ofReturned (nonces.map fun nonce => issuanceRequest issuer series nonce intent) height
    ((List.length_map _).trans length)
    (.mapM fun nonce _ => computeIssuance_agrees H issuer series nonce intent)

/-- Credentials, each issued to the receiver it approves. -/
def CredentialRegistry.ofCredentials (height : Nat) (credentials : List ActiveCredential)
    (length : credentials.length = 2 ^ height) : CredentialRegistry H :=
  .ofReturned (credentials.map fun credential =>
      (credentialRequest credential 0, credential.approvedReceiver.toHex)) height
    ((List.length_map _).trans length) (.mapM fun credential _ => issue_agrees H credential 0)

def PolicyRegistry.ofCodes (height : Nat) (codes : List (UInt64 × UInt64))
    (length : codes.length = 2 ^ height) : PolicyRegistry H :=
  .ofReturned (codes.map fun pair => ((pair.1.toNat : Int), (pair.2.toNat : Int))) height
    ((List.length_map _).trans length)
    (.mapM fun pair _ => computePolicyLeaf_returns H (isU64_toNat pair.1) (isU64_toNat pair.2))

theorem issuance_hashes : HashesLeaves H (computeIssuance H) Issuance.issuanceLeaf 4 := by
  intro request issuance inputs h
  obtain ⟨asset, returned, recorded, -, hreturns, hleaf, hinputs⟩ :=
    (computeIssuance_checked H h).exists_leaf H
  obtain rfl := h.value_unique hreturns
  obtain rfl := h.inputs_unique hreturns
  refine ⟨_, hinputs List.mem_cons_self, by simp, ?_⟩
  rw [hleaf, intCast_val]
  rfl

theorem issue_hashes : HashesLeaves H
    (fun entry : CredentialRequest × String => issue H entry.1 entry.2)
    (fun issued => issued.2.credentialLeaf) 6 := by
  intro entry issued inputs h
  obtain ⟨receiver, -, -, hleaf, hinputs⟩ := issue_returned H h
  have hcast := (congrArg Int.cast hleaf).trans (intCast_val _)
  exact ⟨_, hinputs List.mem_cons_self, by simp, hcast.symm⟩

theorem policy_hashes :
    HashesLeaves H (fun codes : Int × Int => computePolicyLeaf H codes.1 codes.2) id 3 := by
  intro codes leaf inputs h
  obtain ⟨-, -, rfl, rfl⟩ := computePolicyLeaf_returned H h
  exact ⟨_, List.mem_singleton_self _, by simp, (intCast_val _).symm⟩

end Registries

/-- What both proofs are about: the intent trades a registered issuance under its policy, to
the holder and the receiver of a registered credential that outlives the trade and whose
codes the policy permits. -/
structure Complies (H : List Fr → Fr) (issuances : List IssuanceRequest)
    (credentials : List (CredentialRequest × String)) (policies : List (Int × Int))
    (intent : TradeIntent) : Prop where
  issued : ∃ request ∈ issuances, request.policyRoot = intent.policyRoot.value.toNat ∧
    intent.offeredAsset.toHex = request.offeredAssetBase.toLower
  eligible : ∃ credential : ActiveCredential,
    (∃ entry ∈ credentials, Issues entry.1 entry.2 credential) ∧
    ((credential.investorClass.get.toNat : Int), (credential.jurisdiction.get.toNat : Int))
      ∈ policies ∧
    intent.recipientCommitment = (bindRecipient H credential.subjectSecret
      credential.approvedReceiver).value.recipientCommitment ∧
    credential.credentialExpiry.coversTradeExpiry intent.expiry.instant = true

section Circuits
variable (lib : Circomlib) (H : List Fr → Fr)

theorem provenance_path_inputs_subset {depth : Nat} (signals : ProvenanceSignals depth)
    (binary : BinaryIndices signals.issuanceMerklePathIndices) :
    climbInputs H (signals.issuance.staging.eval H) signals.issuancePath ⊆
      (rwaTradeProvenanceV1 lib H signals).hashed := by
  have hmember := merkleMembership_hashed H (signals.issuance.staging.eval H)
    signals.authorizedIssuanceRoot signals.issuanceMerkleSiblings
    signals.issuanceMerklePathIndices signals.issuanceRootInv binary
  intro pair hpair
  have hmembership : pair ∈ (merkleMembership H (signals.issuance.staging.eval H)
    signals.authorizedIssuanceRoot signals.issuanceMerkleSiblings
    signals.issuanceMerklePathIndices signals.issuanceRootInv).hashed := hmember ▸ hpair
  have heval : signals.issuance.staging.eval H
      = H [domainIssuanceV1, signals.issuerCommitment,
        H [Domain.assetV1.asFr, signals.offeredAssetHi, signals.offeredAssetLo],
        H [domainIssuanceMetaV1, signals.seriesCommitment, signals.policyRoot,
          signals.issuanceNonce]] := rfl
  rw [heval] at hmembership
  simp only [rwaTradeProvenanceV1, poseidonHash3, poseidonHash4, hashed_bind, hashed_require,
    hashed_enforce, out_query, hashed_query, circuitDomains_eq, List.mem_append]
  tauto

variable {credentialDepth policyDepth : Nat}
  (signals : EligibilitySignals credentialDepth policyDepth)

theorem eligibility_policy_inputs_subset
    (binary : BinaryIndices signals.policyMerklePathIndices) :
    climbInputs H (policyLeaf H signals.allowedInvestorClass signals.allowedJurisdiction)
      signals.policyPath ⊆ (rwaInvestorEligibilityV1 lib H signals).hashed := by
  have hmember := merkleMembership_hashed H
    (policyLeaf H signals.allowedInvestorClass signals.allowedJurisdiction)
    signals.policyRoot signals.policyMerkleSiblings
    signals.policyMerklePathIndices signals.policyRootInv binary
  intro pair hpair
  have hmembership : pair ∈ (merkleMembership H
    (policyLeaf H signals.allowedInvestorClass signals.allowedJurisdiction)
    signals.policyRoot signals.policyMerkleSiblings
    signals.policyMerklePathIndices signals.policyRootInv).hashed := hmember ▸ hpair
  rw [policyLeaf] at hmembership
  simp only [rwaInvestorEligibilityV1, poseidonHash2, poseidonHash3, poseidonHash4,
    poseidonHash6, hashed_bind, hashed_require, hashed_enforce, out_query, hashed_query,
    List.mem_append]
  tauto

theorem eligibility_policyLeaf_mem :
    [domainEligibilityPolicyV1, signals.allowedInvestorClass, signals.allowedJurisdiction]
      ∈ (rwaInvestorEligibilityV1 lib H signals).hashed := by
  simp [rwaInvestorEligibilityV1, poseidonHash2, poseidonHash3, poseidonHash4, poseidonHash6]

end Circuits

section Soundness
variable {lib : Circomlib} {H : List Fr → Fr} {recorded : Set (List Fr)}
  (injective : Set.InjOn H recorded) {intent : TradeIntent}
include injective

/-- A provenance proof opens a registered issuance of the intent's asset and policy. -/
theorem issued_of_holds {depth : Nat} {signals : ProvenanceSignals depth}
    (issuances : IssuanceRegistry H) (holds : (rwaTradeProvenanceV1 lib H signals).holds)
    (authorized : signals.authorizedIssuanceRoot = issuances.root)
    (htrade : signals.trade = intent.fields)
    (hcircuit : ∀ xs ∈ (rwaTradeProvenanceV1 lib H signals).hashed, xs ∈ recorded)
    (hregistry : ∀ xs ∈ issuances.inputs, xs ∈ recorded) :
    issuances.entries.length = 2 ^ depth ∧ ∃ request ∈ issuances.entries,
      request.policyRoot = intent.policyRoot.value.toNat ∧
      intent.offeredAsset.toHex = request.offeredAssetBase.toLower := by
  obtain ⟨-, -, binary, hmember, -⟩ := (rwaTradeProvenanceV1_holds lib H signals).mp holds
  have hissuance := provenance_issuance_inputs_subset lib H signals
  have hleaf : Sealed H recorded (signals.issuance.staging.eval H) :=
    ⟨_, hcircuit _ (hissuance List.mem_cons_self), by simp, rfl⟩
  obtain ⟨hlength, request, issuance, more, hmem, hreturns, hmore, heval⟩ :=
    issuances.entry_of_climb hregistry ((issuance_hashes H).seals (by decide)) injective
      (fun pair hpair => hcircuit pair (provenance_path_inputs_subset lib H signals binary hpair))
      hleaf (hmember.trans authorized)
  have checked := computeIssuance_checked H hreturns
  obtain ⟨asset, _, _, htext, hreturns', hstaged, hinputs⟩ := checked.exists_leaf H
  rw [hreturns.value_unique hreturns', hstaged, intCast_val] at heval
  have hfields : request.fields asset = signals.issuance := by
    refine IssuanceFields.staging_injective (Staging.eq_of_eval_eq injective _ _
      (IssuanceFields.staging_sameShape _ _) ?_ ?_ heval)
    · intro xs hxs
      have hxs' := hinputs hxs
      rw [← hreturns.inputs_unique hreturns'] at hxs'
      exact hregistry xs (hmore hxs')
    · exact fun xs hxs => hcircuit xs (hissuance hxs)
  have hpolicy : (request.policyRoot : Fr) = intent.policyRoot.value.toFr :=
    (congrArg IssuanceFields.policyRoot hfields).trans (congrArg TradeFields.policyRoot htrade)
  have hasset : asset = intent.offeredAsset := assetBase_eq_of_limbs
    ((congrArg IssuanceFields.assetHi hfields).trans (congrArg TradeFields.offeredAssetHi htrade))
    ((congrArg IssuanceFields.assetLo hfields).trans (congrArg TradeFields.offeredAssetLo htrade))
  have hdepth : signals.issuancePath.length = depth := length_pathOf _ _
  rw [hlength, hdepth]
  exact ⟨rfl, request, hmem, checked.policyRoot.eq_toNat hpolicy, hasset ▸ htext⟩

section Eligibility
variable {credentialDepth policyDepth : Nat}
  {signals : EligibilitySignals credentialDepth policyDepth}
  (holds : EligibilityHolds lib H signals)
  (hcircuit : ∀ xs ∈ (rwaInvestorEligibilityV1 lib H signals).hashed, xs ∈ recorded)
include holds hcircuit

/-- An eligibility proof opens a registered credential. -/
theorem credential_entry_of_holds (credentials : CredentialRegistry H)
    (active : signals.activeCredentialRoot = credentials.root)
    (hcredentials : ∀ xs ∈ credentials.inputs, xs ∈ recorded) :
    credentials.entries.length = 2 ^ credentialDepth ∧
      ∃ entry ∈ credentials.entries, ∃ receiver : OrchardReceiverBytes,
        receiver.toHex = entry.2.toLower ∧ (entry.1.approving H receiver).Checked ∧
        entry.1.fields receiver = signals.credential := by
  have hstaged := eligibility_credential_inputs_subset lib H signals
  have hleaf : Sealed H recorded (signals.credential.staging.eval H) :=
    ⟨_, hcircuit _ (hstaged List.mem_cons_self), by simp, rfl⟩
  obtain ⟨hlength, entry, issued, more, hmem, hreturns, hmore, heval⟩ :=
    credentials.entry_of_climb hcredentials ((issue_hashes H).seals (by decide)) injective
      (fun pair hpair => hcircuit pair
        (eligibility_path_inputs_subset lib H signals holds.credentialBinary hpair))
      hleaf (holds.credentialMember.trans active)
  obtain ⟨receiver, htext, checked, hissued, hinputs⟩ := issue_returned H hreturns
  have hfields : entry.1.fields receiver = signals.credential := by
    refine CredentialFields.eq_of_eval_eq injective
      (fun xs hxs => hcredentials xs (hmore (hinputs hxs)))
      (fun xs hxs => hcircuit xs (hstaged hxs)) ?_
    rw [← heval, hissued, intCast_val]
  have hdepth : signals.credentialPath.length = credentialDepth := length_pathOf _ _
  rw [hlength, hdepth]
  exact ⟨rfl, entry, hmem, receiver, htext, checked, hfields⟩

/-- An eligibility proof opens a policy with the codes it allows. -/
theorem policy_entry_of_holds (policies : PolicyRegistry H)
    (hroot : signals.policyRoot = (policies.root : Fr))
    (hpolicies : ∀ xs ∈ policies.inputs, xs ∈ recorded) :
    policies.entries.length = 2 ^ policyDepth ∧
      ∃ codes ∈ policies.entries, IsU64 codes.1 ∧ IsU64 codes.2 ∧
        (codes.1 : Fr) = signals.allowedInvestorClass ∧
        (codes.2 : Fr) = signals.allowedJurisdiction := by
  have hleaf : Sealed H recorded
      (policyLeaf H signals.allowedInvestorClass signals.allowedJurisdiction) :=
    ⟨_, hcircuit _ (eligibility_policyLeaf_mem lib H signals), by simp, rfl⟩
  obtain ⟨hlength, codes, leaf, more, hmem, hcomputed, hmore, heval⟩ :=
    policies.entry_of_climb hpolicies ((policy_hashes H).seals (by decide)) injective
      (fun pair hpair => hcircuit pair
        (eligibility_policy_inputs_subset lib H signals holds.policyBinary hpair))
      hleaf (holds.policyMember.trans hroot)
  obtain ⟨hclass, hjurisdiction, rfl, rfl⟩ := computePolicyLeaf_returned H hcomputed
  have hlists := injective (hpolicies _ (hmore (List.mem_singleton_self _)))
    (hcircuit _ (eligibility_policyLeaf_mem lib H signals)) ((intCast_val _).symm.trans heval)
  simp only [List.cons.injEq, and_true, true_and] at hlists
  have hdepth : signals.policyPath.length = policyDepth := length_pathOf _ _
  rw [hlength, hdepth]
  exact ⟨rfl, codes, hmem, hclass, hjurisdiction, hlists⟩

/-- An eligibility proof opens a registered credential and a policy that permits it. -/
theorem eligible_of_holds (lawful : lib.Lawful) (credentials : CredentialRegistry H)
    (policies : PolicyRegistry H) (active : signals.activeCredentialRoot = credentials.root)
    (hpolicy : policies.root = intent.policyRoot.value.toNat)
    (htrade : signals.trade H = intent.fields)
    (hcredentials : ∀ xs ∈ credentials.inputs, xs ∈ recorded)
    (hpolicies : ∀ xs ∈ policies.inputs, xs ∈ recorded) :
    credentials.entries.length = 2 ^ credentialDepth ∧
      policies.entries.length = 2 ^ policyDepth ∧
      ∃ credential : ActiveCredential,
        (∃ entry ∈ credentials.entries, Issues entry.1 entry.2 credential) ∧
        ((credential.investorClass.get.toNat : Int), (credential.jurisdiction.get.toNat : Int))
          ∈ policies.entries ∧
        intent.recipientCommitment = (bindRecipient H credential.subjectSecret
          credential.approvedReceiver).value.recipientCommitment ∧
        credential.credentialExpiry.coversTradeExpiry intent.expiry.instant = true := by
  obtain ⟨hlength, entry, hmem, receiver, htext, checked, hfields⟩ :=
    credential_entry_of_holds injective holds hcircuit credentials active hcredentials
  obtain ⟨credential, hcredential⟩ := CredentialFields.inRange_iff.mp
    ((CredentialFields.rangeChecks_iff lawful).mp holds.credentialRanges)
  have hroot : signals.policyRoot = (policies.root : Fr) := by
    rw [hpolicy, Int.cast_natCast]
    exact congrArg TradeFields.policyRoot htrade
  obtain ⟨hpolicyLength, codes, hcodes, hclass, hjurisdiction, hallowedClass, hallowed⟩ :=
    policy_entry_of_holds injective holds hcircuit policies hroot hpolicies
  have hclassCode := hclass.eq_toNat (hallowedClass.trans (holds.allowed.1.symm.trans
    (congrArg CredentialFields.investorClass hcredential).symm))
  have hjurisdictionCode := hjurisdiction.eq_toNat (hallowed.trans (holds.allowed.2.symm.trans
    (congrArg CredentialFields.jurisdiction hcredential).symm))
  refine ⟨hlength, hpolicyLength, credential, ⟨entry, hmem, issues_of_fields H htext checked
    (hfields.trans hcredential.symm)⟩, ?_, recipient_of_credential hcredential.symm htrade, ?_⟩
  · rw [← hclassCode, ← hjurisdictionCode]
    exact hcodes
  · have hexpiry := congrArg TradeFields.expiry htrade
    rw [coversTradeExpiry_iff, ← hexpiry, hcredential]
    exact holds.covers lawful

end Eligibility

end Soundness

section Completeness
variable {lib : Circomlib} (lawful : lib.Lawful) {H : List Fr → Fr} {intent : TradeIntent}
include lawful

theorem provenance_of_issued {depth : Nat} (issuances : IssuanceRegistry H)
    (length : issuances.entries.length = 2 ^ depth) {request : IssuanceRequest}
    (hmem : request ∈ issuances.entries)
    (hpolicy : request.policyRoot = intent.policyRoot.value.toNat)
    (hasset : intent.offeredAsset.toHex = request.offeredAssetBase.toLower) :
    ∃ signals : ProvenanceSignals depth, signals.authorizedIssuanceRoot = issuances.root ∧
      signals.tradeCommitment = (tradeCommitmentV1 H intent).value.value.toFr ∧
      (rwaTradeProvenanceV1 lib H signals).holds := by
  obtain ⟨issuance, more, path, hreturns, hpath, hclimb⟩ := issuances.exists_path length hmem
  have checked := computeIssuance_checked H hreturns
  obtain ⟨asset, _, _, htext, hreturns', hstaged, -⟩ := checked.exists_leaf H
  obtain rfl : asset = intent.offeredAsset := asset_toHex_injective (htext.trans hasset.symm)
  obtain ⟨nonce, hnonce⟩ := checked.issuanceNonce.exists_eq
  have hfields : request.fields intent.offeredAsset = issuanceFields request.issuerCommitment
      request.seriesCommitment nonce intent := by
    simp only [SharedEngine.IssuanceRequest.fields, hpolicy, hnonce, Int.cast_natCast,
      ← toFr_fromU64]
    rfl
  obtain ⟨siblings, indices, hbinary, rfl⟩ := exists_pathOf hpath
  rw [hreturns.value_unique hreturns', hstaged, intCast_val, hfields] at hclimb
  exact ⟨.honest _ _ nonce intent issuances.root _ siblings indices, rfl, rfl,
    ProvenanceSignals.honest_holds lawful hbinary hclimb⟩

theorem eligibility_of_eligible {credentialDepth policyDepth : Nat}
    (credentials : CredentialRegistry H) (policies : PolicyRegistry H)
    (length : credentials.entries.length = 2 ^ credentialDepth)
    (policyLength : policies.entries.length = 2 ^ policyDepth)
    (hpolicy : policies.root = intent.policyRoot.value.toNat) {credential : ActiveCredential}
    {entry : CredentialRequest × String} (hmem : entry ∈ credentials.entries)
    (issues : Issues entry.1 entry.2 credential)
    (hcodes : ((credential.investorClass.get.toNat : Int),
      (credential.jurisdiction.get.toNat : Int)) ∈ policies.entries)
    (hrecipient : intent.recipientCommitment = (bindRecipient H credential.subjectSecret
      credential.approvedReceiver).value.recipientCommitment)
    (covers : credential.credentialExpiry.coversTradeExpiry intent.expiry.instant = true) :
    ∃ signals : EligibilitySignals credentialDepth policyDepth,
      signals.activeCredentialRoot = credentials.root ∧
      signals.tradeCommitment = (tradeCommitmentV1 H intent).value.value.toFr ∧
      (rwaInvestorEligibilityV1 lib H signals).holds := by
  obtain ⟨issued, more, path, hreturns, hpath, hclimb⟩ := credentials.exists_path length hmem
  obtain ⟨receiver, htext, -, hstaged, -⟩ := issue_returned H hreturns
  rw [hstaged, intCast_val, issues.fields_eq htext, ← toFr_leaf] at hclimb
  obtain ⟨leaf, recorded, policyPath, hcomputed, hpolicyPath, hpermitted⟩ :=
    policies.exists_path policyLength hcodes
  obtain ⟨-, -, hleaf, -⟩ := computePolicyLeaf_returned H hcomputed
  rw [hleaf, id, intCast_val,
    hpolicy, Int.cast_natCast, Int.cast_natCast, Int.cast_natCast, ← toFr_fromU64,
    ← toFr_fromU64] at hpermitted
  have heligible : Eligible H credentialDepth policyDepth credentials.root credential intent :=
    ⟨hrecipient, covers, ⟨path, hpath, hclimb⟩, ⟨policyPath, hpolicyPath, hpermitted⟩⟩
  obtain ⟨signals, hroot, hcommitment, holds⟩ := heligible.satisfies lawful
  exact ⟨signals, hroot, hcommitment, (rwaInvestorEligibilityV1_holds lib H signals).mpr holds⟩

end Completeness

/-- Compliance is what the two circuits prove. Against the roots of the engine's registries
and the policy root of an intent, with as many levels as the trees have, both circuits are
satisfiable for the intent's commitment if it complies; and satisfying assignments of any
depths show that the depths are those of the trees and that the intent complies, or two
different lists among those hashed have one digest. -/
theorem compliance_is_provable {lib : Circomlib} (lawful : lib.Lawful) (H : List Fr → Fr)
    (issuances : IssuanceRegistry H) (credentials : CredentialRegistry H)
    (policies : PolicyRegistry H) (intent : TradeIntent)
    (hpolicy : policies.root = intent.policyRoot.value.toNat)
    (issuanceDepth credentialDepth policyDepth : Nat) :
    (issuances.entries.length = 2 ^ issuanceDepth →
      credentials.entries.length = 2 ^ credentialDepth →
      policies.entries.length = 2 ^ policyDepth →
      Complies H issuances.entries credentials.entries policies.entries intent →
      ∃ (provenance : ProvenanceSignals issuanceDepth)
        (eligibility : EligibilitySignals credentialDepth policyDepth),
        provenance.authorizedIssuanceRoot = issuances.root ∧
        eligibility.activeCredentialRoot = credentials.root ∧
        provenance.tradeCommitment = (tradeCommitmentV1 H intent).value.value.toFr ∧
        eligibility.tradeCommitment = (tradeCommitmentV1 H intent).value.value.toFr ∧
        (rwaTradeProvenanceV1 lib H provenance).holds ∧
        (rwaInvestorEligibilityV1 lib H eligibility).holds) ∧
    ∀ (provenance : ProvenanceSignals issuanceDepth)
      (eligibility : EligibilitySignals credentialDepth policyDepth),
      provenance.authorizedIssuanceRoot = issuances.root →
      eligibility.activeCredentialRoot = credentials.root →
      provenance.tradeCommitment = (tradeCommitmentV1 H intent).value.value.toFr →
      eligibility.tradeCommitment = (tradeCommitmentV1 H intent).value.value.toFr →
      (rwaTradeProvenanceV1 lib H provenance).holds →
      (rwaInvestorEligibilityV1 lib H eligibility).holds →
      (issuances.entries.length = 2 ^ issuanceDepth ∧
        credentials.entries.length = 2 ^ credentialDepth ∧
        policies.entries.length = 2 ^ policyDepth ∧
        Complies H issuances.entries credentials.entries policies.entries intent) ∨
      Collision H ((rwaTradeProvenanceV1 lib H provenance).hashed
        ++ (rwaInvestorEligibilityV1 lib H eligibility).hashed
        ++ (tradeCommitmentParts H intent).inputs
        ++ (issuances.inputs ++ credentials.inputs ++ policies.inputs)) := by
  constructor
  · rintro hissuances hcredentials hpolicies ⟨⟨request, hmem, hroot, hasset⟩,
      ⟨credential, ⟨entry, hentry, issues⟩, hcodes, hrecipient, covers⟩⟩
    obtain ⟨provenance, hauthorized, hcommits, hholds⟩ :=
      provenance_of_issued lawful issuances hissuances hmem hroot hasset
    obtain ⟨eligibility, hactive, hcommits', hholds'⟩ :=
      eligibility_of_eligible lawful credentials policies hcredentials hpolicies hpolicy hentry
        issues hcodes hrecipient covers
    exact ⟨provenance, eligibility, hauthorized, hactive, hcommits, hcommits', hholds, hholds'⟩
  · intro provenance eligibility authorized active commits commits' holds holds'
    rw [or_iff_not_imp_right]
    intro hcollision
    have hinjective := injOn_of_not_collision hcollision
    have hholds' := (rwaInvestorEligibilityV1_holds lib H eligibility).mp holds'
    have hprovenance := provenance_trade_eq hinjective (fun xs hxs => by simp [hxs])
      (fun xs hxs => by simp [hxs]) holds commits
    have heligibility := eligibility_trade_eq hinjective (fun xs hxs => by simp [hxs])
      (fun xs hxs => by simp [hxs]) hholds' commits'
    have hissuances := issued_of_holds hinjective issuances holds authorized hprovenance
      (fun xs hxs => by simp [hxs]) (fun xs hxs => by simp [hxs])
    have hcredentials := eligible_of_holds hinjective hholds' (fun xs hxs => by simp [hxs]) lawful
      credentials policies active hpolicy heligibility (fun xs hxs => by simp [hxs])
      (fun xs hxs => by simp [hxs])
    exact ⟨hissuances.1, hcredentials.1, hcredentials.2.1, hissuances.2, hcredentials.2.2⟩

section Sample

def sampleIssuances : IssuanceRegistry sampleHash :=
  .ofNonces sampleHash sampleIssuer sampleSeries sampleIntent 3 [0, 1, 2, 3, 4, 5, 6, 7] rfl

def sampleHolders : CredentialRegistry sampleHash :=
  .ofCredentials sampleHash 3 sampleCredentials.toList sampleCredentials.toList_length

def samplePolicies : PolicyRegistry sampleHash :=
  .ofCodes sampleHash 3 [(0, 1), (1, 2), (2, 3), (3, 4), (4, 5), (5, 6), (6, 7), (7, 8)] rfl

end Sample

/-- Registries of eight entries each. The sample proofs hash no two lists to one digest, so
the sample intent complies, and what complies is provable. -/
theorem compliance_is_provable_sample :
    Complies sampleHash sampleIssuances.entries sampleHolders.entries samplePolicies.entries
      sampleIntent ∧
    ∃ (provenance : ProvenanceSignals 3) (eligibility : EligibilitySignals 3 3),
      provenance.authorizedIssuanceRoot = sampleIssuances.root ∧
      eligibility.activeCredentialRoot = sampleHolders.root ∧
      provenance.tradeCommitment = (tradeCommitmentV1 sampleHash sampleIntent).value.value.toFr ∧
      eligibility.tradeCommitment = (tradeCommitmentV1 sampleHash sampleIntent).value.value.toFr ∧
      (rwaTradeProvenanceV1 .bitwise sampleHash provenance).holds ∧
      (rwaInvestorEligibilityV1 .bitwise sampleHash eligibility).holds := by
  obtain ⟨hprovable, hcomplies⟩ := compliance_is_provable Circomlib.bitwise_lawful sampleHash
    sampleIssuances sampleHolders samplePolicies sampleIntent (by decide +kernel) 3 3 3
  have hproved := hcomplies sampleProvenance sampleEligibility (by decide +kernel)
    (by decide +kernel) rfl rfl sampleProvenance_holds sampleEligibility_holds
  obtain ⟨hissuances, hcredentials, hpolicies, hcomply⟩ :=
    hproved.resolve_right (not_collision_of_nodup (by decide +kernel))
  exact ⟨hcomply, hprovable hissuances hcredentials hpolicies hcomply⟩

end ZwaProtocol
