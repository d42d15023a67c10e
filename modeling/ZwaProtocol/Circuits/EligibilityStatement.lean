import ZwaProtocol.Circuits.Eligibility

/-!
The eligibility circuit and the Rust values: an assignment decodes to a credential
and an intent, and every credential and intent the statement holds of has an
assignment.
-/
namespace ZwaProtocol
open MerkleTree FieldElement HashStaging

/-- The Rust-level statement: the credential is in the tree, the policy permits its
codes, and the trade settles to its subject and receiver while it is valid. -/
structure Eligible (H : List Fr → Fr) (credentialDepth policyDepth : Nat) (root : Fr)
    (credential : ActiveCredential) (intent : TradeIntent) : Prop where
  recipient : intent.recipientCommitment =
    (bindRecipient H credential.subjectSecret
      credential.approvedReceiver).value.recipientCommitment
  covers : credential.credentialExpiry.coversTradeExpiry intent.expiry.instant = true
  member : ∃ path : List (Step Fr), path.length = credentialDepth ∧
    climb H (credential.leaf H).value.value.toFr path = root
  permitted : ∃ path : List (Step Fr), path.length = policyDepth ∧
    climb H (policyLeaf H (fromU64 credential.investorClass.get).toFr
      (fromU64 credential.jurisdiction.get).toFr) path = intent.policyRoot.value.toFr

/-- The host compares the expiries that the circuit has as field elements. -/
theorem CredentialExpiry.covers_iff {credentialExpiry : CredentialExpiry}
    {tradeExpiry : UnixSeconds} :
    credentialExpiry.coversTradeExpiry tradeExpiry = true ↔
      (fromU64 tradeExpiry.get).toFr.val ≤ (fromU64 credentialExpiry.get).toFr.val := by
  rw [val_toFr, val_toFr, toNat_fromU64, toNat_fromU64, coversTradeExpiry, decide_eq_true_eq,
    ge_iff_le, UInt64.le_iff_toNat_le]
  rfl

theorem coversTradeExpiry_iff {credential : ActiveCredential} {intent : TradeIntent} :
    credential.credentialExpiry.coversTradeExpiry intent.expiry.instant = true ↔
      intent.fields.expiry.val ≤ credential.fields.credentialExpiry.val :=
  CredentialExpiry.covers_iff

section Soundness
variable {lib : Circomlib} {H : List Fr → Fr} {credentialDepth policyDepth : Nat}
  {signals : EligibilitySignals credentialDepth policyDepth}

theorem EligibilityHolds.covers (lawful : lib.Lawful) (h : EligibilityHolds lib H signals) :
    signals.expiry.val ≤ signals.credentialExpiry.val := by
  have hexpiry := ((TradeFields.rangeChecks_iff lawful).mp h.tradeRanges).expiry
  have hcredential :=
    ((CredentialFields.rangeChecks_iff lawful).mp h.credentialRanges).credentialExpiry
  have hvalid := (zkGreaterEqThan_iff lawful (by decide) hcredential hexpiry).1.mp h.valid.1
  by_contra hlt
  rw [h.valid.2] at hvalid
  exact one_ne_zero (hvalid.trans (if_neg hlt))

/-- Soundness: an assignment decodes. -/
theorem EligibilityHolds.decodes (lawful : lib.Lawful) (h : EligibilityHolds lib H signals) :
    ∃ (credential : ActiveCredential) (intent : TradeIntent),
      (tradeCommitmentV1 H intent).value.value.toFr = signals.tradeCommitment ∧
      Eligible H credentialDepth policyDepth signals.activeCredentialRoot credential intent := by
  obtain ⟨intent, hintent⟩ :=
    TradeFields.inRange_iff.mp ((TradeFields.rangeChecks_iff lawful).mp h.tradeRanges)
  obtain ⟨credential, hcredential⟩ := CredentialFields.inRange_iff.mp
    ((CredentialFields.rangeChecks_iff lawful).mp h.credentialRanges)
  have hrecipient : intent.fields.recipientCommitment =
      credential.fields.recipientStaging.eval H := by rw [hintent, hcredential]; rfl
  have hclass : (fromU64 credential.investorClass.get).toFr = signals.allowedInvestorClass :=
    (congrArg CredentialFields.investorClass hcredential).trans h.allowed.1
  have hjurisdiction : (fromU64 credential.jurisdiction.get).toFr = signals.allowedJurisdiction :=
    (congrArg CredentialFields.jurisdiction hcredential).trans h.allowed.2
  have hpolicy : intent.policyRoot.value.toFr = signals.policyRoot :=
    congrArg TradeFields.policyRoot hintent
  refine ⟨credential, intent, ?_, ?_⟩
  · rw [toFr_tradeCommitmentV1, hintent]
    exact h.commits
  · refine ⟨?_, ?_, ⟨signals.credentialPath, length_pathOf _ _, ?_⟩,
      ⟨signals.policyPath, length_pathOf _ _, ?_⟩⟩
    · exact FieldNewtype.eq_of_toFr (hrecipient.trans (toFr_bindRecipient H credential).symm)
    · rw [coversTradeExpiry_iff, hintent, hcredential]
      exact h.covers lawful
    · rw [toFr_leaf, hcredential]
      exact h.credentialMember
    · rw [hclass, hjurisdiction, hpolicy]
      exact h.policyMember

end Soundness

section Completeness
variable {credentialDepth policyDepth : Nat}

/-- The signals an honest prover assigns. The hints of the root checks are free. -/
def EligibilitySignals.honest (credential : ActiveCredential) (intent : TradeIntent)
    (root commitment : Fr)
    (credentialSiblings credentialIndices : List.Vector Fr credentialDepth)
    (policySiblings policyIndices : List.Vector Fr policyDepth) :
    EligibilitySignals credentialDepth policyDepth where
  activeCredentialRoot := root
  tradeCommitment := commitment
  subjectSecret := credential.fields.subjectSecret
  credentialAuthorityCommitment := credential.fields.authorityCommitment
  investorClass := credential.fields.investorClass
  jurisdiction := credential.fields.jurisdiction
  credentialExpiry := credential.fields.credentialExpiry
  credentialNonce := credential.fields.nonce
  credentialMerkleSiblings := credentialSiblings
  credentialMerklePathIndices := credentialIndices
  policyRoot := intent.fields.policyRoot
  allowedInvestorClass := credential.fields.investorClass
  allowedJurisdiction := credential.fields.jurisdiction
  policyMerkleSiblings := policySiblings
  policyMerklePathIndices := policyIndices
  receiverLimb0 := credential.fields.receiverLimb0
  receiverLimb1 := credential.fields.receiverLimb1
  receiverLimb2 := credential.fields.receiverLimb2
  offeredAssetHi := intent.fields.offeredAssetHi
  offeredAssetLo := intent.fields.offeredAssetLo
  offeredAmount := intent.fields.offeredAmount
  requestedAssetHi := intent.fields.requestedAssetHi
  requestedAssetLo := intent.fields.requestedAssetLo
  requestedAmount := intent.fields.requestedAmount
  matcherFeeAmount := intent.fields.matcherFeeAmount
  matcherFeeRecipientCommitment := intent.fields.matcherFeeRecipientCommitment
  nonce := intent.fields.nonce
  expiry := intent.fields.expiry
  credentialRootInv := 0
  policyRootInv := 0
  validThroughTradeOut := 1

/-- Completeness: the honest signals satisfy the circuit. -/
theorem EligibilitySignals.honest_holds {lib : Circomlib} (lawful : lib.Lawful)
    {H : List Fr → Fr} {root : Fr} {credential : ActiveCredential} {intent : TradeIntent}
    {siblings indices : List.Vector Fr credentialDepth}
    {policySiblings policyIndices : List.Vector Fr policyDepth}
    (recipient : intent.recipientCommitment =
      (bindRecipient H credential.subjectSecret
        credential.approvedReceiver).value.recipientCommitment)
    (covers : credential.credentialExpiry.coversTradeExpiry intent.expiry.instant = true)
    (binary : BinaryIndices indices) (policyBinary : BinaryIndices policyIndices)
    (member : climb H (credential.leaf H).value.value.toFr (pathOf siblings indices) = root)
    (permitted : climb H (policyLeaf H (fromU64 credential.investorClass.get).toFr
      (fromU64 credential.jurisdiction.get).toFr) (pathOf policySiblings policyIndices) =
        intent.policyRoot.value.toFr) :
    EligibilityHolds lib H (EligibilitySignals.honest credential intent root
      (tradeCommitmentV1 H intent).value.value.toFr siblings indices policySiblings
      policyIndices) := by
  let signals := EligibilitySignals.honest credential intent root
    (tradeCommitmentV1 H intent).value.value.toFr siblings indices policySiblings policyIndices
  have hrecipient : credential.fields.recipientStaging.eval H =
      intent.fields.recipientCommitment := by
    rw [← toFr_bindRecipient, ← recipient]
    rfl
  have htrade : signals.trade H = intent.fields :=
    TradeFields.ext rfl rfl rfl rfl rfl rfl hrecipient rfl rfl rfl rfl rfl
  have htradeRange := TradeFields.inRange_iff.mpr ⟨intent, rfl⟩
  have hcredentialRange := CredentialFields.inRange_iff.mpr ⟨credential, rfl⟩
  have hchecks := (CredentialFields.rangeChecks_iff lawful).mpr hcredentialRange
  have hvalid := (zkGreaterEqThan_iff lawful (by decide) hcredentialRange.credentialExpiry
    htradeRange.expiry).1.mpr (if_pos (coversTradeExpiry_iff.mp covers)).symm
  have hcommits : (signals.trade H).staging.eval H = signals.tradeCommitment := by
    rw [htrade]
    exact (toFr_tradeCommitmentV1 H intent).symm
  have htradeChecks : (signals.trade H).RangeChecks lib := by
    rw [htrade]
    exact (TradeFields.rangeChecks_iff lawful).mpr htradeRange
  rw [toFr_leaf] at member
  exact {
    tradeRanges := htradeChecks
    credentialRanges := hchecks
    allowedRanges := ⟨hchecks.investorClass, hchecks.jurisdiction⟩
    allowed := ⟨rfl, rfl⟩
    credentialBinary := binary
    credentialMember := member
    policyBinary
    policyMember := permitted
    valid := ⟨hvalid, rfl⟩
    commits := hcommits }

theorem Eligible.satisfies {lib : Circomlib} (lawful : lib.Lawful) {H : List Fr → Fr} {root : Fr}
    {credential : ActiveCredential} {intent : TradeIntent}
    (h : Eligible H credentialDepth policyDepth root credential intent) :
    ∃ signals : EligibilitySignals credentialDepth policyDepth,
      signals.activeCredentialRoot = root ∧
      signals.tradeCommitment = (tradeCommitmentV1 H intent).value.value.toFr ∧
      EligibilityHolds lib H signals := by
  obtain ⟨path, hlength, hmember⟩ := h.member
  obtain ⟨policyPath, hpolicyLength, hpermitted⟩ := h.permitted
  obtain ⟨siblings, indices, hbinary, rfl⟩ := exists_pathOf hlength
  obtain ⟨policySiblings, policyIndices, hpolicyBinary, rfl⟩ := exists_pathOf hpolicyLength
  refine ⟨.honest credential intent root (tradeCommitmentV1 H intent).value.value.toFr siblings
    indices policySiblings policyIndices, rfl, rfl, ?_⟩
  exact EligibilitySignals.honest_holds lawful h.recipient h.covers hbinary hpolicyBinary hmember
    hpermitted

end Completeness

/-- The eligibility circuit proves exactly the Rust-level statement: its public
inputs have a satisfying assignment when, and only when, some credential and some
intent with that commitment satisfy it. -/
theorem eligibility_circuit_iff_statement (H : List Fr → Fr) (lib : Circomlib)
    (lawful : lib.Lawful) (root commitment : Fr) :
    (∃ signals : EligibilitySignals 3 3, signals.activeCredentialRoot = root ∧
      signals.tradeCommitment = commitment ∧ (rwaInvestorEligibilityV1 lib H signals).holds) ↔
    ∃ (credential : ActiveCredential) (intent : TradeIntent),
      (tradeCommitmentV1 H intent).value.value.toFr = commitment ∧
      Eligible H 3 3 root credential intent := by
  constructor
  · rintro ⟨signals, rfl, rfl, holds⟩
    exact ((rwaInvestorEligibilityV1_holds lib H signals).mp holds).decodes lawful
  · rintro ⟨credential, intent, rfl, eligible⟩
    obtain ⟨signals, hroot, hcommitment, holds⟩ := eligible.satisfies lawful
    exact ⟨signals, hroot, hcommitment,
      (rwaInvestorEligibilityV1_holds lib H signals).mpr holds⟩

/-- A blank credential and trade that expire at the last second, with zero paths. -/
def EligibilitySignals.blank : EligibilitySignals 3 3 :=
  .honest (.blank 18446744073709551615) (.blank 18446744073709551615) 0 0
    (List.Vector.replicate 3 0) (List.Vector.replicate 3 0) (List.Vector.replicate 3 0)
    (List.Vector.replicate 3 0)

theorem EligibilitySignals.blank_holds :
    (rwaInvestorEligibilityV1 .bitwise (fun _ => 0) EligibilitySignals.blank).holds := by
  rw [rwaInvestorEligibilityV1_holds]
  refine EligibilitySignals.honest_holds Circomlib.bitwise_lawful ?_ ?_ (binaryIndices_zero 3)
    (binaryIndices_zero 3) ?_ ?_
  · refine FieldNewtype.eq_of_toFr ?_
    rw [toFr_bindRecipient]
    exact toFr_zero
  · simp [ActiveCredential.blank, TradeIntent.blank, CredentialExpiry.coversTradeExpiry,
      CredentialExpiry.new, TradeExpiry.new]
  · rw [toFr_leaf]
    exact climb_const _ _
  · exact (climb_const _ _).trans toFr_zero.symm

theorem eligibility_circuit_iff_statement_blank :
    ∃ (credential : ActiveCredential) (intent : TradeIntent),
      (tradeCommitmentV1 (fun _ => 0) intent).value.value.toFr = 0 ∧
      Eligible (fun _ => 0) 3 3 0 credential intent :=
  (eligibility_circuit_iff_statement (fun _ => 0) .bitwise Circomlib.bitwise_lawful 0 0).mp
    ⟨.blank, rfl, rfl, EligibilitySignals.blank_holds⟩

end ZwaProtocol
