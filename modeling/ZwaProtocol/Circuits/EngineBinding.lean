import ZwaProtocol.Circuits.EngineAcceptance
import ZwaProtocol.Credentials.LeafBinding

/-!
The commitments of the JavaScript engine bind the requests they are made for, on all the
integers and texts it accepts: those of a trade, an issuance, a recipient, a credential
and a policy. The codes of credentials and policies are the engine's 64-bit integers.
-/
namespace ZwaProtocol
open HashStaging FieldElement SharedEngine SharedEligibility

section Issuances

theorem IssuanceFields.staging_sameShape (fields others : IssuanceFields) :
    fields.staging.SameShape others.staging := by
  simp [staging, assetStaging]

theorem IssuanceFields.staging_injective : Function.Injective staging := by
  intro fields others h
  simp only [staging, assetStaging, Staging.hash.injEq, List.cons.injEq, Staging.value.injEq,
    and_true, true_and] at h
  obtain ⟨issuer, ⟨assetHi, assetLo⟩, series, root, nonce⟩ := h
  exact IssuanceFields.ext issuer assetHi assetLo series root nonce

/-- The fields of checked requests for two assets. -/
theorem lowerCase_eq_of_fields {request other : IssuanceRequest} {asset asset' : AssetBaseBytes}
    (checked : request.Checked) (checked' : other.Checked)
    (htext : asset.toHex = request.offeredAssetBase.toLower)
    (htext' : asset'.toHex = other.offeredAssetBase.toLower)
    (h : request.fields asset = other.fields asset') : request.lowerCase = other.lowerCase := by
  simp only [SharedEngine.IssuanceRequest.fields, IssuanceFields.mk.injEq] at h
  obtain ⟨issuer, hi, lo, series, root, nonce⟩ := h
  have hasset : asset = asset' := assetBase_eq_of_limbs hi lo
  simp only [SharedEngine.IssuanceRequest.lowerCase, ← htext, ← htext', hasset,
    checked.issuerCommitment.eq_of_cast checked'.issuerCommitment issuer,
    checked.seriesCommitment.eq_of_cast checked'.seriesCommitment series,
    checked.policyRoot.eq_of_cast checked'.policyRoot root,
    checked.issuanceNonce.isField.eq_of_cast checked'.issuanceNonce.isField nonce]

theorem issuance_eq_or_collision (H : List Fr → Fr) {request other : IssuanceRequest}
    {issuance issuance' : Issuance} {inputs inputs' : List (List Fr)}
    (returned : Returns (computeIssuance H request) issuance inputs)
    (returned' : Returns (computeIssuance H other) issuance' inputs')
    (h : issuance.issuanceLeaf = issuance'.issuanceLeaf) :
    request.lowerCase = other.lowerCase ∨ Collision H (inputs ++ inputs') := by
  have checked := computeIssuance_checked H returned
  have checked' := computeIssuance_checked H returned'
  obtain ⟨asset, _, recorded, htext, hreturns, hleaf, hinputs⟩ := checked.exists_leaf H
  obtain ⟨asset', _, recorded', htext', hreturns', hleaf', hinputs'⟩ := checked'.exists_leaf H
  obtain rfl := returned.inputs_unique hreturns
  obtain rfl := returned'.inputs_unique hreturns'
  rw [returned.value_unique hreturns, returned'.value_unique hreturns', hleaf, hleaf',
    Int.natCast_inj, (ZMod.val_injective _).eq_iff] at h
  refine (Staging.eq_or_collision (IssuanceFields.staging_sameShape _ _) hinputs hinputs'
    h).imp_left fun hstaging => ?_
  exact lowerCase_eq_of_fields checked checked' htext htext'
    (IssuanceFields.staging_injective hstaging)

end Issuances

section Credentials
variable (H : List Fr → Fr) {request other : CredentialRequest}

/-- The three hashes of a leaf, over the commitment to the approved receiver. -/
def SharedEligibility.CredentialRequest.staging (request : CredentialRequest) : Staging Fr :=
  .hash [.value credentialV2, .value request.credentialAuthorityCommitment,
    .hash [.value subjectV1, .value request.subjectSecret],
    .hash [.value credentialMetaV1, .value request.investorClass, .value request.jurisdiction,
      .value request.credentialExpiry],
    .value request.credentialNonce, .value request.approvedReceiverCommitment]

/-- What the engine returns for a credential. -/
def engineCredential (request : CredentialRequest) : Credential where
  subjectCommitment := (H [(subjectV1 : Fr), request.subjectSecret]).val
  credentialMeta := (H [(credentialMetaV1 : Fr), request.investorClass, request.jurisdiction,
    request.credentialExpiry]).val
  credentialLeaf := (request.staging.eval H).val

/-- The leaf is hashed last. -/
theorem SharedEligibility.CredentialRequest.Checked.returns (h : request.Checked) :
    Returns (computeCredential H request) (engineCredential H request)
      ((request.staging.inputs H).rotate 1) := by
  obtain ⟨credential, inputs, hreturns, rfl, rfl⟩ : ∃ credential inputs,
      Returns (computeCredential H request) credential inputs ∧
      credential = engineCredential H request ∧
      inputs = (request.staging.inputs H).rotate 1 := by
    refine ⟨_, _, (h.subjectSecret.returns "subject secret").check
      ((hasher_returns H _).bind
        ((h.investorClass.returns "investor class").check
          ((h.jurisdiction.returns "jurisdiction").check
            ((h.credentialExpiry.returns "credential expiry").check
              ((hasher_returns H _).bind
                ((h.credentialAuthorityCommitment.returns "credential authority commitment").check
                  ((h.credentialNonce.returns "credential nonce").check
                    ((h.approvedReceiverCommitment.returns "approved receiver commitment").check
                      ((hasher_returns H _).bind_pure _))))))))), ?_, ?_⟩
    · simp [toFrs, engineCredential, SharedEligibility.CredentialRequest.staging]
    · simp [toFrs, SharedEligibility.CredentialRequest.staging]
  exact hreturns

theorem SharedEligibility.CredentialRequest.Checked.exists_leaf (h : request.Checked) :
    ∃ credential inputs, Returns (computeCredential H request) credential inputs ∧
      credential.credentialLeaf = (request.staging.eval H).val ∧
      request.staging.inputs H ⊆ inputs :=
  ⟨_, _, h.returns H, rfl, fun _ hinput => List.mem_rotate.mpr hinput⟩

theorem request_eq_of_staging (checked : request.Checked) (checked' : other.Checked)
    (h : request.staging = other.staging) : request = other := by
  simp only [SharedEligibility.CredentialRequest.staging, Staging.hash.injEq, List.cons.injEq,
    Staging.value.injEq, and_true, true_and] at h
  obtain ⟨authority, secret, ⟨investorClass, jurisdiction, expiry⟩, nonce, approved⟩ := h
  have hauthority := checked.credentialAuthorityCommitment.eq_of_cast
    checked'.credentialAuthorityCommitment authority
  have hsecret := checked.subjectSecret.eq_of_cast checked'.subjectSecret secret
  have hclass :=
    checked.investorClass.isField.eq_of_cast checked'.investorClass.isField investorClass
  have hjurisdiction :=
    checked.jurisdiction.isField.eq_of_cast checked'.jurisdiction.isField jurisdiction
  have hexpiry :=
    checked.credentialExpiry.isField.eq_of_cast checked'.credentialExpiry.isField expiry
  have hnonce := checked.credentialNonce.isField.eq_of_cast checked'.credentialNonce.isField nonce
  have happroved := checked.approvedReceiverCommitment.eq_of_cast
    checked'.approvedReceiverCommitment approved
  cases request
  cases other
  simp only at hauthority hsecret hclass hjurisdiction hexpiry hnonce happroved
  subst hauthority hsecret hclass hjurisdiction hexpiry hnonce happroved
  rfl

theorem credential_request_eq_or_collision {credential credential' : Credential}
    {inputs inputs' : List (List Fr)}
    (returned : Returns (computeCredential H request) credential inputs)
    (returned' : Returns (computeCredential H other) credential' inputs')
    (h : credential.credentialLeaf = credential'.credentialLeaf) :
    request = other ∨ Collision H (inputs ++ inputs') := by
  have checked := (computeCredential_completes_iff H request).mp ⟨_, _, returned⟩
  have checked' := (computeCredential_completes_iff H other).mp ⟨_, _, returned'⟩
  obtain ⟨_, recorded, hreturns, hleaf, hinputs⟩ := checked.exists_leaf H
  obtain ⟨_, recorded', hreturns', hleaf', hinputs'⟩ := checked'.exists_leaf H
  obtain rfl := returned.inputs_unique hreturns
  obtain rfl := returned'.inputs_unique hreturns'
  rw [returned.value_unique hreturns, returned'.value_unique hreturns', hleaf, hleaf',
    Int.natCast_inj, (ZMod.val_injective _).eq_iff] at h
  have hshape : request.staging.SameShape other.staging := by
    simp [SharedEligibility.CredentialRequest.staging]
  exact (Staging.eq_or_collision hshape hinputs hinputs' h).imp_left
    (request_eq_of_staging checked checked')

end Credentials

section Policies
variable (H : List Fr → Fr)

theorem computePolicyLeaf_returns {investorClass jurisdiction : Int} (hclass : IsU64 investorClass)
    (hjurisdiction : IsU64 jurisdiction) :
    Returns (computePolicyLeaf H investorClass jurisdiction)
      (policyLeaf H investorClass jurisdiction).val
      [[domainEligibilityPolicyV1, (investorClass : Fr), (jurisdiction : Fr)]] :=
  (hclass.returns "investor class").check
    ((hjurisdiction.returns "jurisdiction").check (hasher_returns H _))

theorem computePolicyLeaf_returned {investorClass jurisdiction leaf : Int}
    {inputs : List (List Fr)}
    (h : Returns (computePolicyLeaf H investorClass jurisdiction) leaf inputs) :
    IsU64 investorClass ∧ IsU64 jurisdiction ∧
      leaf = (policyLeaf H investorClass jurisdiction).val ∧
      inputs = [[domainEligibilityPolicyV1, (investorClass : Fr), (jurisdiction : Fr)]] := by
  obtain ⟨hclass, hjurisdiction⟩ := (computePolicyLeaf_completes_iff H _ _).mp ⟨_, _, h⟩
  have hreturns := computePolicyLeaf_returns H hclass hjurisdiction
  exact ⟨hclass, hjurisdiction, h.value_unique hreturns, h.inputs_unique hreturns⟩

theorem policy_eq_or_collision {investorClass jurisdiction investorClass' jurisdiction' : Int}
    {leaf : Int} {inputs inputs' : List (List Fr)}
    (returned : Returns (computePolicyLeaf H investorClass jurisdiction) leaf inputs)
    (returned' : Returns (computePolicyLeaf H investorClass' jurisdiction') leaf inputs') :
    (investorClass = investorClass' ∧ jurisdiction = jurisdiction') ∨
      Collision H (inputs ++ inputs') := by
  obtain ⟨hclass, hjurisdiction, hvalue, rfl⟩ := computePolicyLeaf_returned H returned
  obtain ⟨hclass', hjurisdiction', hvalue', rfl⟩ := computePolicyLeaf_returned H returned'
  have hleaf := hvalue.symm.trans hvalue'
  rw [Int.natCast_inj, (ZMod.val_injective _).eq_iff] at hleaf
  refine or_iff_not_imp_right.mpr fun hcollision => ?_
  have hlists := injOn_of_not_collision hcollision
    (List.mem_append_left _ (List.mem_singleton_self _))
    (List.mem_append_right _ (List.mem_singleton_self _)) hleaf
  simp only [List.cons.injEq, and_true, true_and] at hlists
  exact ⟨hclass.isField.eq_of_cast hclass'.isField hlists.1,
    hjurisdiction.isField.eq_of_cast hjurisdiction'.isField hlists.2⟩

end Policies

section Trades
variable (H : List Fr → Fr)

theorem trade_request_eq_or_collision {request other : TradeRequest} {trade trade' : Trade}
    {inputs inputs' : List (List Fr)} (returned : Returns (computeTrade H request) trade inputs)
    (returned' : Returns (computeTrade H other) trade' inputs')
    (h : trade.tradeCommitment = trade'.tradeCommitment) :
    request.lowerCase = other.lowerCase ∨ Collision H (inputs ++ inputs') := by
  obtain ⟨intent, hrequest, rfl, rfl⟩ := computeTrade_returned H returned
  obtain ⟨intent', hrequest', rfl, rfl⟩ := computeTrade_returned H returned'
  have hcommitment : (tradeCommitmentV1 H intent).value = (tradeCommitmentV1 H intent').value := by
    refine FieldNewtype.eq_of_toFr ?_
    rw [toFr, toFr]
    exact congrArg Nat.cast (Int.natCast_inj.mp h)
  refine (intent_eq_or_collision H hcommitment).imp_left fun hintent => ?_
  rw [← hrequest, ← hrequest', hintent]

theorem holder_texts_eq_or_collision {subjectSecret subjectSecret' : Int}
    {receiverHex receiverHex' : String} {binding binding' : Binding}
    {inputs inputs' : List (List Fr)}
    (returned : Returns (computeRecipientBinding H subjectSecret receiverHex) binding inputs)
    (returned' : Returns (computeRecipientBinding H subjectSecret' receiverHex') binding' inputs')
    (h : binding.recipientCommitment = binding'.recipientCommitment) :
    (subjectSecret = subjectSecret' ∧ receiverHex.toLower = receiverHex'.toLower) ∨
      Collision H (inputs ++ inputs') := by
  obtain ⟨secret, receiver, rfl, htext, rfl, rfl⟩ := computeRecipientBinding_returned H returned
  obtain ⟨secret', receiver', rfl, htext', rfl, rfl⟩ :=
    computeRecipientBinding_returned H returned'
  have hcommitment : (bindRecipient H secret receiver).value.recipientCommitment
      = (bindRecipient H secret' receiver').value.recipientCommitment := by
    refine FieldNewtype.eq_of_toFr ?_
    rw [toFr, toFr]
    exact congrArg Nat.cast (Int.natCast_inj.mp h)
  refine (holder_eq_or_collision H hcommitment).imp_left ?_
  rintro ⟨rfl, rfl⟩
  exact ⟨rfl, htext.symm.trans htext'⟩

end Trades

/-- Every commitment of the engine binds its request, whatever the hash: equal trade
commitments and equal issuance leaves are of requests equal up to the case of their text,
equal recipient commitments of one secret and one receiver, equal credential leaves of one
request and equal policy leaves of the same codes; or two different lists among those hashed
for the two have one digest. -/
theorem engine_commitments_bind (H : List Fr → Fr) :
    (∀ (request other : TradeRequest) (trade trade' : Trade) (inputs inputs' : List (List Fr)),
      Returns (computeTrade H request) trade inputs →
      Returns (computeTrade H other) trade' inputs' →
      trade.tradeCommitment = trade'.tradeCommitment →
      request.lowerCase = other.lowerCase ∨ Collision H (inputs ++ inputs')) ∧
    (∀ (request other : IssuanceRequest) (issuance issuance' : Issuance)
      (inputs inputs' : List (List Fr)),
      Returns (computeIssuance H request) issuance inputs →
      Returns (computeIssuance H other) issuance' inputs' →
      issuance.issuanceLeaf = issuance'.issuanceLeaf →
      request.lowerCase = other.lowerCase ∨ Collision H (inputs ++ inputs')) ∧
    (∀ (subjectSecret subjectSecret' : Int) (receiverHex receiverHex' : String)
      (binding binding' : Binding) (inputs inputs' : List (List Fr)),
      Returns (computeRecipientBinding H subjectSecret receiverHex) binding inputs →
      Returns (computeRecipientBinding H subjectSecret' receiverHex') binding' inputs' →
      binding.recipientCommitment = binding'.recipientCommitment →
      (subjectSecret = subjectSecret' ∧ receiverHex.toLower = receiverHex'.toLower) ∨
        Collision H (inputs ++ inputs')) ∧
    (∀ (request other : CredentialRequest) (credential credential' : Credential)
      (inputs inputs' : List (List Fr)),
      Returns (computeCredential H request) credential inputs →
      Returns (computeCredential H other) credential' inputs' →
      credential.credentialLeaf = credential'.credentialLeaf →
      request = other ∨ Collision H (inputs ++ inputs')) ∧
    ∀ (investorClass jurisdiction investorClass' jurisdiction' leaf : Int)
      (inputs inputs' : List (List Fr)),
      Returns (computePolicyLeaf H investorClass jurisdiction) leaf inputs →
      Returns (computePolicyLeaf H investorClass' jurisdiction') leaf inputs' →
      (investorClass = investorClass' ∧ jurisdiction = jurisdiction') ∨
        Collision H (inputs ++ inputs') :=
  ⟨fun _ _ _ _ _ _ returned returned' h => trade_request_eq_or_collision H returned returned' h,
    fun _ _ _ _ _ _ returned returned' h => issuance_eq_or_collision H returned returned' h,
    fun _ _ _ _ _ _ _ _ returned returned' h =>
      holder_texts_eq_or_collision H returned returned' h,
    fun _ _ _ _ _ _ returned returned' h =>
      credential_request_eq_or_collision H returned returned' h,
    fun _ _ _ _ _ _ _ returned returned' => policy_eq_or_collision H returned returned'⟩

/-- Under a constant hash the requests of two expiries share a commitment, and the lists
collide. -/
theorem engine_commitments_bind_constant :
    (tradeRequest (.blank 1)).lowerCase = (tradeRequest (.blank 2)).lowerCase ∨
      Collision (fun _ => 0) ((tradeCommitmentParts (fun _ => 0) (.blank 1)).inputs
        ++ (tradeCommitmentParts (fun _ => 0) (.blank 2)).inputs) :=
  (engine_commitments_bind (fun _ => 0)).1 _ _ _ _ _ _
    (computeTrade_agrees (fun _ => 0) (.blank 1)) (computeTrade_agrees (fun _ => 0) (.blank 2))
    (by simp [engineTrade, tradeCommitmentParts])

end ZwaProtocol
