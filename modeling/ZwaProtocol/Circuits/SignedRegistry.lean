import ZwaProtocol.Circuits.Compliance
import ZwaProtocol.Credentials.RootFreshness

/-!
What is published of a registry fixes it. A root envelope is signed over a root and a trade
commits to one; the root fixes every entry of the registry, in order, and which of the three
kinds it is of.
-/
namespace ZwaProtocol
open MerkleTree FieldElement HashStaging SelfDelimiting SharedEngine SharedEligibility

section Registries
variable (H : List Fr → Fr) {α β γ : Type} (compute : α → Js β) (leafOf : β → Int)

/-- Entries with one leaf are alike, or the lists hashed for them collide. -/
def BindsEntries (alike : α → γ) : Prop :=
  ∀ entry value inputs other value' inputs', Returns (compute entry) value inputs →
    Returns (compute other) value' inputs' → (leafOf value : Fr) = (leafOf value' : Fr) →
    alike entry = alike other ∨ Collision H (inputs ++ inputs')

variable {H compute leafOf} {α' β' : Type} {compute' : α' → Js β'} {leafOf' : β' → Int}
  {width width' : Nat} {registry : Registry H compute leafOf}

/-- Registries with one root have one list of leaves. -/
theorem Registry.leaves_eq_of_root {other : Registry H compute' leafOf'}
    (hashes : HashesLeaves H compute leafOf width) (hwidth : width ≠ 2)
    (hashes' : HashesLeaves H compute' leafOf' width') (hwidth' : width' ≠ 2)
    {recorded : Set (List Fr)} (injective : Set.InjOn H recorded)
    (hinputs : ∀ xs ∈ registry.inputs, xs ∈ recorded)
    (hinputs' : ∀ xs ∈ other.inputs, xs ∈ recorded)
    (root : (registry.root : Fr) = (other.root : Fr)) :
    toFrs (registry.computed.map leafOf) = toFrs (other.computed.map leafOf') := by
  obtain ⟨height, hlength, htree, hroot⟩ := registry.builds.spec
  obtain ⟨height', hlength', htree', hroot'⟩ := other.builds.spec
  refine sealed_leaves_eq_of_root injective hlength hlength' ?_ ?_
    (registry.sealed_leaves hinputs (hashes.seals hwidth))
    (other.sealed_leaves hinputs' (hashes'.seals hwidth')) ?_
  · exact fun pair hpair => hinputs pair (List.mem_append_right _ (by rwa [htree]))
  · exact fun pair hpair => hinputs' pair (List.mem_append_right _ (by rwa [htree']))
  · rw [hroot, hroot', root]

/-- A root fixes the entries of a registry. -/
theorem Registry.entries_eq_or_collision {alike : α → γ} {other : Registry H compute leafOf}
    (hashes : HashesLeaves H compute leafOf width) (hwidth : width ≠ 2)
    (binds : BindsEntries H compute leafOf alike)
    (root : (registry.root : Fr) = (other.root : Fr)) :
    registry.entries.map alike = other.entries.map alike ∨
      Collision H (registry.inputs ++ other.inputs) := by
  rw [or_iff_not_imp_right]
  intro hcollision
  have hleaves := Registry.leaves_eq_of_root hashes hwidth hashes hwidth
    (injOn_of_not_collision hcollision) (fun xs hxs => List.mem_append_left _ hxs)
    (fun xs hxs => List.mem_append_right _ hxs) root
  have hcomputed : registry.computed.length = other.computed.length := by
    have hcount := congrArg List.length hleaves
    simpa only [toFrs, List.length_map] using hcount
  refine List.ext_getElem ?_ fun k hk hk' => ?_
  · rw [List.length_map, List.length_map, ← registry.length_computed, hcomputed,
      other.length_computed]
  rw [List.length_map] at hk hk'
  have hvalue : k < registry.computed.length := by rwa [registry.length_computed]
  have hvalue' : k < other.computed.length := by rwa [other.length_computed]
  obtain ⟨more, hreturns, hsubset⟩ := registry.forall₂_computed.get hk hvalue
  obtain ⟨more', hreturns', hsubset'⟩ := other.forall₂_computed.get hk' hvalue'
  have hleaf : (leafOf registry.computed[k] : Fr) = (leafOf other.computed[k] : Fr) := by
    have hread := congrArg (fun leaves : List Fr => leaves[k]?) hleaves
    simpa only [toFrs, List.getElem?_map, List.getElem?_eq_getElem hvalue,
      List.getElem?_eq_getElem hvalue', Option.map_some, Option.some.injEq] using hread
  rw [List.getElem_map, List.getElem_map]
  refine (binds _ _ _ _ _ _ hreturns hreturns' hleaf).resolve_right fun h =>
    hcollision (h.mono ?_)
  exact List.append_subset.mpr
    ⟨fun xs hxs => List.mem_append_left _ (List.mem_append_left _ (hsubset hxs)),
      fun xs hxs => List.mem_append_right _ (List.mem_append_left _ (hsubset' hxs))⟩

/-- Registries of different kinds have different roots. -/
theorem Registry.root_ne_or_collision {other : Registry H compute' leafOf'}
    (hashes : HashesLeaves H compute leafOf width) (hwidth : width ≠ 2)
    (hashes' : HashesLeaves H compute' leafOf' width') (hwidth' : width' ≠ 2)
    (hne : width ≠ width') :
    (registry.root : Fr) ≠ (other.root : Fr) ∨ Collision H (registry.inputs ++ other.inputs) := by
  rw [or_iff_not_imp_right]
  intro hcollision root
  have hinjective := injOn_of_not_collision hcollision
  have hleaves := Registry.leaves_eq_of_root hashes hwidth hashes' hwidth' hinjective
    (fun xs hxs => List.mem_append_left _ hxs) (fun xs hxs => List.mem_append_right _ hxs) root
  obtain ⟨height, hlength, -⟩ := registry.builds.spec
  have hpos : 0 < (toFrs (registry.computed.map leafOf)).length := by
    rw [hlength]
    exact Nat.two_pow_pos height
  obtain ⟨leaf, hread⟩ : ∃ leaf, (toFrs (registry.computed.map leafOf))[0]? = some leaf :=
    ⟨_, List.getElem?_eq_getElem hpos⟩
  have hread' := hread
  rw [hleaves] at hread'
  obtain ⟨entry, value, more, -, hreturns, hsubset, rfl⟩ := registry.exists_entry hread
  obtain ⟨entry', value', more', -, hreturns', hsubset', hleaf⟩ := other.exists_entry hread'
  obtain ⟨input, hinput, hlength, hdigest⟩ := hashes _ _ _ hreturns
  obtain ⟨input', hinput', hlength', hdigest'⟩ := hashes' _ _ _ hreturns'
  have hlists : input = input' := hinjective
    (List.mem_append_left _ (List.mem_append_left _ (hsubset hinput)))
    (List.mem_append_right _ (List.mem_append_left _ (hsubset' hinput')))
    (hdigest.trans (hleaf.symm.trans hdigest'.symm))
  exact hne (hlength.symm.trans ((congrArg List.length hlists).trans hlength'))

end Registries

section Kinds
variable (H : List Fr → Fr)

theorem issuance_binds : BindsEntries H (computeIssuance H) Issuance.issuanceLeaf
    SharedEngine.IssuanceRequest.lowerCase := by
  intro request issuance inputs other issuance' inputs' hreturns hreturns' hleaf
  obtain ⟨asset, _, _, -, hcomputed, hstaged, -⟩ :=
    (computeIssuance_checked H hreturns).exists_leaf H
  obtain ⟨asset', _, _, -, hcomputed', hstaged', -⟩ :=
    (computeIssuance_checked H hreturns').exists_leaf H
  obtain rfl := hreturns.value_unique hcomputed
  obtain rfl := hreturns'.value_unique hcomputed'
  refine issuance_eq_or_collision H hreturns hreturns' ?_
  rw [hstaged, hstaged', intCast_val, intCast_val] at hleaf
  rw [hstaged, hstaged', hleaf]

/-- What the entry of a credential says: its request, but for the commitment that issuing it
overwrites, and the receiver up to case. -/
def entryForm (entry : CredentialRequest × String) : CredentialRequest × String :=
  ({ entry.1 with approvedReceiverCommitment := 0 }, entry.2.toLower)

/-- Checked requests that commit alike for two receivers. -/
theorem entryForm_eq_of_fields {request other : CredentialRequest} {text text' : String}
    {receiver receiver' : OrchardReceiverBytes} (htext : receiver.toHex = text.toLower)
    (htext' : receiver'.toHex = text'.toLower)
    (checked : (request.approving H receiver).Checked)
    (checked' : (other.approving H receiver').Checked)
    (h : request.fields receiver = other.fields receiver') :
    entryForm (request, text) = entryForm (other, text') := by
  simp only [SharedEligibility.CredentialRequest.fields, CredentialFields.mk.injEq] at h
  obtain ⟨authority, secret, investorClass, jurisdiction, expiry, nonce, limb0, limb1, limb2⟩ := h
  have hreceiver := receiver_eq_of_limbs limb0 limb1 limb2
  have hauthority : request.credentialAuthorityCommitment = other.credentialAuthorityCommitment :=
    checked.credentialAuthorityCommitment.eq_of_cast checked'.credentialAuthorityCommitment
      authority
  have hsecret : request.subjectSecret = other.subjectSecret :=
    checked.subjectSecret.eq_of_cast checked'.subjectSecret secret
  have hclass : request.investorClass = other.investorClass :=
    checked.investorClass.isField.eq_of_cast checked'.investorClass.isField investorClass
  have hjurisdiction : request.jurisdiction = other.jurisdiction :=
    checked.jurisdiction.isField.eq_of_cast checked'.jurisdiction.isField jurisdiction
  have hexpiry : request.credentialExpiry = other.credentialExpiry :=
    checked.credentialExpiry.isField.eq_of_cast checked'.credentialExpiry.isField expiry
  have hnonce : request.credentialNonce = other.credentialNonce :=
    checked.credentialNonce.isField.eq_of_cast checked'.credentialNonce.isField nonce
  simp only [entryForm, hauthority, hsecret, hclass, hjurisdiction, hexpiry, hnonce, ← htext,
    ← htext', hreceiver]

theorem issue_eq_or_collision {request other : CredentialRequest} {text text' : String}
    {issued issued' : Binding × Credential} {inputs inputs' : List (List Fr)}
    (returned : Returns (issue H request text) issued inputs)
    (returned' : Returns (issue H other text') issued' inputs')
    (h : (issued.2.credentialLeaf : Fr) = (issued'.2.credentialLeaf : Fr)) :
    entryForm (request, text) = entryForm (other, text') ∨ Collision H (inputs ++ inputs') := by
  obtain ⟨receiver, htext, checked, hstaged, hinputs⟩ := issue_returned H returned
  obtain ⟨receiver', htext', checked', hstaged', hinputs'⟩ := issue_returned H returned'
  rw [hstaged, hstaged', intCast_val, intCast_val] at h
  refine (Staging.eq_or_collision (CredentialFields.staging_sameShape _ _) hinputs hinputs'
    h).imp_left fun hstaging => ?_
  exact entryForm_eq_of_fields H htext htext' checked checked'
    (CredentialFields.staging_injective hstaging)

theorem issue_binds : BindsEntries H
    (fun entry : CredentialRequest × String => issue H entry.1 entry.2)
    (fun issued => issued.2.credentialLeaf) entryForm :=
  fun _ _ _ _ _ _ hreturns hreturns' hleaf => issue_eq_or_collision H hreturns hreturns' hleaf

theorem policy_binds :
    BindsEntries H (fun codes : Int × Int => computePolicyLeaf H codes.1 codes.2) id id := by
  rintro ⟨investorClass, jurisdiction⟩ leaf inputs ⟨investorClass', jurisdiction'⟩ leaf' inputs'
    hreturns hreturns' hleaf
  obtain ⟨-, -, hvalue, -⟩ := computePolicyLeaf_returned H hreturns
  obtain ⟨-, -, hvalue', -⟩ := computePolicyLeaf_returned H hreturns'
  obtain rfl : leaf = leaf' := by
    rw [hvalue, hvalue', id, id, intCast_val, intCast_val] at hleaf
    rw [hvalue, hvalue', hleaf]
  refine (policy_eq_or_collision H hreturns hreturns').imp_left ?_
  rintro ⟨rfl, rfl⟩
  rfl

end Kinds

/-- An envelope carries the root of a registry. -/
def RootEnvelope.Publishes {kind : RootKind} (envelope : RootEnvelope kind) (root : Int) : Prop :=
  (envelope.payload.root.value.toNat : Int) = root

/-- What is signed is the root. -/
theorem RootEnvelope.Publishes.root_eq {kind : RootKind} {envelope envelope' : RootEnvelope kind}
    {root root' : Int} (h : envelope.Publishes root) (h' : envelope'.Publishes root')
    (bytes : envelope.canonicalPayloadBytes = envelope'.canonicalPayloadBytes) : root = root' := by
  have hsigned : (⟨kind, envelope.payload⟩ : SignedRoot) = ⟨kind, envelope'.payload⟩ :=
    encode_injective SignedRoot.reads_decode bytes
  simp only [Sigma.mk.injEq, heq_eq_eq, true_and] at hsigned
  rw [← h, ← h', hsigned]

/-- What is published fixes the registries. Two issuer envelopes with the same signed bytes
carry roots of the same issuances in the same order, and two credential envelopes roots of the
same credentials; two intents with one commitment commit to roots of the same policies; and a
root is of one kind of registry only. Texts are the same up to case, and in each case two
different lists among those hashed may have one digest instead. -/
theorem published_roots_fix_registries (H : List Fr → Fr) :
    (∀ (envelope envelope' : IssuerRootEnvelope) (issuances issuances' : IssuanceRegistry H),
      envelope.Publishes issuances.root → envelope'.Publishes issuances'.root →
      envelope.canonicalPayloadBytes = envelope'.canonicalPayloadBytes →
      issuances.entries.map SharedEngine.IssuanceRequest.lowerCase
          = issuances'.entries.map SharedEngine.IssuanceRequest.lowerCase ∨
        Collision H (issuances.inputs ++ issuances'.inputs)) ∧
    (∀ (envelope envelope' : CredentialRootEnvelope)
      (credentials credentials' : CredentialRegistry H),
      envelope.Publishes credentials.root → envelope'.Publishes credentials'.root →
      envelope.canonicalPayloadBytes = envelope'.canonicalPayloadBytes →
      credentials.entries.map entryForm = credentials'.entries.map entryForm ∨
        Collision H (credentials.inputs ++ credentials'.inputs)) ∧
    (∀ (intent intent' : TradeIntent) (policies policies' : PolicyRegistry H),
      policies.root = intent.policyRoot.value.toNat →
      policies'.root = intent'.policyRoot.value.toNat →
      (tradeCommitmentV1 H intent).value = (tradeCommitmentV1 H intent').value →
      policies.entries = policies'.entries ∨
        Collision H ((tradeCommitmentParts H intent).inputs
          ++ (tradeCommitmentParts H intent').inputs) ∨
        Collision H (policies.inputs ++ policies'.inputs)) ∧
    ∀ (issuances : IssuanceRegistry H) (credentials : CredentialRegistry H)
      (policies : PolicyRegistry H),
      ((issuances.root : Fr) ≠ (credentials.root : Fr) ∨
        Collision H (issuances.inputs ++ credentials.inputs)) ∧
      ((issuances.root : Fr) ≠ (policies.root : Fr) ∨
        Collision H (issuances.inputs ++ policies.inputs)) ∧
      ((credentials.root : Fr) ≠ (policies.root : Fr) ∨
        Collision H (credentials.inputs ++ policies.inputs)) := by
  refine ⟨?_, ?_, ?_, ?_⟩
  · intro envelope envelope' issuances issuances' published published' bytes
    exact Registry.entries_eq_or_collision (issuance_hashes H) (by decide) (issuance_binds H)
      (congrArg Int.cast (published.root_eq published' bytes))
  · intro envelope envelope' credentials credentials' published published' bytes
    exact Registry.entries_eq_or_collision (issue_hashes H) (by decide) (issue_binds H)
      (congrArg Int.cast (published.root_eq published' bytes))
  · intro intent intent' policies policies' committed committed' commitment
    obtain rfl | hcollision := intent_eq_or_collision H commitment
    · have hentries := Registry.entries_eq_or_collision (policy_hashes H) (by decide)
        (policy_binds H) (congrArg Int.cast (committed.trans committed'.symm))
      rw [List.map_id, List.map_id] at hentries
      exact hentries.imp_right .inr
    · exact .inr (.inl hcollision)
  · intro issuances credentials policies
    exact ⟨Registry.root_ne_or_collision (issuance_hashes H) (by decide) (issue_hashes H)
        (by decide) (by decide),
      Registry.root_ne_or_collision (issuance_hashes H) (by decide) (policy_hashes H)
        (by decide) (by decide),
      Registry.root_ne_or_collision (issue_hashes H) (by decide) (policy_hashes H) (by decide)
        (by decide)⟩

section Sample

/-- The sample trade, of an asset whose text has letters. -/
def letterIntent : TradeIntent := { sampleIntent with offeredAsset := ⟨.replicate 32 0xaa⟩ }

def upperCaseRequest (nonce : UInt64) : IssuanceRequest :=
  { issuanceRequest sampleIssuer sampleSeries nonce letterIntent with
    offeredAssetBase := upperCase 64 }

theorem lowerCase_upperCaseRequest (nonce : UInt64) :
    (upperCaseRequest nonce).lowerCase
      = issuanceRequest sampleIssuer sampleSeries nonce letterIntent := by
  have htext : (upperCase 64).toLower = letterIntent.offeredAsset.toHex := by decide +kernel
  rw [upperCaseRequest, SharedEngine.IssuanceRequest.lowerCase, htext]
  rfl

theorem upperCaseRequest_returns (H : List Fr → Fr) (nonce : UInt64) :
    Returns (computeIssuance H (upperCaseRequest nonce))
      (engineIssuance H sampleIssuer sampleSeries nonce letterIntent)
      (engineIssuanceInputs H sampleIssuer sampleSeries nonce letterIntent) := by
  have hagrees := computeIssuance_agrees H sampleIssuer sampleSeries nonce letterIntent
  have checked := computeIssuance_checked H hagrees
  have checked' : (upperCaseRequest nonce).Checked :=
    { checked with offeredAssetBase := hexForm_upperCase 64 }
  rw [checked'.computeIssuance_lowerCase, lowerCase_upperCaseRequest]
  exact hagrees

def lowerCaseIssuances : IssuanceRegistry sampleHash :=
  .ofNonces sampleHash sampleIssuer sampleSeries letterIntent 1 [0, 1] rfl

def upperCaseIssuances : IssuanceRegistry sampleHash :=
  .ofReturned ([0, 1].map upperCaseRequest) 1 rfl
    (.mapM fun nonce _ => upperCaseRequest_returns sampleHash nonce)

/-- An envelope over the root of both, with a signature of one byte. -/
def sampleEnvelope (signature : UInt8) : IssuerRootEnvelope :=
  ⟨⟨⟨fromFr lowerCaseIssuances.root⟩, ⟨⟨[0x69], by simp, by decide⟩⟩,
    ⟨⟨1⟩, ⟨⟨10⟩, ⟨20⟩, by decide⟩, rfl⟩⟩, ⟨[signature], by simp, by
      rw [List.length_singleton]
      decide⟩⟩

end Sample

/-- Two registries of one root, and three registries of three kinds. -/
theorem published_roots_fix_registries_sample :
    upperCaseIssuances.entries ≠ lowerCaseIssuances.entries ∧
      upperCaseIssuances.entries.map SharedEngine.IssuanceRequest.lowerCase
        = lowerCaseIssuances.entries.map SharedEngine.IssuanceRequest.lowerCase ∧
      (sampleIssuances.root : Fr) ≠ (sampleHolders.root : Fr) ∧
      (sampleIssuances.root : Fr) ≠ (samplePolicies.root : Fr) ∧
      (sampleHolders.root : Fr) ≠ (samplePolicies.root : Fr) := by
  obtain ⟨hissuances, -, -, hkinds⟩ := published_roots_fix_registries sampleHash
  obtain ⟨hholders, hpolicies, hcodes⟩ := hkinds sampleIssuances sampleHolders samplePolicies
  have published : (sampleEnvelope 0x5a).Publishes upperCaseIssuances.root := by
    rw [RootEnvelope.Publishes]
    decide +kernel
  have published' : (sampleEnvelope 0x5b).Publishes lowerCaseIssuances.root := by
    rw [RootEnvelope.Publishes]
    decide +kernel
  have hentries := hissuances _ _ _ _ published published' rfl
  refine ⟨?_, hentries.resolve_right (not_collision_of_nodup (by decide +kernel)),
    hholders.resolve_right (not_collision_of_nodup (by decide +kernel)),
    hpolicies.resolve_right (not_collision_of_nodup (by decide +kernel)),
    hcodes.resolve_right (not_collision_of_nodup (by decide +kernel))⟩
  intro heq
  have hhead := congrArg (fun entries : List IssuanceRequest =>
    (entries.head?.map SharedEngine.IssuanceRequest.offeredAssetBase)) heq
  exact absurd hhead (by decide +kernel)

end ZwaProtocol
