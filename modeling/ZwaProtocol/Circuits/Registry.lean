import ZwaProtocol.Circuits.EngineBinding
import ZwaProtocol.Circuits.EngineRoots

/-!
Registries: entries, what the engine computes of each, and the tree it builds of them. No
leaf of a registry is the digest of a pair, so a path to its root is as long as the tree is
high and starts at the leaf of an entry.
-/
namespace ZwaProtocol
open HashStaging MerkleTree FieldElement SharedEngine SharedEligibility

section Registries
variable (H : List Fr → Fr) {α β : Type} (compute : α → Js β) (leafOf : β → Int)

/-- The engine computed every entry and built a tree over their leaves. -/
structure Registry where
  entries : List α
  computed : List β
  root : Int
  computeInputs : List (List Fr)
  treeInputs : List (List Fr)
  returned : Returns (entries.mapM compute) computed computeInputs
  builds : BuildsRoot H (computed.map leafOf) root treeInputs

/-- Every leaf is the digest of a list that was hashed for it and is not a pair. -/
def SealsLeaves : Prop :=
  ∀ entry value inputs, Returns (compute entry) value inputs →
    ∃ input ∈ inputs, input.length ≠ 2 ∧ H input = (leafOf value : Fr)

/-- Every leaf is the digest of a list of this length that was hashed for it. -/
def HashesLeaves (width : Nat) : Prop :=
  ∀ entry value inputs, Returns (compute entry) value inputs →
    ∃ input ∈ inputs, input.length = width ∧ H input = (leafOf value : Fr)

variable {H compute leafOf}

theorem HashesLeaves.seals {width : Nat} (h : HashesLeaves H compute leafOf width)
    (hwidth : width ≠ 2) : SealsLeaves H compute leafOf := by
  intro entry value inputs hreturns
  obtain ⟨input, hinput, hlength, hdigest⟩ := h entry value inputs hreturns
  exact ⟨input, hinput, hlength.trans_ne hwidth, hdigest⟩

namespace Registry
variable (registry : Registry H compute leafOf)

def inputs : List (List Fr) := registry.computeInputs ++ registry.treeInputs

/-- The registry of entries that the engine accepts, as many as a tree has leaves. -/
def ofReturned (entries : List α) {computed : List β} {computeInputs : List (List Fr)}
    (height : Nat) (length : entries.length = 2 ^ height)
    (returned : Returns (entries.mapM compute) computed computeInputs) :
    Registry H compute leafOf where
  entries
  computed
  root := treeRoot H (computed.map leafOf)
  computeInputs
  treeInputs := MerkleTree.treeInputs H height (toFrs (computed.map leafOf))
  returned
  builds := buildsRoot_treeRoot H
    (by rw [List.length_map, ← returned.forall₂_mapM.length_eq, length])

theorem forall₂_computed : List.Forall₂ (fun entry value => ∃ more,
    Returns (compute entry) value more ∧ more ⊆ registry.computeInputs)
      registry.entries registry.computed :=
  registry.returned.forall₂_mapM

theorem length_computed : registry.computed.length = registry.entries.length :=
  registry.forall₂_computed.length_eq.symm

theorem exists_length : ∃ height, registry.entries.length = 2 ^ height := by
  obtain ⟨height, hlength, -⟩ := registry.builds.spec
  rw [toFrs, List.length_map, List.length_map, registry.length_computed] at hlength
  exact ⟨height, hlength⟩

/-- There are registries of the entries that the engine accepts, of any power of two in number,
and of no others. -/
theorem exists_entries_iff {entries : List α} :
    (∃ registry : Registry H compute leafOf, registry.entries = entries) ↔
      (∃ height, entries.length = 2 ^ height) ∧ ∀ entry ∈ entries, Completes (compute entry) := by
  constructor
  · rintro ⟨registry, rfl⟩
    refine ⟨registry.exists_length, fun entry hentry => ?_⟩
    obtain ⟨k, hk, rfl⟩ := List.getElem_of_mem hentry
    obtain ⟨more, hreturns, -⟩ :=
      registry.forall₂_computed.get hk (by rwa [registry.length_computed])
    exact ⟨_, more, hreturns⟩
  · rintro ⟨⟨height, hlength⟩, hcompletes⟩
    obtain ⟨computed, computeInputs, returned⟩ := completes_mapM hcompletes
    exact ⟨ofReturned entries height hlength returned, rfl⟩

/-- A leaf of the tree is the leaf of an entry. -/
theorem exists_entry {k : Nat} {leaf : Fr}
    (h : (toFrs (registry.computed.map leafOf))[k]? = some leaf) :
    ∃ entry value more, entry ∈ registry.entries ∧ Returns (compute entry) value more ∧
      more ⊆ registry.computeInputs ∧ (leafOf value : Fr) = leaf := by
  rw [toFrs, List.getElem?_map, List.getElem?_map, Option.map_map,
    Option.map_eq_some_iff] at h
  obtain ⟨value, hvalue, hleaf⟩ := h
  obtain ⟨hk, rfl⟩ := List.getElem?_eq_some_iff.mp hvalue
  have hk' : k < registry.entries.length := by rwa [← registry.length_computed]
  obtain ⟨more, hreturns, hsubset⟩ := registry.forall₂_computed.get hk' hk
  exact ⟨_, _, more, List.get_mem _ _, hreturns, hsubset, hleaf⟩

/-- The leaf of an entry climbs to the root. -/
theorem exists_path {height : Nat} (length : registry.entries.length = 2 ^ height) {entry : α}
    (h : entry ∈ registry.entries) :
    ∃ value more path, Returns (compute entry) value more ∧ path.length = height ∧
      climb H (leafOf value : Fr) path = (registry.root : Fr) := by
  obtain ⟨k, hk, rfl⟩ := List.getElem_of_mem h
  have hk' : k < registry.computed.length := by rwa [registry.length_computed]
  obtain ⟨more, hreturns, -⟩ := registry.forall₂_computed.get hk hk'
  obtain ⟨height', hlength, -, hroot⟩ := registry.builds.spec
  have hheight : (toFrs (registry.computed.map leafOf)).length = 2 ^ height := by
    rw [toFrs, List.length_map, List.length_map, registry.length_computed, length]
  obtain rfl : height = height' :=
    Nat.pow_right_injective (Nat.le_refl 2) (hheight.symm.trans hlength)
  have hleaf : (toFrs (registry.computed.map leafOf))[k]?
      = some (leafOf registry.computed[k] : Fr) := by
    rw [toFrs, List.getElem?_map, List.getElem?_map, List.getElem?_eq_getElem hk']
    rfl
  have hclimb := (climb_opening H hlength hleaf).symm.trans hroot
  refine ⟨_, more, _, hreturns, length_opening H hlength ?_, List.head_eq_of_cons_eq hclimb⟩
  rwa [← hlength, toFrs, List.length_map, List.length_map]

variable {recorded : Set (List Fr)} (hinputs : ∀ xs ∈ registry.inputs, xs ∈ recorded)
include hinputs

variable (sealing : SealsLeaves H compute leafOf)
include sealing

theorem sealed_leaves : ∀ node ∈ toFrs (registry.computed.map leafOf),
    Sealed H recorded node := by
  intro node hnode
  obtain ⟨k, hk⟩ := List.getElem?_of_mem hnode
  obtain ⟨entry, value, more, -, hreturns, hsubset, rfl⟩ := registry.exists_entry hk
  obtain ⟨input, hinput, hlength, hdigest⟩ := sealing entry value more hreturns
  exact ⟨input, hinputs _ (List.mem_append_left _ (hsubset hinput)), hlength, hdigest⟩

/-- Soundness of a registry: what climbs to its root is the leaf of an entry, and its path is
as long as the tree is high. -/
theorem entry_of_climb (injective : Set.InjOn H recorded) {path : List (Step Fr)} {leaf : Fr}
    (hpath : ∀ pair ∈ climbInputs H leaf path, pair ∈ recorded) (hleaf : Sealed H recorded leaf)
    (root : climb H leaf path = (registry.root : Fr)) :
    registry.entries.length = 2 ^ path.length ∧
      ∃ entry value more, entry ∈ registry.entries ∧ Returns (compute entry) value more ∧
        more ⊆ registry.inputs ∧ (leafOf value : Fr) = leaf := by
  obtain ⟨height, hlength, htree, hroot⟩ := registry.builds.spec
  obtain ⟨hheight, hread⟩ := sealed_leaf_of_climb injective path hlength hpath
    (fun pair hpair => hinputs pair (List.mem_append_right _ (by rwa [htree])))
    hleaf (registry.sealed_leaves hinputs sealing) (by rw [hroot, root])
  obtain ⟨entry, value, more, hmem, hreturns, hsubset, hvalue⟩ := registry.exists_entry hread
  refine ⟨?_, entry, value, more, hmem, hreturns,
    fun input hinput => List.mem_append_left _ (hsubset hinput), hvalue⟩
  rw [hheight, ← hlength, toFrs, List.length_map, List.length_map, registry.length_computed]

end Registry

end Registries

section Issued
variable (H : List Fr → Fr)

/-- An authority's credential for a receiver: the commitment it approves is that of the
recipient binding. -/
def SharedEligibility.issue (fields : CredentialRequest) (receiverHex : String) :
    Js (Binding × Credential) := do
  let binding ← computeRecipientBinding H fields.subjectSecret receiverHex
  let credential ← computeCredential H
    { fields with approvedReceiverCommitment := binding.receiverCommitment }
  return (binding, credential)

/-- The values a credential for a receiver is committed as. -/
def SharedEligibility.CredentialRequest.fields (request : CredentialRequest)
    (receiver : OrchardReceiverBytes) : CredentialFields where
  authorityCommitment := request.credentialAuthorityCommitment
  subjectSecret := request.subjectSecret
  investorClass := request.investorClass
  jurisdiction := request.jurisdiction
  credentialExpiry := request.credentialExpiry
  nonce := request.credentialNonce
  receiverLimb0 := (fromU128 (encodeReceiver receiver).limb0).toFr
  receiverLimb1 := (fromU128 (encodeReceiver receiver).limb1).toFr
  receiverLimb2 := (fromU128 (encodeReceiver receiver).limb2).toFr

/-- A request and a text ask for this credential. -/
structure Issues (request : CredentialRequest) (receiverHex : String)
    (credential : ActiveCredential) : Prop where
  request : credentialRequest credential request.approvedReceiverCommitment = request
  receiver : credential.approvedReceiver.toHex = receiverHex.toLower

/-- The engine's domains as the circuit has them. -/
theorem cast_credentialDomains :
    ((SharedEligibility.subjectV1 : Int) : Fr) = Domain.subjectV1.asFr ∧
    ((SharedEligibility.credentialMetaV1 : Int) : Fr) = Domain.credentialMetaV1.asFr ∧
    ((SharedEligibility.credentialV2 : Int) : Fr) = Domain.credentialV2.asFr := by
  simp only [Domain.asFr_eq]
  exact ⟨rfl, rfl, rfl⟩

section Staging
variable (request : CredentialRequest) (receiver : OrchardReceiverBytes)

/-- The request whose approved receiver is committed to. -/
def SharedEligibility.CredentialRequest.approving : CredentialRequest :=
  { request with
    approvedReceiverCommitment := (receiverCommitment H receiver).value.value.toNat }

/-- What is approved is committed by its limbs. -/
theorem SharedEligibility.CredentialRequest.fields_approving :
    (request.approving H receiver).fields receiver = request.fields receiver := rfl

theorem staging_approving_eval :
    (request.approving H receiver).staging.eval H = (request.fields receiver).staging.eval H := by
  simp [SharedEligibility.CredentialRequest.staging, CredentialFields.staging,
    CredentialFields.subjectStaging, CredentialFields.metaStaging,
    CredentialFields.receiverStaging, SharedEligibility.CredentialRequest.fields,
    SharedEligibility.CredentialRequest.approving, receiverCommitment, cast_credentialDomains,
    Domain.asFr]

theorem staging_approving_inputs : (request.fields receiver).staging.inputs H
    ⊆ (receiverCommitment H receiver).inputs
      ++ (request.approving H receiver).staging.inputs H := by
  simp [SharedEligibility.CredentialRequest.staging, CredentialFields.staging,
    CredentialFields.subjectStaging, CredentialFields.metaStaging,
    CredentialFields.receiverStaging, SharedEligibility.CredentialRequest.fields,
    SharedEligibility.CredentialRequest.approving, receiverCommitment, cast_credentialDomains,
    Domain.asFr]

end Staging

/-- A credential is issued to its receiver, whatever its request said was approved. -/
theorem issue_agrees (credential : ActiveCredential) (approved : Int) :
    Returns (issue H (credentialRequest credential approved) credential.approvedReceiver.toHex)
      (engineBinding (bindRecipient H credential.subjectSecret credential.approvedReceiver).value
          (encodeReceiver credential.approvedReceiver),
        engineCredential H ((credentialRequest credential approved).approving H
          credential.approvedReceiver))
      ((bindRecipient H credential.subjectSecret credential.approvedReceiver).inputs
        ++ (((credentialRequest credential approved).approving H
          credential.approvedReceiver).staging.inputs H).rotate 1) := by
  obtain ⟨inputs, hcredential⟩ := computeCredential_agrees H credential
  have checked : ((credentialRequest credential approved).approving H
      credential.approvedReceiver).Checked :=
    (computeCredential_completes_iff H _).mp ⟨_, _, hcredential⟩
  exact (computeRecipientBinding_agrees H credential.subjectSecret
    credential.approvedReceiver).bind ((checked.returns H).bind_pure _)

/-- The leaf of an issued credential is staged over the limbs of its receiver. -/
theorem issue_returned {request : CredentialRequest} {receiverHex : String}
    {issued : Binding × Credential} {inputs : List (List Fr)}
    (h : Returns (issue H request receiverHex) issued inputs) :
    ∃ receiver : OrchardReceiverBytes, receiver.toHex = receiverHex.toLower ∧
      (request.approving H receiver).Checked ∧
      issued.2.credentialLeaf = ((request.fields receiver).staging.eval H).val ∧
      (request.fields receiver).staging.inputs H ⊆ inputs := by
  obtain ⟨binding, front, rest, hbinding, hrest, rfl⟩ := returns_bind_iff.mp h
  obtain ⟨credential, middle, last, hcredential, hlast, rfl⟩ := returns_bind_iff.mp hrest
  obtain rfl := hlast.value_unique (.pure _)
  obtain ⟨secret, receiver, hsecret, htext, rfl, rfl⟩ :=
    computeRecipientBinding_returned H hbinding
  have hrequest : Returns (computeCredential H (request.approving H receiver)) credential middle :=
    hcredential
  have checked := (computeCredential_completes_iff H _).mp ⟨_, _, hrequest⟩
  obtain ⟨credential', more, hreturns, hleaf, hinputs⟩ := checked.exists_leaf H
  obtain rfl := hrequest.value_unique hreturns
  obtain rfl := hrequest.inputs_unique hreturns
  refine ⟨receiver, htext, checked, by rw [hleaf, staging_approving_eval], ?_⟩
  intro input hinput
  obtain hreceiver | hcredential := List.mem_append.mp (staging_approving_inputs H _ _ hinput)
  · have hbound :
        (receiverCommitment H receiver).inputs ⊆ (bindRecipient H secret receiver).inputs := by
      simp [bindRecipient]
    exact List.mem_append_left _ (hbound hreceiver)
  · exact List.mem_append_right _ (List.mem_append_left _ (hinputs hcredential))

theorem receiver_toHex_injective : Function.Injective OrchardReceiverBytes.toHex := by
  intro receiver other h
  rw [toHex_receiver, toHex_receiver] at h
  have hbytes := Option.some.inj ((decodeHex_hexText _).symm.trans
    ((congrArg decodeHex h).trans (decodeHex_hexText _)))
  cases receiver
  cases other
  exact congrArg OrchardReceiverBytes.mk (List.Vector.toList_injective hbytes)

theorem asset_toHex_injective : Function.Injective AssetBaseBytes.toHex := by
  intro asset other h
  rw [toHex_asset, toHex_asset] at h
  have hbytes := Option.some.inj ((decodeHex_hexText _).symm.trans
    ((congrArg decodeHex h).trans (decodeHex_hexText _)))
  cases asset
  cases other
  exact congrArg AssetBaseBytes.mk (List.Vector.toList_injective hbytes)

theorem lower_toHex_receiver (receiver : OrchardReceiverBytes) :
    receiver.toHex = receiver.toHex.toLower := by
  rw [toHex_receiver]
  exact hexText_of_decodeHex (decodeHex_hexText _)

/-- A request for a credential is committed as the credential is. -/
theorem Issues.fields_eq {request : CredentialRequest} {receiverHex : String}
    {credential : ActiveCredential} (h : Issues request receiverHex credential)
    {receiver : OrchardReceiverBytes} (htext : receiver.toHex = receiverHex.toLower) :
    request.fields receiver = credential.fields := by
  obtain rfl : receiver = credential.approvedReceiver :=
    receiver_toHex_injective (htext.trans h.receiver.symm)
  rw [← h.request]
  simp [SharedEligibility.CredentialRequest.fields, credentialRequest, ActiveCredential.fields,
    toFr]

theorem IsField.eq_toNat {value : Int} (h : IsField value) {element : FieldElement}
    (heq : (value : Fr) = element.toFr) : value = element.toNat := by
  obtain ⟨other, rfl⟩ := h.exists_eq
  rw [Int.cast_natCast] at heq
  rw [toFr_injective heq]

theorem IsU64.eq_toNat {value : Int} (h : IsU64 value) {word : UInt64}
    (heq : (value : Fr) = (fromU64 word).toFr) : value = word.toNat := by
  rw [h.isField.eq_toNat heq, toNat_fromU64]

/-- Checked integers committed as a credential are those of the credential. -/
theorem issues_of_fields {request : CredentialRequest} {receiverHex : String}
    {credential : ActiveCredential} {receiver : OrchardReceiverBytes}
    (htext : receiver.toHex = receiverHex.toLower)
    (checked : (request.approving H receiver).Checked)
    (h : request.fields receiver = credential.fields) : Issues request receiverHex credential := by
  simp only [SharedEligibility.CredentialRequest.fields, ActiveCredential.fields,
    CredentialFields.mk.injEq] at h
  obtain ⟨authority, secret, investorClass, jurisdiction, expiry, nonce, limb0, limb1, limb2⟩ := h
  constructor
  · have hauthority : request.credentialAuthorityCommitment = _ :=
      checked.credentialAuthorityCommitment.eq_toNat authority
    have hsecret : request.subjectSecret = _ := checked.subjectSecret.eq_toNat secret
    have hclass : request.investorClass = _ := checked.investorClass.eq_toNat investorClass
    have hjurisdiction : request.jurisdiction = _ := checked.jurisdiction.eq_toNat jurisdiction
    have hexpiry : request.credentialExpiry = _ := checked.credentialExpiry.eq_toNat expiry
    have hnonce : request.credentialNonce = _ := checked.credentialNonce.eq_toNat nonce
    rw [credentialRequest, ← hauthority, ← hsecret, ← hclass, ← hjurisdiction, ← hexpiry,
      ← hnonce]
  · rw [← receiver_eq_of_limbs limb0 limb1 limb2, htext]

end Issued

end ZwaProtocol
