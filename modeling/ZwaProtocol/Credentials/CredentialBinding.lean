import ZwaProtocol.Credentials.Credential
import ZwaProtocol.Commitments.TradeRange

/-!
The staged hash of a credential leaf, and that of the recipient commitment a
trade settles to. Both contain the subject and the receiver of one credential.
-/
namespace ZwaProtocol
open HashStaging FieldElement

/-- The field values a credential is committed as. -/
@[ext] structure CredentialFields where
  authorityCommitment : Fr
  subjectSecret : Fr
  investorClass : Fr
  jurisdiction : Fr
  credentialExpiry : Fr
  nonce : Fr
  receiverLimb0 : Fr
  receiverLimb1 : Fr
  receiverLimb2 : Fr

namespace CredentialFields
variable (fields : CredentialFields)

def subjectStaging : Staging Fr :=
  .hash [.value Domain.subjectV1.asFr, .value fields.subjectSecret]

def receiverStaging : Staging Fr :=
  .hash [.value Domain.receiverV1.asFr, .value fields.receiverLimb0, .value fields.receiverLimb1,
    .value fields.receiverLimb2]

def metaStaging : Staging Fr :=
  .hash [.value Domain.credentialMetaV1.asFr, .value fields.investorClass,
    .value fields.jurisdiction, .value fields.credentialExpiry]

/-- The four hashes of the leaf. -/
def staging : Staging Fr :=
  .hash [.value Domain.credentialV2.asFr, .value fields.authorityCommitment,
    fields.subjectStaging, fields.metaStaging, .value fields.nonce, fields.receiverStaging]

def recipientStaging : Staging Fr :=
  .hash [.value Domain.recipientBindingV1.asFr, fields.subjectStaging, fields.receiverStaging]

theorem staging_sameShape (others : CredentialFields) :
    fields.staging.SameShape others.staging := by
  simp [staging, subjectStaging, receiverStaging, metaStaging]

theorem staging_injective : Function.Injective staging := by
  intro fields others h
  simp only [staging, subjectStaging, receiverStaging, metaStaging, Staging.hash.injEq,
    List.cons.injEq, Staging.value.injEq] at h
  ext <;> simp only [h]

theorem eq_of_eval_eq {H : List Fr → Fr} {recorded : Set (List Fr)}
    (injective : Set.InjOn H recorded) {fields others : CredentialFields}
    (hfields : ∀ xs ∈ fields.staging.inputs H, xs ∈ recorded)
    (hothers : ∀ xs ∈ others.staging.inputs H, xs ∈ recorded)
    (h : fields.staging.eval H = others.staging.eval H) : fields = others :=
  staging_injective
    (Staging.eq_of_eval_eq injective _ _ (fields.staging_sameShape others) hfields hothers h)

structure InRange : Prop where
  investorClass : fields.investorClass.val < 2 ^ 8
  jurisdiction : fields.jurisdiction.val < 2 ^ 16
  credentialExpiry : fields.credentialExpiry.val < 2 ^ 64
  nonce : fields.nonce.val < 2 ^ 64
  receiverLimb0 : fields.receiverLimb0.val < 2 ^ 128
  receiverLimb1 : fields.receiverLimb1.val < 2 ^ 128
  receiverLimb2 : fields.receiverLimb2.val < 2 ^ 88

end CredentialFields

/-- What the engine commits a credential as. -/
def ActiveCredential.fields (credential : ActiveCredential) : CredentialFields where
  authorityCommitment := credential.authorityCommitment.value.toFr
  subjectSecret := credential.subjectSecret.value.toFr
  investorClass := (fromU64 credential.investorClass.get).toFr
  jurisdiction := (fromU64 credential.jurisdiction.get).toFr
  credentialExpiry := (fromU64 credential.credentialExpiry.get).toFr
  nonce := (fromU64 credential.nonce.get).toFr
  receiverLimb0 := (fromU128 (encodeReceiver credential.approvedReceiver).limb0).toFr
  receiverLimb1 := (fromU128 (encodeReceiver credential.approvedReceiver).limb1).toFr
  receiverLimb2 := (fromU128 (encodeReceiver credential.approvedReceiver).limb2).toFr

section Ranges

theorem inRange_code_iff (field : CredentialCodeField) {value : Fr} :
    value.val < 2 ^ field.bits ↔ ∃ code : PolicyCode field, (fromU64 code.get).toFr = value := by
  constructor
  · intro h
    refine ⟨⟨BitVec.ofNat field.bits value.val⟩, ?_⟩
    rw [toFr_fromU64, PolicyCode.toNat_get, BitVec.toNat_ofNat, Nat.mod_eq_of_lt h,
      ZMod.natCast_zmod_val]
  · rintro ⟨code, rfl⟩
    rw [val_toFr, toNat_fromU64, PolicyCode.toNat_get]
    exact code.code.isLt

theorem inRange_receiver_iff {limb0 limb1 limb2 : Fr} :
    (limb0.val < 2 ^ 128 ∧ limb1.val < 2 ^ 128 ∧ limb2.val < 2 ^ 88) ↔
      ∃ receiver : OrchardReceiverBytes,
        (fromU128 (encodeReceiver receiver).limb0).toFr = limb0 ∧
        (fromU128 (encodeReceiver receiver).limb1).toFr = limb1 ∧
        (fromU128 (encodeReceiver receiver).limb2).toFr = limb2 := by
  constructor
  · rintro ⟨h0, h1, h2⟩
    obtain ⟨word0, rfl⟩ := inRange_u128_iff.mp h0
    obtain ⟨word1, rfl⟩ := inRange_u128_iff.mp h1
    obtain ⟨word2, rfl⟩ := inRange_u128_iff.mp (h2.trans (by decide))
    rw [val_toFr, toNat_fromU128] at h2
    refine ⟨decodeReceiver ⟨word0, word1, word2, Nat.le_pred_of_lt h2⟩, ?_⟩
    rw [encodeReceiver_decodeReceiver]
    exact ⟨rfl, rfl, rfl⟩
  · rintro ⟨receiver, rfl, rfl, rfl⟩
    refine ⟨inRange_u128_iff.mpr ⟨_, rfl⟩, inRange_u128_iff.mpr ⟨_, rfl⟩, ?_⟩
    rw [val_toFr, toNat_fromU128]
    exact Nat.lt_of_le_pred (by decide) (encodeReceiver receiver).narrow

/-- The values in range are the values of credentials. -/
theorem CredentialFields.inRange_iff {fields : CredentialFields} :
    fields.InRange ↔ ∃ credential : ActiveCredential, credential.fields = fields := by
  constructor
  · intro h
    obtain ⟨investorClass, hclass⟩ :=
      (inRange_code_iff .investorClass).mp h.investorClass
    obtain ⟨jurisdiction, hjurisdiction⟩ :=
      (inRange_code_iff .jurisdiction).mp h.jurisdiction
    obtain ⟨expiry, hexpiry⟩ := inRange_u64_iff.mp h.credentialExpiry
    obtain ⟨nonce, hnonce⟩ := inRange_u64_iff.mp h.nonce
    obtain ⟨approvedReceiver, hreceiver⟩ :=
      inRange_receiver_iff.mp ⟨h.receiverLimb0, h.receiverLimb1, h.receiverLimb2⟩
    refine ⟨{
      authorityCommitment := ⟨fromFr fields.authorityCommitment⟩
      subjectSecret := ⟨fromFr fields.subjectSecret⟩
      investorClass, jurisdiction
      credentialExpiry := .new expiry
      nonce := ⟨nonce⟩
      approvedReceiver }, ?_⟩
    exact CredentialFields.ext (toFr_fromFr _) (toFr_fromFr _) hclass hjurisdiction hexpiry hnonce
      hreceiver.1 hreceiver.2.1 hreceiver.2.2
  · rintro ⟨credential, rfl⟩
    have hreceiver := inRange_receiver_iff.mpr ⟨credential.approvedReceiver, rfl, rfl, rfl⟩
    exact {
      investorClass := (inRange_code_iff .investorClass).mpr ⟨credential.investorClass, rfl⟩
      jurisdiction := (inRange_code_iff .jurisdiction).mpr ⟨credential.jurisdiction, rfl⟩
      credentialExpiry := val_fromU64_lt credential.credentialExpiry.get
      nonce := val_fromU64_lt credential.nonce.get
      receiverLimb0 := hreceiver.1
      receiverLimb1 := hreceiver.2.1
      receiverLimb2 := hreceiver.2.2 }

end Ranges

section Refinement
variable (H : List Fr → Fr) (credential : ActiveCredential)

/-- Refinement: the engine's leaf is the value of the staging. -/
theorem toFr_leaf : (credential.leaf H).value.value.toFr = credential.fields.staging.eval H := by
  simp [ActiveCredential.leaf, ActiveCredential.credentialMeta,
    ActiveCredential.approvedReceiverCommitment, subjectCommitment, receiverCommitment,
    CredentialFields.staging, CredentialFields.subjectStaging, CredentialFields.receiverStaging,
    CredentialFields.metaStaging, ActiveCredential.fields, Domain.asFr]

theorem leaf_inputs_subset : credential.fields.staging.inputs H ⊆ (credential.leaf H).inputs := by
  simp [ActiveCredential.leaf, ActiveCredential.credentialMeta,
    ActiveCredential.approvedReceiverCommitment, subjectCommitment, receiverCommitment,
    CredentialFields.staging, CredentialFields.subjectStaging, CredentialFields.receiverStaging,
    CredentialFields.metaStaging, ActiveCredential.fields, Domain.asFr]

/-- A trade that settles to the credential's subject and receiver commits to its
recipient staging. -/
theorem toFr_bindRecipient :
    (bindRecipient H credential.subjectSecret
      credential.approvedReceiver).value.recipientCommitment.value.toFr =
      credential.fields.recipientStaging.eval H := by
  simp [bindRecipient, subjectCommitment, receiverCommitment, recipientCommitment,
    CredentialFields.recipientStaging, CredentialFields.subjectStaging,
    CredentialFields.receiverStaging, ActiveCredential.fields, Domain.asFr]

end Refinement

end ZwaProtocol
