import ZwaProtocol.Credentials.CredentialBinding

/-!
What credentials and recipient commitments bind. Each is the value of a staging over
field values, and the field values determine the bytes and the integers they came from.
-/
namespace ZwaProtocol
open HashStaging FieldElement

section Values

theorem policyCode_eq_of_toFr {field : CredentialCodeField} {x y : PolicyCode field}
    (h : (fromU64 x.get).toFr = (fromU64 y.get).toFr) : x = y :=
  PolicyCode.get_injective (toFr_fromU64_injective h)

theorem CredentialExpiry.eq_of_toFr {x y : CredentialExpiry}
    (h : (fromU64 x.get).toFr = (fromU64 y.get).toFr) : x = y := by
  cases x
  cases y
  exact congrArg CredentialExpiry.mk (U64Newtype.eq_of_toFr h)

theorem receiver_eq_of_limbs {receiver other : OrchardReceiverBytes}
    (limb0 : (fromU128 (encodeReceiver receiver).limb0).toFr
      = (fromU128 (encodeReceiver other).limb0).toFr)
    (limb1 : (fromU128 (encodeReceiver receiver).limb1).toFr
      = (fromU128 (encodeReceiver other).limb1).toFr)
    (limb2 : (fromU128 (encodeReceiver receiver).limb2).toFr
      = (fromU128 (encodeReceiver other).limb2).toFr) : receiver = other := by
  have h0 := toFr_fromU128_injective limb0
  have h1 := toFr_fromU128_injective limb1
  have h2 := toFr_fromU128_injective limb2
  apply encodeReceiver_injective
  cases hreceiver : encodeReceiver receiver
  cases hother : encodeReceiver other
  rw [hreceiver, hother] at h0 h1 h2
  cases h0
  cases h1
  cases h2
  rfl

end Values

theorem ActiveCredential.fields_injective : Function.Injective ActiveCredential.fields := by
  intro c d h
  simp only [ActiveCredential.fields, CredentialFields.mk.injEq] at h
  obtain ⟨authority, subject, investorClass, jurisdiction, expiry, nonce, limb0, limb1, limb2⟩ := h
  exact ActiveCredential.ext (FieldNewtype.eq_of_toFr authority) (FieldNewtype.eq_of_toFr subject)
    (policyCode_eq_of_toFr investorClass) (policyCode_eq_of_toFr jurisdiction)
    (CredentialExpiry.eq_of_toFr expiry) (U64Newtype.eq_of_toFr nonce)
    (receiver_eq_of_limbs limb0 limb1 limb2)

/-- A credential of this subject for this receiver. -/
def ActiveCredential.holding (secret : SubjectSecret) (receiver : OrchardReceiverBytes) :
    ActiveCredential :=
  { ActiveCredential.blank 0 with subjectSecret := secret, approvedReceiver := receiver }

namespace CredentialFields

theorem recipientStaging_sameShape (fields others : CredentialFields) :
    fields.recipientStaging.SameShape others.recipientStaging := by
  simp [recipientStaging, subjectStaging, receiverStaging]

theorem receiverStaging_sameShape (fields others : CredentialFields) :
    fields.receiverStaging.SameShape others.receiverStaging := by
  simp [receiverStaging]

end CredentialFields

theorem receiver_eq_of_staging {c d : ActiveCredential}
    (h : c.fields.receiverStaging = d.fields.receiverStaging) :
    c.approvedReceiver = d.approvedReceiver := by
  simp only [CredentialFields.receiverStaging, Staging.hash.injEq, List.cons.injEq,
    Staging.value.injEq, true_and, and_true] at h
  exact receiver_eq_of_limbs h.1 h.2.1 h.2.2

theorem holder_eq_of_staging {c d : ActiveCredential}
    (h : c.fields.recipientStaging = d.fields.recipientStaging) :
    c.subjectSecret = d.subjectSecret ∧ c.approvedReceiver = d.approvedReceiver := by
  simp only [CredentialFields.recipientStaging, CredentialFields.subjectStaging,
    Staging.hash.injEq, List.cons.injEq, Staging.value.injEq, true_and, and_true] at h
  exact ⟨FieldNewtype.eq_of_toFr h.1, receiver_eq_of_staging h.2⟩

section Binding
variable (H : List Fr → Fr)

theorem recipient_inputs_subset (credential : ActiveCredential) :
    credential.fields.recipientStaging.inputs H
      ⊆ (bindRecipient H credential.subjectSecret credential.approvedReceiver).inputs := by
  simp [bindRecipient, subjectCommitment, receiverCommitment, recipientCommitment,
    CredentialFields.recipientStaging, CredentialFields.subjectStaging,
    CredentialFields.receiverStaging, ActiveCredential.fields, Domain.asFr]

theorem toFr_approvedReceiverCommitment (credential : ActiveCredential) :
    (credential.approvedReceiverCommitment H).value.value.toFr
      = credential.fields.receiverStaging.eval H := by
  simp [ActiveCredential.approvedReceiverCommitment, receiverCommitment,
    CredentialFields.receiverStaging, ActiveCredential.fields, Domain.asFr]

theorem inputs_approvedReceiverCommitment (credential : ActiveCredential) :
    credential.fields.receiverStaging.inputs H
      ⊆ (credential.approvedReceiverCommitment H).inputs := by
  simp [ActiveCredential.approvedReceiverCommitment, receiverCommitment,
    CredentialFields.receiverStaging, ActiveCredential.fields, Domain.asFr]

theorem credential_eq_or_collision {c d : ActiveCredential}
    (h : (c.leaf H).value = (d.leaf H).value) :
    c = d ∨ Collision H ((c.leaf H).inputs ++ (d.leaf H).inputs) := by
  have heval : c.fields.staging.eval H = d.fields.staging.eval H := by
    rw [← toFr_leaf, ← toFr_leaf, h]
  refine (Staging.eq_or_collision (c.fields.staging_sameShape d.fields) (leaf_inputs_subset H c)
    (leaf_inputs_subset H d) heval).imp_left fun hstaging => ?_
  exact ActiveCredential.fields_injective (CredentialFields.staging_injective hstaging)

theorem holder_eq_or_collision {secret secret' : SubjectSecret}
    {receiver receiver' : OrchardReceiverBytes}
    (h : (bindRecipient H secret receiver).value.recipientCommitment
      = (bindRecipient H secret' receiver').value.recipientCommitment) :
    (secret = secret' ∧ receiver = receiver') ∨
      Collision H ((bindRecipient H secret receiver).inputs
        ++ (bindRecipient H secret' receiver').inputs) := by
  have hleft := toFr_bindRecipient H (.holding secret receiver)
  have hright := toFr_bindRecipient H (.holding secret' receiver')
  have hcommitted := congrArg (fun commitment => commitment.value.toFr) h
  have heval := hleft.symm.trans (hcommitted.trans hright)
  refine (Staging.eq_or_collision (CredentialFields.recipientStaging_sameShape _ _)
    (recipient_inputs_subset H (.holding secret receiver))
    (recipient_inputs_subset H (.holding secret' receiver')) heval).imp_left fun hstaging => ?_
  exact holder_eq_of_staging hstaging

theorem authorizes_iff_or_collision (credential : ActiveCredential)
    (receiver : OrchardReceiverBytes) :
    ((credential.authorizes H receiver).value = true ↔ receiver = credential.approvedReceiver) ∨
      Collision H (credential.authorizes H receiver).inputs := by
  let presented : ActiveCredential := { credential with approvedReceiver := receiver }
  have hvalue : (credential.authorizes H receiver).value = true ↔
      (credential.approvedReceiverCommitment H).value
        = (presented.approvedReceiverCommitment H).value := by
    simp [ActiveCredential.authorizes, presented, ActiveCredential.approvedReceiverCommitment]
  have hinputs : (credential.authorizes H receiver).inputs
      = (credential.approvedReceiverCommitment H).inputs
        ++ (presented.approvedReceiverCommitment H).inputs := by
    simp [ActiveCredential.authorizes, presented, ActiveCredential.approvedReceiverCommitment]
  rw [hvalue, hinputs]
  by_cases hcollision : Collision H ((credential.approvedReceiverCommitment H).inputs
      ++ (presented.approvedReceiverCommitment H).inputs)
  · exact .inr hcollision
  · refine .inl ⟨fun h => ?_, ?_⟩
    · have heval : credential.fields.receiverStaging.eval H
          = presented.fields.receiverStaging.eval H := by
        rw [← toFr_approvedReceiverCommitment, ← toFr_approvedReceiverCommitment, h]
      have hstaging := (Staging.eq_or_collision
        (CredentialFields.receiverStaging_sameShape credential.fields presented.fields)
        (inputs_approvedReceiverCommitment H credential)
        (inputs_approvedReceiverCommitment H presented) heval).resolve_right hcollision
      exact (receiver_eq_of_staging hstaging).symm
    · rintro rfl
      rfl

/-- Leaves and recipient commitments bind all their inputs, whatever the hash. Equal
leaves are of equal credentials, equal recipient commitments of one secret and receiver,
and a credential authorizes the approved bytes and no others; or two different lists
among those hashed have one digest. -/
theorem credentials_bind_inputs :
    (∀ c d : ActiveCredential, (c.leaf H).value = (d.leaf H).value →
      c = d ∨ Collision H ((c.leaf H).inputs ++ (d.leaf H).inputs)) ∧
    (∀ (secret secret' : SubjectSecret) (receiver receiver' : OrchardReceiverBytes),
      (bindRecipient H secret receiver).value.recipientCommitment
        = (bindRecipient H secret' receiver').value.recipientCommitment →
      (secret = secret' ∧ receiver = receiver') ∨
        Collision H ((bindRecipient H secret receiver).inputs
          ++ (bindRecipient H secret' receiver').inputs)) ∧
    ∀ (credential : ActiveCredential) (receiver : OrchardReceiverBytes),
      ((credential.authorizes H receiver).value = true ↔
        receiver = credential.approvedReceiver) ∨
      Collision H (credential.authorizes H receiver).inputs :=
  ⟨fun _ _ h => credential_eq_or_collision H h, fun _ _ _ _ h => holder_eq_or_collision H h,
    authorizes_iff_or_collision H⟩

/-- Under a constant hash credentials of two expiries share a leaf, and the lists collide. -/
theorem credentials_bind_inputs_constant :
    ActiveCredential.blank 1 = .blank 2 ∨ Collision (fun _ => 0)
      (((ActiveCredential.blank 1).leaf (fun _ => 0)).inputs
        ++ ((ActiveCredential.blank 2).leaf (fun _ => 0)).inputs) :=
  (credentials_bind_inputs (fun _ => 0)).1 (.blank 1) (.blank 2)
    (by simp [ActiveCredential.leaf])

end Binding

end ZwaProtocol
