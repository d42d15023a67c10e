import ZwaProtocol.Commitments.CanonicalBytes
import ZwaProtocol.Credentials.CredentialBinding

/-!
Domain separation across the typed commitments. The last list hashed for a commitment
starts with the tag of its kind; the byte-string absorber hashes no tag there, but a
digest, which would have to be one.
-/
namespace ZwaProtocol
open HashStaging FieldElement

/-- The typed commitments of the two crates. -/
inductive CommitmentKind
  | asset
  | fee
  | subject
  | receiver
  | recipient
  | matcherFeeRecipient
  | tradePartA
  | tradePartB
  | tradeMeta
  | trade
  | credentialMeta
  | credentialLeaf
  deriving DecidableEq

namespace CommitmentKind

/-- What is committed. The parts of a trade are computed from the whole intent. -/
def Input : CommitmentKind → Type
  | asset => AssetBaseBytes
  | fee => MatcherFee
  | subject => SubjectSecret
  | receiver | matcherFeeRecipient => OrchardReceiverBytes
  | recipient => SubjectCommitment × ReceiverCommitment
  | tradePartA | tradePartB | tradeMeta | trade => TradeIntent
  | credentialMeta | credentialLeaf => ActiveCredential

def domain : CommitmentKind → Domain
  | asset => .assetV1
  | fee => .feeV1
  | subject => .subjectV1
  | receiver => .receiverV1
  | recipient => .recipientBindingV1
  | matcherFeeRecipient => .feeRecipientV1
  | tradePartA => .tradeAV1
  | tradePartB => .tradeBV1
  | tradeMeta => .tradeMetaV1
  | trade => .tradeV1
  | credentialMeta => .credentialMetaV1
  | credentialLeaf => .credentialV2

theorem domain_mem_all (kind : CommitmentKind) : kind.domain ∈ Domain.all := by
  cases kind <;> decide

theorem domain_injective : Function.Injective domain := by
  intro kind other h
  cases kind <;> cases other <;> first | rfl | exact absurd h (by decide)

section Commit
variable (H : List Fr → Fr)

def commit : (kind : CommitmentKind) → kind.Input → Hashed Fr FieldElement
  | asset, input => FieldNewtype.value <$> assetCommitment H input
  | fee, input => FieldNewtype.value <$> feeCommitment H input
  | subject, input => FieldNewtype.value <$> subjectCommitment H input
  | receiver, input => FieldNewtype.value <$> receiverCommitment H input
  | recipient, input => FieldNewtype.value <$> recipientCommitment H input.1 input.2
  | matcherFeeRecipient, input => FieldNewtype.value <$> matcherFeeRecipientCommitment H input
  | tradePartA, input => (fun parts => parts.tradePartA.value) <$> tradeCommitmentParts H input
  | tradePartB, input => (fun parts => parts.tradePartB.value) <$> tradeCommitmentParts H input
  | tradeMeta, input => (fun parts => parts.tradeMeta.value) <$> tradeCommitmentParts H input
  | trade, input => FieldNewtype.value <$> tradeCommitmentV1 H input
  | credentialMeta, input => FieldNewtype.value <$> ActiveCredential.credentialMeta H input
  | credentialLeaf, input => FieldNewtype.value <$> ActiveCredential.leaf H input

/-- The last list hashed for every other kind starts with the tag of the kind. -/
theorem commit_tagged {kind : CommitmentKind} (tagged : kind ≠ matcherFeeRecipient)
    (input : kind.Input) :
    ∃ rest, kind.domain.asFr :: rest ∈ (kind.commit H input).inputs ∧
      (kind.commit H input).value.toFr = H (kind.domain.asFr :: rest) := by
  cases kind with
  | matcherFeeRecipient => exact absurd rfl tagged
  | _ =>
      simp only [commit, assetCommitment, feeCommitment, subjectCommitment, receiverCommitment,
        recipientCommitment, tradeCommitmentV1, tradeCommitmentParts,
        ActiveCredential.credentialMeta, ActiveCredential.leaf, Hashed.inputs_map,
        Hashed.value_map, Hashed.inputs_bind, Hashed.value_bind, Hashed.inputs_pure,
        Hashed.value_pure, inputs_hash, value_hash, toFr_fromFr]
      refine ⟨_, ?_, rfl⟩
      simp [domain, Domain.asFr]

/-- The last list hashed for the fee receiver starts with a digest. -/
theorem commit_untagged (receiver : OrchardReceiverBytes) :
    ∃ input ∈ (matcherFeeRecipient.commit H receiver).inputs, ∃ block,
      H input :: block ∈ (matcherFeeRecipient.commit H receiver).inputs ∧
      (matcherFeeRecipient.commit H receiver).value.toFr = H (H input :: block) := by
  have hbytes : receiver.bytes.toList ≠ [] := by
    apply List.ne_nil_of_length_pos
    simp [receiver.bytes.toList_length]
  have houter := canonicalBytes_outermost H .feeRecipientV1
    ⟨receiver.bytes.toList, by simp [receiver.bytes.toList_length]⟩ hbytes
  simpa [commit, matcherFeeRecipientCommitment] using houter

/-- A digest of the lists is the tag of one of the domains. -/
def TagHit (inputs : List (List Fr)) : Prop :=
  ∃ domain ∈ Domain.all, ∃ input ∈ inputs, H input = domain.asFr

variable {H}

/-- Two tagged lists with one digest are of one domain. -/
theorem kind_eq_of_tagged {kind kind' : CommitmentKind} {rest rest' : List Fr}
    (h : kind.domain.asFr :: rest = kind'.domain.asFr :: rest') : kind = kind' := by
  apply domain_injective
  exact Domain.asField_injective (toFr_injective (List.cons.inj h).1)

/-- The fee receiver meets a tagged kind only in a digest that is the tag. -/
theorem untagged_separated {kind : CommitmentKind} (tagged : kind ≠ matcherFeeRecipient)
    (receiver : OrchardReceiverBytes) (input : kind.Input) {inputs : List (List Fr)}
    (hreceiver : (matcherFeeRecipient.commit H receiver).inputs ⊆ inputs)
    (hinput : (kind.commit H input).inputs ⊆ inputs) (injective : Set.InjOn H {xs | xs ∈ inputs})
    (h : (matcherFeeRecipient.commit H receiver).value = (kind.commit H input).value) :
    TagHit H inputs := by
  obtain ⟨digested, hdigested, block, hmem, hvalue⟩ := commit_untagged H receiver
  obtain ⟨rest, hmem', hvalue'⟩ := commit_tagged H tagged input
  rw [h, hvalue'] at hvalue
  have hlists := injective (hinput hmem') (hreceiver hmem) hvalue
  exact ⟨kind.domain, kind.domain_mem_all, digested, hreceiver hdigested,
    (List.cons.inj hlists).1.symm⟩

theorem separated_of_injOn {kind kind' : CommitmentKind} (hne : kind ≠ kind')
    (input : kind.Input) (input' : kind'.Input) {inputs : List (List Fr)}
    (hinput : (kind.commit H input).inputs ⊆ inputs)
    (hinput' : (kind'.commit H input').inputs ⊆ inputs)
    (injective : Set.InjOn H {xs | xs ∈ inputs})
    (h : (kind.commit H input).value = (kind'.commit H input').value) : TagHit H inputs := by
  by_cases tagged : kind = matcherFeeRecipient
  · subst tagged
    exact untagged_separated hne.symm input input' hinput hinput' injective h
  · by_cases tagged' : kind' = matcherFeeRecipient
    · subst tagged'
      exact untagged_separated hne input' input hinput' hinput injective h.symm
    · obtain ⟨rest, hmem, hvalue⟩ := commit_tagged H tagged input
      obtain ⟨rest', hmem', hvalue'⟩ := commit_tagged H tagged' input'
      rw [h, hvalue'] at hvalue
      exact absurd (kind_eq_of_tagged (injective (hinput' hmem') (hinput hmem) hvalue)) hne.symm

end Commit

/-- Commitments of two kinds are equal only where two different lists hashed for them have
one digest or a digest is a domain tag, whatever the hash. So are a fee receiver and a
recipient binding, which share a type. -/
theorem commitments_separated (H : List Fr → Fr) :
    (∀ (kind kind' : CommitmentKind) (input : kind.Input) (input' : kind'.Input),
      kind ≠ kind' → (kind.commit H input).value = (kind'.commit H input').value →
      let inputs := (kind.commit H input).inputs ++ (kind'.commit H input').inputs
      Collision H inputs ∨ TagHit H inputs) ∧
    ∀ (feeReceiver : OrchardReceiverBytes) (subject : SubjectCommitment)
      (receiver : ReceiverCommitment),
      (matcherFeeRecipientCommitment H feeReceiver).value
        = (recipientCommitment H subject receiver).value →
      let inputs := (matcherFeeRecipientCommitment H feeReceiver).inputs
        ++ (recipientCommitment H subject receiver).inputs
      Collision H inputs ∨ TagHit H inputs := by
  have hkinds (kind kind' : CommitmentKind) (input : kind.Input) (input' : kind'.Input)
      (hne : kind ≠ kind') (h : (kind.commit H input).value = (kind'.commit H input').value) :
      Collision H ((kind.commit H input).inputs ++ (kind'.commit H input').inputs) ∨
        TagHit H ((kind.commit H input).inputs ++ (kind'.commit H input').inputs) := by
    rw [or_iff_not_imp_left]
    intro hcollision
    exact separated_of_injOn hne input input' (List.subset_append_left _ _)
      (List.subset_append_right _ _) (injOn_of_not_collision hcollision) h
  refine ⟨hkinds, ?_⟩
  intro feeReceiver subject receiver h
  have hfee := hkinds .matcherFeeRecipient .recipient feeReceiver (subject, receiver) (by decide)
    (congrArg FieldNewtype.value h)
  simpa [commit] using hfee

/-- A constant hash gives a fee receiver and a recipient binding one commitment. -/
theorem fee_receiver_eq_recipient (feeReceiver : OrchardReceiverBytes)
    (subject : SubjectCommitment) (receiver : ReceiverCommitment) :
    (matcherFeeRecipientCommitment (fun _ => 1) feeReceiver).value
      = (recipientCommitment (fun _ => 1) subject receiver).value := by
  obtain ⟨-, -, -, -, hfee⟩ := commit_untagged (fun _ => 1) feeReceiver
  simp only [commit, Hashed.value_map] at hfee
  have hrecipient : (recipientCommitment (fun _ => 1) subject receiver).value.value.toFr = 1 := by
    simp [recipientCommitment]
  exact FieldNewtype.eq_of_toFr (hfee.trans hrecipient.symm)

theorem commitments_separated_constant :
    Collision (fun _ => 1)
        ((matcherFeeRecipientCommitment (fun _ => 1) ⟨.replicate 43 0⟩).inputs
          ++ (recipientCommitment (fun _ => 1) ⟨.zero⟩ ⟨.zero⟩).inputs) ∨
      TagHit (fun _ => 1)
        ((matcherFeeRecipientCommitment (fun _ => 1) ⟨.replicate 43 0⟩).inputs
          ++ (recipientCommitment (fun _ => 1) ⟨.zero⟩ ⟨.zero⟩).inputs) :=
  (commitments_separated (fun _ => 1)).2 ⟨.replicate 43 0⟩ ⟨.zero⟩ ⟨.zero⟩
    (fee_receiver_eq_recipient _ _ _)

end CommitmentKind

end ZwaProtocol
