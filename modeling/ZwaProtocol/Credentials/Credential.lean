import ZwaProtocol.Credentials.Values
import ZwaProtocol.Commitments.Trade

/-!
Active credential leaves. The leaf commits to the one receiver the authority
approved, through the receiver commitment that trades settle to.
-/
namespace ZwaProtocol
open HashStaging FieldElement

@[ext] structure ActiveCredential where
  authorityCommitment : CredentialAuthorityCommitment
  subjectSecret : SubjectSecret
  investorClass : InvestorClass
  jurisdiction : Jurisdiction
  credentialExpiry : CredentialExpiry
  nonce : CredentialNonce
  approvedReceiver : OrchardReceiverBytes
  deriving DecidableEq

namespace ActiveCredential
variable (H : List Fr → Fr) (credential : ActiveCredential)

def approvedReceiverCommitment : Hashed Fr ReceiverCommitment :=
  receiverCommitment H credential.approvedReceiver

/-- The source's `meta`, a keyword here. -/
def credentialMeta : Hashed Fr CredentialMeta := do
  let digest ← hash H
    [Domain.credentialMetaV1.asField, fromU64 credential.investorClass.get,
      fromU64 credential.jurisdiction.get, fromU64 credential.credentialExpiry.get]
  return ⟨digest⟩

def leaf : Hashed Fr CredentialLeaf := do
  let subject ← subjectCommitment H credential.subjectSecret
  let credentialMeta ← credential.credentialMeta H
  let receiver ← credential.approvedReceiverCommitment H
  let digest ← hash H
    [Domain.credentialV2.asField, credential.authorityCommitment.value, subject.value,
      credentialMeta.value, fromU64 credential.nonce.get, receiver.value]
  return ⟨digest⟩

def authorizes (receiver : OrchardReceiverBytes) : Hashed Fr Bool := do
  let approved ← credential.approvedReceiverCommitment H
  let presented ← receiverCommitment H receiver
  return approved = presented

/-- A credential over zero bytes, distinguished by its expiry. -/
def blank (expiry : UInt64) : ActiveCredential where
  authorityCommitment := ⟨.zero⟩
  subjectSecret := ⟨.zero⟩
  investorClass := ⟨0⟩
  jurisdiction := ⟨0⟩
  credentialExpiry := .new expiry
  nonce := ⟨0⟩
  approvedReceiver := ⟨⟨List.replicate 43 0, rfl⟩⟩

end ActiveCredential

end ZwaProtocol
