import ZwaProtocol.Circuits.SharedEngine

/-!
The JavaScript engine of the eligibility circuit: recipient bindings, credential leaves
and policy leaves, over the hasher and the checks of the shared engine. Its
`littleEndianBytesToBigInt` and `bigIntToLittleEndianBytes` repeat the ones there.
-/
namespace ZwaProtocol
open HashStaging SharedEngine

namespace SharedEligibility

/-- `DOMAINS_0G.SUBJECT_V1`. -/
def subjectV1 : Int := 6004778564925477937

/-- `DOMAINS_0G.RECEIVER_V1`. -/
def receiverV1 : Int := 5928218449365324337

/-- `DOMAINS_0G.RECIPIENT_BINDING_V1`. -/
def recipientBindingV1 : Int := 5927669780177634353

/-- `DOMAINS_0G.CREDENTIAL_META_V1`. -/
def credentialMetaV1 : Int := 4851015908287927361

/-- `DOMAINS_0G.CREDENTIAL_V2`. -/
def credentialV2 : Int := 18949280892933682

/-- `DOMAINS_0G.ELIGIBILITY_POLICY_V1`. -/
def eligibilityPolicyV1 : Int := 4993446657485917233

structure ReceiverHexLimbs where
  limb0 : Int
  limb1 : Int
  limb2 : Int

def receiverToLimbs (receiverHex : String) : Js ReceiverHexLimbs := do
  if ¬ (receiverHex.toList.length = 86 ∧
      receiverHex.toList.all (fun c => (hexValue c).isSome)) then
    throw "Orchard raw payment address must be exactly 43 bytes of hexadecimal"
  let bytes := bufferFromHex receiverHex.toList
  return {
    limb0 := littleEndianBytesToBigInt (subarray bytes 0 16)
    limb1 := littleEndianBytesToBigInt (subarray bytes 16 32)
    limb2 := littleEndianBytesToBigInt (subarray bytes 32 43) }

def maxU88 : Int := 2 ^ 88 - 1

def limbsToReceiver (limb0 limb1 limb2 : Int) : Js String := do
  if limb0 < 0 ∨ limb0 > maxU128 ∨ limb1 < 0 ∨ limb1 > maxU128 ∨ limb2 < 0 ∨ limb2 > maxU88 then
    throw "receiver limbs exceed 128/128/88-bit bounds"
  let first ← bigIntToLittleEndianBytes limb0 16
  let second ← bigIntToLittleEndianBytes limb1 16
  let third ← bigIntToLittleEndianBytes limb2 11
  return bufferToHex (first ++ second ++ third)

structure Binding where
  subjectCommitment : Int
  receiverCommitment : Int
  recipientCommitment : Int
  receiverLimbs : ReceiverHexLimbs

structure CredentialRequest where
  credentialAuthorityCommitment : Int
  subjectSecret : Int
  investorClass : Int
  jurisdiction : Int
  credentialExpiry : Int
  credentialNonce : Int
  approvedReceiverCommitment : Int

structure Credential where
  subjectCommitment : Int
  credentialMeta : Int
  credentialLeaf : Int

section Hasher
variable (H : List Fr → Fr)

def computeRecipientBinding (subjectSecret : Int) (receiverHex : String) : Js Binding := do
  let receiverLimbs ← receiverToLimbs receiverHex
  let secret ← assertField subjectSecret "subject secret"
  let subjectCommitment ← ExceptT.lift (hasher H [subjectV1, secret])
  let receiverCommitment ← ExceptT.lift (hasher H
    [receiverV1, receiverLimbs.limb0, receiverLimbs.limb1, receiverLimbs.limb2])
  let recipientCommitment ←
    ExceptT.lift (hasher H [recipientBindingV1, subjectCommitment, receiverCommitment])
  return { subjectCommitment, receiverCommitment, recipientCommitment, receiverLimbs }

def computeCredential (fields : CredentialRequest) : Js Credential := do
  let secret ← assertField fields.subjectSecret "subject secret"
  let subjectCommitment ← ExceptT.lift (hasher H [subjectV1, secret])
  let investorClass ← assertU64 fields.investorClass "investor class"
  let jurisdiction ← assertU64 fields.jurisdiction "jurisdiction"
  let credentialExpiry ← assertU64 fields.credentialExpiry "credential expiry"
  let credentialMeta ←
    ExceptT.lift (hasher H [credentialMetaV1, investorClass, jurisdiction, credentialExpiry])
  let authority ← assertField fields.credentialAuthorityCommitment
    "credential authority commitment"
  let nonce ← assertU64 fields.credentialNonce "credential nonce"
  let approved ← assertField fields.approvedReceiverCommitment "approved receiver commitment"
  let credentialLeaf ← ExceptT.lift (hasher H
    [credentialV2, authority, subjectCommitment, credentialMeta, nonce, approved])
  return { subjectCommitment, credentialMeta, credentialLeaf }

def computePolicyLeaf (investorClass jurisdiction : Int) : Js Int := do
  let investorClass ← assertU64 investorClass "investor class"
  let jurisdiction ← assertU64 jurisdiction "jurisdiction"
  ExceptT.lift (hasher H [eligibilityPolicyV1, investorClass, jurisdiction])

end Hasher

end SharedEligibility

end ZwaProtocol
