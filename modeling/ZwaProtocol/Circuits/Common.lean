import ZwaProtocol.Circuits.ZkOrigin
import ZwaProtocol.Commitments.TradeRange

/-!
What both circuit files declare: the domain constants, and the range checks on the
values of a trade. Each file has its own copy of the constants they share, with one
value; those the Rust engine has too are its tags.
-/
namespace ZwaProtocol
open FieldElement

def domainAssetV1 : Fr := 18387490596738609
def domainIssuanceMetaV1 : Fr := 5283658379176460593
def domainIssuanceV1 : Fr := 20639290677876273
def domainFeeV1 : Fr := 301809882673
def domainTradeAV1 : Fr := 23734351151715889
def domainTradeBV1 : Fr := 23734351168493105
def domainTradeMetaV1 : Fr := 23734351353042481
def domainTradeV1 : Fr := 6075990608753677873
def zecAssetTag : Fr := 5915971

def domainSubjectV1 : Fr := 6004778564925477937
def domainReceiverV1 : Fr := 5928218449365324337
def domainRecipientBindingV1 : Fr := 5927669780177634353
def domainCredentialMetaV1 : Fr := 4851015908287927361
def domainEligibilityPolicyV1 : Fr := 4993446657485917233
def domainCredentialV2 : Fr := 18949280892933682

theorem Domain.asFr_eq (domain : Domain) : domain.asFr = (domain.tag.toNat : Fr) :=
  toFr_fromU64 domain.tag

/-- Every domain a circuit shares with the engine is the engine's tag. -/
theorem circuitDomains_eq :
    domainAssetV1 = Domain.assetV1.asFr ∧ domainFeeV1 = Domain.feeV1.asFr ∧
    domainTradeAV1 = Domain.tradeAV1.asFr ∧ domainTradeBV1 = Domain.tradeBV1.asFr ∧
    domainTradeMetaV1 = Domain.tradeMetaV1.asFr ∧ domainTradeV1 = Domain.tradeV1.asFr ∧
    zecAssetTag = Domain.zecAssetTag.asFr ∧ domainSubjectV1 = Domain.subjectV1.asFr ∧
    domainReceiverV1 = Domain.receiverV1.asFr ∧
    domainRecipientBindingV1 = Domain.recipientBindingV1.asFr ∧
    domainCredentialMetaV1 = Domain.credentialMetaV1.asFr ∧
    domainCredentialV2 = Domain.credentialV2.asFr := by
  simp only [Domain.asFr_eq]
  exact ⟨rfl, rfl, rfl, rfl, rfl, rfl, rfl, rfl, rfl, rfl, rfl, rfl⟩

/-- The range checks of both circuits on the values of a trade. -/
structure TradeFields.RangeChecks (lib : Circomlib) (fields : TradeFields) : Prop where
  offeredAssetHi : lib.num2Bits 128 fields.offeredAssetHi
  offeredAssetLo : lib.num2Bits 128 fields.offeredAssetLo
  requestedAssetHi : lib.num2Bits 128 fields.requestedAssetHi
  requestedAssetLo : lib.num2Bits 128 fields.requestedAssetLo
  offeredAmount : lib.num2Bits 64 fields.offeredAmount
  requestedAmount : lib.num2Bits 64 fields.requestedAmount
  matcherFeeAmount : lib.num2Bits 64 fields.matcherFeeAmount
  nonce : lib.num2Bits 64 fields.nonce
  expiry : lib.num2Bits 64 fields.expiry

theorem TradeFields.rangeChecks_iff {lib : Circomlib} (lawful : lib.Lawful)
    {fields : TradeFields} : fields.RangeChecks lib ↔ fields.InRange := by
  have h64 := lawful.num2Bits_iff 64 (by decide)
  have h128 := lawful.num2Bits_iff 128 (by decide)
  constructor
  · intro h
    exact {
      offeredAsset := ⟨(h128 _).mp h.offeredAssetHi, (h128 _).mp h.offeredAssetLo⟩
      requestedAsset := ⟨(h128 _).mp h.requestedAssetHi, (h128 _).mp h.requestedAssetLo⟩
      offeredAmount := (h64 _).mp h.offeredAmount
      requestedAmount := (h64 _).mp h.requestedAmount
      matcherFeeAmount := (h64 _).mp h.matcherFeeAmount
      nonce := (h64 _).mp h.nonce
      expiry := (h64 _).mp h.expiry }
  · intro h
    exact {
      offeredAssetHi := (h128 _).mpr h.offeredAsset.1
      offeredAssetLo := (h128 _).mpr h.offeredAsset.2
      requestedAssetHi := (h128 _).mpr h.requestedAsset.1
      requestedAssetLo := (h128 _).mpr h.requestedAsset.2
      offeredAmount := (h64 _).mpr h.offeredAmount
      requestedAmount := (h64 _).mpr h.requestedAmount
      matcherFeeAmount := (h64 _).mpr h.matcherFeeAmount
      nonce := (h64 _).mpr h.nonce
      expiry := (h64 _).mpr h.expiry }

end ZwaProtocol
