import ZwaProtocol.Library.HashStaging
import ZwaProtocol.Protocol.ScalarField
import ZwaProtocol.Protocol.FieldText
import ZwaProtocol.Protocol.Intent
import ZwaProtocol.Commitments.Limbs

/-!
The commitment engine: domain separators, the Poseidon wrapper and the staged
commitments. Poseidon itself is a parameter `H` on lists of field values; every
function records the lists it hashes.
-/
namespace ZwaProtocol
open HashStaging FieldElement

/-- A frozen Poseidon domain separator. -/
structure Domain where
  tag : UInt64
  deriving DecidableEq

namespace Domain

def assetV1 : Domain := ⟨18387490596738609⟩
def feeV1 : Domain := ⟨301809882673⟩
def tradeAV1 : Domain := ⟨23734351151715889⟩
def tradeBV1 : Domain := ⟨23734351168493105⟩
def tradeMetaV1 : Domain := ⟨23734351353042481⟩
def tradeV1 : Domain := ⟨6075990608753677873⟩
def zecAssetTag : Domain := ⟨5915971⟩
def subjectV1 : Domain := ⟨6004778564925477937⟩
def receiverV1 : Domain := ⟨5928218449365324337⟩
def recipientBindingV1 : Domain := ⟨5927669780177634353⟩
def feeRecipientV1 : Domain := ⟨19793697433736753⟩
def recipientV1 : Domain := ⟨90449063990833⟩
def credentialMetaV1 : Domain := ⟨4851015908287927361⟩
def credentialV2 : Domain := ⟨18949280892933682⟩

/-- The constants of the type: it has no public constructor. -/
def all : List Domain :=
  [assetV1, feeV1, tradeAV1, tradeBV1, tradeMetaV1, tradeV1, zecAssetTag, subjectV1, receiverV1,
    recipientBindingV1, feeRecipientV1, recipientV1, credentialMetaV1, credentialV2]

def asField (domain : Domain) : FieldElement := fromU64 domain.tag

end Domain

section Poseidon
variable (H : List Fr → Fr)

/-- The hasher exists for one to twelve inputs. -/
def poseidon (inputs : List FieldElement) : Result (Hashed Fr FieldElement) :=
  if 1 ≤ inputs.length ∧ inputs.length ≤ 12 then
    .ok (fromFr <$> Hashed.query H (inputs.map toFr))
  else .error (.unsupportedPoseidonArity inputs.length)

theorem poseidon_isOk {inputs : List FieldElement}
    (arity : 1 ≤ inputs.length ∧ inputs.length ≤ 12) : (poseidon H inputs).isOk = true := by
  simp [poseidon, arity, Except.isOk, Except.toBool]

/-- The source hashes fixed arrays here, so the arity error cannot happen. -/
def hash (inputs : List FieldElement)
    (arity : 1 ≤ inputs.length ∧ inputs.length ≤ 12 := by simp) : Hashed Fr FieldElement :=
  (poseidon H inputs).expect (poseidon_isOk H arity)

theorem hash_eq (inputs : List FieldElement) (arity) :
    hash H inputs arity = fromFr <$> Hashed.query H (inputs.map toFr) := by
  simp only [hash, poseidon, if_pos arity, Result.expect_ok]

@[simp] theorem value_hash (inputs : List FieldElement) (arity) :
    (hash H inputs arity).value = fromFr (H (inputs.map toFr)) := by
  rw [hash_eq, Hashed.value_map, Hashed.value_query]

@[simp] theorem inputs_hash (inputs : List FieldElement) (arity) :
    (hash H inputs arity).inputs = [inputs.map toFr] := by
  rw [hash_eq, Hashed.inputs_map, Hashed.inputs_query]

def assetCommitment (asset : AssetBaseBytes) : Hashed Fr AssetCommitment := do
  let limbs := encodeAssetBase asset
  -- The low half is read first, the high limb is hashed first.
  let digest ← hash H [Domain.assetV1.asField, fromU128 limbs.hi, fromU128 limbs.lo]
  return ⟨digest⟩

def subjectCommitment (secret : SubjectSecret) : Hashed Fr SubjectCommitment := do
  let digest ← hash H [Domain.subjectV1.asField, secret.value]
  return ⟨digest⟩

def receiverCommitment (receiver : OrchardReceiverBytes) : Hashed Fr ReceiverCommitment := do
  let limbs := encodeReceiver receiver
  let digest ← hash H
    [Domain.receiverV1.asField, fromU128 limbs.limb0, fromU128 limbs.limb1, fromU128 limbs.limb2]
  return ⟨digest⟩

def recipientCommitment (subject : SubjectCommitment) (receiver : ReceiverCommitment) :
    Hashed Fr RecipientCommitment := do
  let digest ← hash H [Domain.recipientBindingV1.asField, subject.value, receiver.value]
  return ⟨digest⟩

structure RecipientBinding where
  subjectCommitment : SubjectCommitment
  receiverCommitment : ReceiverCommitment
  recipientCommitment : RecipientCommitment

def bindRecipient (secret : SubjectSecret) (receiver : OrchardReceiverBytes) :
    Hashed Fr RecipientBinding := do
  let subject ← subjectCommitment H secret
  let receiverCommitment ← receiverCommitment H receiver
  let recipientCommitment ← recipientCommitment H subject receiverCommitment
  return { subjectCommitment := subject, receiverCommitment, recipientCommitment }

def feeCommitment (fee : MatcherFee) : Hashed Fr FeeCommitment := do
  let digest ← hash H
    [Domain.feeV1.asField, Domain.zecAssetTag.asField, fromU64 fee.amount.get,
      fee.recipientCommitment.value]
  return ⟨digest⟩

structure TradeCommitmentParts where
  offeredAssetCommitment : AssetCommitment
  requestedAssetCommitment : AssetCommitment
  feeCommitment : FeeCommitment
  tradePartA : TradePartA
  tradePartB : TradePartB
  tradeMeta : TradeMeta
  tradeCommitment : TradeCommitment

def tradeCommitmentParts (intent : TradeIntent) : Hashed Fr TradeCommitmentParts := do
  let offeredAssetCommitment ← assetCommitment H intent.offeredAsset
  let requestedAssetCommitment ← assetCommitment H intent.requestedAsset
  let fee ← feeCommitment H intent.matcherFee
  let tradePartA ← hash H
    [Domain.tradeAV1.asField, offeredAssetCommitment.value, fromU64 intent.offeredAmount.get,
      requestedAssetCommitment.value]
  let tradePartB ← hash H
    [Domain.tradeBV1.asField, fromU64 intent.requestedAmount.get,
      intent.recipientCommitment.value, intent.policyRoot.value]
  let tradeMeta ← hash H
    [Domain.tradeMetaV1.asField, fee.value, fromU64 intent.nonce.get, fromU64 intent.expiry.get]
  let tradeCommitment ← hash H [Domain.tradeV1.asField, tradePartA, tradePartB, tradeMeta]
  return {
    offeredAssetCommitment, requestedAssetCommitment, feeCommitment := fee,
    tradePartA := ⟨tradePartA⟩, tradePartB := ⟨tradePartB⟩, tradeMeta := ⟨tradeMeta⟩,
    tradeCommitment := ⟨tradeCommitment⟩ }

def tradeCommitmentV1 (intent : TradeIntent) : Hashed Fr TradeCommitment := do
  return (← tradeCommitmentParts H intent).tradeCommitment

def verifyTradeCommitment (intent : TradeIntent) (expected : TradeCommitment) :
    Hashed Fr (Result Unit) := do
  let actual ← tradeCommitmentV1 H intent
  if actual ≠ expected then
    return .error (.commitmentMismatch expected.toDecimalString actual.toDecimalString)
  return .ok ()

/-- The two texts of a mismatch name the presented and the recomputed commitment. -/
theorem verifyTradeCommitment_error {intent : TradeIntent} {expected : TradeCommitment}
    {error : ProtocolError}
    (failed : (verifyTradeCommitment H intent expected).value = .error error) :
    (tradeCommitmentV1 H intent).value ≠ expected ∧
      error = .commitmentMismatch expected.toDecimalString
        (tradeCommitmentV1 H intent).value.toDecimalString := by
  rw [verifyTradeCommitment, Hashed.value_bind] at failed
  split at failed
  · next hne => exact ⟨hne, (Except.error.inj failed).symm⟩
  · exact absurd failed (by simp)

end Poseidon

theorem FieldNewtype.fromDecimalStr_toDecimalString {name : FieldNewtypeName}
    (wrapped : FieldNewtype name) : fromDecimalStr wrapped.toDecimalString = .ok wrapped :=
  fromDecimalStr_eq_ok.mpr (FieldElement.fromDecimalStr_toDecimalString wrapped.value)

theorem FieldNewtype.toDecimalString_injective {name : FieldNewtypeName} :
    Function.Injective (@toDecimalString name) :=
  FieldElement.toDecimalString_injective.comp value_injective

/-- Decimal output is exact. The text of an element is the numeral of its integer, without
padding and of at most 77 digits, and parses back to the element; no digit is replaced and
no fallback taken on the way; distinct elements have distinct texts, so that the texts of
a commitment mismatch differ and parse back to the two commitments. -/
theorem decimal_output_exact :
    (∀ element : FieldElement,
      element.toDecimalString = Nat.repr element.toNat ∧
      (∀ c ∈ element.toDecimalString.toList, c.isDigit) ∧
      ¬ (1 < element.toDecimalString.toList.length ∧
        element.toDecimalString.toList.head? = some '0') ∧
      element.toDecimalString ≠ "" ∧ element.toDecimalString.toList.length ≤ 77 ∧
      fromDecimalStr element.toDecimalString = .ok element) ∧
    FieldElement.zero.toDecimalString = "0" ∧
    (∀ limbs : Limbs, (divRemSmall limbs 10).2 < 256 ∧
      (String.fromUTF8? ⟨(decimalDigits limbs).reverse.toArray⟩).isSome) ∧
    Function.Injective toDecimalString ∧
    ∀ (H : List Fr → Fr) (intent : TradeIntent) (expected : TradeCommitment)
      (error : ProtocolError), (verifyTradeCommitment H intent expected).value = .error error →
      ∃ presented recomputed, error = .commitmentMismatch presented recomputed ∧
        presented ≠ recomputed ∧ FieldNewtype.fromDecimalStr presented = .ok expected ∧
        FieldNewtype.fromDecimalStr recomputed = .ok (tradeCommitmentV1 H intent).value := by
  refine ⟨fun element => ?_, ?_, fun limbs => ?_, toDecimalString_injective,
    fun H intent expected error hfailed => ?_⟩
  · have hparsed := fromDecimalStr_toDecimalString element
    obtain ⟨⟨hnonempty, hdigits⟩, -⟩ := fromDecimalStr_eq_ok.mp hparsed
    have hlength : element.toDecimalString.toList.length ≤ 77 := by
      rw [toList_toDecimalString, Nat.length_toDigits_le_iff (by decide) (by decide)]
      exact element.toNat_lt.trans (by decide +kernel)
    refine ⟨toDecimalString_eq element, hdigits, ?_, hnonempty, hlength, hparsed⟩
    rw [toList_toDecimalString]
    exact DecimalText.not_padded_toDigits _
  · rw [toDecimalString_eq, toNat_zero]
    rfl
  · have hascii : ∀ byte ∈ (decimalDigits limbs).reverse, byte < 128 := fun byte hbyte =>
      ascii_of_isAsciiDigit (decimalDigits_ascii limbs byte (List.mem_reverse.mp hbyte))
    constructor
    · rw [UInt64.lt_iff_toNat_lt]
      exact (divRemSmall_ten limbs).2.2.trans (by decide)
    · rw [AsciiText.fromUTF8?_ascii hascii]
      rfl
  · obtain ⟨hne, herror⟩ := verifyTradeCommitment_error H hfailed
    refine ⟨_, _, herror, fun htexts => hne ?_, expected.fromDecimalStr_toDecimalString,
      FieldNewtype.fromDecimalStr_toDecimalString _⟩
    exact (FieldNewtype.toDecimalString_injective htexts).symm

end ZwaProtocol
