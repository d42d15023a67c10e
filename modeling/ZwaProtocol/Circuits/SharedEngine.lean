import ZwaProtocol.Library.HashStaging
import ZwaProtocol.Library.MerkleTree
import ZwaProtocol.Library.AsciiText
import ZwaProtocol.Library.ByteStrings
import ZwaProtocol.Protocol.ScalarField

/-!
The JavaScript engine shared by the circuits' fixtures: the commitments to assets, byte
strings, issuances and trades, and the Merkle trees. A `BigInt` is an integer and a thrown
`Error` is its message; the hasher reduces its inputs and returns the canonical integer of
the digest.
-/
namespace ZwaProtocol
open HashStaging ByteStrings MerkleTree

abbrev Js := ExceptT String (Hashed Fr)

namespace SharedEngine

def fieldModulus : Int :=
  21888242871839275222246405745257275088548364400416034343698204186575808495617

def maxU64 : Int := 2 ^ 64 - 1

def maxU128 : Int := 2 ^ 128 - 1

/-- `DOMAINS.ASSET_V1`. -/
def assetV1 : Int := 18387490596738609

/-- `DOMAINS.ISSUANCE_META_V1`. -/
def issuanceMetaV1 : Int := 5283658379176460593

/-- `DOMAINS.ISSUANCE_V1`. -/
def issuanceV1 : Int := 20639290677876273

/-- `DOMAINS.FEE_V1`. -/
def feeV1 : Int := 301809882673

/-- `DOMAINS.TRADE_A_V1`. -/
def tradeAV1 : Int := 23734351151715889

/-- `DOMAINS.TRADE_B_V1`. -/
def tradeBV1 : Int := 23734351168493105

/-- `DOMAINS.TRADE_META_V1`. -/
def tradeMetaV1 : Int := 23734351353042481

/-- `DOMAINS.TRADE_V1`. -/
def tradeV1 : Int := 6075990608753677873

/-- `DOMAINS.ZEC_ASSET_TAG`. -/
def zecAssetTag : Int := 5915971

/-- The value of a character in `[0-9a-fA-F]`. -/
def hexValue (c : Char) : Option UInt8 :=
  if '0' ≤ c ∧ c ≤ '9' then some (UInt8.ofNat (c.toNat - '0'.toNat))
  else if 'a' ≤ c ∧ c ≤ 'f' then some (UInt8.ofNat (c.toNat - 'a'.toNat + 10))
  else if 'A' ≤ c ∧ c ≤ 'F' then some (UInt8.ofNat (c.toNat - 'A'.toNat + 10))
  else none

def assertHexBytes (hex : String) (length : Nat) (label : String) : Js Unit :=
  if hex.toList.length = length * 2 ∧ hex.toList.all (fun c => (hexValue c).isSome) then pure ()
  else throw (label ++ " must be exactly " ++ toString length ++ " bytes of hexadecimal")

/-- `Buffer.from(hex, "hex")`: stops at the first pair that is not hexadecimal. -/
def bufferFromHex : List Char → List UInt8
  | first :: second :: rest =>
      match hexValue first, hexValue second with
      | some hi, some lo => (16 * hi + lo) :: bufferFromHex rest
      | _, _ => []
  | _ => []

/-- The bytes reversed and read as one hexadecimal numeral. -/
def littleEndianBytesToBigInt (bytes : List UInt8) : Int := beNat bytes.reverse

structure AssetIdLimbs where
  hi : Int
  lo : Int

def assetIdToLimbs (assetBaseHex : String) : Js AssetIdLimbs := do
  assertHexBytes assetBaseHex 32 "canonical AssetBase encoding"
  let bytes := bufferFromHex assetBaseHex.toList
  let lo := littleEndianBytesToBigInt (bytes.take 16)
  let hi := littleEndianBytesToBigInt ((bytes.drop 16).take 16)
  if lo > maxU128 ∨ hi > maxU128 then throw "internal 128-bit limb overflow"
  return { hi, lo }

/-- `toString("hex")`: two digits for each byte. -/
def bufferToHex (bytes : List UInt8) : String :=
  String.ofList (bytes.flatMap fun byte =>
    [Nat.digitChar (byte.toNat / 16), Nat.digitChar (byte.toNat % 16)])

/-- `value.toString(16)` padded with zeros, read as bytes and reversed. -/
def bigIntToLittleEndianBytes (value : Int) (length : Nat) : Js (List UInt8) :=
  if value < 0 ∨ value ≥ 2 ^ (length * 8) then
    throw ("integer does not fit in " ++ toString length ++ " bytes")
  else
    pure (bufferFromHex ((Nat.toDigits 16 value.toNat).leftpad (length * 2) '0')).reverse

def limbsToAssetId (hi lo : Int) : Js String := do
  if hi < 0 ∨ hi > maxU128 ∨ lo < 0 ∨ lo > maxU128 then
    throw "AssetBase limbs must be unsigned 128-bit integers"
  let low ← bigIntToLittleEndianBytes lo 16
  let high ← bigIntToLittleEndianBytes hi 16
  return bufferToHex (low ++ high)

def assertU64 (value : Int) (label : String) : Js Int :=
  if value < 0 ∨ value > maxU64 then throw (label ++ " must be an unsigned 64-bit integer")
  else pure value

def assertField (value : Int) (label : String) : Js Int :=
  if value < 0 ∨ value ≥ fieldModulus then throw (label ++ " must be a canonical BN254 scalar")
  else pure value

/-- `Buffer.subarray`. -/
def subarray (bytes : List UInt8) (start stop : Nat) : List UInt8 := (bytes.take stop).drop start

/-- The loop over the offsets. -/
def pushLimbs (bytes : List UInt8) (offset : Nat) : List Int :=
  if _h : offset < bytes.length then
    littleEndianBytesToBigInt (subarray bytes offset (min (offset + 16) bytes.length))
      :: pushLimbs bytes (offset + 16)
  else []
termination_by bytes.length - offset

structure ByteLimbs where
  byteLength : Nat
  limbs : List Int

def splitBytesIntoLittleEndianLimbs (hex : String) : Js ByteLimbs := do
  if hex.toList.length % 2 ≠ 0 ∨ ¬ hex.toList.all (fun c => (hexValue c).isSome) then
    throw "canonical byte encoding must be hexadecimal"
  let bytes := bufferFromHex hex.toList
  return { byteLength := bytes.length, limbs := pushLimbs bytes 0 }

section Hasher
variable (H : List Fr → Fr)

/-- The function `createHasher` returns. -/
def hasher (values : List Int) : Hashed Fr Int :=
  (fun digest : Fr => (digest.val : Int)) <$> Hashed.query H (values.map Int.cast)

def commitCanonicalBytes (domain : Int) (hex : String) : Js Int := do
  let split ← splitBytesIntoLittleEndianLimbs hex
  let state ← ExceptT.lift (hasher H [domain, split.byteLength, split.limbs.length])
  split.limbs.zipIdx.foldlM
    (fun state entry => ExceptT.lift (hasher H [state, entry.1, entry.2])) state

def computeAssetCommitment (assetBaseHex : String) : Js Int := do
  let limbs ← assetIdToLimbs assetBaseHex
  ExceptT.lift (hasher H [assetV1, limbs.hi, limbs.lo])

structure IssuanceRequest where
  offeredAssetBase : String
  seriesCommitment : Int
  policyRoot : Int
  issuanceNonce : Int
  issuerCommitment : Int

structure Issuance where
  assetCommitment : Int
  issuanceMeta : Int
  issuanceLeaf : Int

def computeIssuance (fields : IssuanceRequest) : Js Issuance := do
  let assetCommitment ← computeAssetCommitment H fields.offeredAssetBase
  let series ← assertField fields.seriesCommitment "series commitment"
  let policyRoot ← assertField fields.policyRoot "policy root"
  let issuanceNonce ← assertU64 fields.issuanceNonce "issuance nonce"
  let issuanceMeta ←
    ExceptT.lift (hasher H [issuanceMetaV1, series, policyRoot, issuanceNonce])
  let issuer ← assertField fields.issuerCommitment "issuer commitment"
  let issuanceLeaf ←
    ExceptT.lift (hasher H [issuanceV1, issuer, assetCommitment, issuanceMeta])
  return { assetCommitment, issuanceMeta, issuanceLeaf }

structure TradeRequest where
  offeredAssetBase : String
  offeredAmount : Int
  requestedAssetBase : String
  requestedAmount : Int
  recipientCommitment : Int
  policyRoot : Int
  matcherFeeAmount : Int
  matcherFeeRecipientCommitment : Int
  nonce : Int
  expiry : Int

@[ext] structure Trade where
  offeredAssetCommitment : Int
  requestedAssetCommitment : Int
  feeCommitment : Int
  tradePartA : Int
  tradePartB : Int
  tradeMeta : Int
  tradeCommitment : Int

def computeTrade (fields : TradeRequest) : Js Trade := do
  let offeredAssetCommitment ← computeAssetCommitment H fields.offeredAssetBase
  let requestedAssetCommitment ← computeAssetCommitment H fields.requestedAssetBase
  let feeAmount ← assertU64 fields.matcherFeeAmount "matcher fee amount"
  let feeRecipient ←
    assertField fields.matcherFeeRecipientCommitment "matcher fee recipient commitment"
  let feeCommitment ← ExceptT.lift (hasher H [feeV1, zecAssetTag, feeAmount, feeRecipient])
  let offeredAmount ← assertU64 fields.offeredAmount "offered amount"
  let tradePartA ← ExceptT.lift
    (hasher H [tradeAV1, offeredAssetCommitment, offeredAmount, requestedAssetCommitment])
  let requestedAmount ← assertU64 fields.requestedAmount "requested amount"
  let recipient ← assertField fields.recipientCommitment "recipient commitment"
  let policyRoot ← assertField fields.policyRoot "policy root"
  let tradePartB ← ExceptT.lift (hasher H [tradeBV1, requestedAmount, recipient, policyRoot])
  let nonce ← assertU64 fields.nonce "trade nonce"
  let expiry ← assertU64 fields.expiry "trade expiry"
  let tradeMeta ← ExceptT.lift (hasher H [tradeMetaV1, feeCommitment, nonce, expiry])
  let tradeCommitment ←
    ExceptT.lift (hasher H [tradeV1, tradePartA, tradePartB, tradeMeta])
  return {
    offeredAssetCommitment, requestedAssetCommitment, feeCommitment, tradePartA, tradePartB,
    tradeMeta, tradeCommitment }

/-- The inner loop: a level of odd length would read past its end. -/
def hashPairs : (prior : List Int) → Js { next : List Int // next.length = prior.length / 2 }
  | [] => pure ⟨[], rfl⟩
  | [_] => throw "Cannot convert undefined to a BigInt"
  | left :: right :: rest => do
      let parent ← ExceptT.lift (hasher H [left, right])
      let next ← hashPairs rest
      return ⟨parent :: next.val, by
        have hnext := next.property
        simp only [List.length_cons]
        omega⟩

/-- The outer loop: levels are pushed until one has a single digest. -/
def pushLevels (prior : List Int) : Js (List (List Int)) :=
  if _h : prior.length > 1 then do
    let next ← hashPairs H prior
    let levels ← pushLevels next.val
    return prior :: levels
  else return [prior]
termination_by prior.length
decreasing_by
  rw [next.property]
  exact Nat.div_lt_self (Nat.zero_lt_of_lt _h) (by decide)

def buildMerkleTree (leaves : List Int) : Js (List (List Int)) := do
  if leaves.length = 0 ∨ leaves.length &&& (leaves.length - 1) ≠ 0 then
    throw "Merkle leaf count must be a nonzero power of two"
  pushLevels H leaves

end Hasher

structure MerkleProof where
  siblings : List (Option Int)
  pathIndices : List Nat

/-- The loop under the last level. Reading past the end of a level gives `undefined`; a
cursor is below 2 ^ 31, where the operators on 32-bit integers are those on naturals. -/
def proofSteps : List (List Int) → Nat → List (Option Int × Nat)
  | level :: above :: rest, cursor =>
      (level[cursor ^^^ 1]?, cursor &&& 1) :: proofSteps (above :: rest) (cursor >>> 1)
  | _, _ => []

def merkleProof (levels : List (List Int)) (index : Int) : Js MerkleProof :=
  match levels with
  | [] => throw "Cannot read properties of undefined (reading 'length')"
  | leaves :: _ =>
      if index < 0 ∨ index ≥ leaves.length then throw "invalid leaf index"
      else
        let steps := proofSteps levels index.toNat
        pure { siblings := steps.map Prod.fst, pathIndices := steps.map Prod.snd }

end SharedEngine

end ZwaProtocol
