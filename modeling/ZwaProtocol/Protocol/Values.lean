import ZwaProtocol.Protocol.Field

/-!
The value types of the protocol. The source generates two families of newtypes
by macro, over field elements and over unsigned 64-bit integers; a family is one
structure here, indexed by the type's name so that its members never unify.
-/
namespace ZwaProtocol

/-- The types the source declares with `field_newtype!`, and those it writes out
in the same shape. -/
inductive FieldNewtypeName
  | assetCommitment
  | subjectSecret
  | subjectCommitment
  | receiverCommitment
  | recipientCommitment
  | feeCommitment
  | tradePartA
  | tradePartB
  | tradeMeta
  | tradeCommitment
  | policyRoot
  | authorizedIssuanceRoot
  | activeCredentialRoot
  | credentialAuthorityCommitment
  | credentialMeta
  | credentialLeaf

structure FieldNewtype (name : FieldNewtypeName) where
  value : FieldElement
  deriving DecidableEq

namespace FieldNewtype

variable {name : FieldNewtypeName}

def fromDecimalStr (text : String) : Result (FieldNewtype name) :=
  (FieldElement.fromDecimalStr text).map .mk

def fromBeBytes (bytes : List.Vector UInt8 32) : Result (FieldNewtype name) :=
  (FieldElement.fromBeBytes bytes).map .mk

def toBeBytes (wrapped : FieldNewtype name) : List.Vector UInt8 32 :=
  wrapped.value.toBeBytes

/-- The source's `Display`, and so `to_string`. -/
def toDecimalString (wrapped : FieldNewtype name) : String :=
  wrapped.value.toDecimalString

theorem value_injective : Function.Injective (@value name) := by
  intro x y h
  cases x
  cases y
  exact congrArg mk h

instance : Ord (FieldNewtype name) where
  compare x y := compare x.value y.value

theorem compare_eq (x y : FieldNewtype name) : compare x y = compare x.value y.value := rfl

instance : Std.TransOrd (FieldNewtype name) where
  eq_swap {x y} := by
    rw [compare_eq, compare_eq]
    exact Std.OrientedCmp.eq_swap
  isLE_trans {x y z} hxy hyz := by
    rw [compare_eq] at hxy hyz ⊢
    exact Std.TransCmp.isLE_trans hxy hyz

instance : Std.LawfulEqOrd (FieldNewtype name) where
  eq_of_compare {x y} h := by
    rw [compare_eq] at h
    exact value_injective (Std.LawfulEqCmp.eq_of_compare h)

end FieldNewtype

abbrev AssetCommitment := FieldNewtype .assetCommitment
/-- Written by hand in the source, with a redacted `Debug` and no `Display`. -/
abbrev SubjectSecret := FieldNewtype .subjectSecret
abbrev SubjectCommitment := FieldNewtype .subjectCommitment
abbrev ReceiverCommitment := FieldNewtype .receiverCommitment
abbrev RecipientCommitment := FieldNewtype .recipientCommitment
abbrev FeeCommitment := FieldNewtype .feeCommitment
abbrev TradePartA := FieldNewtype .tradePartA
abbrev TradePartB := FieldNewtype .tradePartB
abbrev TradeMeta := FieldNewtype .tradeMeta
abbrev TradeCommitment := FieldNewtype .tradeCommitment
abbrev PolicyRoot := FieldNewtype .policyRoot
abbrev AuthorizedIssuanceRoot := FieldNewtype .authorizedIssuanceRoot
abbrev ActiveCredentialRoot := FieldNewtype .activeCredentialRoot

/-- The types the source declares with `u64_newtype!`. -/
inductive U64NewtypeName
  | tradeAmount
  | zatoshiAmount
  | tradeNonce
  | rootVersion
  | unixSeconds
  | credentialNonce

structure U64Newtype (name : U64NewtypeName) where
  get : UInt64
  deriving DecidableEq

abbrev TradeAmount := U64Newtype .tradeAmount
abbrev ZatoshiAmount := U64Newtype .zatoshiAmount
abbrev TradeNonce := U64Newtype .tradeNonce
abbrev RootVersion := U64Newtype .rootVersion
abbrev UnixSeconds := U64Newtype .unixSeconds

namespace UnixSeconds

/-- `u64::checked_add`: the sum, unless it is above `u64::MAX`. -/
def checkedAddSeconds (self : UnixSeconds) (seconds : UInt64) : Result UnixSeconds :=
  if self.get.toNat + seconds.toNat < 2 ^ 64 then .ok ⟨self.get + seconds⟩
  else .error (.invalidTimestamp .overflow)

/-- `u64::checked_sub`. -/
def secondsUntil (self later : UnixSeconds) : Option UInt64 :=
  if self.get ≤ later.get then some (later.get - self.get) else none

end UnixSeconds

structure TradeExpiry where
  instant : UnixSeconds
  deriving DecidableEq

namespace TradeExpiry

def new (seconds : UInt64) : TradeExpiry := ⟨⟨seconds⟩⟩

def get (expiry : TradeExpiry) : UInt64 := expiry.instant.get

/-- The expiry second itself is still usable. -/
def isExpiredAt (expiry : TradeExpiry) (now : UnixSeconds) : Bool :=
  now.get > expiry.instant.get

def ensureUnexpiredAt (expiry : TradeExpiry) (now : UnixSeconds) : Result Unit :=
  if expiry.isExpiredAt now then .error (.expiredTrade expiry.get now.get)
  else .ok ()

end TradeExpiry

structure MatcherFee where
  amount : ZatoshiAmount
  recipientCommitment : RecipientCommitment
  deriving DecidableEq

end ZwaProtocol
