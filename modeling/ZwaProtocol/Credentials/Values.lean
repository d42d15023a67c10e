import ZwaProtocol.Protocol.Values

/-!
The credential and eligibility-policy values. The policy codes are generated by
one macro of the source and are one structure here, as wide as the range the
circuit constrains.
-/
namespace ZwaProtocol

abbrev CredentialNonce := U64Newtype .credentialNonce
abbrev CredentialAuthorityCommitment := FieldNewtype .credentialAuthorityCommitment
abbrev CredentialMeta := FieldNewtype .credentialMeta
abbrev CredentialLeaf := FieldNewtype .credentialLeaf

/-- `BITS` of the type declared with `policy_code!` for a field. -/
def CredentialCodeField.bits : CredentialCodeField → Nat
  | .investorClass => 8
  | .jurisdiction => 16

theorem CredentialCodeField.bits_le (field : CredentialCodeField) : field.bits ≤ 16 := by
  cases field <;> decide

structure PolicyCode (field : CredentialCodeField) where
  code : BitVec field.bits
  deriving DecidableEq

abbrev InvestorClass := PolicyCode .investorClass
abbrev Jurisdiction := PolicyCode .jurisdiction

namespace PolicyCode

variable {field : CredentialCodeField}

/-- `MAX`. -/
def max (field : CredentialCodeField) : UInt64 := UInt64.ofNat (2 ^ field.bits - 1)

def fromU64 (value : UInt64) : Result (PolicyCode field) :=
  if value > max field then
    .error (.credentialCodeOutOfRange field (UInt32.ofNat field.bits))
  else .ok ⟨BitVec.ofNat field.bits value.toNat⟩

def get (wrapped : PolicyCode field) : UInt64 := UInt64.ofNat wrapped.code.toNat

theorem toNat_get (wrapped : PolicyCode field) : wrapped.get.toNat = wrapped.code.toNat := by
  have hpow : 2 ^ field.bits ≤ 2 ^ 16 := Nat.pow_le_pow_right (by decide) field.bits_le
  have hlt := wrapped.code.isLt
  have hsize : UInt64.size = 2 ^ 64 := rfl
  exact UInt64.toNat_ofNat_of_lt' (by omega)

theorem get_injective : Function.Injective (@get field) := by
  intro x y h
  have hnat := congrArg UInt64.toNat h
  rw [toNat_get, toNat_get] at hnat
  cases x
  cases y
  exact congrArg mk (BitVec.eq_of_toNat_eq hnat)

end PolicyCode

structure CredentialExpiry where
  instant : UnixSeconds
  deriving DecidableEq

namespace CredentialExpiry

def new (seconds : UInt64) : CredentialExpiry := ⟨⟨seconds⟩⟩

def get (expiry : CredentialExpiry) : UInt64 := expiry.instant.get

def coversTradeExpiry (expiry : CredentialExpiry) (tradeExpiry : UnixSeconds) : Bool :=
  expiry.instant.get ≥ tradeExpiry.get

end CredentialExpiry

end ZwaProtocol
