import ZwaProtocol.Protocol.Values

/-!
The parts that signed-root envelopes share: a bounded identifier and versioned
freshness metadata. A value exists only where its constructor accepted it.
-/
namespace ZwaProtocol

def keyIdentifierMaxLen : Nat := 64

@[ext] structure KeyIdentifier where
  asBytes : List UInt8
  nonempty : asBytes ≠ []
  bounded : asBytes.length ≤ keyIdentifierMaxLen
  deriving DecidableEq

def KeyIdentifier.new (bytes : List UInt8) : Result KeyIdentifier :=
  if empty : bytes = [] then .error (.invalidRootEnvelope .missingAuthorityIdentifier)
  else if long : bytes.length > keyIdentifierMaxLen then
    .error (.invalidRootEnvelope (.identifierTooLong bytes.length keyIdentifierMaxLen))
  else .ok ⟨bytes, empty, Nat.le_of_not_gt long⟩

@[simp] theorem KeyIdentifier.new_asBytes (identifier : KeyIdentifier) :
    KeyIdentifier.new identifier.asBytes = .ok identifier := by
  rw [new, dif_neg identifier.nonempty, dif_neg (Nat.not_lt.mpr identifier.bounded)]

/-- The length of an identifier fits the one byte that carries it. -/
theorem KeyIdentifier.length_lt (identifier : KeyIdentifier) : identifier.asBytes.length < 256 :=
  identifier.bounded.trans_lt (by decide)

/-- `RootVersion::MIN`. -/
def rootVersionMin : RootVersion := ⟨1⟩

def rootVersionIsValid (version : RootVersion) : Bool := version.get ≥ rootVersionMin.get

@[ext] structure ValidityWindow where
  validFrom : UnixSeconds
  expiresAt : UnixSeconds
  ordered : ¬validFrom.get > expiresAt.get
  deriving DecidableEq

namespace ValidityWindow

def new (validFrom expiresAt : UnixSeconds) : Result ValidityWindow :=
  if inverted : validFrom.get > expiresAt.get then .error (.invalidTimestamp .windowInverted)
  else .ok ⟨validFrom, expiresAt, inverted⟩

@[simp] theorem new_eq_ok (window : ValidityWindow) :
    new window.validFrom window.expiresAt = .ok window := by
  rw [new, dif_neg window.ordered]

/-- Both ends of the window are inside. -/
def contains (window : ValidityWindow) (now : UnixSeconds) : Result Unit :=
  if now.get < window.validFrom.get then
    .error (.invalidRootEnvelope (.notYetValid window.validFrom.get now.get))
  else if now.get > window.expiresAt.get then
    .error (.invalidRootEnvelope (.expired window.expiresAt.get now.get))
  else .ok ()

end ValidityWindow

@[ext] structure RootMetadata where
  version : RootVersion
  window : ValidityWindow
  supported : rootVersionIsValid version = true
  deriving DecidableEq

namespace RootMetadata

def validFrom (metadata : RootMetadata) : UnixSeconds := metadata.window.validFrom

def expiresAt (metadata : RootMetadata) : UnixSeconds := metadata.window.expiresAt

def new (version : RootVersion) (validFrom expiresAt : UnixSeconds) : Result RootMetadata :=
  if supported : rootVersionIsValid version = true then do
    let window ← ValidityWindow.new validFrom expiresAt
    return ⟨version, window, supported⟩
  else .error (.unsupportedVersion version.get)

@[simp] theorem new_eq_ok (metadata : RootMetadata) :
    new metadata.version metadata.validFrom metadata.expiresAt = .ok metadata := by
  rw [new, dif_pos metadata.supported, validFrom, expiresAt, ValidityWindow.new_eq_ok]
  rfl

def ensureCurrentAt (metadata : RootMetadata) (now : UnixSeconds) : Result Unit :=
  metadata.window.contains now

end RootMetadata

def opaqueSignatureMaxLen : Nat := 1024

/-- Uninterpreted signature material. -/
structure OpaqueSignature where
  asBytes : List UInt8
  nonempty : asBytes ≠ []
  bounded : asBytes.length ≤ opaqueSignatureMaxLen
  deriving DecidableEq

def OpaqueSignature.new (bytes : List UInt8) : Result OpaqueSignature :=
  if empty : bytes = [] then .error (.invalidRootEnvelope .signatureMissing)
  else if long : bytes.length > opaqueSignatureMaxLen then
    .error (.invalidRootEnvelope (.signatureTooLong bytes.length opaqueSignatureMaxLen))
  else .ok ⟨bytes, empty, Nat.le_of_not_gt long⟩

/-- A label for a value its caller has checked; it authenticates nothing. -/
structure StructurallyValid (α : Type) where
  inner : α

end ZwaProtocol
