import ZwaProtocol.Library.SelfDelimiting
import ZwaProtocol.Protocol.Envelope
import ZwaProtocol.Credentials.Values

/-!
Signed-root payloads and the bytes that are signed. The layout is read back from its
front: the magic, fixed-width integers, an identifier behind its length, the root.
-/
namespace ZwaProtocol
open ByteStrings SelfDelimiting

/-- Who signs a root. The source writes the types of the two kinds out in one shape. -/
inductive RootKind
  | issuer
  | credential
  deriving DecidableEq

namespace RootKind

/-- `KIND_ISSUER` and `KIND_CREDENTIAL`. -/
def tag : RootKind → UInt8
  | .issuer => 1
  | .credential => 2

def ofTag (tag : UInt8) : Option RootKind :=
  [issuer, credential].find? (fun kind => kind.tag = tag)

@[simp] theorem ofTag_tag (kind : RootKind) : ofTag kind.tag = some kind := by
  cases kind <;> rfl

/-- The type of the root. -/
def rootName : RootKind → FieldNewtypeName
  | .issuer => .authorizedIssuanceRoot
  | .credential => .activeCredentialRoot

end RootKind

@[ext] structure RootKeyId (kind : RootKind) where
  inner : KeyIdentifier
  deriving DecidableEq

abbrev IssuerKeyId := RootKeyId .issuer
abbrev AuthorityKeyId := RootKeyId .credential

namespace RootKeyId
variable {kind : RootKind}

def new (bytes : List UInt8) : Result (RootKeyId kind) := (KeyIdentifier.new bytes).map .mk

def asBytes (id : RootKeyId kind) : List UInt8 := id.inner.asBytes

@[simp] theorem new_asBytes (id : RootKeyId kind) : new id.asBytes = .ok id := by
  rw [new, asBytes, KeyIdentifier.new_asBytes]
  rfl

end RootKeyId

/-- `issuer_id` and `authority_id` are `keyId` here. -/
@[ext] structure RootPayload (kind : RootKind) where
  root : FieldNewtype kind.rootName
  keyId : RootKeyId kind
  metadata : RootMetadata

abbrev IssuerRootPayload := RootPayload .issuer
abbrev CredentialRootPayload := RootPayload .credential

/-- `b"ZWA1ROOT"`. -/
def payloadMagic : List UInt8 := [0x5a, 0x57, 0x41, 0x31, 0x52, 0x4f, 0x4f, 0x54]

/-- `identifier.len() as u8`. -/
def idLen (identifier : List UInt8) : UInt8 := UInt8.ofNat identifier.length

def encodePayload (kind : UInt8) (version validFrom expiresAt : UInt64) (identifier : List UInt8)
    (root : List.Vector UInt8 32) : List UInt8 :=
  payloadMagic ++ [kind] ++ u64ToBeBytes version ++ u64ToBeBytes validFrom
    ++ u64ToBeBytes expiresAt ++ [idLen identifier] ++ identifier ++ root.toList

namespace RootPayload
variable {kind : RootKind}

def new (root : FieldNewtype kind.rootName) (keyId : RootKeyId kind) (version : RootVersion)
    (validFrom expiresAt : UnixSeconds) : Result (RootPayload kind) := do
  let metadata ← RootMetadata.new version validFrom expiresAt
  return ⟨root, keyId, metadata⟩

def canonicalBytes (payload : RootPayload kind) : List UInt8 :=
  encodePayload kind.tag payload.metadata.version.get payload.metadata.validFrom.get
    payload.metadata.expiresAt.get payload.keyId.asBytes payload.root.toBeBytes

@[simp] theorem new_eq_ok (payload : RootPayload kind) :
    new payload.root payload.keyId payload.metadata.version payload.metadata.validFrom
      payload.metadata.expiresAt = .ok payload := by
  rw [new, RootMetadata.new_eq_ok]
  rfl

def validateStructureAt (payload : RootPayload kind) (now : UnixSeconds) :
    Result (StructurallyValid (RootPayload kind)) := do
  payload.metadata.ensureCurrentAt now
  return ⟨payload⟩

end RootPayload

/-- An unsigned payload and the signature material that came with it. -/
structure RootEnvelope (kind : RootKind) where
  payload : RootPayload kind
  signature : OpaqueSignature

abbrev IssuerRootEnvelope := RootEnvelope .issuer
abbrev CredentialRootEnvelope := RootEnvelope .credential

namespace RootEnvelope
variable {kind : RootKind}

def canonicalPayloadBytes (envelope : RootEnvelope kind) : List UInt8 :=
  envelope.payload.canonicalBytes

/-- The signature is not looked at. -/
def validateStructureAt (envelope : RootEnvelope kind) (now : UnixSeconds) :
    Result (StructurallyValid (RootEnvelope kind)) := do
  let _ ← envelope.payload.validateStructureAt now
  return ⟨envelope⟩

end RootEnvelope

/-- The arguments of `encode_payload`, as a reader finds them. -/
structure PayloadFields where
  kind : UInt8
  version : UInt64
  validFrom : UInt64
  expiresAt : UInt64
  identifier : List UInt8
  root : List UInt8

def readU64 : Reader UInt8 UInt64 := do
  let bytes ← take 8
  return UInt64.ofNat (beNat bytes)

def readPayload : Reader UInt8 PayloadFields := do
  expect payloadMagic
  let kind ← next
  let version ← readU64
  let validFrom ← readU64
  let expiresAt ← readU64
  let length ← next
  let identifier ← take length.toNat
  let root ← take 32
  return ⟨kind, version, validFrom, expiresAt, identifier, root⟩

theorem reads_u64 (value : UInt64) : Reads readU64 (u64ToBeBytes value) value := by
  have hvalue : UInt64.ofNat (beNat (u64ToBeBytes value)) = value := by
    rw [u64ToBeBytes, beNat_toBe_of_lt value.toNat_lt, UInt64.ofNat_toNat]
  have hread := Reads.map (fun bytes => UInt64.ofNat (beNat bytes))
    (reads_take (show (u64ToBeBytes value).length = 8 by simp [u64ToBeBytes]))
  rwa [hvalue] at hread

theorem toNat_idLen {identifier : List UInt8} (h : identifier.length < 256) :
    (idLen identifier).toNat = identifier.length :=
  UInt8.toNat_ofNat_of_lt' h

theorem reads_payload (kind : UInt8) (version validFrom expiresAt : UInt64)
    {identifier : List UInt8} (root : List.Vector UInt8 32) (h : identifier.length < 256) :
    Reads readPayload (encodePayload kind version validFrom expiresAt identifier root)
      ⟨kind, version, validFrom, expiresAt, identifier, root.toList⟩ := by
  simp only [encodePayload, List.append_assoc]
  refine (reads_expect payloadMagic).bind ?_
  refine (reads_next kind).bind ?_
  refine (reads_u64 version).bind ?_
  refine (reads_u64 validFrom).bind ?_
  refine (reads_u64 expiresAt).bind ?_
  refine (reads_next (idLen identifier)).bind ?_
  refine (reads_take (toNat_idLen h).symm).bind ?_
  exact Reads.map _ (reads_take root.toList_length)

/-- A payload of either kind. -/
abbrev SignedRoot := (kind : RootKind) × RootPayload kind

namespace SignedRoot

def canonicalBytes (signed : SignedRoot) : List UInt8 := signed.2.canonicalBytes

/-- The payload of these fields, where the constructors accept them. -/
def ofFields (fields : PayloadFields) : Option SignedRoot := do
  let kind ← RootKind.ofTag fields.kind
  let root ← (FieldElement.fromBeSlice fields.root).toOption
  let keyId ← (RootKeyId.new fields.identifier).toOption
  let payload ← (RootPayload.new ⟨root⟩ keyId ⟨fields.version⟩ ⟨fields.validFrom⟩
    ⟨fields.expiresAt⟩).toOption
  return ⟨kind, payload⟩

def decode : Reader UInt8 SignedRoot := do
  let fields ← readPayload
  (ofFields fields : Option SignedRoot)

def fields (signed : SignedRoot) : PayloadFields where
  kind := signed.1.tag
  version := signed.2.metadata.version.get
  validFrom := signed.2.metadata.validFrom.get
  expiresAt := signed.2.metadata.expiresAt.get
  identifier := signed.2.keyId.asBytes
  root := signed.2.root.toBeBytes.toList

/-- A constructible payload passes every check on its way back. -/
theorem ofFields_fields (signed : SignedRoot) : ofFields signed.fields = some signed := by
  obtain ⟨kind, payload⟩ := signed
  have hroot : FieldElement.fromBeSlice payload.root.toBeBytes.toList = .ok payload.root.value :=
    FieldElement.fromBeSlice_toBeBytes payload.root.value
  have hpayload := payload.new_eq_ok
  simp only [ofFields, fields, RootKind.ofTag_tag, Option.bind_eq_bind, Option.bind_some, hroot,
    Except.toOption, RootKeyId.new_asBytes]
  rw [hpayload]
  rfl

theorem reads_decode (signed : SignedRoot) : Reads decode signed.canonicalBytes signed := by
  have hfields : Reads readPayload signed.canonicalBytes signed.fields :=
    reads_payload _ _ _ _ _ signed.2.keyId.inner.length_lt
  have hread : Reads decode (signed.canonicalBytes ++ []) signed :=
    hfields.bind (Reads.lift (ofFields_fields signed))
  rwa [List.append_nil] at hread

end SignedRoot

/-- Signed-root payloads are self-delimiting. `decode` returns every payload of either
kind from the front of its canonical bytes with the remainder untouched; so payloads
with equal bytes are equal and of one kind, no encoding is a proper prefix of another,
and the length byte is the length. -/
theorem signed_roots_self_delimiting :
    (∀ (signed : SignedRoot) (rest : List UInt8),
      SignedRoot.decode (signed.canonicalBytes ++ rest) = some (signed, rest)) ∧
    (∀ signed signed' : SignedRoot,
      signed.canonicalBytes = signed'.canonicalBytes → signed = signed') ∧
    (∀ signed signed' : SignedRoot, signed.canonicalBytes <+: signed'.canonicalBytes →
      signed.canonicalBytes = signed'.canonicalBytes) ∧
    ∀ signed : SignedRoot,
      (idLen signed.2.keyId.asBytes).toNat = signed.2.keyId.asBytes.length := by
  refine ⟨SignedRoot.reads_decode, ?_, ?_, ?_⟩
  · intro signed signed' heq
    exact encode_injective SignedRoot.reads_decode heq
  · intro signed signed' hstart
    rw [eq_of_encode_prefix_encode SignedRoot.reads_decode hstart]
  · intro signed
    exact toNat_idLen signed.2.keyId.inner.length_lt

end ZwaProtocol
