import ZwaProtocol.Protocol.Error

/-!
The fixed-size byte strings of the protocol and their hexadecimal text form.
Construction fixes the length and nothing else: no point or address is decoded.
-/
namespace ZwaProtocol

structure AssetBaseBytes where
  bytes : List.Vector UInt8 32
  deriving DecidableEq

structure OrchardReceiverBytes where
  bytes : List.Vector UInt8 43
  deriving DecidableEq

def nibble (byte : UInt8) : Option UInt8 :=
  if 0x30 ≤ byte ∧ byte ≤ 0x39 then some (byte - 0x30)
  else if 0x61 ≤ byte ∧ byte ≤ 0x66 then some (byte - 0x61 + 10)
  else if 0x41 ≤ byte ∧ byte ≤ 0x46 then some (byte - 0x41 + 10)
  else none

/-- The loop over `chunks_exact(2)`. -/
def decodePairs : List UInt8 → Option (List UInt8)
  | first :: second :: rest => do
      let hi ← nibble first
      let lo ← nibble second
      let out ← decodePairs rest
      return ((hi <<< 4) ||| lo) :: out
  | _ => some []

def decodeHex (text : String) : Option (List UInt8) :=
  let bytes := text.toUTF8.toList
  if bytes.length % 2 = 0 then decodePairs bytes else none

/-- `b"0123456789abcdef"[digit]`. -/
def hexDigit (digit : UInt8) : UInt8 :=
  if digit < 10 then 0x30 + digit else 0x61 + (digit - 10)

def encodeHex (bytes : List UInt8) : List UInt8 :=
  bytes.flatMap (fun byte : UInt8 => [hexDigit (byte >>> 4), hexDigit (byte &&& 0x0f)])

namespace AssetBaseBytes

def fromSlice (bytes : List UInt8) : Result AssetBaseBytes :=
  if h : bytes.length = 32 then .ok ⟨⟨bytes, h⟩⟩ else .error (.invalidAssetBase bytes.length)

def fromHex (text : String) : Result AssetBaseBytes :=
  match decodeHex text with
  | some bytes => fromSlice bytes
  | none => .error (.invalidAssetBase (text.utf8ByteSize / 2))

/-- `String::from_utf8(out).unwrap_or_default()`. -/
def toHex (asset : AssetBaseBytes) : String :=
  (String.fromUTF8? ⟨(encodeHex asset.bytes.toList).toArray⟩).getD ""

end AssetBaseBytes

namespace OrchardReceiverBytes

def fromSlice (bytes : List UInt8) : Result OrchardReceiverBytes :=
  if h : bytes.length = 43 then .ok ⟨⟨bytes, h⟩⟩ else .error (.invalidReceiver bytes.length)

def fromHex (text : String) : Result OrchardReceiverBytes :=
  match decodeHex text with
  | some bytes => fromSlice bytes
  | none => .error (.invalidReceiver (text.utf8ByteSize / 2))

def toHex (receiver : OrchardReceiverBytes) : String :=
  (String.fromUTF8? ⟨(encodeHex receiver.bytes.toList).toArray⟩).getD ""

end OrchardReceiverBytes

end ZwaProtocol
