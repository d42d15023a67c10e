import ZwaProtocol.Circuits.SharedEngine
import ZwaProtocol.Commitments.TradeBinding

/-!
The JavaScript engine reads back the hexadecimal text the Rust types print: the
limbs of an asset are the limbs of its text.
-/
namespace ZwaProtocol
open HashStaging ByteStrings AsciiText

namespace SharedEngine

theorem hexDigit_readable : ∀ n < 16, hexDigit (UInt8.ofNat n) < 128 ∧
    hexValue (toChar (hexDigit (UInt8.ofNat n))) = some (UInt8.ofNat n) := by
  decide

theorem hexDigit_spec {digit : UInt8} (h : digit.toNat < 16) :
    hexDigit digit < 128 ∧ hexValue (toChar (hexDigit digit)) = some digit := by
  have hdigit := hexDigit_readable digit.toNat h
  rwa [UInt8.ofNat_toNat] at hdigit

theorem toNat_high (byte : UInt8) : (byte >>> 4).toNat = byte.toNat / 16 := by
  rw [UInt8.toNat_shiftRight]
  exact Nat.shiftRight_eq_div_pow _ _

theorem toNat_low (byte : UInt8) : (byte &&& 0x0f).toNat = byte.toNat % 16 := by
  rw [UInt8.toNat_and]
  exact Nat.and_two_pow_sub_one_eq_mod _ 4

theorem high_lt (byte : UInt8) : (byte >>> 4).toNat < 16 := by
  have hlt := byte.toNat_lt
  rw [toNat_high]
  omega

theorem low_lt (byte : UInt8) : (byte &&& 0x0f).toNat < 16 := by
  rw [toNat_low]
  exact Nat.mod_lt _ (by decide)

theorem high_low (byte : UInt8) : (16 : UInt8) * (byte >>> 4) + (byte &&& 0x0f) = byte := by
  have hlt := byte.toNat_lt
  refine UInt8.toNat_inj.mp ?_
  rw [UInt8.toNat_add, UInt8.toNat_mul, toNat_high, toNat_low]
  show (16 * (byte.toNat / 16) % 256 + byte.toNat % 16) % 256 = byte.toNat
  omega

theorem encodeHex_cons (byte : UInt8) (bytes : List UInt8) :
    encodeHex (byte :: bytes) =
      hexDigit (byte >>> 4) :: hexDigit (byte &&& 0x0f) :: encodeHex bytes := rfl

theorem encodeHex_ascii (bytes : List UInt8) : ∀ digit ∈ encodeHex bytes, digit < 128 := by
  induction bytes with
  | nil => simp [encodeHex]
  | cons byte bytes ih =>
      rw [encodeHex_cons]
      intro digit hdigit
      obtain rfl | hdigit := List.mem_cons.mp hdigit
      · exact (hexDigit_spec (high_lt byte)).1
      · obtain rfl | hdigit := List.mem_cons.mp hdigit
        · exact (hexDigit_spec (low_lt byte)).1
        · exact ih digit hdigit

theorem bufferFromHex_encodeHex (bytes : List UInt8) :
    bufferFromHex ((encodeHex bytes).map toChar) = bytes := by
  induction bytes with
  | nil => rfl
  | cons byte bytes ih =>
      rw [encodeHex_cons, List.map_cons, List.map_cons, bufferFromHex,
        (hexDigit_spec (high_lt byte)).2, (hexDigit_spec (low_lt byte)).2]
      simp only [ih, high_low]

theorem encodeHex_all_hex (bytes : List UInt8) :
    ((encodeHex bytes).map toChar).all (fun c => (hexValue c).isSome) = true := by
  induction bytes with
  | nil => rfl
  | cons byte bytes ih =>
      rw [encodeHex_cons, List.map_cons, List.map_cons, List.all_cons, List.all_cons, ih,
        (hexDigit_spec (high_lt byte)).2, (hexDigit_spec (low_lt byte)).2]
      rfl

theorem length_encodeHex (bytes : List UInt8) : (encodeHex bytes).length = bytes.length * 2 := by
  induction bytes with
  | nil => rfl
  | cons byte bytes ih =>
      rw [encodeHex_cons, List.length_cons, List.length_cons, List.length_cons, ih, Nat.succ_mul]

/-- The hexadecimal text of a byte string. -/
def hexText (bytes : List UInt8) : String := String.ofList ((encodeHex bytes).map toChar)

@[simp] theorem toList_hexText (bytes : List UInt8) :
    (hexText bytes).toList = (encodeHex bytes).map toChar :=
  String.toList_ofList

theorem length_hexText (bytes : List UInt8) : (hexText bytes).toList.length = bytes.length * 2 := by
  rw [toList_hexText, List.length_map, length_encodeHex]

theorem hexText_all_hex (bytes : List UInt8) :
    (hexText bytes).toList.all (fun c => (hexValue c).isSome) = true := by
  rw [toList_hexText, encodeHex_all_hex]

theorem bufferFromHex_hexText (bytes : List UInt8) :
    bufferFromHex (hexText bytes).toList = bytes := by
  rw [toList_hexText, bufferFromHex_encodeHex]

theorem toHex_asset (asset : AssetBaseBytes) : asset.toHex = hexText asset.bytes.toList := by
  rw [AssetBaseBytes.toHex, fromUTF8?_ascii (encodeHex_ascii _), Option.getD_some, hexText]

theorem toHex_receiver (receiver : OrchardReceiverBytes) :
    receiver.toHex = hexText receiver.bytes.toList := by
  rw [OrchardReceiverBytes.toHex, fromUTF8?_ascii (encodeHex_ascii _), Option.getD_some, hexText]

theorem littleEndianBytesToBigInt_eq (bytes : List UInt8) :
    littleEndianBytesToBigInt bytes = (leNat bytes : Int) := by
  rw [littleEndianBytesToBigInt, beNat, List.reverse_reverse]

/-- A half of an asset, read by either engine. -/
theorem littleEndian_half (bytes : List UInt8) (h : bytes.length ≤ 16) :
    littleEndianBytesToBigInt bytes = ((littleEndianU128 bytes).toNat : Int) := by
  rw [littleEndianBytesToBigInt_eq, toNat_littleEndianU128 h]

theorem assetIdToLimbs_toHex (asset : AssetBaseBytes) :
    Returns (assetIdToLimbs asset.toHex)
      ⟨(encodeAssetBase asset).hi.toNat, (encodeAssetBase asset).lo.toNat⟩ [] := by
  have hlength : asset.bytes.toList.length = 32 := asset.bytes.toList_length
  have hassert : assertHexBytes asset.toHex 32 "canonical AssetBase encoding" = pure () := by
    rw [assertHexBytes, toHex_asset, hexText_all_hex, length_hexText, hlength, if_pos ⟨rfl, rfl⟩]
  have hlo := littleEndian_half (asset.bytes.toList.take 16) (by simp)
  have hhi := littleEndian_half ((asset.bytes.toList.drop 16).take 16) (by simp)
  have hdrop : (asset.bytes.toList.drop 16).take 16 = asset.bytes.toList.drop 16 :=
    List.take_of_length_le (by simp [hlength])
  rw [hdrop] at hhi
  have hbound (word : BitVec 128) : ¬ ((word.toNat : Int) > maxU128) := by
    have hlt := word.isLt
    rw [maxU128]
    omega
  rw [toHex_asset] at hassert ⊢
  simp only [assetIdToLimbs, hassert, bufferFromHex_hexText, hdrop, hlo, hhi, hbound, or_self,
    if_false]
  exact (Returns.pure ()).bind_pure _

end SharedEngine

end ZwaProtocol
