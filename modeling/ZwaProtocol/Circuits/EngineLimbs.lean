import ZwaProtocol.Circuits.EngineAgreement
import ZwaProtocol.Circuits.HexForms
import ZwaProtocol.Library.PaddedNumerals

/-!
The limb codecs of the JavaScript engine, back from limbs to text. Its bytes pass through a
hexadecimal numeral; what it prints is what the Rust decoder of the limbs prints.
-/
namespace ZwaProtocol
open HashStaging ByteStrings AsciiText PaddedNumerals SharedEngine SharedEligibility

section Bytes

theorem digitChar_table :
    ∀ digit < 16, Nat.digitChar digit = toChar (hexDigit (UInt8.ofNat digit)) := by
  decide

theorem digitChars_eq (byte : UInt8) :
    [Nat.digitChar (byte.toNat / 16), Nat.digitChar (byte.toNat % 16)]
      = (encodeHex [byte]).map toChar := by
  have hhigh : UInt8.ofNat (byte.toNat / 16) = byte >>> 4 := by
    rw [← toNat_high, UInt8.ofNat_toNat]
  have hlow : UInt8.ofNat (byte.toNat % 16) = byte &&& 0x0f := by
    rw [← toNat_low, UInt8.ofNat_toNat]
  rw [digitChar_table _ (toNat_high byte ▸ high_lt byte),
    digitChar_table _ (toNat_low byte ▸ low_lt byte), hhigh, hlow]
  rfl

/-- Both engines print bytes alike. -/
theorem bufferToHex_eq (bytes : List UInt8) : bufferToHex bytes = hexText bytes := by
  rw [bufferToHex, hexText, encodeHex, List.map_flatMap]
  refine congrArg String.ofList (List.flatMap_congr fun byte _ => ?_)
  exact digitChars_eq byte

theorem encodeHex_append (front rest : List UInt8) :
    encodeHex (front ++ rest) = encodeHex front ++ encodeHex rest :=
  List.flatMap_append

theorem toBe_succ (width value : Nat) :
    toBe (width + 1) value = toBe width (value / 256) ++ [UInt8.ofNat value] := by
  rw [toBe, toLe, List.reverse_cons, toBe]

/-- A numeral of two digits a byte is the text of the bytes. -/
theorem numeral_eq_encodeHex (width value : Nat) :
    numeral 16 (width * 2) value = (encodeHex (toBe width value)).map toChar := by
  induction width generalizing value with
  | zero => rfl
  | succ width ih =>
      have hbyte := digitChars_eq (UInt8.ofNat value)
      have hhigh : (UInt8.ofNat value).toNat / 16 = value / 16 % 16 := by
        rw [UInt8.toNat_ofNat']
        omega
      have hlow : (UInt8.ofNat value).toNat % 16 = value % 16 := by
        rw [UInt8.toNat_ofNat']
        omega
      rw [hhigh, hlow] at hbyte
      rw [toBe_succ, encodeHex_append, List.map_append, ← hbyte, Nat.succ_mul]
      change numeral 16 (width * 2) (value / 16 / 16) ++ [Nat.digitChar (value / 16 % 16)]
        ++ [Nat.digitChar (value % 16)] = _
      rw [Nat.div_div_eq_div_mul, ih, List.append_assoc]
      rfl

theorem bigIntToLittleEndianBytes_returns {value width : Nat} (h : value < 256 ^ (width + 1)) :
    Returns (bigIntToLittleEndianBytes value (width + 1)) (toLe (width + 1) value) [] := by
  have hpow : (256 : Nat) ^ (width + 1) = 2 ^ ((width + 1) * 8) := by
    rw [Nat.mul_comm, Nat.pow_mul]
  have hfits : ¬ ((value : Int) < 0 ∨ (value : Int) ≥ 2 ^ ((width + 1) * 8)) := by
    rw [hpow] at h
    have hcast : (value : Int) < 2 ^ ((width + 1) * 8) := by exact_mod_cast h
    omega
  have hdigits : value < 16 ^ (width * 2 + 1 + 1) := by
    have hpow' : (16 : Nat) ^ (width * 2 + 1 + 1) = 256 ^ (width + 1) := by
      rw [show width * 2 + 1 + 1 = 2 * (width + 1) by omega, Nat.pow_mul]
    rwa [hpow']
  have hnumeral : (Nat.toDigits 16 (value : Int).toNat).leftpad ((width + 1) * 2) '0'
      = (encodeHex (toBe (width + 1) value)).map toChar := by
    rw [Int.toNat_natCast, ← numeral_eq_encodeHex, Nat.succ_mul]
    exact leftpad_toDigits (by decide) hdigits
  rw [bigIntToLittleEndianBytes, if_neg hfits, hnumeral, bufferFromHex_encodeHex, toBe,
    List.reverse_reverse]
  exact Returns.pure _

end Bytes

section Texts
variable {text : String}

/-- An accepted text is, up to case, the text of one asset, and is read as that text is. -/
theorem exists_asset (h : HexForm 64 text) :
    ∃ asset : AssetBaseBytes, asset.toHex = text.toLower ∧
      assetIdToLimbs text = assetIdToLimbs asset.toHex := by
  obtain ⟨asset, hasset⟩ :=
    (readHex_accepts_iff AssetBaseBytes.mk .invalidAssetBase text).mpr h
  obtain ⟨bytes, hdecoded, rfl⟩ := (readHex_eq_ok _ _).mp hasset
  have hprinted : decodeHex (hexText bytes.toList) = some bytes.toList := decodeHex_hexText _
  have hform := (decodeHex_eq_some.mp hprinted).1
  rw [bytes.toList_length] at hform
  have hassert := assertHexBytes_of_form (show HexForm (32 * 2) text from h)
  have hassert' := assertHexBytes_of_form (show HexForm (32 * 2) (hexText bytes.toList) from hform)
  refine ⟨⟨bytes⟩, (toHex_asset _).trans (hexText_of_decodeHex hdecoded), ?_⟩
  rw [toHex_asset]
  simp only [assetIdToLimbs, hassert, hassert', ← (decodeHex_eq_some.mp hdecoded).2,
    bufferFromHex_hexText]

theorem exists_receiver (h : HexForm 86 text) :
    ∃ receiver : OrchardReceiverBytes, receiver.toHex = text.toLower ∧
      receiverToLimbs text = receiverToLimbs receiver.toHex := by
  obtain ⟨receiver, hreceiver⟩ :=
    (readHex_accepts_iff OrchardReceiverBytes.mk .invalidReceiver text).mpr h
  obtain ⟨bytes, hdecoded, rfl⟩ := (readHex_eq_ok _ _).mp hreceiver
  have hprinted : decodeHex (hexText bytes.toList) = some bytes.toList := decodeHex_hexText _
  have hform := (decodeHex_eq_some.mp hprinted).1
  rw [bytes.toList_length] at hform
  have htest := (hexTest_iff 86).mpr h
  have htest' := (hexTest_iff 86).mpr hform
  refine ⟨⟨bytes⟩, (toHex_receiver _).trans (hexText_of_decodeHex hdecoded), ?_⟩
  rw [toHex_receiver]
  simp only [receiverToLimbs, htest, htest', ← (decodeHex_eq_some.mp hdecoded).2,
    bufferFromHex_hexText]

end Texts

section Codecs

/-- The integers that a word of this width holds. -/
theorem exists_word_iff {value : Int} {width : Nat} :
    (∃ word : BitVec width, value = word.toNat) ↔ 0 ≤ value ∧ value < 2 ^ width := by
  constructor
  · rintro ⟨word, rfl⟩
    exact ⟨Int.natCast_nonneg _, by exact_mod_cast word.isLt⟩
  · rintro ⟨hnonneg, hfits⟩
    have hnat : value.toNat < 2 ^ width := by
      have hcast : (value.toNat : Int) < ((2 ^ width : Nat) : Int) := by
        rw [Int.toNat_of_nonneg hnonneg]
        exact_mod_cast hfits
      exact_mod_cast hcast
    refine ⟨BitVec.ofNat width value.toNat, ?_⟩
    rw [BitVec.toNat_ofNat, Nat.mod_eq_of_lt hnat, Int.toNat_of_nonneg hnonneg]

theorem exists_assetLimbs_iff {hi lo : Int} :
    (∃ limbs : AssetBaseLimbs, hi = limbs.hi.toNat ∧ lo = limbs.lo.toNat) ↔
      (0 ≤ hi ∧ hi < 2 ^ 128) ∧ 0 ≤ lo ∧ lo < 2 ^ 128 := by
  rw [← exists_word_iff, ← exists_word_iff]
  constructor
  · rintro ⟨limbs, hhi, hlo⟩
    exact ⟨⟨limbs.hi, hhi⟩, limbs.lo, hlo⟩
  · rintro ⟨⟨high, hhi⟩, low, hlo⟩
    exact ⟨⟨high, low⟩, hhi, hlo⟩

theorem exists_receiverLimbs_iff {limb0 limb1 limb2 : Int} :
    (∃ limbs : ReceiverLimbs, limb0 = limbs.limb0.toNat ∧ limb1 = limbs.limb1.toNat ∧
      limb2 = limbs.limb2.toNat) ↔
      (0 ≤ limb0 ∧ limb0 < 2 ^ 128) ∧ (0 ≤ limb1 ∧ limb1 < 2 ^ 128) ∧
        0 ≤ limb2 ∧ limb2 < 2 ^ 88 := by
  constructor
  · rintro ⟨limbs, rfl, rfl, rfl⟩
    have h2 := limbs.narrow
    exact ⟨exists_word_iff.mp ⟨_, rfl⟩, exists_word_iff.mp ⟨_, rfl⟩, Int.natCast_nonneg _,
      by omega⟩
  · rintro ⟨h0, h1, hnonneg, hfits⟩
    obtain ⟨word0, rfl⟩ := exists_word_iff.mpr h0
    obtain ⟨word1, rfl⟩ := exists_word_iff.mpr h1
    obtain ⟨word2, rfl⟩ := (@exists_word_iff _ 128).mpr ⟨hnonneg, by omega⟩
    exact ⟨⟨word0, word1, word2, by omega⟩, rfl, rfl, rfl⟩

/-- What the engine prints for the limbs of an asset, the Rust decoder prints. -/
theorem limbsToAssetId_returns (limbs : AssetBaseLimbs) :
    Returns (limbsToAssetId limbs.hi.toNat limbs.lo.toNat) (decodeAssetBase limbs).toHex [] := by
  have hhi := limbs.hi.isLt
  have hlo := limbs.lo.isLt
  have hrange : ¬ ((limbs.hi.toNat : Int) < 0 ∨ (limbs.hi.toNat : Int) > maxU128 ∨
      (limbs.lo.toNat : Int) < 0 ∨ (limbs.lo.toNat : Int) > maxU128) := by
    rw [maxU128]
    omega
  have htext : (decodeAssetBase limbs).toHex
      = bufferToHex (toLe 16 limbs.lo.toNat ++ toLe 16 limbs.hi.toNat) := by
    rw [toHex_asset, bufferToHex_eq]
    rfl
  rw [limbsToAssetId, htext]
  simp only [hrange, if_false]
  exact (bigIntToLittleEndianBytes_returns hlo).check
    ((bigIntToLittleEndianBytes_returns hhi).bind_pure _)

theorem limbsToAssetId_accepts_iff (hi lo : Int) :
    (∃ text inputs, Returns (limbsToAssetId hi lo) text inputs) ↔
      ∃ limbs : AssetBaseLimbs, hi = limbs.hi.toNat ∧ lo = limbs.lo.toNat := by
  constructor
  · intro h
    rw [limbsToAssetId] at h
    have hrange := (completes_guard_iff.mp h).1
    rw [maxU128] at hrange
    exact exists_assetLimbs_iff.mpr (by omega)
  · rintro ⟨limbs, rfl, rfl⟩
    exact ⟨_, _, limbsToAssetId_returns limbs⟩

theorem limbsToReceiver_returns (limbs : ReceiverLimbs) :
    Returns (limbsToReceiver limbs.limb0.toNat limbs.limb1.toNat limbs.limb2.toNat)
      (decodeReceiver limbs).toHex [] := by
  have h0 := limbs.limb0.isLt
  have h1 := limbs.limb1.isLt
  have h2 : limbs.limb2.toNat < 256 ^ (10 + 1) := Nat.lt_of_le_of_lt limbs.narrow (by decide)
  have hrange : ¬ ((limbs.limb0.toNat : Int) < 0 ∨ (limbs.limb0.toNat : Int) > maxU128 ∨
      (limbs.limb1.toNat : Int) < 0 ∨ (limbs.limb1.toNat : Int) > maxU128 ∨
      (limbs.limb2.toNat : Int) < 0 ∨ (limbs.limb2.toNat : Int) > maxU88) := by
    rw [maxU128, maxU88]
    omega
  have htext : (decodeReceiver limbs).toHex = bufferToHex (toLe 16 limbs.limb0.toNat
      ++ toLe 16 limbs.limb1.toNat ++ toLe 11 limbs.limb2.toNat) := by
    rw [toHex_receiver, bufferToHex_eq, ← take_toLe 11 16 _ (by decide)]
    rfl
  rw [limbsToReceiver, htext]
  simp only [hrange, if_false]
  exact (bigIntToLittleEndianBytes_returns h0).check
    ((bigIntToLittleEndianBytes_returns h1).check
      ((bigIntToLittleEndianBytes_returns h2).bind_pure _))

theorem limbsToReceiver_accepts_iff (limb0 limb1 limb2 : Int) :
    (∃ text inputs, Returns (limbsToReceiver limb0 limb1 limb2) text inputs) ↔
      ∃ limbs : ReceiverLimbs, limb0 = limbs.limb0.toNat ∧ limb1 = limbs.limb1.toNat ∧
        limb2 = limbs.limb2.toNat := by
  constructor
  · intro h
    rw [limbsToReceiver] at h
    have hrange := (completes_guard_iff.mp h).1
    rw [maxU128, maxU88] at hrange
    exact exists_receiverLimbs_iff.mpr (by omega)
  · rintro ⟨limbs, rfl, rfl, rfl⟩
    exact ⟨_, _, limbsToReceiver_returns limbs⟩

/-- The limbs of an accepted text are those of its asset. -/
theorem assetIdToLimbs_limbs {text : String} {limbs : AssetIdLimbs} {inputs : List (List Fr)}
    (h : Returns (assetIdToLimbs text) limbs inputs) :
    ∃ asset : AssetBaseBytes, asset.toHex = text.toLower ∧
      limbs = ⟨(encodeAssetBase asset).hi.toNat, (encodeAssetBase asset).lo.toNat⟩ := by
  obtain ⟨asset, htext, hsame⟩ := exists_asset (assetIdToLimbs_accepts_iff.mp ⟨_, _, h⟩)
  rw [hsame] at h
  exact ⟨asset, htext, h.value_unique (assetIdToLimbs_toHex asset)⟩

theorem receiverToLimbs_limbs {text : String} {limbs : ReceiverHexLimbs}
    {inputs : List (List Fr)} (h : Returns (receiverToLimbs text) limbs inputs) :
    ∃ receiver : OrchardReceiverBytes, receiver.toHex = text.toLower ∧
      limbs = engineLimbs (encodeReceiver receiver) := by
  obtain ⟨receiver, htext, hsame⟩ := exists_receiver (receiverToLimbs_accepts_iff.mp ⟨_, _, h⟩)
  rw [hsame] at h
  exact ⟨receiver, htext, h.value_unique (receiverToLimbs_toHex receiver)⟩

end Codecs

/-- The engine's limb codecs are inverse. Limbs are printed exactly when they are in range,
and as the Rust decoder prints them; the text printed is read back to the limbs; and the
limbs read from any accepted text are printed as the text in lower case. -/
theorem engine_limb_codecs_inverse :
    ((∀ hi lo : Int, (∃ text inputs, Returns (limbsToAssetId hi lo) text inputs) ↔
        (0 ≤ hi ∧ hi < 2 ^ 128) ∧ 0 ≤ lo ∧ lo < 2 ^ 128) ∧
      (∀ limbs : AssetBaseLimbs, Returns (limbsToAssetId limbs.hi.toNat limbs.lo.toNat)
        (decodeAssetBase limbs).toHex []) ∧
      (∀ hi lo text inputs, Returns (limbsToAssetId hi lo) text inputs →
        Returns (assetIdToLimbs text) ⟨hi, lo⟩ []) ∧
      ∀ text limbs inputs, Returns (assetIdToLimbs text) limbs inputs →
        Returns (limbsToAssetId limbs.hi limbs.lo) text.toLower []) ∧
    (∀ limb0 limb1 limb2 : Int,
        (∃ text inputs, Returns (limbsToReceiver limb0 limb1 limb2) text inputs) ↔
        (0 ≤ limb0 ∧ limb0 < 2 ^ 128) ∧ (0 ≤ limb1 ∧ limb1 < 2 ^ 128) ∧
          0 ≤ limb2 ∧ limb2 < 2 ^ 88) ∧
      (∀ limbs : ReceiverLimbs,
        Returns (limbsToReceiver limbs.limb0.toNat limbs.limb1.toNat limbs.limb2.toNat)
          (decodeReceiver limbs).toHex []) ∧
      (∀ limb0 limb1 limb2 text inputs,
        Returns (limbsToReceiver limb0 limb1 limb2) text inputs →
        Returns (receiverToLimbs text) ⟨limb0, limb1, limb2⟩ []) ∧
      ∀ text limbs inputs, Returns (receiverToLimbs text) limbs inputs →
        Returns (limbsToReceiver limbs.limb0 limbs.limb1 limbs.limb2) text.toLower [] := by
  refine ⟨⟨?_, limbsToAssetId_returns, ?_, ?_⟩, ?_, limbsToReceiver_returns, ?_, ?_⟩
  · intro hi lo
    rw [limbsToAssetId_accepts_iff, exists_assetLimbs_iff]
  · intro hi lo text inputs h
    obtain ⟨limbs, rfl, rfl⟩ := (limbsToAssetId_accepts_iff hi lo).mp ⟨_, _, h⟩
    rw [h.value_unique (limbsToAssetId_returns limbs)]
    have hread := assetIdToLimbs_toHex (decodeAssetBase limbs)
    rwa [encodeAssetBase_decodeAssetBase] at hread
  · intro text limbs inputs h
    obtain ⟨asset, htext, rfl⟩ := assetIdToLimbs_limbs h
    have hprinted := limbsToAssetId_returns (encodeAssetBase asset)
    rwa [decodeAssetBase_encodeAssetBase, htext] at hprinted
  · intro limb0 limb1 limb2
    rw [limbsToReceiver_accepts_iff, exists_receiverLimbs_iff]
  · intro limb0 limb1 limb2 text inputs h
    obtain ⟨limbs, rfl, rfl, rfl⟩ := (limbsToReceiver_accepts_iff limb0 limb1 limb2).mp ⟨_, _, h⟩
    rw [h.value_unique (limbsToReceiver_returns limbs)]
    have hread := receiverToLimbs_toHex (decodeReceiver limbs)
    rwa [encodeReceiver_decodeReceiver] at hread
  · intro text limbs inputs h
    obtain ⟨receiver, htext, rfl⟩ := receiverToLimbs_limbs h
    have hprinted := limbsToReceiver_returns (encodeReceiver receiver)
    rwa [decodeReceiver_encodeReceiver, htext] at hprinted

/-- The low limb is printed before the high one and each from its low byte; an asset and a
receiver of different limbs are printed and read back. -/
theorem engine_limb_codecs_inverse_sample :
    let assetId := "01020000000000000000000000000000"
      ++ "ab000000000000000000000000000000"
    let receiver := "01020000000000000000000000000000"
      ++ "ab000000000000000000000000000000" ++ "00000000000000000000cd"
    (Returns (limbsToAssetId 0xab 0x0201) assetId [] ∧
      Returns (assetIdToLimbs assetId) ⟨0xab, 0x0201⟩ []) ∧
    Returns (limbsToReceiver 0x0201 0xab 0xcd00000000000000000000) receiver [] ∧
      Returns (receiverToLimbs receiver) ⟨0x0201, 0xab, 0xcd00000000000000000000⟩ [] := by
  intro assetId receiver
  have hassetId : (decodeAssetBase ⟨0xab#128, 0x0201#128⟩).toHex = assetId := by decide +kernel
  have hreceiver : (decodeReceiver ⟨0x0201#128, 0xab#128, 0xcd00000000000000000000#128,
      by decide⟩).toHex = receiver := by decide +kernel
  obtain ⟨⟨-, hasset, hassetRead, -⟩, -, hprinted, hread, -⟩ := engine_limb_codecs_inverse
  have hassetPrinted := hasset ⟨0xab#128, 0x0201#128⟩
  have hreceiverPrinted := hprinted ⟨0x0201#128, 0xab#128, 0xcd00000000000000000000#128, by decide⟩
  rw [hassetId] at hassetPrinted
  rw [hreceiver] at hreceiverPrinted
  exact ⟨⟨hassetPrinted, hassetRead _ _ _ _ hassetPrinted⟩, hreceiverPrinted,
    hread _ _ _ _ _ hreceiverPrinted⟩

end ZwaProtocol
