import ZwaProtocol.Circuits.EngineHex
import ZwaProtocol.Circuits.SharedEligibility

/-!
Hexadecimal text as the Rust types and the JavaScript engine read it: both accept the
texts of one length over `[0-9a-fA-F]` and no others, and what is printed again is the
text in lower case.
-/
namespace ZwaProtocol
open HashStaging ByteStrings AsciiText SharedEngine SharedEligibility

/-- `[0-9a-fA-F]`. -/
def IsHexChar (c : Char) : Prop :=
  ('0' ≤ c ∧ c ≤ '9') ∨ ('a' ≤ c ∧ c ≤ 'f') ∨ ('A' ≤ c ∧ c ≤ 'F')

/-- `[0-9a-fA-F]{count}`, from end to end. -/
def HexForm (count : Nat) (text : String) : Prop :=
  text.toList.length = count ∧ ∀ c ∈ text.toList, IsHexChar c

section Characters

theorem isSome_hexValue {c : Char} : (hexValue c).isSome = true ↔ IsHexChar c := by
  unfold hexValue IsHexChar
  split_ifs <;> simp [*]

theorem IsHexChar.ascii (c : Char) (h : IsHexChar c) : c.toNat < 128 := by
  simp only [IsHexChar, Char.le_def, UInt32.le_iff_toNat_le] at h
  have hbound : c.toNat ≤ 102 := by
    obtain ⟨-, h⟩ | ⟨-, h⟩ | ⟨-, h⟩ := h
    · exact Nat.le_trans h (by decide)
    · exact h
    · exact Nat.le_trans h (by decide)
  omega

theorem hexValue_table : ∀ n < 128, (hexValue (Char.ofNat n)).all (fun digit =>
    digit.toNat < 16 && toChar (hexDigit digit) == (Char.ofNat n).toLower) = true := by
  decide

/-- The digit of a character is printed as the character in lower case. -/
theorem hexValue_spec {c : Char} {digit : UInt8} (h : hexValue c = some digit) :
    digit.toNat < 16 ∧ toChar (hexDigit digit) = c.toLower := by
  have hhex : IsHexChar c := isSome_hexValue.mp (by rw [h]; rfl)
  have hentry := hexValue_table c.toNat (IsHexChar.ascii c hhex)
  rw [Char.ofNat_toNat, h] at hentry
  simpa using hentry

theorem nibble_table : ∀ n < 256, nibble (UInt8.ofNat n) = hexValue (toChar (UInt8.ofNat n)) := by
  decide +kernel

/-- The two languages read a digit alike, as a byte and as a character. -/
theorem nibble_eq (byte : UInt8) : nibble byte = hexValue (toChar byte) := by
  have hentry := nibble_table byte.toNat byte.toNat_lt
  rwa [UInt8.ofNat_toNat] at hentry

theorem pair_table : ∀ hi < 16, ∀ lo < 16,
    (UInt8.ofNat hi <<< 4 ||| UInt8.ofNat lo = 16 * UInt8.ofNat hi + UInt8.ofNat lo) ∧
      (16 * UInt8.ofNat hi + UInt8.ofNat lo) >>> 4 = UInt8.ofNat hi ∧
      (16 * UInt8.ofNat hi + UInt8.ofNat lo) &&& 0x0f = UInt8.ofNat lo := by
  decide

/-- A byte of two digits, put together either way and taken apart again. -/
theorem pair_spec {hi lo : UInt8} (hhi : hi.toNat < 16) (hlo : lo.toNat < 16) :
    (hi <<< 4 ||| lo = 16 * hi + lo) ∧ (16 * hi + lo) >>> 4 = hi ∧
      (16 * hi + lo) &&& 0x0f = lo := by
  have hentry := pair_table hi.toNat hhi lo.toNat hlo
  rwa [UInt8.ofNat_toNat, UInt8.ofNat_toNat] at hentry

end Characters

section Bytes

/-- What is left of an even list that does not start with a pair. -/
theorem eq_nil_of_not_pair {α : Type} {list : List α} (even : list.length % 2 = 0)
    (other : ∀ first second rest, list = first :: second :: rest → False) : list = [] := by
  match list, other with
  | [], _ => rfl
  | [_], _ => simp at even
  | first :: second :: rest, other => exact (other first second rest rfl).elim

theorem even_rest {α : Type} {first second : α} {rest : List α}
    (even : (first :: second :: rest).length % 2 = 0) : rest.length % 2 = 0 := by
  simp only [List.length_cons] at even
  omega

theorem decodePairs_pair {first second : UInt8} {rest out : List UInt8} :
    decodePairs (first :: second :: rest) = some out ↔
      ∃ hi lo tail, nibble first = some hi ∧ nibble second = some lo ∧
        decodePairs rest = some tail ∧ out = (hi <<< 4 ||| lo) :: tail := by
  simp only [decodePairs, bind, pure, Option.bind_eq_some_iff, Option.some.injEq]
  constructor
  · rintro ⟨hi, hhi, lo, hlo, tail, htail, rfl⟩
    exact ⟨hi, lo, tail, hhi, hlo, htail, rfl⟩
  · rintro ⟨hi, lo, tail, hhi, hlo, htail, rfl⟩
    exact ⟨hi, hhi, lo, hlo, tail, htail, rfl⟩

theorem length_decodePairs {bytes out : List UInt8} (h : decodePairs bytes = some out) :
    out.length = bytes.length / 2 := by
  induction bytes using decodePairs.induct generalizing out with
  | case1 first second rest ih =>
      obtain ⟨hi, lo, tail, -, -, htail, rfl⟩ := decodePairs_pair.mp h
      have hrest := ih htail
      simp only [List.length_cons, hrest]
      omega
  | case2 bytes other =>
      match bytes, other with
      | [], _ => cases h; rfl
      | [_], _ => cases h; simp
      | first :: second :: rest, other => exact absurd rfl (other first second rest)

/-- The pairs of an even number of bytes decode where all of them are digits, and to the
bytes that the other engine reads. -/
theorem decodePairs_eq_some {bytes out : List UInt8} (even : bytes.length % 2 = 0) :
    decodePairs bytes = some out ↔
      (∀ byte ∈ bytes, IsHexChar (toChar byte)) ∧ out = bufferFromHex (bytes.map toChar) := by
  induction bytes using decodePairs.induct generalizing out with
  | case1 first second rest ih =>
      have hrest := even_rest even
      rw [decodePairs_pair]
      simp only [List.forall_mem_cons, ← isSome_hexValue, nibble_eq] at ih ⊢
      constructor
      · rintro ⟨hi, lo, tail, hhi, hlo, htail, rfl⟩
        obtain ⟨hdigits, rfl⟩ := (ih hrest).mp htail
        obtain ⟨hpair, -⟩ := pair_spec (hexValue_spec hhi).1 (hexValue_spec hlo).1
        refine ⟨⟨by simp [hhi], by simp [hlo], hdigits⟩, ?_⟩
        simp only [List.map_cons, bufferFromHex, hhi, hlo, hpair]
      · rintro ⟨⟨hfirst, hsecond, hdigits⟩, rfl⟩
        obtain ⟨hi, hhi⟩ := Option.isSome_iff_exists.mp hfirst
        obtain ⟨lo, hlo⟩ := Option.isSome_iff_exists.mp hsecond
        obtain ⟨hpair, -⟩ := pair_spec (hexValue_spec hhi).1 (hexValue_spec hlo).1
        refine ⟨hi, lo, _, hhi, hlo, (ih hrest).mpr ⟨hdigits, rfl⟩, ?_⟩
        simp only [List.map_cons, bufferFromHex, hhi, hlo, hpair]
  | case2 bytes other =>
      rw [eq_nil_of_not_pair even other]
      simp [decodePairs, bufferFromHex, eq_comm]

/-- Printing the bytes of a text in lower case gives the text in lower case. -/
theorem encodeHex_bufferFromHex {chars : List Char} (even : chars.length % 2 = 0)
    (hex : ∀ c ∈ chars, IsHexChar c) :
    (encodeHex (bufferFromHex chars)).map toChar = chars.map Char.toLower ∧
      (bufferFromHex chars).length * 2 = chars.length := by
  induction chars using bufferFromHex.induct with
  | case1 first second rest hi lo hlo hhi ih =>
      have hrest := even_rest even
      simp only [List.forall_mem_cons] at hex
      obtain ⟨hfirst, hsecond, hdigits⟩ := hex
      obtain ⟨hsmall, hprinted⟩ := hexValue_spec hhi
      obtain ⟨hsmall', hprinted'⟩ := hexValue_spec hlo
      obtain ⟨-, hhigh, hlow⟩ := pair_spec hsmall hsmall'
      obtain ⟨htext, hlength⟩ := ih hrest hdigits
      simp only [bufferFromHex, hhi, hlo]
      constructor
      · rw [encodeHex_cons, hhigh, hlow]
        simp only [List.map_cons, hprinted, hprinted', htext]
      · simp only [List.length_cons, ← hlength]
        omega
  | case2 first second rest notDigits =>
      simp only [List.forall_mem_cons, ← isSome_hexValue] at hex
      obtain ⟨hfirst, hsecond, -⟩ := hex
      obtain ⟨hi, hhi⟩ := Option.isSome_iff_exists.mp hfirst
      obtain ⟨lo, hlo⟩ := Option.isSome_iff_exists.mp hsecond
      exact (notDigits hi lo hhi hlo).elim
  | case3 chars other =>
      rw [eq_nil_of_not_pair even other]
      exact ⟨rfl, rfl⟩

end Bytes

section Texts
variable {text : String}

theorem decodeHex_eq (text : String) :
    decodeHex text = if text.toUTF8.toList.length % 2 = 0 then decodePairs text.toUTF8.toList
      else none := rfl

/-- The texts that decode, and their bytes. -/
theorem decodeHex_eq_some {out : List UInt8} :
    decodeHex text = some out ↔
      HexForm (2 * out.length) text ∧ out = bufferFromHex text.toList := by
  have hchars := forall_toUTF8_iff IsHexChar.ascii text
  rw [decodeHex_eq, HexForm]
  constructor
  · intro h
    split at h
    · next even =>
        obtain ⟨hbytes, hout⟩ := (decodePairs_eq_some even).mp h
        have hhex := hchars.mp hbytes
        rw [map_toChar_toUTF8 fun c hc => IsHexChar.ascii c (hhex c hc)] at hout
        have hlength := congrArg List.length
          (map_toChar_toUTF8 fun c hc => IsHexChar.ascii c (hhex c hc))
        rw [List.length_map] at hlength
        obtain ⟨-, hpairs⟩ := encodeHex_bufferFromHex (hlength ▸ even) hhex
        exact ⟨⟨by rw [hout, ← hpairs, Nat.mul_comm], hhex⟩, hout⟩
    · exact absurd h (by simp)
  · rintro ⟨⟨hlength, hhex⟩, hout⟩
    have hmap := map_toChar_toUTF8 fun c hc => IsHexChar.ascii c (hhex c hc)
    have heven : text.toUTF8.toList.length % 2 = 0 := by
      rw [← List.length_map (f := toChar), hmap, hlength]
      exact Nat.mul_mod_right 2 _
    rw [if_pos heven, decodePairs_eq_some heven, hmap]
    exact ⟨hchars.mpr hhex, hout⟩

theorem length_decodeHex {out : List UInt8} (h : decodeHex text = some out) :
    out.length = text.utf8ByteSize / 2 := by
  rw [decodeHex_eq] at h
  split at h
  · rw [length_decodePairs h, length_toUTF8]
  · exact absurd h (by simp)

theorem decodeHex_hexText (bytes : List UInt8) : decodeHex (hexText bytes) = some bytes := by
  have hall := List.all_eq_true.mp (hexText_all_hex bytes)
  refine decodeHex_eq_some.mpr ⟨⟨?_, fun c hc => isSome_hexValue.mp (hall c hc)⟩, ?_⟩
  · rw [length_hexText, Nat.mul_comm]
  · rw [bufferFromHex_hexText]

/-- What was decoded is printed as the text in lower case. -/
theorem hexText_of_decodeHex {out : List UInt8} (h : decodeHex text = some out) :
    hexText out = text.toLower := by
  obtain ⟨⟨hlength, hhex⟩, rfl⟩ := decodeHex_eq_some.mp h
  have heven : text.toList.length % 2 = 0 := hlength ▸ Nat.mul_mod_right 2 _
  obtain ⟨hprinted, -⟩ := encodeHex_bufferFromHex heven hhex
  have hlower : text.toLower.toList = text.toList.map Char.toLower := String.toList_map
  rw [← String.toList_inj, toList_hexText, hprinted, hlower]

end Texts

section FixedWidth
variable {α : Type} {width : Nat} (wrap : List.Vector UInt8 width → α)
  (invalid : Nat → ProtocolError)

/-- Both `from_hex` of the source: decode, then check the length. -/
def readHex (text : String) : Result α :=
  match decodeHex text with
  | some bytes =>
      if h : bytes.length = width then .ok (wrap ⟨bytes, h⟩) else .error (invalid bytes.length)
  | none => .error (invalid (text.utf8ByteSize / 2))

theorem readHex_eq_ok {text : String} {value : α} :
    readHex wrap invalid text = .ok value ↔
      ∃ bytes : List.Vector UInt8 width, decodeHex text = some bytes.toList ∧
        wrap bytes = value := by
  unfold readHex
  constructor
  · intro h
    split at h
    · next bytes hbytes =>
        split at h
        · next hlength => exact ⟨⟨bytes, hlength⟩, hbytes, Except.ok.inj h⟩
        · exact absurd h (by simp)
    · exact absurd h (by simp)
  · rintro ⟨bytes, hbytes, rfl⟩
    rw [hbytes]
    exact dif_pos bytes.toList_length

theorem readHex_accepts_iff (text : String) :
    (∃ value, readHex wrap invalid text = .ok value) ↔ HexForm (2 * width) text := by
  constructor
  · rintro ⟨value, h⟩
    obtain ⟨bytes, hbytes, -⟩ := (readHex_eq_ok wrap invalid).mp h
    have hform := (decodeHex_eq_some.mp hbytes).1
    rwa [bytes.toList_length] at hform
  · rintro ⟨hlength, hhex⟩
    have hpairs := (encodeHex_bufferFromHex (hlength ▸ Nat.mul_mod_right 2 _) hhex).2
    have hwidth : (bufferFromHex text.toList).length = width := by omega
    let bytes : List.Vector UInt8 width := ⟨bufferFromHex text.toList, hwidth⟩
    have hdecoded : decodeHex text = some bytes.toList :=
      decodeHex_eq_some.mpr ⟨⟨by rw [bytes.toList_length, hlength], hhex⟩, rfl⟩
    exact ⟨wrap bytes, (readHex_eq_ok wrap invalid).mpr ⟨bytes, hdecoded, rfl⟩⟩

/-- Every rejection reports half the bytes of the text. -/
theorem readHex_rejects {text : String} (h : ¬ HexForm (2 * width) text) :
    readHex wrap invalid text = .error (invalid (text.utf8ByteSize / 2)) := by
  have hnone := (readHex_accepts_iff wrap invalid text).not.mpr h
  unfold readHex at hnone ⊢
  split
  · next bytes hbytes =>
      simp only [hbytes] at hnone
      split
      · next hlength => exact absurd ⟨_, dif_pos hlength⟩ hnone
      · rw [length_decodeHex hbytes]
  · rfl

end FixedWidth

section Engine
variable {text : String}

/-- The test of the engine, whatever the number of bytes it asks for. -/
theorem hexTest_iff (count : Nat) :
    (text.toList.length = count ∧ text.toList.all (fun c => (hexValue c).isSome) = true) ↔
      HexForm count text := by
  simp only [HexForm, List.all_eq_true, isSome_hexValue]

theorem assertHexBytes_of_form {length : Nat} (h : HexForm (length * 2) text) (label : String) :
    assertHexBytes text length label = pure () :=
  if_pos ((hexTest_iff _).mpr h)

theorem assertHexBytes_of_not_form {length : Nat} (h : ¬ HexForm (length * 2) text)
    (label : String) : ∃ message, assertHexBytes text length label = throw message :=
  ⟨_, if_neg ((hexTest_iff _).not.mpr h)⟩

theorem assetIdToLimbs_accepts_iff :
    (∃ limbs inputs, Returns (assetIdToLimbs text) limbs inputs) ↔ HexForm 64 text := by
  constructor
  · rintro ⟨limbs, inputs, h⟩
    by_contra hform
    have hother : ¬ HexForm (32 * 2) text := hform
    obtain ⟨message, hthrow⟩ := assertHexBytes_of_not_form hother "canonical AssetBase encoding"
    rw [assetIdToLimbs, hthrow] at h
    exact not_returns_throw h
  · intro hform
    have hassert := assertHexBytes_of_form (show HexForm (32 * 2) text from hform)
    have hbound (bytes : List UInt8) (h : bytes.length ≤ 16) :
        ¬ littleEndianBytesToBigInt bytes > maxU128 := by
      have hlt := (littleEndianU128 bytes).isLt
      rw [littleEndian_half bytes h, maxU128]
      omega
    have hlo := hbound ((bufferFromHex text.toList).take 16) (by simp)
    have hhi := hbound (((bufferFromHex text.toList).drop 16).take 16) (by simp)
    refine ⟨⟨littleEndianBytesToBigInt (((bufferFromHex text.toList).drop 16).take 16),
      littleEndianBytesToBigInt ((bufferFromHex text.toList).take 16)⟩, [], ?_⟩
    simp only [assetIdToLimbs, hassert, hlo, hhi, or_self, if_false]
    exact (Returns.pure ()).bind_pure _

theorem receiverToLimbs_accepts_iff :
    (∃ limbs inputs, Returns (receiverToLimbs text) limbs inputs) ↔ HexForm 86 text := by
  rw [← hexTest_iff, receiverToLimbs]
  by_cases htest : text.toList.length = 86 ∧
      text.toList.all (fun c => (hexValue c).isSome) = true
  · rw [if_neg (not_not.mpr htest)]
    exact iff_of_true ⟨_, _, Returns.pure _⟩ htest
  · rw [if_pos htest]
    refine iff_of_false ?_ htest
    rintro ⟨limbs, inputs, h⟩
    exact not_returns_throw h

end Engine

/-- The rejected texts: hexadecimal text is ASCII, one byte a character. -/
theorem HexForm.ascii_even {count : Nat} {text : String} (h : HexForm (2 * count) text) :
    (∀ c ∈ text.toList, c.toNat < 128) ∧ text.utf8ByteSize = 2 * count := by
  obtain ⟨hlength, hhex⟩ := h
  have hascii (c : Char) (hc : c ∈ text.toList) : c.toNat < 128 := IsHexChar.ascii c (hhex c hc)
  refine ⟨hascii, ?_⟩
  rw [← length_toUTF8, ← List.length_map (f := toChar), map_toChar_toUTF8 hascii, hlength]

/-- Hexadecimal parsing accepts the fixed-length hexadecimal texts, the ones that the
JavaScript engine accepts, and undoes printing up to case. Every other text is rejected
with half its bytes, among them all texts that are not ASCII or of odd length. -/
theorem hex_parsing_exact (text : String) :
    (((∃ asset, AssetBaseBytes.fromHex text = .ok asset) ↔ HexForm 64 text) ∧
      ((∃ limbs inputs, Returns (assetIdToLimbs text) limbs inputs) ↔ HexForm 64 text) ∧
      (∀ asset, AssetBaseBytes.fromHex text = .ok asset → asset.toHex = text.toLower) ∧
      (¬ HexForm 64 text →
        AssetBaseBytes.fromHex text = .error (.invalidAssetBase (text.utf8ByteSize / 2)))) ∧
    (((∃ receiver, OrchardReceiverBytes.fromHex text = .ok receiver) ↔ HexForm 86 text) ∧
      ((∃ limbs inputs, Returns (receiverToLimbs text) limbs inputs) ↔ HexForm 86 text) ∧
      (∀ receiver, OrchardReceiverBytes.fromHex text = .ok receiver →
        receiver.toHex = text.toLower) ∧
      (¬ HexForm 86 text →
        OrchardReceiverBytes.fromHex text = .error (.invalidReceiver (text.utf8ByteSize / 2)))) ∧
    (∀ asset : AssetBaseBytes, AssetBaseBytes.fromHex asset.toHex = .ok asset) ∧
    (∀ receiver : OrchardReceiverBytes,
      OrchardReceiverBytes.fromHex receiver.toHex = .ok receiver) ∧
    ((∃ c ∈ text.toList, 128 ≤ c.toNat) ∨ text.utf8ByteSize % 2 = 1 →
      ¬ HexForm 64 text ∧ ¬ HexForm 86 text) := by
  have hasset : AssetBaseBytes.fromHex = readHex AssetBaseBytes.mk .invalidAssetBase := rfl
  have hreceiver : OrchardReceiverBytes.fromHex
      = readHex OrchardReceiverBytes.mk .invalidReceiver := rfl
  rw [hasset, hreceiver]
  refine ⟨⟨readHex_accepts_iff AssetBaseBytes.mk .invalidAssetBase text,
      assetIdToLimbs_accepts_iff, ?_, readHex_rejects AssetBaseBytes.mk .invalidAssetBase⟩,
    ⟨readHex_accepts_iff OrchardReceiverBytes.mk .invalidReceiver text,
      receiverToLimbs_accepts_iff, ?_, readHex_rejects OrchardReceiverBytes.mk .invalidReceiver⟩,
    ?_, ?_, ?_⟩
  · intro asset h
    obtain ⟨bytes, hdecoded, rfl⟩ := (readHex_eq_ok _ _).mp h
    rw [toHex_asset]
    exact hexText_of_decodeHex hdecoded
  · intro receiver h
    obtain ⟨bytes, hdecoded, rfl⟩ := (readHex_eq_ok _ _).mp h
    rw [toHex_receiver]
    exact hexText_of_decodeHex hdecoded
  · intro asset
    rw [toHex_asset]
    exact (readHex_eq_ok _ _).mpr ⟨asset.bytes, decodeHex_hexText _, rfl⟩
  · intro receiver
    rw [toHex_receiver]
    exact (readHex_eq_ok _ _).mpr ⟨receiver.bytes, decodeHex_hexText _, rfl⟩
  · intro hother
    have hrejected (count : Nat) : ¬ HexForm (2 * count) text := by
      intro hform
      obtain ⟨hascii, hsize⟩ := hform.ascii_even
      obtain ⟨c, hc, hlarge⟩ | hodd := hother
      · exact Nat.not_le.mpr (hascii c hc) hlarge
      · omega
    exact ⟨hrejected 32, hrejected 43⟩

end ZwaProtocol
