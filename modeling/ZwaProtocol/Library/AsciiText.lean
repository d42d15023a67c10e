import Mathlib.Init

/-!
Strings of ASCII bytes. Below 128 a byte is its own UTF-8 encoding, and every byte of a
longer encoding is above, so a text is ASCII when its bytes are and then has the same
bytes as characters.
-/

namespace AsciiText

def toChar (byte : UInt8) : Char := Char.ofNat byte.toNat

theorem toChar_val (byte : UInt8) : (toChar byte).val = byte.toUInt32 := by
  have hvalid : byte.toNat.isValidChar := Or.inl (by have := byte.toNat_lt; omega)
  rw [toChar, Char.ofNat, dif_pos hvalid]
  exact UInt32.toNat_inj.mp (UInt8.toNat_toUInt32 byte).symm

theorem utf8EncodeChar_toChar {byte : UInt8} (h : byte < 128) :
    String.utf8EncodeChar (toChar byte) = [byte] := by
  have hsize : (toChar byte).utf8Size = 1 := by
    rw [Char.utf8Size_eq_one_iff, toChar_val, UInt32.le_iff_toNat_le]
    rw [UInt8.lt_iff_toNat_lt] at h
    exact Nat.le_of_lt_succ h
  rw [String.utf8EncodeChar_eq_singleton hsize, toChar_val]
  simp

theorem flatMap_map_toChar {bytes : List UInt8} (h : ∀ byte ∈ bytes, byte < 128) :
    (bytes.map toChar).flatMap String.utf8EncodeChar = bytes := by
  induction bytes with
  | nil => rfl
  | cons byte bytes ih =>
      rw [List.map_cons, List.flatMap_cons, utf8EncodeChar_toChar (h byte List.mem_cons_self),
        ih fun b hb => h b (List.mem_cons_of_mem _ hb)]
      rfl

theorem utf8Encode_map_toChar {bytes : List UInt8} (h : ∀ byte ∈ bytes, byte < 128) :
    (bytes.map toChar).utf8Encode = bytes.toByteArray := by
  rw [List.utf8Encode, flatMap_map_toChar h]

/-- The text of ASCII bytes. -/
theorem fromUTF8?_ascii {bytes : List UInt8} (h : ∀ byte ∈ bytes, byte < 128) :
    String.fromUTF8? ⟨bytes.toArray⟩ = some (String.ofList (bytes.map toChar)) := by
  have hbytes : (⟨bytes.toArray⟩ : ByteArray) = bytes.toByteArray :=
    ByteArray.ext List.data_toByteArray.symm
  have hencode : (String.ofList (bytes.map toChar)).toByteArray = bytes.toByteArray := by
    rw [String.toByteArray_ofList, utf8Encode_map_toChar h]
  rw [hbytes, ← hencode, String.fromUTF8?, dif_pos (String.isValidUTF8 _)]
  rfl

/-- The loop behind `ByteArray.toList` lists the bytes it has not reached yet. -/
theorem toList_loop (bytes : ByteArray) (i : Nat) (acc : List UInt8) :
    ByteArray.toList.loop bytes i acc = acc.reverse ++ bytes.data.toList.drop i := by
  fun_induction ByteArray.toList.loop bytes i acc with
  | case1 i acc inside ih =>
      have hlt : i < bytes.data.toList.length := by simpa using inside
      have hbyte : bytes.get! i = bytes.data.toList[i] := by
        rw [ByteArray.get!, Array.getElem_toList]
        exact getElem!_pos bytes.data i inside
      rw [ih, List.reverse_cons, List.append_assoc, List.drop_eq_getElem_cons hlt, hbyte]
      rfl
  | case2 i acc outside =>
      have hle : bytes.data.toList.length ≤ i := by simpa using outside
      rw [List.drop_eq_nil_of_le hle, List.append_nil]

theorem toList_eq_data (bytes : ByteArray) : bytes.toList = bytes.data.toList := by
  rw [ByteArray.toList, toList_loop]
  rfl

theorem length_toUTF8 (text : String) : text.toUTF8.toList.length = text.utf8ByteSize := by
  rw [toList_eq_data, Array.length_toList]
  rfl

theorem toList_toUTF8 (text : String) :
    text.toUTF8.toList = text.toList.flatMap String.utf8EncodeChar := by
  have hbytes : text.toByteArray = (text.toList.flatMap String.utf8EncodeChar).toByteArray := by
    rw [← List.utf8Encode, ← String.toByteArray_ofList, String.ofList_toList]
  rw [String.toUTF8_eq_toByteArray, hbytes, toList_eq_data, List.toList_data_toByteArray]

theorem utf8EncodeChar_ascii {c : Char} (h : c.toNat < 128) :
    String.utf8EncodeChar c = [UInt8.ofNat c.toNat] := by
  have hle : c.val.toNat ≤ 127 := Nat.le_of_lt_succ h
  rw [String.utf8EncodeChar]
  exact if_pos hle

/-- Every byte of an encoding that takes more than one has its top bit set. -/
theorem le_of_mem_utf8EncodeChar {c : Char} (h : 128 ≤ c.toNat) :
    ∀ byte ∈ String.utf8EncodeChar c, 128 ≤ byte := by
  have htop {low bound : Nat} (base : Nat) (hlow : low < bound) (hbase : 128 ≤ base)
      (hsum : base + bound ≤ 256) : 128 ≤ UInt8.ofNat (low + base) := by
    have hsmall : low + base < UInt8.size := by simp only [UInt8.size]; omega
    rw [UInt8.le_iff_toNat_le, UInt8.toNat_ofNat_of_lt' hsmall]
    exact Nat.le_trans hbase (Nat.le_add_left _ _)
  intro byte hbyte
  revert hbyte
  fun_cases String.utf8EncodeChar c with
  | case1 v hle => exact absurd hle (Nat.not_le.mpr h)
  | case2 =>
      simp only [List.mem_cons, List.not_mem_nil, or_false]
      rintro (rfl | rfl)
      · exact htop 0xc0 (Nat.mod_lt _ (by decide)) (by decide) (by decide)
      · exact htop 0x80 (Nat.mod_lt _ (by decide)) (by decide) (by decide)
  | case3 =>
      simp only [List.mem_cons, List.not_mem_nil, or_false]
      rintro (rfl | rfl | rfl)
      · exact htop 0xe0 (Nat.mod_lt _ (by decide)) (by decide) (by decide)
      all_goals exact htop 0x80 (Nat.mod_lt _ (by decide)) (by decide) (by decide)
  | case4 =>
      simp only [List.mem_cons, List.not_mem_nil, or_false]
      rintro (rfl | rfl | rfl | rfl)
      · exact htop 0xf0 (Nat.mod_lt _ (by decide)) (by decide) (by decide)
      all_goals exact htop 0x80 (Nat.mod_lt _ (by decide)) (by decide) (by decide)

theorem toNat_toChar (byte : UInt8) : (toChar byte).toNat = byte.toNat := by
  rw [Char.toNat, toChar_val]
  exact UInt8.toNat_toUInt32 byte

theorem toChar_ofNat {c : Char} (h : c.toNat < 128) : toChar (UInt8.ofNat c.toNat) = c := by
  have hbyte : (UInt8.ofNat c.toNat).toNat = c.toNat :=
    UInt8.toNat_ofNat_of_lt' (Nat.lt_trans h (by decide))
  rw [toChar, hbyte, Char.ofNat_toNat]

/-- A text is ASCII when its characters are. -/
theorem ascii_iff (text : String) :
    (∀ byte ∈ text.toUTF8.toList, byte < 128) ↔ ∀ c ∈ text.toList, c.toNat < 128 := by
  rw [toList_toUTF8]
  constructor
  · intro hbytes c hc
    refine Nat.lt_of_not_le (fun hlarge => ?_)
    obtain ⟨byte, hbyte⟩ := List.exists_mem_of_ne_nil _ (String.utf8EncodeChar_ne_nil (c := c))
    have hsmall := hbytes byte (List.mem_flatMap.mpr ⟨c, hc, hbyte⟩)
    exact UInt8.not_lt.mpr (le_of_mem_utf8EncodeChar hlarge byte hbyte) hsmall
  · intro hchars byte hbyte
    obtain ⟨c, hc, hbyte⟩ := List.mem_flatMap.mp hbyte
    have hsmall := hchars c hc
    rw [utf8EncodeChar_ascii hsmall, List.mem_singleton] at hbyte
    rw [hbyte, UInt8.lt_iff_toNat_lt, UInt8.toNat_ofNat_of_lt' (Nat.lt_trans hsmall (by decide))]
    exact hsmall

theorem map_toChar_flatMap {chars : List Char} (h : ∀ c ∈ chars, c.toNat < 128) :
    (chars.flatMap String.utf8EncodeChar).map toChar = chars := by
  induction chars with
  | nil => rfl
  | cons c chars ih =>
      have hc := h c List.mem_cons_self
      rw [List.flatMap_cons, List.map_append, ih fun c hc => h c (List.mem_cons_of_mem _ hc),
        utf8EncodeChar_ascii hc, List.map_singleton, toChar_ofNat hc]
      rfl

/-- The bytes of an ASCII text are its characters. -/
theorem map_toChar_toUTF8 {text : String} (h : ∀ c ∈ text.toList, c.toNat < 128) :
    text.toUTF8.toList.map toChar = text.toList := by
  rw [toList_toUTF8, map_toChar_flatMap h]

/-- A property of ASCII characters holds of the bytes of a text where it holds of its
characters. -/
theorem forall_toUTF8_iff {p : Char → Prop} (ascii : ∀ c, p c → c.toNat < 128) (text : String) :
    (∀ byte ∈ text.toUTF8.toList, p (toChar byte)) ↔ ∀ c ∈ text.toList, p c := by
  constructor
  · intro hbytes c hc
    have hsmall (byte : UInt8) (hbyte : byte ∈ text.toUTF8.toList) : byte < 128 := by
      rw [UInt8.lt_iff_toNat_lt, ← toNat_toChar]
      exact ascii _ (hbytes byte hbyte)
    rw [← map_toChar_toUTF8 ((ascii_iff text).mp hsmall)] at hc
    obtain ⟨byte, hbyte, rfl⟩ := List.mem_map.mp hc
    exact hbytes byte hbyte
  · intro hchars byte hbyte
    apply hchars
    rw [← map_toChar_toUTF8 fun c hc => ascii c (hchars c hc)]
    exact List.mem_map_of_mem hbyte

end AsciiText
