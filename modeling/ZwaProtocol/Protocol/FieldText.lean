import ZwaProtocol.Library.AsciiText
import ZwaProtocol.Library.DecimalText
import ZwaProtocol.Protocol.Values

/-!
The decimal text form of field elements. The parsing loop holds the number of the digits
it has read until that number outgrows the limbs, and the printing loop writes the
numeral of the number it was given.
-/
namespace ZwaProtocol
open ByteStrings AsciiText DecimalText

/-- The number that digits denote, read behind `init`. -/
def digitsNat (digits : List UInt8) (init : Nat) : Nat :=
  Nat.ofDigitChars 10 (digits.map toChar) init

namespace FieldElement

section Digits

theorem isAsciiDigit_iff {byte : UInt8} :
    isAsciiDigit byte = true ↔ 48 ≤ byte.toNat ∧ byte.toNat ≤ 57 := by
  rw [isAsciiDigit, Bool.and_eq_true, decide_eq_true_eq, decide_eq_true_eq,
    UInt8.le_iff_toNat_le, UInt8.le_iff_toNat_le]
  rfl

theorem isDigit_toChar (byte : UInt8) : (toChar byte).isDigit = isAsciiDigit byte := by
  rw [Bool.eq_iff_iff, Char.isDigit_iff_toNat, isAsciiDigit_iff, toNat_toChar]
  rfl

theorem ascii_of_isAsciiDigit {byte : UInt8} (h : isAsciiDigit byte = true) : byte < 128 := by
  have hbound := (isAsciiDigit_iff.mp h).2
  rw [UInt8.lt_iff_toNat_lt]
  exact Nat.lt_of_le_of_lt hbound (by decide)

theorem toNat_digit {byte : UInt8} (h : isAsciiDigit byte = true) :
    (byte - 0x30).toUInt64.toNat = (toChar byte).toNat - '0'.toNat := by
  obtain ⟨hlow, -⟩ := isAsciiDigit_iff.mp h
  have hle : (0x30 : UInt8) ≤ byte := UInt8.le_iff_toNat_le.mpr hlow
  rw [UInt8.toNat_toUInt64, UInt8.toNat_sub_of_le _ _ hle, toNat_toChar]
  rfl

theorem ascii_of_isDigit (c : Char) (h : c.isDigit) : c.toNat < 128 :=
  Nat.lt_of_le_of_lt (Char.isDigit_iff_toNat.mp h).2 (by decide)

/-- The digits of a text, as bytes and as characters. -/
theorem all_isAsciiDigit_iff (text : String) :
    (∀ byte ∈ text.toUTF8.toList, isAsciiDigit byte = true) ↔ ∀ c ∈ text.toList, c.isDigit := by
  simp only [← isDigit_toChar]
  exact forall_toUTF8_iff ascii_of_isDigit text

theorem digitsNat_toUTF8 {text : String} (h : ∀ c ∈ text.toList, c.isDigit) :
    digitsNat text.toUTF8.toList 0 = Nat.ofDigitChars 10 text.toList 0 := by
  rw [digitsNat, map_toChar_toUTF8 fun c hc => ascii_of_isDigit c (h c hc)]

end Digits

section Parsing

/-- One round of the parsing loop. -/
def absorbDigit (limbs : Limbs) (byte : UInt8) : Result Limbs :=
  match mulAddSmall limbs 10 (byte - 0x30).toUInt64 with
  | (limbs, some ()) => pure limbs
  | (_, none) => throw (.invalidFieldEncoding .decimalOverflow)

theorem fromDecimalStr_eq (text : String) :
    fromDecimalStr text =
      if text.toUTF8.toList.isEmpty || !text.toUTF8.toList.all isAsciiDigit then
        .error (.invalidFieldEncoding .notDecimal)
      else (text.toUTF8.toList.foldlM absorbDigit Limbs.zero).bind
        fun limbs => fromBeBytes (limbsToBeBytes limbs) := by
  rw [fromDecimalStr]
  split <;> rfl

theorem absorbDigit_spec (limbs : Limbs) {byte : UInt8} (h : isAsciiDigit byte = true) :
    (2 ^ 256 ≤ digitsNat [byte] limbs.toNat →
      absorbDigit limbs byte = .error (.invalidFieldEncoding .decimalOverflow)) ∧
    (digitsNat [byte] limbs.toNat < 2 ^ 256 →
      ∃ reached, absorbDigit limbs byte = .ok reached ∧
        reached.toNat = digitsNat [byte] limbs.toNat) := by
  obtain ⟨hvalue, hfits⟩ := mulAddSmall_spec limbs 10 (byte - 0x30).toUInt64
  have hdigits : digitsNat [byte] limbs.toNat
      = limbs.toNat * (10 : UInt64).toNat + (byte - 0x30).toUInt64.toNat := by
    rw [digitsNat, List.map_singleton, Nat.ofDigitChars_cons, Nat.ofDigitChars_nil, toNat_digit h,
      Nat.mul_comm]
    rfl
  rw [hdigits, absorbDigit]
  constructor
  · intro hlarge
    have hnone : (mulAddSmall limbs 10 (byte - 0x30).toUInt64).2 = none := by
      cases hresult : (mulAddSmall limbs 10 (byte - 0x30).toUInt64).2 with
      | none => rfl
      | some _ => exact absurd (hfits.mp hresult) (Nat.not_lt.mpr hlarge)
    rw [← Prod.mk.eta (p := mulAddSmall limbs 10 (byte - 0x30).toUInt64), hnone]
    rfl
  · intro hsmall
    rw [← Prod.mk.eta (p := mulAddSmall limbs 10 (byte - 0x30).toUInt64), hfits.mpr hsmall]
    exact ⟨_, rfl, hvalue.trans (Nat.mod_eq_of_lt hsmall)⟩

theorem digitsNat_cons (byte : UInt8) (digits : List UInt8) (init : Nat) :
    digitsNat (byte :: digits) init = digitsNat digits (digitsNat [byte] init) := by
  rw [digitsNat, List.map_cons, Nat.ofDigitChars_cons]
  rfl

/-- The loop fails at the first digit that outgrows the limbs, and a number that has
outgrown them never comes back; otherwise it ends with the number of the digits. -/
theorem foldlM_absorbDigit {digits : List UInt8} (h : ∀ byte ∈ digits, isAsciiDigit byte = true)
    (limbs : Limbs) :
    (2 ^ 256 ≤ digitsNat digits limbs.toNat →
      digits.foldlM absorbDigit limbs = .error (.invalidFieldEncoding .decimalOverflow)) ∧
    (digitsNat digits limbs.toNat < 2 ^ 256 →
      ∃ reached, digits.foldlM absorbDigit limbs = .ok reached ∧
        reached.toNat = digitsNat digits limbs.toNat) := by
  induction digits generalizing limbs with
  | nil =>
      constructor
      · intro hlarge
        exact absurd limbs.toNat_lt (Nat.not_lt.mpr hlarge)
      · intro _
        exact ⟨limbs, rfl, rfl⟩
  | cons byte digits ih =>
      obtain ⟨hoverflow, hfits⟩ := absorbDigit_spec limbs (h byte List.mem_cons_self)
      rw [digitsNat_cons, List.foldlM_cons]
      by_cases hfirst : digitsNat [byte] limbs.toNat < 2 ^ 256
      · obtain ⟨reached, hreached, hvalue⟩ := hfits hfirst
        have hrest := ih (fun digit hdigit => h digit (List.mem_cons_of_mem _ hdigit)) reached
        rw [hvalue] at hrest
        rw [hreached]
        exact hrest
      · have hgrows : digitsNat [byte] limbs.toNat
            ≤ digitsNat digits (digitsNat [byte] limbs.toNat) := le_ofDigitChars _ _
        rw [hoverflow (Nat.le_of_not_lt hfirst)]
        exact ⟨fun _ => rfl, fun hsmall => absurd (Nat.lt_of_le_of_lt hgrows hsmall) hfirst⟩

theorem fromBeBytes_limbs_of_lt {limbs : Limbs} (h : limbs.toNat < modulus) :
    fromBeBytes (limbsToBeBytes limbs) = .ok (ofNat limbs.toNat h) := by
  have hreduced : compare (limbsToBeBytes limbs).toList modulusBe.toList = .lt := by
    rwa [compare_modulusBe_iff, beNat_limbsToBeBytes]
  rw [fromBeBytes, dif_pos hreduced]
  refine congrArg Except.ok (toNat_inj ?_)
  rw [toNat_ofNat]
  exact beNat_limbsToBeBytes limbs

theorem fromBeBytes_limbs_of_le {limbs : Limbs} (h : modulus ≤ limbs.toNat) :
    fromBeBytes (limbsToBeBytes limbs) = .error (.invalidFieldEncoding .notReduced) := by
  have hunreduced : ¬ compare (limbsToBeBytes limbs).toList modulusBe.toList = .lt := by
    rw [compare_modulusBe_iff, beNat_limbsToBeBytes]
    exact Nat.not_lt.mpr h
  rw [fromBeBytes, dif_neg hunreduced]

theorem toUTF8_toList_eq_nil {text : String} : text.toUTF8.toList = [] ↔ text = "" := by
  rw [toList_toUTF8, List.flatMap_eq_nil_iff, ← String.toList_inj, String.toList_empty,
    List.eq_nil_iff_forall_not_mem]
  simp

/-- The number a text of digits denotes. -/
def denoted (text : String) : Nat := Nat.ofDigitChars 10 text.toList 0

def IsDecimal (text : String) : Prop := text ≠ "" ∧ ∀ c ∈ text.toList, c.isDigit

theorem isDecimal_iff {text : String} :
    IsDecimal text ↔
      (text.toUTF8.toList.isEmpty || !text.toUTF8.toList.all isAsciiDigit) = false := by
  rw [IsDecimal, Bool.or_eq_false_iff, Bool.not_eq_false', List.all_eq_true,
    all_isAsciiDigit_iff, List.isEmpty_eq_false_iff, ne_eq, ne_eq, toUTF8_toList_eq_nil]

/-- What a text parses to, and why. -/
inductive ParseOutcome (text : String) : Result FieldElement → Prop
  | notDecimal (other : ¬ IsDecimal text) :
      ParseOutcome text (.error (.invalidFieldEncoding .notDecimal))
  | decimalOverflow (decimal : IsDecimal text) (large : 2 ^ 256 ≤ denoted text) :
      ParseOutcome text (.error (.invalidFieldEncoding .decimalOverflow))
  | notReduced (decimal : IsDecimal text) (large : modulus ≤ denoted text)
      (fits : denoted text < 2 ^ 256) :
      ParseOutcome text (.error (.invalidFieldEncoding .notReduced))
  | parsed (decimal : IsDecimal text) (element : FieldElement)
      (value : element.toNat = denoted text) : ParseOutcome text (.ok element)

theorem fromDecimalStr_outcome (text : String) : ParseOutcome text (fromDecimalStr text) := by
  rw [fromDecimalStr_eq]
  by_cases hdecimal : IsDecimal text
  · rw [if_neg (by rw [isDecimal_iff.mp hdecimal]; decide)]
    have hbytes := (all_isAsciiDigit_iff text).mpr hdecimal.2
    have hvalue : digitsNat text.toUTF8.toList Limbs.zero.toNat = denoted text :=
      digitsNat_toUTF8 hdecimal.2
    obtain ⟨hoverflow, hfits⟩ := foldlM_absorbDigit hbytes Limbs.zero
    rw [hvalue] at hoverflow hfits
    by_cases hsmall : denoted text < 2 ^ 256
    · obtain ⟨reached, hreached, hdenoted⟩ := hfits hsmall
      rw [hreached]
      change ParseOutcome text (fromBeBytes (limbsToBeBytes reached))
      by_cases hreduced : reached.toNat < modulus
      · rw [fromBeBytes_limbs_of_lt hreduced]
        exact .parsed hdecimal _ ((toNat_ofNat _ _).trans hdenoted)
      · rw [fromBeBytes_limbs_of_le (Nat.le_of_not_lt hreduced)]
        exact .notReduced hdecimal (hdenoted ▸ Nat.le_of_not_lt hreduced) hsmall
    · rw [hoverflow (Nat.le_of_not_lt hsmall)]
      exact .decimalOverflow hdecimal (Nat.le_of_not_lt hsmall)
  · rw [if_pos (Bool.of_not_eq_false (isDecimal_iff.not.mp hdecimal))]
    exact .notDecimal hdecimal

theorem modulus_lt_two_pow : modulus < 2 ^ 256 := by decide +kernel

namespace ParseOutcome
variable {text : String} {result : Result FieldElement}

theorem eq_notDecimal (h : ParseOutcome text result) :
    result = .error (.invalidFieldEncoding .notDecimal) ↔ ¬ IsDecimal text := by
  cases h with
  | notDecimal other => simp [other]
  | decimalOverflow decimal _ | notReduced decimal _ _ | parsed decimal _ _ => simp [decimal]

theorem eq_decimalOverflow (h : ParseOutcome text result) :
    result = .error (.invalidFieldEncoding .decimalOverflow) ↔
      IsDecimal text ∧ 2 ^ 256 ≤ denoted text := by
  cases h with
  | notDecimal other => simp [other]
  | decimalOverflow decimal large => exact iff_of_true rfl ⟨decimal, large⟩
  | notReduced decimal _ fits =>
      exact iff_of_false (by simp) (fun h => Nat.not_le.mpr fits h.2)
  | parsed decimal element value =>
      have hbelow : denoted text < 2 ^ 256 := value ▸ element.toNat_lt.trans modulus_lt_two_pow
      exact iff_of_false (by simp) (fun h => Nat.not_le.mpr hbelow h.2)

theorem eq_notReduced (h : ParseOutcome text result) :
    result = .error (.invalidFieldEncoding .notReduced) ↔
      IsDecimal text ∧ modulus ≤ denoted text ∧ denoted text < 2 ^ 256 := by
  cases h with
  | notDecimal other => simp [other]
  | decimalOverflow decimal large =>
      exact iff_of_false (by simp) (fun h => Nat.not_le.mpr h.2.2 large)
  | notReduced decimal large fits => exact iff_of_true rfl ⟨decimal, large, fits⟩
  | parsed decimal element value =>
      exact iff_of_false (by simp) (fun h => Nat.not_le.mpr (value ▸ element.toNat_lt) h.2.1)

theorem eq_ok (h : ParseOutcome text result) {element : FieldElement} :
    result = .ok element ↔ IsDecimal text ∧ element.toNat = denoted text := by
  cases h with
  | notDecimal other => simp [other]
  | decimalOverflow _ large =>
      refine iff_of_false (by simp) (fun h => Nat.not_le.mpr ?_ large)
      exact h.2 ▸ element.toNat_lt.trans modulus_lt_two_pow
  | notReduced _ large _ =>
      refine iff_of_false (by simp) (fun h => Nat.not_le.mpr ?_ large)
      exact h.2 ▸ element.toNat_lt
  | parsed decimal other value =>
      constructor
      · intro heq
        rw [← Except.ok.inj heq]
        exact ⟨decimal, value⟩
      · intro h
        exact congrArg Except.ok (toNat_inj (value.trans h.2.symm))

end ParseOutcome

/-- The texts an element is parsed from: the digits that denote its integer. -/
theorem fromDecimalStr_eq_ok {text : String} {element : FieldElement} :
    fromDecimalStr text = .ok element ↔ IsDecimal text ∧ element.toNat = denoted text :=
  (fromDecimalStr_outcome text).eq_ok

end Parsing

section Printing

/-- The remainder of a division by ten is a digit, so no cast replaces it. -/
theorem divRemSmall_ten (limbs : Limbs) :
    (divRemSmall limbs 10).1.toNat = limbs.toNat / 10 ∧
      (divRemSmall limbs 10).2.toNat = limbs.toNat % 10 ∧ (divRemSmall limbs 10).2.toNat < 10 := by
  obtain ⟨hquotient, hremainder⟩ := divRemSmall_spec limbs 10 (by decide)
  have hten : (10 : UInt64).toNat = 10 := rfl
  rw [hten] at hquotient hremainder
  refine ⟨hquotient, hremainder, ?_⟩
  rw [hremainder]
  exact Nat.mod_lt _ (by decide)

theorem toChar_digit : ∀ digit < 10, isAsciiDigit (0x30 + UInt8.ofNat digit) = true ∧
    toChar (0x30 + UInt8.ofNat digit) = digit.digitChar := by
  decide

theorem decimalDigits_zero : decimalDigits Limbs.zero = [] := by
  rw [decimalDigits, dif_pos rfl]

theorem decimalDigits_of_ne {limbs : Limbs} (h : limbs ≠ Limbs.zero) :
    decimalDigits limbs
      = (0x30 + UInt8.ofNat (limbs.toNat % 10)) :: decimalDigits (divRemSmall limbs 10).1 := by
  obtain ⟨-, hremainder, hdigit⟩ := divRemSmall_ten limbs
  have hsmall : (divRemSmall limbs 10).2 < 256 := by
    rw [UInt64.lt_iff_toNat_lt]
    exact Nat.lt_trans hdigit (by decide)
  have hcast : (divRemSmall limbs 10).2.toUInt8 = UInt8.ofNat (limbs.toNat % 10) := by
    refine UInt8.toNat_inj.mp ?_
    rw [UInt64.toNat_toUInt8, hremainder, UInt8.toNat_ofNat']
  rw [decimalDigits, dif_neg h]
  simp only [if_pos hsmall, hcast]

theorem decimalDigits_ascii (limbs : Limbs) :
    ∀ byte ∈ decimalDigits limbs, isAsciiDigit byte = true := by
  induction limbs using decimalDigits.induct with
  | case1 => simp [decimalDigits_zero]
  | case2 limbs hne divided ih =>
      rw [decimalDigits_of_ne hne]
      intro byte hbyte
      obtain rfl | hbyte := List.mem_cons.mp hbyte
      · exact (toChar_digit _ (Nat.mod_lt _ (by decide))).1
      · exact ih byte hbyte

/-- The digits of the loop, turned around, are the numeral of the limbs. -/
theorem map_toChar_decimalDigits {limbs : Limbs} (h : limbs ≠ Limbs.zero) :
    (decimalDigits limbs).reverse.map toChar = Nat.toDigits 10 limbs.toNat := by
  induction limbs using decimalDigits.induct with
  | case1 => exact absurd rfl h
  | case2 limbs hne divided ih =>
      obtain ⟨hquotient, -⟩ := divRemSmall_ten limbs
      have hdigit := (toChar_digit (limbs.toNat % 10) (Nat.mod_lt _ (by decide))).2
      rw [decimalDigits_of_ne hne, List.reverse_cons, List.map_append, List.map_singleton, hdigit]
      by_cases hlast : (divRemSmall limbs 10).1 = Limbs.zero
      · have hsmall : limbs.toNat < 10 := by
          have hzero := (Limbs.toNat_eq_zero_iff _).mpr hlast
          omega
        rw [hlast, decimalDigits_zero, Nat.mod_eq_of_lt hsmall, Nat.toDigits_of_lt_base hsmall]
        rfl
      · have hlarge : 10 ≤ limbs.toNat := by
          have hzero := (Limbs.toNat_eq_zero_iff _).not.mpr hlast
          omega
        rw [ih hlast, hquotient, ← Nat.toDigits_of_base_le (by decide) hlarge]

/-- The text of an element is the numeral of its integer. -/
theorem toDecimalString_eq (element : FieldElement) :
    element.toDecimalString = Nat.repr element.toNat := by
  have hvalue : (beBytesToLimbs element.bytes).toNat = element.toNat := toNat_beBytesToLimbs _
  rw [toDecimalString]
  by_cases hzero : beBytesToLimbs element.bytes = Limbs.zero
  · rw [if_pos hzero, ← hvalue, hzero]
    rfl
  · have hascii : ∀ byte ∈ (decimalDigits (beBytesToLimbs element.bytes)).reverse, byte < 128 :=
      fun byte hbyte =>
        ascii_of_isAsciiDigit (decimalDigits_ascii _ byte (List.mem_reverse.mp hbyte))
    simp only [if_neg hzero]
    rw [fromUTF8?_ascii hascii, Option.getD_some, map_toChar_decimalDigits hzero, hvalue,
      Nat.repr_eq_ofList_toDigits]

theorem toList_toDecimalString (element : FieldElement) :
    element.toDecimalString.toList = Nat.toDigits 10 element.toNat := by
  rw [toDecimalString_eq, Nat.toList_repr]

theorem fromDecimalStr_toDecimalString (element : FieldElement) :
    fromDecimalStr element.toDecimalString = .ok element := by
  have hdigits : ∀ c ∈ element.toDecimalString.toList, c.isDigit := by
    rw [toList_toDecimalString]
    intro c hc
    exact Nat.isDigit_of_mem_toDigits (by decide) (by decide) hc
  have hnonempty : element.toDecimalString ≠ "" := by
    rw [toDecimalString_eq]
    exact Nat.repr_ne_empty
  refine fromDecimalStr_eq_ok.mpr ⟨⟨hnonempty, hdigits⟩, ?_⟩
  rw [denoted, toList_toDecimalString, Nat.ofDigitChars_ten_toDigits]

theorem toDecimalString_injective : Function.Injective toDecimalString := by
  intro x y h
  have hparse := congrArg fromDecimalStr h
  rw [fromDecimalStr_toDecimalString, fromDecimalStr_toDecimalString] at hparse
  exact Except.ok.inj hparse

end Printing

/-- Parsing computes the number a text denotes and classifies every rejection by it.
No product or sum of the loop leaves 128 bits, and what the loop holds is the number of
the digits read so far, never a remainder of it. -/
theorem decimal_parsing_exact (text : String) :
    (fromDecimalStr text = .error (.invalidFieldEncoding .notDecimal) ↔
      text = "" ∨ ∃ byte ∈ text.toUTF8.toList, ¬ (0x30 ≤ byte ∧ byte ≤ 0x39)) ∧
    (text ≠ "" → (∀ byte ∈ text.toUTF8.toList, 0x30 ≤ byte ∧ byte ≤ 0x39) →
      (fromDecimalStr text = .error (.invalidFieldEncoding .decimalOverflow) ↔
        2 ^ 256 ≤ denoted text) ∧
      (fromDecimalStr text = .error (.invalidFieldEncoding .notReduced) ↔
        modulus ≤ denoted text ∧ denoted text < 2 ^ 256) ∧
      ((∃ element, fromDecimalStr text = .ok element) ↔ denoted text < modulus) ∧
      ∀ element, fromDecimalStr text = .ok element ↔ element.toNat = denoted text) ∧
    (∀ (limbs : Limbs) (digit : UInt64), MulAddExact 10 limbs.toList (u128From digit)) ∧
    ∀ (digits : List UInt8) (limbs : Limbs), (∀ byte ∈ digits, 0x30 ≤ byte ∧ byte ≤ 0x39) →
      digits.foldlM absorbDigit Limbs.zero = .ok limbs →
      limbs.toNat = Nat.ofDigitChars 10 (digits.map toChar) 0 := by
  have hdigit (byte : UInt8) : (0x30 ≤ byte ∧ byte ≤ 0x39) ↔ isAsciiDigit byte = true := by
    rw [isAsciiDigit, Bool.and_eq_true, decide_eq_true_eq, decide_eq_true_eq]
  have hdecimal : IsDecimal text ↔
      text ≠ "" ∧ ∀ byte ∈ text.toUTF8.toList, isAsciiDigit byte = true := by
    rw [IsDecimal, all_isAsciiDigit_iff]
  have houtcome := fromDecimalStr_outcome text
  simp only [hdigit]
  refine ⟨?_, ?_, fun limbs digit => ?_, fun digits limbs hdigits hloop => ?_⟩
  · rw [houtcome.eq_notDecimal, hdecimal, not_and_or, not_not]
    simp only [not_forall, exists_prop]
  · intro hnonempty hbytes
    have htext := hdecimal.mpr ⟨hnonempty, hbytes⟩
    have hok (element : FieldElement) :
        fromDecimalStr text = .ok element ↔ element.toNat = denoted text :=
      houtcome.eq_ok.trans (and_iff_right htext)
    refine ⟨houtcome.eq_decimalOverflow.trans (and_iff_right htext),
      houtcome.eq_notReduced.trans (and_iff_right htext), ?_, hok⟩
    constructor
    · rintro ⟨element, hparsed⟩
      rw [← (hok element).mp hparsed]
      exact element.toNat_lt
    · intro hreduced
      exact ⟨ofNat (denoted text) hreduced, (hok _).mpr (toNat_ofNat _ hreduced)⟩
  · refine mulAddExact 10 limbs.toList ?_
    rw [toNat_u128From]
    exact digit.toNat_lt
  · obtain ⟨hoverflow, hfits⟩ := foldlM_absorbDigit hdigits Limbs.zero
    by_cases hvalue : digitsNat digits Limbs.zero.toNat < 2 ^ 256
    · obtain ⟨reached, hreached, hdenoted⟩ := hfits hvalue
      rw [hreached] at hloop
      rw [← Except.ok.inj hloop, hdenoted]
      rfl
    · rw [hoverflow (Nat.le_of_not_lt hvalue)] at hloop
      exact absurd hloop (by simp)

/-- The modulus itself, the least number that is rejected as not reduced. -/
theorem decimal_parsing_exact_modulus :
    fromDecimalStr
        "21888242871839275222246405745257275088548364400416034343698204186575808495617"
      = .error (.invalidFieldEncoding .notReduced) := by
  have hdigits : ∀ byte ∈
      "21888242871839275222246405745257275088548364400416034343698204186575808495617".toUTF8.toList,
      (0x30 : UInt8) ≤ byte ∧ byte ≤ 0x39 := by
    rw [toList_toUTF8]
    decide +kernel
  obtain ⟨-, hdecimal, -⟩ := decimal_parsing_exact
    "21888242871839275222246405745257275088548364400416034343698204186575808495617"
  exact (hdecimal (by decide) hdigits).2.1.mpr (by decide +kernel)

/-- A zero stands in front of the digits of a number below the modulus. -/
def PaddedNumeral (text : String) : Prop :=
  IsDecimal text ∧ Padded text.toList ∧ denoted text < modulus

/-- A text that parses is the one that is printed unless it is padded. -/
theorem eq_toDecimalString_iff {text : String} {element : FieldElement}
    (parsed : fromDecimalStr text = .ok element) :
    text = element.toDecimalString ↔ ¬ Padded text.toList := by
  obtain ⟨⟨hnonempty, hdigits⟩, hvalue⟩ := fromDecimalStr_eq_ok.mp parsed
  have hchars : text.toList ≠ [] := by
    rw [← String.toList_empty, ne_eq, String.toList_inj]
    exact hnonempty
  rw [← toDigits_ofDigitChars_iff hdigits hchars, ← String.toList_inj, toList_toDecimalString,
    hvalue, eq_comm]
  rfl

theorem canonical_iff (text : String) :
    (∀ element, fromDecimalStr text = .ok element → text = element.toDecimalString) ↔
      ¬ PaddedNumeral text := by
  constructor
  · rintro hcanonical ⟨hdecimal, hpadded, hreduced⟩
    have hparsed : fromDecimalStr text = .ok (ofNat (denoted text) hreduced) :=
      fromDecimalStr_eq_ok.mpr ⟨hdecimal, toNat_ofNat _ _⟩
    exact (eq_toDecimalString_iff hparsed).mp (hcanonical _ hparsed) hpadded
  · intro hfree element hparsed
    obtain ⟨hdecimal, hvalue⟩ := fromDecimalStr_eq_ok.mp hparsed
    rw [eq_toDecimalString_iff hparsed]
    exact fun hpadded => hfree ⟨hdecimal, hpadded, hvalue ▸ element.toNat_lt⟩

end FieldElement

theorem FieldNewtype.fromDecimalStr_eq_ok {name : FieldNewtypeName} {text : String}
    {wrapped : FieldNewtype name} :
    fromDecimalStr text = .ok wrapped ↔ FieldElement.fromDecimalStr text = .ok wrapped.value := by
  rw [fromDecimalStr]
  cases FieldElement.fromDecimalStr text with
  | error error => simp [Except.map]
  | ok element =>
      obtain ⟨value⟩ := wrapped
      simp [Except.map]

open FieldElement

/-- `"007"` parses to seven, which prints as `"7"`. -/
theorem padded_text_parsed :
    ∃ element, FieldElement.fromDecimalStr "007" = .ok element ∧
      element.toDecimalString = "7" ∧ "007" ≠ element.toDecimalString := by
  have hseven : 7 < modulus := by decide
  have hprinted : (ofNat 7 hseven).toDecimalString = "7" := by
    rw [toDecimalString_eq, toNat_ofNat]
    rfl
  have hdigits : ∀ c ∈ "007".toList, c.isDigit := List.all_eq_true.mp (by decide)
  refine ⟨ofNat 7 hseven, ?_, hprinted, ?_⟩
  · exact FieldElement.fromDecimalStr_eq_ok.mpr ⟨⟨by decide, hdigits⟩, toNat_ofNat 7 hseven⟩
  · rw [hprinted]
    decide

/-- A text parses to the element whose canonical text it is unless it pads a number
below the modulus with zeros, whichever type it is parsed as. -/
theorem text_canonical_iff (text : String) :
    ((∀ element, FieldElement.fromDecimalStr text = .ok element →
        text = element.toDecimalString) ↔ ¬ PaddedNumeral text) ∧
    ∀ name : FieldNewtypeName,
      (∀ wrapped : FieldNewtype name, FieldNewtype.fromDecimalStr text = .ok wrapped →
        text = wrapped.value.toDecimalString) ↔ ¬ PaddedNumeral text := by
  refine ⟨canonical_iff text, fun name => ?_⟩
  rw [← canonical_iff]
  constructor
  · intro hcanonical element hparsed
    exact hcanonical ⟨element⟩ (FieldNewtype.fromDecimalStr_eq_ok.mpr hparsed)
  · intro hcanonical wrapped hparsed
    exact hcanonical wrapped.value (FieldNewtype.fromDecimalStr_eq_ok.mp hparsed)

end ZwaProtocol
