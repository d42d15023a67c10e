import ZwaProtocol.Circuits.EngineAgreement
import ZwaProtocol.Circuits.Eligibility

/-!
The integers that the JavaScript engine makes credential and policy leaves from, beside
those the Rust types and the eligibility circuit have: the engine checks the two policy
codes as 64-bit integers, the others as codes of 8 and 16 bits.
-/
namespace ZwaProtocol
open HashStaging FieldElement SharedEngine SharedEligibility

def IsU64 (value : Int) : Prop := 0 ≤ value ∧ value ≤ maxU64

def IsField (value : Int) : Prop := 0 ≤ value ∧ value < fieldModulus

instance (value : Int) : Decidable (IsU64 value) := inferInstanceAs (Decidable (_ ∧ _))

instance (value : Int) : Decidable (IsField value) := inferInstanceAs (Decidable (_ ∧ _))

/-- The checks of `computeCredential`. -/
structure SharedEligibility.CredentialRequest.Checked (fields : CredentialRequest) : Prop where
  credentialAuthorityCommitment : IsField fields.credentialAuthorityCommitment
  subjectSecret : IsField fields.subjectSecret
  investorClass : IsU64 fields.investorClass
  jurisdiction : IsU64 fields.jurisdiction
  credentialExpiry : IsU64 fields.credentialExpiry
  credentialNonce : IsU64 fields.credentialNonce
  approvedReceiverCommitment : IsField fields.approvedReceiverCommitment

/-- The Rust types take the codes, and the circuit has bits for them. -/
structure CodesAccepted (lib : Circomlib) (investorClass jurisdiction : Int) : Prop where
  classCode : ∃ code : InvestorClass,
    PolicyCode.fromU64 (UInt64.ofNat investorClass.toNat) = .ok code
  jurisdictionCode : ∃ code : Jurisdiction,
    PolicyCode.fromU64 (UInt64.ofNat jurisdiction.toNat) = .ok code
  classBits : lib.num2Bits 8 (investorClass : Fr)
  jurisdictionBits : lib.num2Bits 16 (jurisdiction : Fr)

/-- A leaf that credentials can have and the circuit can open. -/
structure CredentialAccepted (lib : Circomlib) (H : List Fr → Fr) (fields : CredentialRequest)
    (credentialLeaf : Int) : Prop where
  codes : CodesAccepted lib fields.investorClass fields.jurisdiction
  credentialExpiryBits : lib.num2Bits 64 (fields.credentialExpiry : Fr)
  credentialNonceBits : lib.num2Bits 64 (fields.credentialNonce : Fr)
  leaf : ∀ receiver : OrchardReceiverBytes,
    fields.approvedReceiverCommitment = (receiverCommitment H receiver).value.value.toNat →
      ∃ credential : ActiveCredential, credential.approvedReceiver = receiver ∧
        credentialRequest credential fields.approvedReceiverCommitment = fields ∧
        credentialLeaf = (credential.leaf H).value.value.toNat

section Checks

theorem isU64_toNat (word : UInt64) : IsU64 word.toNat := by
  have hlt := word.toNat_lt
  rw [IsU64, maxU64]
  omega

theorem IsU64.exists_eq {value : Int} (h : IsU64 value) : ∃ word : UInt64, value = word.toNat := by
  obtain ⟨hnonneg, hle⟩ := h
  rw [maxU64] at hle
  refine ⟨UInt64.ofNat value.toNat, ?_⟩
  rw [UInt64.toNat_ofNat_of_lt' (by rw [UInt64.size]; omega), Int.toNat_of_nonneg hnonneg]

theorem IsField.exists_eq {value : Int} (h : IsField value) :
    ∃ element : FieldElement, value = element.toNat := by
  have hmodulus : fieldModulus = (modulus : Int) := rfl
  obtain ⟨hnonneg, hlt⟩ := h
  refine ⟨ofNat value.toNat (by omega), ?_⟩
  rw [toNat_ofNat, Int.toNat_of_nonneg hnonneg]

theorem assertU64_bind {α : Type} (value : Int) (label : String) (f : Int → Js α) :
    Completes (assertU64 value label >>= f) ↔ IsU64 value ∧ Completes (f value) := by
  have hrange : ¬ (value < 0 ∨ value > maxU64) ↔ IsU64 value := by
    rw [IsU64]
    omega
  rw [assertU64, completes_check_bind, hrange]

theorem assertField_bind {α : Type} (value : Int) (label : String) (f : Int → Js α) :
    Completes (assertField value label >>= f) ↔ IsField value ∧ Completes (f value) := by
  have hrange : ¬ (value < 0 ∨ value ≥ fieldModulus) ↔ IsField value := by
    rw [IsField]
    omega
  rw [assertField, completes_check_bind, hrange]

variable (H : List Fr → Fr)

/-- The engine makes a leaf of the fields that pass its checks. -/
theorem computeCredential_completes_iff (fields : CredentialRequest) :
    Completes (computeCredential H fields) ↔ fields.Checked := by
  simp only [computeCredential, assertField_bind, assertU64_bind, completes_lift_bind,
    completes_pure, and_true]
  constructor
  · rintro ⟨secret, investorClass, jurisdiction, expiry, authority, nonce, approved⟩
    exact ⟨authority, secret, investorClass, jurisdiction, expiry, nonce, approved⟩
  · intro h
    exact ⟨h.subjectSecret, h.investorClass, h.jurisdiction, h.credentialExpiry,
      h.credentialAuthorityCommitment, h.credentialNonce, h.approvedReceiverCommitment⟩

theorem computePolicyLeaf_completes_iff (investorClass jurisdiction : Int) :
    Completes (computePolicyLeaf H investorClass jurisdiction)
      ↔ IsU64 investorClass ∧ IsU64 jurisdiction := by
  simp only [computePolicyLeaf, assertU64_bind, completes_lift, and_true]

end Checks

section Codes

theorem PolicyCode.toNat_max (field : CredentialCodeField) :
    (max field).toNat = 2 ^ field.bits - 1 := by
  cases field <;> rfl

theorem PolicyCode.fromU64_accepts_iff {field : CredentialCodeField} {value : UInt64} :
    (∃ code : PolicyCode field, fromU64 value = .ok code) ↔ value.toNat < 2 ^ field.bits := by
  have hpos : 0 < 2 ^ field.bits := Nat.two_pow_pos _
  rw [fromU64]
  split
  · next hlarge =>
      rw [gt_iff_lt, UInt64.lt_iff_toNat_lt, toNat_max] at hlarge
      simp only [reduceCtorEq, exists_false, false_iff]
      omega
  · next hsmall =>
      rw [gt_iff_lt, UInt64.lt_iff_toNat_lt, toNat_max] at hsmall
      simp only [Except.ok.injEq, exists_eq', true_iff]
      omega

theorem PolicyCode.get_of_fromU64 {field : CredentialCodeField} {value : UInt64}
    {code : PolicyCode field} (h : fromU64 value = .ok code) : code.get = value := by
  have hlt : value.toNat < 2 ^ field.bits := fromU64_accepts_iff.mp ⟨code, h⟩
  rw [fromU64] at h
  split at h
  · exact absurd h (by simp)
  · cases h
    rw [← UInt64.toNat_inj, toNat_get, BitVec.toNat_ofNat, Nat.mod_eq_of_lt hlt]

variable {lib : Circomlib} (lawful : lib.Lawful)
include lawful

/-- A word fits the bits that the circuit has for it. -/
theorem num2Bits_word_iff {width : Nat} (h : width < 254) (word : UInt64) :
    lib.num2Bits width (((word.toNat : Nat) : Int) : Fr) ↔ word.toNat < 2 ^ width := by
  rw [lawful.num2Bits_iff width h, Int.cast_natCast, ← toFr_fromU64, val_toFr, toNat_fromU64]

theorem codesAccepted_iff {investorClass jurisdiction : Int} (hclass : IsU64 investorClass)
    (hjurisdiction : IsU64 jurisdiction) :
    CodesAccepted lib investorClass jurisdiction ↔ investorClass ≤ 255 ∧ jurisdiction ≤ 65535 := by
  obtain ⟨classWord, rfl⟩ := hclass.exists_eq
  obtain ⟨jurisdictionWord, rfl⟩ := hjurisdiction.exists_eq
  have hclassBits := @num2Bits_word_iff lib lawful 8 (by decide) classWord
  have hjurisdictionBits := @num2Bits_word_iff lib lawful 16 (by decide) jurisdictionWord
  have hclassCode := @PolicyCode.fromU64_accepts_iff .investorClass classWord
  have hjurisdictionCode := @PolicyCode.fromU64_accepts_iff .jurisdiction jurisdictionWord
  simp only [CredentialCodeField.bits] at hclassCode hjurisdictionCode
  constructor
  · intro h
    have hclass := hclassBits.mp h.classBits
    have hjurisdiction := hjurisdictionBits.mp h.jurisdictionBits
    omega
  · rintro ⟨hclass, hjurisdiction⟩
    have hclass : classWord.toNat < 2 ^ 8 := by omega
    have hjurisdiction : jurisdictionWord.toNat < 2 ^ 16 := by omega
    refine ⟨?_, ?_, hclassBits.mpr hclass, hjurisdictionBits.mpr hjurisdiction⟩
    · rw [Int.toNat_natCast, UInt64.ofNat_toNat]
      exact hclassCode.mpr hclass
    · rw [Int.toNat_natCast, UInt64.ofNat_toNat]
      exact hjurisdictionCode.mpr hjurisdiction

end Codes

section Leaves
variable {H : List Fr → Fr} {fields : CredentialRequest}

/-- The fields that the engine checked and the codes the Rust types took make a credential
for any receiver that is committed to as the approved one. -/
theorem exists_credential (checked : fields.Checked) {investorClass : InvestorClass}
    {jurisdiction : Jurisdiction}
    (hclass : PolicyCode.fromU64 (UInt64.ofNat fields.investorClass.toNat) = .ok investorClass)
    (hjurisdiction :
      PolicyCode.fromU64 (UInt64.ofNat fields.jurisdiction.toNat) = .ok jurisdiction)
    (approvedReceiver : OrchardReceiverBytes) :
    ∃ credential : ActiveCredential, credential.approvedReceiver = approvedReceiver ∧
      credentialRequest credential fields.approvedReceiverCommitment = fields := by
  obtain ⟨classWord, hclassWord⟩ := checked.investorClass.exists_eq
  obtain ⟨jurisdictionWord, hjurisdictionWord⟩ := checked.jurisdiction.exists_eq
  obtain ⟨expiry, hexpiry⟩ := checked.credentialExpiry.exists_eq
  obtain ⟨nonce, hnonce⟩ := checked.credentialNonce.exists_eq
  obtain ⟨authority, hauthority⟩ := checked.credentialAuthorityCommitment.exists_eq
  obtain ⟨secret, hsecret⟩ := checked.subjectSecret.exists_eq
  rw [hclassWord, Int.toNat_natCast, UInt64.ofNat_toNat] at hclass
  rw [hjurisdictionWord, Int.toNat_natCast, UInt64.ofNat_toNat] at hjurisdiction
  refine ⟨{
    authorityCommitment := ⟨authority⟩
    subjectSecret := ⟨secret⟩
    investorClass, jurisdiction
    credentialExpiry := .new expiry
    nonce := ⟨nonce⟩
    approvedReceiver }, rfl, ?_⟩
  rw [← PolicyCode.get_of_fromU64 hclass] at hclassWord
  rw [← PolicyCode.get_of_fromU64 hjurisdiction] at hjurisdictionWord
  cases fields
  simp only at hclassWord hjurisdictionWord hexpiry hnonce hauthority hsecret
  subst hclassWord hjurisdictionWord hexpiry hnonce hauthority hsecret
  rfl

variable {lib : Circomlib} (lawful : lib.Lawful)
include lawful

theorem credentialAccepted_iff (checked : fields.Checked) {out : Credential}
    {inputs : List (List Fr)} (returned : Returns (computeCredential H fields) out inputs) :
    CredentialAccepted lib H fields out.credentialLeaf
      ↔ fields.investorClass ≤ 255 ∧ fields.jurisdiction ≤ 65535 := by
  rw [← codesAccepted_iff lawful checked.investorClass checked.jurisdiction]
  constructor
  · intro accepted
    exact accepted.codes
  · intro codes
    obtain ⟨expiry, hexpiry⟩ := checked.credentialExpiry.exists_eq
    obtain ⟨nonce, hnonce⟩ := checked.credentialNonce.exists_eq
    refine ⟨codes, ?_, ?_, ?_⟩
    · rw [hexpiry, num2Bits_word_iff lawful (by decide)]
      exact expiry.toNat_lt
    · rw [hnonce, num2Bits_word_iff lawful (by decide)]
      exact nonce.toNat_lt
    · intro receiver hcommitment
      obtain ⟨investorClass, hclass⟩ := codes.classCode
      obtain ⟨jurisdiction, hjurisdiction⟩ := codes.jurisdictionCode
      obtain ⟨credential, rfl, hfields⟩ :=
        exists_credential checked hclass hjurisdiction receiver
      refine ⟨credential, rfl, hfields, ?_⟩
      obtain ⟨recorded, hagrees⟩ := computeCredential_agrees H credential
      rw [ActiveCredential.approvedReceiverCommitment, ← hcommitment, hfields] at hagrees
      exact congrArg Credential.credentialLeaf (returned.value_unique hagrees)

end Leaves

/-- A class that is one past the codes of 8 bits. -/
def wideClassRequest : CredentialRequest where
  credentialAuthorityCommitment := 0
  subjectSecret := 0
  investorClass := 256
  jurisdiction := 0
  credentialExpiry := 0
  credentialNonce := 0
  approvedReceiverCommitment := 0

/-- The engine makes a credential leaf and a policy leaf for the class 256, which the Rust
type rejects and the circuit has no bits for. -/
theorem wide_class_committed :
    (∃ out inputs, Returns (computeCredential (fun _ => 0) wideClassRequest) out inputs) ∧
    (∃ leaf inputs, Returns (computePolicyLeaf (fun _ => 0) 256 0) leaf inputs) ∧
    (PolicyCode.fromU64 256 : Result InvestorClass)
      = .error (.credentialCodeOutOfRange .investorClass 8) ∧
    ¬ Circomlib.bitwise.num2Bits 8 256 := by
  refine ⟨(computeCredential_completes_iff _ _).mpr ?_,
    (computePolicyLeaf_completes_iff _ _ _).mpr ?_, by decide, ?_⟩
  · constructor <;> decide
  · decide
  · rw [Circomlib.bitwise_lawful.num2Bits_iff 8 (by decide)]
    decide

/-- The leaves that the engine makes are leaves of credentials and policies exactly where
the two codes fit into 8 and 16 bits. Any other code that passes its check is committed
to, though the Rust type rejects it and the circuit has no bits for it. -/
theorem schema_accepted_iff {lib : Circomlib} (lawful : lib.Lawful) (H : List Fr → Fr) :
    (∀ fields : CredentialRequest,
      (∀ out inputs, Returns (computeCredential H fields) out inputs →
          CredentialAccepted lib H fields out.credentialLeaf) ↔
        (fields.investorClass ≤ 255 ∧ fields.jurisdiction ≤ 65535) ∨ ¬ fields.Checked) ∧
    ∀ investorClass jurisdiction : Int,
      (∀ leaf inputs, Returns (computePolicyLeaf H investorClass jurisdiction) leaf inputs →
          CodesAccepted lib investorClass jurisdiction) ↔
        (investorClass ≤ 255 ∧ jurisdiction ≤ 65535) ∨
          ¬ (IsU64 investorClass ∧ IsU64 jurisdiction) := by
  constructor
  · intro fields
    rw [← computeCredential_completes_iff H fields]
    refine forall_returns_iff (fun out inputs returned => ?_)
    have checked := (computeCredential_completes_iff H fields).mp ⟨out, inputs, returned⟩
    exact credentialAccepted_iff lawful checked returned
  · intro investorClass jurisdiction
    rw [← computePolicyLeaf_completes_iff H investorClass jurisdiction]
    refine forall_returns_iff (fun leaf inputs returned => ?_)
    obtain ⟨hclass, hjurisdiction⟩ :=
      (computePolicyLeaf_completes_iff H _ _).mp ⟨leaf, inputs, returned⟩
    exact codesAccepted_iff lawful hclass hjurisdiction

/-- At the last codes of 8 and 16 bits. -/
theorem schema_accepted_iff_last :
    (∀ out inputs,
      Returns (computeCredential (fun _ => 0) { wideClassRequest with investorClass := 255 })
        out inputs →
      CredentialAccepted Circomlib.bitwise (fun _ => 0)
        { wideClassRequest with investorClass := 255 } out.credentialLeaf) ∧
    ∀ leaf inputs, Returns (computePolicyLeaf (fun _ => 0) 255 65535) leaf inputs →
      CodesAccepted Circomlib.bitwise 255 65535 :=
  ⟨((schema_accepted_iff Circomlib.bitwise_lawful _).1 _).mpr (.inl (by decide)),
    ((schema_accepted_iff Circomlib.bitwise_lawful _).2 _ _).mpr (.inl (by decide))⟩

end ZwaProtocol
