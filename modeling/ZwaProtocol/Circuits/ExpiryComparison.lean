import ZwaProtocol.Circuits.EligibilityStatement

/-!
The comparison of expiries inside the eligibility circuit and the one of the host. The
comparator is one bit wider than its operands, so that adding one to the larger of them
overflows at no value, and the circuit checks the width of both.
-/
namespace ZwaProtocol
open FieldElement

/-- The constraints of `validThroughTrade`, its output set to one. -/
def EligibilitySignals.ValidThroughTrade {credentialDepth policyDepth : Nat} (lib : Circomlib)
    (signals : EligibilitySignals credentialDepth policyDepth) : Prop :=
  (zkGreaterEqThan lib 64 signals.credentialExpiry signals.expiry
      signals.validThroughTradeOut).holds ∧
    (zkGreaterEqThan lib 64 signals.credentialExpiry signals.expiry
      signals.validThroughTradeOut).out = 1

section Comparator
variable {lib : Circomlib} (lawful : lib.Lawful)
include lawful

/-- The hint has one satisfying value, the outcome of the comparison. -/
theorem zkGreaterEqThan_decides {width : Nat} (h : width ≤ 251) {a b : Fr}
    (ha : a.val < 2 ^ width) (hb : b.val < 2 ^ width) :
    (∃ out, (zkGreaterEqThan lib width a b out).holds) ∧
      ∀ out, (zkGreaterEqThan lib width a b out).holds →
        (zkGreaterEqThan lib width a b out).out = if b.val ≤ a.val then 1 else 0 := by
  constructor
  · exact ⟨_, (zkGreaterEqThan_iff lawful h ha hb).1.mpr rfl⟩
  · intro out holds
    obtain ⟨hholds, hout⟩ := zkGreaterEqThan_iff lawful h ha hb
    exact hout.trans (hholds.mp holds)

/-- Satisfied, the comparator outputs one exactly where the host accepts. -/
theorem zkGreaterEqThan_covers (credentialExpiry : CredentialExpiry) (tradeExpiry : UnixSeconds)
    {out : Fr}
    (holds : (zkGreaterEqThan lib 64 (fromU64 credentialExpiry.get).toFr
      (fromU64 tradeExpiry.get).toFr out).holds) :
    (zkGreaterEqThan lib 64 (fromU64 credentialExpiry.get).toFr
        (fromU64 tradeExpiry.get).toFr out).out = 1
      ↔ credentialExpiry.coversTradeExpiry tradeExpiry = true := by
  have hcredential := val_fromU64_lt credentialExpiry.get
  have htrade := val_fromU64_lt tradeExpiry.get
  rw [(zkGreaterEqThan_decides lawful (by decide) hcredential htrade).2 out holds,
    CredentialExpiry.covers_iff]
  split
  · next hle => exact iff_of_true rfl hle
  · next hlt => exact iff_of_false zero_ne_one hlt

end Comparator

section Signals
variable {lib : Circomlib} {credentialDepth policyDepth : Nat}
  {signals : EligibilitySignals credentialDepth policyDepth}

/-- What the circuit asks of its two expiries: their widths and their order. -/
theorem EligibilitySignals.expiries_of_holds {H : List Fr → Fr}
    (holds : (rwaInvestorEligibilityV1 lib H signals).holds) :
    lib.num2Bits 64 signals.credentialExpiry ∧ lib.num2Bits 64 signals.expiry ∧
      signals.ValidThroughTrade lib := by
  have h := (rwaInvestorEligibilityV1_holds lib H signals).mp holds
  exact ⟨h.credentialRanges.credentialExpiry, h.tradeRanges.expiry, h.valid⟩

variable (lawful : lib.Lawful)
include lawful

/-- Expiries of the checked width are those of a credential and a trade. -/
theorem EligibilitySignals.exists_expiries
    (credentialBits : lib.num2Bits 64 signals.credentialExpiry)
    (tradeBits : lib.num2Bits 64 signals.expiry) :
    ∃ (credentialExpiry : CredentialExpiry) (tradeExpiry : UnixSeconds),
      (fromU64 credentialExpiry.get).toFr = signals.credentialExpiry ∧
      (fromU64 tradeExpiry.get).toFr = signals.expiry := by
  have h64 := lawful.num2Bits_iff 64 (by decide)
  obtain ⟨credentialWord, hcredential⟩ := inRange_u64_iff.mp ((h64 _).mp credentialBits)
  obtain ⟨tradeWord, htrade⟩ := inRange_u64_iff.mp ((h64 _).mp tradeBits)
  exact ⟨.new credentialWord, ⟨tradeWord⟩, hcredential, htrade⟩

theorem EligibilitySignals.exists_validThroughTrade_iff {credentialExpiry : CredentialExpiry}
    {tradeExpiry : UnixSeconds}
    (hcredential : (fromU64 credentialExpiry.get).toFr = signals.credentialExpiry)
    (htrade : (fromU64 tradeExpiry.get).toFr = signals.expiry) :
    (∃ out, { signals with validThroughTradeOut := out }.ValidThroughTrade lib) ↔
      credentialExpiry.coversTradeExpiry tradeExpiry = true := by
  simp only [ValidThroughTrade, ← hcredential, ← htrade]
  constructor
  · rintro ⟨out, holds, hone⟩
    exact (zkGreaterEqThan_covers lawful credentialExpiry tradeExpiry holds).mp hone
  · intro covers
    obtain ⟨⟨out, holds⟩, -⟩ := zkGreaterEqThan_decides lawful (by decide)
      (val_fromU64_lt credentialExpiry.get) (val_fromU64_lt tradeExpiry.get)
    exact ⟨out, holds, (zkGreaterEqThan_covers lawful _ _ holds).mpr covers⟩

end Signals

/-- The comparison in the circuit is the comparison of the host. Up to 251 bits the
comparator is satisfiable and its output is decided by its operands; on the expiries of
credentials and trades it is one exactly where the host finds the trade covered, at
`u64::MAX` as anywhere. The circuit's width checks leave it no others to compare, and what
satisfies the circuit are expiries of which the host finds the trade covered. -/
theorem expiry_comparison_exact :
    (∀ width ≤ 251, ∀ a b : Fr, a.val < 2 ^ width → b.val < 2 ^ width →
      (∃ out, (zkGreaterEqThan .bitwise width a b out).holds) ∧
      ∀ out, (zkGreaterEqThan .bitwise width a b out).holds →
        (zkGreaterEqThan .bitwise width a b out).out = if b.val ≤ a.val then 1 else 0) ∧
    (∀ (credentialExpiry : CredentialExpiry) (tradeExpiry : UnixSeconds) (out : Fr),
      (zkGreaterEqThan .bitwise 64 (fromU64 credentialExpiry.get).toFr
        (fromU64 tradeExpiry.get).toFr out).holds →
      ((zkGreaterEqThan .bitwise 64 (fromU64 credentialExpiry.get).toFr
          (fromU64 tradeExpiry.get).toFr out).out = 1
        ↔ credentialExpiry.coversTradeExpiry tradeExpiry = true)) ∧
    ∀ (H : List Fr → Fr) (credentialDepth policyDepth : Nat)
      (signals : EligibilitySignals credentialDepth policyDepth),
      (Circomlib.bitwise.num2Bits 64 signals.credentialExpiry →
        Circomlib.bitwise.num2Bits 64 signals.expiry →
        ∃ (credentialExpiry : CredentialExpiry) (tradeExpiry : UnixSeconds),
          (fromU64 credentialExpiry.get).toFr = signals.credentialExpiry ∧
          (fromU64 tradeExpiry.get).toFr = signals.expiry ∧
          ((∃ out, { signals with validThroughTradeOut := out }.ValidThroughTrade .bitwise) ↔
            credentialExpiry.coversTradeExpiry tradeExpiry = true)) ∧
      ((rwaInvestorEligibilityV1 .bitwise H signals).holds →
        ∃ (credentialExpiry : CredentialExpiry) (tradeExpiry : UnixSeconds),
          (fromU64 credentialExpiry.get).toFr = signals.credentialExpiry ∧
          (fromU64 tradeExpiry.get).toFr = signals.expiry ∧
          credentialExpiry.coversTradeExpiry tradeExpiry = true) := by
  have lawful := Circomlib.bitwise_lawful
  refine ⟨?_, ?_, fun H credentialDepth policyDepth signals => ⟨?_, ?_⟩⟩
  · intro width hwidth a b ha hb
    exact zkGreaterEqThan_decides lawful hwidth ha hb
  · intro credentialExpiry tradeExpiry out holds
    exact zkGreaterEqThan_covers lawful credentialExpiry tradeExpiry holds
  · intro credentialBits tradeBits
    obtain ⟨credentialExpiry, tradeExpiry, hcredential, htrade⟩ :=
      EligibilitySignals.exists_expiries lawful credentialBits tradeBits
    exact ⟨credentialExpiry, tradeExpiry, hcredential, htrade,
      EligibilitySignals.exists_validThroughTrade_iff lawful hcredential htrade⟩
  · intro holds
    obtain ⟨credentialBits, tradeBits, valid⟩ := EligibilitySignals.expiries_of_holds holds
    obtain ⟨credentialExpiry, tradeExpiry, hcredential, htrade⟩ :=
      EligibilitySignals.exists_expiries lawful credentialBits tradeBits
    exact ⟨credentialExpiry, tradeExpiry, hcredential, htrade,
      (EligibilitySignals.exists_validThroughTrade_iff lawful hcredential htrade).mp
        ⟨signals.validThroughTradeOut, valid⟩⟩

/-- Both expiries at the last second: the comparator is satisfiable and outputs one. -/
theorem expiry_comparison_exact_last :
    ∃ out, (zkGreaterEqThan .bitwise 64 (fromU64 0xffffffffffffffff).toFr
        (fromU64 0xffffffffffffffff).toFr out).holds ∧
      (zkGreaterEqThan .bitwise 64 (fromU64 0xffffffffffffffff).toFr
        (fromU64 0xffffffffffffffff).toFr out).out = 1 := by
  have hrange := val_fromU64_lt 0xffffffffffffffff
  obtain ⟨⟨out, holds⟩, -⟩ := expiry_comparison_exact.1 64 (by decide) _ _ hrange hrange
  exact ⟨out, holds, (expiry_comparison_exact.2.1 (.new 0xffffffffffffffff)
    ⟨0xffffffffffffffff⟩ out holds).mpr (by decide)⟩

end ZwaProtocol
