import Mathlib.NumberTheory.LucasPrimality
import Mathlib.Data.List.Prime

/-!
Primality by Lucas's test on a chain of certified primes. The test is a Boolean
the kernel evaluates: exponents are reduced by square and multiply, so a prime
of a few hundred bits costs a few hundred multiplications for each factor.
-/

namespace PrattCertificate

/-- `acc * base ^ exponent` modulo `m`; the fuel bounds the exponent's bits. -/
def powModAux (m : Nat) : Nat → Nat → Nat → Nat → Nat
  | 0, _, _, acc => acc
  | fuel + 1, base, exponent, acc =>
      powModAux m fuel (base * base % m) (exponent / 2)
        (if exponent % 2 = 1 then acc * base % m else acc)

theorem powModAux_cast (m fuel base exponent acc : Nat) (h : exponent < 2 ^ fuel) :
    (powModAux m fuel base exponent acc : ZMod m) = acc * (base : ZMod m) ^ exponent := by
  induction fuel generalizing base exponent acc with
  | zero =>
      have hzero : exponent = 0 := by simpa using h
      simp [powModAux, hzero]
  | succ fuel ih =>
      have hhalf : exponent / 2 < 2 ^ fuel := by rw [pow_succ] at h; omega
      have hsquare : ((base * base % m : Nat) : ZMod m) = (base : ZMod m) ^ 2 := by
        rw [ZMod.natCast_mod, Nat.cast_mul, sq]
      rw [powModAux, ih _ _ _ hhalf, hsquare, ← pow_mul]
      split
      · have hsplit : exponent = 2 * (exponent / 2) + 1 := by omega
        conv_rhs => rw [hsplit]
        rw [ZMod.natCast_mod, Nat.cast_mul, pow_succ]
        ring
      · have hsplit : exponent = 2 * (exponent / 2) := by omega
        conv_rhs => rw [hsplit]

/-- One link of the chain: a candidate, a primitive root for it, and the prime
factors of the candidate less one. -/
structure Link where
  candidate : Nat
  root : Nat
  factors : List (Nat × Nat)

/-- Lucas's conditions for one link, over primes already certified. -/
def Link.checks (bits : Nat) (known : List Nat) (link : Link) : Bool :=
  decide (1 < link.candidate) && decide (link.candidate < 2 ^ bits) &&
    link.factors.all (fun f => decide (f.1 ∈ known)) &&
    decide ((link.factors.map (fun f => f.1 ^ f.2)).prod = link.candidate - 1) &&
    decide (powModAux link.candidate bits link.root (link.candidate - 1) 1
      % link.candidate = 1) &&
    link.factors.all (fun f =>
      decide (powModAux link.candidate bits link.root ((link.candidate - 1) / f.1) 1
        % link.candidate ≠ 1))

def chainChecks (bits : Nat) : List Nat → List Link → Bool
  | _, [] => true
  | known, link :: chain =>
      link.checks bits known && chainChecks bits (link.candidate :: known) chain

private theorem cast_eq_one_iff {m n : Nat} (h : 1 < m) : (n : ZMod m) = 1 ↔ n % m = 1 := by
  rw [← Nat.cast_one, ZMod.natCast_eq_natCast_iff', Nat.mod_eq_of_lt h]

theorem Link.prime_of_checks {bits : Nat} {known : List Nat} {link : Link}
    (primes : ∀ q ∈ known, q.Prime) (h : link.checks bits known = true) :
    link.candidate.Prime := by
  simp only [Link.checks, Bool.and_eq_true, decide_eq_true_eq, List.all_eq_true] at h
  obtain ⟨⟨⟨⟨⟨hone, hbits⟩, hknown⟩, hproduct⟩, hfermat⟩, horder⟩ := h
  refine lucas_primality link.candidate (link.root : ZMod link.candidate) ?_ ?_
  · have hcast := powModAux_cast link.candidate bits link.root (link.candidate - 1) 1
      (by omega)
    rw [Nat.cast_one, one_mul] at hcast
    rw [← hcast, cast_eq_one_iff hone]
    exact hfermat
  · intro q hq hdvd
    rw [← hproduct] at hdvd
    obtain ⟨power, hpower, hqpower⟩ := (Prime.dvd_prod_iff hq.prime).mp hdvd
    obtain ⟨f, hf, rfl⟩ := List.mem_map.mp hpower
    -- A prime factor of the candidate less one is one of the listed primes.
    have hsame : q = f.1 :=
      (Nat.prime_dvd_prime_iff_eq hq (primes _ (hknown f hf))).mp
        (hq.dvd_of_dvd_pow hqpower)
    subst hsame
    have hle : (link.candidate - 1) / f.1 ≤ link.candidate - 1 := Nat.div_le_self _ _
    have hcast := powModAux_cast link.candidate bits link.root
      ((link.candidate - 1) / f.1) 1 (by omega)
    rw [Nat.cast_one, one_mul] at hcast
    rw [← hcast, ne_eq, cast_eq_one_iff hone]
    exact horder f hf

theorem prime_of_chainChecks {bits : Nat} {known : List Nat} {chain : List Link}
    (primes : ∀ q ∈ known, q.Prime) (h : chainChecks bits known chain = true) :
    ∀ link ∈ chain, link.candidate.Prime := by
  induction chain generalizing known with
  | nil => simp
  | cons link chain ih =>
      simp only [chainChecks, Bool.and_eq_true] at h
      have hlink := Link.prime_of_checks primes h.1
      intro other hmem
      rcases List.mem_cons.mp hmem with rfl | hmem
      · exact hlink
      · refine ih ?_ h.2 other hmem
        intro q hq
        rcases List.mem_cons.mp hq with rfl | hq
        · exact hlink
        · exact primes q hq

end PrattCertificate
