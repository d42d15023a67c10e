import ZwaProtocol.Library.ByteStrings
import Mathlib.Tactic.Ring

/-!
The 256-bit arithmetic under the decimal text form: four little-endian 64-bit
limbs, one pass that multiplies and adds, one pass that divides. Both passes
work on 128-bit intermediates narrowed by casts, as the source does.
-/
namespace ZwaProtocol
open ByteStrings

/-- `[u64; 4]`, least significant limb first. -/
abbrev Limbs := List.Vector UInt64 4

def Limbs.zero : Limbs := ⟨[0, 0, 0, 0], rfl⟩

/-- `u128::from` on a `u64`. -/
def u128From (value : UInt64) : BitVec 128 := value.toBitVec.setWidth 128

/-- `as u64` on a `u128`. -/
def u64Cast (value : BitVec 128) : UInt64 := ⟨value.setWidth 64⟩

/-- The multiply loop: each limb keeps the low half of its product and passes
the high half on as the carry. -/
def mulAddLoop (multiplier : UInt64) : List UInt64 → BitVec 128 → List UInt64 × BitVec 128
  | [], carry => ([], carry)
  | limb :: limbs, carry =>
      let product := u128From limb * u128From multiplier + carry
      let rest := mulAddLoop multiplier limbs (product >>> 64)
      (u64Cast product :: rest.1, rest.2)

/-- The divide loop over limbs most significant first. -/
def divRemLoop (divisor : UInt64) : List UInt64 → BitVec 128 → List UInt64 × BitVec 128
  | [], remainder => ([], remainder)
  | limb :: limbs, remainder =>
      let current := (remainder <<< 64) ||| u128From limb
      let rest := divRemLoop divisor limbs (current % u128From divisor)
      (u64Cast (current / u128From divisor) :: rest.1, rest.2)

theorem length_mulAddLoop (multiplier : UInt64) (limbs : List UInt64) (carry : BitVec 128) :
    (mulAddLoop multiplier limbs carry).1.length = limbs.length := by
  induction limbs generalizing carry with
  | nil => rfl
  | cons limb limbs ih => simp [mulAddLoop, ih]

theorem length_divRemLoop (divisor : UInt64) (limbs : List UInt64) (remainder : BitVec 128) :
    (divRemLoop divisor limbs remainder).1.length = limbs.length := by
  induction limbs generalizing remainder with
  | nil => rfl
  | cons limb limbs ih => simp [divRemLoop, ih]

/-- The limbs are updated in place even when the result is `None`. -/
def mulAddSmall (limbs : Limbs) (multiplier addend : UInt64) : Limbs × Option Unit :=
  let pass := mulAddLoop multiplier limbs.toList (u128From addend)
  (⟨pass.1, by simp [pass, length_mulAddLoop]⟩, if pass.2 = 0 then some () else none)

def divRemSmall (limbs : Limbs) (divisor : UInt64) : Limbs × UInt64 :=
  let pass := divRemLoop divisor limbs.toList.reverse 0
  (⟨pass.1.reverse, by simp [pass, length_divRemLoop]⟩, u64Cast pass.2)

def u64ToBeBytes (value : UInt64) : List UInt8 := toBe 8 value.toNat

def u64FromBeBytes (bytes : List UInt8) : UInt64 := UInt64.ofNat (beNat bytes)

/-- `bytes[start..start + chunk.len()].copy_from_slice(chunk)`. -/
def copyFromSlice (bytes : List UInt8) (start : Nat) (chunk : List UInt8) : List UInt8 :=
  bytes.take start ++ chunk ++ bytes.drop (start + chunk.length)

def beBytesToLimbs (bytes : List.Vector UInt8 32) : Limbs :=
  ⟨(List.range 4).map (fun index =>
      u64FromBeBytes ((bytes.toList.drop (32 - 8 * (index + 1))).take 8)), rfl⟩

def limbsToBeBytes (limbs : Limbs) : List.Vector UInt8 32 :=
  ⟨limbs.toList.zipIdx.foldl (fun bytes entry =>
      copyFromSlice bytes (32 - 8 * (entry.2 + 1)) (u64ToBeBytes entry.1))
      (List.replicate 32 0), by
    obtain ⟨limbs, hlength⟩ := limbs
    match limbs, hlength with
    | [a, b, c, d], _ => simp [copyFromSlice, u64ToBeBytes, List.Vector.toList]⟩

/-- The integer the limbs stand for, whatever their number. -/
def limbNat (limbs : List UInt64) : Nat :=
  Nat.ofDigits (2 ^ 64) (limbs.map UInt64.toNat)

def Limbs.toNat (limbs : Limbs) : Nat := limbNat limbs.toList

@[simp] theorem limbNat_nil : limbNat [] = 0 := rfl

@[simp] theorem limbNat_cons (limb : UInt64) (limbs : List UInt64) :
    limbNat (limb :: limbs) = limb.toNat + 2 ^ 64 * limbNat limbs := rfl

theorem limbNat_append (xs ys : List UInt64) :
    limbNat (xs ++ ys) = limbNat xs + (2 ^ 64) ^ xs.length * limbNat ys := by
  simp [limbNat, Nat.ofDigits_append]

theorem limbNat_eq_zero_iff (limbs : List UInt64) :
    limbNat limbs = 0 ↔ limbs = List.replicate limbs.length 0 := by
  induction limbs with
  | nil => simp
  | cons limb limbs ih =>
      have hlimb : limb.toNat = 0 ↔ limb = 0 :=
        ⟨fun h => UInt64.toNat.inj (by simpa using h), fun h => by simp [h]⟩
      simp only [limbNat_cons, List.length_cons, List.replicate_succ, List.cons.injEq, ← ih,
        ← hlimb]
      omega

theorem Limbs.toNat_eq_zero_iff (limbs : Limbs) : limbs.toNat = 0 ↔ limbs = Limbs.zero := by
  rw [Limbs.toNat, limbNat_eq_zero_iff, List.Vector.toList_length]
  exact ⟨fun h => List.Vector.eq _ _ h, fun h => congrArg List.Vector.toList h⟩

@[simp] theorem toNat_u128From (value : UInt64) : (u128From value).toNat = value.toNat := by
  have h := value.toNat_lt
  simp only [u128From, BitVec.toNat_setWidth, UInt64.toNat_toBitVec]
  exact Nat.mod_eq_of_lt (by omega)

theorem toNat_u64Cast (value : BitVec 128) : (u64Cast value).toNat = value.toNat % 2 ^ 64 := by
  simp [u64Cast]

/-- A remainder below the divisor leaves room for one more limb: the shifted
remainder loses nothing and the partial quotient fits in 64 bits. -/
theorem divRem_step {divisor : UInt64} (limb : UInt64) {remainder : BitVec 128}
    (h : remainder.toNat < divisor.toNat) :
    ((remainder <<< 64) ||| u128From limb).toNat = remainder.toNat * 2 ^ 64 + limb.toNat ∧
      ((remainder <<< 64) ||| u128From limb).toNat / divisor.toNat < 2 ^ 64 := by
  have hd := divisor.toNat_lt
  have hl := limb.toNat_lt
  have hshift : remainder.toNat <<< 64 % 2 ^ 128 = remainder.toNat <<< 64 := by
    rw [Nat.shiftLeft_eq]
    exact Nat.mod_eq_of_lt (by omega)
  have hvalue : ((remainder <<< 64) ||| u128From limb).toNat
      = remainder.toNat * 2 ^ 64 + limb.toNat := by
    rw [BitVec.toNat_or, BitVec.toNat_shiftLeft, hshift, toNat_u128From,
      ← Nat.shiftLeft_add_eq_or_of_lt hl, Nat.shiftLeft_eq]
  refine ⟨hvalue, ?_⟩
  rw [hvalue, Nat.div_lt_iff_lt_mul (by omega)]
  calc remainder.toNat * 2 ^ 64 + limb.toNat
      < (remainder.toNat + 1) * 2 ^ 64 := by omega
    _ ≤ 2 ^ 64 * divisor.toNat := by rw [Nat.mul_comm]; exact Nat.mul_le_mul_left _ h

/-- The remainder of a division is below the divisor again. -/
theorem toNat_umod_u128From (current : BitVec 128) {divisor : UInt64} (h : 0 < divisor.toNat) :
    (current % u128From divisor).toNat = current.toNat % divisor.toNat ∧
      (current % u128From divisor).toNat < divisor.toNat := by
  have hmod : (current % u128From divisor).toNat = current.toNat % divisor.toNat := by
    rw [BitVec.toNat_umod, toNat_u128From]
  refine ⟨hmod, ?_⟩
  rw [hmod]
  exact Nat.mod_lt _ h

/-- Long division, limb by limb: the invariant is a remainder below the divisor. -/
theorem divRemLoop_spec (divisor : UInt64) (limbs : List UInt64) (remainder : BitVec 128)
    (h : remainder.toNat < divisor.toNat) :
    remainder.toNat * (2 ^ 64) ^ limbs.length + limbNat limbs.reverse
        = limbNat (divRemLoop divisor limbs remainder).1.reverse * divisor.toNat
          + (divRemLoop divisor limbs remainder).2.toNat ∧
      (divRemLoop divisor limbs remainder).2.toNat < divisor.toNat := by
  induction limbs generalizing remainder with
  | nil => simpa [divRemLoop] using h
  | cons limb limbs ih =>
      obtain ⟨hcurrent, hquotient⟩ := divRem_step limb h
      set current := (remainder <<< 64) ||| u128From limb with hdef
      obtain ⟨hmod, hbelow⟩ := toNat_umod_u128From current (Nat.zero_lt_of_lt h)
      have hdiv : (u64Cast (current / u128From divisor)).toNat
          = current.toNat / divisor.toNat := by
        rw [toNat_u64Cast, BitVec.toNat_udiv, toNat_u128From, Nat.mod_eq_of_lt hquotient]
      obtain ⟨hrest, hlast⟩ := ih (current % u128From divisor) hbelow
      refine ⟨?_, hlast⟩
      have hsplit := Nat.div_add_mod current.toNat divisor.toNat
      simp only [divRemLoop, ← hdef, List.reverse_cons, limbNat_append, List.length_reverse,
        List.length_cons, limbNat_cons, limbNat_nil, length_divRemLoop, hdiv]
      rw [hmod] at hrest
      set q := current.toNat / divisor.toNat
      set r := current.toNat % divisor.toNat
      set base := ((2 : Nat) ^ 64) ^ limbs.length
      calc remainder.toNat * (2 ^ 64) ^ (limbs.length + 1)
            + (limbNat limbs.reverse + base * (limb.toNat + 2 ^ 64 * 0))
          = (remainder.toNat * 2 ^ 64 + limb.toNat) * base + limbNat limbs.reverse := by
            rw [pow_succ]; ring
        _ = q * divisor.toNat * base + (r * base + limbNat limbs.reverse) := by
            rw [← hcurrent, ← hsplit]; ring
        _ = _ := by rw [hrest]; ring

theorem divRemSmall_spec (limbs : Limbs) (divisor : UInt64) (h : 0 < divisor.toNat) :
    (divRemSmall limbs divisor).1.toNat = limbs.toNat / divisor.toNat ∧
      (divRemSmall limbs divisor).2.toNat = limbs.toNat % divisor.toNat := by
  obtain ⟨hvalue, hlast⟩ := divRemLoop_spec divisor limbs.toList.reverse 0 (by simpa)
  have hd := divisor.toNat_lt
  have hquotient : (divRemSmall limbs divisor).1.toNat
      = limbNat (divRemLoop divisor limbs.toList.reverse 0).1.reverse := rfl
  have hremainder : (divRemSmall limbs divisor).2.toNat
      = (divRemLoop divisor limbs.toList.reverse 0).2.toNat := by
    rw [divRemSmall, toNat_u64Cast]
    exact Nat.mod_eq_of_lt (by omega)
  have hlimbs : limbs.toNat
      = (divRemSmall limbs divisor).1.toNat * divisor.toNat
        + (divRemSmall limbs divisor).2.toNat := by
    rw [hquotient, hremainder, ← hvalue]
    simp [Limbs.toNat]
  rw [← hremainder] at hlast
  constructor
  · rw [hlimbs, Nat.add_comm, Nat.add_mul_div_right _ _ h, Nat.div_eq_of_lt hlast, Nat.zero_add]
  · rw [hlimbs, Nat.add_comm, Nat.add_mul_mod_self_right, Nat.mod_eq_of_lt hlast]

/-- A carry below 64 bits keeps product and sum within 128 bits, and so stays below. -/
theorem mulAdd_step (limb multiplier : UInt64) {carry : BitVec 128} (h : carry.toNat < 2 ^ 64) :
    limb.toNat * multiplier.toNat + carry.toNat < 2 ^ 128 ∧
      (u128From limb * u128From multiplier + carry).toNat
        = limb.toNat * multiplier.toNat + carry.toNat ∧
      ((u128From limb * u128From multiplier + carry) >>> 64).toNat
        = (limb.toNat * multiplier.toNat + carry.toNat) / 2 ^ 64 ∧
      ((u128From limb * u128From multiplier + carry) >>> 64).toNat < 2 ^ 64 := by
  have hproduct : limb.toNat * multiplier.toNat ≤ (2 ^ 64 - 1) * (2 ^ 64 - 1) :=
    Nat.mul_le_mul (Nat.le_pred_of_lt limb.toNat_lt) (Nat.le_pred_of_lt multiplier.toNat_lt)
  have hexact : limb.toNat * multiplier.toNat + carry.toNat < 2 ^ 128 := by omega
  have hvalue : (u128From limb * u128From multiplier + carry).toNat
      = limb.toNat * multiplier.toNat + carry.toNat := by
    rw [BitVec.toNat_add, BitVec.toNat_mul, toNat_u128From, toNat_u128From, Nat.mod_add_mod,
      Nat.mod_eq_of_lt hexact]
  have hshift : ((u128From limb * u128From multiplier + carry) >>> 64).toNat
      = (limb.toNat * multiplier.toNat + carry.toNat) / 2 ^ 64 := by
    rw [BitVec.toNat_ushiftRight, hvalue, Nat.shiftRight_eq_div_pow]
  refine ⟨hexact, hvalue, hshift, ?_⟩
  rw [hshift]
  omega

/-- One pass is exact: what does not fit in the limbs is the carry it returns. -/
theorem mulAddLoop_spec (multiplier : UInt64) (limbs : List UInt64) (carry : BitVec 128)
    (h : carry.toNat < 2 ^ 64) :
    limbNat limbs * multiplier.toNat + carry.toNat
        = limbNat (mulAddLoop multiplier limbs carry).1
          + (2 ^ 64) ^ limbs.length * (mulAddLoop multiplier limbs carry).2.toNat ∧
      (mulAddLoop multiplier limbs carry).2.toNat < 2 ^ 64 := by
  induction limbs generalizing carry with
  | nil => simpa [mulAddLoop] using h
  | cons limb limbs ih =>
      obtain ⟨-, hvalue, hshift, hcarry⟩ := mulAdd_step limb multiplier h
      set product := u128From limb * u128From multiplier + carry with hdef
      obtain ⟨hrest, hlast⟩ := ih (product >>> 64) hcarry
      refine ⟨?_, hlast⟩
      have hsplit := Nat.div_add_mod product.toNat (2 ^ 64)
      simp only [mulAddLoop, ← hdef, limbNat_cons, List.length_cons, toNat_u64Cast]
      rw [hshift, ← hvalue] at hrest
      set low := product.toNat % 2 ^ 64
      set high := product.toNat / 2 ^ 64
      set base := ((2 : Nat) ^ 64) ^ limbs.length
      calc (limb.toNat + 2 ^ 64 * limbNat limbs) * multiplier.toNat + carry.toNat
          = product.toNat + 2 ^ 64 * (limbNat limbs * multiplier.toNat) := by
            rw [hvalue]; ring
        _ = low + 2 ^ 64 * (limbNat limbs * multiplier.toNat + high) := by
            rw [← hsplit]; ring
        _ = _ := by rw [hrest, pow_succ]; ring

theorem limbNat_lt (limbs : List UInt64) : limbNat limbs < (2 ^ 64) ^ limbs.length := by
  induction limbs with
  | nil => simp
  | cons limb limbs ih =>
      have hlimb := limb.toNat_lt
      rw [limbNat_cons, List.length_cons, pow_succ' (2 ^ 64)]
      omega

theorem Limbs.toNat_lt (limbs : Limbs) : limbs.toNat < 2 ^ 256 := by
  have h := limbNat_lt limbs.toList
  rwa [List.Vector.toList_length, ← pow_mul] at h

theorem mulAddSmall_spec (limbs : Limbs) (multiplier addend : UInt64) :
    (mulAddSmall limbs multiplier addend).1.toNat
        = (limbs.toNat * multiplier.toNat + addend.toNat) % 2 ^ 256 ∧
      ((mulAddSmall limbs multiplier addend).2 = some () ↔
        limbs.toNat * multiplier.toNat + addend.toNat < 2 ^ 256) := by
  have hcarry : (u128From addend).toNat < 2 ^ 64 := by
    rw [toNat_u128From]
    exact addend.toNat_lt
  obtain ⟨hvalue, -⟩ := mulAddLoop_spec multiplier limbs.toList (u128From addend) hcarry
  rw [toNat_u128From, List.Vector.toList_length, ← pow_mul] at hvalue
  have hlow : (mulAddSmall limbs multiplier addend).1.toNat
      = limbNat (mulAddLoop multiplier limbs.toList (u128From addend)).1 := rfl
  have hbound := (mulAddSmall limbs multiplier addend).1.toNat_lt
  have hsome : (mulAddSmall limbs multiplier addend).2 = some () ↔
      (mulAddLoop multiplier limbs.toList (u128From addend)).2 = 0 := by
    simp [mulAddSmall]
  have hzero : (mulAddLoop multiplier limbs.toList (u128From addend)).2 = 0 ↔
      (mulAddLoop multiplier limbs.toList (u128From addend)).2.toNat = 0 :=
    ⟨fun h => by rw [h]; rfl, fun h => BitVec.eq_of_toNat_eq h⟩
  have hlimbs : limbNat limbs.toList = limbs.toNat := rfl
  rw [hsome, hzero]
  rw [hlimbs, ← hlow] at hvalue
  rw [hvalue, Nat.add_mul_mod_self_left, Nat.mod_eq_of_lt hbound]
  exact ⟨rfl, by omega⟩

/-- Every product and every sum of the pass, as integers, fit in 128 bits. -/
def MulAddExact (multiplier : UInt64) : List UInt64 → BitVec 128 → Prop
  | [], _ => True
  | limb :: limbs, carry =>
      limb.toNat * multiplier.toNat + carry.toNat < 2 ^ 128 ∧
        MulAddExact multiplier limbs ((u128From limb * u128From multiplier + carry) >>> 64)

theorem mulAddExact (multiplier : UInt64) (limbs : List UInt64) {carry : BitVec 128}
    (h : carry.toNat < 2 ^ 64) : MulAddExact multiplier limbs carry := by
  induction limbs generalizing carry with
  | nil => exact trivial
  | cons limb limbs ih =>
      obtain ⟨hexact, -, -, hcarry⟩ := mulAdd_step limb multiplier h
      exact ⟨hexact, ih hcarry⟩

/-- Every shifted remainder with its limb, as an integer, fits in 128 bits, every quotient
limb and the last remainder in 64. -/
def DivRemExact (divisor : UInt64) : List UInt64 → BitVec 128 → Prop
  | [], remainder => remainder.toNat < 2 ^ 64
  | limb :: limbs, remainder =>
      remainder.toNat * 2 ^ 64 + limb.toNat < 2 ^ 128 ∧
        (remainder.toNat * 2 ^ 64 + limb.toNat) / divisor.toNat < 2 ^ 64 ∧
        DivRemExact divisor limbs (((remainder <<< 64) ||| u128From limb) % u128From divisor)

theorem divRemExact (divisor : UInt64) (limbs : List UInt64) {remainder : BitVec 128}
    (h : remainder.toNat < divisor.toNat) : DivRemExact divisor limbs remainder := by
  have hd := divisor.toNat_lt
  induction limbs generalizing remainder with
  | nil => exact Nat.lt_trans h hd
  | cons limb limbs ih =>
      have hl := limb.toNat_lt
      obtain ⟨hvalue, hquotient⟩ := divRem_step limb h
      rw [hvalue] at hquotient
      exact ⟨by omega, hquotient, ih (toNat_umod_u128From _ (Nat.zero_lt_of_lt h)).2⟩

theorem limbNat_inj {xs ys : List UInt64} (length : xs.length = ys.length)
    (h : limbNat xs = limbNat ys) : xs = ys := by
  induction xs generalizing ys with
  | nil => exact (List.length_eq_zero_iff.mp length.symm).symm
  | cons x xs ih =>
      cases ys with
      | nil => simp at length
      | cons y ys =>
          have hx := x.toNat_lt
          have hy := y.toNat_lt
          simp only [limbNat_cons] at h
          have hhead : x = y := UInt64.toNat.inj (by omega)
          have htail : xs = ys := ih (by simpa using length) (by omega)
          rw [hhead, htail]

theorem toNat_u64FromBeBytes {bytes : List UInt8} (h : bytes.length = 8) :
    (u64FromBeBytes bytes).toNat = beNat bytes := by
  have hlt := beNat_lt bytes
  rw [h] at hlt
  exact UInt64.toNat_ofNat_of_lt' hlt

/-- The limbs are written from the end of the array to its front. -/
theorem toList_limbsToBeBytes (limbs : Limbs) :
    (limbsToBeBytes limbs).toList = limbs.toList.reverse.flatMap u64ToBeBytes := by
  obtain ⟨limbs, hlength⟩ := limbs
  match limbs, hlength with
  | [a, b, c, d], _ =>
      simp [limbsToBeBytes, copyFromSlice, u64ToBeBytes, List.Vector.toList]

theorem beNat_flatMap_u64ToBeBytes (limbs : List UInt64) :
    beNat (limbs.reverse.flatMap u64ToBeBytes) = limbNat limbs := by
  induction limbs with
  | nil => rfl
  | cons limb limbs ih =>
      have hlimb : beNat (u64ToBeBytes limb) = limb.toNat := beNat_toBe_of_lt limb.toNat_lt
      rw [List.reverse_cons, List.flatMap_append, beNat_append, ih, List.flatMap_singleton, hlimb,
        limbNat_cons, u64ToBeBytes, length_toBe]
      omega

theorem beNat_limbsToBeBytes (limbs : Limbs) :
    beNat (limbsToBeBytes limbs).toList = limbs.toNat := by
  rw [toList_limbsToBeBytes, beNat_flatMap_u64ToBeBytes]
  rfl

theorem toNat_beBytesToLimbs (bytes : List.Vector UInt8 32) :
    (beBytesToLimbs bytes).toNat = beNat bytes.toList := by
  have hlength := bytes.toList_length
  have hlimbs : (beBytesToLimbs bytes).toNat
      = limbNat ([24, 16, 8, 0].map fun start =>
          u64FromBeBytes ((bytes.toList.drop start).take 8)) := rfl
  -- One limb in front of the bytes behind it.
  have hstep (start : Nat) (h : start + 8 ≤ 32) : beNat (bytes.toList.drop start)
      = (u64FromBeBytes ((bytes.toList.drop start).take 8)).toNat * 256 ^ (24 - start)
        + beNat (bytes.toList.drop (start + 8)) := by
    have hchunk : ((bytes.toList.drop start).take 8).length = 8 := by simp; omega
    have hrest : (bytes.toList.drop (start + 8)).length = 24 - start := by simp
    have hsplit := List.take_append_drop 8 (bytes.toList.drop start)
    rw [List.drop_drop] at hsplit
    rw [← hsplit, beNat_append, hsplit, hrest, toNat_u64FromBeBytes hchunk]
  have h0 := hstep 0 (by decide)
  have h1 := hstep 8 (by decide)
  have h2 := hstep 16 (by decide)
  have h3 := hstep 24 (by decide)
  have hend : bytes.toList.drop 32 = [] := List.drop_eq_nil_of_le hlength.le
  rw [hend, beNat_nil] at h3
  simp only [List.drop_zero, Nat.reduceAdd, Nat.reduceSub] at h0 h1 h2 h3
  rw [hlimbs, h0, h1, h2, h3]
  simp only [List.map_cons, List.map_nil, limbNat_cons, limbNat_nil, List.drop_zero]
  omega

theorem limbsToBeBytes_beBytesToLimbs (bytes : List.Vector UInt8 32) :
    limbsToBeBytes (beBytesToLimbs bytes) = bytes := by
  refine List.Vector.eq _ _ (beNat_inj (by simp) ?_)
  rw [beNat_limbsToBeBytes, toNat_beBytesToLimbs]

theorem beBytesToLimbs_limbsToBeBytes (limbs : Limbs) :
    beBytesToLimbs (limbsToBeBytes limbs) = limbs := by
  refine List.Vector.eq _ _ (limbNat_inj (by simp) ?_)
  exact (toNat_beBytesToLimbs _).trans (beNat_limbsToBeBytes limbs)

/-- The arithmetic is exact for every multiplier and every divisor. No intermediate of
either pass is cut off; the results are those on integers, reduced where they outgrow the
limbs; and limbs and bytes are two forms of one integer. -/
theorem limb_arithmetic_exact :
    (∀ (limbs : Limbs) (multiplier addend : UInt64),
      MulAddExact multiplier limbs.toList (u128From addend) ∧
      ((mulAddSmall limbs multiplier addend).2 = some () ↔
        limbs.toNat * multiplier.toNat + addend.toNat < 2 ^ 256) ∧
      (mulAddSmall limbs multiplier addend).1.toNat
        = (limbs.toNat * multiplier.toNat + addend.toNat) % 2 ^ 256) ∧
    (∀ (limbs : Limbs) (divisor : UInt64), 1 ≤ divisor →
      DivRemExact divisor limbs.toList.reverse 0 ∧
      (divRemSmall limbs divisor).1.toNat = limbs.toNat / divisor.toNat ∧
      (divRemSmall limbs divisor).2.toNat = limbs.toNat % divisor.toNat) ∧
    (∀ bytes : List.Vector UInt8 32,
      limbsToBeBytes (beBytesToLimbs bytes) = bytes ∧
      (beBytesToLimbs bytes).toNat = beNat bytes.toList) ∧
    ∀ limbs : Limbs,
      beBytesToLimbs (limbsToBeBytes limbs) = limbs ∧
      beNat (limbsToBeBytes limbs).toList = limbs.toNat := by
  refine ⟨?_, ?_, ?_, ?_⟩
  · intro limbs multiplier addend
    obtain ⟨hvalue, hfits⟩ := mulAddSmall_spec limbs multiplier addend
    refine ⟨mulAddExact multiplier limbs.toList ?_, hfits, hvalue⟩
    rw [toNat_u128From]
    exact addend.toNat_lt
  · intro limbs divisor hdivisor
    have hpositive : 0 < divisor.toNat := UInt64.le_iff_toNat_le.mp hdivisor
    obtain ⟨hquotient, hremainder⟩ := divRemSmall_spec limbs divisor hpositive
    exact ⟨divRemExact divisor _ hpositive, hquotient, hremainder⟩
  · intro bytes
    exact ⟨limbsToBeBytes_beBytesToLimbs bytes, toNat_beBytesToLimbs bytes⟩
  · intro limbs
    exact ⟨beBytesToLimbs_limbsToBeBytes limbs, beNat_limbsToBeBytes limbs⟩

/-- The largest value, divided by the largest divisor. -/
theorem limb_arithmetic_exact_max :
    let limbs : Limbs := .replicate 4 0xffffffffffffffff
    DivRemExact 0xffffffffffffffff limbs.toList.reverse 0 ∧
      (divRemSmall limbs 0xffffffffffffffff).1.toNat = (2 ^ 256 - 1) / (2 ^ 64 - 1) ∧
      (divRemSmall limbs 0xffffffffffffffff).2.toNat = 0 :=
  limb_arithmetic_exact.2.1 (.replicate 4 0xffffffffffffffff) 0xffffffffffffffff (by decide)

end ZwaProtocol
