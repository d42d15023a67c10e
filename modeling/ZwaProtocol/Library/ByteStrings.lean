import Mathlib.Data.Nat.Digits.Defs
import Mathlib.Data.Vector.Basic
import Mathlib.Algebra.Order.Ring.Nat

/-!
Byte strings and the integers they denote, in both byte orders. The encoders
are fixed width: they drop what does not fit, and the decoders are exact on
every string. Strings of one length are ordered lexicographically exactly as
their big-endian integers are.
-/

namespace ByteStrings

/-- The integer of a little-endian byte string. -/
def leNat (bytes : List UInt8) : Nat :=
  Nat.ofDigits 256 (bytes.map UInt8.toNat)

/-- The integer of a big-endian byte string. -/
def beNat (bytes : List UInt8) : Nat := leNat bytes.reverse

/-- The low `width` bytes of an integer, least significant first. -/
def toLe : Nat → Nat → List UInt8
  | 0, _ => []
  | width + 1, n => UInt8.ofNat n :: toLe width (n / 256)

/-- The low `width` bytes of an integer, most significant first. -/
def toBe (width n : Nat) : List UInt8 := (toLe width n).reverse

@[simp] theorem leNat_nil : leNat [] = 0 := rfl

@[simp] theorem leNat_cons (b : UInt8) (bytes : List UInt8) :
    leNat (b :: bytes) = b.toNat + 256 * leNat bytes := rfl

theorem leNat_append (xs ys : List UInt8) :
    leNat (xs ++ ys) = leNat xs + 256 ^ xs.length * leNat ys := by
  simp [leNat, Nat.ofDigits_append]

theorem leNat_replicate_zero (n : Nat) : leNat (List.replicate n 0) = 0 := by
  induction n with
  | zero => rfl
  | succ n ih => simp [List.replicate_succ, ih]

theorem leNat_lt (bytes : List UInt8) : leNat bytes < 256 ^ bytes.length := by
  induction bytes with
  | nil => simp
  | cons b bytes ih =>
      have hb := b.toNat_lt
      simp only [leNat_cons, List.length_cons, pow_succ]
      omega

@[simp] theorem length_toLe (width n : Nat) : (toLe width n).length = width := by
  induction width generalizing n with
  | zero => rfl
  | succ width ih => simp [toLe, ih]

theorem leNat_toLe (width n : Nat) : leNat (toLe width n) = n % 256 ^ width := by
  induction width generalizing n with
  | zero => simp [toLe, Nat.mod_one]
  | succ width ih =>
      have hb : (UInt8.ofNat n).toNat = n % 256 := by simp
      rw [toLe, leNat_cons, ih, hb, pow_succ', Nat.mod_mul]

theorem leNat_toLe_of_lt {width n : Nat} (h : n < 256 ^ width) :
    leNat (toLe width n) = n := by
  rw [leNat_toLe, Nat.mod_eq_of_lt h]

theorem toLe_leNat (bytes : List UInt8) : toLe bytes.length (leNat bytes) = bytes := by
  induction bytes with
  | nil => rfl
  | cons b bytes ih =>
      have hb := b.toNat_lt
      have hhead : UInt8.ofNat (b.toNat + 256 * leNat bytes) = b := by
        apply UInt8.toNat.inj
        simp
      have htail : (b.toNat + 256 * leNat bytes) / 256 = leNat bytes := by omega
      rw [leNat_cons, List.length_cons, toLe, hhead, htail, ih]

theorem take_toLe (short width n : Nat) (h : short ≤ width) :
    (toLe width n).take short = toLe short n := by
  induction short generalizing width n with
  | zero => simp [toLe]
  | succ short ih =>
      obtain ⟨width, rfl⟩ : ∃ rest, width = rest + 1 := ⟨width - 1, by omega⟩
      simp [toLe, ih width (n / 256) (by omega)]

/-- Strings of one length are told apart by their integers. -/
theorem leNat_inj {xs ys : List UInt8} (length : xs.length = ys.length)
    (h : leNat xs = leNat ys) : xs = ys := by
  rw [← toLe_leNat xs, ← toLe_leNat ys, length, h]

@[simp] theorem length_toBe (width n : Nat) : (toBe width n).length = width := by
  simp [toBe]

theorem beNat_toBe_of_lt {width n : Nat} (h : n < 256 ^ width) :
    beNat (toBe width n) = n := by
  simp [beNat, toBe, leNat_toLe_of_lt h]

theorem beNat_lt (bytes : List UInt8) : beNat bytes < 256 ^ bytes.length := by
  simpa [beNat] using leNat_lt bytes.reverse

theorem beNat_inj {xs ys : List UInt8} (length : xs.length = ys.length)
    (h : beNat xs = beNat ys) : xs = ys :=
  List.reverse_injective (leNat_inj (by simpa using length) h)

@[simp] theorem beNat_nil : beNat [] = 0 := rfl

theorem beNat_cons (b : UInt8) (bytes : List UInt8) :
    beNat (b :: bytes) = b.toNat * 256 ^ bytes.length + beNat bytes := by
  simp only [beNat, List.reverse_cons, leNat_append, List.length_reverse, leNat_cons,
    leNat_nil, Nat.mul_zero, Nat.add_zero]
  rw [Nat.mul_comm, Nat.add_comm]

theorem beNat_append (xs ys : List UInt8) :
    beNat (xs ++ ys) = beNat xs * 256 ^ ys.length + beNat ys := by
  rw [beNat, List.reverse_append, leNat_append, List.length_reverse, Nat.mul_comm, Nat.add_comm]
  rfl

theorem beNat_replicate_zero_append (n : Nat) (bytes : List UInt8) :
    beNat (List.replicate n 0 ++ bytes) = beNat bytes := by
  simp [beNat, leNat_append, leNat_replicate_zero]

/-- A larger leading digit outweighs what follows a smaller one. -/
theorem digits_lt {x y base a : Nat} (b : Nat) (digit : x < y) (ha : a < base) :
    x * base + a < y * base + b := by
  have hmul : (x + 1) * base ≤ y * base := Nat.mul_le_mul_right base digit
  rw [Nat.add_mul] at hmul
  omega

theorem compare_add_left (c a b : Nat) : compare (c + a) (c + b) = compare a b := by
  simp only [Nat.compare_eq_ite_lt, Nat.add_lt_add_iff_left]

/-- On strings of one length the lexicographic order is the integer order:
the first differing byte outweighs everything after it. -/
theorem compare_eq_compare_beNat {xs ys : List UInt8} (length : xs.length = ys.length) :
    compare xs ys = compare (beNat xs) (beNat ys) := by
  induction xs generalizing ys with
  | nil =>
      cases ys with
      | nil => rfl
      | cons _ _ => simp at length
  | cons x xs ih =>
      cases ys with
      | nil => simp at length
      | cons y ys =>
          have htail : xs.length = ys.length := by simpa using length
          have hx := beNat_lt xs
          have hy := beNat_lt ys
          rw [htail] at hx
          rw [List.compare_cons_cons, ih htail, beNat_cons, beNat_cons, htail]
          rcases Nat.lt_trichotomy x.toNat y.toNat with hlt | heq | hgt
          · have hhead : compare x y = .lt := by
              rw [Std.compare_eq_lt]
              exact UInt8.lt_iff_toNat_lt.mpr hlt
            have hvalues := digits_lt (beNat ys) hlt hx
            rw [hhead, Ordering.lt_then, Nat.compare_eq_lt.mpr hvalues]
          · have hhead : x = y := UInt8.toNat.inj heq
            subst hhead
            have hself : compare x x = .eq := Std.ReflOrd.compare_self
            rw [hself, Ordering.eq_then, compare_add_left]
          · have hhead : compare x y = .gt := by
              rw [Std.compare_eq_gt]
              exact UInt8.lt_iff_toNat_lt.mpr hgt
            have hvalues := digits_lt (beNat xs) hgt hy
            rw [hhead, Ordering.gt_then, Nat.compare_eq_gt.mpr hvalues]

/-- Consecutive chunks of one width; the last one holds what is left. -/
def chunks (width : Nat) (positive : 0 < width) : List UInt8 → List (List UInt8)
  | [] => []
  | b :: bytes =>
      (b :: bytes).take width :: chunks width positive ((b :: bytes).drop width)
termination_by bytes => bytes.length
decreasing_by
  simp only [List.length_drop, List.length_cons]
  omega

section Chunks
variable {width : Nat} {positive : 0 < width}

@[simp] theorem chunks_nil : chunks width positive [] = [] := by
  rw [chunks]

theorem chunks_of_ne_nil {bytes : List UInt8} (h : bytes ≠ []) :
    chunks width positive bytes
      = bytes.take width :: chunks width positive (bytes.drop width) := by
  cases bytes with
  | nil => exact absurd rfl h
  | cons b bytes => rw [chunks]

theorem length_chunks_le (bytes : List UInt8) :
    (chunks width positive bytes).length ≤ bytes.length := by
  induction bytes using chunks.induct width positive with
  | case1 => simp
  | case2 b bytes ih =>
      rw [chunks, List.length_cons, List.length_cons]
      rw [List.length_drop, List.length_cons] at ih
      omega

theorem length_of_mem_chunks {bytes chunk : List UInt8} (h : chunk ∈ chunks width positive bytes) :
    chunk.length ≤ width := by
  induction bytes using chunks.induct width positive with
  | case1 => simp at h
  | case2 b bytes ih =>
      rw [chunks, List.mem_cons] at h
      obtain rfl | h := h
      · exact List.length_take_le _ _
      · exact ih h

/-- Strings of one length are told apart by the integers of their chunks, although
the last chunk does not show where it ends. -/
theorem chunks_leNat_inj {xs ys : List UInt8} (length : xs.length = ys.length)
    (h : (chunks width positive xs).map leNat = (chunks width positive ys).map leNat) :
    xs = ys := by
  induction xs using chunks.induct width positive generalizing ys with
  | case1 => exact (List.length_eq_zero_iff.mp length.symm).symm
  | case2 b xs ih =>
      have hys : ys ≠ [] := by
        rintro rfl
        simp at length
      rw [chunks_of_ne_nil (List.cons_ne_nil b xs), chunks_of_ne_nil hys, List.map_cons,
        List.map_cons] at h
      obtain ⟨hhead, htail⟩ := List.cons.inj h
      have hfirst := leNat_inj (by rw [List.length_take, List.length_take, length]) hhead
      have hrest := ih (by rw [List.length_drop, List.length_drop, length]) htail
      rw [← List.take_append_drop width (b :: xs), ← List.take_append_drop width ys, hfirst, hrest]

end Chunks

end ByteStrings
