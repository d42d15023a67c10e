import ZwaProtocol.Library.HashChain
import ZwaProtocol.Commitments.Trade

/-!
Commitments to canonical byte strings. The domain and the two lengths are hashed, then
one limb of 16 bytes at a time behind the digest before it.
-/
namespace ZwaProtocol
open HashStaging HashChain ByteStrings FieldElement

/-- `&[u8]`: the length of a slice is a 64-bit integer. -/
structure ByteSlice where
  bytes : List UInt8
  bounded : bytes.length < 2 ^ 64
  deriving DecidableEq

theorem ByteSlice.bytes_injective : Function.Injective ByteSlice.bytes := by
  intro x y h
  cases x
  cases y
  cases h
  rfl

/-- `bytes.chunks(CANONICAL_BYTE_CHUNK)`. -/
def canonicalByteChunks (bytes : List UInt8) : List (List UInt8) := chunks 16 (by decide) bytes

section Poseidon
variable (H : List Fr → Fr)

/-- One round of the loop over the limbs and their indices. -/
def absorbLimb (state : FieldElement) (entry : BitVec 128 × Nat) : Hashed Fr FieldElement :=
  hash H [state, fromU128 entry.1, fromU64 (UInt64.ofNat entry.2)]

def canonicalBytesCommitment (domain : Domain) (slice : ByteSlice) :
    Hashed Fr FieldElement := do
  let limbs := (canonicalByteChunks slice.bytes).map littleEndianU128
  let state ← hash H
    [domain.asField, fromU64 (UInt64.ofNat slice.bytes.length),
      fromU64 (UInt64.ofNat limbs.length)]
  limbs.zipIdx.foldlM (absorbLimb H) state

def matcherFeeRecipientCommitment (receiver : OrchardReceiverBytes) :
    Hashed Fr RecipientCommitment := do
  let digest ← canonicalBytesCommitment H .feeRecipientV1
    ⟨receiver.bytes.toList, by simp [receiver.bytes.toList_length]⟩
  return ⟨digest⟩

end Poseidon

/-- The limbs as integers. -/
def limbNats (bytes : List UInt8) : List Nat := (canonicalByteChunks bytes).map leNat

def Domain.header (domain : Domain) (bytes : List UInt8) : List Fr :=
  [domain.asField.toFr, (bytes.length : Fr), ((limbNats bytes).length : Fr)]

def limbBlock (entry : Nat × Nat) : List Fr := [(entry.1 : Fr), (entry.2 : Fr)]

def limbBlocks (bytes : List UInt8) : List (List Fr) := (limbNats bytes).zipIdx.map limbBlock

theorem length_limbNats_le (bytes : List UInt8) : (limbNats bytes).length ≤ bytes.length := by
  rw [limbNats, List.length_map]
  exact length_chunks_le bytes

theorem toNat_limbs (bytes : List UInt8) :
    (canonicalByteChunks bytes).map (fun chunk => (littleEndianU128 chunk).toNat)
      = limbNats bytes := by
  apply List.map_congr_left
  intro chunk hmem
  exact toNat_littleEndianU128 (length_of_mem_chunks hmem)

theorem toFr_fromU64_ofNat {n : Nat} (h : n < 2 ^ 64) :
    (fromU64 (UInt64.ofNat n)).toFr = (n : Fr) := by
  rw [toFr_fromU64, UInt64.toNat_ofNat_of_lt' h]

/-- The indices of the limbs fit 64 bits, as there are no more limbs than bytes. -/
theorem limbBlocks_eq {bytes : List UInt8} (bounded : bytes.length < 2 ^ 64) :
    limbBlocks bytes = ((canonicalByteChunks bytes).map littleEndianU128).zipIdx.map (fun entry =>
      [(fromU128 entry.1).toFr, (fromU64 (UInt64.ofNat entry.2)).toFr]) := by
  have hlimbs : limbNats bytes
      = ((canonicalByteChunks bytes).map littleEndianU128).map BitVec.toNat := by
    rw [← toNat_limbs, List.map_map]
    rfl
  have hlength : ((canonicalByteChunks bytes).map littleEndianU128).length ≤ bytes.length := by
    have hle := length_limbNats_le bytes
    rwa [hlimbs, List.length_map] at hle
  rw [limbBlocks, hlimbs, List.zipIdx_map, List.map_map]
  apply List.map_congr_left
  intro entry hmem
  have hindex := List.snd_lt_of_mem_zipIdx hmem
  rw [toFr_fromU128, toFr_fromU64_ofNat (by omega)]
  rfl

section Chain
variable (H : List Fr → Fr)

theorem foldlM_absorbLimb (entries : List (BitVec 128 × Nat)) (state : FieldElement) :
    (entries.foldlM (absorbLimb H) state).value.toFr
        = (chain H state.toFr (entries.map fun entry =>
            [(fromU128 entry.1).toFr, (fromU64 (UInt64.ofNat entry.2)).toFr])).value ∧
      (entries.foldlM (absorbLimb H) state).inputs
        = (chain H state.toFr (entries.map fun entry =>
            [(fromU128 entry.1).toFr, (fromU64 (UInt64.ofNat entry.2)).toFr])).inputs := by
  induction entries generalizing state with
  | nil => exact ⟨rfl, rfl⟩
  | cons entry entries ih =>
      obtain ⟨hvalue, hinputs⟩ := ih (absorbLimb H state entry).value
      have hstate : (absorbLimb H state entry).value.toFr
          = H (state.toFr :: [(fromU128 entry.1).toFr, (fromU64 (UInt64.ofNat entry.2)).toFr]) := by
        simp [absorbLimb]
      rw [hstate] at hvalue hinputs
      rw [List.foldlM_cons, List.map_cons, chain]
      refine ⟨hvalue, ?_⟩
      rw [Hashed.inputs_bind, hinputs]
      simp [absorbLimb]

/-- The commitment is the chain of its header and its limbs. -/
theorem canonicalBytesCommitment_eq_absorb (domain : Domain) (slice : ByteSlice) :
    (canonicalBytesCommitment H domain slice).value.toFr
        = (absorb H (domain.header slice.bytes) (limbBlocks slice.bytes)).value ∧
      (canonicalBytesCommitment H domain slice).inputs
        = (absorb H (domain.header slice.bytes) (limbBlocks slice.bytes)).inputs := by
  obtain ⟨bytes, bounded⟩ := slice
  have hheader : [domain.asField, fromU64 (UInt64.ofNat bytes.length), fromU64 (UInt64.ofNat
      ((canonicalByteChunks bytes).map littleEndianU128).length)].map toFr
        = domain.header bytes := by
    have hle := length_limbNats_le bytes
    have hcount : ((canonicalByteChunks bytes).map littleEndianU128).length
        = (limbNats bytes).length := by simp [limbNats]
    rw [Domain.header, hcount, List.map_cons, List.map_cons, List.map_cons, List.map_nil,
      toFr_fromU64_ofNat bounded, toFr_fromU64_ofNat (by omega)]
  obtain ⟨hvalue, hinputs⟩ := foldlM_absorbLimb H
    ((canonicalByteChunks bytes).map littleEndianU128).zipIdx (fromFr (H (domain.header bytes)))
  rw [← limbBlocks_eq bounded, toFr_fromFr] at hvalue hinputs
  simp only [canonicalBytesCommitment, Hashed.value_bind, Hashed.inputs_bind, value_hash,
    inputs_hash, hheader]
  refine ⟨hvalue, ?_⟩
  rw [hinputs]
  rfl

/-- The last list hashed for a string that is not empty starts with a digest. -/
theorem canonicalBytes_outermost (domain : Domain) (slice : ByteSlice) (h : slice.bytes ≠ []) :
    ∃ input ∈ (canonicalBytesCommitment H domain slice).inputs, ∃ block,
      H input :: block ∈ (canonicalBytesCommitment H domain slice).inputs ∧
      (canonicalBytesCommitment H domain slice).value.toFr = H (H input :: block) := by
  obtain ⟨hvalue, hinputs⟩ := canonicalBytesCommitment_eq_absorb H domain slice
  rw [hvalue, hinputs]
  have hblocks : limbBlocks slice.bytes ≠ [] := by
    simp [limbBlocks, limbNats, canonicalByteChunks, chunks_of_ne_nil h]
  rw [← List.dropLast_concat_getLast hblocks, inputs_absorb_concat, value_absorb_concat]
  obtain ⟨input, hmem, hdigest⟩ :=
    exists_digest H (domain.header slice.bytes) (limbBlocks slice.bytes).dropLast
  rw [← hdigest]
  exact ⟨input, List.mem_append_left _ hmem, _,
    List.mem_append_right _ (List.mem_singleton_self _), rfl⟩

end Chain

theorem natCast_inj_of_lt {m n : Nat} (hm : m < modulus) (hn : n < modulus)
    (h : (m : Fr) = (n : Fr)) : m = n := by
  have hval := congrArg ZMod.val h
  rwa [ZMod.val_cast_of_lt hm, ZMod.val_cast_of_lt hn] at hval

theorem limbNats_lt {bytes : List UInt8} {limb : Nat} (h : limb ∈ limbNats bytes) :
    limb < modulus := by
  obtain ⟨chunk, hmem, rfl⟩ := List.mem_map.mp h
  have hlt := leNat_lt chunk
  have hwidth : 256 ^ chunk.length ≤ 256 ^ 16 :=
    Nat.pow_le_pow_right (by decide) (length_of_mem_chunks hmem)
  exact hlt.trans_le (hwidth.trans (by decide +kernel))

/-- The limbs are read back from their blocks. -/
theorem map_head_limbBlocks (bytes : List UInt8) :
    (limbBlocks bytes).map (fun block => (block.headD 0).val) = limbNats bytes := by
  rw [limbBlocks, List.map_map]
  refine Eq.trans (List.map_congr_left ?_) (List.zipIdx_map_fst 0 (limbNats bytes))
  intro entry hmem
  exact ZMod.val_cast_of_lt (limbNats_lt (List.fst_mem_of_mem_zipIdx hmem))

theorem Domain.asField_injective : Function.Injective Domain.asField := by
  intro d e h
  cases d
  cases e
  exact congrArg Domain.mk (fromU64_inj h)

theorem Domain.header_inj {d e : Domain} {b c : ByteSlice}
    (h : d.header b.bytes = e.header c.bytes) : d = e ∧ b.bytes.length = c.bytes.length := by
  have hsmall (slice : ByteSlice) : slice.bytes.length < modulus :=
    slice.bounded.trans (by decide +kernel)
  obtain ⟨hdomain, htail⟩ := List.cons.inj h
  obtain ⟨hlength, -⟩ := List.cons.inj htail
  exact ⟨Domain.asField_injective (toFr_injective hdomain),
    natCast_inj_of_lt (hsmall b) (hsmall c) hlength⟩

/-- Canonical-byte commitments separate byte strings and domains: two equal ones are of
one string under one domain, or hashed two different lists to one digest, or took a
digest that is one of their domain tags. -/
theorem canonical_bytes_separated (H : List Fr → Fr) (d e : Domain) (b c : ByteSlice)
    (h : (canonicalBytesCommitment H d b).value = (canonicalBytesCommitment H e c).value) :
    (d = e ∧ b = c) ∨
    Collision H
      ((canonicalBytesCommitment H d b).inputs ++ (canonicalBytesCommitment H e c).inputs) ∨
    ∃ input ∈ (canonicalBytesCommitment H d b).inputs ++ (canonicalBytesCommitment H e c).inputs,
      H input = d.asField.toFr ∨ H input = e.asField.toFr := by
  obtain ⟨hvalue, hinputs⟩ := canonicalBytesCommitment_eq_absorb H d b
  obtain ⟨hvalue', hinputs'⟩ := canonicalBytesCommitment_eq_absorb H e c
  rw [hinputs, hinputs']
  by_cases hcollision : Collision H ((absorb H (d.header b.bytes) (limbBlocks b.bytes)).inputs
      ++ (absorb H (e.header c.bytes) (limbBlocks c.bytes)).inputs)
  · exact .inr (.inl hcollision)
  · have hdigest := congrArg toFr h
    rw [hvalue, hvalue'] at hdigest
    obtain ⟨hheader, hblocks⟩ | ⟨input, hmem, block, hhead⟩ | ⟨input, hmem, block, hhead⟩ :=
      absorb_inj (injOn_of_not_collision hcollision)
        (fun xs hxs => List.mem_append_left _ hxs) (fun xs hxs => List.mem_append_right _ hxs)
        hdigest
    · obtain ⟨hdomain, hlength⟩ := Domain.header_inj hheader
      have hlimbs : limbNats b.bytes = limbNats c.bytes := by
        rw [← map_head_limbBlocks, hblocks, map_head_limbBlocks]
      exact .inl ⟨hdomain, ByteSlice.bytes_injective (chunks_leNat_inj hlength hlimbs)⟩
    · exact .inr (.inr ⟨input, List.mem_append_right _ hmem, .inl (List.cons.inj hhead).1.symm⟩)
    · exact .inr (.inr ⟨input, List.mem_append_left _ hmem, .inr (List.cons.inj hhead).1.symm⟩)

/-- Three bytes, in one chunk. -/
def shortBytes : ByteSlice := ⟨[22, 0, 0], by decide⟩

/-- Twenty bytes, in two chunks. -/
def longBytes : ByteSlice := ⟨[1, 0, 0, 1] ++ .replicate 12 0 ++ [2, 0, 0, 0], by decide⟩

/-- A sum in place of the hash gives two strings of one and of two chunks, under different
domains, one commitment: two lists with one sum were hashed. -/
theorem canonical_bytes_separated_sum :
    Collision List.sum ((canonicalBytesCommitment List.sum .tradeBV1 shortBytes).inputs
      ++ (canonicalBytesCommitment List.sum .tradeAV1 longBytes).inputs) := by
  have hvalue : (canonicalBytesCommitment List.sum .tradeBV1 shortBytes).value
      = (canonicalBytesCommitment List.sum .tradeAV1 longBytes).value := by decide +kernel
  have hnotag : ∀ input ∈ (canonicalBytesCommitment List.sum .tradeBV1 shortBytes).inputs
      ++ (canonicalBytesCommitment List.sum .tradeAV1 longBytes).inputs,
      ¬ (input.sum = Domain.tradeBV1.asField.toFr ∨ input.sum = Domain.tradeAV1.asField.toFr) := by
    decide +kernel
  obtain ⟨hdomain, -⟩ | hcollision | ⟨input, hmem, htag⟩ :=
    canonical_bytes_separated _ _ _ _ _ hvalue
  · exact absurd hdomain (by decide)
  · exact hcollision
  · exact absurd htag (hnotag input hmem)

end ZwaProtocol
