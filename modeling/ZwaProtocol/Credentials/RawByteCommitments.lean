import ZwaProtocol.Credentials.DomainSeparation

/-!
Commitments to raw bytes against the typed commitments whose lists have the shape of
the byte-string header: a domain and two more entries. The header of the empty string
holds two zeros there, and so do the lists of the zero asset and of the zero binding.
-/
namespace ZwaProtocol
open HashStaging HashChain FieldElement CommitmentKind

/-- The 32 zero bytes. -/
def AssetBaseBytes.zero : AssetBaseBytes := ⟨.replicate 32 0⟩

def ByteSlice.empty : ByteSlice := ⟨[], by decide⟩

theorem ByteSlice.eq_empty_iff {slice : ByteSlice} : slice = empty ↔ slice.bytes = [] :=
  bytes_injective.eq_iff.symm

theorem encodeAssetBase_zero : encodeAssetBase .zero = ⟨0, 0⟩ := by decide +kernel

theorem FieldElement.toFr_eq_zero {element : FieldElement} (h : element.toFr = 0) :
    element = .zero :=
  toFr_injective (h.trans toFr_zero.symm)

theorem toFr_fromU128_eq_zero {limb : BitVec 128} (h : (fromU128 limb).toFr = 0) : limb = 0 := by
  have hzero : fromU128 limb = fromU128 0 := toFr_injective (h.trans (by simp [toFr_fromU128]))
  exact fromU128_inj hzero

section Poseidon
variable (H : List Fr → Fr)

/-- The empty string is committed to by its header alone. -/
theorem canonicalBytesCommitment_empty (domain : Domain) :
    (canonicalBytesCommitment H domain .empty).value.toFr = H [domain.asFr, 0, 0] ∧
      (canonicalBytesCommitment H domain .empty).inputs = [[domain.asFr, 0, 0]] := by
  have hheader : domain.header ByteSlice.empty.bytes = [domain.asFr, 0, 0] := by
    simp [Domain.header, Domain.asFr, ByteSlice.empty, limbNats, canonicalByteChunks]
  have hblocks : limbBlocks ByteSlice.empty.bytes = [] := by
    simp [limbBlocks, ByteSlice.empty, limbNats, canonicalByteChunks]
  obtain ⟨hvalue, hinputs⟩ := canonicalBytesCommitment_eq_absorb H domain .empty
  rw [hheader, hblocks, absorb_nil] at hvalue hinputs
  exact ⟨hvalue, hinputs⟩

theorem assetCommitment_spec (asset : AssetBaseBytes) :
    (assetCommitment H asset).value.value.toFr
        = H [Domain.assetV1.asFr, (fromU128 (encodeAssetBase asset).hi).toFr,
          (fromU128 (encodeAssetBase asset).lo).toFr] ∧
      (assetCommitment H asset).inputs
        = [[Domain.assetV1.asFr, (fromU128 (encodeAssetBase asset).hi).toFr,
          (fromU128 (encodeAssetBase asset).lo).toFr]] := by
  simp [assetCommitment, Domain.asFr]

theorem recipientCommitment_spec (subject : SubjectCommitment) (receiver : ReceiverCommitment) :
    (recipientCommitment H subject receiver).value.value.toFr
        = H [Domain.recipientBindingV1.asFr, subject.value.toFr, receiver.value.toFr] ∧
      (recipientCommitment H subject receiver).inputs
        = [[Domain.recipientBindingV1.asFr, subject.value.toFr, receiver.value.toFr]] := by
  simp [recipientCommitment, Domain.asFr]

variable {H}

/-- A string that is not empty is committed to behind a digest, which would have to be
the tag; the empty string has the header, which is the list only where it holds zeros. -/
theorem canonicalBytes_meets_tagged {domain other : Domain} (frozen : other ∈ Domain.all)
    {slice : ByteSlice} {x y : Fr} {inputs : List (List Fr)}
    (hslice : (canonicalBytesCommitment H domain slice).inputs ⊆ inputs)
    (hlist : [other.asFr, x, y] ∈ inputs)
    (h : (canonicalBytesCommitment H domain slice).value.toFr = H [other.asFr, x, y]) :
    Collision H inputs ∨ TagHit H inputs ∨
      (slice = .empty ∧ domain = other ∧ x = 0 ∧ y = 0) := by
  rw [or_iff_not_imp_left]
  intro hcollision
  have hinjective := injOn_of_not_collision hcollision
  by_cases hempty : slice = .empty
  · subst hempty
    obtain ⟨hvalue, hinputs⟩ := canonicalBytesCommitment_empty H domain
    have hheader : [domain.asFr, 0, 0] ∈ inputs := hslice (by simp [hinputs])
    have hlists := hinjective hheader hlist (hvalue.symm.trans h)
    simp only [List.cons.injEq, and_true] at hlists
    obtain ⟨hdomain, hx, hy⟩ := hlists
    exact .inr ⟨rfl, Domain.asField_injective (toFr_injective hdomain), hx.symm, hy.symm⟩
  · have hbytes : slice.bytes ≠ [] := fun hnil => hempty (ByteSlice.eq_empty_iff.mpr hnil)
    obtain ⟨input, hinput, block, hblock, hvalue⟩ :=
      canonicalBytes_outermost H domain slice hbytes
    have hlists := hinjective (hslice hblock) hlist (hvalue.symm.trans h)
    exact .inl ⟨other, frozen, input, hslice hinput, (List.cons.inj hlists).1⟩

variable (H)

/-- Under the asset domain the empty string is the zero asset, and under the domain of
the recipient binding it is the zero binding, whatever the hash. -/
theorem empty_meets_zero :
    ((canonicalBytesCommitment H .assetV1 .empty).value = (assetCommitment H .zero).value.value ∧
      (canonicalBytesCommitment H .assetV1 .empty).inputs = (assetCommitment H .zero).inputs) ∧
    (canonicalBytesCommitment H .recipientBindingV1 .empty).value
        = (recipientCommitment H ⟨.zero⟩ ⟨.zero⟩).value.value ∧
      (canonicalBytesCommitment H .recipientBindingV1 .empty).inputs
        = (recipientCommitment H ⟨.zero⟩ ⟨.zero⟩).inputs := by
  obtain ⟨hvalue, hinputs⟩ := canonicalBytesCommitment_empty H .assetV1
  obtain ⟨hvalue', hinputs'⟩ := canonicalBytesCommitment_empty H .recipientBindingV1
  obtain ⟨hasset, hassets⟩ := assetCommitment_spec H .zero
  obtain ⟨hrecipient, hrecipients⟩ := recipientCommitment_spec H ⟨.zero⟩ ⟨.zero⟩
  have hzero : (fromU128 0).toFr = 0 := by simp [toFr_fromU128]
  rw [encodeAssetBase_zero, hzero] at hasset hassets
  rw [toFr_zero] at hrecipient hrecipients
  exact ⟨⟨toFr_injective (hvalue.trans hasset.symm), hinputs.trans hassets.symm⟩,
    toFr_injective (hvalue'.trans hrecipient.symm), hinputs'.trans hrecipients.symm⟩

end Poseidon

/-- Zero is no tag. -/
theorem not_tagHit_zero (inputs : List (List Fr)) : ¬ TagHit (fun _ => 0) inputs := by
  rintro ⟨domain, hfrozen, _, _, hzero⟩
  have hfield : fromU64 domain.tag = fromU64 0 :=
    toFr_injective (hzero.symm.trans (by simp [toFr_fromU64]))
  have htags : ∀ frozen ∈ Domain.all, frozen.tag ≠ 0 := by decide
  exact htags domain hfrozen (fromU64_inj hfield)

/-- With the hash that is zero everywhere, the empty string under the asset domain has
the commitment of the zero asset, although one list was hashed for both and zero is no
tag; so has the empty string under the domain of the binding that of the zero binding. -/
theorem empty_string_passes_as_typed :
    (¬ ∀ (H : List Fr → Fr) (domain : Domain) (slice : ByteSlice) (asset : AssetBaseBytes),
      domain ∈ Domain.all →
      (canonicalBytesCommitment H domain slice).value = (assetCommitment H asset).value.value →
      let inputs := (canonicalBytesCommitment H domain slice).inputs
        ++ (assetCommitment H asset).inputs
      Collision H inputs ∨ TagHit H inputs) ∧
    ¬ ∀ (H : List Fr → Fr) (domain : Domain) (slice : ByteSlice) (subject : SubjectCommitment)
        (receiver : ReceiverCommitment),
      domain ∈ Domain.all →
      (canonicalBytesCommitment H domain slice).value
        = (recipientCommitment H subject receiver).value.value →
      let inputs := (canonicalBytesCommitment H domain slice).inputs
        ++ (recipientCommitment H subject receiver).inputs
      Collision H inputs ∨ TagHit H inputs := by
  have hcollision (list : List Fr) : ¬ Collision (fun _ => (0 : Fr)) ([list] ++ [list]) := by
    rintro ⟨xs, hxs, ys, hys, hne, -⟩
    simp at hxs hys
    exact hne (hxs.trans hys.symm)
  obtain ⟨⟨hasset, hassets⟩, hrecipient, hrecipients⟩ := empty_meets_zero (fun _ => 0)
  constructor
  · intro hseparated
    have hhit := hseparated (fun _ => 0) .assetV1 .empty .zero (by decide) hasset
    simp only [← hassets, (canonicalBytesCommitment_empty _ _).2] at hhit
    exact hhit.elim (hcollision _) (not_tagHit_zero _)
  · intro hseparated
    have hhit := hseparated (fun _ => 0) .recipientBindingV1 .empty ⟨.zero⟩ ⟨.zero⟩ (by decide)
      hrecipient
    simp only [← hrecipients, (canonicalBytesCommitment_empty _ _).2] at hhit
    exact hhit.elim (hcollision _) (not_tagHit_zero _)

/-- A raw-byte commitment is that of an asset or of a recipient binding only where two
different lists hashed for them have one digest, a digest is a domain tag, or the
string is empty, its domain is that of the typed commitment and what that one commits
to is zero. -/
theorem raw_bytes_separated (H : List Fr → Fr) (domain : Domain) (slice : ByteSlice) :
    (∀ asset : AssetBaseBytes,
      (canonicalBytesCommitment H domain slice).value = (assetCommitment H asset).value.value →
      let inputs := (canonicalBytesCommitment H domain slice).inputs
        ++ (assetCommitment H asset).inputs
      Collision H inputs ∨ TagHit H inputs ∨
        (slice = .empty ∧ domain = .assetV1 ∧ asset = .zero)) ∧
    ∀ (subject : SubjectCommitment) (receiver : ReceiverCommitment),
      (canonicalBytesCommitment H domain slice).value
        = (recipientCommitment H subject receiver).value.value →
      let inputs := (canonicalBytesCommitment H domain slice).inputs
        ++ (recipientCommitment H subject receiver).inputs
      Collision H inputs ∨ TagHit H inputs ∨
        (slice = .empty ∧ domain = .recipientBindingV1 ∧ subject = ⟨.zero⟩ ∧
          receiver = ⟨.zero⟩) := by
  constructor
  · intro asset h
    obtain ⟨hvalue, hinputs⟩ := assetCommitment_spec H asset
    have hdigest := (congrArg toFr h).trans hvalue
    obtain hcollision | htag | ⟨hempty, hdomain, hhi, hlo⟩ :=
      canonicalBytes_meets_tagged (by decide) (List.subset_append_left _ _)
        (List.mem_append_right _ (hinputs ▸ List.mem_singleton_self _)) hdigest
    · exact .inl hcollision
    · exact .inr (.inl htag)
    · have hlimbs : encodeAssetBase asset = ⟨0, 0⟩ :=
        congrArg₂ AssetBaseLimbs.mk (toFr_fromU128_eq_zero hhi) (toFr_fromU128_eq_zero hlo)
      have hasset := encodeAssetBase_injective (hlimbs.trans encodeAssetBase_zero.symm)
      exact .inr (.inr ⟨hempty, hdomain, hasset⟩)
  · intro subject receiver h
    obtain ⟨hvalue, hinputs⟩ := recipientCommitment_spec H subject receiver
    have hdigest := (congrArg toFr h).trans hvalue
    obtain hcollision | htag | ⟨hempty, hdomain, hsubject, hreceiver⟩ :=
      canonicalBytes_meets_tagged (by decide) (List.subset_append_left _ _)
        (List.mem_append_right _ (hinputs ▸ List.mem_singleton_self _)) hdigest
    · exact .inl hcollision
    · exact .inr (.inl htag)
    · exact .inr (.inr ⟨hempty, hdomain, FieldNewtype.value_injective (toFr_eq_zero hsubject),
        FieldNewtype.value_injective (toFr_eq_zero hreceiver)⟩)

/-- The zero hash gives the zero asset the commitment of the empty string under the fee
domain, and there two lists collide. -/
theorem raw_bytes_separated_zero :
    Collision (fun _ => 0) ((canonicalBytesCommitment (fun _ => 0) .feeV1 .empty).inputs
      ++ (assetCommitment (fun _ => 0) .zero).inputs) := by
  have hvalue : (canonicalBytesCommitment (fun _ => 0) .feeV1 .empty).value
      = (assetCommitment (fun _ => 0) .zero).value.value :=
    toFr_injective ((canonicalBytesCommitment_empty (fun _ => 0) .feeV1).1.trans
      (assetCommitment_spec (fun _ => 0) .zero).1.symm)
  obtain hcollision | htag | ⟨-, hdomain, -⟩ :=
    (raw_bytes_separated (fun _ => 0) .feeV1 .empty).1 .zero hvalue
  · exact hcollision
  · exact absurd htag (not_tagHit_zero _)
  · exact absurd hdomain (by decide)

end ZwaProtocol
