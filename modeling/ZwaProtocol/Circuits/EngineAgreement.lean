import ZwaProtocol.Circuits.EngineTree
import ZwaProtocol.Circuits.EngineHex
import ZwaProtocol.Circuits.SharedEligibility
import ZwaProtocol.Commitments.CanonicalBytes
import ZwaProtocol.Credentials.Credential

/-!
The JavaScript and the Rust commitment engines agree. On the integers and the
hexadecimal text of a Rust value the JavaScript engine returns, hashes the lists that
the Rust engine hashes, and arrives at the same field elements.
-/
namespace ZwaProtocol
open HashStaging HashChain ByteStrings FieldElement SharedEngine SharedEligibility

/-- Field elements as the engine holds them. -/
def bigInts (elements : List FieldElement) : List Int :=
  elements.map (fun element => (element.toNat : Int))

section Checks

theorem assertField_returns {value : Nat} (h : value < modulus) (label : String) :
    Returns (assertField value label) value [] := by
  have hbound : ¬ ((value : Int) < 0 ∨ (value : Int) ≥ fieldModulus) := by
    have hmodulus : fieldModulus = (modulus : Int) := rfl
    rw [hmodulus]
    omega
  rw [assertField, if_neg hbound]
  exact Returns.pure _

theorem assertU64_returns (value : UInt64) (label : String) :
    Returns (assertU64 value.toNat label) value.toNat [] := by
  have hbound : ¬ ((value.toNat : Int) < 0 ∨ (value.toNat : Int) > maxU64) := by
    have hlt := value.toNat_lt
    rw [maxU64]
    omega
  rw [assertU64, if_neg hbound]
  exact Returns.pure _

end Checks

@[simp] theorem bigInts_nil : bigInts [] = [] := rfl

@[simp] theorem bigInts_cons (element : FieldElement) (elements : List FieldElement) :
    bigInts (element :: elements) = (element.toNat : Int) :: bigInts elements := rfl

theorem Domain.toNat_asField (domain : Domain) : domain.asField.toNat = domain.tag.toNat :=
  toNat_fromU64 domain.tag

/-- The two engines separate their domains by the same tags. -/
theorem engineDomains_eq :
    (Domain.assetV1.asField.toNat : Int) = SharedEngine.assetV1 ∧
    (Domain.feeV1.asField.toNat : Int) = SharedEngine.feeV1 ∧
    (Domain.zecAssetTag.asField.toNat : Int) = SharedEngine.zecAssetTag ∧
    (Domain.tradeAV1.asField.toNat : Int) = SharedEngine.tradeAV1 ∧
    (Domain.tradeBV1.asField.toNat : Int) = SharedEngine.tradeBV1 ∧
    (Domain.tradeMetaV1.asField.toNat : Int) = SharedEngine.tradeMetaV1 ∧
    (Domain.tradeV1.asField.toNat : Int) = SharedEngine.tradeV1 ∧
    (Domain.subjectV1.asField.toNat : Int) = SharedEligibility.subjectV1 ∧
    (Domain.receiverV1.asField.toNat : Int) = SharedEligibility.receiverV1 ∧
    (Domain.recipientBindingV1.asField.toNat : Int) = SharedEligibility.recipientBindingV1 ∧
    (Domain.credentialMetaV1.asField.toNat : Int) = SharedEligibility.credentialMetaV1 ∧
    (Domain.credentialV2.asField.toNat : Int) = SharedEligibility.credentialV2 := by
  simp only [Domain.toNat_asField]
  decide

theorem toFrs_bigInts (elements : List FieldElement) :
    toFrs (bigInts elements) = elements.map toFr := by
  rw [toFrs, bigInts, List.map_map]
  apply List.map_congr_left
  intro element _
  exact Int.cast_natCast _

/-- The hexadecimal and integer fields of an intent. -/
def tradeRequest (intent : TradeIntent) : TradeRequest where
  offeredAssetBase := intent.offeredAsset.toHex
  offeredAmount := intent.offeredAmount.get.toNat
  requestedAssetBase := intent.requestedAsset.toHex
  requestedAmount := intent.requestedAmount.get.toNat
  recipientCommitment := intent.recipientCommitment.value.toNat
  policyRoot := intent.policyRoot.value.toNat
  matcherFeeAmount := intent.matcherFee.amount.get.toNat
  matcherFeeRecipientCommitment := intent.matcherFee.recipientCommitment.value.toNat
  nonce := intent.nonce.get.toNat
  expiry := intent.expiry.get.toNat

def engineTrade (parts : TradeCommitmentParts) : Trade where
  offeredAssetCommitment := parts.offeredAssetCommitment.value.toNat
  requestedAssetCommitment := parts.requestedAssetCommitment.value.toNat
  feeCommitment := parts.feeCommitment.value.toNat
  tradePartA := parts.tradePartA.value.toNat
  tradePartB := parts.tradePartB.value.toNat
  tradeMeta := parts.tradeMeta.value.toNat
  tradeCommitment := parts.tradeCommitment.value.toNat

def engineLimbs (limbs : ReceiverLimbs) : ReceiverHexLimbs where
  limb0 := limbs.limb0.toNat
  limb1 := limbs.limb1.toNat
  limb2 := limbs.limb2.toNat

def engineBinding (binding : RecipientBinding) (limbs : ReceiverLimbs) : Binding where
  subjectCommitment := binding.subjectCommitment.value.toNat
  receiverCommitment := binding.receiverCommitment.value.toNat
  recipientCommitment := binding.recipientCommitment.value.toNat
  receiverLimbs := engineLimbs limbs

/-- The integer fields of a credential, beside a commitment to its receiver. -/
def credentialRequest (credential : ActiveCredential) (approvedReceiverCommitment : Int) :
    CredentialRequest where
  credentialAuthorityCommitment := credential.authorityCommitment.value.toNat
  subjectSecret := credential.subjectSecret.value.toNat
  investorClass := credential.investorClass.get.toNat
  jurisdiction := credential.jurisdiction.get.toNat
  credentialExpiry := credential.credentialExpiry.get.toNat
  credentialNonce := credential.nonce.get.toNat
  approvedReceiverCommitment := approvedReceiverCommitment

theorem subarray_eq (bytes : List UInt8) (start stop : Nat) :
    subarray bytes start stop = (bytes.drop start).take (stop - start) :=
  List.drop_take

theorem receiverToLimbs_toHex (receiver : OrchardReceiverBytes) :
    Returns (receiverToLimbs receiver.toHex) (engineLimbs (encodeReceiver receiver)) [] := by
  have hlength : receiver.bytes.toList.length = 43 := receiver.bytes.toList_length
  have hlimb0 := littleEndian_half (receiver.bytes.toList.take 16) (by simp)
  have hlimb1 := littleEndian_half ((receiver.bytes.toList.drop 16).take 16) (by simp)
  have hlimb2 := littleEndian_half (receiver.bytes.toList.drop 32) (by simp [hlength])
  have hlast : (receiver.bytes.toList.drop 32).take 11 = receiver.bytes.toList.drop 32 :=
    List.take_of_length_le (by simp [hlength])
  rw [toHex_receiver, receiverToLimbs]
  simp only [length_hexText, hlength, hexText_all_hex, bufferFromHex_hexText, subarray_eq,
    List.drop_zero, Nat.reduceSub, hlast, hlimb0, hlimb1, hlimb2]
  exact Returns.pure _

section Engine
variable (H : List Fr → Fr)

/-- One hash of the engine is one hash of the Rust code. -/
theorem hasher_hash (elements : List FieldElement) (arity) {values : List Int}
    (h : values = bigInts elements := by
      simp only [bigInts_cons, bigInts_nil, toNat_fromU64, engineDomains_eq]) :
    Returns (ExceptT.lift (hasher H values) : Js Int) (hash H elements arity).value.toNat
      (hash H elements arity).inputs := by
  have hreturns := hasher_returns H values
  rw [h, toFrs_bigInts] at hreturns
  rw [h, value_hash, inputs_hash, toNat_fromFr]
  exact hreturns

theorem computeAssetCommitment_agrees (asset : AssetBaseBytes) :
    Returns (computeAssetCommitment H asset.toHex) (assetCommitment H asset).value.value.toNat
      (assetCommitment H asset).inputs := by
  have hreturns : Returns (computeAssetCommitment H asset.toHex) _ _ :=
    (assetIdToLimbs_toHex asset).bind
      (hasher_hash H [Domain.assetV1.asField, fromU128 (encodeAssetBase asset).hi,
        fromU128 (encodeAssetBase asset).lo] (by simp) (by simp [engineDomains_eq]))
  rw [List.nil_append] at hreturns
  rw [assetCommitment, Hashed.inputs_bind, Hashed.inputs_pure, List.append_nil]
  exact hreturns

theorem computeTrade_agrees (intent : TradeIntent) :
    Returns (computeTrade H (tradeRequest intent))
      (engineTrade (tradeCommitmentParts H intent).value)
      (tradeCommitmentParts H intent).inputs := by
  simp only [tradeCommitmentParts, feeCommitment, Hashed.inputs_bind, Hashed.value_bind,
    Hashed.inputs_pure, Hashed.value_pure, List.append_nil]
  rw [computeTrade]
  refine (computeAssetCommitment_agrees H intent.offeredAsset).bind ?_
  refine (computeAssetCommitment_agrees H intent.requestedAsset).bind ?_
  refine (assertU64_returns _ "matcher fee amount").check ?_
  refine (assertField_returns (toNat_lt _) "matcher fee recipient commitment").check ?_
  refine (hasher_hash H _ _).bind ?_
  refine (assertU64_returns _ "offered amount").check ?_
  refine (hasher_hash H _ _).bind ?_
  refine (assertU64_returns _ "requested amount").check ?_
  refine (assertField_returns (toNat_lt _) "recipient commitment").check ?_
  refine (assertField_returns (toNat_lt _) "policy root").check ?_
  refine (hasher_hash H _ _).bind ?_
  refine (assertU64_returns _ "trade nonce").check ?_
  refine (assertU64_returns _ "trade expiry").check ?_
  refine (hasher_hash H _ _).bind ?_
  exact (hasher_hash H _ _).bind_pure _

theorem computeRecipientBinding_agrees (secret : SubjectSecret)
    (receiver : OrchardReceiverBytes) :
    Returns (computeRecipientBinding H secret.value.toNat receiver.toHex)
      (engineBinding (bindRecipient H secret receiver).value (encodeReceiver receiver))
      (bindRecipient H secret receiver).inputs := by
  simp only [bindRecipient, subjectCommitment, receiverCommitment, recipientCommitment,
    Hashed.inputs_bind, Hashed.value_bind, Hashed.inputs_pure, Hashed.value_pure, List.append_nil]
  rw [computeRecipientBinding]
  refine (receiverToLimbs_toHex receiver).check ?_
  refine (assertField_returns (toNat_lt _) "subject secret").check ?_
  refine (hasher_hash H _ _).bind ?_
  refine (hasher_hash H _ _ (by simp only [bigInts_cons, bigInts_nil, toNat_fromU128,
    engineLimbs, engineDomains_eq])).bind ?_
  exact (hasher_hash H _ _).bind_pure _

theorem computeCredential_agrees (credential : ActiveCredential) :
    ∃ inputs, Returns
      (computeCredential H (credentialRequest credential
        (credential.approvedReceiverCommitment H).value.value.toNat))
      ⟨(subjectCommitment H credential.subjectSecret).value.value.toNat,
        (credential.credentialMeta H).value.value.toNat,
        (credential.leaf H).value.value.toNat⟩ inputs := by
  simp only [ActiveCredential.leaf, ActiveCredential.credentialMeta, subjectCommitment,
    Hashed.value_bind, Hashed.value_pure]
  rw [computeCredential]
  exact ⟨_, (assertField_returns (toNat_lt _) "subject secret").check
    ((hasher_hash H [Domain.subjectV1.asField, credential.subjectSecret.value] (by simp)).bind
    ((assertU64_returns _ "investor class").check
    ((assertU64_returns _ "jurisdiction").check
    ((assertU64_returns _ "credential expiry").check
    ((hasher_hash H [Domain.credentialMetaV1.asField, fromU64 credential.investorClass.get,
        fromU64 credential.jurisdiction.get, fromU64 credential.credentialExpiry.get]
      (by simp)).bind
    ((assertField_returns (toNat_lt _) "credential authority commitment").check
    ((assertU64_returns _ "credential nonce").check
    ((assertField_returns (toNat_lt _) "approved receiver commitment").check
    ((hasher_hash H _ _).bind_pure _)))))))))⟩

theorem pushLimbs_eq (bytes : List UInt8) (offset : Nat) :
    pushLimbs bytes offset
      = (canonicalByteChunks (bytes.drop offset)).map (fun chunk => (leNat chunk : Int)) := by
  induction offset using pushLimbs.induct bytes with
  | case1 offset inside ih =>
      have hne : bytes.drop offset ≠ [] := by simpa using inside
      have hchunk : subarray bytes offset (min (offset + 16) bytes.length)
          = (bytes.drop offset).take 16 := by
        rw [subarray_eq, List.take_eq_take_iff, List.length_drop]
        omega
      have hchunks : canonicalByteChunks (bytes.drop offset)
          = (bytes.drop offset).take 16 :: canonicalByteChunks (bytes.drop (offset + 16)) := by
        rw [canonicalByteChunks, chunks_of_ne_nil hne, List.drop_drop]
        rfl
      rw [pushLimbs, dif_pos inside, ih, hchunk, hchunks, List.map_cons,
        littleEndianBytesToBigInt_eq]
  | case2 offset outside =>
      rw [pushLimbs, dif_neg outside, List.drop_of_length_le (Nat.le_of_not_lt outside),
        canonicalByteChunks, chunks_nil, List.map_nil]

theorem splitBytes_returns (bytes : List UInt8) :
    Returns (splitBytesIntoLittleEndianLimbs (hexText bytes))
      ⟨bytes.length, (limbNats bytes).map Int.ofNat⟩ [] := by
  have heven : bytes.length * 2 % 2 = 0 := Nat.mul_mod_left _ _
  have hlimbs : pushLimbs bytes 0 = (limbNats bytes).map Int.ofNat := by
    rw [pushLimbs_eq, limbNats, List.map_map]
    rfl
  simp only [splitBytesIntoLittleEndianLimbs, length_hexText, heven, hexText_all_hex,
    bufferFromHex_hexText, hlimbs]
  exact Returns.pure _

/-- The loop over the limbs extends the chain. -/
theorem foldlM_hasher_returns (entries : List (Nat × Nat)) (state : Fr) :
    Returns ((entries.map (Prod.map Int.ofNat id)).foldlM
        (fun state entry => ExceptT.lift (hasher H [state, entry.1, (entry.2 : Int)]))
        (state.val : Int) : Js Int)
      (chain H state (entries.map limbBlock)).value.val
      (chain H state (entries.map limbBlock)).inputs := by
  induction entries generalizing state with
  | nil => exact Returns.pure _
  | cons entry entries ih =>
      have hblock : toFrs [(state.val : Int), Int.ofNat entry.1, (entry.2 : Int)]
          = state :: limbBlock entry := by
        simp [toFrs, limbBlock]
      have hfirst := hasher_returns H [(state.val : Int), Int.ofNat entry.1, (entry.2 : Int)]
      rw [hblock] at hfirst
      rw [List.map_cons, List.foldlM_cons]
      exact hfirst.bind (ih (H (state :: limbBlock entry)))

theorem commitCanonicalBytes_agrees (domain : Domain) (slice : ByteSlice) :
    Returns (commitCanonicalBytes H domain.tag.toNat (hexText slice.bytes))
      (canonicalBytesCommitment H domain slice).value.toNat
      (canonicalBytesCommitment H domain slice).inputs := by
  obtain ⟨hvalue, hinputs⟩ := canonicalBytesCommitment_eq_absorb H domain slice
  have hheader : toFrs [(domain.tag.toNat : Int), (slice.bytes.length : Int),
      (((limbNats slice.bytes).map Int.ofNat).length : Int)] = domain.header slice.bytes := by
    simp [toFrs, Domain.header, Domain.asField, toFr_fromU64]
  have hfirst := hasher_returns H [(domain.tag.toNat : Int), (slice.bytes.length : Int),
      (((limbNats slice.bytes).map Int.ofNat).length : Int)]
  rw [hheader] at hfirst
  rw [← val_toFr, hvalue, hinputs, commitCanonicalBytes]
  refine (splitBytes_returns slice.bytes).check (hfirst.bind ?_)
  rw [List.zipIdx_map]
  exact foldlM_hasher_returns H _ _

end Engine

/-- The engines agree on every canonical input, whatever the hash. On the fields of an
intent, on a secret and a receiver, and on a byte string under any domain the JavaScript
engine hashes the lists that the Rust engine hashes and returns the integers of its
results; given the receiver commitment of any binding to the approved receiver, it
returns the subject commitment, the metadata and the leaf of the credential. -/
theorem engines_agree (H : List Fr → Fr) :
    (∀ intent : TradeIntent,
      Returns (computeTrade H (tradeRequest intent))
        (engineTrade (tradeCommitmentParts H intent).value)
        (tradeCommitmentParts H intent).inputs) ∧
    (∀ (secret : SubjectSecret) (receiver : OrchardReceiverBytes),
      Returns (computeRecipientBinding H secret.value.toNat receiver.toHex)
        (engineBinding (bindRecipient H secret receiver).value (encodeReceiver receiver))
        (bindRecipient H secret receiver).inputs) ∧
    (∀ (domain : Domain) (slice : ByteSlice),
      Returns (commitCanonicalBytes H domain.tag.toNat (hexText slice.bytes))
        (canonicalBytesCommitment H domain slice).value.toNat
        (canonicalBytesCommitment H domain slice).inputs) ∧
    ∀ (credential : ActiveCredential) (secret : SubjectSecret), ∃ inputs,
      Returns
        (do
          let binding ← computeRecipientBinding H secret.value.toNat
            credential.approvedReceiver.toHex
          computeCredential H (credentialRequest credential binding.receiverCommitment))
        ⟨(subjectCommitment H credential.subjectSecret).value.value.toNat,
          (credential.credentialMeta H).value.value.toNat,
          (credential.leaf H).value.value.toNat⟩ inputs := by
  refine ⟨computeTrade_agrees H, computeRecipientBinding_agrees H,
    commitCanonicalBytes_agrees H, ?_⟩
  intro credential secret
  obtain ⟨inputs, hcredential⟩ := computeCredential_agrees H credential
  exact ⟨_, (computeRecipientBinding_agrees H secret credential.approvedReceiver).bind
    hcredential⟩

end ZwaProtocol
