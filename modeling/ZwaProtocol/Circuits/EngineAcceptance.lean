import ZwaProtocol.Circuits.EngineLimbs
import ZwaProtocol.Circuits.ProvenanceStatement
import ZwaProtocol.Circuits.SchemaRanges

/-!
What the JavaScript engine accepts. A request it commits to is, up to the case of its
hexadecimal text, the request of Rust values, and it commits to every request that passes
its checks; two of them have one commitment only if they are one request.
-/
namespace ZwaProtocol
open HashStaging FieldElement SharedEngine SharedEligibility

namespace SharedEngine

/-- The checks of `computeTrade`. -/
structure TradeRequest.Checked (fields : TradeRequest) : Prop where
  offeredAssetBase : HexForm 64 fields.offeredAssetBase
  offeredAmount : IsU64 fields.offeredAmount
  requestedAssetBase : HexForm 64 fields.requestedAssetBase
  requestedAmount : IsU64 fields.requestedAmount
  recipientCommitment : IsField fields.recipientCommitment
  policyRoot : IsField fields.policyRoot
  matcherFeeAmount : IsU64 fields.matcherFeeAmount
  matcherFeeRecipientCommitment : IsField fields.matcherFeeRecipientCommitment
  nonce : IsU64 fields.nonce
  expiry : IsU64 fields.expiry

def TradeRequest.lowerCase (fields : TradeRequest) : TradeRequest :=
  { fields with
    offeredAssetBase := fields.offeredAssetBase.toLower
    requestedAssetBase := fields.requestedAssetBase.toLower }

/-- The checks of `computeIssuance`. -/
structure IssuanceRequest.Checked (fields : IssuanceRequest) : Prop where
  offeredAssetBase : HexForm 64 fields.offeredAssetBase
  seriesCommitment : IsField fields.seriesCommitment
  policyRoot : IsField fields.policyRoot
  issuanceNonce : IsU64 fields.issuanceNonce
  issuerCommitment : IsField fields.issuerCommitment

def IssuanceRequest.lowerCase (fields : IssuanceRequest) : IssuanceRequest :=
  { fields with offeredAssetBase := fields.offeredAssetBase.toLower }

end SharedEngine

section Checks
variable {value other : Int}

theorem IsU64.returns (h : IsU64 value) (label : String) :
    Returns (assertU64 value label) value [] := by
  obtain ⟨word, rfl⟩ := h.exists_eq
  exact assertU64_returns word label

theorem IsField.returns (h : IsField value) (label : String) :
    Returns (assertField value label) value [] := by
  obtain ⟨element, rfl⟩ := h.exists_eq
  exact assertField_returns element.toNat_lt label

theorem IsU64.isField (h : IsU64 value) : IsField value := by
  obtain ⟨hnonneg, hle⟩ := h
  rw [maxU64] at hle
  refine ⟨hnonneg, ?_⟩
  rw [fieldModulus]
  omega

/-- A checked integer is the one of its field element. -/
theorem IsField.eq_of_cast (h : IsField value) (h' : IsField other)
    (heq : (value : Fr) = (other : Fr)) : value = other := by
  obtain ⟨element, rfl⟩ := h.exists_eq
  obtain ⟨element', rfl⟩ := h'.exists_eq
  rw [Int.cast_natCast, Int.cast_natCast] at heq
  rw [toFr_injective heq]

end Checks

section Trades
variable (H : List Fr → Fr) {request : TradeRequest}

theorem computeAssetCommitment_hexForm {text : String} {commitment : Int}
    {inputs : List (List Fr)} (h : Returns (computeAssetCommitment H text) commitment inputs) :
    HexForm 64 text := by
  obtain ⟨limbs, recorded, hlimbs, -⟩ := completes_bind_iff.mp ⟨_, _, h⟩
  exact assetIdToLimbs_accepts_iff.mp ⟨limbs, recorded, hlimbs⟩

/-- A checked request is read as that of an intent is. -/
theorem SharedEngine.TradeRequest.Checked.exists_intent (h : request.Checked) :
    ∃ intent : TradeIntent, tradeRequest intent = request.lowerCase ∧
      computeTrade H request = computeTrade H (tradeRequest intent) := by
  obtain ⟨offered, hoffered, hofferedLimbs⟩ := exists_asset h.offeredAssetBase
  obtain ⟨requested, hrequested, hrequestedLimbs⟩ := exists_asset h.requestedAssetBase
  obtain ⟨offeredAmount, hofferedAmount⟩ := h.offeredAmount.exists_eq
  obtain ⟨requestedAmount, hrequestedAmount⟩ := h.requestedAmount.exists_eq
  obtain ⟨recipient, hrecipient⟩ := h.recipientCommitment.exists_eq
  obtain ⟨root, hroot⟩ := h.policyRoot.exists_eq
  obtain ⟨feeAmount, hfeeAmount⟩ := h.matcherFeeAmount.exists_eq
  obtain ⟨feeRecipient, hfeeRecipient⟩ := h.matcherFeeRecipientCommitment.exists_eq
  obtain ⟨nonce, hnonce⟩ := h.nonce.exists_eq
  obtain ⟨expiry, hexpiry⟩ := h.expiry.exists_eq
  let intent : TradeIntent := {
    offeredAsset := offered
    offeredAmount := ⟨offeredAmount⟩
    requestedAsset := requested
    requestedAmount := ⟨requestedAmount⟩
    recipientCommitment := ⟨recipient⟩
    policyRoot := ⟨root⟩
    matcherFee := ⟨⟨feeAmount⟩, ⟨feeRecipient⟩⟩
    nonce := ⟨nonce⟩
    expiry := .new expiry }
  refine ⟨intent, ?_, ?_⟩
  · simp only [TradeRequest.lowerCase, ← hoffered, ← hrequested, hofferedAmount,
      hrequestedAmount, hrecipient, hroot, hfeeAmount, hfeeRecipient, hnonce, hexpiry]
    rfl
  · simp only [computeTrade, computeAssetCommitment, hofferedLimbs, hrequestedLimbs,
      hofferedAmount, hrequestedAmount, hrecipient, hroot, hfeeAmount, hfeeRecipient, hnonce,
      hexpiry]
    rfl

theorem computeTrade_completes_iff (request : TradeRequest) :
    Completes (computeTrade H request) ↔ request.Checked := by
  constructor
  · intro h
    obtain ⟨offered, _, hoffered, h⟩ := completes_bind_iff.mp h
    obtain ⟨requested, _, hrequested, h⟩ := completes_bind_iff.mp h
    simp only [assertField_bind, assertU64_bind, completes_lift_bind, completes_pure,
      and_true] at h
    obtain ⟨feeAmount, feeRecipient, offeredAmount, requestedAmount, recipient, root, nonce,
      expiry⟩ := h
    exact {
      offeredAssetBase := computeAssetCommitment_hexForm H hoffered
      offeredAmount
      requestedAssetBase := computeAssetCommitment_hexForm H hrequested
      requestedAmount
      recipientCommitment := recipient
      policyRoot := root
      matcherFeeAmount := feeAmount
      matcherFeeRecipientCommitment := feeRecipient
      nonce, expiry }
  · intro h
    obtain ⟨intent, -, hsame⟩ := h.exists_intent H
    rw [hsame]
    exact ⟨_, _, computeTrade_agrees H intent⟩

/-- What is returned for a request is what the Rust engine computes for its intent. -/
theorem computeTrade_returned {trade : Trade} {inputs : List (List Fr)}
    (h : Returns (computeTrade H request) trade inputs) :
    ∃ intent : TradeIntent, tradeRequest intent = request.lowerCase ∧
      trade = engineTrade (tradeCommitmentParts H intent).value ∧
      inputs = (tradeCommitmentParts H intent).inputs := by
  obtain ⟨intent, hrequest, hsame⟩ :=
    ((computeTrade_completes_iff H request).mp ⟨_, _, h⟩).exists_intent H
  rw [hsame] at h
  have hagrees := computeTrade_agrees H intent
  exact ⟨intent, hrequest, h.value_unique hagrees,
    congrArg Hashed.inputs (h.symm.trans hagrees)⟩

end Trades

section Issuances
variable (H : List Fr → Fr) {request : IssuanceRequest}

/-- The leaf that the circuit stages for a request over an asset. -/
def SharedEngine.IssuanceRequest.fields (request : IssuanceRequest) (asset : AssetBaseBytes) :
    IssuanceFields where
  issuerCommitment := request.issuerCommitment
  assetHi := (fromU128 (encodeAssetBase asset).hi).toFr
  assetLo := (fromU128 (encodeAssetBase asset).lo).toFr
  seriesCommitment := request.seriesCommitment
  policyRoot := request.policyRoot
  issuanceNonce := request.issuanceNonce

theorem computeIssuance_checked {issuance : Issuance} {inputs : List (List Fr)}
    (h : Returns (computeIssuance H request) issuance inputs) : request.Checked := by
  obtain ⟨asset, _, hasset, h⟩ := completes_bind_iff.mp ⟨_, _, h⟩
  simp only [assertField_bind, assertU64_bind, completes_lift_bind, completes_pure, and_true] at h
  obtain ⟨series, root, nonce, issuer⟩ := h
  exact {
    offeredAssetBase := computeAssetCommitment_hexForm H hasset
    seriesCommitment := series
    policyRoot := root
    issuanceNonce := nonce
    issuerCommitment := issuer }

/-- A checked request is read as that of an issuance of Rust values. -/
theorem SharedEngine.IssuanceRequest.Checked.exists_issuance (h : request.Checked) :
    ∃ (issuer series : Fr) (nonce : UInt64) (intent : TradeIntent),
      issuanceRequest issuer series nonce intent = request.lowerCase ∧
      computeIssuance H request
        = computeIssuance H (issuanceRequest issuer series nonce intent) := by
  obtain ⟨asset, htext, hlimbs⟩ := exists_asset h.offeredAssetBase
  obtain ⟨series, hseries⟩ := h.seriesCommitment.exists_eq
  obtain ⟨root, hroot⟩ := h.policyRoot.exists_eq
  obtain ⟨nonce, hnonce⟩ := h.issuanceNonce.exists_eq
  obtain ⟨issuer, hissuer⟩ := h.issuerCommitment.exists_eq
  let intent : TradeIntent := { TradeIntent.blank 0 with
    offeredAsset := asset
    policyRoot := ⟨root⟩ }
  refine ⟨issuer.toFr, series.toFr, nonce, intent, ?_, ?_⟩
  · simp only [issuanceRequest, IssuanceRequest.lowerCase, intent, htext, hseries, hroot, hnonce,
      hissuer, val_toFr]
  · simp only [computeIssuance, computeAssetCommitment, issuanceRequest, intent, hlimbs, hseries,
      hroot, hnonce, hissuer, val_toFr]

/-- The case of the text is not read. -/
theorem SharedEngine.IssuanceRequest.Checked.computeIssuance_lowerCase (h : request.Checked) :
    computeIssuance H request = computeIssuance H request.lowerCase := by
  obtain ⟨issuer, series, nonce, intent, hrequest, hsame⟩ := h.exists_issuance H
  rw [hsame, hrequest]

/-- What is returned for a request is what the engine returns for Rust values. -/
theorem computeIssuance_returned {issuance : Issuance} {inputs : List (List Fr)}
    (h : Returns (computeIssuance H request) issuance inputs) :
    ∃ (issuer series : Fr) (nonce : UInt64) (intent : TradeIntent),
      issuanceRequest issuer series nonce intent = request.lowerCase ∧
      issuance = engineIssuance H issuer series nonce intent ∧
      inputs = engineIssuanceInputs H issuer series nonce intent := by
  obtain ⟨issuer, series, nonce, intent, hrequest, hsame⟩ :=
    (computeIssuance_checked H h).exists_issuance H
  rw [hsame] at h
  have hagrees := computeIssuance_agrees H issuer series nonce intent
  exact ⟨issuer, series, nonce, intent, hrequest, h.value_unique hagrees,
    h.inputs_unique hagrees⟩

theorem fields_issuanceRequest (issuer series : Fr) (nonce : UInt64) (intent : TradeIntent) :
    (issuanceRequest issuer series nonce intent).fields intent.offeredAsset
      = issuanceFields issuer series nonce intent := by
  simp only [SharedEngine.IssuanceRequest.fields, issuanceRequest, issuanceFields, toFr_fromU64,
    Int.cast_natCast, ZMod.natCast_zmod_val]
  rfl

/-- A checked request has a leaf, the one the circuit stages. -/
theorem SharedEngine.IssuanceRequest.Checked.exists_leaf (h : request.Checked) :
    ∃ (asset : AssetBaseBytes) (issuance : Issuance) (inputs : List (List Fr)),
      asset.toHex = request.offeredAssetBase.toLower ∧
      Returns (computeIssuance H request) issuance inputs ∧
      issuance.issuanceLeaf = ((request.fields asset).staging.eval H).val ∧
      (request.fields asset).staging.inputs H ⊆ inputs := by
  obtain ⟨issuer, series, nonce, intent, hrequest, hsame⟩ := h.exists_issuance H
  have htext : intent.offeredAsset.toHex = request.offeredAssetBase.toLower :=
    congrArg IssuanceRequest.offeredAssetBase hrequest
  have hfields : request.fields intent.offeredAsset
      = issuanceFields issuer series nonce intent := by
    rw [← fields_issuanceRequest, hrequest]
    rfl
  rw [hsame]
  refine ⟨intent.offeredAsset, _, _, htext, computeIssuance_agrees H issuer series nonce intent,
    ?_, ?_⟩
  · rw [hfields]
    rfl
  · rw [hfields, IssuanceFields.staging_inputs, engineIssuanceInputs]
    simp [assetStaging, issuanceFields, TradeIntent.fields, assetCommitment, Domain.asFr]

theorem computeIssuance_completes_iff (request : IssuanceRequest) :
    Completes (computeIssuance H request) ↔ request.Checked := by
  constructor
  · rintro ⟨issuance, inputs, h⟩
    exact computeIssuance_checked H h
  · intro h
    obtain ⟨issuer, series, nonce, intent, -, hsame⟩ := h.exists_issuance H
    rw [hsame]
    exact ⟨_, _, computeIssuance_agrees H issuer series nonce intent⟩

end Issuances

section Bindings
variable (H : List Fr → Fr) {subjectSecret : Int} {receiverHex : String}

theorem computeRecipientBinding_completes_iff :
    Completes (computeRecipientBinding H subjectSecret receiverHex) ↔
      HexForm 86 receiverHex ∧ IsField subjectSecret := by
  rw [computeRecipientBinding, completes_bind_of_forall (fun limbs => by
    simp only [assertField_bind, completes_lift_bind, completes_pure, and_true]
    exact Iff.rfl)]
  exact and_congr_left fun _ => receiverToLimbs_accepts_iff

/-- What is returned is what the Rust engine computes for the secret and the receiver. -/
theorem computeRecipientBinding_returned {binding : Binding} {inputs : List (List Fr)}
    (h : Returns (computeRecipientBinding H subjectSecret receiverHex) binding inputs) :
    ∃ (secret : SubjectSecret) (receiver : OrchardReceiverBytes),
      subjectSecret = secret.value.toNat ∧ receiver.toHex = receiverHex.toLower ∧
      binding = engineBinding (bindRecipient H secret receiver).value (encodeReceiver receiver) ∧
      inputs = (bindRecipient H secret receiver).inputs := by
  obtain ⟨hform, hfield⟩ := (computeRecipientBinding_completes_iff H).mp ⟨_, _, h⟩
  obtain ⟨element, rfl⟩ := hfield.exists_eq
  obtain ⟨receiver, htext, hlimbs⟩ := exists_receiver hform
  have hagrees := computeRecipientBinding_agrees H ⟨element⟩ receiver
  have hsame : computeRecipientBinding H element.toNat receiverHex
      = computeRecipientBinding H element.toNat receiver.toHex := by
    simp only [computeRecipientBinding, hlimbs]
  rw [hsame] at h
  exact ⟨⟨element⟩, receiver, rfl, htext, h.value_unique hagrees,
    congrArg Hashed.inputs (h.symm.trans hagrees)⟩

end Bindings

/-- The engine accepts the requests of Rust values and no others, up to the case of their
text. A trade, an issuance and a recipient binding are made for exactly the requests whose
texts are hexadecimal of their length and whose integers are in range. A trade and a
binding are then those that the Rust engine computes for an intent, and for a secret and a
receiver, from the same hashed lists. An issuance has the Rust engine's commitment to its
asset, and the digests of the lists that the circuit hashes for the metadata and the leaf;
nothing else is hashed. -/
theorem engine_accepts_exactly (H : List Fr → Fr) :
    (∀ request : TradeRequest,
      (Completes (computeTrade H request) ↔ request.Checked) ∧
      ∀ trade inputs, Returns (computeTrade H request) trade inputs →
        ∃ intent : TradeIntent, tradeRequest intent = request.lowerCase ∧
          trade = engineTrade (tradeCommitmentParts H intent).value ∧
          inputs = (tradeCommitmentParts H intent).inputs) ∧
    (∀ request : IssuanceRequest,
      (Completes (computeIssuance H request) ↔ request.Checked) ∧
      ∀ issuance inputs, Returns (computeIssuance H request) issuance inputs →
        ∃ (issuer series : Fr) (nonce : UInt64) (intent : TradeIntent),
          issuanceRequest issuer series nonce intent = request.lowerCase ∧
          issuance = {
            assetCommitment := (assetCommitment H intent.offeredAsset).value.value.toNat
            issuanceMeta := (H (issuanceFields issuer series nonce intent).metaInput).val
            issuanceLeaf :=
              ((issuanceFields issuer series nonce intent).staging.eval H).val } ∧
          inputs = (assetCommitment H intent.offeredAsset).inputs
            ++ [(issuanceFields issuer series nonce intent).metaInput,
              (issuanceFields issuer series nonce intent).leafInput H]) ∧
    ∀ (subjectSecret : Int) (receiverHex : String),
      (Completes (computeRecipientBinding H subjectSecret receiverHex) ↔
        HexForm 86 receiverHex ∧ IsField subjectSecret) ∧
      ∀ binding inputs,
        Returns (computeRecipientBinding H subjectSecret receiverHex) binding inputs →
        ∃ (secret : SubjectSecret) (receiver : OrchardReceiverBytes),
          subjectSecret = secret.value.toNat ∧ receiver.toHex = receiverHex.toLower ∧
          binding =
            engineBinding (bindRecipient H secret receiver).value (encodeReceiver receiver) ∧
          inputs = (bindRecipient H secret receiver).inputs := by
  refine ⟨fun request => ⟨computeTrade_completes_iff H request, ?_⟩,
    fun request => ⟨computeIssuance_completes_iff H request, ?_⟩,
    fun subjectSecret receiverHex => ⟨computeRecipientBinding_completes_iff H, ?_⟩⟩
  · intro trade inputs h
    exact computeTrade_returned H h
  · intro issuance inputs h
    exact computeIssuance_returned H h
  · intro binding inputs h
    exact computeRecipientBinding_returned H h

section UpperCase

/-- Hexadecimal in upper case, which the Rust values do not print. -/
def upperCase (count : Nat) : String := String.ofList (List.replicate count 'A')

theorem hexForm_upperCase (count : Nat) : HexForm count (upperCase count) := by
  refine ⟨by simp [upperCase], fun c hc => ?_⟩
  rw [upperCase, String.toList_ofList] at hc
  rw [List.eq_of_mem_replicate hc]
  exact isSome_hexValue.mp rfl

def upperCaseTrade : TradeRequest :=
  { tradeRequest (.blank 9) with
    offeredAssetBase := upperCase 64
    offeredAmount := 5
    requestedAssetBase := upperCase 64 }

def upperCaseIssuance : IssuanceRequest where
  offeredAssetBase := upperCase 64
  seriesCommitment := 12
  policyRoot := 34
  issuanceNonce := 5
  issuerCommitment := 11

theorem checked_upperCaseTrade : upperCaseTrade.Checked where
  offeredAssetBase := hexForm_upperCase 64
  offeredAmount := by decide
  requestedAssetBase := hexForm_upperCase 64
  requestedAmount := by decide
  recipientCommitment := by decide +kernel
  policyRoot := by decide +kernel
  matcherFeeAmount := by decide
  matcherFeeRecipientCommitment := by decide +kernel
  nonce := by decide
  expiry := by decide

theorem checked_upperCaseIssuance : upperCaseIssuance.Checked where
  offeredAssetBase := hexForm_upperCase 64
  seriesCommitment := by decide
  policyRoot := by decide
  issuanceNonce := by decide
  issuerCommitment := by decide

end UpperCase

/-- Requests in upper case are accepted, and read as those of Rust values. -/
theorem engine_accepts_exactly_upperCase :
    (∃ intent : TradeIntent, tradeRequest intent = upperCaseTrade.lowerCase ∧
      Returns (computeTrade sampleHash upperCaseTrade)
        (engineTrade (tradeCommitmentParts sampleHash intent).value)
        (tradeCommitmentParts sampleHash intent).inputs) ∧
    (∃ (issuer series : Fr) (nonce : UInt64) (intent : TradeIntent),
      issuanceRequest issuer series nonce intent = upperCaseIssuance.lowerCase ∧
      Returns (computeIssuance sampleHash upperCaseIssuance)
        (engineIssuance sampleHash issuer series nonce intent)
        (engineIssuanceInputs sampleHash issuer series nonce intent)) ∧
    ∃ (secret : SubjectSecret) (receiver : OrchardReceiverBytes),
      (7 : Int) = secret.value.toNat ∧ receiver.toHex = (upperCase 86).toLower ∧
      Returns (computeRecipientBinding sampleHash 7 (upperCase 86))
        (engineBinding (bindRecipient sampleHash secret receiver).value (encodeReceiver receiver))
        (bindRecipient sampleHash secret receiver).inputs := by
  obtain ⟨trades, issuances, bindings⟩ := engine_accepts_exactly sampleHash
  obtain ⟨trade, tradeInputs, htrade⟩ := (trades _).1.mpr checked_upperCaseTrade
  obtain ⟨issuance, issuanceInputs, hissuance⟩ := (issuances _).1.mpr checked_upperCaseIssuance
  obtain ⟨binding, bindingInputs, hbinding⟩ :=
    (bindings 7 _).1.mpr ⟨hexForm_upperCase 86, by decide⟩
  refine ⟨?_, ?_, ?_⟩
  · obtain ⟨intent, hintent, hvalue, hinputs⟩ := (trades _).2 _ _ htrade
    rw [hvalue, hinputs] at htrade
    exact ⟨intent, hintent, htrade⟩
  · obtain ⟨issuer, series, nonce, issued, hissued, hvalue, hinputs⟩ :=
      (issuances _).2 _ _ hissuance
    rw [hvalue, hinputs, IssuanceFields.staging_eval] at hissuance
    exact ⟨issuer, series, nonce, issued, hissued, hissuance⟩
  · obtain ⟨secret, receiver, hsecret, hreceiver, hvalue, hinputs⟩ := (bindings _ _).2 _ _ hbinding
    rw [hvalue, hinputs] at hbinding
    exact ⟨secret, receiver, hsecret, hreceiver, hbinding⟩

end ZwaProtocol
