import ZwaProtocol.Circuits.EngineAgreement
import ZwaProtocol.Circuits.Provenance

/-!
The provenance circuit and the values outside it: the leaf it proves a member is
the one the JavaScript engine builds for an issuance of the trade's own asset
under the trade's own policy.
-/
namespace ZwaProtocol
open MerkleTree FieldElement HashStaging SharedEngine

/-- An issuance of the intent's offered asset under its policy. -/
def issuanceRequest (issuer series : Fr) (nonce : UInt64) (intent : TradeIntent) :
    IssuanceRequest where
  offeredAssetBase := intent.offeredAsset.toHex
  seriesCommitment := series.val
  policyRoot := intent.policyRoot.value.toNat
  issuanceNonce := nonce.toNat
  issuerCommitment := issuer.val

def issuanceFields (issuer series : Fr) (nonce : UInt64) (intent : TradeIntent) :
    IssuanceFields where
  issuerCommitment := issuer
  assetHi := intent.fields.offeredAssetHi
  assetLo := intent.fields.offeredAssetLo
  seriesCommitment := series
  policyRoot := intent.fields.policyRoot
  issuanceNonce := (fromU64 nonce).toFr

section Engine
variable (H : List Fr → Fr) (issuer series : Fr) (nonce : UInt64) (intent : TradeIntent)

/-- What the engine returns for an issuance: the commitment of the Rust engine to the asset,
and the digests of the circuit's metadata and leaf. -/
def engineIssuance : Issuance where
  assetCommitment := (assetCommitment H intent.offeredAsset).value.value.toNat
  issuanceMeta := (H (issuanceFields issuer series nonce intent).metaInput).val
  issuanceLeaf := (H ((issuanceFields issuer series nonce intent).leafInput H)).val

/-- What the engine hashes for an issuance, in its order. -/
def engineIssuanceInputs : List (List Fr) :=
  (assetCommitment H intent.offeredAsset).inputs
    ++ [(issuanceFields issuer series nonce intent).metaInput,
      (issuanceFields issuer series nonce intent).leafInput H]

theorem toFr_assetCommitment (asset : AssetBaseBytes) :
    (assetCommitment H asset).value.value.toFr
      = (assetStaging (fromU128 (encodeAssetBase asset).hi).toFr
        (fromU128 (encodeAssetBase asset).lo).toFr).eval H := by
  simp [assetStaging, assetCommitment, Domain.asFr]

/-- The engine returns on an issuance of the intent's asset under its policy. -/
theorem computeIssuance_agrees :
    Returns (computeIssuance H (issuanceRequest issuer series nonce intent))
      (engineIssuance H issuer series nonce intent)
      (engineIssuanceInputs H issuer series nonce intent) := by
  have hmeta : toFrs [issuanceMetaV1, series.val, intent.policyRoot.value.toNat, nonce.toNat]
      = (issuanceFields issuer series nonce intent).metaInput := by
    simp only [toFrs, List.map_cons, List.map_nil, intCast_val, IssuanceFields.metaInput,
      issuanceFields, toFr_fromU64]
    rfl
  have hasset : (((assetCommitment H intent.offeredAsset).value.value.toNat : Int) : Fr)
      = (assetStaging intent.fields.offeredAssetHi intent.fields.offeredAssetLo).eval H :=
    (Int.cast_natCast _).trans (toFr_assetCommitment H intent.offeredAsset)
  have hleaf (issuanceMeta : Fr) : toFrs [issuanceV1, issuer.val,
      (assetCommitment H intent.offeredAsset).value.value.toNat, issuanceMeta.val]
        = [domainIssuanceV1, issuer,
          (assetStaging intent.fields.offeredAssetHi intent.fields.offeredAssetLo).eval H,
          issuanceMeta] := by
    simp only [toFrs, List.map_cons, List.map_nil, hasset, intCast_val]
    rfl
  rw [engineIssuance, engineIssuanceInputs, IssuanceFields.leafInput, ← hmeta]
  refine (computeAssetCommitment_agrees H intent.offeredAsset).bind ?_
  refine (assertField_returns series.val_lt "series commitment").check ?_
  refine (assertField_returns intent.policyRoot.value.toNat_lt "policy root").check ?_
  refine (assertU64_returns nonce "issuance nonce").check ?_
  refine (hasher_returns H _).bind ?_
  refine (assertField_returns issuer.val_lt "issuer commitment").check ?_
  have hlast := hasher_returns H [issuanceV1, issuer.val,
    (assetCommitment H intent.offeredAsset).value.value.toNat, (H (toFrs [issuanceMetaV1,
      series.val, intent.policyRoot.value.toNat, nonce.toNat])).val]
  rw [hleaf] at hlast
  exact hlast.bind_pure _

end Engine

/-- The signals an honest prover assigns. The hint of the root check is free. -/
def ProvenanceSignals.honest {depth : Nat} (issuer series : Fr) (nonce : UInt64)
    (intent : TradeIntent) (root commitment : Fr) (siblings indices : List.Vector Fr depth) :
    ProvenanceSignals depth where
  authorizedIssuanceRoot := root
  tradeCommitment := commitment
  issuerCommitment := issuer
  offeredAssetHi := intent.fields.offeredAssetHi
  offeredAssetLo := intent.fields.offeredAssetLo
  seriesCommitment := series
  policyRoot := intent.fields.policyRoot
  issuanceNonce := (fromU64 nonce).toFr
  issuanceMerkleSiblings := siblings
  issuanceMerklePathIndices := indices
  offeredAmount := intent.fields.offeredAmount
  requestedAssetHi := intent.fields.requestedAssetHi
  requestedAssetLo := intent.fields.requestedAssetLo
  requestedAmount := intent.fields.requestedAmount
  recipientCommitment := intent.fields.recipientCommitment
  matcherFeeAmount := intent.fields.matcherFeeAmount
  matcherFeeRecipientCommitment := intent.fields.matcherFeeRecipientCommitment
  nonce := intent.fields.nonce
  expiry := intent.fields.expiry
  issuanceRootInv := 0

section Statement
variable {lib : Circomlib} (lawful : lib.Lawful) {H : List Fr → Fr} {depth : Nat}
include lawful

/-- Completeness: the honest signals satisfy the circuit. -/
theorem ProvenanceSignals.honest_holds {issuer series : Fr} {nonce : UInt64}
    {intent : TradeIntent} {root : Fr} {siblings indices : List.Vector Fr depth}
    (binary : BinaryIndices indices)
    (member : climb H ((issuanceFields issuer series nonce intent).staging.eval H)
      (pathOf siblings indices) = root) :
    (rwaTradeProvenanceV1 lib H (ProvenanceSignals.honest issuer series nonce intent root
      (tradeCommitmentV1 H intent).value.value.toFr siblings indices)).holds := by
  have hrange := TradeFields.inRange_iff.mpr ⟨intent, rfl⟩
  have hnonce := val_fromU64_lt nonce
  exact (rwaTradeProvenanceV1_holds lib H _).mpr
    ⟨(TradeFields.rangeChecks_iff lawful).mpr hrange,
      (lawful.num2Bits_iff 64 (by decide) _).mpr hnonce, binary, member,
      (toFr_tradeCommitmentV1 H intent).symm⟩

/-- Soundness: an assignment decodes to an intent and an issuance of its asset. -/
theorem ProvenanceSignals.decodes {signals : ProvenanceSignals depth}
    (holds : (rwaTradeProvenanceV1 lib H signals).holds) :
    ∃ (nonce : UInt64) (intent : TradeIntent),
      (tradeCommitmentV1 H intent).value.value.toFr = signals.tradeCommitment ∧
      issuanceFields signals.issuerCommitment signals.seriesCommitment nonce intent =
        signals.issuance := by
  obtain ⟨ranges, issuanceNonce, -, -, commits⟩ :=
    (rwaTradeProvenanceV1_holds lib H signals).mp holds
  obtain ⟨intent, hintent⟩ :=
    TradeFields.inRange_iff.mp ((TradeFields.rangeChecks_iff lawful).mp ranges)
  obtain ⟨nonce, hnonce⟩ :=
    inRange_u64_iff.mp ((lawful.num2Bits_iff 64 (by decide) _).mp issuanceNonce)
  refine ⟨nonce, intent, ?_, ?_⟩
  · rw [toFr_tradeCommitmentV1, hintent]
    exact commits
  · rw [issuanceFields, hintent, hnonce]
    rfl

end Statement

/-- The provenance circuit proves exactly the intended statement: its public inputs
have a satisfying assignment when, and only when, some intent has that commitment
and the leaf the engine builds for an issuance of its offered asset under its policy
root climbs to the authorized root. -/
theorem provenance_circuit_iff_statement (H : List Fr → Fr) (lib : Circomlib)
    (lawful : lib.Lawful) (root commitment : Fr) :
    (∃ signals : ProvenanceSignals 3, signals.authorizedIssuanceRoot = root ∧
      signals.tradeCommitment = commitment ∧ (rwaTradeProvenanceV1 lib H signals).holds) ↔
    ∃ (issuer series : Fr) (nonce : UInt64) (intent : TradeIntent) (issuance : Issuance),
      (tradeCommitmentV1 H intent).value.value.toFr = commitment ∧
      (computeIssuance H (issuanceRequest issuer series nonce intent)).run.value = .ok issuance ∧
      ∃ path : List (Step Fr), path.length = 3 ∧
        climb H (issuance.issuanceLeaf : Fr) path = root := by
  constructor
  · rintro ⟨signals, rfl, rfl, holds⟩
    obtain ⟨nonce, intent, hcommits, hfields⟩ := ProvenanceSignals.decodes lawful holds
    have hreturns := computeIssuance_agrees H signals.issuerCommitment signals.seriesCommitment
      nonce intent
    obtain ⟨-, -, -, hmember, -⟩ := (rwaTradeProvenanceV1_holds lib H signals).mp holds
    refine ⟨_, _, nonce, intent, _, hcommits, congrArg Hashed.value hreturns,
      signals.issuancePath, length_pathOf _ _, ?_⟩
    rw [engineIssuance, intCast_val, hfields, ← hmember, IssuanceFields.staging_eval]
  · rintro ⟨issuer, series, nonce, intent, issuance, rfl, hvalue, path, hlength, hmember⟩
    obtain ⟨siblings, indices, hbinary, rfl⟩ := exists_pathOf hlength
    have hreturns := computeIssuance_agrees H issuer series nonce intent
    obtain rfl : issuance = engineIssuance H issuer series nonce intent :=
      Except.ok.inj (hvalue.symm.trans (congrArg Hashed.value hreturns))
    rw [engineIssuance, intCast_val] at hmember
    exact ⟨.honest issuer series nonce intent root (tradeCommitmentV1 H intent).value.value.toFr
      siblings indices, rfl, rfl, ProvenanceSignals.honest_holds lawful hbinary hmember⟩

/-- A blank trade and issuance at the largest numbers, with zero paths. -/
def ProvenanceSignals.blank : ProvenanceSignals 3 :=
  .honest 0 0 18446744073709551615 (.blank 18446744073709551615) 0 0 (List.Vector.replicate 3 0)
    (List.Vector.replicate 3 0)

theorem ProvenanceSignals.blank_holds :
    (rwaTradeProvenanceV1 .bitwise (fun _ => 0) ProvenanceSignals.blank).holds :=
  ProvenanceSignals.honest_holds Circomlib.bitwise_lawful
    (binaryIndices_zero 3) (climb_const _ _)

theorem provenance_circuit_iff_statement_blank :
    ∃ (issuer series : Fr) (nonce : UInt64) (intent : TradeIntent) (issuance : Issuance),
      (tradeCommitmentV1 (fun _ => 0) intent).value.value.toFr = 0 ∧
      (computeIssuance (fun _ => 0) (issuanceRequest issuer series nonce intent)).run.value =
        .ok issuance ∧
      ∃ path : List (Step Fr), path.length = 3 ∧
        climb (fun _ => 0) (issuance.issuanceLeaf : Fr) path = 0 :=
  (provenance_circuit_iff_statement (fun _ => 0) .bitwise Circomlib.bitwise_lawful 0 0).mp
    ⟨.blank, rfl, rfl, ProvenanceSignals.blank_holds⟩

end ZwaProtocol
