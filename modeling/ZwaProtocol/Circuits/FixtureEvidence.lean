import ZwaProtocol.Circuits.FixtureGenerator
import ZwaProtocol.Circuits.Registry
import ZwaProtocol.Circuits.TreeMembership
import ZwaProtocol.Circuits.ApprovedReceiver

/-!
The evidence the generator writes, against the circuit. An input is satisfiable when the
receiver that the credential approves, the one presented and the one the trade settles to
are one; any other combination of two receivers is a hash collision.
-/
namespace ZwaProtocol
open HashStaging MerkleTree FieldElement SharedEngine SharedEligibility FixtureGenerator
open ConstraintSystem ConstraintSystem.Circuit

/-- The signals take the values of the input. The hints of the comparators are free. -/
structure AssignedFrom (signals : EligibilitySignals 3 3) (input : EligibilityInput) : Prop where
  activeCredentialRoot : input.activeCredentialRoot.map Int.cast
    = some signals.activeCredentialRoot
  tradeCommitment : (input.tradeCommitment : Fr) = signals.tradeCommitment
  subjectSecret : (input.subjectSecret : Fr) = signals.subjectSecret
  credentialAuthorityCommitment :
    (input.credentialAuthorityCommitment : Fr) = signals.credentialAuthorityCommitment
  investorClass : (input.investorClass : Fr) = signals.investorClass
  jurisdiction : (input.jurisdiction : Fr) = signals.jurisdiction
  credentialExpiry : (input.credentialExpiry : Fr) = signals.credentialExpiry
  credentialNonce : (input.credentialNonce : Fr) = signals.credentialNonce
  credentialMerkleSiblings : input.credentialMerkleSiblings.map (Option.map Int.cast)
    = signals.credentialMerkleSiblings.toList.map some
  credentialMerklePathIndices : toFrs input.credentialMerklePathIndices
    = signals.credentialMerklePathIndices.toList
  policyRoot : (input.policyRoot : Fr) = signals.policyRoot
  allowedInvestorClass : (input.allowedInvestorClass : Fr) = signals.allowedInvestorClass
  allowedJurisdiction : (input.allowedJurisdiction : Fr) = signals.allowedJurisdiction
  policyMerkleSiblings : toFrs input.policyMerkleSiblings = signals.policyMerkleSiblings.toList
  policyMerklePathIndices : toFrs input.policyMerklePathIndices
    = signals.policyMerklePathIndices.toList
  receiverLimb0 : (input.receiverLimb0 : Fr) = signals.receiverLimb0
  receiverLimb1 : (input.receiverLimb1 : Fr) = signals.receiverLimb1
  receiverLimb2 : (input.receiverLimb2 : Fr) = signals.receiverLimb2
  offeredAssetHi : (input.offeredAssetHi : Fr) = signals.offeredAssetHi
  offeredAssetLo : (input.offeredAssetLo : Fr) = signals.offeredAssetLo
  offeredAmount : (input.offeredAmount : Fr) = signals.offeredAmount
  requestedAssetHi : (input.requestedAssetHi : Fr) = signals.requestedAssetHi
  requestedAssetLo : (input.requestedAssetLo : Fr) = signals.requestedAssetLo
  requestedAmount : (input.requestedAmount : Fr) = signals.requestedAmount
  matcherFeeAmount : (input.matcherFeeAmount : Fr) = signals.matcherFeeAmount
  matcherFeeRecipientCommitment :
    (input.matcherFeeRecipientCommitment : Fr) = signals.matcherFeeRecipientCommitment
  nonce : (input.nonce : Fr) = signals.nonce
  expiry : (input.expiry : Fr) = signals.expiry

section Trees
variable (H : List Fr → Fr)

/-- A tree over the credential, at its index, with the path the verifier takes. -/
structure Opens (leaf : Int) (tree : CredentialTree) (leaves : List Int) (root : Int)
    (siblings indices : List.Vector Fr 3) : Prop where
  length : leaves.length = 2 ^ 3
  leafAt : leaves[credentialLeafIndex]? = some leaf
  built : ancestors H 3 (toFrs leaves) = [(root : Fr)]
  rootOf : tree.root = some root
  siblingsOf : tree.siblings.map (Option.map Int.cast) = siblings.toList.map some
  indicesOf : tree.pathIndices.map Nat.cast = indices.toList
  binary : BinaryIndices indices
  path : pathOf siblings indices = opening H 3 (toFrs leaves) credentialLeafIndex

theorem buildCredentialTree_returned {leaf : Int} {tree : CredentialTree}
    {inputs : List (List Fr)} (h : Returns (buildCredentialTree H leaf) tree inputs) :
    ∃ leaves root siblings indices, Opens H leaf tree leaves root siblings indices ∧
      treeInputs H 3 (toFrs leaves) ⊆ inputs := by
  obtain ⟨leaves, front, rest, hleaves, hrest, rfl⟩ := returns_bind_iff.mp h
  obtain ⟨levels, middle, last, hlevels, hproof, rfl⟩ := returns_bind_iff.mp hrest
  obtain ⟨proof, checked, final, hmerkle, hfinal, rfl⟩ := returns_bind_iff.mp hproof
  obtain rfl := hfinal.value_unique (.pure _)
  have hforall := hleaves.forall₂_mapM
  have hlength : leaves.length = 2 ^ 3 := hforall.length_eq.symm.trans List.length_range
  have hindex : credentialLeafIndex < leaves.length := by
    rw [hlength]
    decide
  obtain ⟨more, hleaf, -⟩ := hforall.get (by decide) hindex
  rw [List.get_eq_getElem, List.get_eq_getElem, List.getElem_range, if_pos rfl] at hleaf
  have hread : leaves[credentialLeafIndex]? = some leaf := by
    rw [List.getElem?_eq_getElem hindex, hleaf.value_unique (.pure leaf)]
  obtain ⟨levels', root, hreturns, hmap, hfirst, hlast, hroot⟩ :=
    buildMerkleTree_returns H 3 leaves hlength
  obtain rfl := hlevels.value_unique hreturns
  obtain rfl := hlevels.inputs_unique hreturns
  obtain ⟨siblings, indices, pathElements, pathIndices, hmerkle', hsiblings, hindices, hbinary,
    hpath⟩ := merkleProof_returns H hmap hfirst hlength hindex
  obtain rfl := hmerkle.value_unique hmerkle'
  refine ⟨leaves, root, pathElements, pathIndices, ⟨hlength, hread, hroot, ?_, ?_, hindices.symm,
    hbinary, hpath⟩, ?_⟩
  · rw [List.getLastD_eq_getLast?, hlast]
    rfl
  · rw [hsiblings, toFrs, List.map_map, List.map_map]
    rfl
  · intro input hinput
    exact List.mem_append_right _ (List.mem_append_left _ hinput)

end Trees

section Returned
variable (H : List Fr → Fr) {trade : ReferenceTrade} {policy : ReferencePolicy}

/-- A credential of the trade's subject that approves a receiver, and the tree it is in. -/
structure Approves (trade : ReferenceTrade) (secret : SubjectSecret)
    (receiver : OrchardReceiverBytes) (issued : Issued) (inputs : List (List Fr)) : Prop where
  subject : trade.subjectSecret = secret.value.toNat
  binding : issued.binding
    = engineBinding (bindRecipient H secret receiver).value (encodeReceiver receiver)
  bindingInputs : (bindRecipient H secret receiver).inputs ⊆ inputs
  checked : ((credentialFields trade).approving H receiver).Checked
  leaf : issued.credential.credentialLeaf
    = (((credentialFields trade).fields receiver).staging.eval H).val
  leafInputs : ((credentialFields trade).fields receiver).staging.inputs H ⊆ inputs
  opens : ∃ leaves root siblings indices,
    Opens H issued.credential.credentialLeaf issued.tree leaves root siblings indices ∧
    treeInputs H 3 (toFrs leaves) ⊆ inputs

theorem issueCredential_returned {receiverHex : String} {issued : Issued}
    {inputs : List (List Fr)}
    (h : Returns (issueCredential H (credentialFields trade) receiverHex) issued inputs) :
    ∃ secret receiver, receiver.toHex = receiverHex.toLower ∧
      Approves H trade secret receiver issued inputs := by
  obtain ⟨binding, front, rest, hbinding, hrest, rfl⟩ := returns_bind_iff.mp h
  obtain ⟨credential, middle, rest, hcredential, hlast, rfl⟩ := returns_bind_iff.mp hrest
  obtain ⟨tree, hashed, last, htree, hfinal, rfl⟩ := returns_bind_iff.mp hlast
  obtain rfl := hfinal.value_unique (.pure _)
  have hissued : Returns (issue H (credentialFields trade) receiverHex) (binding, credential)
      (front ++ middle) := hbinding.bind (hcredential.bind_pure _)
  obtain ⟨receiver, htext, checked, hleaf, hstaged⟩ := issue_returned H hissued
  obtain ⟨secret, receiver', hsecret, htext', hvalue, hinputs⟩ :=
    computeRecipientBinding_returned H hbinding
  obtain rfl : receiver' = receiver := receiver_toHex_injective (htext'.trans htext.symm)
  obtain ⟨leaves, root, siblings, indices, hopens, hsubset⟩ :=
    buildCredentialTree_returned H htree
  refine ⟨secret, receiver', htext, hsecret, hvalue, ?_, checked, hleaf, ?_, leaves, root,
    siblings, indices, hopens, ?_⟩
  · rw [← hinputs]
    exact List.subset_append_left ..
  · intro input hinput
    have hmem := hstaged hinput
    simp only [List.mem_append] at hmem ⊢
    tauto
  · intro input hinput
    simp only [List.mem_append, hsubset hinput, true_or, or_true]

/-- The values of the trade for a recipient. -/
def FixtureGenerator.ReferenceTrade.fields (trade : ReferenceTrade)
    (offered requested : AssetBaseBytes) (recipientCommitment : Fr) : TradeFields where
  offeredAssetHi := (fromU128 (encodeAssetBase offered).hi).toFr
  offeredAssetLo := (fromU128 (encodeAssetBase offered).lo).toFr
  offeredAmount := trade.offeredAmount
  requestedAssetHi := (fromU128 (encodeAssetBase requested).hi).toFr
  requestedAssetLo := (fromU128 (encodeAssetBase requested).lo).toFr
  requestedAmount := trade.requestedAmount
  recipientCommitment := recipientCommitment
  policyRoot := trade.policyRoot
  matcherFeeAmount := trade.matcherFeeAmount
  matcherFeeRecipientCommitment := trade.matcherFeeRecipientCommitment
  nonce := trade.nonce
  expiry := trade.expiry

/-- The trade for a recipient, as the intent it commits to. -/
structure SettlesTo (trade : ReferenceTrade) (recipient : RecipientCommitment)
    (intent : TradeIntent) (tradeCommitment : Int) : Prop where
  recipientOf : intent.recipientCommitment = recipient
  commitment : (tradeCommitment : Fr) = (tradeCommitmentV1 H intent).value.value.toFr
  offered : intent.offeredAsset.toHex = trade.offeredAssetBase.toLower
  requested : intent.requestedAsset.toHex = trade.requestedAssetBase.toLower
  expiry : trade.expiry = intent.expiry.get.toNat
  fields : intent.fields
    = trade.fields intent.offeredAsset intent.requestedAsset recipient.value.toFr

theorem tradeFor_returned {recipient : RecipientCommitment} {computed : Trade}
    {inputs : List (List Fr)}
    (h : Returns (tradeFor H trade recipient.value.toNat) computed inputs) :
    ∃ intent, SettlesTo H trade recipient intent computed.tradeCommitment ∧
      inputs = (tradeCommitmentParts H intent).inputs := by
  obtain ⟨intent, hrequest, rfl, rfl⟩ := computeTrade_returned H h
  simp only [tradeRequest, TradeRequest.lowerCase, TradeRequest.mk.injEq] at hrequest
  obtain ⟨hoffered, hofferedAmount, hrequested, hrequestedAmount, hrecipient, hroot, hfeeAmount,
    hfeeRecipient, hnonce, hexpiry⟩ := hrequest
  obtain rfl : intent.recipientCommitment = recipient := by
    refine FieldNewtype.eq_of_toFr ?_
    rw [toFr, toFr]
    exact congrArg Nat.cast (Int.natCast_inj.mp hrecipient)
  refine ⟨intent, ⟨rfl, Int.cast_natCast _, hoffered, hrequested, hexpiry.symm, ?_⟩, rfl⟩
  simp only [TradeIntent.fields, FixtureGenerator.ReferenceTrade.fields, ← hofferedAmount,
    ← hrequestedAmount, ← hroot, ← hfeeAmount, ← hfeeRecipient, ← hnonce, ← hexpiry,
    Int.cast_natCast, toFr_fromU64]
  rfl

end Returned

section Assigned
variable {trade : ReferenceTrade} {policy : ReferencePolicy} {issued : Issued}
  {receiver : OrchardReceiverBytes} {commitment : Int} {input : EligibilityInput}
  {inputs : List (List Fr)} {signals : EligibilitySignals 3 3}

theorem cast_engineLimbs (limbs : ReceiverLimbs) :
    (((engineLimbs limbs).limb0 : Fr) = (fromU128 limbs.limb0).toFr) ∧
      ((engineLimbs limbs).limb1 : Fr) = (fromU128 limbs.limb1).toFr ∧
      ((engineLimbs limbs).limb2 : Fr) = (fromU128 limbs.limb2).toFr := by
  simp [engineLimbs, toFr]

/-- The credential of an input is the one presented for the receiver. -/
theorem AssignedFrom.credential_eq (assigned : AssignedFrom signals input)
    (h : Returns (eligibilityInput trade policy issued (engineLimbs (encodeReceiver receiver))
      commitment) input inputs) :
    signals.credential = (credentialFields trade).fields receiver := by
  obtain ⟨offered, _, _, -, hrest, -⟩ := returns_bind_iff.mp h
  obtain ⟨requested, _, _, -, hlast, -⟩ := returns_bind_iff.mp hrest
  obtain rfl := hlast.value_unique (.pure _)
  obtain ⟨hlimb0, hlimb1, hlimb2⟩ := cast_engineLimbs (encodeReceiver receiver)
  exact CredentialFields.ext assigned.credentialAuthorityCommitment.symm
    assigned.subjectSecret.symm assigned.investorClass.symm assigned.jurisdiction.symm
    assigned.credentialExpiry.symm assigned.credentialNonce.symm
    (assigned.receiverLimb0.symm.trans hlimb0) (assigned.receiverLimb1.symm.trans hlimb1)
    (assigned.receiverLimb2.symm.trans hlimb2)

/-- The path of an input is the one extracted from the tree. -/
theorem AssignedFrom.path_eq {H : List Fr → Fr} (assigned : AssignedFrom signals input)
    {limbs : ReceiverHexLimbs}
    (h : Returns (eligibilityInput trade policy issued limbs commitment) input inputs)
    {leaves : List Int} {root : Int} {siblings indices : List.Vector Fr 3}
    (opens : Opens H issued.credential.credentialLeaf issued.tree leaves root siblings indices) :
    signals.activeCredentialRoot = root ∧ signals.credentialMerkleSiblings = siblings ∧
      signals.credentialMerklePathIndices = indices := by
  obtain ⟨offered, _, _, -, hrest, -⟩ := returns_bind_iff.mp h
  obtain ⟨requested, _, _, -, hlast, -⟩ := returns_bind_iff.mp hrest
  obtain rfl := hlast.value_unique (.pure _)
  have hroot := assigned.activeCredentialRoot
  have hsiblings := assigned.credentialMerkleSiblings
  have hindices := assigned.credentialMerklePathIndices
  simp only at hroot hsiblings hindices
  rw [opens.rootOf] at hroot
  rw [opens.siblingsOf] at hsiblings
  refine ⟨(Option.some.inj hroot).symm, ?_, ?_⟩
  · exact List.Vector.toList_injective
      (List.map_injective_iff.mpr (Option.some_injective _) hsiblings).symm
  · refine List.Vector.toList_injective (hindices.symm.trans ?_)
    rw [← opens.indicesOf, toFrs, List.map_map]
    rfl

/-- The policy of an input: its codes, its root and its path. -/
theorem AssignedFrom.policy_eq (assigned : AssignedFrom signals input) {limbs : ReceiverHexLimbs}
    (h : Returns (eligibilityInput trade policy issued limbs commitment) input inputs) :
    (policy.investorClass : Fr) = signals.allowedInvestorClass ∧
      (policy.jurisdiction : Fr) = signals.allowedJurisdiction ∧
      (policy.policyRoot : Fr) = signals.policyRoot ∧
      toFrs policy.merkleSiblings = signals.policyMerkleSiblings.toList ∧
      toFrs policy.merklePathIndices = signals.policyMerklePathIndices.toList ∧
      (commitment : Fr) = signals.tradeCommitment := by
  obtain ⟨offered, _, _, -, hrest, -⟩ := returns_bind_iff.mp h
  obtain ⟨requested, _, _, -, hlast, -⟩ := returns_bind_iff.mp hrest
  obtain rfl := hlast.value_unique (.pure _)
  exact ⟨assigned.allowedInvestorClass, assigned.allowedJurisdiction, assigned.policyRoot,
    assigned.policyMerkleSiblings, assigned.policyMerklePathIndices, assigned.tradeCommitment⟩

end Assigned

section Signals

/-- The first three of a list. -/
def vectorOf (values : List Fr) : List.Vector Fr 3 := .ofFn fun k => values.getD k 0

theorem vectorOf_toList (values : List.Vector Fr 3) : vectorOf values.toList = values := by
  refine List.Vector.ext fun k => ?_
  have hk : (k : Nat) < values.toList.length := by rw [values.toList_length]; exact k.isLt
  rw [vectorOf, List.Vector.get_ofFn, List.getD_eq_getElem _ _ hk]
  exact (List.Vector.get_eq_get_toList values k).symm

/-- The signals of an input, with zero hints. -/
def FixtureGenerator.EligibilityInput.signals (input : EligibilityInput) :
    EligibilitySignals 3 3 where
  activeCredentialRoot := (input.activeCredentialRoot.map Int.cast).getD 0
  tradeCommitment := input.tradeCommitment
  subjectSecret := input.subjectSecret
  credentialAuthorityCommitment := input.credentialAuthorityCommitment
  investorClass := input.investorClass
  jurisdiction := input.jurisdiction
  credentialExpiry := input.credentialExpiry
  credentialNonce := input.credentialNonce
  credentialMerkleSiblings :=
    vectorOf ((input.credentialMerkleSiblings.map (Option.map Int.cast)).map (Option.getD · 0))
  credentialMerklePathIndices := vectorOf (toFrs input.credentialMerklePathIndices)
  policyRoot := input.policyRoot
  allowedInvestorClass := input.allowedInvestorClass
  allowedJurisdiction := input.allowedJurisdiction
  policyMerkleSiblings := vectorOf (toFrs input.policyMerkleSiblings)
  policyMerklePathIndices := vectorOf (toFrs input.policyMerklePathIndices)
  receiverLimb0 := input.receiverLimb0
  receiverLimb1 := input.receiverLimb1
  receiverLimb2 := input.receiverLimb2
  offeredAssetHi := input.offeredAssetHi
  offeredAssetLo := input.offeredAssetLo
  offeredAmount := input.offeredAmount
  requestedAssetHi := input.requestedAssetHi
  requestedAssetLo := input.requestedAssetLo
  requestedAmount := input.requestedAmount
  matcherFeeAmount := input.matcherFeeAmount
  matcherFeeRecipientCommitment := input.matcherFeeRecipientCommitment
  nonce := input.nonce
  expiry := input.expiry
  credentialRootInv := 0
  policyRootInv := 0
  validThroughTradeOut := 0

theorem merkleMembership_hashed_inv (H : List Fr → Fr) {depth : Nat} (leaf root : Fr)
    (pathElements pathIndices : List.Vector Fr depth) (inv inv' : Fr) :
    (merkleMembership H leaf root pathElements pathIndices inv).hashed
      = (merkleMembership H leaf root pathElements pathIndices inv').hashed := rfl

/-- The hints are not hashed. -/
theorem eligibility_hashed_hints (lib : Circomlib) (H : List Fr → Fr)
    (signals : EligibilitySignals 3 3) (credentialInv policyInv out : Fr) :
    (rwaInvestorEligibilityV1 lib H { signals with
      credentialRootInv := credentialInv
      policyRootInv := policyInv
      validThroughTradeOut := out }).hashed = (rwaInvestorEligibilityV1 lib H signals).hashed := by
  simp only [rwaInvestorEligibilityV1, hashed_bind, hashed_require, hashed_enforce]
  rw [merkleMembership_hashed_inv H _ _ _ _ credentialInv signals.credentialRootInv,
    merkleMembership_hashed_inv H _ _ _ _ policyInv signals.policyRootInv]
  rfl

/-- An input fixes what the circuit hashes. -/
theorem AssignedFrom.hashed_eq {signals : EligibilitySignals 3 3} {input : EligibilityInput}
    (assigned : AssignedFrom signals input) (lib : Circomlib) (H : List Fr → Fr) :
    (rwaInvestorEligibilityV1 lib H signals).hashed
      = (rwaInvestorEligibilityV1 lib H input.signals).hashed := by
  have hsiblings : vectorOf ((signals.credentialMerkleSiblings.toList.map some).map
      (Option.getD · 0)) = signals.credentialMerkleSiblings := by
    rw [List.map_map]
    exact (congrArg vectorOf (List.map_id _)).trans (vectorOf_toList _)
  have hsignals : input.signals = { signals with
      credentialRootInv := 0
      policyRootInv := 0
      validThroughTradeOut := 0 } := by
    simp only [EligibilityInput.signals, assigned.activeCredentialRoot, assigned.tradeCommitment,
      assigned.subjectSecret, assigned.credentialAuthorityCommitment, assigned.investorClass,
      assigned.jurisdiction, assigned.credentialExpiry, assigned.credentialNonce,
      assigned.credentialMerkleSiblings, assigned.credentialMerklePathIndices,
      assigned.policyRoot, assigned.allowedInvestorClass, assigned.allowedJurisdiction,
      assigned.policyMerkleSiblings, assigned.policyMerklePathIndices, assigned.receiverLimb0,
      assigned.receiverLimb1, assigned.receiverLimb2, assigned.offeredAssetHi,
      assigned.offeredAssetLo, assigned.offeredAmount, assigned.requestedAssetHi,
      assigned.requestedAssetLo, assigned.requestedAmount, assigned.matcherFeeAmount,
      assigned.matcherFeeRecipientCommitment, assigned.nonce, assigned.expiry, hsiblings,
      Option.getD_some, vectorOf_toList]
  rw [hsignals]
  exact (eligibility_hashed_hints lib H signals 0 0 0).symm

end Signals

/-- What the circuit asks of the fixture besides the receivers: codes of 8 and 16 bits that
the policy permits under the root the trade commits to, and a credential that covers the
trade. -/
structure Presentable (H : List Fr → Fr) (trade : ReferenceTrade) (policy : ReferencePolicy) :
    Prop where
  investorClass : trade.investorClass ≤ 255
  jurisdiction : trade.jurisdiction ≤ 65535
  covers : trade.expiry ≤ trade.credentialExpiry
  sameClass : (policy.investorClass : Fr) = trade.investorClass
  sameJurisdiction : (policy.jurisdiction : Fr) = trade.jurisdiction
  sameRoot : (policy.policyRoot : Fr) = trade.policyRoot
  permitted : ∃ siblings indices : List.Vector Fr 3,
    toFrs policy.merkleSiblings = siblings.toList ∧
    toFrs policy.merklePathIndices = indices.toList ∧ BinaryIndices indices ∧
    climb H (policyLeaf H trade.investorClass trade.jurisdiction) (pathOf siblings indices)
      = (policy.policyRoot : Fr)

section Soundness
variable {lib : Circomlib} (lawful : lib.Lawful) {H : List Fr → Fr} {recorded : Set (List Fr)}
  (injective : Set.InjOn H recorded) {trade : ReferenceTrade} {policy : ReferencePolicy}
  {issued : Issued} {approved presented : OrchardReceiverBytes} {secret : SubjectSecret}
  {commitment : Int} {input : EligibilityInput} {inputs more : List (List Fr)}
  {signals : EligibilitySignals 3 3}

include injective in
/-- The receiver presented is the one the credential in the tree approves. -/
theorem approved_eq_presented (approves : Approves H trade secret approved issued inputs)
    (returned : Returns (eligibilityInput trade policy issued
      (engineLimbs (encodeReceiver presented)) commitment) input more)
    (assigned : AssignedFrom signals input) (holds : EligibilityHolds lib H signals)
    (hcircuit : ∀ xs ∈ (rwaInvestorEligibilityV1 lib H signals).hashed, xs ∈ recorded)
    (hissued : ∀ xs ∈ inputs, xs ∈ recorded) : approved = presented := by
  obtain ⟨leaves, root, siblings, indices, hopens, htree⟩ := approves.opens
  obtain ⟨hroot, rfl, rfl⟩ := assigned.path_eq returned hopens
  have hpath : signals.credentialPath = opening H 3 (toFrs leaves) credentialLeafIndex :=
    hopens.path
  have hlength : (toFrs leaves).length = 2 ^ 3 := by rw [toFrs, List.length_map, hopens.length]
  have hthree : signals.credentialPath.length = 3 := length_pathOf _ _
  have hread := leaf_of_climb injective signals.credentialPath (by rw [hthree, hlength])
    (fun pair hpair => hcircuit pair
      (eligibility_path_inputs_subset lib H signals hopens.binary hpair))
    (fun pair hpair => hissued pair (htree (by rwa [hthree] at hpair)))
    (by rw [hthree, hopens.built, holds.credentialMember, hroot])
  rw [hpath, position_opening H hlength (by decide), toFrs, List.getElem?_map, hopens.leafAt,
    Option.map_some, Option.some.injEq, approves.leaf, intCast_val] at hread
  have hfields := CredentialFields.eq_of_eval_eq injective
    (fun xs hxs => hissued xs (approves.leafInputs hxs))
    (fun xs hxs => hcircuit xs (eligibility_credential_inputs_subset lib H signals hxs)) hread
  rw [assigned.credential_eq returned] at hfields
  simp only [SharedEligibility.CredentialRequest.fields, CredentialFields.mk.injEq, true_and]
    at hfields
  obtain ⟨limb0, limb1, limb2⟩ := hfields
  exact receiver_eq_of_limbs limb0 limb1 limb2

theorem eligibility_recipient_inputs_subset :
    signals.credential.recipientStaging.inputs H
      ⊆ (rwaInvestorEligibilityV1 lib H signals).hashed := by
  simp [rwaInvestorEligibilityV1, poseidonHash2, poseidonHash3, poseidonHash4, poseidonHash6,
    circuitDomains_eq, CredentialFields.recipientStaging, CredentialFields.subjectStaging,
    CredentialFields.receiverStaging, EligibilitySignals.credential]

variable {settled : OrchardReceiverBytes} {intent : TradeIntent}

include injective in
/-- The receiver presented is the one the trade settles to. -/
theorem presented_eq_settled
    (settles : SettlesTo H trade (bindRecipient H secret settled).value.recipientCommitment intent
      commitment)
    (returned : Returns (eligibilityInput trade policy issued
      (engineLimbs (encodeReceiver presented)) commitment) input more)
    (assigned : AssignedFrom signals input) (htrade : signals.trade H = intent.fields)
    (hcircuit : ∀ xs ∈ (rwaInvestorEligibilityV1 lib H signals).hashed, xs ∈ recorded)
    (hbound : ∀ xs ∈ (bindRecipient H secret settled).inputs, xs ∈ recorded) :
    presented = settled := by
  have heval : signals.credential.recipientStaging.eval H
      = (ActiveCredential.holding secret settled).fields.recipientStaging.eval H := by
    rw [← toFr_bindRecipient]
    have hrecipient := congrArg TradeFields.recipientCommitment htrade
    rwa [settles.fields] at hrecipient
  have hstaging := Staging.eq_of_eval_eq injective _ _
    (CredentialFields.recipientStaging_sameShape _ _)
    (fun xs hxs => hcircuit xs (eligibility_recipient_inputs_subset hxs))
    (fun xs hxs => hbound xs (recipient_inputs_subset H (.holding secret settled) hxs)) heval
  rw [assigned.credential_eq returned] at hstaging
  simp only [CredentialFields.recipientStaging, CredentialFields.receiverStaging,
    SharedEligibility.CredentialRequest.fields, ActiveCredential.fields, Staging.hash.injEq,
    List.cons.injEq, Staging.value.injEq, and_true, true_and] at hstaging
  obtain ⟨-, limb0, limb1, limb2⟩ := hstaging
  exact receiver_eq_of_limbs limb0 limb1 limb2

include lawful in
theorem presentable_of_holds {recipient : RecipientCommitment}
    (checked : ((credentialFields trade).approving H approved).Checked)
    (settles : SettlesTo H trade recipient intent commitment)
    (returned : Returns (eligibilityInput trade policy issued
      (engineLimbs (encodeReceiver presented)) commitment) input more)
    (assigned : AssignedFrom signals input) (holds : EligibilityHolds lib H signals)
    (htrade : signals.trade H = intent.fields) : Presentable H trade policy := by
  obtain ⟨hclass, hjurisdiction, hroot, hsiblings, hindices, -⟩ := assigned.policy_eq returned
  have hcredential := assigned.credential_eq returned
  have hclassOf : signals.investorClass = (trade.investorClass : Fr) :=
    congrArg CredentialFields.investorClass hcredential
  have hjurisdictionOf : signals.jurisdiction = (trade.jurisdiction : Fr) :=
    congrArg CredentialFields.jurisdiction hcredential
  have hranges := holds.credentialRanges
  rw [hcredential] at hranges
  obtain ⟨classWord, hclassWord⟩ := checked.investorClass.exists_eq
  obtain ⟨jurisdictionWord, hjurisdictionWord⟩ := checked.jurisdiction.exists_eq
  obtain ⟨expiryWord, hexpiryWord⟩ := checked.credentialExpiry.exists_eq
  change trade.investorClass = _ at hclassWord
  change trade.jurisdiction = _ at hjurisdictionWord
  change trade.credentialExpiry = _ at hexpiryWord
  have hclassBits : lib.num2Bits 8 (trade.investorClass : Fr) := hranges.investorClass
  have hjurisdictionBits : lib.num2Bits 16 (trade.jurisdiction : Fr) := hranges.jurisdiction
  rw [hclassWord, num2Bits_word_iff lawful (by decide)] at hclassBits
  rw [hjurisdictionWord, num2Bits_word_iff lawful (by decide)] at hjurisdictionBits
  refine ⟨by omega, by omega, ?_, ?_, ?_, ?_, ?_⟩
  · have hcovers := holds.covers lawful
    have hexpiry : signals.expiry = (fromU64 intent.expiry.get).toFr :=
      congrArg TradeFields.expiry htrade
    have hcredentialExpiry : signals.credentialExpiry = (fromU64 expiryWord).toFr := by
      rw [toFr_fromU64, ← Int.cast_natCast, ← hexpiryWord]
      exact congrArg CredentialFields.credentialExpiry hcredential
    rw [hexpiry, hcredentialExpiry, val_toFr, val_toFr, toNat_fromU64, toNat_fromU64] at hcovers
    rw [settles.expiry, hexpiryWord]
    exact Int.ofNat_le.mpr hcovers
  · rw [hclass, ← holds.allowed.1, hclassOf]
  · rw [hjurisdiction, ← holds.allowed.2, hjurisdictionOf]
  · rw [hroot]
    have hpolicy := congrArg TradeFields.policyRoot htrade
    rwa [settles.fields] at hpolicy
  · refine ⟨_, _, hsiblings, hindices, holds.policyBinary, ?_⟩
    rw [hroot, ← hclassOf, ← hjurisdictionOf, holds.allowed.1, holds.allowed.2]
    exact holds.policyMember

end Soundness

section Completeness
variable {H : List Fr → Fr} {trade : ReferenceTrade} {policy : ReferencePolicy} {issued : Issued}
  {receiver : OrchardReceiverBytes} {secret : SubjectSecret} {commitment : Int}
  {input : EligibilityInput} {inputs more : List (List Fr)} {intent : TradeIntent}

/-- Codes that the circuit has bits for are those of a credential. -/
theorem Approves.exists_active (approves : Approves H trade secret receiver issued inputs)
    (presentable : Presentable H trade policy) :
    ∃ credential : ActiveCredential,
      credential.fields = (credentialFields trade).fields receiver ∧
      credential.subjectSecret = secret ∧ credential.approvedReceiver = receiver := by
  have codes := (codesAccepted_iff Circomlib.bitwise_lawful approves.checked.investorClass
    approves.checked.jurisdiction).mpr ⟨presentable.investorClass, presentable.jurisdiction⟩
  obtain ⟨investorClass, hclass⟩ := codes.classCode
  obtain ⟨jurisdiction, hjurisdiction⟩ := codes.jurisdictionCode
  obtain ⟨credential, rfl, hrequest⟩ :=
    exists_credential approves.checked hclass hjurisdiction receiver
  have issues : Issues ((credentialFields trade).approving H credential.approvedReceiver)
      credential.approvedReceiver.toHex credential := ⟨hrequest, lower_toHex_receiver _⟩
  have hfields := (issues.fields_eq (lower_toHex_receiver _)).symm
  rw [SharedEligibility.CredentialRequest.fields_approving] at hfields
  refine ⟨credential, hfields, FieldNewtype.eq_of_toFr ?_, rfl⟩
  refine (congrArg CredentialFields.subjectSecret hfields).trans ?_
  change (trade.subjectSecret : Fr) = _
  rw [approves.subject, Int.cast_natCast]
  rfl

/-- The input for the receiver the credential approves is what an honest prover assigns. -/
theorem assigned_honest {credential : ActiveCredential} {recipient : RecipientCommitment}
    (hcredential : credential.fields = (credentialFields trade).fields receiver)
    (settles : SettlesTo H trade recipient intent commitment)
    (presentable : Presentable H trade policy) {leaves : List Int} {root : Int}
    {siblings indices policySiblings policyIndices : List.Vector Fr 3}
    (opens : Opens H issued.credential.credentialLeaf issued.tree leaves root siblings indices)
    (hsiblings : toFrs policy.merkleSiblings = policySiblings.toList)
    (hindices : toFrs policy.merklePathIndices = policyIndices.toList)
    (returned : Returns (eligibilityInput trade policy issued
      (engineLimbs (encodeReceiver receiver)) commitment) input more) :
    AssignedFrom (.honest credential intent root (tradeCommitmentV1 H intent).value.value.toFr
      siblings indices policySiblings policyIndices) input := by
  obtain ⟨offered, _, _, hoffered, hrest, -⟩ := returns_bind_iff.mp returned
  obtain ⟨requested, _, _, hrequested, hlast, -⟩ := returns_bind_iff.mp hrest
  obtain rfl := hlast.value_unique (.pure _)
  obtain ⟨asset, htext, rfl⟩ := assetIdToLimbs_limbs hoffered
  obtain ⟨asset', htext', rfl⟩ := assetIdToLimbs_limbs hrequested
  obtain rfl : asset = intent.offeredAsset :=
    asset_toHex_injective (htext.trans settles.offered.symm)
  obtain rfl : asset' = intent.requestedAsset :=
    asset_toHex_injective (htext'.trans settles.requested.symm)
  have hcast (word : BitVec 128) : ((word.toNat : Int) : Fr) = (fromU128 word).toFr := by
    simp [toFr]
  obtain ⟨hlimb0, hlimb1, hlimb2⟩ := cast_engineLimbs (encodeReceiver receiver)
  constructor <;> simp only [EligibilitySignals.honest, hcredential, settles.fields,
    SharedEligibility.CredentialRequest.fields, FixtureGenerator.ReferenceTrade.fields,
    credentialFields, settles.commitment, presentable.sameClass, presentable.sameJurisdiction,
    presentable.sameRoot, opens.rootOf, opens.siblingsOf, hcast, hlimb0, hlimb1, hlimb2,
    hsiblings, hindices, Option.map_some]
  rw [← opens.indicesOf, toFrs, List.map_map]
  rfl

/-- Completeness: one receiver approved, presented and settled to satisfies the circuit. -/
theorem exists_signals {lib : Circomlib} (lawful : lib.Lawful)
    (approves : Approves H trade secret receiver issued inputs)
    (settles : SettlesTo H trade (bindRecipient H secret receiver).value.recipientCommitment intent
      commitment)
    (presentable : Presentable H trade policy)
    (returned : Returns (eligibilityInput trade policy issued
      (engineLimbs (encodeReceiver receiver)) commitment) input more) :
    ∃ signals : EligibilitySignals 3 3, AssignedFrom signals input ∧
      EligibilityHolds lib H signals := by
  obtain ⟨credential, hcredential, rfl, rfl⟩ := approves.exists_active presentable
  obtain ⟨leaves, root, siblings, indices, hopens, -⟩ := approves.opens
  obtain ⟨policySiblings, policyIndices, hsiblings, hindices, hbinary, hclimb⟩ :=
    presentable.permitted
  have hassigned := assigned_honest hcredential settles presentable hopens hsiblings hindices
    returned
  refine ⟨_, hassigned, EligibilitySignals.honest_holds lawful settles.recipientOf ?_
    hopens.binary hbinary ?_ ?_⟩
  · have hexpiry : trade.credentialExpiry = credential.credentialExpiry.get.toNat := by
      obtain ⟨word, hword⟩ := approves.checked.credentialExpiry.exists_eq
      have heq := congrArg CredentialFields.credentialExpiry hcredential
      exact approves.checked.credentialExpiry.eq_toNat heq.symm
    rw [CredentialExpiry.coversTradeExpiry, decide_eq_true_eq, ge_iff_le, UInt64.le_iff_toNat_le]
    have hcovers := presentable.covers
    rw [settles.expiry, hexpiry] at hcovers
    exact Int.ofNat_le.mp hcovers
  · have hlength : (toFrs leaves).length = 2 ^ 3 := by
      rw [toFrs, List.length_map, hopens.length]
    have hread : (toFrs leaves)[credentialLeafIndex]?
        = some (credential.leaf H).value.value.toFr := by
      rw [toFrs, List.getElem?_map, hopens.leafAt, approves.leaf, toFr_leaf, hcredential]
      exact congrArg some (intCast_val _)
    have hroot := (climb_opening H hlength hread).symm.trans hopens.built
    rw [hopens.path]
    exact List.head_eq_of_cons_eq hroot
  · have hclass := congrArg CredentialFields.investorClass hcredential
    have hjurisdiction := congrArg CredentialFields.jurisdiction hcredential
    have hroot := congrArg TradeFields.policyRoot settles.fields
    change (fromU64 credential.investorClass.get).toFr = (trade.investorClass : Fr) at hclass
    change (fromU64 credential.jurisdiction.get).toFr = (trade.jurisdiction : Fr) at hjurisdiction
    change intent.policyRoot.value.toFr = (trade.policyRoot : Fr) at hroot
    rw [hclass, hjurisdiction, hroot, hclimb, presentable.sameRoot]

end Completeness

/-- An input put together from a credential that approves one receiver, the limbs of one and
the trade that settles to one. -/
def PutTogether (H : List Fr → Fr) (trade : ReferenceTrade) (policy : ReferencePolicy)
    (secret : SubjectSecret) (approved presented settled : OrchardReceiverBytes)
    (input : EligibilityInput) (inputs : List (List Fr)) : Prop :=
  ∃ issued intent commitment more, Approves H trade secret approved issued inputs ∧
    SettlesTo H trade (bindRecipient H secret settled).value.recipientCommitment intent commitment ∧
    (tradeCommitmentParts H intent).inputs ⊆ inputs ∧
    (bindRecipient H secret settled).inputs ⊆ inputs ∧
    Returns (eligibilityInput trade policy issued (engineLimbs (encodeReceiver presented))
      commitment) input more

section Inputs
variable {lib : Circomlib} (lawful : lib.Lawful) {H : List Fr → Fr} {trade : ReferenceTrade}
  {policy : ReferencePolicy} {secret : SubjectSecret}
  {receiver approved presented settled : OrchardReceiverBytes} {input : EligibilityInput}
  {inputs : List (List Fr)}
include lawful

theorem PutTogether.satisfiable
    (h : PutTogether H trade policy secret receiver receiver receiver input inputs)
    (presentable : Presentable H trade policy) :
    ∃ signals, AssignedFrom signals input ∧ (rwaInvestorEligibilityV1 lib H signals).holds := by
  obtain ⟨issued, intent, commitment, more, approves, settles, -, -, returned⟩ := h
  obtain ⟨signals, assigned, holds⟩ := exists_signals lawful approves settles presentable returned
  exact ⟨signals, assigned, (rwaInvestorEligibilityV1_holds lib H signals).mpr holds⟩

theorem PutTogether.agree_or_collision
    (h : PutTogether H trade policy secret approved presented settled input inputs)
    {signals : EligibilitySignals 3 3} (assigned : AssignedFrom signals input)
    (holds : (rwaInvestorEligibilityV1 lib H signals).holds) :
    (Presentable H trade policy ∧ approved = presented ∧ presented = settled) ∨
      Collision H ((rwaInvestorEligibilityV1 lib H signals).hashed ++ inputs) := by
  obtain ⟨issued, intent, commitment, more, approves, settles, hintent, hbound, returned⟩ := h
  rw [or_iff_not_imp_right]
  intro hcollision
  have hinjective := injOn_of_not_collision hcollision
  have hholds := (rwaInvestorEligibilityV1_holds lib H signals).mp holds
  have hcircuit : ∀ xs ∈ (rwaInvestorEligibilityV1 lib H signals).hashed,
      xs ∈ (rwaInvestorEligibilityV1 lib H signals).hashed ++ inputs :=
    fun xs hxs => List.mem_append_left _ hxs
  have hgenerator : ∀ xs ∈ inputs,
      xs ∈ (rwaInvestorEligibilityV1 lib H signals).hashed ++ inputs :=
    fun xs hxs => List.mem_append_right _ hxs
  have hcommits : signals.tradeCommitment = (tradeCommitmentV1 H intent).value.value.toFr :=
    (assigned.policy_eq returned).2.2.2.2.2.symm.trans settles.commitment
  have htrade := eligibility_trade_eq hinjective hcircuit
    (fun xs hxs => hgenerator xs (hintent hxs)) hholds hcommits
  exact ⟨presentable_of_holds lawful approves.checked settles returned assigned hholds htrade,
    approved_eq_presented hinjective approves returned assigned hholds hcircuit hgenerator,
    presented_eq_settled hinjective settles returned assigned htrade hcircuit
      (fun xs hxs => hgenerator xs (hbound hxs))⟩

end Inputs

section Generated
variable (H : List Fr → Fr) {trade : ReferenceTrade} {policy : ReferencePolicy}
  {receiverA receiverB : String} {fixture : Fixture} {inputs : List (List Fr)}

theorem Approves.mono {secret : SubjectSecret} {receiver : OrchardReceiverBytes} {issued : Issued}
    {more : List (List Fr)} (h : Approves H trade secret receiver issued inputs)
    (hsubset : inputs ⊆ more) : Approves H trade secret receiver issued more := by
  obtain ⟨leaves, root, siblings, indices, hopens, htree⟩ := h.opens
  exact { h with
    bindingInputs := List.Subset.trans h.bindingInputs hsubset
    leafInputs := List.Subset.trans h.leafInputs hsubset
    opens := ⟨leaves, root, siblings, indices, hopens, List.Subset.trans htree hsubset⟩ }

/-- The trade to the recipient of an approval settles to the receiver it approves. -/
theorem Approves.settles {secret : SubjectSecret} {receiver : OrchardReceiverBytes}
    {issued : Issued} {computed : Trade} {more : List (List Fr)}
    (h : Approves H trade secret receiver issued inputs)
    (returned : Returns (tradeFor H trade issued.binding.recipientCommitment) computed more) :
    ∃ intent, SettlesTo H trade (bindRecipient H secret receiver).value.recipientCommitment intent
      computed.tradeCommitment ∧ more = (tradeCommitmentParts H intent).inputs := by
  rw [h.binding] at returned
  exact tradeFor_returned H returned

/-- The four inputs, by whom each names. -/
theorem main_returned
    (h : Returns (main H trade policy receiverA receiverB) fixture inputs) :
    ∃ secret a b, a.toHex = receiverA.toLower ∧ b.toHex = receiverB.toLower ∧
      PutTogether H trade policy secret a a a fixture.approvedReceiverInput inputs ∧
      PutTogether H trade policy secret a b b fixture.substitutedReceiverInput inputs ∧
      PutTogether H trade policy secret b a a fixture.mutatedApprovedReceiverInput inputs ∧
      PutTogether H trade policy secret a b a fixture.mutatedTradeRecipientInput inputs := by
  obtain ⟨limbsA, readA, rest₁, hlimbsA, h₁, hinputs⟩ := returns_bind_iff.mp h
  obtain ⟨limbsB, readB, rest₂, hlimbsB, h₂, rfl⟩ := returns_bind_iff.mp h₁
  obtain ⟨issuedA, frontA, rest₃, hissuedA, h₃, rfl⟩ := returns_bind_iff.mp h₂
  obtain ⟨issuedB, frontB, rest₄, hissuedB, h₄, rfl⟩ := returns_bind_iff.mp h₃
  obtain ⟨tradeA, tradedA, rest₅, htradeA, h₅, rfl⟩ := returns_bind_iff.mp h₄
  obtain ⟨tradeB, tradedB, rest₆, htradeB, h₆, rfl⟩ := returns_bind_iff.mp h₅
  have hfrontA : frontA ⊆ inputs := fun xs hxs => by
    simp only [hinputs, List.mem_append, hxs, true_or, or_true]
  have hfrontB : frontB ⊆ inputs := fun xs hxs => by
    simp only [hinputs, List.mem_append, hxs, true_or, or_true]
  have htradedA : tradedA ⊆ inputs := fun xs hxs => by
    simp only [hinputs, List.mem_append, hxs, true_or, or_true]
  have htradedB : tradedB ⊆ inputs := fun xs hxs => by
    simp only [hinputs, List.mem_append, hxs, true_or, or_true]
  have h₇ := (returns_guard_iff.mp (returns_guard_iff.mp h₆).2).2
  obtain ⟨approvedInput, _, _, happroved, h₈, -⟩ := returns_bind_iff.mp h₇
  obtain ⟨substitutedInput, _, _, hsubstituted, h₉, -⟩ := returns_bind_iff.mp h₈
  obtain ⟨mutatedApproved, _, _, hmutatedApproved, h₁₀, -⟩ := returns_bind_iff.mp h₉
  obtain ⟨mutatedTrade, _, _, hmutatedTrade, hlast, -⟩ := returns_bind_iff.mp h₁₀
  obtain rfl := hlast.value_unique (.pure _)
  obtain ⟨secret, a, htextA, approvesA⟩ := issueCredential_returned H hissuedA
  obtain ⟨secret', b, htextB, approvesB⟩ := issueCredential_returned H hissuedB
  obtain rfl : secret' = secret := by
    refine FieldNewtype.eq_of_toFr ?_
    rw [toFr, toFr]
    exact congrArg Nat.cast
      (Int.natCast_inj.mp (approvesB.subject.symm.trans approvesA.subject))
  obtain ⟨a', htextA', rfl⟩ := receiverToLimbs_limbs hlimbsA
  obtain ⟨b', htextB', rfl⟩ := receiverToLimbs_limbs hlimbsB
  obtain rfl : a' = a := receiver_toHex_injective (htextA'.trans htextA.symm)
  obtain rfl : b' = b := receiver_toHex_injective (htextB'.trans htextB.symm)
  obtain ⟨intentA, settlesA, rfl⟩ := approvesA.settles H htradeA
  obtain ⟨intentB, settlesB, rfl⟩ := approvesB.settles H htradeB
  have hboundA := List.Subset.trans approvesA.bindingInputs hfrontA
  have hboundB := List.Subset.trans approvesB.bindingInputs hfrontB
  refine ⟨secret', a', b', htextA, htextB,
    ⟨issuedA, intentA, _, _, approvesA.mono H hfrontA, settlesA, htradedA, hboundA, happroved⟩,
    ⟨issuedA, intentB, _, _, approvesA.mono H hfrontA, settlesB, htradedB, hboundB, hsubstituted⟩,
    ⟨issuedB, intentA, _, _, approvesB.mono H hfrontB, settlesA, htradedA, hboundA,
      hmutatedApproved⟩,
    ⟨issuedA, intentA, _, _, approvesA.mono H hfrontA, settlesA, htradedA, hboundA,
      hmutatedTrade⟩⟩

end Generated

section Reference
variable (H : List Fr → Fr)

theorem buildCredentialTree_completes (leaf : Int) : Completes (buildCredentialTree H leaf) := by
  have hleaves : Completes ((List.range (1 <<< credentialDepth)).mapM fun i =>
      if i = credentialLeafIndex then pure leaf else fillerLeaf H i) := by
    refine completes_mapM fun i _ => ?_
    by_cases hindex : i = credentialLeafIndex
    · rw [if_pos hindex]
      exact completes_pure leaf
    · rw [if_neg hindex]
      exact completes_lift _
  obtain ⟨leaves, front, hreturns⟩ := hleaves
  have hlength : leaves.length = 2 ^ 3 :=
    hreturns.forall₂_mapM.length_eq.symm.trans List.length_range
  obtain ⟨levels, root, hlevels, hmap, hfirst, -⟩ := buildMerkleTree_returns H 3 leaves hlength
  obtain ⟨siblings, indices, -, -, hproof, -⟩ := merkleProof_returns H hmap hfirst hlength
    (k := credentialLeafIndex) (by rw [hlength]; decide)
  exact ⟨_, _, hreturns.bind (hlevels.bind (hproof.bind_pure _))⟩

variable (credential : ActiveCredential) (intent : TradeIntent)

/-- The fixture of a credential's subject and an intent, with the recipient that is expected
of it. -/
def referenceTrade (recipientCommitment : String) : ReferenceTrade where
  offeredAssetBase := intent.offeredAsset.toHex
  requestedAssetBase := intent.requestedAsset.toHex
  offeredAmount := intent.offeredAmount.get.toNat
  requestedAmount := intent.requestedAmount.get.toNat
  recipientCommitment
  policyRoot := intent.policyRoot.value.toNat
  matcherFeeAmount := intent.matcherFee.amount.get.toNat
  matcherFeeRecipientCommitment := intent.matcherFee.recipientCommitment.value.toNat
  nonce := intent.nonce.get.toNat
  expiry := intent.expiry.get.toNat
  subjectSecret := credential.subjectSecret.value.toNat
  credentialAuthorityCommitment := credential.authorityCommitment.value.toNat
  investorClass := credential.investorClass.get.toNat
  jurisdiction := credential.jurisdiction.get.toNat
  credentialExpiry := credential.credentialExpiry.get.toNat
  credentialNonce := credential.nonce.get.toNat

variable (text : String)

theorem issueCredential_reference (receiver : OrchardReceiverBytes) :
    ∃ issued inputs, Returns (issueCredential H
        (credentialFields (referenceTrade credential intent text)) receiver.toHex) issued inputs ∧
      issued.binding = engineBinding (bindRecipient H credential.subjectSecret receiver).value
        (encodeReceiver receiver) := by
  obtain ⟨recorded, hcredential⟩ :=
    computeCredential_agrees H { credential with approvedReceiver := receiver }
  obtain ⟨tree, hashed, htree⟩ := buildCredentialTree_completes H
    (({ credential with approvedReceiver := receiver } : ActiveCredential).leaf H).value.value.toNat
  exact ⟨_, _, (computeRecipientBinding_agrees H credential.subjectSecret receiver).bind
    (hcredential.bind (htree.bind_pure _)), rfl⟩

theorem tradeCommitment_engineTrade (intent : TradeIntent) :
    (engineTrade (tradeCommitmentParts H intent).value).tradeCommitment
      = (tradeCommitmentV1 H intent).value.value.toNat := rfl

theorem tradeFor_reference {issued : Issued} {receiver : OrchardReceiverBytes}
    (h : issued.binding = engineBinding (bindRecipient H credential.subjectSecret receiver).value
      (encodeReceiver receiver)) :
    ∃ computed inputs, Returns (tradeFor H (referenceTrade credential intent text)
        issued.binding.recipientCommitment) computed inputs ∧
      computed.tradeCommitment = (tradeCommitmentV1 H { intent with
        recipientCommitment := (bindRecipient H credential.subjectSecret
          receiver).value.recipientCommitment }).value.value.toNat := by
  have hreturns := computeTrade_agrees H { intent with
    recipientCommitment := (bindRecipient H credential.subjectSecret
      receiver).value.recipientCommitment }
  rw [h]
  exact ⟨_, _, hreturns, tradeCommitment_engineTrade H _⟩

theorem eligibilityInput_completes (policy : ReferencePolicy) (issued : Issued)
    (limbs : ReceiverHexLimbs) (commitment : Int) :
    ∃ input, Returns (eligibilityInput (referenceTrade credential intent text) policy issued limbs
      commitment) input [] :=
  ⟨_, (assetIdToLimbs_toHex intent.offeredAsset).check
    ((assetIdToLimbs_toHex intent.requestedAsset).bind_pure _)⟩

/-- The generator completes on the fixture of a credential and an intent that has the frozen
commitment and recipient. -/
theorem main_completes (policy : ReferencePolicy) (other : OrchardReceiverBytes)
    (golden : toString ((tradeCommitmentV1 H { intent with
      recipientCommitment := (bindRecipient H credential.subjectSecret
        credential.approvedReceiver).value.recipientCommitment }).value.value.toNat : Int)
      = phase0gGoldenTradeCommitment)
    (htext : toString ((bindRecipient H credential.subjectSecret
      credential.approvedReceiver).value.recipientCommitment.value.toNat : Int) = text) :
    Completes (main H (referenceTrade credential intent text) policy
      credential.approvedReceiver.toHex other.toHex) := by
  obtain ⟨issuedA, inputsA, hissuedA, hbindingA⟩ :=
    issueCredential_reference H credential intent text credential.approvedReceiver
  obtain ⟨issuedB, inputsB, hissuedB, hbindingB⟩ :=
    issueCredential_reference H credential intent text other
  obtain ⟨tradeA, tradedA, htradeA, hcommitment⟩ := tradeFor_reference H credential intent text
    hbindingA
  obtain ⟨tradeB, tradedB, htradeB, -⟩ := tradeFor_reference H credential intent text hbindingB
  have hinput := eligibilityInput_completes credential intent text policy
  obtain ⟨approvedInput, happroved⟩ := hinput issuedA
    (engineLimbs (encodeReceiver credential.approvedReceiver)) tradeA.tradeCommitment
  obtain ⟨substitutedInput, hsubstituted⟩ := hinput issuedA
    (engineLimbs (encodeReceiver other)) tradeB.tradeCommitment
  obtain ⟨mutatedApproved, hmutatedApproved⟩ := hinput issuedB
    (engineLimbs (encodeReceiver credential.approvedReceiver)) tradeA.tradeCommitment
  obtain ⟨mutatedTrade, hmutatedTrade⟩ := hinput issuedA
    (engineLimbs (encodeReceiver other)) tradeA.tradeCommitment
  refine ⟨_, _, (receiverToLimbs_toHex _).check ((receiverToLimbs_toHex _).check
    (hissuedA.bind (hissuedB.bind (htradeA.bind (htradeB.bind
      (returns_guard_iff.mpr ⟨?_, returns_guard_iff.mpr ⟨?_,
        happroved.bind (hsubstituted.bind (hmutatedApproved.bind
          (hmutatedTrade.bind_pure _)))⟩⟩))))))⟩
  · rw [hcommitment, not_not]
    exact golden
  · rw [hbindingA, not_not]
    exact htext

end Reference

/-- The inputs that are put together of two receivers. -/
def FixtureGenerator.Fixture.adversarial (fixture : Fixture) : List EligibilityInput :=
  [fixture.substitutedReceiverInput, fixture.mutatedApprovedReceiverInput,
    fixture.mutatedTradeRecipientInput]

/-- What the evidence shows. The input for the receiver that the authority approved is
satisfiable when the circuit can present the trade at all, and otherwise only by a collision.
The other inputs, where the credential, the limbs and the trade name two receivers, have no
satisfying assignment that does not hash two different lists to one digest; where both texts
name one receiver, they are satisfiable when the trade is presentable, and otherwise only by a
collision. -/
theorem fixture_evidence {lib : Circomlib} (lawful : lib.Lawful) (H : List Fr → Fr)
    {trade : ReferenceTrade} {policy : ReferencePolicy} {receiverA receiverB : String}
    {fixture : Fixture} {inputs : List (List Fr)}
    (returned : Returns (main H trade policy receiverA receiverB) fixture inputs) :
    (Presentable H trade policy →
      ∃ signals, AssignedFrom signals fixture.approvedReceiverInput ∧
        (rwaInvestorEligibilityV1 lib H signals).holds) ∧
    (∀ signals, AssignedFrom signals fixture.approvedReceiverInput →
      (rwaInvestorEligibilityV1 lib H signals).holds → Presentable H trade policy ∨
        Collision H ((rwaInvestorEligibilityV1 lib H signals).hashed ++ inputs)) ∧
    (receiverA.toLower ≠ receiverB.toLower → ∀ input ∈ fixture.adversarial, ∀ signals,
      AssignedFrom signals input → (rwaInvestorEligibilityV1 lib H signals).holds →
        Collision H ((rwaInvestorEligibilityV1 lib H signals).hashed ++ inputs)) ∧
    (receiverA.toLower = receiverB.toLower → ∀ input ∈ fixture.adversarial,
      (Presentable H trade policy → ∃ signals, AssignedFrom signals input ∧
        (rwaInvestorEligibilityV1 lib H signals).holds) ∧
      ∀ signals, AssignedFrom signals input → (rwaInvestorEligibilityV1 lib H signals).holds →
        Presentable H trade policy ∨
          Collision H ((rwaInvestorEligibilityV1 lib H signals).hashed ++ inputs)) := by
  obtain ⟨secret, a, b, htextA, htextB, happroved, hsubstituted, hmutatedApproved,
    hmutatedTrade⟩ := main_returned H returned
  refine ⟨happroved.satisfiable lawful, ?_, ?_, ?_⟩
  · intro signals assigned holds
    exact (happroved.agree_or_collision lawful assigned holds).imp_left And.left
  · intro hne input hinput signals assigned holds
    have hdiffer : a ≠ b := by
      rintro rfl
      exact hne (htextA.symm.trans htextB)
    simp only [Fixture.adversarial, List.mem_cons, List.not_mem_nil, or_false] at hinput
    obtain rfl | rfl | rfl := hinput
    · exact (hsubstituted.agree_or_collision lawful assigned holds).resolve_left
        (fun h => hdiffer h.2.1)
    · exact (hmutatedApproved.agree_or_collision lawful assigned holds).resolve_left
        (fun h => hdiffer h.2.1.symm)
    · exact (hmutatedTrade.agree_or_collision lawful assigned holds).resolve_left
        (fun h => hdiffer h.2.1)
  · intro heq input hinput
    obtain rfl : a = b := receiver_toHex_injective (htextA.trans (heq.trans htextB.symm))
    have hput : PutTogether H trade policy secret a a a input inputs := by
      simp only [Fixture.adversarial, List.mem_cons, List.not_mem_nil, or_false] at hinput
      obtain rfl | rfl | rfl := hinput
      · exact hsubstituted
      · exact hmutatedApproved
      · exact hmutatedTrade
    refine ⟨hput.satisfiable lawful, fun signals assigned holds => ?_⟩
    exact (hput.agree_or_collision lawful assigned holds).imp_left And.left

section Golden

def goldenDigest : Nat :=
  10187400613857124614980227259922066295752635539032972479692659299555113110306

/-- What is hashed last for the commitment of the sample trade. -/
def goldenInput : List Fr :=
  let parts := (tradeCommitmentParts sampleHash sampleIntent).value
  [Domain.tradeV1.asFr, parts.tradePartA.value.toFr, parts.tradePartB.value.toFr,
    parts.tradeMeta.value.toFr]

/-- The sample hash, but that it gives the sample trade the commitment the generator expects. -/
def goldenHash (input : List Fr) : Fr :=
  if input = goldenInput then (goldenDigest : Fr) else sampleHash input

def goldenTrade : ReferenceTrade :=
  referenceTrade (sampleCredential 5) sampleIntent
    (toString (sampleIntent.recipientCommitment.value.toNat : Int))

def goldenPolicy : ReferencePolicy where
  policyRoot := sampleIntent.policyRoot.value.toNat
  investorClass := 5
  jurisdiction := 6
  merkleSiblings := (sampleSiblings samplePolicyLeaves 5).toList.map fun sibling => sibling.val
  merklePathIndices := (sampleIndices 5).toList.map fun index => index.val

/-- The generator on the receivers of credentials 5 and 3. -/
def goldenMain : Js Fixture :=
  main goldenHash goldenTrade goldenPolicy (sampleCredential 5).approvedReceiver.toHex
    (sampleCredential 3).approvedReceiver.toHex

theorem goldenRecipient : (bindRecipient goldenHash (sampleCredential 5).subjectSecret
    (sampleCredential 5).approvedReceiver).value.recipientCommitment
      = sampleIntent.recipientCommitment := by
  decide +kernel

theorem goldenMain_completes : Completes goldenMain := by
  have hdigest : (tradeCommitmentV1 goldenHash sampleIntent).value.value.toNat = goldenDigest := by
    decide +kernel
  refine main_completes goldenHash (sampleCredential 5) sampleIntent _ goldenPolicy _ ?_ ?_
  · rw [goldenRecipient]
    have htrade : toString (goldenDigest : Int) = phase0gGoldenTradeCommitment := by
      decide +kernel
    rw [← htrade, ← hdigest]
  · rw [goldenRecipient]

theorem presentable_golden : Presentable goldenHash goldenTrade goldenPolicy where
  investorClass := by decide +kernel
  jurisdiction := by decide +kernel
  covers := by decide +kernel
  sameClass := by decide +kernel
  sameJurisdiction := by decide +kernel
  sameRoot := rfl
  permitted := ⟨sampleSiblings samplePolicyLeaves 5, sampleIndices 5, by decide +kernel,
    by decide +kernel, binaryIndices_sample 5, by decide +kernel⟩

/-- No two of the lists hashed for the golden fixture and an adversarial input collide. -/
theorem golden_not_collision {fixture : Fixture} {inputs : List (List Fr)}
    (returned : Returns goldenMain fixture inputs) :
    ∀ input ∈ fixture.adversarial, ¬ Collision goldenHash
      ((rwaInvestorEligibilityV1 .bitwise goldenHash input.signals).hashed ++ inputs) := by
  have hnodup : ∀ fixture ∈ goldenMain.run.value.toOption, ∀ input ∈ fixture.adversarial,
      (((rwaInvestorEligibilityV1 .bitwise goldenHash input.signals).hashed
        ++ goldenMain.run.inputs).dedup.map goldenHash).Nodup := by
    decide +kernel
  have hrun : goldenMain.run = ⟨.ok fixture, inputs⟩ := returned
  rw [hrun] at hnodup
  exact fun input hinput => not_collision_of_nodup (hnodup fixture rfl input hinput)

end Golden

/-- The generator run on two receivers: its approved input is satisfiable, and no adversarial
input is. -/
theorem fixture_evidence_golden :
    ∃ fixture inputs, Returns goldenMain fixture inputs ∧
      (∃ signals, AssignedFrom signals fixture.approvedReceiverInput ∧
        (rwaInvestorEligibilityV1 .bitwise goldenHash signals).holds) ∧
      ∀ input ∈ fixture.adversarial, ¬ ∃ signals, AssignedFrom signals input ∧
        (rwaInvestorEligibilityV1 .bitwise goldenHash signals).holds := by
  obtain ⟨fixture, inputs, returned⟩ := goldenMain_completes
  obtain ⟨happroved, -, hadversarial, -⟩ :=
    fixture_evidence Circomlib.bitwise_lawful goldenHash returned
  refine ⟨fixture, inputs, returned, happroved presentable_golden, ?_⟩
  rintro input hinput ⟨signals, assigned, holds⟩
  have hcollision := hadversarial (by decide +kernel) input hinput signals assigned holds
  rw [assigned.hashed_eq] at hcollision
  exact golden_not_collision returned input hinput hcollision

end ZwaProtocol
