import Mathlib.Data.Vector.Mem
import ZwaProtocol.Circuits.EngineTree
import ZwaProtocol.Circuits.EligibilityStatement
import ZwaProtocol.Circuits.Splicing

/-!
A credential authorizes exactly its approved receiver. Whatever siblings a prover
chooses, the leaf of an assignment is a leaf of the tree, the leaf fixes the
credential, and the credential's receiver is the one the trade settles to.
-/
namespace ZwaProtocol
open MerkleTree HashStaging FieldElement SharedEngine

section Tree
variable (H : List Fr → Fr) (credentials : List ActiveCredential)

/-- The leaves as the engine takes them. -/
def credentialLeaves : List Int :=
  credentials.map fun credential => ((credential.leaf H).value.value.toNat : Int)

/-- Every list hashed for the leaves. -/
def credentialLeafInputs : List (List Fr) :=
  credentials.flatMap fun credential => (credential.leaf H).inputs

theorem toFrs_credentialLeaves : toFrs (credentialLeaves H credentials) =
    credentials.map fun credential => credential.fields.staging.eval H := by
  rw [toFrs, credentialLeaves, List.map_map]
  refine List.map_congr_left fun credential _ => ?_
  rw [← toFr_leaf]
  exact Int.cast_natCast _

end Tree

section Binding
variable {lib : Circomlib} {H : List Fr → Fr} {credentialDepth policyDepth : Nat}
  {signals : EligibilitySignals credentialDepth policyDepth} {recorded : Set (List Fr)}
  {credentials : List ActiveCredential} {root : Fr}

/-- The credential of an assignment is one whose leaf is in the tree. -/
theorem EligibilityHolds.credential_mem (injective : Set.InjOn H recorded)
    (holds : EligibilityHolds lib H signals)
    (hcircuit : ∀ xs ∈ (rwaInvestorEligibilityV1 lib H signals).hashed, xs ∈ recorded)
    (hleaves : ∀ xs ∈ credentialLeafInputs H credentials, xs ∈ recorded)
    (htree : ∀ xs ∈ treeInputs H credentialDepth (toFrs (credentialLeaves H credentials)),
      xs ∈ recorded)
    (length : credentials.length = 2 ^ credentialDepth)
    (active : ancestors H credentialDepth (toFrs (credentialLeaves H credentials)) =
      [signals.activeCredentialRoot]) :
    ∃ credential ∈ credentials, signals.credential = credential.fields := by
  have hpath : signals.credentialPath.length = credentialDepth := length_pathOf _ _
  have hlength : (toFrs (credentialLeaves H credentials)).length =
      2 ^ signals.credentialPath.length := by
    rw [toFrs, credentialLeaves, List.length_map, List.length_map, length, hpath]
  have hleaf := leaf_of_climb injective signals.credentialPath hlength
    (fun pair hpair => hcircuit pair
      (eligibility_path_inputs_subset lib H signals holds.credentialBinary hpair))
    (by rwa [hpath]) (by rw [hpath, active, holds.credentialMember])
  rw [toFrs_credentialLeaves, List.getElem?_map, Option.map_eq_some_iff] at hleaf
  obtain ⟨credential, hcredential, heval⟩ := hleaf
  have hmem := List.mem_of_getElem? hcredential
  refine ⟨credential, hmem, ?_⟩
  refine CredentialFields.eq_of_eval_eq injective ?_ ?_ heval.symm
  · exact fun xs hxs => hcircuit xs (eligibility_credential_inputs_subset lib H signals hxs)
  · exact fun xs hxs => hleaves xs
      (List.mem_flatMap.mpr ⟨credential, hmem, leaf_inputs_subset H credential hxs⟩)

theorem recipient_of_credential {credential : ActiveCredential} {intent : TradeIntent}
    (hcredential : signals.credential = credential.fields)
    (htrade : signals.trade H = intent.fields) :
    intent.recipientCommitment =
      (bindRecipient H credential.subjectSecret
        credential.approvedReceiver).value.recipientCommitment := by
  have hrecipient : intent.fields.recipientCommitment =
      signals.credential.recipientStaging.eval H := by
    rw [← htrade]
    rfl
  refine FieldNewtype.eq_of_toFr (hrecipient.trans ?_)
  rw [hcredential, toFr_bindRecipient]

end Binding

/-- The private values of an assignment are those of the credential, and its
receiver limbs decode to the receiver the authority approved. -/
structure Presents {credentialDepth policyDepth : Nat}
    (signals : EligibilitySignals credentialDepth policyDepth) (credential : ActiveCredential) :
    Prop where
  subjectSecret : signals.subjectSecret = credential.subjectSecret.value.toFr
  authorityCommitment : signals.credentialAuthorityCommitment =
    credential.authorityCommitment.value.toFr
  investorClass : signals.investorClass = (fromU64 credential.investorClass.get).toFr
  jurisdiction : signals.jurisdiction = (fromU64 credential.jurisdiction.get).toFr
  credentialExpiry : signals.credentialExpiry = (fromU64 credential.credentialExpiry.get).toFr
  nonce : signals.credentialNonce = (fromU64 credential.nonce.get).toFr
  receiver : ∃ limbs : ReceiverLimbs, signals.receiverLimb0 = (fromU128 limbs.limb0).toFr ∧
    signals.receiverLimb1 = (fromU128 limbs.limb1).toFr ∧
    signals.receiverLimb2 = (fromU128 limbs.limb2).toFr ∧
    decodeReceiver limbs = credential.approvedReceiver

theorem presents_of_fields {credentialDepth policyDepth : Nat}
    {signals : EligibilitySignals credentialDepth policyDepth} {credential : ActiveCredential}
    (h : signals.credential = credential.fields) : Presents signals credential := by
  simp only [EligibilitySignals.credential, ActiveCredential.fields,
    CredentialFields.mk.injEq] at h
  obtain ⟨authority, subject, investorClass, jurisdiction, expiry, nonce, limb0, limb1, limb2⟩ := h
  exact {
    subjectSecret := subject
    authorityCommitment := authority
    investorClass, jurisdiction
    credentialExpiry := expiry
    nonce
    receiver := ⟨encodeReceiver credential.approvedReceiver, limb0, limb1, limb2,
      decodeReceiver_encodeReceiver _⟩ }

/-- The tree that the engine builds of eight credentials. -/
theorem credentialTree_returns (H : List Fr → Fr) (credentials : List.Vector ActiveCredential 8) :
    ∃ levels root,
      Returns (buildMerkleTree H (credentialLeaves H credentials.toList)) levels
        (treeInputs H 3 (toFrs (credentialLeaves H credentials.toList))) ∧
      levels.getLast? = some [root] ∧
      ancestors H 3 (toFrs (credentialLeaves H credentials.toList)) = [(root : Fr)] := by
  have hlength : (credentialLeaves H credentials.toList).length = 2 ^ 3 := by
    rw [credentialLeaves, List.length_map, credentials.toList_length]
    rfl
  obtain ⟨levels, root, hreturns, -, -, hlast, hroot⟩ :=
    buildMerkleTree_returns H 3 (credentialLeaves H credentials.toList) hlength
  exact ⟨levels, root, hreturns, hlast, hroot⟩

/-- A credential authorizes exactly its approved receiver. Over the tree the engine
builds of eight credentials and the commitment of any intent, every assignment
presents one of the credentials, and the intent settles to that credential's
subject and receiver; or two different lists among those hashed by the circuit, the
tree, the leaves and the intent's commitment have one digest. -/
theorem credential_authorizes_its_receiver (lib : Circomlib) (H : List Fr → Fr)
    (credentials : List.Vector ActiveCredential 8) (intent : TradeIntent) :
    let tree := (buildMerkleTree H (credentialLeaves H credentials.toList)).run
    ∃ levels root, tree.value = .ok levels ∧ levels.getLast? = some [root] ∧
      ∀ signals : EligibilitySignals 3 3, signals.activeCredentialRoot = root →
        signals.tradeCommitment = (tradeCommitmentV1 H intent).value.value.toFr →
        (rwaInvestorEligibilityV1 lib H signals).holds →
        Collision H ((rwaInvestorEligibilityV1 lib H signals).hashed ++ tree.inputs
          ++ credentialLeafInputs H credentials.toList ++ (tradeCommitmentV1 H intent).inputs) ∨
        ∃ k, Presents signals (credentials.get k) ∧
          intent.recipientCommitment =
            (bindRecipient H (credentials.get k).subjectSecret
              (credentials.get k).approvedReceiver).value.recipientCommitment := by
  intro tree
  obtain ⟨levels, root, hreturns, hlast, hroot⟩ := credentialTree_returns H credentials
  have hvalue : tree.value = .ok levels := congrArg Hashed.value hreturns
  have hinputs : tree.inputs = treeInputs H 3 (toFrs (credentialLeaves H credentials.toList)) :=
    congrArg Hashed.inputs hreturns
  refine ⟨levels, root, hvalue, hlast, fun signals hactive hcommitment holds => ?_⟩
  by_cases hcollision : Collision H ((rwaInvestorEligibilityV1 lib H signals).hashed
      ++ tree.inputs ++ credentialLeafInputs H credentials.toList
      ++ (tradeCommitmentV1 H intent).inputs)
  · exact .inl hcollision
  · have hinjective := injOn_of_not_collision hcollision
    have hholds := (rwaInvestorEligibilityV1_holds lib H signals).mp holds
    have hcircuit : ∀ xs ∈ (rwaInvestorEligibilityV1 lib H signals).hashed,
        xs ∈ (rwaInvestorEligibilityV1 lib H signals).hashed ++ tree.inputs
          ++ credentialLeafInputs H credentials.toList ++ (tradeCommitmentV1 H intent).inputs :=
      fun xs hxs => by simp only [List.mem_append, hxs, true_or]
    obtain ⟨credential, hmem, hcredential⟩ := hholds.credential_mem hinjective hcircuit
      (fun xs hxs => List.mem_append_left _ (List.mem_append_right _ hxs))
      (fun xs hxs => by
        rw [← hinputs] at hxs
        exact List.mem_append_left _ (List.mem_append_left _ (List.mem_append_right _ hxs)))
      credentials.toList_length (by rw [hroot, hactive])
    have htrade := eligibility_trade_eq hinjective hcircuit
      (fun xs hxs => List.mem_append_right _ (by rwa [inputs_tradeCommitmentV1])) hholds
      hcommitment
    obtain ⟨k, rfl⟩ := (List.Vector.mem_iff_get _ _).mp hmem
    exact .inr ⟨k, presents_of_fields hcredential, recipient_of_credential hcredential htrade⟩

/-- Under the sample hash no two lists are hashed to one digest, and the holder and the
receiver presented are those of a credential. -/
theorem credential_authorizes_its_receiver_sample :
    ∃ k, Presents sampleEligibility (sampleCredentials.get k) ∧
      sampleIntent.recipientCommitment =
        (bindRecipient sampleHash (sampleCredentials.get k).subjectSecret
          (sampleCredentials.get k).approvedReceiver).value.recipientCommitment := by
  obtain ⟨levels, root, hvalue, hlast, hassignments⟩ := credential_authorizes_its_receiver
    .bitwise sampleHash sampleCredentials sampleIntent
  obtain ⟨levels', root', hreturns, hlast', hroot⟩ :=
    credentialTree_returns sampleHash sampleCredentials
  obtain rfl : levels' = levels :=
    Except.ok.inj ((congrArg Hashed.value hreturns).symm.trans hvalue)
  obtain rfl : root' = root := List.head_eq_of_cons_eq (Option.some.inj (hlast'.symm.trans hlast))
  have hactive : sampleEligibility.activeCredentialRoot = root' := by
    rw [toFrs_credentialLeaves] at hroot
    exact congrArg (List.headD · 0) hroot
  have hinputs :
      (buildMerkleTree sampleHash (credentialLeaves sampleHash sampleCredentials.toList)).run.inputs
        = treeInputs sampleHash 3
          (toFrs (credentialLeaves sampleHash sampleCredentials.toList)) :=
    congrArg Hashed.inputs hreturns
  refine (hassignments sampleEligibility hactive rfl sampleEligibility_holds).resolve_left ?_
  rw [hinputs]
  exact not_collision_of_nodup (by decide +kernel)

end ZwaProtocol
