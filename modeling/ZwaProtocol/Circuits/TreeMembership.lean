import Mathlib.Algebra.BigOperators.Fin
import Mathlib.Tactic.Ring
import ZwaProtocol.Circuits.EngineTree
import ZwaProtocol.Circuits.ZkOrigin

/-!
The trees of the JavaScript engine and the circuit's Merkle verifier. The verifier
accepts the proofs the engine extracts, and whatever it accepts under the root of a tree
is one of its leaves, at the index the path spells.
-/
namespace ZwaProtocol
open HashStaging MerkleTree ConstraintSystem ConstraintSystem.Circuit SharedEngine

namespace SharedEngine
variable (H : List Fr → Fr)

theorem stepOf_bit (sibling : Fr) (k : Nat) :
    stepOf (sibling, ((k % 2 : Nat) : Fr)) = ⟨k % 2 = 1, sibling⟩ := by
  obtain hbit | hbit := Nat.mod_two_eq_zero_or_one k <;> simp [stepOf, hbit]

/-- The cursor reads the sibling of an index on every level and its bits. -/
theorem proofSteps_eq {height : Nat} {tree : List (List Int)} {leaves : List Fr} {k : Nat}
    (htree : tree.map toFrs = levels H height leaves) (length : leaves.length = 2 ^ height)
    (h : k < 2 ^ height) :
    ∃ steps : List (Int × Nat),
      proofSteps tree k = steps.map (Prod.map some id) ∧
      (∀ step ∈ steps, step.2 = 0 ∨ step.2 = 1) ∧
      steps.map (fun step => stepOf ((step.1 : Fr), (step.2 : Fr)))
        = opening H height leaves k := by
  induction height generalizing tree leaves k with
  | zero =>
      obtain ⟨level, rfl, -⟩ := List.map_eq_singleton_iff.mp htree
      exact ⟨[], rfl, by simp, rfl⟩
  | succ height ih =>
      obtain ⟨level, above, rfl, hlevel, habove⟩ := List.map_eq_cons_iff.mp htree
      obtain ⟨next, rest, rfl⟩ : ∃ next rest, above = next :: rest := by
        cases above with
        | nil => cases height <;> simp [levels] at habove
        | cons next rest => exact ⟨next, rest, rfl⟩
      have hnode := List.getElem?_eq_getElem (show k < leaves.length by rwa [length])
      obtain ⟨sibling, hsibling, -⟩ := exists_sibling H length hnode
      have hread := hsibling
      rw [← hlevel, toFrs, List.getElem?_map, Option.map_eq_some_iff] at hread
      obtain ⟨value, hvalue, rfl⟩ := hread
      have hhalf : k / 2 < 2 ^ height := by
        rw [Nat.pow_succ] at h
        omega
      obtain ⟨steps, hsteps, hbits, hopening⟩ :=
        ih habove (length_parents_of_pow H length) hhalf
      refine ⟨(value, k % 2) :: steps, ?_, ?_, ?_⟩
      · rw [proofSteps, hvalue, Nat.and_one_is_mod, Nat.shiftRight_one, hsteps]
        rfl
      · intro step hmem
        obtain rfl | hmem := List.mem_cons.mp hmem
        · exact Nat.mod_two_eq_zero_or_one k
        · exact hbits step hmem
      · simp only [List.map_cons, hopening, opening, hsibling, stepOf_bit]

/-- The proof of a leaf spells its opening. -/
theorem merkleProof_returns {height : Nat} {tree : List (List Int)} {leaves : List Int}
    {k : Nat} (htree : tree.map toFrs = levels H height (toFrs leaves))
    (hfirst : tree.head? = some leaves) (length : leaves.length = 2 ^ height)
    (h : k < leaves.length) :
    ∃ (siblings : List Int) (indices : List Nat)
      (pathElements pathIndices : List.Vector Fr height),
      Returns (merkleProof tree k) ⟨siblings.map some, indices⟩ [] ∧
      pathElements.toList = toFrs siblings ∧ pathIndices.toList = indices.map Nat.cast ∧
      BinaryIndices pathIndices ∧
      pathOf pathElements pathIndices = opening H height (toFrs leaves) k := by
  have hlength : (toFrs leaves).length = 2 ^ height := by rw [toFrs, List.length_map, length]
  obtain ⟨steps, hsteps, hbits, hopening⟩ := proofSteps_eq H htree hlength (by rwa [← length])
  have hcount : steps.length = height := by
    have hcount := congrArg List.length hopening
    rwa [List.length_map, length_opening H hlength (by rwa [← length])] at hcount
  refine ⟨steps.map Prod.fst, steps.map Prod.snd,
    ⟨toFrs (steps.map Prod.fst), by simp [toFrs, hcount]⟩,
    ⟨(steps.map Prod.snd).map Nat.cast, by simp [hcount]⟩, ?_, rfl, rfl, ?_, ?_⟩
  · obtain ⟨level, rest, rfl⟩ : ∃ level rest, tree = level :: rest := by
      cases tree with
      | nil => simp at hfirst
      | cons level rest => exact ⟨level, rest, rfl⟩
    obtain rfl : level = leaves := by simpa using hfirst
    have hindex : ¬ ((k : Int) < 0 ∨ (k : Int) ≥ level.length) := by omega
    have hread : steps.map (Prod.fst ∘ Prod.map some id) = steps.map (some ∘ Prod.fst) := rfl
    have hbit : steps.map (Prod.snd ∘ Prod.map (some : Int → Option Int) id)
        = steps.map Prod.snd := rfl
    rw [merkleProof, if_neg hindex, Int.toNat_natCast, hsteps]
    simp only [List.map_map, hread, hbit]
    exact Returns.pure _
  · intro index hmem
    obtain ⟨bit, hbit, rfl⟩ := List.mem_map.mp hmem
    obtain ⟨step, hstep, rfl⟩ := List.mem_map.mp hbit
    obtain hzero | hone := hbits step hstep
    · simp [hzero]
    · simp [hone]
  · rw [← hopening]
    change ((toFrs (steps.map Prod.fst)).zip ((steps.map Prod.snd).map Nat.cast)).map stepOf = _
    rw [toFrs, List.map_map, List.map_map, List.zip_map', List.map_map]
    rfl

end SharedEngine

/-- The index a path spells, from the bits of the verifier. -/
theorem position_pathOf {depth : Nat} (pathElements : List.Vector Fr depth)
    {pathIndices : List.Vector Fr depth} (binary : BinaryIndices pathIndices) :
    position (pathOf pathElements pathIndices)
      = ∑ j : Fin depth, (pathIndices.get j).val * 2 ^ (j : Nat) := by
  induction pathElements, pathIndices using List.Vector.inductionOn₂ with
  | nil => rfl
  | @cons depth sibling index pathElements pathIndices ih =>
      have hindex : index = 0 ∨ index = 1 := binary index (by simp)
      have hbinary : BinaryIndices pathIndices := fun other hmem => binary other (by simp [hmem])
      have hbit : (stepOf (sibling, index)).right.toNat = index.val := by
        obtain rfl | rfl := hindex
        · simp [stepOf]
        · simp [stepOf, ZMod.val_one]
      have hdouble (j : Fin depth) : (pathIndices.get j).val * 2 ^ ((j : Nat) + 1)
          = 2 * ((pathIndices.get j).val * 2 ^ (j : Nat)) := by
        rw [pow_succ]
        ring
      change (stepOf (sibling, index)).right.toNat
        + 2 * position (pathOf pathElements pathIndices) = _
      rw [hbit, ih hbinary, Fin.sum_univ_succ, Finset.mul_sum]
      simp [hdouble]

/-- A path that climbs to the root of a tree spells the index of its leaf. -/
theorem leaf_or_collision (H : List Fr → Fr) {depth : Nat} {leaves : List Int} {x : Fr}
    (pathElements : List.Vector Fr depth) {pathIndices : List.Vector Fr depth}
    (binary : BinaryIndices pathIndices) (length : leaves.length = 2 ^ depth)
    (root : ancestors H depth (toFrs leaves)
      = [climb H x (pathOf pathElements pathIndices)]) :
    (∃ leaf : Int,
      leaves[∑ j : Fin depth, (pathIndices.get j).val * 2 ^ (j : Nat)]? = some leaf ∧
        x = (leaf : Fr)) ∨
    Collision H (climbInputs H x (pathOf pathElements pathIndices)
      ++ treeInputs H depth (toFrs leaves)) := by
  by_cases hcollision : Collision H (climbInputs H x (pathOf pathElements pathIndices)
      ++ treeInputs H depth (toFrs leaves))
  · exact .inr hcollision
  · have hlength : (toFrs leaves).length = 2 ^ depth := by rw [toFrs, List.length_map, length]
    have hleaf := leaf_of_climb (injOn_of_not_collision hcollision)
      (pathOf pathElements pathIndices) (by rw [length_pathOf, hlength])
      (fun pair hpair => List.mem_append_left _ hpair)
      (fun pair hpair => List.mem_append_right _ (by rwa [length_pathOf] at hpair))
      (by rw [length_pathOf, root])
    rw [position_pathOf pathElements binary, toFrs, List.getElem?_map,
      Option.map_eq_some_iff] at hleaf
    obtain ⟨leaf, hread, hcast⟩ := hleaf
    exact .inl ⟨leaf, hread, hcast.symm⟩

/-- Trees and verifier agree at every depth. Over the root of the tree built from
`2 ^ depth` leaves, the verifier accepts every leaf with the proof extracted for it; what
it accepts is the leaf at the index its bits spell, or two lists hashed by the tree and
the verifier collide; and its output is a bit that the hint cannot change. -/
theorem merkle_verifier_agrees (H : List Fr → Fr) (depth : Nat) (leaves : List Int)
    (length : leaves.length = 2 ^ depth) :
    ∃ (tree : List (List Int)) (root : Int),
      (buildMerkleTree H leaves).run.value = .ok tree ∧ tree.getLast? = some [root] ∧
      (∀ (k : Nat) (leaf : Int), leaves[k]? = some leaf →
        ∃ (siblings : List Int) (indices : List Nat)
          (pathElements pathIndices : List.Vector Fr depth),
          (merkleProof tree k).run.value = .ok ⟨siblings.map some, indices⟩ ∧
          pathElements.toList = siblings.map Int.cast ∧
          pathIndices.toList = indices.map Nat.cast ∧
          ∀ inv,
            (merkleProofVerifier H (leaf : Fr) root pathElements pathIndices inv).holds ∧
            (merkleProofVerifier H (leaf : Fr) root pathElements pathIndices inv).out = 1) ∧
      (∀ (x : Fr) (pathElements pathIndices : List.Vector Fr depth) (inv : Fr),
        (merkleProofVerifier H x root pathElements pathIndices inv).holds →
        (merkleProofVerifier H x root pathElements pathIndices inv).out = 1 →
        (∀ index ∈ pathIndices.toList, index = 0 ∨ index = 1) ∧
        ((∃ leaf : Int,
            leaves[∑ j : Fin depth, (pathIndices.get j).val * 2 ^ (j : Nat)]? = some leaf ∧
            x = (leaf : Fr)) ∨
          Collision H ((merkleProofVerifier H x root pathElements pathIndices inv).hashed
            ++ (buildMerkleTree H leaves).run.inputs))) ∧
      ∀ (x top : Fr) (pathElements pathIndices : List.Vector Fr depth) (inv inv' : Fr),
        (merkleProofVerifier H x top pathElements pathIndices inv).holds →
        (merkleProofVerifier H x top pathElements pathIndices inv').holds →
        (merkleProofVerifier H x top pathElements pathIndices inv).out =
          (merkleProofVerifier H x top pathElements pathIndices inv').out ∧
        ((merkleProofVerifier H x top pathElements pathIndices inv).out = 0 ∨
          (merkleProofVerifier H x top pathElements pathIndices inv).out = 1) := by
  obtain ⟨tree, root, hreturns, hlevels, hfirst, hlast, hroot⟩ :=
    buildMerkleTree_returns H depth leaves length
  have hinputs := congrArg Hashed.inputs hreturns
  have hlength : (toFrs leaves).length = 2 ^ depth := by rw [toFrs, List.length_map, length]
  refine ⟨tree, root, congrArg Hashed.value hreturns, hlast, ?_, ?_, ?_⟩
  · intro k leaf hleaf
    have hk := (List.getElem?_eq_some_iff.mp hleaf).1
    obtain ⟨siblings, indices, pathElements, pathIndices, hproof, hsiblings, hindices, hbinary,
      hpath⟩ := merkleProof_returns H hlevels hfirst length hk
    have hnode : (toFrs leaves)[k]? = some (leaf : Fr) := by
      rw [toFrs, List.getElem?_map, hleaf]
      rfl
    have hclimb := (climb_opening H hlength hnode).symm.trans hroot
    rw [← hpath] at hclimb
    refine ⟨siblings, indices, pathElements, pathIndices, congrArg Hashed.value hproof,
      hsiblings, hindices, fun inv => ?_⟩
    exact (merkleProofVerifier_accepts_iff H _ _ _ _ inv).mpr
      ⟨hbinary, List.head_eq_of_cons_eq hclimb⟩
  · intro x pathElements pathIndices inv hholds hout
    obtain ⟨hbinary, hclimb⟩ := (merkleProofVerifier_accepts_iff H _ _ _ _ inv).mp ⟨hholds, hout⟩
    refine ⟨hbinary, ?_⟩
    rw [merkleProofVerifier_hashed H x root pathElements inv hbinary, hinputs]
    exact leaf_or_collision H pathElements hbinary length (by rw [hroot, hclimb])
  · intro x top pathElements pathIndices inv inv' hholds hholds'
    rw [merkleProofVerifier_bit H _ _ _ _ inv hholds,
      merkleProofVerifier_bit H _ _ _ _ inv' hholds']
    refine ⟨rfl, ?_⟩
    split
    · exact .inr rfl
    · exact .inl rfl

theorem merkle_verifier_agrees_pair :
    ∃ (tree : List (List Int)) (root : Int) (pathElements pathIndices : List.Vector Fr 1),
      tree.getLast? = some [root] ∧
      (merkleProofVerifier (fun _ => 0) ((7 : Int) : Fr) root pathElements pathIndices 3).out
        = 1 := by
  obtain ⟨tree, root, -, hlast, hcomplete, -⟩ := merkle_verifier_agrees (fun _ => 0) 1 [5, 7] rfl
  obtain ⟨_, _, pathElements, pathIndices, -, -, -, haccepts⟩ := hcomplete 1 7 rfl
  exact ⟨tree, root, pathElements, pathIndices, hlast, (haccepts 3).2⟩

end ZwaProtocol
