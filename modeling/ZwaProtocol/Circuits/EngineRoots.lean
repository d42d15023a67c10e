import ZwaProtocol.Library.MerkleRoots
import ZwaProtocol.Circuits.EngineTree

/-!
The roots of the engine's trees. A tree is built for every number of leaves that is a power
of two and for no other, and its root fixes the levels it has in common with any other tree.
-/
namespace ZwaProtocol
open HashStaging MerkleTree SharedEngine

section Roots
variable (H : List Fr → Fr)

/-- The engine builds a tree of the leaves, and this is the last level. -/
def BuildsRoot (leaves : List Int) (root : Int) (inputs : List (List Fr)) : Prop :=
  ∃ tree, Returns (buildMerkleTree H leaves) tree inputs ∧ tree.getLast? = some [root]

/-- The guard of `buildMerkleTree`. -/
theorem powerOfTwo_iff (count : Nat) :
    ¬ (count = 0 ∨ count &&& (count - 1) ≠ 0) ↔ ∃ height, count = 2 ^ height := by
  rw [not_or, not_not]
  exact Nat.ne_zero_and_sub_one_eq_zero_iff_isPowerOfTwo

/-- The root of the engine's tree over the leaves. -/
def treeRoot (leaves : List Int) : Int :=
  match (buildMerkleTree H leaves).run.value with
  | .ok levels => (levels.getLast?.bind List.head?).getD 0
  | .error _ => 0

theorem buildsRoot_treeRoot {height : Nat} {leaves : List Int} (h : leaves.length = 2 ^ height) :
    BuildsRoot H leaves (treeRoot H leaves) (treeInputs H height (toFrs leaves)) := by
  obtain ⟨tree, root, hreturns, -, -, hlast, -⟩ := buildMerkleTree_returns H height leaves h
  have hroot : treeRoot H leaves = root := by
    have hvalue : (buildMerkleTree H leaves).run.value = .ok tree :=
      congrArg Hashed.value hreturns
    rw [treeRoot, hvalue]
    simp only [hlast, Option.bind_some, List.head?_cons, Option.getD_some]
  exact ⟨tree, hreturns, hroot ▸ hlast⟩

theorem buildMerkleTree_completes_iff (leaves : List Int) :
    Completes (buildMerkleTree H leaves) ↔ ∃ height, leaves.length = 2 ^ height := by
  constructor
  · intro h
    exact (powerOfTwo_iff _).mp (completes_guard_iff.mp h).1
  · rintro ⟨height, hlength⟩
    obtain ⟨tree, hreturns, -⟩ := buildsRoot_treeRoot H hlength
    exact ⟨tree, _, hreturns⟩

variable {H} {leaves : List Int} {root : Int} {inputs : List (List Fr)}

/-- The tree of leaves, its root and what was hashed for it. -/
theorem BuildsRoot.spec (h : BuildsRoot H leaves root inputs) :
    ∃ height, (toFrs leaves).length = 2 ^ height ∧ inputs = treeInputs H height (toFrs leaves) ∧
      ancestors H height (toFrs leaves) = [(root : Fr)] := by
  obtain ⟨tree, hreturns, hlast⟩ := h
  obtain ⟨height, hlength⟩ := (buildMerkleTree_completes_iff H leaves).mp ⟨_, _, hreturns⟩
  obtain ⟨tree', root', hreturns', -, -, hlast', hroot⟩ :=
    buildMerkleTree_returns H height leaves hlength
  rw [hreturns.value_unique hreturns', hlast'] at hlast
  obtain rfl : root' = root := List.head_eq_of_cons_eq (Option.some.inj hlast)
  exact ⟨height, by rw [toFrs, List.length_map, hlength], hreturns.inputs_unique hreturns', hroot⟩

end Roots

/-- Roots bind levels. The engine builds a tree exactly of the lists whose length is a power
of two. Of two trees the lower one has the root of the higher one when, and only when, its
leaves are the level of the higher tree that has as many nodes; or two different lists among
those hashed for the trees have one digest. -/
theorem engine_roots_bind_levels (H : List Fr → Fr) :
    (∀ leaves, Completes (buildMerkleTree H leaves) ↔ ∃ height, leaves.length = 2 ^ height) ∧
    ∀ leaves root inputs leaves' root' inputs', BuildsRoot H leaves root inputs →
      BuildsRoot H leaves' root' inputs' → leaves.length ≤ leaves'.length →
      ((root : Fr) = (root' : Fr) ↔ ∃ extra, leaves'.length = 2 ^ extra * leaves.length ∧
        toFrs leaves = ancestors H extra (toFrs leaves')) ∨
      Collision H (inputs ++ inputs') := by
  refine ⟨buildMerkleTree_completes_iff H, ?_⟩
  intro leaves root inputs leaves' root' inputs' hbuilds hbuilds' hle
  obtain ⟨height, hlength, rfl, hroot⟩ := hbuilds.spec
  obtain ⟨height', hlength', rfl, hroot'⟩ := hbuilds'.spec
  have hcount : (toFrs leaves).length = leaves.length := List.length_map _
  have hcount' : (toFrs leaves').length = leaves'.length := List.length_map _
  rw [← hcount, ← hcount', hlength, hlength'] at hle ⊢
  obtain ⟨extra, rfl⟩ := Nat.exists_eq_add_of_le' ((Nat.pow_le_pow_iff_right (by decide)).mp hle)
  rw [or_iff_not_imp_right]
  intro hcollision
  have hinjective := injOn_of_not_collision hcollision
  constructor
  · intro heq
    refine ⟨extra, Nat.pow_add 2 extra height, ?_⟩
    refine level_eq_of_root hinjective hlength hlength'
      (fun pair hpair => List.mem_append_left _ hpair)
      (fun pair hpair => List.mem_append_right _ hpair) ?_
    rw [hroot, hroot', heq]
  · rintro ⟨other, hpow, hlevel⟩
    rw [← Nat.pow_add, Nat.pow_right_inj (by decide)] at hpow
    obtain rfl : extra = other := Nat.add_right_cancel hpow
    rw [hlevel, ← ancestors_add, hroot'] at hroot
    exact (List.head_eq_of_cons_eq hroot).symm

/-- The digests of two pairs of leaves, as the engine holds them. -/
def sampleLevel : List Int :=
  [((sampleHash (toFrs [1, 2])).val : Int), ((sampleHash (toFrs [3, 4])).val : Int)]

/-- A tree over a level of a higher tree has its root, a tree over other leaves does not. -/
theorem engine_roots_bind_levels_sample :
    (treeRoot sampleHash sampleLevel : Fr) = (treeRoot sampleHash [1, 2, 3, 4] : Fr) ∧
      (treeRoot sampleHash [5, 6] : Fr) ≠ (treeRoot sampleHash [1, 2, 3, 4] : Fr) := by
  have hroot := @buildsRoot_treeRoot sampleHash 2 [1, 2, 3, 4] rfl
  have hlower := @buildsRoot_treeRoot sampleHash 1 sampleLevel rfl
  have hother := @buildsRoot_treeRoot sampleHash 1 [5, 6] rfl
  have hlevel := (engine_roots_bind_levels sampleHash).2 _ _ _ _ _ _ hlower hroot (by decide)
  have hleaves := (engine_roots_bind_levels sampleHash).2 _ _ _ _ _ _ hother hroot (by decide)
  constructor
  · refine (hlevel.resolve_right (not_collision_of_nodup (by decide +kernel))).mpr ?_
    exact ⟨1, rfl, by decide +kernel⟩
  · intro heq
    obtain ⟨extra, hlength, hread⟩ :=
      (hleaves.resolve_right (not_collision_of_nodup (by decide +kernel))).mp heq
    obtain rfl : extra = 1 := Nat.pow_right_injective (Nat.le_refl 2)
      (Nat.eq_of_mul_eq_mul_right (by decide) hlength.symm)
    exact absurd hread (by decide +kernel)

end ZwaProtocol
