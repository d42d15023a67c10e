import ZwaProtocol.Circuits.SharedEngine

/-!
The trees the JavaScript engine builds are Merkle trees: on a power of two of
leaves it returns, and the last level is the root.
-/
namespace ZwaProtocol
open HashStaging MerkleTree

namespace SharedEngine
variable (H : List Fr → Fr)

def toFrs (values : List Int) : List Fr := values.map Int.cast

@[simp] theorem intCast_val (value : Fr) : ((value.val : Int) : Fr) = value := by
  rw [Int.cast_natCast, ZMod.natCast_zmod_val]

theorem hasher_returns (values : List Int) :
    Returns (ExceptT.lift (hasher H values) : Js Int) ((H (toFrs values)).val : Int)
      [toFrs values] := by
  have h := Returns.lift (ε := String) (hasher H values)
  rwa [hasher, Hashed.value_map, Hashed.inputs_map, Hashed.value_query, Hashed.inputs_query] at h

theorem hashPairs_returns : ∀ prior : List Int, prior.length % 2 = 0 →
    ∃ next, Returns (hashPairs H prior) next (pairs (toFrs prior)) ∧
      toFrs next.val = parents H (toFrs prior)
  | [], _ => ⟨⟨[], rfl⟩, Returns.pure _, rfl⟩
  | [_], h => absurd h (by simp)
  | left :: right :: rest, h => by
      have hrest : rest.length % 2 = 0 := by
        simp only [List.length_cons] at h
        omega
      obtain ⟨next, hreturns, hparents⟩ := hashPairs_returns rest hrest
      have hinputs : pairs (toFrs (left :: right :: rest)) =
          [toFrs [left, right]] ++ pairs (toFrs rest) := rfl
      refine ⟨⟨((H (toFrs [left, right])).val : Int) :: next.val, ?_⟩, ?_, ?_⟩
      · simp only [List.length_cons, next.property]
        omega
      · rw [hashPairs, hinputs]
        exact (hasher_returns H _).bind (hreturns.bind_pure _)
      · have hhead : toFrs (((H (toFrs [left, right])).val : Int) :: next.val) =
            H (toFrs [left, right]) :: toFrs next.val := by
          rw [toFrs, List.map_cons, intCast_val]
          rfl
        rw [hhead, hparents]
        rfl

theorem pushLevels_returns (height : Nat) (prior : List Int) (h : prior.length = 2 ^ height) :
    ∃ levels root, Returns (pushLevels H prior) levels (treeInputs H height (toFrs prior)) ∧
      levels.map toFrs = MerkleTree.levels H height (toFrs prior) ∧
      levels.head? = some prior ∧ levels.getLast? = some [root] ∧
      ancestors H height (toFrs prior) = [(root : Fr)] := by
  induction height generalizing prior with
  | zero =>
      obtain ⟨root, rfl⟩ := List.length_eq_one_iff.mp h
      refine ⟨[[root]], root, ?_, rfl, rfl, rfl, rfl⟩
      rw [pushLevels, dif_neg (by simp)]
      exact Returns.pure _
  | succ height ih =>
      have hlong : prior.length > 1 := by
        rw [h]
        exact Nat.one_lt_two_pow (Nat.succ_ne_zero height)
      have heven : prior.length % 2 = 0 := by rw [h, Nat.pow_succ, Nat.mul_mod_left]
      obtain ⟨next, hreturns, hparents⟩ := hashPairs_returns H prior heven
      have hnext : next.val.length = 2 ^ height := by
        rw [next.property, h, Nat.pow_succ, Nat.mul_div_cancel _ (by decide)]
      obtain ⟨levels, root, hpushed, hlevels, -, hlast, hroot⟩ := ih next.val hnext
      rw [hparents] at hpushed hlevels hroot
      refine ⟨prior :: levels, root, ?_, ?_, rfl, ?_, hroot⟩
      · rw [pushLevels, dif_pos hlong]
        exact hreturns.bind (hpushed.bind_pure _)
      · rw [List.map_cons, hlevels]
        rfl
      · rw [List.getLast?_cons, hlast]
        rfl

/-- On `2 ^ height` leaves the engine returns a Merkle tree. -/
theorem buildMerkleTree_returns (height : Nat) (leaves : List Int)
    (h : leaves.length = 2 ^ height) :
    ∃ levels root, Returns (buildMerkleTree H leaves) levels (treeInputs H height (toFrs leaves)) ∧
      levels.map toFrs = MerkleTree.levels H height (toFrs leaves) ∧
      levels.head? = some leaves ∧ levels.getLast? = some [root] ∧
      ancestors H height (toFrs leaves) = [(root : Fr)] := by
  have hguard : ¬ (leaves.length = 0 ∨ leaves.length &&& (leaves.length - 1) ≠ 0) := by
    rw [h, Nat.and_two_pow_sub_one_eq_mod, Nat.mod_self]
    simp
  have hbuild : buildMerkleTree H leaves = pushLevels H leaves := by
    rw [buildMerkleTree, if_neg hguard]
  rw [hbuild]
  exact pushLevels_returns H height leaves h

end SharedEngine

end ZwaProtocol
