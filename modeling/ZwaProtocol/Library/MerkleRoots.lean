import Mathlib.Data.List.Basic
import ZwaProtocol.Library.MerkleTree

/-!
What a root says about a tree whose height is not known. Two trees with one root agree on
the levels they share, and a path that reaches a root climbs from the level as far below it
as the path is long. Where no leaf is the digest of a pair the height is part of the root.
-/

namespace MerkleTree

variable {F : Type*} (H : List F → F)

section Levels

theorem ancestors_add (extra height : Nat) (level : List F) :
    ancestors H (extra + height) level = ancestors H height (ancestors H extra level) := by
  induction extra generalizing level with
  | zero => rw [Nat.zero_add, ancestors]
  | succ extra ih => rw [Nat.succ_add, ancestors, ih, ancestors]

theorem treeInputs_add (extra height : Nat) (level : List F) :
    treeInputs H (extra + height) level
      = treeInputs H extra level ++ treeInputs H height (ancestors H extra level) := by
  induction extra generalizing level with
  | zero => rw [Nat.zero_add, treeInputs, List.nil_append, ancestors]
  | succ extra ih => rw [Nat.succ_add, treeInputs, ih, treeInputs, ancestors, List.append_assoc]

theorem length_ancestors {extra height : Nat} {level : List F}
    (h : level.length = 2 ^ (extra + height)) : (ancestors H extra level).length = 2 ^ height := by
  induction extra generalizing level with
  | zero => rwa [ancestors, ← Nat.zero_add height]
  | succ extra ih =>
      rw [Nat.succ_add] at h
      exact ih (length_parents_of_pow H h)

theorem length_of_mem_pairs {level pair : List F} (h : pair ∈ pairs level) : pair.length = 2 := by
  obtain ⟨k, hpair⟩ := List.getElem?_of_mem h
  obtain ⟨left, right, rfl, -⟩ := pairs_getElem? level k pair hpair
  rfl

/-- Every node above the leaves is the digest of a pair. -/
theorem exists_pair_of_mem_ancestors {extra : Nat} {level : List F} {node : F}
    (h : node ∈ ancestors H (extra + 1) level) :
    ∃ pair ∈ treeInputs H (extra + 1) level, pair.length = 2 ∧ H pair = node := by
  induction extra generalizing level with
  | zero =>
      obtain ⟨pair, hpair, rfl⟩ := List.mem_map.mp h
      exact ⟨pair, List.mem_append_left _ hpair, length_of_mem_pairs hpair, rfl⟩
  | succ extra ih =>
      obtain ⟨pair, hpair, hlength⟩ := ih h
      exact ⟨pair, List.mem_append_right _ hpair, hlength⟩

end Levels

section Paths

theorem climb_append (leaf : F) (path rest : List (Step F)) :
    climb H leaf (path ++ rest) = climb H (climb H leaf path) rest := by
  induction path generalizing leaf with
  | nil => rfl
  | cons step path ih => exact ih _

theorem climbInputs_append (leaf : F) (path rest : List (Step F)) :
    climbInputs H leaf (path ++ rest)
      = climbInputs H leaf path ++ climbInputs H (climb H leaf path) rest := by
  induction path generalizing leaf with
  | nil => rfl
  | cons step path ih => exact congrArg (List.cons _) (ih _)

theorem length_children (step : Step F) (node : F) : (step.children node).length = 2 := by
  rw [Step.children]
  split <;> rfl

/-- The end of a path is the digest of a pair. -/
theorem exists_pair_of_climb {leaf : F} {path : List (Step F)} (h : path ≠ []) :
    ∃ pair ∈ climbInputs H leaf path, pair.length = 2 ∧ H pair = climb H leaf path := by
  induction path generalizing leaf with
  | nil => exact absurd rfl h
  | cons step path ih =>
      cases path with
      | nil => exact ⟨_, List.mem_cons_self, length_children step leaf, rfl⟩
      | cons next path =>
          obtain ⟨pair, hpair, hlength⟩ := ih (List.cons_ne_nil next path)
          exact ⟨pair, List.mem_cons_of_mem _ hpair, hlength⟩

/-- The path of an index spells the index. -/
theorem position_opening {height k : Nat} {level : List F} (length : level.length = 2 ^ height)
    (h : k < 2 ^ height) : position (opening H height level k) = k := by
  induction height generalizing level k with
  | zero =>
      rw [Nat.lt_one_iff.mp h]
      rfl
  | succ height ih =>
      obtain ⟨sibling, hsibling, -⟩ :=
        exists_sibling H length (List.getElem?_eq_getElem (show k < level.length by rwa [length]))
      have habove : k / 2 < 2 ^ height := by
        rw [Nat.pow_succ] at h
        omega
      have hposition : position (opening H (height + 1) level k) = (decide (k % 2 = 1)).toNat
          + 2 * position (opening H height (parents H level) (k / 2)) := by
        simp only [opening, hsibling, position]
      rw [hposition, ih (length_parents_of_pow H length) habove]
      obtain hbit | hbit := Nat.mod_two_eq_zero_or_one k
      · simp only [hbit, Nat.zero_ne_one, decide_false, Bool.toNat_false]
        omega
      · simp only [hbit, decide_true, Bool.toNat_true]
        omega

end Paths

variable {H} {recorded : Set (List F)}

section Roots
variable (injective : Set.InjOn H recorded)
include injective

theorem eq_of_parents_eq {level other : List F} (even : level.length % 2 = 0)
    (length : level.length = other.length) (hlevel : ∀ pair ∈ pairs level, pair ∈ recorded)
    (hother : ∀ pair ∈ pairs other, pair ∈ recorded) (h : parents H level = parents H other) :
    level = other := by
  match level, other with
  | [], [] => rfl
  | [_], _ => simp at even
  | left :: right :: rest, left' :: right' :: rest' =>
      simp only [parents, pairs, List.map_cons, List.cons.injEq] at h
      have hpair := injective (hlevel _ List.mem_cons_self) (hother _ List.mem_cons_self) h.1
      have heven : rest.length % 2 = 0 := by
        simp only [List.length_cons] at even
        omega
      have hrest := eq_of_parents_eq heven (Nat.add_right_cancel (Nat.add_right_cancel length))
        (fun pair hmem => hlevel pair (List.mem_cons_of_mem _ hmem))
        (fun pair hmem => hother pair (List.mem_cons_of_mem _ hmem)) h.2
      simp only [List.cons.injEq, and_true] at hpair
      rw [hpair.1, hpair.2, hrest]

/-- A root fixes the leaves of a tree of known height. -/
theorem leaves_eq_of_root {height : Nat} {level other : List F}
    (length : level.length = 2 ^ height) (length' : other.length = 2 ^ height)
    (hlevel : ∀ pair ∈ treeInputs H height level, pair ∈ recorded)
    (hother : ∀ pair ∈ treeInputs H height other, pair ∈ recorded)
    (root : ancestors H height level = ancestors H height other) : level = other := by
  induction height generalizing level other with
  | zero => exact root
  | succ height ih =>
      have hparents := ih (length_parents_of_pow H length) (length_parents_of_pow H length')
        (fun pair hpair => hlevel pair (List.mem_append_right _ hpair))
        (fun pair hpair => hother pair (List.mem_append_right _ hpair)) root
      have heven : level.length % 2 = 0 := by rw [length, Nat.pow_succ, Nat.mul_mod_left]
      exact eq_of_parents_eq injective heven (length.trans length'.symm)
        (fun pair hpair => hlevel pair (List.mem_append_left _ hpair))
        (fun pair hpair => hother pair (List.mem_append_left _ hpair)) hparents

/-- The leaves of a tree are a level of any higher tree with its root. -/
theorem level_eq_of_root {extra height : Nat} {level other : List F}
    (length : level.length = 2 ^ height) (length' : other.length = 2 ^ (extra + height))
    (hlevel : ∀ pair ∈ treeInputs H height level, pair ∈ recorded)
    (hother : ∀ pair ∈ treeInputs H (extra + height) other, pair ∈ recorded)
    (root : ancestors H height level = ancestors H (extra + height) other) :
    level = ancestors H extra other := by
  rw [treeInputs_add] at hother
  rw [ancestors_add] at root
  exact leaves_eq_of_root injective length (length_ancestors H length') hlevel
    (fun pair hpair => hother pair (List.mem_append_right _ hpair)) root

/-- A path climbs from a node of its level, at the index it spells. -/
theorem node_of_climb {extra : Nat} {leaf : F} {leaves : List F} (path : List (Step F))
    (length : leaves.length = 2 ^ (extra + path.length))
    (hpath : ∀ pair ∈ climbInputs H leaf path, pair ∈ recorded)
    (htree : ∀ pair ∈ treeInputs H (extra + path.length) leaves, pair ∈ recorded)
    (root : ancestors H (extra + path.length) leaves = [climb H leaf path]) :
    (ancestors H extra leaves)[position path]? = some leaf := by
  rw [treeInputs_add] at htree
  rw [ancestors_add] at root
  exact leaf_of_climb injective path (length_ancestors H length) hpath
    (fun pair hpair => htree pair (List.mem_append_right _ hpair)) root

/-- A path longer than the tree is high passes a leaf of it. -/
theorem leaf_of_long_climb {leaf : F} {leaves : List F} (path rest : List (Step F))
    (length : leaves.length = 2 ^ rest.length)
    (hpath : ∀ pair ∈ climbInputs H leaf (path ++ rest), pair ∈ recorded)
    (htree : ∀ pair ∈ treeInputs H rest.length leaves, pair ∈ recorded)
    (root : ancestors H rest.length leaves = [climb H leaf (path ++ rest)]) :
    leaves[position rest]? = some (climb H leaf path) := by
  rw [climbInputs_append] at hpath
  rw [climb_append] at root
  exact leaf_of_climb injective rest length
    (fun pair hpair => hpath pair (List.mem_append_right _ hpair)) htree root

end Roots

/-- A node that is the digest of a recorded list which is not a pair. -/
def Sealed (H : List F → F) (recorded : Set (List F)) (node : F) : Prop :=
  ∃ input ∈ recorded, input.length ≠ 2 ∧ H input = node

/-- A sealed node is not the digest of a recorded pair. -/
theorem Sealed.not_pair (injective : Set.InjOn H recorded) {node : F}
    (sealed : Sealed H recorded node) {pair : List F} (hmem : pair ∈ recorded)
    (hlength : pair.length = 2) : H pair ≠ node := by
  obtain ⟨input, hinput, hne, rfl⟩ := sealed
  intro h
  exact hne (injective hmem hinput h ▸ hlength)

/-- Paths from sealed nodes to the root of a tree with sealed leaves are as long as the tree
is high, and start at its leaves. -/
theorem sealed_leaf_of_climb (injective : Set.InjOn H recorded) (path : List (Step F))
    {height : Nat} {leaf : F} {leaves : List F} (length : leaves.length = 2 ^ height)
    (hpath : ∀ pair ∈ climbInputs H leaf path, pair ∈ recorded)
    (htree : ∀ pair ∈ treeInputs H height leaves, pair ∈ recorded)
    (hleaf : Sealed H recorded leaf) (hleaves : ∀ node ∈ leaves, Sealed H recorded node)
    (root : ancestors H height leaves = [climb H leaf path]) :
    path.length = height ∧ leaves[position path]? = some leaf := by
  obtain hlt | heq | hgt := Nat.lt_trichotomy path.length height
  · -- A path that is too short starts above the leaves, at the digest of a pair.
    obtain ⟨extra, rfl⟩ := Nat.exists_eq_add_of_lt hlt
    rw [show path.length + extra + 1 = extra + 1 + path.length by omega] at length htree root
    have hnode := node_of_climb injective path length hpath htree root
    obtain ⟨pair, hpair, hlength, hdigest⟩ :=
      exists_pair_of_mem_ancestors H (List.mem_of_getElem? hnode)
    rw [treeInputs_add] at htree
    exact absurd hdigest
      (hleaf.not_pair injective (htree pair (List.mem_append_left _ hpair)) hlength)
  · subst heq
    exact ⟨rfl, leaf_of_climb injective path length hpath htree root⟩
  · -- A path that is too long reaches a leaf as the digest of a pair.
    obtain ⟨front, rest, rfl, hrest⟩ : ∃ front rest, path = front ++ rest ∧ rest.length = height :=
      ⟨_, _, (List.take_append_drop (path.length - height) path).symm, by
        rw [List.length_drop]
        omega⟩
    subst hrest
    have hfront : front ≠ [] := by
      rintro rfl
      simp at hgt
    have hpassed := leaf_of_long_climb injective front rest length hpath htree root
    obtain ⟨pair, hpair, hlength, hdigest⟩ := exists_pair_of_climb H hfront
    rw [climbInputs_append] at hpath
    exact absurd hdigest ((hleaves _ (List.mem_of_getElem? hpassed)).not_pair injective
      (hpath pair (List.mem_append_left _ hpair)) hlength)

/-- No higher tree has the root of a tree with sealed leaves. -/
theorem sealed_height_le (injective : Set.InjOn H recorded) {height height' : Nat}
    {leaves leaves' : List F} (length : leaves.length = 2 ^ height)
    (length' : leaves'.length = 2 ^ height')
    (htree : ∀ pair ∈ treeInputs H height leaves, pair ∈ recorded)
    (htree' : ∀ pair ∈ treeInputs H height' leaves', pair ∈ recorded)
    (hleaves : ∀ node ∈ leaves, Sealed H recorded node)
    (root : ancestors H height leaves = ancestors H height' leaves') : height' ≤ height := by
  by_contra hlt
  obtain ⟨extra, rfl⟩ := Nat.exists_eq_add_of_lt (Nat.lt_of_not_le hlt)
  rw [show height + extra + 1 = extra + 1 + height by omega] at length' htree' root
  have hlevel := level_eq_of_root injective length length' htree htree' root
  obtain ⟨first, hfirst⟩ : ∃ first, first ∈ leaves := List.exists_mem_of_length_pos (by
    rw [length]
    exact Nat.two_pow_pos height)
  have habove := hfirst
  rw [hlevel] at habove
  obtain ⟨pair, hpair, hlength, hdigest⟩ := exists_pair_of_mem_ancestors H habove
  rw [treeInputs_add] at htree'
  exact absurd hdigest ((hleaves _ hfirst).not_pair injective
    (htree' pair (List.mem_append_left _ hpair)) hlength)

/-- Trees with sealed leaves and one root have the same leaves. -/
theorem sealed_leaves_eq_of_root (injective : Set.InjOn H recorded) {height height' : Nat}
    {leaves leaves' : List F} (length : leaves.length = 2 ^ height)
    (length' : leaves'.length = 2 ^ height')
    (htree : ∀ pair ∈ treeInputs H height leaves, pair ∈ recorded)
    (htree' : ∀ pair ∈ treeInputs H height' leaves', pair ∈ recorded)
    (hleaves : ∀ node ∈ leaves, Sealed H recorded node)
    (hleaves' : ∀ node ∈ leaves', Sealed H recorded node)
    (root : ancestors H height leaves = ancestors H height' leaves') : leaves = leaves' := by
  obtain rfl : height = height' := Nat.le_antisymm
    (sealed_height_le injective length' length htree' htree hleaves' root.symm)
    (sealed_height_le injective length length' htree htree' hleaves root)
  exact leaves_eq_of_root injective length length' htree htree' root

end MerkleTree
