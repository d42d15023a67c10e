import Mathlib.Data.Nat.Bitwise
import Mathlib.Data.Set.Function
import Mathlib.Tactic.Common

/-!
Binary Merkle trees over a hash of lists. A level is a list of digests, a tree is
built by hashing the pairs of a level, and a path climbs from a leaf with siblings
of its own. The siblings of a leaf climb to the root of its tree; and a path that reaches
the root of a tree started at one of its leaves, whatever siblings it used, when the
hash is injective on what was hashed.
-/

namespace MerkleTree

variable {F : Type*} (H : List F → F)

/-- One step of a path: the side of the node climbed from, and its sibling. -/
@[ext] structure Step (F : Type*) where
  right : Bool
  sibling : F

def Step.children (step : Step F) (node : F) : List F :=
  if step.right then [step.sibling, node] else [node, step.sibling]

/-- The digest a path reaches, from the leaf upwards. -/
def climb (leaf : F) : List (Step F) → F
  | [] => leaf
  | step :: path => climb (H (step.children leaf)) path

theorem climb_const (digest : F) (path : List (Step F)) :
    climb (fun _ => digest) digest path = digest := by
  induction path with
  | nil => rfl
  | cons _ path ih => exact ih

def climbInputs (leaf : F) : List (Step F) → List (List F)
  | [] => []
  | step :: path => step.children leaf :: climbInputs (H (step.children leaf)) path

/-- The index of the leaf a path starts from. -/
def position : List (Step F) → Nat
  | [] => 0
  | step :: path => step.right.toNat + 2 * position path

def pairs : List F → List (List F)
  | left :: right :: rest => [left, right] :: pairs rest
  | _ => []

/-- The level above. -/
def parents (level : List F) : List F := (pairs level).map H

/-- The level a number of steps above. -/
def ancestors : Nat → List F → List F
  | 0, level => level
  | height + 1, level => ancestors height (parents H level)

/-- The pairs hashed to reach it. -/
def treeInputs : Nat → List F → List (List F)
  | 0, _ => []
  | height + 1, level => pairs level ++ treeInputs height (parents H level)

/-- The levels from this one to the root. -/
def levels : Nat → List F → List (List F)
  | 0, level => [level]
  | height + 1, level => level :: levels height (parents H level)

/-- The path of an index: its sibling on every level. -/
def opening : Nat → List F → Nat → List (Step F)
  | 0, _, _ => []
  | height + 1, level, k =>
      match level[k ^^^ 1]? with
      | none => []
      | some sibling => ⟨k % 2 = 1, sibling⟩ :: opening height (parents H level) (k / 2)

section Levels

theorem length_pairs : ∀ level : List F, (pairs level).length = level.length / 2
  | [] => by simp [pairs]
  | [_] => by simp [pairs]
  | _ :: _ :: rest => by
      have ih := length_pairs rest
      simp only [pairs, List.length_cons, ih]
      omega

@[simp] theorem length_parents (level : List F) : (parents H level).length = level.length / 2 := by
  rw [parents, List.length_map, length_pairs]

theorem length_parents_of_pow {level : List F} {height : Nat}
    (h : level.length = 2 ^ (height + 1)) : (parents H level).length = 2 ^ height := by
  rw [length_parents, h, Nat.pow_succ, Nat.mul_div_cancel _ (by decide)]

theorem pairs_getElem? : ∀ (level : List F) (k : Nat) (pair : List F),
    (pairs level)[k]? = some pair →
      ∃ left right, pair = [left, right] ∧ level[2 * k]? = some left ∧
        level[2 * k + 1]? = some right
  | [], k, pair, h => by simp [pairs] at h
  | [_], k, pair, h => by simp [pairs] at h
  | left :: right :: _, 0, pair, h => by
      refine ⟨left, right, ?_, rfl, rfl⟩
      simpa [pairs] using h.symm
  | _ :: _ :: rest, k + 1, pair, h => by
      obtain ⟨left, right, hpair, hleft, hright⟩ :=
        pairs_getElem? rest k pair (by simpa [pairs] using h)
      exact ⟨left, right, hpair, by simpa [Nat.mul_succ] using hleft,
        by simpa [Nat.mul_succ] using hright⟩

theorem getElem?_pairs : ∀ {level : List F} {k : Nat} {left right : F},
    level[2 * k]? = some left → level[2 * k + 1]? = some right →
      (pairs level)[k]? = some [left, right]
  | [], k, left, right, hleft, _ => by simp at hleft
  | [_], k, left, right, _, hright => by simp at hright
  | first :: second :: rest, 0, left, right, hleft, hright => by
      have hfirst : first = left := by simpa using hleft
      have hsecond : second = right := by simpa using hright
      rw [hfirst, hsecond]
      rfl
  | first :: second :: rest, k + 1, left, right, hleft, hright => by
      have htail : (pairs rest)[k]? = some [left, right] :=
        getElem?_pairs (by simpa [Nat.mul_succ] using hleft) (by simpa [Nat.mul_succ] using hright)
      simpa [pairs] using htail

/-- A node of a level has a sibling there, and their parent above. -/
theorem exists_sibling {level : List F} {height k : Nat} {node : F}
    (length : level.length = 2 ^ (height + 1)) (h : level[k]? = some node) :
    ∃ sibling, level[k ^^^ 1]? = some sibling ∧
      (parents H level)[k / 2]? = some (H (Step.children ⟨k % 2 = 1, sibling⟩ node)) := by
  have hlt : k < level.length := (List.getElem?_eq_some_iff.mp h).1
  rw [length, Nat.pow_succ] at hlt
  obtain hbit | hbit := Nat.mod_two_eq_zero_or_one k
  · have hxor : k ^^^ 1 = k + 1 := Nat.xor_one_of_even (Nat.even_iff.mpr hbit)
    have hsibling : k + 1 < level.length := by
      rw [length, Nat.pow_succ]
      omega
    have hhalf : 2 * (k / 2) = k := by omega
    refine ⟨level[k + 1], by rw [hxor, List.getElem?_eq_getElem hsibling], ?_⟩
    have hpair : (pairs level)[k / 2]? = some [node, level[k + 1]] :=
      getElem?_pairs (by rwa [hhalf]) (by rw [hhalf, List.getElem?_eq_getElem hsibling])
    simp [parents, hpair, Step.children, hbit]
  · have hxor : k ^^^ 1 = k - 1 := Nat.xor_one_of_odd (Nat.odd_iff.mpr hbit)
    have hsibling : k - 1 < level.length := by
      rw [length, Nat.pow_succ]
      omega
    have hhalf : 2 * (k / 2) = k - 1 := by omega
    have hnode : k - 1 + 1 = k := by omega
    refine ⟨level[k - 1], by rw [hxor, List.getElem?_eq_getElem hsibling], ?_⟩
    have hpair : (pairs level)[k / 2]? = some [level[k - 1], node] :=
      getElem?_pairs (by rw [hhalf, List.getElem?_eq_getElem hsibling]) (by rwa [hhalf, hnode])
    simp [parents, hpair, Step.children, hbit]

theorem length_opening {level : List F} {height k : Nat} (length : level.length = 2 ^ height)
    (h : k < 2 ^ height) : (opening H height level k).length = height := by
  induction height generalizing level k with
  | zero => rfl
  | succ height ih =>
      rw [← length] at h
      obtain ⟨sibling, hsibling, hparent⟩ :=
        exists_sibling H length (List.getElem?_eq_getElem h)
      have habove : k / 2 < 2 ^ height := by
        rw [length, Nat.pow_succ] at h
        omega
      simp [opening, hsibling, ih (length_parents_of_pow H length) habove]

/-- Completeness of paths: a leaf climbs to the root with its siblings. -/
theorem climb_opening {height k : Nat} {leaf : F} {leaves : List F}
    (length : leaves.length = 2 ^ height) (h : leaves[k]? = some leaf) :
    ancestors H height leaves = [climb H leaf (opening H height leaves k)] := by
  induction height generalizing leaf leaves k with
  | zero =>
      obtain ⟨root, rfl⟩ := List.length_eq_one_iff.mp length
      obtain ⟨hk, rfl⟩ := List.getElem?_eq_some_iff.mp h
      simp [ancestors, opening, climb]
  | succ height ih =>
      obtain ⟨sibling, hsibling, hparent⟩ := exists_sibling H length h
      rw [ancestors, ih (length_parents_of_pow H length) hparent]
      simp only [opening, hsibling, climb]

end Levels

variable {H}

/-- A step taken to a node of the tree was taken from the child on its side. -/
theorem child_of_children {level : List F} {k : Nat} {step : Step F} {node : F}
    (h : (pairs level)[k]? = some (step.children node)) :
    level[step.right.toNat + 2 * k]? = some node := by
  obtain ⟨left, right, hpair, hleft, hright⟩ := pairs_getElem? level k _ h
  cases hside : step.right with
  | false =>
      simp only [Step.children, hside, Bool.false_eq_true, if_false, List.cons.injEq] at hpair
      rw [hpair.1, Bool.toNat_false, Nat.zero_add]
      exact hleft
  | true =>
      simp only [Step.children, hside, if_true, List.cons.injEq] at hpair
      rw [hpair.2.1, Bool.toNat_true, Nat.add_comm]
      exact hright

/-- Soundness of paths: the siblings are the prover's, the leaf is the tree's. -/
theorem leaf_of_climb {recorded : Set (List F)} (injective : Set.InjOn H recorded)
    (path : List (Step F)) {leaf : F} {leaves : List F}
    (length : leaves.length = 2 ^ path.length)
    (hpath : ∀ pair ∈ climbInputs H leaf path, pair ∈ recorded)
    (htree : ∀ pair ∈ treeInputs H path.length leaves, pair ∈ recorded)
    (root : ancestors H path.length leaves = [climb H leaf path]) :
    leaves[position path]? = some leaf := by
  induction path generalizing leaf leaves with
  | nil =>
      have hroot : leaves = [leaf] := root
      rw [hroot]
      rfl
  | cons step path ih =>
      have habove := ih (length_parents_of_pow H length)
        (fun pair hpair => hpath pair (List.mem_cons_of_mem _ hpair))
        (fun pair hpair => htree pair (List.mem_append_right _ hpair)) root
      rw [parents, List.getElem?_map, Option.map_eq_some_iff] at habove
      obtain ⟨pair, hpair, hdigest⟩ := habove
      -- The parent is hashed from a recorded pair, so the step hashed that pair.
      have hrecorded : pair ∈ recorded :=
        htree pair (List.mem_append_left _ (List.mem_of_getElem? hpair))
      have hstep : step.children leaf ∈ recorded := hpath _ List.mem_cons_self
      have heq := injective hrecorded hstep hdigest
      exact child_of_children (heq ▸ hpair)

end MerkleTree
