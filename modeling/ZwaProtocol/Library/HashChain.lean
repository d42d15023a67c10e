import Mathlib.Data.List.Induction
import ZwaProtocol.Library.HashStaging

/-!
Chains of hashes: an initial list is hashed, then each block behind the digest before
it. Chains of any two lengths are compared from their ends, where the last blocks meet;
what is left over when the shorter one runs out is a preimage of its first entry.
-/

namespace HashChain
open HashStaging

variable {F : Type*} (H : List F → F)

def chain (state : F) : List (List F) → Hashed F F
  | [] => pure state
  | block :: blocks => do
      let next ← Hashed.query H (state :: block)
      chain next blocks

def absorb (initial : List F) (blocks : List (List F)) : Hashed F F := do
  let state ← Hashed.query H initial
  chain H state blocks

@[simp] theorem chain_nil (state : F) : chain H state [] = pure state := rfl

@[simp] theorem absorb_nil (initial : List F) : absorb H initial [] = Hashed.query H initial := rfl

theorem value_chain_concat (state : F) (blocks : List (List F)) (block : List F) :
    (chain H state (blocks ++ [block])).value = H ((chain H state blocks).value :: block) := by
  induction blocks generalizing state with
  | nil => rfl
  | cons first blocks ih => exact ih _

theorem inputs_chain_concat (state : F) (blocks : List (List F)) (block : List F) :
    (chain H state (blocks ++ [block])).inputs
      = (chain H state blocks).inputs ++ [(chain H state blocks).value :: block] := by
  induction blocks generalizing state with
  | nil => rfl
  | cons first blocks ih => exact congrArg (List.cons _) (ih _)

section Absorb
variable (initial : List F) (blocks : List (List F)) (block : List F)

theorem value_absorb_concat :
    (absorb H initial (blocks ++ [block])).value
      = H ((absorb H initial blocks).value :: block) :=
  value_chain_concat H (H initial) blocks block

theorem inputs_absorb_concat :
    (absorb H initial (blocks ++ [block])).inputs
      = (absorb H initial blocks).inputs ++ [(absorb H initial blocks).value :: block] :=
  congrArg (List.cons initial) (inputs_chain_concat H (H initial) blocks block)

theorem initial_mem_inputs : initial ∈ (absorb H initial blocks).inputs :=
  List.mem_cons_self ..

/-- The value of a chain is a digest it took. -/
theorem exists_digest : ∃ input ∈ (absorb H initial blocks).inputs,
    H input = (absorb H initial blocks).value := by
  induction blocks using List.reverseRecOn with
  | nil => exact ⟨initial, initial_mem_inputs H initial [], rfl⟩
  | append_singleton blocks block _ =>
      refine ⟨_, ?_, (value_absorb_concat H initial blocks block).symm⟩
      rw [inputs_absorb_concat]
      exact List.mem_append_right _ (List.mem_singleton_self _)

end Absorb

variable {H} {initial initial' : List F} {blocks blocks' : List (List F)}

/-- A hash injective on both records tells chains apart, unless one of them starts with
a digest the other took. -/
theorem absorb_inj {recorded : Set (List F)} (injective : Set.InjOn H recorded)
    (hblocks : ∀ xs ∈ (absorb H initial blocks).inputs, xs ∈ recorded)
    (hblocks' : ∀ xs ∈ (absorb H initial' blocks').inputs, xs ∈ recorded)
    (h : (absorb H initial blocks).value = (absorb H initial' blocks').value) :
    initial = initial' ∧ blocks = blocks' ∨
      (∃ input ∈ (absorb H initial' blocks').inputs, ∃ block, initial = H input :: block) ∨
      ∃ input ∈ (absorb H initial blocks).inputs, ∃ block, initial' = H input :: block := by
  induction blocks using List.reverseRecOn generalizing blocks' with
  | nil =>
      have hinitial := hblocks _ (initial_mem_inputs H initial [])
      cases blocks' using List.reverseRecOn with
      | nil =>
          exact .inl ⟨injective hinitial (hblocks' _ (initial_mem_inputs H initial' [])) h, rfl⟩
      | append_singleton blocks' block' =>
          rw [inputs_absorb_concat] at hblocks' ⊢
          rw [value_absorb_concat] at h
          have hlast := hblocks' _ (List.mem_append_right _ (List.mem_singleton_self _))
          obtain ⟨input, hmem, hdigest⟩ := exists_digest H initial' blocks'
          refine .inr (.inl ⟨input, List.mem_append_left _ hmem, block', ?_⟩)
          rw [hdigest]
          exact injective hinitial hlast h
  | append_singleton blocks block ih =>
      rw [inputs_absorb_concat] at hblocks ⊢
      rw [value_absorb_concat] at h
      have hlast := hblocks _ (List.mem_append_right _ (List.mem_singleton_self _))
      cases blocks' using List.reverseRecOn with
      | nil =>
          have hinitial' := hblocks' _ (initial_mem_inputs H initial' [])
          obtain ⟨input, hmem, hdigest⟩ := exists_digest H initial blocks
          refine .inr (.inr ⟨input, List.mem_append_left _ hmem, block, ?_⟩)
          rw [hdigest]
          exact (injective hlast hinitial' h).symm
      | append_singleton blocks' block' =>
          rw [inputs_absorb_concat] at hblocks' ⊢
          rw [value_absorb_concat] at h
          have hlast' := hblocks' _ (List.mem_append_right _ (List.mem_singleton_self _))
          obtain ⟨hstate, rfl⟩ := List.cons.inj (injective hlast hlast' h)
          have hrest := ih (fun xs hxs => hblocks xs (List.mem_append_left _ hxs))
            (fun xs hxs => hblocks' xs (List.mem_append_left _ hxs)) hstate
          obtain ⟨hinitial, rfl⟩ | ⟨input, hmem, hhead⟩ | ⟨input, hmem, hhead⟩ := hrest
          · exact .inl ⟨hinitial, rfl⟩
          · exact .inr (.inl ⟨input, List.mem_append_left _ hmem, hhead⟩)
          · exact .inr (.inr ⟨input, List.mem_append_left _ hmem, hhead⟩)

end HashChain
