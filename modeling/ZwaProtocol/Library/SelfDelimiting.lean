import Mathlib.Data.List.Infix

/-!
Self-delimiting encodings. A reader takes a value off the front of an input and hands
back what follows; words that a reader recovers from any continuation are distinct, and
none of them continues another.
-/

namespace SelfDelimiting
universe u

abbrev Reader (β α : Type u) := StateT (List β) Option α

section Readers
variable {β α γ : Type u}

def next : Reader β β
  | [] => none
  | first :: rest => some (first, rest)

def take (count : Nat) : Reader β (List β) := fun input =>
  if count ≤ input.length then some (input.take count, input.drop count) else none

def expect [DecidableEq β] (word : List β) : Reader β PUnit := do
  let found ← take word.length
  if found = word then pure ⟨⟩ else failure

/-- The reader takes exactly this word off every input that starts with it. -/
def Reads (read : Reader β α) (word : List β) (value : α) : Prop :=
  ∀ rest, read (word ++ rest) = some (value, rest)

theorem Reads.pure (value : α) : Reads (Pure.pure value : Reader β α) [] value := by
  intro rest
  rfl

theorem Reads.bind {read : Reader β α} {readNext : α → Reader β γ} {word word' : List β}
    {value : α} {value' : γ} (h : Reads read word value)
    (h' : Reads (readNext value) word' value') :
    Reads (read >>= readNext) (word ++ word') value' := by
  intro rest
  have hfirst := h (word' ++ rest)
  have hsecond := h' rest
  rw [List.append_assoc]
  change (read (word ++ (word' ++ rest))).bind _ = _
  rw [hfirst]
  exact hsecond

theorem Reads.map {read : Reader β α} {word : List β} {value : α} (f : α → γ)
    (h : Reads read word value) :
    Reads (read >>= fun found => Pure.pure (f found)) word (f value) := by
  have hread : Reads (read >>= fun found => Pure.pure (f found)) (word ++ []) (f value) :=
    h.bind (Reads.pure (f value))
  rwa [List.append_nil] at hread

/-- A check takes nothing off the input. -/
theorem Reads.lift {found : Option α} {value : α} (h : found = some value) :
    Reads (liftM found : Reader β α) [] value := by
  intro rest
  rw [h]
  rfl

theorem reads_next (first : β) : Reads next [first] first := by
  intro rest
  rfl

theorem reads_take {word : List β} {count : Nat} (length : word.length = count) :
    Reads (take count) word word := by
  intro rest
  have hfits : count ≤ (word ++ rest).length := by simp [length]
  rw [take, if_pos hfits, List.take_left' length, List.drop_left' length]

theorem reads_expect [DecidableEq β] (word : List β) : Reads (expect word) word ⟨⟩ := by
  have hread : Reads (expect word) (word ++ []) ⟨⟩ := by
    refine Reads.bind (reads_take rfl) ?_
    rw [if_pos rfl]
    exact Reads.pure _
  rwa [List.append_nil] at hread

end Readers

section Words
variable {β α : Type u} {read : Reader β α} {encode : α → List β}

/-- No word of a self-delimiting encoding continues another. -/
theorem eq_of_encode_prefix_encode (h : ∀ value, Reads read (encode value) value) {x y : α}
    (hstart : encode x <+: encode y) : x = y := by
  obtain ⟨rest, heq⟩ := hstart
  have hx := h x rest
  have hy := h y []
  rw [List.append_nil, ← heq, hx] at hy
  exact congrArg Prod.fst (Option.some.inj hy)

theorem encode_injective (h : ∀ value, Reads read (encode value) value) :
    Function.Injective encode := by
  intro x y heq
  apply eq_of_encode_prefix_encode h
  rw [heq]

end Words

end SelfDelimiting
