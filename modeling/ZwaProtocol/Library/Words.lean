import ZwaProtocol.Library.Machine
import Mathlib.Logic.Function.Basic

/-!
What an observer reads off a run: the labels of its events, in order. A machine whose
events follow the edges of an automaton spells only words that the automaton walks, and
one that can take every edge spells all of them. An automaton for each key runs as their
product; it walks exactly the interleavings of the words that the automata walk.
-/

namespace Machine

section Words
variable {σ ι ο τ L : Type*} {step : σ → ι → ο × σ} (Inv : σ → Prop)
  (label : Event σ ι ο → Option L) (next : τ → L → Option τ) (view : σ → τ)

/-- An event without a label is not seen; a labelled one takes an edge. -/
def Follows (e : Event σ ι ο) : Prop :=
  match label e with
  | none => view e.after = view e.before
  | some l => next (view e.before) l = some (view e.after)

theorem foldlM_labels (back : ∀ state input, Inv (step state input).2 → Inv state)
    (follows : ∀ state input, Inv (step state input).2 →
      Follows label next view (event step state input))
    (state : σ) (inputs : List ι) (kept : Inv (run step state inputs)) :
    ((history step state inputs).filterMap label).foldlM next (view state)
      = some (view (run step state inputs)) := by
  induction inputs using List.reverseRecOn with
  | nil => rfl
  | append_singleton inputs input ih =>
      rw [run_append] at kept ⊢
      have hpast := ih (back _ input kept)
      have hlast := follows (run step state inputs) input kept
      rw [history_append, List.filterMap_append, List.foldlM_append, hpast]
      cases hlabel : label (event step (run step state inputs) input) with
      | none =>
          simp only [Follows, hlabel] at hlast
          rw [history_cons, List.filterMap_cons_none hlabel]
          exact congrArg some hlast.symm
      | some l =>
          simp only [Follows, hlabel] at hlast
          rw [history_cons, List.filterMap_cons_some hlabel]
          simpa [event] using hlast

theorem exists_run_of_foldlM
    (realized : ∀ state l target, Inv state → next (view state) l = some target →
      ∃ input, Inv (step state input).2 ∧ label (event step state input) = some l ∧
        view (step state input).2 = target)
    {state : σ} (start : Inv state) {word : List L} {last : τ}
    (walk : word.foldlM next (view state) = some last) :
    ∃ inputs, Inv (run step state inputs) ∧
      (history step state inputs).filterMap label = word ∧
      view (run step state inputs) = last := by
  induction word generalizing state with
  | nil => exact ⟨[], start, rfl, Option.some.inj walk⟩
  | cons l word ih =>
      rw [List.foldlM_cons] at walk
      obtain ⟨target, hedge, hrest⟩ := Option.bind_eq_some_iff.mp walk
      obtain ⟨input, hkept, hlabel, hview⟩ := realized state l target start hedge
      rw [← hview] at hrest
      obtain ⟨inputs, hinv, hword, hlast⟩ := ih hkept hrest
      refine ⟨input :: inputs, hinv, ?_, hlast⟩
      rw [history_cons, List.filterMap_cons_some hlabel, hword]

end Words

section Product
variable {κ τ L : Type*} [DecidableEq κ] (next : κ → τ → L → Option τ)

/-- The automata side by side: a label moves the one it is addressed to. -/
def product (states : κ → τ) (addressed : κ × L) : Option (κ → τ) :=
  (next addressed.1 (states addressed.1) addressed.2).map
    (Function.update states addressed.1)

/-- The part of a word that is addressed to one key. -/
def wordAt (key : κ) (word : List (κ × L)) : List L :=
  word.filterMap (fun addressed => if addressed.1 = key then some addressed.2 else none)

@[simp] theorem wordAt_cons_self (key : κ) (l : L) (word : List (κ × L)) :
    wordAt key ((key, l) :: word) = l :: wordAt key word :=
  List.filterMap_cons_some (if_pos rfl)

theorem wordAt_cons_of_ne {key other : κ} (h : other ≠ key) (l : L) (word : List (κ × L)) :
    wordAt key ((other, l) :: word) = wordAt key word :=
  List.filterMap_cons_none (if_neg h)

@[simp] theorem wordAt_map_self (key : κ) (word : List L) :
    wordAt key (word.map (Prod.mk key)) = word := by
  induction word with
  | nil => rfl
  | cons l word ih => rw [List.map_cons, wordAt_cons_self, ih]

theorem wordAt_map_of_ne {key other : κ} (h : other ≠ key) (word : List L) :
    wordAt key (word.map (Prod.mk other)) = [] := by
  induction word with
  | nil => rfl
  | cons l word ih => rw [List.map_cons, wordAt_cons_of_ne h, ih]

theorem foldlM_product {word : List (κ × L)} {states last : κ → τ} :
    word.foldlM (product next) states = some last ↔
      ∀ key, (wordAt key word).foldlM (next key) (states key) = some (last key) := by
  induction word generalizing states with
  | nil =>
      constructor
      · intro h key
        exact congrArg (fun states => some (states key)) (Option.some.inj h)
      · intro h
        exact congrArg some (funext (fun key => Option.some.inj (h key)))
  | cons addressed word ih =>
      obtain ⟨target, l⟩ := addressed
      rw [List.foldlM_cons]
      cases hedge : next target (states target) l with
      | none =>
          constructor
          · intro h
            simp [product, hedge] at h
          · intro h
            have htarget := h target
            rw [wordAt_cons_self, List.foldlM_cons, hedge] at htarget
            simp at htarget
      | some moved =>
          have hmove : product next states (target, l)
              = some (Function.update states target moved) := by
            simp [product, hedge]
          rw [hmove, Option.bind_eq_bind, Option.bind_some, ih]
          refine forall_congr' (fun key => ?_)
          by_cases hkey : target = key
          · subst hkey
            rw [Function.update_self, wordAt_cons_self, List.foldlM_cons, hedge,
              Option.bind_eq_bind, Option.bind_some]
          · rw [Function.update_of_ne (Ne.symm hkey), wordAt_cons_of_ne hkey]

/-- The product walks a word when each automaton walks its part, and only then. -/
theorem exists_foldlM_product {word : List (κ × L)} {states : κ → τ} :
    (∃ last, word.foldlM (product next) states = some last) ↔
      ∀ key, ∃ last, (wordAt key word).foldlM (next key) (states key) = some last := by
  simp only [foldlM_product]
  constructor
  · rintro ⟨last, hwalk⟩ key
    exact ⟨last key, hwalk key⟩
  · intro hwalk
    choose last hlast using hwalk
    exact ⟨last, hlast⟩

/-- A word addressed to one key moves that automaton only. -/
theorem foldlM_product_map (states : κ → τ) {key : κ} {word : List L} {last : τ}
    (walk : word.foldlM (next key) (states key) = some last) :
    (word.map (Prod.mk key)).foldlM (product next) states
      = some (Function.update states key last) := by
  rw [foldlM_product]
  intro other
  by_cases hkey : key = other
  · subst hkey
    rw [wordAt_map_self, Function.update_self, walk]
  · rw [wordAt_map_of_ne hkey, Function.update_of_ne (Ne.symm hkey)]
    rfl

end Product

end Machine
