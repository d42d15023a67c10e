import Mathlib.Algebra.Ring.Defs
import Mathlib.Data.List.Dedup
import Mathlib.Data.List.Forall2
import Mathlib.Data.Set.Function

/-!
Commitments staged through a hash of lists, with no assumption on the hash.
Code that hashes is run with a record of the inputs it hashed; a staging is the
term such code evaluates. Two stagings of one shape with one value are equal, or
two different recorded inputs collide.
-/

namespace HashStaging

/-- Two different inputs of the list hash to one value. -/
def Collision {F : Type*} (H : List F → F) (inputs : List (List F)) : Prop :=
  ∃ xs ∈ inputs, ∃ ys ∈ inputs, xs ≠ ys ∧ H xs = H ys

theorem Collision.mono {F : Type*} {H : List F → F} {inputs more : List (List F)}
    (h : Collision H inputs) (hsubset : inputs ⊆ more) : Collision H more := by
  obtain ⟨xs, hxs, ys, hys, hcollide⟩ := h
  exact ⟨xs, hsubset hxs, ys, hsubset hys, hcollide⟩

/-- Without a collision the hash is injective on what was hashed. -/
theorem injOn_of_not_collision {F : Type*} {H : List F → F} {inputs : List (List F)}
    (h : ¬ Collision H inputs) : Set.InjOn H {xs | xs ∈ inputs} := by
  intro xs hxs ys hys heq
  by_contra hne
  exact h ⟨xs, hxs, ys, hys, hne, heq⟩

/-- A check of given inputs. -/
theorem not_collision_of_nodup {F : Type*} [DecidableEq F] {H : List F → F}
    {inputs : List (List F)} (h : (inputs.dedup.map H).Nodup) : ¬ Collision H inputs := by
  rintro ⟨xs, hxs, ys, hys, hne, heq⟩
  exact hne (List.inj_on_of_nodup_map h (List.mem_dedup.mpr hxs) (List.mem_dedup.mpr hys) heq)

/-- A hash to evaluate on given inputs. -/
def sampleHash {F : Type*} [Semiring F] (input : List F) : F :=
  input.foldl (fun digest value => digest * digest + value + 1) 0

/-- A value together with the inputs hashed on the way to it. -/
structure Hashed (F : Type*) (α : Type*) where
  value : α
  inputs : List (List F)

namespace Hashed
universe u v
variable {F : Type u} {α β : Type v}

instance : Monad (Hashed F) where
  pure value := ⟨value, []⟩
  bind x f := ⟨(f x.value).value, x.inputs ++ (f x.value).inputs⟩

instance : LawfulMonad (Hashed F) :=
  .mk' (Hashed F) (fun _ => congrArg (Hashed.mk _) (List.append_nil _)) (fun _ _ => rfl)
    (fun _ _ _ => congrArg (Hashed.mk _) (List.append_assoc ..))

def query (H : List F → F) (input : List F) : Hashed F F := ⟨H input, [input]⟩

@[simp] theorem value_pure (value : α) : (pure value : Hashed F α).value = value := rfl

@[simp] theorem inputs_pure (value : α) : (pure value : Hashed F α).inputs = [] := rfl

@[simp] theorem value_bind (x : Hashed F α) (f : α → Hashed F β) :
    (x >>= f).value = (f x.value).value := rfl

@[simp] theorem inputs_bind (x : Hashed F α) (f : α → Hashed F β) :
    (x >>= f).inputs = x.inputs ++ (f x.value).inputs := rfl

@[simp] theorem value_map (f : α → β) (x : Hashed F α) : (f <$> x).value = f x.value := rfl

@[simp] theorem inputs_map (f : α → β) (x : Hashed F α) : (f <$> x).inputs = x.inputs :=
  List.append_nil _

@[simp] theorem value_query (H : List F → F) (input : List F) :
    (query H input).value = H input := rfl

@[simp] theorem inputs_query (H : List F → F) (input : List F) :
    (query H input).inputs = [input] := rfl

end Hashed

universe u v

section Throwing
variable {F : Type u} {ε α β : Type v}

/-- A computation that may throw between its hashes returns the value, having
hashed the inputs. -/
def Returns (x : ExceptT ε (Hashed F) α) (value : α) (inputs : List (List F)) : Prop :=
  x.run = ⟨.ok value, inputs⟩

theorem Returns.pure (value : α) :
    Returns (Pure.pure value : ExceptT ε (Hashed F) α) value [] := rfl

theorem run_bind (x : ExceptT ε (Hashed F) α) (f : α → ExceptT ε (Hashed F) β) :
    (x >>= f).run = x.run >>= fun result => match result with
      | .ok a => (f a).run
      | .error error => Pure.pure (.error error) := rfl

theorem Returns.bind {x : ExceptT ε (Hashed F) α} {f : α → ExceptT ε (Hashed F) β} {a : α}
    {b : β} {inputs more : List (List F)} (hx : Returns x a inputs) (hf : Returns (f a) b more) :
    Returns (x >>= f) b (inputs ++ more) := by
  rw [Returns, run_bind, hx]
  show (⟨(f a).run.value, inputs ++ (f a).run.inputs⟩ : Hashed F (Except ε β)) = _
  rw [hf]

/-- What throws returns nothing. -/
theorem not_returns_throw {f : α → ExceptT ε (Hashed F) β} {error : ε} {b : β}
    {inputs : List (List F)} : ¬ Returns (throw error >>= f) b inputs := by
  intro h
  have hvalue : Except.error error = Except.ok b := congrArg Hashed.value h
  exact absurd hvalue (by simp)

/-- A check that passes hashes nothing. -/
theorem Returns.check {x : ExceptT ε (Hashed F) α} {f : α → ExceptT ε (Hashed F) β} {a : α}
    {b : β} {inputs : List (List F)} (hx : Returns x a []) (hf : Returns (f a) b inputs) :
    Returns (x >>= f) b inputs :=
  hx.bind hf

theorem Returns.bind_pure {x : ExceptT ε (Hashed F) α} {a : α} {inputs : List (List F)}
    (hx : Returns x a inputs) (f : α → β) :
    Returns (x >>= fun value => Pure.pure (f value)) (f a) inputs := by
  have h : Returns (x >>= fun value => Pure.pure (f value)) (f a) (inputs ++ []) :=
    hx.bind (Returns.pure (f a))
  rwa [List.append_nil] at h

theorem Returns.lift (x : Hashed F α) :
    Returns (ExceptT.lift x : ExceptT ε (Hashed F) α) x.value x.inputs :=
  congrArg (Hashed.mk _) (List.append_nil _)

theorem Returns.value_unique {x : ExceptT ε (Hashed F) α} {a b : α} {inputs more : List (List F)}
    (ha : Returns x a inputs) (hb : Returns x b more) : a = b := by
  have hvalue := congrArg Hashed.value (ha.symm.trans hb)
  exact Except.ok.inj hvalue

theorem Returns.inputs_unique {x : ExceptT ε (Hashed F) α} {a b : α}
    {inputs more : List (List F)} (ha : Returns x a inputs) (hb : Returns x b more) :
    inputs = more :=
  congrArg Hashed.inputs (ha.symm.trans hb)

theorem returns_of_value {x : ExceptT ε (Hashed F) α} {value : α} (h : x.run.value = .ok value) :
    Returns x value x.run.inputs :=
  congrArg (Hashed.mk · x.run.inputs) h

/-- The computation throws nothing. -/
def Completes (x : ExceptT ε (Hashed F) α) : Prop := ∃ value inputs, Returns x value inputs

theorem completes_pure (value : α) : Completes (pure value : ExceptT ε (Hashed F) α) :=
  ⟨value, [], .pure value⟩

theorem completes_lift (x : Hashed F α) : Completes (ExceptT.lift x : ExceptT ε (Hashed F) α) :=
  ⟨x.value, x.inputs, .lift x⟩

/-- After a step that returns, the rest decides. -/
theorem Returns.completes_bind_iff {x : ExceptT ε (Hashed F) α} {a : α} {inputs : List (List F)}
    (hx : Returns x a inputs) (f : α → ExceptT ε (Hashed F) β) :
    Completes (x >>= f) ↔ Completes (f a) := by
  constructor
  · rintro ⟨value, recorded, h⟩
    rw [Returns, run_bind, hx] at h
    exact ⟨value, (f a).run.inputs, congrArg (Hashed.mk · _) (congrArg Hashed.value h)⟩
  · rintro ⟨value, more, h⟩
    exact ⟨value, inputs ++ more, hx.bind h⟩

theorem completes_bind_iff {x : ExceptT ε (Hashed F) α} {f : α → ExceptT ε (Hashed F) β} :
    Completes (x >>= f) ↔ ∃ a inputs, Returns x a inputs ∧ Completes (f a) := by
  constructor
  · rintro ⟨value, recorded, h⟩
    cases hx : x.run.value with
    | ok a =>
        have hreturns := returns_of_value hx
        exact ⟨a, _, hreturns, (hreturns.completes_bind_iff f).mp ⟨value, recorded, h⟩⟩
    | error error =>
        have hvalue := congrArg Hashed.value h
        rw [run_bind, Hashed.value_bind, hx] at hvalue
        exact absurd hvalue (by simp)
  · rintro ⟨a, inputs, hx, hf⟩
    exact (hx.completes_bind_iff f).mpr hf

theorem returns_bind_iff {x : ExceptT ε (Hashed F) α} {f : α → ExceptT ε (Hashed F) β} {b : β}
    {inputs : List (List F)} :
    Returns (x >>= f) b inputs ↔ ∃ a front rest, Returns x a front ∧ Returns (f a) b rest ∧
      inputs = front ++ rest := by
  constructor
  · intro h
    obtain ⟨a, front, hx, value, rest, hf⟩ := completes_bind_iff.mp ⟨b, inputs, h⟩
    obtain rfl := h.value_unique (hx.bind hf)
    exact ⟨a, front, rest, hx, hf, h.inputs_unique (hx.bind hf)⟩
  · rintro ⟨a, front, rest, hx, hf, rfl⟩
    exact hx.bind hf

/-- The results of a list of computations, each returned by its own. -/
theorem Returns.forall₂_mapM {f : α → ExceptT ε (Hashed F) β} {items : List α}
    {results : List β} {inputs : List (List F)} (h : Returns (items.mapM f) results inputs) :
    List.Forall₂ (fun item result => ∃ more, Returns (f item) result more ∧ more ⊆ inputs)
      items results := by
  induction items generalizing results inputs with
  | nil =>
      rw [List.mapM_nil] at h
      obtain rfl := h.value_unique (.pure [])
      exact .nil
  | cons item items ih =>
      rw [List.mapM_cons] at h
      obtain ⟨result, front, rest, hitem, hrest, rfl⟩ := returns_bind_iff.mp h
      obtain ⟨tail, front', rest', hitems, hlast, rfl⟩ := returns_bind_iff.mp hrest
      obtain rfl := hlast.value_unique (.pure _)
      refine .cons ⟨front, hitem, List.subset_append_left ..⟩ ((ih hitems).imp ?_)
      rintro item' result' ⟨more, hreturns, hsubset⟩
      refine ⟨more, hreturns, fun input hinput => ?_⟩
      exact List.mem_append_right _ (List.mem_append_left _ (hsubset hinput))

/-- Computations that return, one after the other. -/
theorem Returns.mapM {ι : Type*} {f : α → ExceptT ε (Hashed F) β} {items : List ι} {entry : ι → α}
    {result : ι → β} {inputs : ι → List (List F)}
    (h : ∀ item ∈ items, Returns (f (entry item)) (result item) (inputs item)) :
    Returns ((items.map entry).mapM f) (items.map result) (items.flatMap inputs) := by
  induction items with
  | nil => exact .pure []
  | cons item items ih =>
      obtain ⟨hitem, hitems⟩ := List.forall_mem_cons.mp h
      rw [List.map_cons, List.mapM_cons]
      exact hitem.bind ((ih hitems).bind_pure _)

theorem completes_mapM {f : α → ExceptT ε (Hashed F) β} {items : List α}
    (h : ∀ item ∈ items, Completes (f item)) : Completes (items.mapM f) := by
  induction items with
  | nil =>
      rw [List.mapM_nil]
      exact completes_pure []
  | cons item items ih =>
      obtain ⟨hitem, hitems⟩ := List.forall_mem_cons.mp h
      obtain ⟨result, inputs, hresult⟩ := hitem
      obtain ⟨results, more, hresults⟩ := ih hitems
      rw [List.mapM_cons]
      exact ⟨_, _, hresult.bind (hresults.bind_pure _)⟩

/-- What follows decides alike, whatever was returned. -/
theorem completes_bind_of_forall {x : ExceptT ε (Hashed F) α} {f : α → ExceptT ε (Hashed F) β}
    {accepted : Prop} (h : ∀ a, Completes (f a) ↔ accepted) :
    Completes (x >>= f) ↔ Completes x ∧ accepted := by
  rw [completes_bind_iff]
  constructor
  · rintro ⟨a, inputs, hx, hf⟩
    exact ⟨⟨a, inputs, hx⟩, (h a).mp hf⟩
  · rintro ⟨⟨a, inputs, hx⟩, haccepted⟩
    exact ⟨a, inputs, hx, (h a).mpr haccepted⟩

/-- A check passes on the values it does not reject. -/
theorem completes_check_bind {reject : Prop} [Decidable reject] (error : ε) (value : α)
    (f : α → ExceptT ε (Hashed F) β) :
    Completes ((if reject then throw error else pure value) >>= f)
      ↔ ¬ reject ∧ Completes (f value) := by
  by_cases hreject : reject
  · rw [if_pos hreject]
    refine iff_of_false ?_ (fun h => h.1 hreject)
    rintro ⟨result, inputs, h⟩
    exact not_returns_throw h
  · rw [if_neg hreject, (Returns.pure value).completes_bind_iff f]
    exact (and_iff_right hreject).symm

/-- The same of a guard that throws before the rest. -/
theorem returns_guard_iff {reject : Prop} [Decidable reject] {error : ε}
    {f : α → ExceptT ε (Hashed F) β} {rest : ExceptT ε (Hashed F) β} {result : β}
    {inputs : List (List F)} :
    Returns (if reject then throw error >>= f else rest) result inputs ↔
      ¬ reject ∧ Returns rest result inputs := by
  by_cases hreject : reject
  · rw [if_pos hreject]
    exact iff_of_false not_returns_throw (fun h => h.1 hreject)
  · rw [if_neg hreject]
    exact (and_iff_right hreject).symm

theorem completes_guard_iff {reject : Prop} [Decidable reject] {error : ε}
    {f : α → ExceptT ε (Hashed F) β} {rest : ExceptT ε (Hashed F) β} :
    Completes (if reject then throw error >>= f else rest) ↔ ¬ reject ∧ Completes rest := by
  simp only [Completes, returns_guard_iff, exists_and_left]

theorem completes_lift_bind (x : Hashed F α) (f : α → ExceptT ε (Hashed F) β) :
    Completes (ExceptT.lift x >>= f) ↔ Completes (f x.value) :=
  (Returns.lift x).completes_bind_iff f

/-- A property that one condition decides for whatever is returned. -/
theorem forall_returns_iff {x : ExceptT ε (Hashed F) α} {p : α → Prop} {condition : Prop}
    (h : ∀ value inputs, Returns x value inputs → (p value ↔ condition)) :
    (∀ value inputs, Returns x value inputs → p value) ↔ condition ∨ ¬ Completes x := by
  constructor
  · intro hall
    rw [or_iff_not_imp_right, not_not]
    rintro ⟨value, inputs, returned⟩
    exact (h value inputs returned).mp (hall value inputs returned)
  · intro hcondition value inputs returned
    exact (h value inputs returned).mpr
      (hcondition.resolve_right (not_not.mpr ⟨value, inputs, returned⟩))

end Throwing

/-- A computation that hashes lists of given values and of its own results. -/
inductive Staging (F : Type*) where
  | value (x : F)
  | hash (parts : List (Staging F))

namespace Staging
variable {F : Type*} (H : List F → F)

mutual
def eval : Staging F → F
  | .value x => x
  | .hash parts => H (evals parts)

def evals : List (Staging F) → List F
  | [] => []
  | part :: parts => part.eval :: evals parts
end

mutual
/-- The inputs hashed, outermost first. -/
def inputs : Staging F → List (List F)
  | .value _ => []
  | .hash parts => evals H parts :: allInputs parts

def allInputs : List (Staging F) → List (List F)
  | [] => []
  | part :: parts => part.inputs ++ allInputs parts
end

mutual
/-- One branching, whatever the values. -/
def SameShape : Staging F → Staging F → Prop
  | .value _, .value _ => True
  | .hash parts, .hash others => SameShapes parts others
  | _, _ => False

def SameShapes : List (Staging F) → List (Staging F) → Prop
  | [], [] => True
  | part :: parts, other :: others => part.SameShape other ∧ SameShapes parts others
  | _, _ => False
end

attribute [simp] eval evals inputs allInputs SameShape SameShapes

variable {H}

mutual
/-- Binding: a hash injective on both records sends different stagings of one
shape to different values. -/
theorem eq_of_eval_eq {recorded : Set (List F)} (injective : Set.InjOn H recorded) :
    ∀ (s t : Staging F), s.SameShape t → (∀ xs ∈ s.inputs H, xs ∈ recorded) →
      (∀ xs ∈ t.inputs H, xs ∈ recorded) → s.eval H = t.eval H → s = t
  | .value x, .value y, _, _, _, h => congrArg value h
  | .value _, .hash _, shape, _, _, _ => by simp at shape
  | .hash _, .value _, shape, _, _, _ => by simp at shape
  | .hash parts, .hash others, shape, hs, ht, h => by
      have hevals : evals H parts = evals H others :=
        injective (hs _ (by simp)) (ht _ (by simp)) h
      refine congrArg hash (eq_of_evals_eq injective parts others shape ?_ ?_ hevals)
      · intro xs hxs
        exact hs xs (List.mem_cons_of_mem _ hxs)
      · intro xs hxs
        exact ht xs (List.mem_cons_of_mem _ hxs)

theorem eq_of_evals_eq {recorded : Set (List F)} (injective : Set.InjOn H recorded) :
    ∀ (parts others : List (Staging F)), SameShapes parts others →
      (∀ xs ∈ allInputs H parts, xs ∈ recorded) →
      (∀ xs ∈ allInputs H others, xs ∈ recorded) → evals H parts = evals H others →
      parts = others
  | [], [], _, _, _, _ => rfl
  | [], _ :: _, shape, _, _, _ => by simp at shape
  | _ :: _, [], shape, _, _, _ => by simp at shape
  | part :: parts, other :: others, shape, hs, ht, h => by
      obtain ⟨hhead, htail⟩ := List.cons.inj h
      have hpart : part = other :=
        eq_of_eval_eq injective part other shape.1
          (fun xs hxs => hs xs (List.mem_append_left _ hxs))
          (fun xs hxs => ht xs (List.mem_append_left _ hxs)) hhead
      have hparts : parts = others :=
        eq_of_evals_eq injective parts others shape.2
          (fun xs hxs => hs xs (List.mem_append_right _ hxs))
          (fun xs hxs => ht xs (List.mem_append_right _ hxs)) htail
      rw [hpart, hparts]
end

/-- Stagings of one shape and one value are equal, or the lists hashed for them collide. -/
theorem eq_or_collision {s t : Staging F} (shape : s.SameShape t) {inputs inputs' : List (List F)}
    (hs : s.inputs H ⊆ inputs) (ht : t.inputs H ⊆ inputs') (h : s.eval H = t.eval H) :
    s = t ∨ Collision H (inputs ++ inputs') := by
  by_cases hcollision : Collision H (inputs ++ inputs')
  · exact .inr hcollision
  · exact .inl (eq_of_eval_eq (injOn_of_not_collision hcollision) s t shape
      (fun _ hxs => List.mem_append_left _ (hs hxs))
      (fun _ hxs => List.mem_append_right _ (ht hxs)) h)

end Staging

end HashStaging
