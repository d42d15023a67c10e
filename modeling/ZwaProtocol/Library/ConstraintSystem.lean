import Mathlib.Init

/-!
Arithmetic circuits as templates over an assignment. A template reads signals and
leaves its output, the conjunction of its constraints, and the inputs it hashed.
An assigned signal is its expression; a hinted one is an argument.
-/

namespace ConstraintSystem

structure Circuit (F : Type*) (α : Type*) where
  out : α
  holds : Prop
  hashed : List (List F)

namespace Circuit
universe u v
variable {F : Type u} {α β : Type v}

instance : Monad (Circuit F) where
  pure out := ⟨out, True, []⟩
  bind x f := ⟨(f x.out).out, x.holds ∧ (f x.out).holds, x.hashed ++ (f x.out).hashed⟩

/-- A constraint `x === y`. -/
def enforce (x y : F) : Circuit F Unit := ⟨(), x = y, []⟩

/-- A component known by the relation its constraints put on its signals. -/
def require (relation : Prop) : Circuit F Unit := ⟨(), relation, []⟩

def query (H : List F → F) (inputs : List F) : Circuit F F := ⟨H inputs, True, [inputs]⟩

@[simp] theorem out_pure (out : α) : (pure out : Circuit F α).out = out := rfl

@[simp] theorem holds_pure (out : α) : (pure out : Circuit F α).holds = True := rfl

@[simp] theorem hashed_pure (out : α) : (pure out : Circuit F α).hashed = [] := rfl

@[simp] theorem out_bind (x : Circuit F α) (f : α → Circuit F β) :
    (x >>= f).out = (f x.out).out := rfl

@[simp] theorem holds_bind (x : Circuit F α) (f : α → Circuit F β) :
    (x >>= f).holds = (x.holds ∧ (f x.out).holds) := rfl

@[simp] theorem hashed_bind (x : Circuit F α) (f : α → Circuit F β) :
    (x >>= f).hashed = x.hashed ++ (f x.out).hashed := rfl

@[simp] theorem holds_enforce (x y : F) : (enforce x y).holds = (x = y) := rfl

@[simp] theorem hashed_enforce (x y : F) : (enforce x y).hashed = [] := rfl

@[simp] theorem holds_require (relation : Prop) :
    (require relation : Circuit F Unit).holds = relation := rfl

@[simp] theorem hashed_require (relation : Prop) :
    (require relation : Circuit F Unit).hashed = [] := rfl

@[simp] theorem out_query (H : List F → F) (inputs : List F) :
    (query H inputs).out = H inputs := rfl

@[simp] theorem holds_query (H : List F → F) (inputs : List F) :
    (query H inputs).holds = True := rfl

@[simp] theorem hashed_query (H : List F → F) (inputs : List F) :
    (query H inputs).hashed = [inputs] := rfl

end Circuit

theorem holds_forM {F : Type*} {α : Type*} (template : α → Circuit F PUnit) (items : List α) :
    (items.forM template).holds ↔ ∀ item ∈ items, (template item).holds := by
  induction items with
  | nil => simp
  | cons item items ih =>
      rw [List.forall_mem_cons, ← ih]
      rfl

theorem hashed_forM {F : Type*} {α : Type*} (template : α → Circuit F PUnit) (items : List α) :
    (items.forM template).hashed = items.flatMap fun item => (template item).hashed := by
  induction items with
  | nil => rfl
  | cons item items ih =>
      rw [List.flatMap_cons, ← ih]
      rfl

end ConstraintSystem
