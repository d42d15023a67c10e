import Mathlib.Data.List.Basic
import Mathlib.Data.List.Induction

/-!
Deterministic machines that answer every input, their runs, and the history a
run leaves behind. A component of a machine sees some of the inputs and owns
part of the state; a run of the machine is then a run of the component on the
inputs it sees.
-/

namespace Machine

/-- One step as an observer records it. -/
structure Event (σ ι ο : Type*) where
  before : σ
  input : ι
  output : ο
  after : σ

section Runs
variable {σ ι ο : Type*} (step : σ → ι → ο × σ)

def event (state : σ) (input : ι) : Event σ ι ο :=
  ⟨state, input, (step state input).1, (step state input).2⟩

def run (state : σ) : List ι → σ
  | [] => state
  | input :: inputs => run (step state input).2 inputs

def history (state : σ) : List ι → List (Event σ ι ο)
  | [] => []
  | input :: inputs => event step state input :: history (step state input).2 inputs

@[simp] theorem run_nil (state : σ) : run step state [] = state := rfl

@[simp] theorem run_cons (state : σ) (input : ι) (inputs : List ι) :
    run step state (input :: inputs) = run step (step state input).2 inputs := rfl

@[simp] theorem history_nil (state : σ) : history step state [] = [] := rfl

@[simp] theorem history_cons (state : σ) (input : ι) (inputs : List ι) :
    history step state (input :: inputs)
      = event step state input :: history step (step state input).2 inputs := rfl

theorem run_append (state : σ) (xs ys : List ι) :
    run step state (xs ++ ys) = run step (run step state xs) ys := by
  induction xs generalizing state with
  | nil => rfl
  | cons x xs ih => exact ih _

theorem history_append (state : σ) (xs ys : List ι) :
    history step state (xs ++ ys)
      = history step state xs ++ history step (run step state xs) ys := by
  induction xs generalizing state with
  | nil => rfl
  | cons x xs ih => simp [ih]

theorem map_input_history (state : σ) (inputs : List ι) :
    (history step state inputs).map Event.input = inputs := by
  induction inputs generalizing state with
  | nil => rfl
  | cons input inputs ih => rw [history_cons, List.map_cons, ih, event]

/-- A property of the past and the present holds after every run if it holds at
the start and every step keeps it. -/
theorem history_induction {motive : List (Event σ ι ο) → σ → Prop} (state : σ)
    (start : motive [] state)
    (next : ∀ past present input, motive past present →
      motive (past ++ [event step present input]) (step present input).2)
    (inputs : List ι) : motive (history step state inputs) (run step state inputs) := by
  induction inputs using List.reverseRecOn with
  | nil => exact start
  | append_singleton inputs input ih =>
      rw [history_append, run_append]
      exact next _ _ input ih

theorem run_induction {motive : σ → Prop} (state : σ) (start : motive state)
    (next : ∀ present input, motive present → motive (step present input).2) (inputs : List ι) :
    motive (run step state inputs) :=
  history_induction step (motive := fun _ present => motive present) state start
    (fun _ present input h => next present input h) inputs

/-- Amortized counting: where every counted step is paid for out of a budget that no step
raises, a run holds at most as many of them as the budget it started with. -/
theorem countP_history_add_le {counted : Event σ ι ο → Bool} (budget : σ → ℕ)
    (pays : ∀ state input, (counted (event step state input)).toNat
      + budget (step state input).2 ≤ budget state) (state : σ) (inputs : List ι) :
    (history step state inputs).countP counted + budget (run step state inputs)
      ≤ budget state := by
  induction inputs generalizing state with
  | nil => simp
  | cons input inputs ih =>
      have hfirst := pays state input
      have hrest := ih (step state input).2
      rw [history_cons, run_cons, List.countP_cons]
      cases hcounted : counted (event step state input) <;> simp [hcounted] at hfirst ⊢ <;> omega

/-- Some inputs lead from the state to the goal. -/
def CanReach (goal : σ → Prop) (state : σ) : Prop := ∃ inputs, goal (run step state inputs)

variable {step} in
theorem CanReach.here {goal : σ → Prop} {state : σ} (h : goal state) : CanReach step goal state :=
  ⟨[], h⟩

variable {step} in
theorem CanReach.next {goal : σ → Prop} {state : σ} (input : ι)
    (h : CanReach step goal (step state input).2) : CanReach step goal state := by
  obtain ⟨inputs, hgoal⟩ := h
  exact ⟨input :: inputs, hgoal⟩

/-- A set of states that no step leaves keeps every run away from a goal outside it. -/
theorem not_canReach_of_trap {goal : σ → Prop} (trap : σ → Prop)
    (closed : ∀ state input, trap state → trap (step state input).2)
    (outside : ∀ state, trap state → ¬ goal state) {state : σ} (h : trap state) :
    ¬ CanReach step goal state := by
  rintro ⟨inputs, hgoal⟩
  exact outside _ (run_induction step state h closed inputs) hgoal

/-- Every event was recorded at the state its predecessors lead to. -/
theorem history_eq_append_cons {state : σ} {inputs : List ι} {past future : List (Event σ ι ο)}
    {now : Event σ ι ο} (h : history step state inputs = past ++ now :: future) :
    ∃ xs x ys, inputs = xs ++ x :: ys ∧ past = history step state xs ∧
      now = event step (run step state xs) x ∧ future = history step now.after ys := by
  induction past generalizing state inputs with
  | nil =>
      cases inputs with
      | nil => simp at h
      | cons x ys =>
          simp only [history_cons, List.nil_append, List.cons.injEq] at h
          obtain ⟨rfl, rfl⟩ := h
          exact ⟨[], x, ys, rfl, rfl, rfl, rfl⟩
  | cons first past ih =>
      cases inputs with
      | nil => simp at h
      | cons input inputs =>
          simp only [history_cons, List.cons_append, List.cons.injEq] at h
          obtain ⟨rfl, hrest⟩ := h
          obtain ⟨xs, x, ys, rfl, rfl, rfl, rfl⟩ := ih hrest
          exact ⟨input :: xs, x, ys, rfl, rfl, rfl, rfl⟩

theorem mem_history {state : σ} {inputs : List ι} {now : Event σ ι ο}
    (h : now ∈ history step state inputs) :
    ∃ xs x ys, inputs = xs ++ x :: ys ∧ now = event step (run step state xs) x := by
  obtain ⟨past, future, hsplit⟩ := List.append_of_mem h
  obtain ⟨xs, x, ys, hinputs, -, hnow, -⟩ := history_eq_append_cons step hsplit
  exact ⟨xs, x, ys, hinputs, hnow⟩

end Runs

/-- Where an element of an extended past stands: at its end, or in the past. -/
theorem concat_eq_append_cons {α : Type*} {past before after : List α} {now e : α}
    (h : past ++ [now] = before ++ e :: after) :
    (before = past ∧ e = now ∧ after = []) ∨
      ∃ middle, after = middle ++ [now] ∧ past = before ++ e :: middle := by
  cases after using List.reverseRecOn with
  | nil =>
      obtain ⟨hpast, hnow⟩ := List.append_inj' h rfl
      exact .inl ⟨hpast.symm, (List.singleton_inj.mp hnow).symm, rfl⟩
  | append_singleton middle last =>
      rw [← List.cons_append, ← List.append_assoc] at h
      obtain ⟨hpast, hnow⟩ := List.append_inj' h rfl
      exact .inr ⟨middle, by rw [List.singleton_inj.mp hnow], hpast⟩

/-- A component: the inputs it is shown, the part of the state it owns, and its
own step, which the whole follows as long as `Inv` holds. -/
structure Component {σ ι ο τ κ : Type*} (step : σ → ι → ο × σ) (cstep : τ → κ → ο × τ) where
  Inv : σ → Prop
  view : σ → τ
  select : ι → Option κ
  inv_step : ∀ state input, Inv state → Inv (step state input).2
  selected : ∀ state input shown, Inv state → select input = some shown →
    (step state input).1 = (cstep (view state) shown).1 ∧
      view (step state input).2 = (cstep (view state) shown).2
  skipped : ∀ state input, Inv state → select input = none →
    view (step state input).2 = view state

namespace Component
variable {σ ι ο τ κ : Type*} {step : σ → ι → ο × σ} {cstep : τ → κ → ο × τ}
  (component : Component step cstep)

def project (e : Event σ ι ο) : Option (Event τ κ ο) :=
  (component.select e.input).map
    (fun shown => ⟨component.view e.before, shown, e.output, component.view e.after⟩)

theorem view_run {state : σ} (h : component.Inv state) (inputs : List ι) :
    component.view (run step state inputs)
      = run cstep (component.view state) (inputs.filterMap component.select) := by
  induction inputs generalizing state with
  | nil => rfl
  | cons input inputs ih =>
      rw [run_cons, ih (component.inv_step state input h)]
      cases hselect : component.select input with
      | none =>
          rw [List.filterMap_cons_none hselect, component.skipped state input h hselect]
      | some shown =>
          rw [List.filterMap_cons_some hselect, run_cons,
            (component.selected state input shown h hselect).2]

/-- A run of the component is a run of the machine on inputs that are all shown to it. -/
theorem view_run_map {state : σ} (h : component.Inv state) {lift : κ → ι}
    (shown : ∀ input, component.select (lift input) = some input) (inputs : List κ) :
    component.view (run step state (inputs.map lift))
      = run cstep (component.view state) inputs := by
  have hselect : (inputs.map lift).filterMap component.select = inputs := by
    rw [List.filterMap_map]
    exact (List.filterMap_congr (fun input _ => shown input)).trans List.filterMap_some
  rw [component.view_run h, hselect]

/-- The component's record of a run is its own history on the inputs it saw. -/
theorem project_history {state : σ} (h : component.Inv state) (inputs : List ι) :
    (history step state inputs).filterMap component.project
      = history cstep (component.view state) (inputs.filterMap component.select) := by
  induction inputs generalizing state with
  | nil => rfl
  | cons input inputs ih =>
      have hrest := ih (component.inv_step state input h)
      cases hselect : component.select input with
      | none =>
          have hproject : component.project (event step state input) = none := by
            simp [project, event, hselect]
          rw [history_cons, List.filterMap_cons_none hproject, hrest,
            List.filterMap_cons_none hselect, component.skipped state input h hselect]
      | some shown =>
          obtain ⟨houtput, hview⟩ := component.selected state input shown h hselect
          have hproject : component.project (event step state input)
              = some (event cstep (component.view state) shown) := by
            simp [project, event, hselect, houtput, hview]
          rw [history_cons, List.filterMap_cons_some hproject, hrest,
            List.filterMap_cons_some hselect, history_cons, hview]

/-- What the machine answered, where the component was asked. -/
def answer (e : Event σ ι ο) : Option ο :=
  (component.select e.input).map (fun _ => e.output)

theorem answers_history {state : σ} (h : component.Inv state) (inputs : List ι) :
    (history step state inputs).filterMap component.answer
      = (history cstep (component.view state) (inputs.filterMap component.select)).map
          Event.output := by
  rw [← component.project_history h, List.map_filterMap]
  refine congrFun (congrArg List.filterMap ?_) _
  funext e
  simp [answer, project, Function.comp_def]

/-- Runs that show a component the same inputs answer it alike and leave it in one
state, whatever else they hold. -/
theorem noninterference {state : σ} (h : component.Inv state) {inputs inputs' : List ι}
    (shown : inputs.filterMap component.select = inputs'.filterMap component.select) :
    (history step state inputs).filterMap component.answer
        = (history step state inputs').filterMap component.answer ∧
      component.view (run step state inputs) = component.view (run step state inputs') := by
  constructor
  · rw [component.answers_history h, component.answers_history h, shown]
  · rw [component.view_run h, component.view_run h, shown]

end Component

end Machine
