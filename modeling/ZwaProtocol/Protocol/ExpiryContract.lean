import ZwaProtocol.Protocol.TradeHistory

/-!
The expiry contract. The committed expiry gates every transition that starts new
work, whatever the clocks of the calls; a submitted trade is past the gates and can
always be confirmed and consumed.
-/
namespace ZwaProtocol
open Machine

/-- The clock a caller passes. -/
def Operation.now : Operation → Option UnixSeconds
  | .verify now | .acquireConstruction now | .submit _ now | .expire now
  | .retryAfterFailure _ now => some now
  | _ => none

/-- A change of state that starts new work. -/
def StartsWork (before after : TradeLifecycleState) : Prop :=
  after ∈ [.verified, .settlementConstructed, .submitted] ∨ before = .failed ∧ after = .created

/-- What is in flight may not expire. -/
theorem TradeLifecycleState.not_expirable_of_inFlight :
    ∀ state ∈ [submitted, confirmed],
      state ∉ [created, verified, settlementConstructed, failed] := by decide

section Steps
variable {maxRetries : UInt32} {commitment : TradeCommitment} {record next : TradeRecord}
  {operation : Operation} {result : Result TradeRecord}

/-- A transition that starts work read a clock within the expiry. -/
theorem Transition.startsWork_live
    (step : Transition maxRetries commitment (some record) operation result (some next))
    (changed : record.state ≠ next.state) (work : StartsWork record.state next.state) :
    ∃ now, operation.now = some now ∧ now.get ≤ record.intent.expiry.get := by
  cases step with
  | @verified _ _ now _ live _ | @acquired _ _ now _ live _ | @submitted _ _ _ now _ live _
  | @retried _ _ _ now _ live _ _ _ =>
      exact ⟨now, rfl, TradeIntent.isExpiredAt_eq_false.mp live⟩
  | confirmed _ edit | consumed _ edit | failed _ edit | failedSubmission _ edit
  | expired _ _ edit | elapsed _ _ edit =>
      subst edit
      simp [StartsWork] at work
  | refused _ => exact absurd rfl changed

/-- A transition to `EXPIRED` read a clock past the expiry, in a state that had not
submitted. -/
theorem Transition.expired_elapsed
    (step : Transition maxRetries commitment (some record) operation result (some next))
    (changed : record.state ≠ next.state) (target : next.state = .expired) :
    (∃ now, operation.now = some now ∧ record.intent.expiry.get < now.get) ∧
      record.state ∈ [.created, .verified, .settlementConstructed, .failed] := by
  cases step with
  | @expired _ _ now source elapsed _ =>
      exact ⟨⟨now, rfl, TradeIntent.isExpiredAt_eq_true.mp elapsed⟩, source⟩
  | @elapsed _ _ _ now gated elapsed _ =>
      have hnow := TradeIntent.isExpiredAt_eq_true.mp elapsed
      have hsource := source_of_gated gated
      obtain ⟨-, rfl⟩ | ⟨-, rfl⟩ | ⟨_, -, rfl⟩ | ⟨_, -, rfl⟩ := gated
      all_goals exact ⟨⟨now, rfl, hnow⟩, hsource⟩
  | verified _ _ edit | acquired _ _ edit | submitted _ _ edit | confirmed _ edit
  | consumed _ edit | failed _ edit | failedSubmission _ edit | retried _ _ _ _ edit =>
      subst edit
      simp at target
  | refused _ => exact absurd rfl changed

/-- A call refused on a trade in flight leaves its record. -/
theorem Transition.eq_of_rejected {entry' : Option TradeRecord}
    (inFlight : record.state ∈ [.submitted, .confirmed])
    (step : Transition maxRetries commitment (some record) operation result entry')
    (rejected : result.isOk = false) : entry' = some record := by
  cases step with
  | elapsed gated _ _ =>
      have hsource := source_of_gated gated
      exact absurd hsource (TradeLifecycleState.not_expirable_of_inFlight _ inFlight)
  | refused _ => rfl
  | verified _ _ _ | acquired _ _ _ | submitted _ _ _ | confirmed _ _ | consumed _ _
  | failed _ _ | failedSubmission _ _ | expired _ _ _ | retried _ _ _ _ _ =>
      simp [Except.isOk, Except.toBool] at rejected

end Steps

namespace ReplayStore

/-- A trade in flight outlasts every call it refuses and every call on other trades. -/
theorem run_of_rejected {commitment : TradeCommitment} {record : TradeRecord}
    (inFlight : record.state ∈ [.submitted, .confirmed]) (calls : List Call)
    {store : ReplayStore} (stored : store.get commitment = some record)
    (rejected : ∀ e ∈ store.history calls, e.input.commitment = commitment →
      e.output.isOk = false) :
    (store.run calls).get commitment = some record := by
  induction calls generalizing store with
  | nil => exact stored
  | cons call calls ih =>
      have hfirst := rejected (event apply store call) List.mem_cons_self
      have hrest : ∀ e ∈ (store.apply call).2.history calls, e.input.commitment = commitment →
          e.output.isOk = false := fun e hmem => rejected e (List.mem_cons_of_mem _ hmem)
      refine ih ?_ hrest
      by_cases hkey : call.commitment = commitment
      · obtain ⟨key, operation⟩ := call
        cases hkey
        have hstep := store.apply_transition key operation
        rw [stored] at hstep
        exact hstep.eq_of_rejected inFlight (hfirst rfl)
      · rw [store.apply_get_of_ne hkey, stored]

/-- A call answers with the record that the transition accepts, and stores it. -/
theorem apply_of_accept {store : ReplayStore} {commitment : TradeCommitment}
    {record next : TradeRecord} {operation : Operation}
    (stored : store.get commitment = some record)
    (accepted : record.advance store.maxRetries operation = next.accept) :
    (store.apply ⟨commitment, operation⟩).1 = .ok next ∧
      (store.apply ⟨commitment, operation⟩).2.get commitment = some next := by
  have hstep := store.apply_refines commitment operation
  rw [stored] at hstep
  simp only [lifecycleStep, accepted, TradeRecord.accept] at hstep
  exact Prod.mk.inj hstep

/-- A submitted trade is confirmed, whatever the time. -/
theorem confirm_of_submitted {store : ReplayStore} {commitment : TradeCommitment}
    {record : TradeRecord} (stored : store.get commitment = some record)
    (source : record.state = .submitted) :
    (store.confirm commitment).1 = .ok { record with state := .confirmed } ∧
      (store.confirm commitment).2.get commitment =
        some { record with state := .confirmed } := by
  have accepted : record.advance store.maxRetries .confirm
      = ({ record with state := .confirmed } : TradeRecord).accept := by
    simp only [TradeRecord.advance, source]
  exact apply_of_accept stored accepted

/-- A confirmed trade is consumed, whatever the time. -/
theorem consume_of_confirmed {store : ReplayStore} {commitment : TradeCommitment}
    {record : TradeRecord} (stored : store.get commitment = some record)
    (source : record.state = .confirmed) :
    (store.consume commitment).1 = .ok { record with state := .consumed } ∧
      (store.consume commitment).2.get commitment =
        some { record with state := .consumed } := by
  have accepted : record.advance store.maxRetries .consume
      = ({ record with state := .consumed } : TradeRecord).accept := by
    simp only [TradeRecord.advance, source]
  exact apply_of_accept stored accepted

end ReplayStore

/-- The expiry contract, over every run and any clocks. A call that starts work on a
trade read a clock within the expiry of its stored intent; a call that expired it read
one past the expiry and found it created, verified, constructed or failed. Once
submitted, a trade is confirmed and consumed whatever has been refused in between, and
its record changes in its state alone. -/
theorem expiry_contract (store : ReplayStore) (calls : List Call) (commitment : TradeCommitment) :
    (∀ e ∈ store.history calls, ∀ before after : TradeRecord,
      e.before.get commitment = some before → e.after.get commitment = some after →
      before.state ≠ after.state →
      (StartsWork before.state after.state →
        ∃ now, e.input.operation.now = some now ∧ now.get ≤ before.intent.expiry.get) ∧
      (after.state = .expired →
        (∃ now, e.input.operation.now = some now ∧ before.intent.expiry.get < now.get) ∧
        before.state ∈ [.created, .verified, .settlementConstructed, .failed]) ∧
      (before.state ∈ [.submitted, .confirmed] → after.state ≠ .expired)) ∧
    ∀ record, (store.run calls).get commitment = some record → record.state = .submitted →
      ∀ waiting later : List Call,
        (∀ e ∈ (store.run calls).history waiting, e.input.commitment = commitment →
          e.output.isOk = false) →
        let confirmation := ((store.run calls).run waiting).confirm commitment
        confirmation.1.isOk = true ∧
          confirmation.2.get commitment = some { record with state := .confirmed } ∧
          ((∀ e ∈ confirmation.2.history later, e.input.commitment = commitment →
              e.output.isOk = false) →
            let consumption := (confirmation.2.run later).consume commitment
            consumption.1.isOk = true ∧
              consumption.2.get commitment = some { record with state := .consumed }) := by
  constructor
  · intro e hmem before after hbefore hafter hchanged
    have hkey : e.input.commitment = commitment := by
      refine ReplayStore.history_frame hmem ?_
      have hne : e.before.get commitment ≠ e.after.get commitment := by
        rw [hbefore, hafter]
        intro heq
        exact hchanged (congrArg TradeRecord.state (Option.some.inj heq))
      simpa [StoreEvent.changes] using hne
    have hstep := ReplayStore.transition_of_mem hmem
    rw [hkey, hbefore, hafter] at hstep
    refine ⟨hstep.startsWork_live hchanged, hstep.expired_elapsed hchanged, ?_⟩
    intro inFlight target
    have hsource := (hstep.expired_elapsed hchanged target).2
    exact TradeLifecycleState.not_expirable_of_inFlight _ inFlight hsource
  · intro record hstored hsubmitted waiting later hwaiting confirmation
    have hkept := ReplayStore.run_of_rejected (by simp [hsubmitted]) waiting hstored hwaiting
    obtain ⟨hconfirmed, hafter⟩ := ReplayStore.confirm_of_submitted hkept hsubmitted
    refine ⟨by rw [hconfirmed]; rfl, hafter, ?_⟩
    intro hlater consumption
    have hreached := ReplayStore.run_of_rejected (by simp) later hafter hlater
    obtain ⟨hconsumed, hsettled⟩ := ReplayStore.consume_of_confirmed hreached rfl
    exact ⟨by rw [hconsumed]; rfl, hsettled⟩

def submittedInTime : List Call :=
  [.create (.blank 10), .verify ⟨1⟩, .acquireConstruction ⟨10⟩,
    .submit ⟨.replicate 32 0⟩ ⟨10⟩].map (Call.mk ⟨.zero⟩)

/-- Long past the expiry the trade cannot be expired, neither before its confirmation nor
after it, and it is consumed with the record it was submitted with. -/
theorem expiry_contract_submittedInTime :
    let store := (ReplayStore.withMaxRetries 0).run submittedInTime
    let confirmation := (store.run [⟨⟨.zero⟩, .expire ⟨1000⟩⟩]).confirm ⟨.zero⟩
    let consumption :=
      (confirmation.2.run [⟨⟨.zero⟩, .expire ⟨2000⟩⟩, ⟨⟨.zero⟩, .verify ⟨5⟩⟩]).consume ⟨.zero⟩
    confirmation.1.isOk = true ∧ consumption.1.isOk = true ∧
      consumption.2.get ⟨.zero⟩ =
        (store.get ⟨.zero⟩).map fun record => { record with state := .consumed } := by
  intro store confirmation consumption
  have hstored := ReplayStore.get_run 0 ⟨.zero⟩ submittedInTime
  obtain ⟨hconfirmed, -, hconsumed⟩ := (expiry_contract (.withMaxRetries 0) submittedInTime
    ⟨.zero⟩).2 _ hstored rfl [⟨⟨.zero⟩, .expire ⟨1000⟩⟩]
    [⟨⟨.zero⟩, .expire ⟨2000⟩⟩, ⟨⟨.zero⟩, .verify ⟨5⟩⟩]
    (fun e hmem _ => by rw [List.mem_singleton.mp hmem]; rfl)
  obtain ⟨hok, hsettled⟩ := hconsumed fun e hmem _ => by
    obtain rfl | rfl := List.mem_pair.mp hmem <;> rfl
  have hsubmitted : store.get ⟨.zero⟩ = some _ := hstored
  refine ⟨hconfirmed, hok, ?_⟩
  rw [hsubmitted]
  exact hsettled

end ZwaProtocol
