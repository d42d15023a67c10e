import ZwaProtocol.Protocol.DeadEnds
import ZwaProtocol.Protocol.TradeHistory

/-!
What it means for a trade to be settlement-active: the work of its present attempt can
still consume it. A trade that is not needs a retry first, or nothing helps.
-/
namespace ZwaProtocol
open Machine

section Table
variable {maxRetries : UInt32} {commitment : TradeCommitment} {record : TradeRecord}

/-- Step lemma: without a retry an inactive trade stays inactive and is not consumed. -/
theorem Transition.inactive {operation : Operation} {result : Result TradeRecord}
    {entry : Option TradeRecord}
    (step : Transition maxRetries commitment (some record) operation result entry)
    (inactive : record.state.isSettlementActive = false) (other : operation.attempted ≠ .retry) :
    (∃ next, entry = some next ∧ next.state.isSettlementActive = false) ∧
      (result.isOk = true → operation ≠ .consume) := by
  cases step with
  | verified source _ _ | acquired source _ _ | submitted source _ _ | confirmed source _
  | consumed source _ | failedSubmission source _ =>
      rw [source] at inactive
      simp [TradeLifecycleState.isSettlementActive] at inactive
  | failed source _ =>
      simp only [List.mem_cons, List.not_mem_nil, or_false] at source
      obtain source | source | source := source
      all_goals
        rw [source] at inactive
        simp [TradeLifecycleState.isSettlementActive] at inactive
  | retried _ _ _ _ _ => exact absurd rfl other
  | expired _ _ edit =>
      subst edit
      exact ⟨⟨_, rfl, rfl⟩, fun _ => by simp⟩
  | elapsed _ _ edit =>
      subst edit
      exact ⟨⟨_, rfl, rfl⟩, fun hok => by simp [Except.isOk, Except.toBool] at hok⟩
  | refused _ =>
      exact ⟨⟨record, rfl, inactive⟩, fun hok => by simp [Except.isOk, Except.toBool] at hok⟩

/-- Run lemma, by induction on the operations: records that no allowed operation brings out
of a trap, or consumes, are never consumed. -/
theorem not_consumed_of_trap (trap : TradeRecord → Prop) (allowed : Operation → Prop)
    (closed : ∀ record operation, trap record → allowed operation →
      (∃ next, (lifecycleStep maxRetries commitment (some record) operation).2 = some next ∧
        trap next) ∧
      ((lifecycleStep maxRetries commitment (some record) operation).1.isOk = true →
        operation ≠ .consume))
    (trapped : trap record) {operations : List Operation}
    (all : ∀ operation ∈ operations, allowed operation) :
    .consume ∉ successes
      (Machine.history (lifecycleStep maxRetries commitment) (some record) operations) := by
  induction operations generalizing record with
  | nil => simp
  | cons operation operations ih =>
      obtain ⟨⟨next, hnext, htrap⟩, hconsume⟩ :=
        closed record operation trapped (all operation List.mem_cons_self)
      have hrest := ih htrap (fun later hlater => all later (List.mem_cons_of_mem _ hlater))
      rw [← hnext] at hrest
      intro hmem
      obtain ⟨e, he, hsuccess⟩ := List.mem_filterMap.mp hmem
      obtain rfl | he := List.mem_cons.mp he
      · rw [TradeEvent.success] at hsuccess
        split at hsuccess
        · next hok => exact hconsume hok (Option.some.inj hsuccess)
        · simp at hsuccess
      · exact hrest (List.mem_filterMap.mpr ⟨e, he, hsuccess⟩)

theorem not_consumed_of_inactive (inactive : record.state.isSettlementActive = false)
    {operations : List Operation} (other : ∀ operation ∈ operations, operation.attempted ≠ .retry) :
    .consume ∉ successes
      (Machine.history (lifecycleStep maxRetries commitment) (some record) operations) :=
  not_consumed_of_trap (fun record => record.state.isSettlementActive = false)
    (fun operation => operation.attempted ≠ .retry)
    (fun record operation => (lifecycleStep_transition maxRetries commitment (some record)
      operation).inactive) inactive other

/-- One attempt from verification to consumption, at one reading of the clock. -/
def attemptAt (now : UnixSeconds) : List Operation :=
  [.verify now, .acquireConstruction now, .submit ⟨.replicate 32 0⟩ now, .confirm, .consume]

/-- What is left of it. -/
def remainingWork (now : UnixSeconds) : TradeLifecycleState → List Operation
  | .created => attemptAt now
  | .verified => (attemptAt now).drop 1
  | .settlementConstructed => (attemptAt now).drop 2
  | .submitted => (attemptAt now).drop 3
  | .confirmed => (attemptAt now).drop 4
  | .consumed | .expired | .failed => []

theorem remainingWork_no_retry (now : UnixSeconds) (state : TradeLifecycleState) :
    ∀ operation ∈ remainingWork now state, operation.attempted ≠ .retry := by
  cases state <;> simp [remainingWork, attemptAt, Operation.attempted]

theorem remainingWork_consumes {now : UnixSeconds}
    (active : record.state.isSettlementActive = true)
    (live : record.state ∈ [.created, .verified, .settlementConstructed] →
      record.intent.isExpiredAt now = false) :
    .consume ∈ successes (Machine.history (lifecycleStep maxRetries commitment) (some record)
      (remainingWork now record.state)) := by
  cases hstate : record.state with
  | created | verified | settlementConstructed =>
      have hlive := live (by simp [hstate])
      simp [remainingWork, attemptAt, successes, TradeEvent.success, event, lifecycleStep,
        TradeRecord.advance, TradeRecord.unlessElapsed, TradeRecord.accept, hlive, hstate,
        Except.isOk, Except.toBool]
  | submitted | confirmed =>
      simp [remainingWork, attemptAt, successes, TradeEvent.success, event, lifecycleStep,
        TradeRecord.advance, TradeRecord.accept, hstate, Except.isOk, Except.toBool]
  | consumed | expired | failed =>
      rw [hstate] at active
      simp [TradeLifecycleState.isSettlementActive] at active

end Table

theorem ReplayStore.successesOn_history (store : ReplayStore) (commitment : TradeCommitment)
    (calls : List Call) :
    successesOn commitment (store.history calls)
      = successes (Machine.history (lifecycleStep store.maxRetries commitment)
          (store.get commitment)
          (calls.filterMap (tradeAt store.maxRetries commitment).select)) := by
  have hinv : (tradeAt store.maxRetries commitment).Inv store := rfl
  have hhistory := (tradeAt store.maxRetries commitment).project_history hinv calls
  rw [← successes_tradeEvents store.maxRetries commitment, tradeEvents]
  exact congrArg successes hhistory

section Selection
variable {maxRetries : UInt32} {commitment : TradeCommitment}

theorem select_map_mk (operations : List Operation) :
    (operations.map (Call.mk commitment)).filterMap (tradeAt maxRetries commitment).select
      = operations := by
  rw [List.filterMap_map]
  exact (List.filterMap_congr (fun _ _ => if_pos rfl)).trans List.filterMap_some

theorem mem_select {calls : List Call} {operation : Operation} :
    operation ∈ calls.filterMap (tradeAt maxRetries commitment).select
      ↔ ⟨commitment, operation⟩ ∈ calls := by
  constructor
  · intro hmem
    obtain ⟨⟨key, shown⟩, hcall, hselect⟩ := List.mem_filterMap.mp hmem
    obtain ⟨rfl, rfl⟩ : key = commitment ∧ shown = operation := by
      simpa [tradeAt] using hselect
    exact hcall
  · exact fun hmem => List.mem_filterMap.mpr ⟨_, hmem, if_pos rfl⟩

end Selection

/-- Settlement-active means what its name says. A stored trade is active exactly when some
calls, on any trades and with no retry of this one among them, consume it; so a failed
trade is consumed through a retry only, and an expired or consumed one never again. -/
theorem settlement_active_iff (store : ReplayStore) (commitment : TradeCommitment)
    (record : TradeRecord) (stored : store.get commitment = some record) :
    record.state.isSettlementActive = true ↔
      ∃ calls : List Call,
        (∀ call ∈ calls, call.commitment = commitment → call.operation.attempted ≠ .retry) ∧
        .consume ∈ successesOn commitment (store.history calls) := by
  constructor
  · intro active
    refine ⟨(remainingWork ⟨0⟩ record.state).map (Call.mk commitment), ?_, ?_⟩
    · intro call hcall _
      obtain ⟨operation, hoperation, rfl⟩ := List.mem_map.mp hcall
      exact remainingWork_no_retry ⟨0⟩ record.state operation hoperation
    · rw [store.successesOn_history, select_map_mk, stored]
      exact remainingWork_consumes active (fun _ => record.intent.isExpiredAt_zero)
  · rintro ⟨calls, hcalls, hconsumed⟩
    by_contra hinactive
    rw [store.successesOn_history, stored] at hconsumed
    refine not_consumed_of_inactive (Bool.eq_false_of_not_eq_true hinactive) ?_ hconsumed
    intro operation hoperation
    exact hcalls _ (mem_select.mp hoperation) rfl

/-- A submitted trade is active, however late it is. -/
theorem settlement_active_iff_submitted :
    ∃ calls : List Call,
      (∀ call ∈ calls, call.commitment = ⟨.zero⟩ → call.operation.attempted ≠ .retry) ∧
      .consume ∈ successesOn ⟨.zero⟩
        (((ReplayStore.withMaxRetries 0).run
          ((happyPath ⟨.zero⟩ (.blank 10) ⟨.replicate 32 0⟩ ⟨10⟩).take 4)).history calls) :=
  (settlement_active_iff _ ⟨.zero⟩
    { TradeRecord.created ⟨.zero⟩ (.blank 10) with
      state := .submitted, priorTxid := some ⟨.replicate 32 0⟩ } rfl).mp rfl

end ZwaProtocol
