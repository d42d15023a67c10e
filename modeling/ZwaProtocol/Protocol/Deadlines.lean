import ZwaProtocol.Protocol.SettlementActive
import ZwaProtocol.Protocol.ClockedWords

/-!
Until when a trade can be settled. From the present reading of the clock on, some calls
consume a stored trade exactly when a condition on its record holds; the condition is
lost for good when the clock passes the expiry of a trade that was not submitted by then.
-/
namespace ZwaProtocol
open Machine

/-- What a record needs for its trade to be settled from this reading on. -/
def TradeRecord.settleable (maxRetries : UInt32) (clock : UnixSeconds) (record : TradeRecord) :
    Bool :=
  match record.state with
  | .created | .verified | .settlementConstructed => !record.intent.isExpiredAt clock
  | .submitted | .confirmed => true
  | .failed => !record.intent.isExpiredAt clock && decide (record.retryCount < maxRetries)
  | .consumed | .expired => false

theorem TradeIntent.isExpiredAt_mono {intent : TradeIntent} {clock now : UnixSeconds}
    (h : clock.get ≤ now.get) (expired : intent.isExpiredAt clock = true) :
    intent.isExpiredAt now = true :=
  isExpiredAt_eq_true.mpr (UInt64.lt_of_lt_of_le (isExpiredAt_eq_true.mp expired) h)

section Table
variable {maxRetries : UInt32} {commitment : TradeCommitment} {record : TradeRecord}
  {clock : UnixSeconds}

/-- Step lemma: no call at the present reading or later makes a trade settleable again, or
consumes one that is not. -/
theorem Transition.unsettleable {operation : Operation} {result : Result TradeRecord}
    {entry : Option TradeRecord}
    (step : Transition maxRetries commitment (some record) operation result entry)
    (unsettleable : record.settleable maxRetries clock = false)
    (present : ∀ now, operation.reading = some now → clock.get ≤ now.get) :
    (∃ next, entry = some next ∧ next.settleable maxRetries clock = false) ∧
      (result.isOk = true → operation ≠ .consume) := by
  cases step with
  | verified source live _ | acquired source live _ | submitted source live _ =>
      have helapsed : record.intent.isExpiredAt clock = true := by
        simpa [TradeRecord.settleable, source] using unsettleable
      rw [TradeIntent.isExpiredAt_mono (present _ rfl) helapsed] at live
      cases live
  | confirmed source _ | consumed source _ | failedSubmission source _ =>
      simp [TradeRecord.settleable, source] at unsettleable
  | failed source edit =>
      have helapsed : record.intent.isExpiredAt clock = true := by
        simp only [List.mem_cons, List.not_mem_nil, or_false] at source
        obtain source | source | source := source
        all_goals simpa [TradeRecord.settleable, source] using unsettleable
      subst edit
      exact ⟨⟨_, rfl, by simp [TradeRecord.settleable, helapsed]⟩, fun _ => by simp⟩
  | expired _ _ edit =>
      subst edit
      exact ⟨⟨_, rfl, rfl⟩, fun _ => by simp⟩
  | retried source live budget _ _ =>
      have hlive : record.intent.isExpiredAt clock = false := by
        by_contra helapsed
        rw [TradeIntent.isExpiredAt_mono (present _ rfl) (by simpa using helapsed)] at live
        cases live
      simp [TradeRecord.settleable, source, hlive, budget] at unsettleable
  | elapsed _ _ edit =>
      subst edit
      exact ⟨⟨_, rfl, rfl⟩, fun hok => by simp [Except.isOk, Except.toBool] at hok⟩
  | refused _ =>
      exact ⟨⟨record, rfl, unsettleable⟩, fun hok => by simp [Except.isOk, Except.toBool] at hok⟩

/-- What settles a settleable trade: a retry where it failed, and the work of its attempt. -/
def TradeRecord.settlingWork (clock : UnixSeconds) (record : TradeRecord) : List Operation :=
  if record.state = .failed then .retryAfterFailure record.priorTxid clock :: attemptAt clock
  else remainingWork clock record.state

variable (commitment) in
theorem TradeRecord.retry_settleable (failed : record.state = .failed)
    (settleable : record.settleable maxRetries clock = true) :
    ∃ next, lifecycleStep maxRetries commitment (some record)
        (.retryAfterFailure record.priorTxid clock) = (.ok next, some next) ∧
      next.state = .created ∧ next.intent.isExpiredAt clock = false := by
  obtain ⟨hlive, hbudget⟩ :
      record.intent.isExpiredAt clock = false ∧ record.retryCount < maxRetries := by
    simpa [TradeRecord.settleable, failed] using settleable
  simp [lifecycleStep, advance, unlessElapsed, accept, failed, hlive, UInt32.not_le.mpr hbudget]

theorem mem_successes_cons {operation : Operation} {events : List TradeEvent} (e : TradeEvent)
    (h : operation ∈ successes events) : operation ∈ successes (e :: events) := by
  obtain ⟨f, hf, hsuccess⟩ := List.mem_filterMap.mp h
  exact List.mem_filterMap.mpr ⟨f, List.mem_cons_of_mem _ hf, hsuccess⟩

theorem settlingWork_consumes (settleable : record.settleable maxRetries clock = true) :
    .consume ∈ successes (Machine.history (lifecycleStep maxRetries commitment) (some record)
      (record.settlingWork clock)) := by
  by_cases hfailed : record.state = .failed
  · obtain ⟨next, hretry, hcreated, hlive⟩ :=
      TradeRecord.retry_settleable commitment hfailed settleable
    have hactive : next.state.isSettlementActive = true := by
      rw [hcreated]
      rfl
    have hrest : .consume ∈ successes (Machine.history (lifecycleStep maxRetries commitment)
        (some next) (remainingWork clock next.state)) :=
      remainingWork_consumes hactive (fun _ => hlive)
    rw [hcreated] at hrest
    rw [TradeRecord.settlingWork, if_pos hfailed, history_cons, hretry]
    exact mem_successes_cons _ hrest
  · rw [TradeRecord.settlingWork, if_neg hfailed]
    refine remainingWork_consumes ?_ (fun source => ?_)
    · cases hstate : record.state with
      | failed => exact absurd hstate hfailed
      | consumed | expired => simp [TradeRecord.settleable, hstate] at settleable
      | _ => rfl
    · simp only [List.mem_cons, List.not_mem_nil, or_false] at source
      obtain source | source | source := source
      all_goals simpa [TradeRecord.settleable, source] using settleable

theorem remainingWork_subset (now : UnixSeconds) (state : TradeLifecycleState) :
    remainingWork now state ⊆ attemptAt now := by
  cases state with
  | created => exact List.Subset.refl _
  | verified | settlementConstructed | submitted | confirmed => exact List.drop_subset _ _
  | consumed | expired | failed => exact List.nil_subset _

theorem reading_settlingWork {operation : Operation} (hmem : operation ∈ record.settlingWork clock)
    {now : UnixSeconds} (hreading : operation.reading = some now) : now = clock := by
  have hattempt : operation ∈ attemptAt clock → now = clock := by
    intro hattempt
    simp only [attemptAt, List.mem_cons, List.not_mem_nil, or_false] at hattempt
    obtain rfl | rfl | rfl | rfl | rfl := hattempt <;>
      simp [Operation.reading] at hreading <;> exact hreading.symm
  rw [TradeRecord.settlingWork] at hmem
  split at hmem
  · obtain rfl | hmem := List.mem_cons.mp hmem
    · exact (Option.some.inj hreading).symm
    · exact hattempt hmem
  · exact hattempt (remainingWork_subset _ _ hmem)

end Table

theorem mem_readings {calls : List Call} {now : UnixSeconds} :
    now ∈ readings calls ↔ ∃ call ∈ calls, call.operation.reading = some now :=
  List.mem_filterMap

/-- The deadline of a settlement. Some calls, at the present reading of a clock that does not
go back or later, consume a stored trade exactly when it is submitted or confirmed, or its
expiry is not past and a retry is left if it failed. -/
theorem deadline_exact (store : ReplayStore) (commitment : TradeCommitment)
    (record : TradeRecord) (stored : store.get commitment = some record) (clock : UnixSeconds) :
    (∃ calls, ClockReadings (clock :: readings calls) ∧
      .consume ∈ successesOn commitment (store.history calls)) ↔
    record.settleable store.maxRetries clock = true := by
  constructor
  · rintro ⟨calls, hclock, hconsumed⟩
    by_contra hunsettleable
    rw [store.successesOn_history, stored] at hconsumed
    refine not_consumed_of_trap (fun record => record.settleable store.maxRetries clock = false)
      (fun operation => ∀ now, operation.reading = some now → clock.get ≤ now.get)
      (fun record operation => (lifecycleStep_transition store.maxRetries commitment
        (some record) operation).unsettleable) (Bool.eq_false_of_not_eq_true hunsettleable)
      ?_ hconsumed
    intro operation hoperation now hreading
    exact (List.pairwise_cons.mp hclock).1 now
      (mem_readings.mpr ⟨_, mem_select.mp hoperation, hreading⟩)
  · intro hsettleable
    refine ⟨(record.settlingWork clock).map (Call.mk commitment), ?_, ?_⟩
    · have hpresent : ∀ now ∈ clock :: readings
          ((record.settlingWork clock).map (Call.mk commitment)), now = clock := by
        refine List.forall_mem_cons.mpr ⟨rfl, fun now hnow => ?_⟩
        obtain ⟨call, hcall, hreading⟩ := mem_readings.mp hnow
        obtain ⟨operation, hoperation, rfl⟩ := List.mem_map.mp hcall
        exact reading_settlingWork hoperation hreading
      refine List.pairwise_of_forall_mem_list (fun now hnow later hlater => ?_)
      rw [hpresent now hnow, hpresent later hlater]
      exact UInt64.le_refl _
    · rw [store.successesOn_history, select_map_mk, stored]
      exact settlingWork_consumes hsettleable

/-- A submitted trade can still be settled long after its expiry. -/
theorem deadline_exact_submitted :
    ∃ calls, ClockReadings (⟨100⟩ :: readings calls) ∧
      .consume ∈ successesOn ⟨.zero⟩
        (((ReplayStore.withMaxRetries 0).run
          ((happyPath ⟨.zero⟩ (.blank 10) ⟨.replicate 32 0⟩ ⟨10⟩).take 4)).history calls) :=
  (deadline_exact _ ⟨.zero⟩
    { TradeRecord.created ⟨.zero⟩ (.blank 10) with
      state := .submitted, priorTxid := some ⟨.replicate 32 0⟩ } rfl ⟨100⟩).mpr rfl

end ZwaProtocol
