import ZwaProtocol.Protocol.ConstructionLock

/-!
The representation invariant of the store. A record is the one its creation made,
its counter is the number of retries, and its fields agree with its state.
-/
namespace ZwaProtocol
open Machine

/-- The record was stored by a creation under this key, and its consumptions are
counted by its state. -/
structure Recorded (commitment : TradeCommitment) (past : List Operation) (record : TradeRecord) :
    Prop where
  key : record.commitment = commitment
  creation : .create record.intent ∈ past
  consumptions : past.count .consume = if record.state = .consumed then 1 else 0

def RecordedEntry (commitment : TradeCommitment) (past : List Operation) :
    Option TradeRecord → Prop
  | none => past = []
  | some record => Recorded commitment past record

section Recorded
variable {commitment : TradeCommitment} {past : List Operation} {record next : TradeRecord}

/-- A success other than the consumption. -/
theorem Recorded.concat {operation : Operation} (h : Recorded commitment past record)
    (key : next.commitment = record.commitment) (intent : next.intent = record.intent)
    (other : operation ≠ .consume) (source : record.state ≠ .consumed)
    (target : next.state ≠ .consumed) : Recorded commitment (past ++ [operation]) next := by
  have hcount : [operation].count .consume = 0 :=
    List.count_eq_zero.mpr (by simpa using other.symm)
  refine ⟨key.trans h.key, ?_, ?_⟩
  · rw [intent]
    exact List.mem_append_left _ h.creation
  · rw [List.count_append, hcount, h.consumptions, if_neg source, if_neg target]

theorem Recorded.consume (h : Recorded commitment past record) (source : record.state = .confirmed)
    (edit : next = { record with state := .consumed }) :
    Recorded commitment (past ++ [.consume]) next := by
  subst edit
  refine ⟨h.key, List.mem_append_left _ h.creation, ?_⟩
  rw [List.count_append, h.consumptions, source]
  simp

theorem Recorded.expire (h : Recorded commitment past record) (source : record.state ≠ .consumed) :
    Recorded commitment past { record with state := .expired } := by
  refine ⟨h.key, h.creation, ?_⟩
  rw [h.consumptions, if_neg source, if_neg (by simp)]

end Recorded

/-- Step lemma: records are never re-keyed and keep their intent. -/
theorem Transition.recorded {maxRetries : UInt32} {commitment : TradeCommitment}
    {past : List TradeEvent} {entry entry' : Option TradeRecord} {operation : Operation}
    {result : Result TradeRecord} (h : RecordedEntry commitment (successes past) entry)
    (step : Transition maxRetries commitment entry operation result entry') :
    RecordedEntry commitment (successes (past ++ [⟨entry, operation, result, entry'⟩])) entry' := by
  cases step with
  | created intent =>
      have hpast : successes past = [] := h
      rw [successes_concat_ok, hpast]
      exact ⟨rfl, by simp [TradeRecord.created], by simp [TradeRecord.created]⟩
  | consumed source edit =>
      rw [successes_concat_ok]
      exact Recorded.consume h source edit
  | verified source _ edit | acquired source _ edit | submitted source _ edit
  | confirmed source edit | failedSubmission source edit | retried source _ _ _ edit =>
      rw [successes_concat_ok]
      exact Recorded.concat h (by rw [edit]) (by rw [edit]) (by simp) (by simp [source])
        (by simp [edit])
  | failed source edit | expired source _ edit =>
      rw [successes_concat_ok]
      exact Recorded.concat h (by rw [edit]) (by rw [edit]) (by simp)
        (fun hstate => by simp [hstate] at source) (by simp [edit])
  | elapsed gated _ edit =>
      rw [successes_concat_error, edit]
      exact Recorded.expire h (fun hstate => by simp [hstate] at gated)
  | refused _ =>
      rw [successes_concat_error]
      exact h

theorem recorded_run (maxRetries : UInt32) (commitment : TradeCommitment) (calls : List Call) :
    RecordedEntry commitment
      (successesOn commitment ((ReplayStore.withMaxRetries maxRetries).history calls))
      (((ReplayStore.withMaxRetries maxRetries).run calls).get commitment) := by
  rw [← successes_tradeEvents maxRetries commitment]
  exact replay_induction
    (motive := fun past entry => RecordedEntry commitment (successes past) entry)
    rfl (fun _ _ _ _ _ h step => step.recorded h) calls

/-- A trade is consumed at most once in a run. -/
theorem count_consume_le_one (maxRetries : UInt32) (commitment : TradeCommitment)
    (calls : List Call) :
    (successesOn commitment ((ReplayStore.withMaxRetries maxRetries).history calls)).count .consume
      ≤ 1 := by
  have hrecorded := recorded_run maxRetries commitment calls
  cases hentry : ((ReplayStore.withMaxRetries maxRetries).run calls).get commitment with
  | none =>
      rw [hentry] at hrecorded
      have hnone : successesOn commitment
          ((ReplayStore.withMaxRetries maxRetries).history calls) = [] := hrecorded
      simp [hnone]
  | some record =>
      rw [hentry] at hrecorded
      have hcount := hrecorded.consumptions
      split at hcount
      · exact hcount.le
      · exact hcount.le.trans (Nat.zero_le 1)

/-- The one creation of a trade stored its intent. -/
def CreatedOnce (past : List Operation) : Option TradeRecord → Prop
  | none => past = []
  | some record =>
      past.filter (fun operation => operation.attempted = .create) = [.create record.intent]

theorem CreatedOnce.concat {past : List Operation} {record next : TradeRecord}
    {operation : Operation} (h : CreatedOnce past (some record))
    (other : operation.attempted ≠ .create) (intent : next.intent = record.intent) :
    CreatedOnce (past ++ [operation]) (some next) := by
  have hpast : past.filter _ = [.create record.intent] := h
  change List.filter _ _ = _
  rw [List.filter_append, hpast, intent]
  simp [other]

theorem Transition.createdOnce {maxRetries : UInt32} {commitment : TradeCommitment}
    {past : List TradeEvent} {entry entry' : Option TradeRecord} {operation : Operation}
    {result : Result TradeRecord} (h : CreatedOnce (successes past) entry)
    (step : Transition maxRetries commitment entry operation result entry') :
    CreatedOnce (successes (past ++ [⟨entry, operation, result, entry'⟩])) entry' := by
  cases step with
  | created intent =>
      have hpast : successes past = [] := h
      rw [successes_concat_ok, hpast]
      rfl
  | verified _ _ edit | acquired _ _ edit | submitted _ _ edit | confirmed _ edit
  | consumed _ edit | failed _ edit | failedSubmission _ edit | expired _ _ edit
  | retried _ _ _ _ edit =>
      rw [successes_concat_ok]
      exact CreatedOnce.concat h (by simp [Operation.attempted]) (by rw [edit])
  | elapsed _ _ edit =>
      rw [successes_concat_error, edit]
      exact h
  | refused _ =>
      rw [successes_concat_error]
      exact h

/-- What the state of a record says about its identifier and its reason. -/
structure TradeRecord.Consistent (record : TradeRecord) : Prop where
  fresh : record.state ∈ [.created, .verified, .settlementConstructed] →
    record.priorTxid = none ∧ record.failureReason = none
  inFlight : record.state ∈ [.submitted, .confirmed, .consumed] →
    record.priorTxid.isSome = true ∧ record.failureReason = none
  failed : record.state = .failed → record.failureReason.isSome = true
  expired : record.state = .expired → record.priorTxid.isSome = true →
    record.failureReason.isSome = true

def ConsistentEntry : Option TradeRecord → Prop
  | none => True
  | some record => record.Consistent

/-- Expiry touches the state alone: the identifier of a failed attempt stays, with the
reason it failed for. -/
theorem TradeRecord.Consistent.expire {record : TradeRecord} (h : record.Consistent)
    (source : record.state ∈ [.created, .verified, .settlementConstructed, .failed]) :
    TradeRecord.Consistent { record with state := .expired } := by
  refine ⟨by simp, by simp, by simp, ?_⟩
  intro _ (submitted : record.priorTxid.isSome = true)
  by_cases hfailed : record.state = .failed
  · exact h.failed hfailed
  · have hfresh := (h.fresh (by simpa [hfailed] using source)).1
    simp [hfresh] at submitted

/-- Step lemma: every transition leaves a consistent record. -/
theorem Transition.consistent {maxRetries : UInt32} {commitment : TradeCommitment}
    {entry entry' : Option TradeRecord} {operation : Operation} {result : Result TradeRecord}
    (h : ConsistentEntry entry)
    (step : Transition maxRetries commitment entry operation result entry') :
    ConsistentEntry entry' := by
  cases step with
  | created intent => exact ⟨fun _ => ⟨rfl, rfl⟩, by simp [TradeRecord.created],
      by simp [TradeRecord.created], by simp [TradeRecord.created]⟩
  | verified source _ edit =>
      subst edit
      have hfresh := h.fresh (by simp [source])
      exact ⟨fun _ => ⟨hfresh.1, rfl⟩, by simp, by simp, by simp⟩
  | acquired source _ edit =>
      subst edit
      exact ⟨fun _ => h.fresh (by simp [source]), by simp, by simp, by simp⟩
  | submitted source _ edit =>
      subst edit
      have hfresh := h.fresh (by simp [source])
      exact ⟨by simp, fun _ => ⟨rfl, hfresh.2⟩, by simp, by simp⟩
  | confirmed source edit | consumed source edit =>
      subst edit
      exact ⟨by simp, fun _ => h.inFlight (by simp [source]), by simp, by simp⟩
  | failed _ edit | failedSubmission _ edit =>
      subst edit
      exact ⟨by simp, by simp, fun _ => rfl, by simp⟩
  | retried _ _ _ _ edit =>
      subst edit
      exact ⟨fun _ => ⟨rfl, rfl⟩, by simp, by simp, by simp⟩
  | expired source _ edit =>
      subst edit
      exact TradeRecord.Consistent.expire h source
  | elapsed gated _ edit =>
      subst edit
      exact TradeRecord.Consistent.expire h (source_of_gated gated)
  | refused _ => exact h

/-- A successful retry counts, without wrapping. -/
theorem Transition.retryCount_succ {maxRetries : UInt32} {commitment : TradeCommitment}
    {entry entry' : Option TradeRecord} {acknowledgedTxid : Option SettlementTxId}
    {now : UnixSeconds} {result : Result TradeRecord}
    (step : Transition maxRetries commitment entry (.retryAfterFailure acknowledgedTxid now)
      result entry') (succeeded : result.isOk = true) :
    ∃ before after, entry = some before ∧ entry' = some after ∧
      after.retryCount.toNat = before.retryCount.toNat + 1 := by
  cases step with
  | @retried record next _ _ _ _ budget _ edit =>
      refine ⟨record, next, rfl, rfl, ?_⟩
      rw [edit]
      exact toNat_succ_of_lt budget
  | elapsed _ _ _ | refused _ => simp [Except.isOk, Except.toBool] at succeeded

section Run
variable (maxRetries : UInt32) (commitment : TradeCommitment) (calls : List Call)

theorem createdOnce_run :
    CreatedOnce (successesOn commitment ((ReplayStore.withMaxRetries maxRetries).history calls))
      (((ReplayStore.withMaxRetries maxRetries).run calls).get commitment) := by
  rw [← successes_tradeEvents maxRetries commitment]
  exact replay_induction (motive := fun past entry => CreatedOnce (successes past) entry)
    rfl (fun _ _ _ _ _ h step => step.createdOnce h) calls

theorem consistent_run :
    ConsistentEntry (((ReplayStore.withMaxRetries maxRetries).run calls).get commitment) :=
  replay_induction (motive := fun _ entry => ConsistentEntry entry) trivial
    (fun _ _ _ _ _ h step => step.consistent h) calls

/-- The counter is the number of successful retries. -/
theorem retryCount_eq {record : TradeRecord}
    (stored : ((ReplayStore.withMaxRetries maxRetries).run calls).get commitment = some record) :
    ((successesOn commitment ((ReplayStore.withMaxRetries maxRetries).history calls)).map
      Operation.attempted).count .retry = record.retryCount.toNat := by
  have hlocked := locked_run maxRetries commitment calls
  rw [stored] at hlocked
  exact hlocked.retries

end Run

/-- The representation invariant. In every reachable store a record lies under its own
commitment with the intent of its one creation; its counter is the number of retries
that succeeded, at most `max_retries`, never falls and never wraps; and its identifier
and reason are the ones its state calls for. -/
theorem records_represent_history (maxRetries : UInt32) (calls : List Call)
    (key : TradeCommitment) (record : TradeRecord)
    (stored : ((ReplayStore.withMaxRetries maxRetries).run calls).get key = some record) :
    let history := (ReplayStore.withMaxRetries maxRetries).history calls
    record.commitment = key ∧
    (successesOn key history).filter (fun operation => operation.attempted = .create)
      = [.create record.intent] ∧
    ((successesOn key history).map Operation.attempted).count .retry
      = record.retryCount.toNat ∧
    record.retryCount ≤ maxRetries ∧
    (∀ (earlier later : List Call) (recordThen : TradeRecord), calls = earlier ++ later →
      ((ReplayStore.withMaxRetries maxRetries).run earlier).get key = some recordThen →
      recordThen.retryCount ≤ record.retryCount) ∧
    (∀ e : StoreEvent, e ∈ history →
      ∀ (acknowledgedTxid : Option SettlementTxId) (now : UnixSeconds),
      e.success key = some (.retryAfterFailure acknowledgedTxid now) →
      ∃ before after, e.before.get key = some before ∧ e.after.get key = some after ∧
        after.retryCount.toNat = before.retryCount.toNat + 1) ∧
    (record.state ∈ [.created, .verified, .settlementConstructed] →
      record.priorTxid = none ∧ record.failureReason = none) ∧
    (record.state ∈ [.submitted, .confirmed, .consumed] →
      record.priorTxid.isSome = true ∧ record.failureReason = none) ∧
    (record.state = .failed → record.failureReason.isSome = true) ∧
    (record.state = .expired → record.priorTxid.isSome = true →
      record.failureReason.isSome = true) := by
  intro history
  have hrecorded := recorded_run maxRetries key calls
  have hcreated := createdOnce_run maxRetries key calls
  have hlocked := locked_run maxRetries key calls
  have hconsistent := consistent_run maxRetries key calls
  rw [stored] at hrecorded hcreated hlocked hconsistent
  have hretries := retryCount_eq maxRetries key calls stored
  refine ⟨hrecorded.key, hcreated, hretries, UInt32.le_iff_toNat_le.mpr hlocked.bounded, ?_, ?_,
    hconsistent.fresh, hconsistent.inFlight, hconsistent.failed, hconsistent.expired⟩
  · intro earlier later recordThen hcalls hthen
    have hearlier := retryCount_eq maxRetries key earlier hthen
    refine UInt32.le_iff_toNat_le.mpr ?_
    rw [← hretries, ← hearlier, hcalls, ReplayStore.history_append, successesOn, successesOn,
      List.filterMap_append, List.map_append, List.count_append]
    exact Nat.le_add_right _ _
  · intro e hmem acknowledgedTxid now hsuccess
    have hstep := ReplayStore.transition_of_mem hmem
    rw [StoreEvent.success] at hsuccess
    split at hsuccess
    · next hon =>
        rw [hon.1, Option.some.inj hsuccess] at hstep
        exact hstep.retryCount_succ hon.2
    · exact absurd hsuccess (by simp)

theorem records_represent_history_reconstruction :
    ∃ record, ((ReplayStore.withMaxRetries 1).run reconstruction).get ⟨.zero⟩ = some record ∧
      record.retryCount ≤ 1 ∧ record.priorTxid = none := by
  have hstored := ReplayStore.get_run 1 ⟨.zero⟩ reconstruction
  obtain ⟨_, _, _, hbounded, _, _, hfresh, _⟩ :=
    records_represent_history 1 reconstruction ⟨.zero⟩ _ hstored
  exact ⟨_, hstored, hbounded, (hfresh (by decide)).1⟩

end ZwaProtocol
