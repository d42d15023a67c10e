import ZwaProtocol.Protocol.ReplayRun

/-!
Ways out of the lifecycle. From every state but one, some calls close a trade: they
bring it to `CONSUMED` or to `EXPIRED`. The one exception is a failed trade that may
not be retried again and whose expiry is the last second a clock can show, so that
no time is strictly after it.
-/
namespace ZwaProtocol
open Machine

/-- `u64::MAX`. -/
def u64Max : UInt64 := 0xffffffffffffffff

theorem le_u64Max (value : UInt64) : value ≤ u64Max := by
  have hvalue := value.toNat_lt
  rw [UInt64.le_iff_toNat_le]
  exact Nat.le_of_lt_succ hvalue

namespace TradeRecord

def Closed (record : TradeRecord) : Prop := record.state = .consumed ∨ record.state = .expired

/-- Failed, with the retry budget used up and an expiry that never elapses. -/
def Stranded (maxRetries : UInt32) (record : TradeRecord) : Prop :=
  record.state = .failed ∧ maxRetries ≤ record.retryCount ∧ record.intent.expiry.get = u64Max

end TradeRecord

theorem TradeIntent.isExpiredAt_zero (intent : TradeIntent) :
    intent.isExpiredAt ⟨0⟩ = false := by
  rw [isExpiredAt_eq_false, UInt64.le_iff_toNat_le]
  exact Nat.zero_le _

section Table
variable {maxRetries : UInt32} {commitment : TradeCommitment} {record : TradeRecord}

/-- Some operations on the trade close it. -/
def CanClose (maxRetries : UInt32) (commitment : TradeCommitment) : Option TradeRecord → Prop :=
  CanReach (lifecycleStep maxRetries commitment)
    (fun entry => ∃ record, entry = some record ∧ record.Closed)

theorem CanClose.closed (h : record.Closed) : CanClose maxRetries commitment (some record) :=
  .here ⟨record, rfl, h⟩

/-- One operation of the table on the way to a closed trade. -/
theorem CanClose.step {next : TradeRecord} (operation : Operation)
    (edit : (record.advance maxRetries operation).2 = next)
    (h : CanClose maxRetries commitment (some next)) :
    CanClose maxRetries commitment (some record) := by
  refine CanReach.next operation ?_
  rw [lifecycleStep, edit]
  exact h

theorem canClose_confirmed (source : record.state = .confirmed) :
    CanClose maxRetries commitment (some record) := by
  have hnext : (record.advance maxRetries .consume).2 = { record with state := .consumed } := by
    simp [TradeRecord.advance, source, TradeRecord.accept]
  exact .step .consume hnext (.closed (.inl rfl))

theorem canClose_submitted (source : record.state = .submitted) :
    CanClose maxRetries commitment (some record) := by
  have hnext : (record.advance maxRetries .confirm).2 = { record with state := .confirmed } := by
    simp [TradeRecord.advance, source, TradeRecord.accept]
  exact .step .confirm hnext (canClose_confirmed rfl)

-- At time zero no trade is expired, so the gates on the way are open.
theorem canClose_settlementConstructed (source : record.state = .settlementConstructed) :
    CanClose maxRetries commitment (some record) := by
  let txid : SettlementTxId := ⟨⟨List.replicate 32 0, rfl⟩⟩
  have hnext : (record.advance maxRetries (.submit txid ⟨0⟩)).2
      = { record with state := .submitted, priorTxid := some txid } := by
    simp [TradeRecord.advance, source, TradeRecord.accept, TradeRecord.unlessElapsed,
      TradeIntent.isExpiredAt_zero]
  exact .step _ hnext (canClose_submitted rfl)

theorem canClose_verified (source : record.state = .verified) :
    CanClose maxRetries commitment (some record) := by
  have hnext : (record.advance maxRetries (.acquireConstruction ⟨0⟩)).2
      = { record with state := .settlementConstructed } := by
    simp [TradeRecord.advance, source, TradeRecord.accept, TradeRecord.unlessElapsed,
      TradeIntent.isExpiredAt_zero]
  exact .step _ hnext (canClose_settlementConstructed rfl)

theorem canClose_created (source : record.state = .created) :
    CanClose maxRetries commitment (some record) := by
  have hnext : (record.advance maxRetries (.verify ⟨0⟩)).2
      = { record with state := .verified, failureReason := none } := by
    simp [TradeRecord.advance, source, TradeRecord.accept, TradeRecord.unlessElapsed,
      TradeIntent.isExpiredAt_zero]
  exact .step _ hnext (canClose_verified rfl)

/-- A failed trade with budget left starts over, acknowledging whatever it submitted. -/
theorem canClose_retried (source : record.state = .failed)
    (budget : record.retryCount < maxRetries) :
    CanClose maxRetries commitment (some record) := by
  have hbudget : ¬ record.retryCount ≥ maxRetries := by simpa using budget
  have hnext : (record.advance maxRetries (.retryAfterFailure record.priorTxid ⟨0⟩)).2
      = { record with
          state := .created, failureReason := none, priorTxid := none,
          retryCount := record.retryCount + 1 } := by
    simp [TradeRecord.advance, source, TradeRecord.accept, TradeRecord.unlessElapsed,
      TradeIntent.isExpiredAt_zero, hbudget]
  exact .step _ hnext (canClose_created rfl)

/-- A failed trade whose expiry some clock value can pass is expired at the last one. -/
theorem canClose_elapsed (source : record.state = .failed)
    (bounded : record.intent.expiry.get ≠ u64Max) :
    CanClose maxRetries commitment (some record) := by
  have hbefore : record.intent.expiry.get < u64Max :=
    UInt64.lt_of_le_of_ne (le_u64Max _) bounded
  have helapsed : record.intent.isExpiredAt ⟨u64Max⟩ = true :=
    TradeIntent.isExpiredAt_eq_true.mpr hbefore
  have hnext : (record.advance maxRetries (.expire ⟨u64Max⟩)).2
      = { record with state := .expired } := by
    simp [TradeRecord.advance, source, TradeRecord.accept, helapsed]
  exact .step _ hnext (.closed (.inr rfl))

/-- The table refuses every operation on a stranded record and leaves it as it is. -/
theorem TradeRecord.Stranded.advance_eq (h : record.Stranded maxRetries) (operation : Operation) :
    (record.advance maxRetries operation).2 = record := by
  obtain ⟨source, hbudget, hexpiry⟩ := h
  have hlive : ∀ now, record.intent.isExpiredAt now = false := by
    intro now
    rw [TradeIntent.isExpiredAt_eq_false, hexpiry]
    exact le_u64Max _
  cases operation with
  | expire now => simp [advance, source, hlive]
  | retryAfterFailure acknowledgedTxid now =>
      simp [advance, source, unlessElapsed, hlive, hbudget]
  | _ => simp [advance, source]

theorem not_canClose_stranded (h : record.Stranded maxRetries) :
    ¬ CanClose maxRetries commitment (some record) := by
  refine not_canReach_of_trap _ (fun entry => entry = some record) ?_ ?_ rfl
  · rintro _ operation rfl
    rw [lifecycleStep, h.advance_eq]
  · rintro _ rfl ⟨_, hrecord, hclosed⟩
    cases hrecord
    obtain hclosed | hclosed := hclosed <;> simp [h.1] at hclosed

/-- The table closes every trade but the stranded ones. -/
theorem canClose_iff :
    CanClose maxRetries commitment (some record) ↔ ¬ record.Stranded maxRetries := by
  constructor
  · intro hclose hstranded
    exact not_canClose_stranded hstranded hclose
  · intro hfree
    cases hstate : record.state with
    | created => exact canClose_created hstate
    | verified => exact canClose_verified hstate
    | settlementConstructed => exact canClose_settlementConstructed hstate
    | submitted => exact canClose_submitted hstate
    | confirmed => exact canClose_confirmed hstate
    | consumed => exact .closed (.inl hstate)
    | expired => exact .closed (.inr hstate)
    | failed =>
        by_cases hbudget : record.retryCount < maxRetries
        · exact canClose_retried hstate hbudget
        · refine canClose_elapsed hstate (fun hexpiry => hfree ⟨hstate, ?_, hexpiry⟩)
          exact UInt32.not_lt.mp hbudget

end Table

/-- Calls on one commitment close the trade exactly when the table does. -/
theorem ReplayStore.exists_run_closed_iff (store : ReplayStore) (commitment : TradeCommitment) :
    (∃ operations : List Operation, ∃ record,
      (store.run (operations.map (Call.mk commitment))).get commitment = some record ∧
        record.Closed) ↔
      CanClose store.maxRetries commitment (store.get commitment) := by
  have hinv : (tradeAt store.maxRetries commitment).Inv store := rfl
  have hshown : ∀ operation,
      (tradeAt store.maxRetries commitment).select ⟨commitment, operation⟩ = some operation :=
    fun operation => if_pos rfl
  have hrun := (tradeAt store.maxRetries commitment).view_run_map hinv hshown
  apply exists_congr
  intro operations
  change (∃ record, (tradeAt store.maxRetries commitment).view _ = some record ∧ _) ↔ _
  rw [ReplayStore.run, hrun operations]
  rfl

/-- Not every stored trade can be closed: with no retries, a trade that expires at
the last second and fails is stored for good. -/
theorem stranded_trade :
    ¬ ∀ (maxRetries : UInt32) (calls : List Call) (commitment : TradeCommitment)
        (record : TradeRecord),
      ((ReplayStore.withMaxRetries maxRetries).run calls).get commitment = some record →
      ¬ record.Closed →
      ∃ operations : List Operation, ∃ record',
        (((ReplayStore.withMaxRetries maxRetries).run calls).run
            (operations.map (Call.mk commitment))).get commitment = some record' ∧
          record'.Closed := by
  intro hclose
  let calls : List Call :=
    [.create (.blank u64Max), .fail .constructionFailed].map (Call.mk ⟨.zero⟩)
  let record : TradeRecord :=
    { TradeRecord.created ⟨.zero⟩ (.blank u64Max) with
      state := .failed, failureReason := some .constructionFailed }
  have hstored : ((ReplayStore.withMaxRetries 0).run calls).get ⟨.zero⟩ = some record := rfl
  have hstranded : record.Stranded 0 := ⟨rfl, by decide, rfl⟩
  have hopen : ¬ record.Closed := by simp [record, TradeRecord.Closed]
  have hcan := (ReplayStore.exists_run_closed_iff _ ⟨.zero⟩).mp
    (hclose 0 calls ⟨.zero⟩ record hstored hopen)
  rw [hstored] at hcan
  exact not_canClose_stranded hstranded hcan

/-- The lifecycle has one dead end. In every store, calls on its own commitment can
bring a trade to `CONSUMED` or `EXPIRED`, unless it has failed, its retry budget is
used up and its expiry is `u64::MAX`. -/
theorem trades_can_be_closed (store : ReplayStore) (commitment : TradeCommitment)
    (record : TradeRecord) (stored : store.get commitment = some record) :
    (∃ operations : List Operation, ∃ record',
      (store.run (operations.map (Call.mk commitment))).get commitment = some record' ∧
        record'.Closed) ↔
      ¬ (record.state = .failed ∧ store.maxRetries ≤ record.retryCount ∧
        record.intent.expiry.get = u64Max) := by
  rw [store.exists_run_closed_iff, stored]
  exact canClose_iff

/-- A failed trade without retries that expires at second ten can still be closed. -/
theorem trades_can_be_closed_failed :
    ∃ operations : List Operation, ∃ record,
      (((ReplayStore.withMaxRetries 0).run
          ([.create (.blank 10), .fail .constructionFailed].map (Call.mk ⟨.zero⟩))).run
        (operations.map (Call.mk ⟨.zero⟩))).get ⟨.zero⟩ = some record ∧ record.Closed :=
  (trades_can_be_closed _ ⟨.zero⟩
    { TradeRecord.created ⟨.zero⟩ (.blank 10) with
      state := .failed, failureReason := some .constructionFailed } rfl).mpr
    (fun h => absurd h.2.2 (by decide))

end ZwaProtocol
