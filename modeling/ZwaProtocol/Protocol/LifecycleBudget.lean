import ZwaProtocol.Protocol.ConstructionLock

/-!
The lifecycle of a trade is bounded. Only a retry goes back to an earlier state,
and it spends from a counter; a weight of the counter and the state pays for every
call that changes a record.
-/
namespace ZwaProtocol
open Machine

/-- The changes a record can still make before its attempt has to be retried. -/
def TradeLifecycleState.rank : TradeLifecycleState → Nat
  | .created => 5
  | .verified => 4
  | .settlementConstructed => 3
  | .submitted => 2
  | .confirmed | .failed => 1
  | .consumed | .expired => 0

/-- The states of an attempt that has not been submitted. -/
def TradeLifecycleState.maySubmit : TradeLifecycleState → Nat
  | .created | .verified | .settlementConstructed => 1
  | _ => 0

theorem TradeLifecycleState.rank_failable :
    ∀ state ∈ [created, verified, settlementConstructed], rank failed < rank state := by decide

theorem TradeLifecycleState.rank_expirable :
    ∀ state ∈ [created, verified, settlementConstructed, failed],
      rank expired < rank state := by decide

def TradeRecord.retriesLeft (maxRetries : UInt32) (record : TradeRecord) : Nat :=
  maxRetries.toNat - record.retryCount.toNat

def changesLeft (maxRetries : UInt32) : Option TradeRecord → Nat
  | none => 5 * maxRetries.toNat + 6
  | some record => 5 * record.retriesLeft maxRetries + record.state.rank

def submissionsLeft (maxRetries : UInt32) : Option TradeRecord → Nat
  | none => maxRetries.toNat + 1
  | some record => record.retriesLeft maxRetries + record.state.maySubmit

theorem TradeRecord.retriesLeft_created (maxRetries : UInt32) (commitment : TradeCommitment)
    (intent : TradeIntent) :
    (TradeRecord.created commitment intent).retriesLeft maxRetries = maxRetries.toNat :=
  Nat.sub_zero _

/-- A retry spends one of the retries left. -/
theorem TradeRecord.retriesLeft_retry {maxRetries : UInt32} {record next : TradeRecord}
    (budget : record.retryCount < maxRetries) (count : next.retryCount = record.retryCount + 1) :
    next.retriesLeft maxRetries + 1 = record.retriesLeft maxRetries := by
  have hbudget : record.retryCount.toNat < maxRetries.toNat := UInt32.lt_iff_toNat_lt.mp budget
  have hsucc := toNat_succ_of_lt budget
  rw [retriesLeft, retriesLeft, count, hsucc]
  omega

section Steps
variable {maxRetries : UInt32} {commitment : TradeCommitment}
  {entry entry' : Option TradeRecord} {operation : Operation} {result : Result TradeRecord}

/-- Step lemma: a call that changes the record lowers its weight, on the error path of
an expiry as well. -/
theorem Transition.changesLeft_lt (changed : entry ≠ entry')
    (step : Transition maxRetries commitment entry operation result entry') :
    changesLeft maxRetries entry' < changesLeft maxRetries entry := by
  cases step with
  | created intent =>
      simp only [changesLeft, TradeRecord.retriesLeft_created]
      exact Nat.lt_succ_self _
  | verified source _ edit | acquired source _ edit | submitted source _ edit
  | confirmed source edit | consumed source edit | failedSubmission source edit =>
      subst edit
      simp [changesLeft, TradeRecord.retriesLeft, source, TradeLifecycleState.rank]
  | failed source edit =>
      subst edit
      exact Nat.add_lt_add_left (TradeLifecycleState.rank_failable _ source) _
  | expired source _ edit =>
      subst edit
      exact Nat.add_lt_add_left (TradeLifecycleState.rank_expirable _ source) _
  | retried source _ budget _ edit =>
      have hspent := TradeRecord.retriesLeft_retry budget (congrArg TradeRecord.retryCount edit)
      simp only [changesLeft, source, edit, TradeLifecycleState.rank] at hspent ⊢
      omega
  | elapsed gated _ edit =>
      subst edit
      have hsource := source_of_gated gated
      exact Nat.add_lt_add_left (TradeLifecycleState.rank_expirable _ hsource) _
  | refused _ => exact absurd rfl changed

/-- No call raises the submissions left, and a successful one spends one of them. -/
theorem Transition.submissionsLeft_le
    (step : Transition maxRetries commitment entry operation result entry') :
    (result.isOk && decide (operation.attempted = .submit)).toNat
        + submissionsLeft maxRetries entry'
      ≤ submissionsLeft maxRetries entry := by
  cases step with
  | created intent =>
      simp only [submissionsLeft, TradeRecord.retriesLeft_created]
      exact le_of_eq (Nat.zero_add _)
  | submitted source _ edit =>
      subst edit
      rw [submissionsLeft, submissionsLeft, source]
      exact le_of_eq (Nat.add_comm 1 _)
  | verified source _ edit | acquired source _ edit =>
      subst edit
      rw [submissionsLeft, submissionsLeft, source]
      exact le_of_eq (Nat.zero_add _)
  | confirmed _ edit | consumed _ edit | failed _ edit | failedSubmission _ edit
  | expired _ _ edit =>
      subst edit
      exact (Nat.zero_add _).trans_le (Nat.add_le_add_left (Nat.zero_le _) _)
  | retried source _ budget _ edit =>
      have hspent := TradeRecord.retriesLeft_retry budget (congrArg TradeRecord.retryCount edit)
      rw [submissionsLeft, submissionsLeft, source, ← hspent, edit]
      exact le_of_eq (Nat.zero_add _)
  | elapsed _ _ edit =>
      subst edit
      exact (Nat.zero_add _).trans_le (Nat.add_le_add_left (Nat.zero_le _) _)
  | refused _ => exact le_of_eq (Nat.zero_add _)

end Steps

def StoreEvent.submits (commitment : TradeCommitment) (e : StoreEvent) : Bool :=
  (e.success commitment).any (fun operation => operation.attempted = .submit)

theorem count_submit (commitment : TradeCommitment) (events : List StoreEvent) :
    ((successesOn commitment events).map Operation.attempted).count .submit
      = events.countP (StoreEvent.submits commitment) := by
  rw [List.count_eq_countP, List.countP_map, successesOn, List.countP_filterMap]
  apply List.countP_congr
  intro e _
  rw [StoreEvent.submits]
  cases e.success commitment <;> simp

namespace ReplayStore
variable (store : ReplayStore) (commitment : TradeCommitment)

theorem changesLeft_pays (call : Call) :
    (StoreEvent.changes commitment (event apply store call)).toNat
        + changesLeft (store.apply call).2.maxRetries ((store.apply call).2.get commitment)
      ≤ changesLeft store.maxRetries (store.get commitment) := by
  rw [store.apply_maxRetries call]
  by_cases hkept : store.get commitment = (store.apply call).2.get commitment
  · simp [StoreEvent.changes, event, hkept]
  · have hkey : call.commitment = commitment := by
      by_contra hne
      exact hkept (store.apply_get_of_ne hne).symm
    subst hkey
    have hstep := (store.apply_transition call.commitment call.operation).changesLeft_lt hkept
    have hcounted : (StoreEvent.changes call.commitment (event apply store call)).toNat = 1 := by
      simp [StoreEvent.changes, event, hkept]
    rw [hcounted, Nat.add_comm]
    exact hstep

theorem submissionsLeft_pays (call : Call) :
    (StoreEvent.submits commitment (event apply store call)).toNat
        + submissionsLeft (store.apply call).2.maxRetries ((store.apply call).2.get commitment)
      ≤ submissionsLeft store.maxRetries (store.get commitment) := by
  rw [store.apply_maxRetries call]
  by_cases hkey : call.commitment = commitment
  · subst hkey
    have hstep := (store.apply_transition call.commitment call.operation).submissionsLeft_le
    cases hok : (store.apply call).1.isOk <;>
      simpa [StoreEvent.submits, StoreEvent.success, event, hok] using hstep
  · rw [store.apply_get_of_ne hkey]
    simp [StoreEvent.submits, StoreEvent.success, event, hkey]

end ReplayStore

/-- Bounded lifecycle. However long a run is, at most `5 * max_retries + 6` of its calls
change the entry of a commitment, the creation and the rejections that expire it
included, and at most `max_retries + 1` submissions on it succeed. -/
theorem lifecycle_bounded (maxRetries : UInt32) (calls : List Call)
    (commitment : TradeCommitment) :
    let history := (ReplayStore.withMaxRetries maxRetries).history calls
    history.countP (StoreEvent.changes commitment) ≤ 5 * maxRetries.toNat + 6 ∧
    ((successesOn commitment history).map Operation.attempted).count .submit
      ≤ maxRetries.toNat + 1 := by
  intro history
  have hstart := ReplayStore.get_withMaxRetries maxRetries commitment
  constructor
  · have hcount := countP_history_add_le ReplayStore.apply
      (fun store => changesLeft store.maxRetries (store.get commitment))
      (fun store call => store.changesLeft_pays commitment call) (.withMaxRetries maxRetries) calls
    rw [hstart] at hcount
    exact (Nat.le_add_right _ _).trans hcount
  · have hcount := countP_history_add_le ReplayStore.apply
      (fun store => submissionsLeft store.maxRetries (store.get commitment))
      (fun store call => store.submissionsLeft_pays commitment call)
      (.withMaxRetries maxRetries) calls
    rw [hstart] at hcount
    rw [count_submit]
    exact (Nat.le_add_right _ _).trans hcount

-- The bound on the changes is reached.
example :
    ((ReplayStore.withMaxRetries 0).history
      ([.create (.blank 10), .verify ⟨1⟩, .acquireConstruction ⟨1⟩,
        .submit ⟨⟨List.replicate 32 0, rfl⟩⟩ ⟨1⟩, .fail .submissionFailed,
        .retryAfterFailure none ⟨11⟩].map (Call.mk ⟨.zero⟩))).countP
          (StoreEvent.changes ⟨.zero⟩) = 6 := rfl

end ZwaProtocol
