import ZwaProtocol.Protocol.TradeHistory

/-!
A submitted transaction identifier stays with the trade until a retry names it,
and a trade that carries one starts no new work.
-/
namespace ZwaProtocol
open Machine

/-- A submitted identifier is on record until a retry acknowledges it, and no
attempt that has not submitted yet carries one. -/
structure Tracked (past : List Operation) (record : TradeRecord) : Prop where
  fresh : record.state ∈ [.created, .verified, .settlementConstructed] → record.priorTxid = none
  kept : ∀ before txid now after, past = before ++ .submit txid now :: after →
    record.priorTxid = some txid ∨ ∃ later, .retryAfterFailure (some txid) later ∈ after

def TrackedEntry (past : List Operation) : Option TradeRecord → Prop
  | none => past = []
  | some record => Tracked past record

section Tracked
variable {past : List Operation} {record next : TradeRecord}

/-- An operation other than a submission that leaves the identifier alone. -/
theorem Tracked.concat {operation : Operation} (h : Tracked past record)
    (other : ∀ txid now, operation ≠ .submit txid now) (txid : next.priorTxid = record.priorTxid)
    (fresh : next.state ∈ [.created, .verified, .settlementConstructed] →
      record.state ∈ [.created, .verified, .settlementConstructed]) :
    Tracked (past ++ [operation]) next := by
  refine ⟨fun hnext => by rw [txid]; exact h.fresh (fresh hnext), ?_⟩
  intro before submitted now after hsplit
  obtain ⟨-, hlast, -⟩ | ⟨middle, rfl, hpast⟩ := concat_eq_append_cons hsplit
  · exact absurd hlast.symm (other submitted now)
  · rw [txid]
    obtain hkept | ⟨later, hlater⟩ := h.kept before submitted now middle hpast
    · exact .inl hkept
    · exact .inr ⟨later, List.mem_append_left _ hlater⟩

/-- With no identifier on record, every submission so far has been acknowledged. -/
theorem Tracked.acknowledged (h : Tracked past record) (none : record.priorTxid = none)
    {before after : List Operation} {txid : SettlementTxId} {now : UnixSeconds}
    (hpast : past = before ++ .submit txid now :: after) :
    ∃ later, .retryAfterFailure (some txid) later ∈ after := by
  obtain hkept | hlater := h.kept before txid now after hpast
  · rw [none] at hkept
    exact absurd hkept (by simp)
  · exact hlater

theorem Tracked.submit {txid : SettlementTxId} {now : UnixSeconds} (h : Tracked past record)
    (source : record.state = .settlementConstructed)
    (edit : next = { record with state := .submitted, priorTxid := some txid }) :
    Tracked (past ++ [.submit txid now]) next := by
  subst edit
  refine ⟨by simp, ?_⟩
  intro before submitted time after hsplit
  obtain ⟨-, hlast, -⟩ | ⟨middle, rfl, hpast⟩ := concat_eq_append_cons hsplit
  · obtain ⟨rfl, -⟩ : submitted = txid ∧ time = now := by simpa using hlast
    exact .inl rfl
  · obtain ⟨later, hlater⟩ := h.acknowledged (h.fresh (by simp [source])) hpast
    exact .inr ⟨later, List.mem_append_left _ hlater⟩

/-- A failure before submission has no identifier to lose. -/
theorem Tracked.fail {reason : FailureReason} (h : Tracked past record)
    (source : record.state ∈ [.created, .verified, .settlementConstructed])
    (edit : next =
      { record with state := .failed, failureReason := some reason, priorTxid := none }) :
    Tracked (past ++ [.fail reason]) next :=
  h.concat (by simp) (by rw [edit, h.fresh source]) (by simp [edit])

/-- The retry that clears the identifier is the one that names it. -/
theorem Tracked.retry {acknowledgedTxid : Option SettlementTxId} {now : UnixSeconds}
    (h : Tracked past record) (reconciled : record.priorTxid = acknowledgedTxid)
    (cleared : next.priorTxid = none) :
    Tracked (past ++ [.retryAfterFailure acknowledgedTxid now]) next := by
  refine ⟨fun _ => cleared, ?_⟩
  intro before submitted time after hsplit
  obtain ⟨-, hlast, -⟩ | ⟨middle, rfl, hpast⟩ := concat_eq_append_cons hsplit
  · exact absurd hlast (by simp)
  · obtain hkept | ⟨later, hlater⟩ := h.kept before submitted time middle hpast
    · rw [reconciled] at hkept
      exact .inr ⟨now, by simp [hkept]⟩
    · exact .inr ⟨later, List.mem_append_left _ hlater⟩

theorem Tracked.expire (h : Tracked past record) :
    Tracked past { record with state := .expired } :=
  ⟨by simp, h.kept⟩

end Tracked

/-- Step lemma: every transition keeps the submitted identifier or reconciles it. -/
theorem Transition.tracked {maxRetries : UInt32} {commitment : TradeCommitment}
    {past : List TradeEvent} {entry entry' : Option TradeRecord} {operation : Operation}
    {result : Result TradeRecord} (h : TrackedEntry (successes past) entry)
    (step : Transition maxRetries commitment entry operation result entry') :
    TrackedEntry (successes (past ++ [⟨entry, operation, result, entry'⟩])) entry' := by
  cases step with
  | created intent =>
      have hpast : successes past = [] := h
      rw [successes_concat_ok, hpast]
      refine ⟨fun _ => rfl, ?_⟩
      intro before txid now after hsplit
      simp [List.singleton_eq_append_iff] at hsplit
  | verified source _ edit | acquired source _ edit =>
      rw [successes_concat_ok]
      exact Tracked.concat h (by simp) (by rw [edit]) (by simp [source])
  | submitted source _ edit =>
      rw [successes_concat_ok]
      exact Tracked.submit h source edit
  | confirmed source edit | consumed source edit | failedSubmission source edit =>
      rw [successes_concat_ok]
      exact Tracked.concat h (by simp) (by rw [edit]) (by simp [edit])
  | failed source edit =>
      rw [successes_concat_ok]
      exact Tracked.fail h source edit
  | expired source _ edit =>
      rw [successes_concat_ok]
      exact Tracked.concat h (by simp) (by rw [edit]) (by simp [edit])
  | retried _ _ _ reconciled edit =>
      rw [successes_concat_ok]
      exact Tracked.retry h reconciled (by rw [edit])
  | elapsed _ _ edit =>
      rw [successes_concat_error, edit]
      exact Tracked.expire h
  | refused _ =>
      rw [successes_concat_error]
      exact h

theorem tracked_run (maxRetries : UInt32) (commitment : TradeCommitment) (calls : List Call) :
    TrackedEntry
      (successesOn commitment ((ReplayStore.withMaxRetries maxRetries).history calls))
      (((ReplayStore.withMaxRetries maxRetries).run calls).get commitment) := by
  rw [← successes_tradeEvents maxRetries commitment]
  exact replay_induction (motive := fun past entry => TrackedEntry (successes past) entry)
    rfl (fun _ _ _ _ _ h step => step.tracked h) calls

/-- What may still succeed while an identifier is on record: nothing that starts
new work, and no retry that does not name it. -/
def Operation.Respects (txid : SettlementTxId) : Operation → Prop
  | .verify _ | .acquireConstruction _ | .submit _ _ => False
  | .retryAfterFailure acknowledgedTxid _ => acknowledgedTxid = some txid
  | _ => True

theorem Tracked.respects {maxRetries : UInt32} {commitment : TradeCommitment}
    {past : List Operation} {record after : TradeRecord} {entry' : Option TradeRecord}
    {operation : Operation} {txid : SettlementTxId} (h : Tracked past record)
    (recorded : record.priorTxid = some txid)
    (step : Transition maxRetries commitment (some record) operation (.ok after) entry') :
    operation.Respects txid := by
  have hfresh := h.fresh
  rw [recorded] at hfresh
  cases step with
  | verified source _ _ | acquired source _ _ | submitted source _ _ =>
      exact absurd (hfresh (by simp [source])) (by simp)
  | confirmed _ _ | consumed _ _ | failed _ _ | failedSubmission _ _ | expired _ _ _ => trivial
  | retried _ _ _ reconciled _ => exact reconciled.symm.trans recorded

theorem Tracked.refuses {past : List Operation} {record : TradeRecord} {store : ReplayStore}
    {commitment : TradeCommitment} {txid : SettlementTxId} (h : Tracked past record)
    (stored : store.get commitment = some record) (recorded : record.priorTxid = some txid)
    (operation : Operation) (newWork : ¬ operation.Respects txid) :
    (store.apply ⟨commitment, operation⟩).1.isOk = false := by
  have hstep := store.apply_transition commitment operation
  rw [stored] at hstep
  cases hresult : (store.apply ⟨commitment, operation⟩).1 with
  | error error => rfl
  | ok after =>
      rw [hresult] at hstep
      exact absurd (h.respects recorded hstep) newWork

/-- After a submission the identifier stays on record until a retry that names
it has succeeded, and while one is on record no new work starts: the end of a
run stands for every point of it. -/
theorem submitted_txid_blocks_until_acknowledged (maxRetries : UInt32) (calls : List Call)
    (commitment : TradeCommitment) :
    let store := (ReplayStore.withMaxRetries maxRetries).run calls
    (∀ (before after : List StoreEvent) (submission : StoreEvent) (txid : SettlementTxId)
        (now : UnixSeconds),
      (ReplayStore.withMaxRetries maxRetries).history calls = before ++ submission :: after →
      submission.success commitment = some (.submit txid now) →
      (∃ record, store.get commitment = some record ∧ record.priorTxid = some txid) ∨
        ∃ later, .retryAfterFailure (some txid) later ∈ successesOn commitment after) ∧
    ∀ (record : TradeRecord) (txid : SettlementTxId),
      store.get commitment = some record → record.priorTxid = some txid →
      (∀ now, (store.verify commitment now).1.isOk = false) ∧
      (∀ now, (store.acquireConstruction commitment now).1.isOk = false) ∧
      (∀ other now, (store.submit commitment other now).1.isOk = false) ∧
      ∀ acknowledgedTxid now, acknowledgedTxid ≠ some txid →
        (store.retryAfterFailure commitment acknowledgedTxid now).1.isOk = false := by
  intro store
  have htracked := tracked_run maxRetries commitment calls
  change TrackedEntry _ (store.get commitment) at htracked
  constructor
  · intro before after submission txid now hsplit hsubmission
    have hpast : successesOn commitment ((ReplayStore.withMaxRetries maxRetries).history calls)
        = successesOn commitment before ++ .submit txid now :: successesOn commitment after := by
      simp [hsplit, successesOn, List.filterMap_append, hsubmission]
    cases hentry : store.get commitment with
    | none =>
        rw [hentry, hpast] at htracked
        exact absurd htracked (by simp [TrackedEntry])
    | some record =>
        rw [hentry] at htracked
        obtain hkept | hlater := htracked.kept _ txid now _ hpast
        · exact .inl ⟨record, rfl, hkept⟩
        · exact .inr hlater
  · intro record txid hentry hrecorded
    rw [hentry] at htracked
    exact ⟨fun now => htracked.refuses hentry hrecorded (.verify now) id,
      fun now => htracked.refuses hentry hrecorded (.acquireConstruction now) id,
      fun other now => htracked.refuses hentry hrecorded (.submit other now) id,
      fun acknowledgedTxid now hne =>
        htracked.refuses hentry hrecorded (.retryAfterFailure acknowledgedTxid now) hne⟩

def unacknowledged : List Call :=
  [.create (.blank 10), .verify ⟨1⟩, .acquireConstruction ⟨1⟩,
    .submit ⟨.replicate 32 0⟩ ⟨2⟩, .fail .submissionFailed].map (Call.mk ⟨.zero⟩)

theorem submitted_txid_blocks_until_acknowledged_unacknowledged :
    (((ReplayStore.withMaxRetries 1).run unacknowledged).retryAfterFailure ⟨.zero⟩ none ⟨3⟩).1.isOk
      = false :=
  ((submitted_txid_blocks_until_acknowledged 1 unacknowledged ⟨.zero⟩).2 _ _
    (ReplayStore.get_run 1 ⟨.zero⟩ unacknowledged) rfl).2.2.2 none ⟨3⟩ (by simp)

end ZwaProtocol
