import ZwaProtocol.Protocol.Replay
import ZwaProtocol.Library.Machine

/-!
The lifecycle of one trade as a transition table, and the refinement: at each
commitment the store follows the table, whatever else it holds.
-/
namespace ZwaProtocol

/-- A gated transition: past the committed expiry the record expires instead. -/
def TradeRecord.unlessElapsed (record : TradeRecord) (now : UnixSeconds)
    (next : Result TradeRecord × TradeRecord) : Result TradeRecord × TradeRecord :=
  if record.intent.isExpiredAt now then
    (.error (.expiredTrade record.intent.expiry.get now.get), { record with state := .expired })
  else next

def TradeRecord.accept (record : TradeRecord) : Result TradeRecord × TradeRecord :=
  (.ok record, record)

def TradeRecord.advance (maxRetries : UInt32) (record : TradeRecord) (operation : Operation) :
    Result TradeRecord × TradeRecord :=
  match record.state, operation with
  | .consumed, _ => (.error .alreadyConsumed, record)
  | .created, .verify now =>
      record.unlessElapsed now { record with state := .verified, failureReason := none }.accept
  | .verified, .acquireConstruction now =>
      record.unlessElapsed now { record with state := .settlementConstructed }.accept
  | .settlementConstructed, .submit txid now =>
      record.unlessElapsed now { record with state := .submitted, priorTxid := some txid }.accept
  | .submitted, .confirm => { record with state := .confirmed }.accept
  | .confirmed, .consume => { record with state := .consumed }.accept
  | .created, .fail reason | .verified, .fail reason | .settlementConstructed, .fail reason =>
      { record with state := .failed, failureReason := some reason, priorTxid := none }.accept
  | .submitted, .fail reason =>
      { record with state := .failed, failureReason := some reason }.accept
  | .created, .expire now | .verified, .expire now | .settlementConstructed, .expire now
  | .failed, .expire now =>
      if record.intent.isExpiredAt now then { record with state := .expired }.accept
      else (.error (.invalidStateTransition record.state .expire), record)
  | .failed, .retryAfterFailure acknowledgedTxid now =>
      record.unlessElapsed now <|
        if record.retryCount ≥ maxRetries then
          (.error (.retryBudgetExhausted record.retryCount maxRetries), record)
        else if record.priorTxid ≠ acknowledgedTxid then
          (.error .unreconciledPriorSubmission, record)
        else
          { record with
            state := .created, failureReason := none, priorTxid := none,
            retryCount := record.retryCount + 1 }.accept
  | state, operation => (.error (.invalidStateTransition state operation.attempted), record)

def TradeRecord.created (commitment : TradeCommitment) (intent : TradeIntent) : TradeRecord :=
  { commitment, intent, state := .created, failureReason := none, priorTxid := none,
    retryCount := 0 }

/-- The table at one commitment, the absent record included. -/
def lifecycleStep (maxRetries : UInt32) (commitment : TradeCommitment) :
    Option TradeRecord → Operation → Result TradeRecord × Option TradeRecord
  | some record, operation =>
      let outcome := record.advance maxRetries operation
      (outcome.1, some outcome.2)
  | none, .create intent =>
      (.ok (.created commitment intent), some (.created commitment intent))
  | none, _ => (.error .unknownTrade, none)

namespace RecordM
variable {α β : Type}

@[simp] theorem exec_get (record : TradeRecord) :
    exec MonadState.get record = (.ok record, record) := rfl

@[simp] theorem exec_throw (error : ProtocolError) (record : TradeRecord) :
    exec (throw error : RecordM α) record = (.error error, record) := rfl

@[simp] theorem exec_get_bind (rest : TradeRecord → RecordM β) (record : TradeRecord) :
    exec (MonadState.get >>= rest) record = exec (rest record) record := rfl

@[simp] theorem exec_modify_bind (edit : TradeRecord → TradeRecord) (rest : PUnit → RecordM β)
    (record : TradeRecord) :
    exec (modify edit >>= rest) record = exec (rest ⟨⟩) (edit record) := rfl

@[simp] theorem exec_ite (p : Prop) [Decidable p] (x y : RecordM α) (record : TradeRecord) :
    exec (if p then x else y) record = if p then exec x record else exec y record := by
  split <;> rfl

@[simp] theorem exec_denyConsumed_bind (state : TradeLifecycleState) (rest : Unit → RecordM β)
    (record : TradeRecord) :
    exec (denyConsumed state >>= rest) record =
      if state = .consumed then (.error .alreadyConsumed, record) else exec (rest ()) record := by
  cases state <;> rfl

@[simp] theorem exec_expireIfElapsed_bind (now : UnixSeconds)
    (rest : Unit → RecordM TradeRecord) (record : TradeRecord) :
    exec (expireIfElapsed now >>= rest) record =
      record.unlessElapsed now (exec (rest ()) record) := by
  rw [expireIfElapsed, bind_assoc, TradeRecord.unlessElapsed]
  show exec ((if record.intent.isExpiredAt now then _ else _) >>= rest) record = _
  cases record.intent.isExpiredAt now <;> rfl

end RecordM

namespace ReplayStore

theorem get_insert (store : ReplayStore) (key commitment : TradeCommitment)
    (record : TradeRecord) :
    ReplayStore.get { store with records := store.records.insert key record } commitment
      = if key = commitment then some record else store.get commitment := by
  simp [get, Std.ExtTreeMap.getElem?_insert]

@[simp] theorem get_withMaxRetries (maxRetries : UInt32) (commitment : TradeCommitment) :
    (withMaxRetries maxRetries).get commitment = none := by
  simp [get, withMaxRetries]

/-- A body that follows the table makes the whole call follow it. -/
theorem recordMut_refines {store : ReplayStore} {body : RecordM TradeRecord}
    {operation : Operation} (commitment : TradeCommitment)
    (existing : ∀ intent, operation ≠ .create intent)
    (follows : ∀ record, body.exec record = record.advance store.maxRetries operation) :
    ((store.recordMut commitment body).1, (store.recordMut commitment body).2.get commitment)
      = lifecycleStep store.maxRetries commitment (store.get commitment) operation := by
  cases hget : store.get commitment with
  | none =>
      cases operation with
      | create intent => exact absurd rfl (existing intent)
      | _ => simp [recordMut, hget, lifecycleStep]
  | some record => simp [recordMut, hget, lifecycleStep, follows, get_insert]

/-- Refinement: a call answers, and leaves at its commitment, what the table says. -/
theorem apply_refines (store : ReplayStore) (commitment : TradeCommitment)
    (operation : Operation) :
    ((store.apply ⟨commitment, operation⟩).1,
        (store.apply ⟨commitment, operation⟩).2.get commitment)
      = lifecycleStep store.maxRetries commitment (store.get commitment) operation := by
  cases operation with
  | create intent =>
      cases hget : store.get commitment with
      | none => simp [apply, create, hget, lifecycleStep, get_insert, TradeRecord.created]
      | some record =>
          cases hstate : record.state <;>
            simp [apply, create, hget, lifecycleStep, TradeRecord.advance, hstate, reject,
              TradeLifecycleState.isConsumed, Operation.attempted]
  | expire now =>
      refine recordMut_refines commitment (by simp) (fun record => ?_)
      by_cases hexpired : record.intent.isExpiredAt now <;> cases hstate : record.state <;>
        simp [TradeRecord.advance, TradeRecord.accept, hstate, hexpired, reject,
          TradeLifecycleState.isConsumed, Operation.attempted]
  | _ =>
      refine recordMut_refines commitment (by simp) (fun record => ?_)
      cases hstate : record.state <;>
        simp [TradeRecord.advance, TradeRecord.accept, hstate, reject,
          TradeLifecycleState.isConsumed, Operation.attempted]

end ReplayStore

end ZwaProtocol
