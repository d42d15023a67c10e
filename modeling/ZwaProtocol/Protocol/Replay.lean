import ZwaProtocol.Protocol.Intent
import Std.Data.ExtTreeMap

/-!
The in-memory replay store: one lifecycle record for each trade commitment and
the nine calls that move it. A call edits its record in place and may then be
rejected, so a rejection keeps what was written before it.
-/
namespace ZwaProtocol

def defaultMaxRetries : UInt32 := 3

@[ext] structure TradeRecord where
  commitment : TradeCommitment
  intent : TradeIntent
  state : TradeLifecycleState
  failureReason : Option FailureReason
  priorTxid : Option SettlementTxId
  retryCount : UInt32
  deriving DecidableEq

structure ReplayStore where
  records : Std.ExtTreeMap TradeCommitment TradeRecord
  maxRetries : UInt32

/-- Code that holds `&mut TradeRecord` and returns a `Result`. -/
abbrev RecordM := ExceptT ProtocolError (StateM TradeRecord)

def RecordM.exec {α : Type} (body : RecordM α) (record : TradeRecord) : Result α × TradeRecord :=
  (ExceptT.run body).run record

def reject (source : TradeLifecycleState) (attempted : LifecycleEvent) : ProtocolError :=
  if source.isConsumed then .alreadyConsumed else .invalidStateTransition source attempted

def denyConsumed (state : TradeLifecycleState) : RecordM Unit :=
  if state.isConsumed then throw .alreadyConsumed else pure ()

/-- The one expiry gate: it moves the record to `EXPIRED` before rejecting. -/
def expireIfElapsed (now : UnixSeconds) : RecordM Unit := do
  let record ← get
  if record.intent.isExpiredAt now then
    set { record with state := .expired }
    throw (.expiredTrade record.intent.expiry.get now.get)

namespace ReplayStore

def withMaxRetries (maxRetries : UInt32) : ReplayStore := ⟨∅, maxRetries⟩

def new : ReplayStore := withMaxRetries defaultMaxRetries

def get (store : ReplayStore) (commitment : TradeCommitment) : Option TradeRecord :=
  store.records[commitment]?

def state (store : ReplayStore) (commitment : TradeCommitment) : Option TradeLifecycleState :=
  (store.get commitment).map TradeRecord.state

/-- `record_mut` and the body that follows it: the body edits the stored record. -/
def recordMut (store : ReplayStore) (commitment : TradeCommitment) (body : RecordM TradeRecord) :
    Result TradeRecord × ReplayStore :=
  match store.get commitment with
  | none => (.error .unknownTrade, store)
  | some record =>
      let outcome := body.exec record
      (outcome.1, { store with records := store.records.insert commitment outcome.2 })

def create (store : ReplayStore) (commitment : TradeCommitment) (intent : TradeIntent) :
    Result TradeRecord × ReplayStore :=
  match store.get commitment with
  | some existing => (.error (reject existing.state .create), store)
  | none =>
      let record : TradeRecord :=
        { commitment, intent, state := .created, failureReason := none, priorTxid := none,
          retryCount := 0 }
      (.ok record, { store with records := store.records.insert commitment record })

def verify (store : ReplayStore) (commitment : TradeCommitment) (now : UnixSeconds) :
    Result TradeRecord × ReplayStore :=
  store.recordMut commitment do
    let record ← MonadState.get
    denyConsumed record.state
    if record.state ≠ .created then
      throw (reject record.state .verify)
    expireIfElapsed now
    modify ({ · with state := .verified, failureReason := none })
    MonadState.get

def acquireConstruction (store : ReplayStore) (commitment : TradeCommitment) (now : UnixSeconds) :
    Result TradeRecord × ReplayStore :=
  store.recordMut commitment do
    let record ← MonadState.get
    denyConsumed record.state
    if record.state ≠ .verified then
      throw (reject record.state .acquireConstruction)
    expireIfElapsed now
    modify ({ · with state := .settlementConstructed })
    MonadState.get

def submit (store : ReplayStore) (commitment : TradeCommitment) (txid : SettlementTxId)
    (now : UnixSeconds) : Result TradeRecord × ReplayStore :=
  store.recordMut commitment do
    let record ← MonadState.get
    denyConsumed record.state
    if record.state ≠ .settlementConstructed then
      throw (reject record.state .submit)
    expireIfElapsed now
    modify ({ · with state := .submitted, priorTxid := some txid })
    MonadState.get

def confirm (store : ReplayStore) (commitment : TradeCommitment) :
    Result TradeRecord × ReplayStore :=
  store.recordMut commitment do
    let record ← MonadState.get
    denyConsumed record.state
    if record.state ≠ .submitted then
      throw (reject record.state .confirm)
    modify ({ · with state := .confirmed })
    MonadState.get

def consume (store : ReplayStore) (commitment : TradeCommitment) :
    Result TradeRecord × ReplayStore :=
  store.recordMut commitment do
    let record ← MonadState.get
    denyConsumed record.state
    if record.state ≠ .confirmed then
      throw (reject record.state .consume)
    modify ({ · with state := .consumed })
    MonadState.get

def fail (store : ReplayStore) (commitment : TradeCommitment) (reason : FailureReason) :
    Result TradeRecord × ReplayStore :=
  store.recordMut commitment do
    let record ← MonadState.get
    denyConsumed record.state
    if record.state ∉ [.created, .verified, .settlementConstructed, .submitted] then
      throw (reject record.state .fail)
    -- Only a submitted attempt keeps its txid for the retry to reconcile.
    if record.state ≠ .submitted then
      modify ({ · with priorTxid := none })
    modify ({ · with state := .failed, failureReason := some reason })
    MonadState.get

def expire (store : ReplayStore) (commitment : TradeCommitment) (now : UnixSeconds) :
    Result TradeRecord × ReplayStore :=
  store.recordMut commitment do
    let record ← MonadState.get
    denyConsumed record.state
    if record.state ∉ [.created, .verified, .settlementConstructed, .failed] then
      throw (reject record.state .expire)
    if ¬ record.intent.isExpiredAt now then
      throw (reject record.state .expire)
    modify ({ · with state := .expired })
    MonadState.get

def retryAfterFailure (store : ReplayStore) (commitment : TradeCommitment)
    (acknowledgedTxid : Option SettlementTxId) (now : UnixSeconds) :
    Result TradeRecord × ReplayStore :=
  let maxRetries := store.maxRetries
  store.recordMut commitment do
    let record ← MonadState.get
    denyConsumed record.state
    if record.state ≠ .failed then
      throw (reject record.state .retry)
    expireIfElapsed now
    if record.retryCount ≥ maxRetries then
      throw (.retryBudgetExhausted record.retryCount maxRetries)
    if record.priorTxid ≠ acknowledgedTxid then
      throw .unreconciledPriorSubmission
    -- Below the budget the counter cannot wrap.
    modify (fun record =>
      { record with
        state := .created, failureReason := none, priorTxid := none,
        retryCount := record.retryCount + 1 })
    MonadState.get

end ReplayStore

inductive Operation
  | create (intent : TradeIntent)
  | verify (now : UnixSeconds)
  | acquireConstruction (now : UnixSeconds)
  | submit (txid : SettlementTxId) (now : UnixSeconds)
  | confirm
  | consume
  | fail (reason : FailureReason)
  | expire (now : UnixSeconds)
  | retryAfterFailure (acknowledgedTxid : Option SettlementTxId) (now : UnixSeconds)
  deriving DecidableEq

/-- The event a rejection of the operation names. -/
def Operation.attempted : Operation → LifecycleEvent
  | .create _ => .create
  | .verify _ => .verify
  | .acquireConstruction _ => .acquireConstruction
  | .submit _ _ => .submit
  | .confirm => .confirm
  | .consume => .consume
  | .fail _ => .fail
  | .expire _ => .expire
  | .retryAfterFailure _ _ => .retry

structure Call where
  commitment : TradeCommitment
  operation : Operation
  deriving DecidableEq

def ReplayStore.apply (store : ReplayStore) (call : Call) : Result TradeRecord × ReplayStore :=
  match call.operation with
  | .create intent => store.create call.commitment intent
  | .verify now => store.verify call.commitment now
  | .acquireConstruction now => store.acquireConstruction call.commitment now
  | .submit txid now => store.submit call.commitment txid now
  | .confirm => store.confirm call.commitment
  | .consume => store.consume call.commitment
  | .fail reason => store.fail call.commitment reason
  | .expire now => store.expire call.commitment now
  | .retryAfterFailure acknowledgedTxid now =>
      store.retryAfterFailure call.commitment acknowledgedTxid now

end ZwaProtocol
