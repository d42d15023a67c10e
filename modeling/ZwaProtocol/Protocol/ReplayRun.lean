import ZwaProtocol.Protocol.TransitionTable

/-!
Runs of the store seen from one trade. Calls on other commitments leave a trade
alone, so its part of any run is a run of the transition table, and every event
of that run is one of a dozen transitions.
-/
namespace ZwaProtocol
open Machine

namespace ReplayStore

def run (store : ReplayStore) (calls : List Call) : ReplayStore :=
  Machine.run apply store calls

def history (store : ReplayStore) (calls : List Call) :
    List (Event ReplayStore Call (Result TradeRecord)) :=
  Machine.history apply store calls

theorem recordMut_maxRetries (store : ReplayStore) (commitment : TradeCommitment)
    (body : RecordM TradeRecord) :
    (store.recordMut commitment body).2.maxRetries = store.maxRetries := by
  unfold recordMut
  split <;> rfl

theorem recordMut_get_of_ne (store : ReplayStore) {key commitment : TradeCommitment}
    (h : key ≠ commitment) (body : RecordM TradeRecord) :
    (store.recordMut key body).2.get commitment = store.get commitment := by
  unfold recordMut
  split
  · rfl
  · simp [get_insert, h]

theorem apply_maxRetries (store : ReplayStore) (call : Call) :
    (store.apply call).2.maxRetries = store.maxRetries := by
  obtain ⟨commitment, operation⟩ := call
  cases operation with
  | create intent =>
      simp only [apply, create]
      split <;> rfl
  | _ => exact recordMut_maxRetries store commitment _

/-- Frame: a call touches nothing but the record of its own commitment. -/
theorem apply_get_of_ne (store : ReplayStore) {call : Call} {commitment : TradeCommitment}
    (h : call.commitment ≠ commitment) :
    (store.apply call).2.get commitment = store.get commitment := by
  obtain ⟨key, operation⟩ := call
  cases operation with
  | create intent =>
      simp only [apply, create]
      split
      · rfl
      · rw [get_insert, if_neg h]
  | _ => exact recordMut_get_of_ne store h _

end ReplayStore

/-- The trade at one commitment as a component of the store. -/
def tradeAt (maxRetries : UInt32) (commitment : TradeCommitment) :
    Component ReplayStore.apply (lifecycleStep maxRetries commitment) where
  Inv store := store.maxRetries = maxRetries
  view store := store.get commitment
  select call := if call.commitment = commitment then some call.operation else none
  inv_step store call h := (store.apply_maxRetries call).trans h
  selected store call operation hinv hselect := by
    obtain ⟨key, shown⟩ := call
    obtain ⟨rfl, rfl⟩ : key = commitment ∧ shown = operation := by simpa using hselect
    have h := store.apply_refines key shown
    rw [hinv] at h
    exact ⟨congrArg Prod.fst h, congrArg Prod.snd h⟩
  skipped store call _ hselect :=
    store.apply_get_of_ne (by simpa using hselect)

/-- What one event can be, from the trade's side. Every transition names its
guards; a refusal leaves the record as it was. -/
inductive Transition (maxRetries : UInt32) (commitment : TradeCommitment) :
    Option TradeRecord → Operation → Result TradeRecord → Option TradeRecord → Prop
  | created (intent : TradeIntent) :
      Transition maxRetries commitment none (.create intent)
        (.ok (.created commitment intent)) (some (.created commitment intent))
  | verified {record next : TradeRecord} {now : UnixSeconds}
      (source : record.state = .created) (live : record.intent.isExpiredAt now = false)
      (edit : next = { record with state := .verified, failureReason := none }) :
      Transition maxRetries commitment (some record) (.verify now) (.ok next) (some next)
  | acquired {record next : TradeRecord} {now : UnixSeconds}
      (source : record.state = .verified) (live : record.intent.isExpiredAt now = false)
      (edit : next = { record with state := .settlementConstructed }) :
      Transition maxRetries commitment (some record) (.acquireConstruction now) (.ok next)
        (some next)
  | submitted {record next : TradeRecord} {txid : SettlementTxId} {now : UnixSeconds}
      (source : record.state = .settlementConstructed)
      (live : record.intent.isExpiredAt now = false)
      (edit : next = { record with state := .submitted, priorTxid := some txid }) :
      Transition maxRetries commitment (some record) (.submit txid now) (.ok next) (some next)
  | confirmed {record next : TradeRecord} (source : record.state = .submitted)
      (edit : next = { record with state := .confirmed }) :
      Transition maxRetries commitment (some record) .confirm (.ok next) (some next)
  | consumed {record next : TradeRecord} (source : record.state = .confirmed)
      (edit : next = { record with state := .consumed }) :
      Transition maxRetries commitment (some record) .consume (.ok next) (some next)
  | failed {record next : TradeRecord} {reason : FailureReason}
      (source : record.state ∈ [.created, .verified, .settlementConstructed])
      (edit : next =
        { record with state := .failed, failureReason := some reason, priorTxid := none }) :
      Transition maxRetries commitment (some record) (.fail reason) (.ok next) (some next)
  | failedSubmission {record next : TradeRecord} {reason : FailureReason}
      (source : record.state = .submitted)
      (edit : next = { record with state := .failed, failureReason := some reason }) :
      Transition maxRetries commitment (some record) (.fail reason) (.ok next) (some next)
  | expired {record next : TradeRecord} {now : UnixSeconds}
      (source : record.state ∈ [.created, .verified, .settlementConstructed, .failed])
      (elapsed : record.intent.isExpiredAt now = true)
      (edit : next = { record with state := .expired }) :
      Transition maxRetries commitment (some record) (.expire now) (.ok next) (some next)
  | retried {record next : TradeRecord} {acknowledgedTxid : Option SettlementTxId}
      {now : UnixSeconds} (source : record.state = .failed)
      (live : record.intent.isExpiredAt now = false) (budget : record.retryCount < maxRetries)
      (reconciled : record.priorTxid = acknowledgedTxid)
      (edit : next =
        { record with
          state := .created, failureReason := none, priorTxid := none,
          retryCount := record.retryCount + 1 }) :
      Transition maxRetries commitment (some record) (.retryAfterFailure acknowledgedTxid now)
        (.ok next) (some next)
  | elapsed {record next : TradeRecord} {operation : Operation} {now : UnixSeconds}
      (gated : record.state = .created ∧ operation = .verify now ∨
        record.state = .verified ∧ operation = .acquireConstruction now ∨
        (∃ txid, record.state = .settlementConstructed ∧ operation = .submit txid now) ∨
        ∃ acknowledgedTxid,
          record.state = .failed ∧ operation = .retryAfterFailure acknowledgedTxid now)
      (elapsed : record.intent.isExpiredAt now = true)
      (edit : next = { record with state := .expired }) :
      Transition maxRetries commitment (some record) operation
        (.error (.expiredTrade record.intent.expiry.get now.get)) (some next)
  | refused {entry : Option TradeRecord} {operation : Operation} {error : ProtocolError}
      (other : ∀ expiry now, error ≠ .expiredTrade expiry now) :
      Transition maxRetries commitment entry operation (.error error) entry

section Table
variable {maxRetries : UInt32} {commitment : TradeCommitment} {record : TradeRecord}
  {operation : Operation} {now : UnixSeconds}

/-- A gated operation finds the record in a state that may expire. -/
theorem source_of_gated
    (gated : record.state = .created ∧ operation = .verify now ∨
      record.state = .verified ∧ operation = .acquireConstruction now ∨
      (∃ txid, record.state = .settlementConstructed ∧ operation = .submit txid now) ∨
      ∃ acknowledgedTxid,
        record.state = .failed ∧ operation = .retryAfterFailure acknowledgedTxid now) :
    record.state ∈ [.created, .verified, .settlementConstructed, .failed] := by
  obtain ⟨source, -⟩ | ⟨source, -⟩ | ⟨_, source, -⟩ | ⟨_, source, -⟩ := gated
  all_goals simp [source]

/-- A gated operation expires an elapsed record and otherwise does what follows the gate. -/
theorem Transition.of_unlessElapsed {next : Result TradeRecord × TradeRecord}
    (gated : record.state = .created ∧ operation = .verify now ∨
      record.state = .verified ∧ operation = .acquireConstruction now ∨
      (∃ txid, record.state = .settlementConstructed ∧ operation = .submit txid now) ∨
      ∃ acknowledgedTxid,
        record.state = .failed ∧ operation = .retryAfterFailure acknowledgedTxid now)
    (onTime : record.intent.isExpiredAt now = false →
      Transition maxRetries commitment (some record) operation next.1 (some next.2)) :
    Transition maxRetries commitment (some record) operation
      (record.unlessElapsed now next).1 (some (record.unlessElapsed now next).2) := by
  unfold TradeRecord.unlessElapsed
  split
  · next h => exact .elapsed gated h rfl
  · next h => exact onTime (by simpa using h)

theorem Transition.of_expire
    (source : record.state ∈ [.created, .verified, .settlementConstructed, .failed]) :
    Transition maxRetries commitment (some record) (.expire now)
      (if record.intent.isExpiredAt now then { record with state := .expired }.accept
        else (.error (.invalidStateTransition record.state .expire), record)).1
      (some (if record.intent.isExpiredAt now then { record with state := .expired }.accept
        else (.error (.invalidStateTransition record.state .expire), record)).2) := by
  split
  · next h => exact .expired source h rfl
  · exact .refused (by simp)

end Table

theorem lifecycleStep_transition (maxRetries : UInt32) (commitment : TradeCommitment)
    (entry : Option TradeRecord) (operation : Operation) :
    Transition maxRetries commitment entry operation
      (lifecycleStep maxRetries commitment entry operation).1
      (lifecycleStep maxRetries commitment entry operation).2 := by
  cases entry with
  | none =>
      cases operation with
      | create intent => exact .created intent
      | _ => exact .refused (by simp)
  | some record =>
      simp only [lifecycleStep, TradeRecord.advance]
      split
      · exact .refused (by simp)
      · next now source =>
          exact .of_unlessElapsed (.inl ⟨source, rfl⟩) (fun live => .verified source live rfl)
      · next now source =>
          exact .of_unlessElapsed (.inr (.inl ⟨source, rfl⟩))
            (fun live => .acquired source live rfl)
      · next txid now source =>
          exact .of_unlessElapsed (.inr (.inr (.inl ⟨txid, source, rfl⟩)))
            (fun live => .submitted source live rfl)
      · next source => exact .confirmed source rfl
      · next source => exact .consumed source rfl
      · next source => exact .failed (by simp [source]) rfl
      · next source => exact .failed (by simp [source]) rfl
      · next source => exact .failed (by simp [source]) rfl
      · next source => exact .failedSubmission source rfl
      · next source => exact .of_expire (by simp [source])
      · next source => exact .of_expire (by simp [source])
      · next source => exact .of_expire (by simp [source])
      · next source => exact .of_expire (by simp [source])
      · next acknowledgedTxid now source =>
          refine .of_unlessElapsed (.inr (.inr (.inr ⟨acknowledgedTxid, source, rfl⟩)))
            (fun live => ?_)
          split
          · exact .refused (by simp)
          · next budget =>
              split
              · exact .refused (by simp)
              · next reconciled =>
                  exact .retried source live (by simpa using budget)
                    (by simpa using reconciled) rfl
      · exact .refused (by simp)

namespace ReplayStore

theorem apply_transition (store : ReplayStore) (commitment : TradeCommitment)
    (operation : Operation) :
    Transition store.maxRetries commitment (store.get commitment) operation
      (store.apply ⟨commitment, operation⟩).1
      ((store.apply ⟨commitment, operation⟩).2.get commitment) := by
  have hstep :=
    lifecycleStep_transition store.maxRetries commitment (store.get commitment) operation
  rwa [← store.apply_refines commitment operation] at hstep

theorem run_maxRetries (store : ReplayStore) (calls : List Call) :
    (store.run calls).maxRetries = store.maxRetries :=
  run_induction apply (motive := fun reached => reached.maxRetries = store.maxRetries) store rfl
    (fun reached call h => (reached.apply_maxRetries call).trans h) calls

end ReplayStore

end ZwaProtocol
