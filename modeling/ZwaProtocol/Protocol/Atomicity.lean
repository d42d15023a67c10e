import ZwaProtocol.Protocol.Independence

/-!
Failed calls. A rejection leaves the whole store as it was; the one exception is the
expiry gate, which moves the record of the call to `EXPIRED` and touches nothing else.
-/
namespace ZwaProtocol

/-- What a failed call did to the record it was asked about. -/
theorem Transition.of_error {maxRetries : UInt32} {commitment : TradeCommitment}
    {entry entry' : Option TradeRecord} {operation : Operation} {error : ProtocolError}
    (h : Transition maxRetries commitment entry operation (.error error) entry') :
    (entry' = entry ∧ ∀ expiry now, error ≠ .expiredTrade expiry now) ∨
    ∃ record now, entry = some record ∧
      (record.state = .created ∧ operation = .verify now ∨
        record.state = .verified ∧ operation = .acquireConstruction now ∨
        (∃ txid, record.state = .settlementConstructed ∧ operation = .submit txid now) ∨
        ∃ acknowledgedTxid,
          record.state = .failed ∧ operation = .retryAfterFailure acknowledgedTxid now) ∧
      record.intent.isExpiredAt now = true ∧
      error = .expiredTrade record.intent.expiry.get now.get ∧
      entry' = some { record with state := .expired } := by
  cases h with
  | elapsed gated elapsed edit =>
      subst edit
      exact .inr ⟨_, _, rfl, gated, elapsed, rfl, rfl⟩
  | refused other => exact .inl ⟨rfl, other⟩

namespace ReplayStore
variable {store : ReplayStore} {call : Call}

/-- A call that leaves its own record alone leaves the store alone. -/
theorem apply_eq_self
    (same : (store.apply call).2.get call.commitment = store.get call.commitment) :
    (store.apply call).2 = store := by
  refine ext_get (fun key => ?_) (store.apply_maxRetries call)
  by_cases hkey : call.commitment = key
  · rw [← hkey, same]
  · exact store.apply_get_of_ne hkey

/-- A call is the replacement of its own record. -/
theorem apply_eq_insert {record : TradeRecord}
    (stored : (store.apply call).2.get call.commitment = some record) :
    (store.apply call).2
      = { store with records := store.records.insert call.commitment record } := by
  refine ext_get (fun key => ?_) (store.apply_maxRetries call)
  rw [get_insert]
  by_cases hkey : call.commitment = key
  · rw [if_pos hkey, ← hkey, stored]
  · rw [if_neg hkey, store.apply_get_of_ne hkey]

end ReplayStore

/-- Failed calls are atomic, on every store. An error other than `ExpiredTrade` leaves
the store unchanged. `ExpiredTrade` comes from the gate of one of four calls, on a
record in the state that call expects, past the committed expiry at the time of the
call; the state of that record becomes `EXPIRED`, and nothing else in the store changes. -/
theorem failed_calls_atomic (store : ReplayStore) (call : Call) (error : ProtocolError)
    (failed : (store.apply call).1 = .error error) :
    ((∀ expiry now, error ≠ .expiredTrade expiry now) → (store.apply call).2 = store) ∧
    ∀ expiry now, error = .expiredTrade expiry now →
      ∃ record, store.get call.commitment = some record ∧
        (record.state = .created ∧ call.operation = .verify ⟨now⟩ ∨
          record.state = .verified ∧ call.operation = .acquireConstruction ⟨now⟩ ∨
          (∃ txid, record.state = .settlementConstructed ∧
            call.operation = .submit txid ⟨now⟩) ∨
          ∃ acknowledgedTxid, record.state = .failed ∧
            call.operation = .retryAfterFailure acknowledgedTxid ⟨now⟩) ∧
        expiry = record.intent.expiry.get ∧ expiry < now ∧
        (store.apply call).2
          = { store with
              records := store.records.insert call.commitment
                { record with state := .expired } } := by
  have htransition := store.apply_transition call.commitment call.operation
  rw [failed] at htransition
  obtain ⟨hsame, hother⟩ | ⟨record, now, hstored, hgated, helapsed, herror, hafter⟩ :=
    htransition.of_error
  · constructor
    · intro _
      exact ReplayStore.apply_eq_self hsame
    · intro expiry now herror
      exact absurd herror (hother expiry now)
  · constructor
    · intro hother
      exact absurd herror (hother _ _)
    · intro expiry instant hexpired
      rw [herror, ProtocolError.expiredTrade.injEq] at hexpired
      obtain ⟨rfl, rfl⟩ := hexpired
      exact ⟨record, hstored, hgated, rfl, TradeIntent.isExpiredAt_eq_true.mp helapsed,
        ReplayStore.apply_eq_insert hafter⟩

/-- A trade whose settlement was constructed in time and is submitted one second late. -/
theorem failed_calls_atomic_submission :
    let store := (ReplayStore.withMaxRetries 0).run
      ([.create (.blank 10), .verify ⟨10⟩, .acquireConstruction ⟨10⟩].map (Call.mk ⟨.zero⟩))
    let submission : Call := ⟨⟨.zero⟩, .submit ⟨⟨List.replicate 32 1, rfl⟩⟩ ⟨11⟩⟩
    ∃ record, store.get ⟨.zero⟩ = some record ∧
      (store.apply submission).2
        = { store with
            records := store.records.insert ⟨.zero⟩ { record with state := .expired } } := by
  intro store submission
  have hfailed : (store.apply submission).1 = .error (.expiredTrade 10 11) := rfl
  obtain ⟨record, hstored, -, -, -, hafter⟩ :=
    (failed_calls_atomic store submission _ hfailed).2 10 11 rfl
  exact ⟨record, hstored, hafter⟩

end ZwaProtocol
