import ZwaProtocol.Protocol.TradeHistory

/-!
Consumed and expired trades. The table refuses every operation on them without
touching the record, so no continuation of any run brings one back.
-/
namespace ZwaProtocol
open Machine

theorem TradeRecord.advance_consumed {record : TradeRecord} (h : record.state = .consumed)
    (maxRetries : UInt32) (operation : Operation) :
    record.advance maxRetries operation = (.error .alreadyConsumed, record) := by
  cases operation <;> simp [advance, h]

theorem TradeRecord.advance_expired {record : TradeRecord} (h : record.state = .expired)
    (maxRetries : UInt32) (operation : Operation) :
    record.advance maxRetries operation
      = (.error (.invalidStateTransition .expired operation.attempted), record) := by
  cases operation <;> simp [advance, h]

/-- A record the table only ever refuses stays as it is through every run. -/
theorem ReplayStore.run_of_refused {store : ReplayStore} {commitment : TradeCommitment}
    {record : TradeRecord} {errorOf : Operation → ProtocolError}
    (stored : store.get commitment = some record)
    (refused : ∀ operation,
      record.advance store.maxRetries operation = (.error (errorOf operation), record))
    (calls : List Call) :
    (store.run calls).get commitment = some record ∧
      ∀ e ∈ store.history calls, e.input.commitment = commitment →
        e.output = .error (errorOf e.input.operation) ∧
          e.before.get commitment = some record ∧ e.after.get commitment = some record := by
  have hinduction := history_induction apply
    (motive := fun past present => present.maxRetries = store.maxRetries ∧
      present.get commitment = some record ∧
      ∀ e ∈ past, e.input.commitment = commitment →
        e.output = .error (errorOf e.input.operation) ∧
          e.before.get commitment = some record ∧ e.after.get commitment = some record)
    store ⟨rfl, stored, by simp⟩ ?_ calls
  · exact hinduction.2
  · intro past present call h
    obtain ⟨hretries, hstored, hpast⟩ := h
    obtain ⟨key, operation⟩ := call
    by_cases hkey : key = commitment
    · subst hkey
      have hstep := present.apply_refines key operation
      rw [hstored, hretries, lifecycleStep, refused] at hstep
      obtain ⟨houtput, hafter⟩ := Prod.mk.inj hstep
      refine ⟨(present.apply_maxRetries _).trans hretries, hafter, ?_⟩
      intro e hmem hon
      obtain hmem | hmem := List.mem_append.mp hmem
      · exact hpast e hmem hon
      · rw [List.mem_singleton.mp hmem]
        exact ⟨houtput, hstored, hafter⟩
    · have hframe : (present.apply ⟨key, operation⟩).2.get commitment = some record :=
        (present.apply_get_of_ne hkey).trans hstored
      refine ⟨(present.apply_maxRetries _).trans hretries, hframe, ?_⟩
      intro e hmem hon
      obtain hmem | hmem := List.mem_append.mp hmem
      · exact hpast e hmem hon
      · rw [List.mem_singleton.mp hmem] at hon
        exact absurd hon hkey

/-- Terminal states are absorbing. From any store, once a record is consumed or
expired, no continuation changes it: every later call on its commitment, whatever
its clock, is refused with the error of that state. -/
theorem terminal_records_absorbing (store : ReplayStore) (commitment : TradeCommitment)
    (record : TradeRecord) (stored : store.get commitment = some record) (calls : List Call) :
    (record.state = .consumed →
      (store.run calls).get commitment = some record ∧
      ∀ e ∈ store.history calls, e.input.commitment = commitment →
        e.output = .error .alreadyConsumed ∧
          e.before.get commitment = some record ∧ e.after.get commitment = some record) ∧
    (record.state = .expired →
      (store.run calls).get commitment = some record ∧
      ∀ e ∈ store.history calls, e.input.commitment = commitment →
        e.output = .error (.invalidStateTransition .expired e.input.operation.attempted) ∧
          e.before.get commitment = some record ∧ e.after.get commitment = some record) := by
  constructor
  · intro h
    exact ReplayStore.run_of_refused stored (record.advance_consumed h store.maxRetries) calls
  · intro h
    exact ReplayStore.run_of_refused stored (record.advance_expired h store.maxRetries) calls

theorem terminal_records_absorbing_happyPath :
    (((ReplayStore.withMaxRetries 0).run
          (happyPath ⟨.zero⟩ (.blank 10) ⟨⟨List.replicate 32 0, rfl⟩⟩ ⟨10⟩)).run
        (happyPath ⟨.zero⟩ (.blank 20) ⟨⟨List.replicate 32 1, rfl⟩⟩ ⟨5⟩)).get ⟨.zero⟩
      = some { TradeRecord.created ⟨.zero⟩ (.blank 10) with
          state := .consumed, priorTxid := some ⟨⟨List.replicate 32 0, rfl⟩⟩ } := by
  have hstored := get_run_happyPath 0 ⟨.zero⟩ ⟨⟨List.replicate 32 0, rfl⟩⟩
    (show (TradeIntent.blank 10).isExpiredAt ⟨10⟩ = false by decide)
  exact ((terminal_records_absorbing _ ⟨.zero⟩ _ hstored _).1 rfl).1

end ZwaProtocol
