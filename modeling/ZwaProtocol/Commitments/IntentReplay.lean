import ZwaProtocol.Commitments.TradeBinding
import ZwaProtocol.Protocol.RecordInvariant

/-!
The commitment engine composed with the replay store. When every creation passes
the commitment of its own intent, a record's key commits to the record's intent,
so replay protection by key is replay protection by intent.
-/
namespace ZwaProtocol
open Machine HashStaging

/-- A creation passes the commitment of the intent it stores. -/
def Call.BindsIntent (H : List Fr → Fr) (call : Call) : Prop :=
  ∀ intent, call.operation = .create intent →
    call.commitment = (tradeCommitmentV1 H intent).value

theorem mem_calls_of_success {store : ReplayStore} {calls : List Call}
    {commitment : TradeCommitment} {operation : Operation}
    (h : operation ∈ successesOn commitment (store.history calls)) :
    ⟨commitment, operation⟩ ∈ calls := by
  obtain ⟨e, hmem, hsuccess⟩ := List.mem_filterMap.mp h
  obtain ⟨before, after, rfl, -, -⟩ := ReplayStore.event_of_mem hmem
  rw [StoreEvent.success] at hsuccess
  split at hsuccess
  · next hon =>
      rw [← hon.1, ← Option.some.inj hsuccess]
      simp
  · exact absurd hsuccess (by simp)

theorem key_commits_to_intent {H : List Fr → Fr} {maxRetries : UInt32} {calls : List Call}
    (bound : ∀ call ∈ calls, call.BindsIntent H) {key : TradeCommitment} {record : TradeRecord}
    (stored : ((ReplayStore.withMaxRetries maxRetries).run calls).get key = some record) :
    record.commitment = key ∧ key = (tradeCommitmentV1 H record.intent).value := by
  have hrecorded := recorded_run maxRetries key calls
  rw [stored] at hrecorded
  exact ⟨hrecorded.key, bound _ (mem_calls_of_success hrecorded.creation) record.intent rfl⟩

def Operation.gateTime : Operation → Option UnixSeconds
  | .verify now | .acquireConstruction now | .submit _ now | .retryAfterFailure _ now => some now
  | _ => none

/-- The gates read the expiry of the stored intent and nothing else. -/
theorem Transition.gate {maxRetries : UInt32} {commitment : TradeCommitment} {record : TradeRecord}
    {entry' : Option TradeRecord} {operation : Operation} {result : Result TradeRecord}
    (step : Transition maxRetries commitment (some record) operation result entry') :
    (∀ expiry now, result = .error (.expiredTrade expiry now) →
      expiry = record.intent.expiry.get ∧ expiry < now) ∧
    ∀ now, operation.gateTime = some now → result.isOk = true →
      now.get ≤ record.intent.expiry.get := by
  cases step with
  | verified _ live _ | acquired _ live _ | submitted _ live _ | retried _ live _ _ _ =>
      refine ⟨by simp, fun now hnow _ => ?_⟩
      cases Option.some.inj hnow
      exact TradeIntent.isExpiredAt_eq_false.mp live
  | confirmed _ _ | consumed _ _ | failed _ _ | failedSubmission _ _ | expired _ _ _ =>
      exact ⟨by simp, by simp [Operation.gateTime]⟩
  | elapsed _ elapsed _ =>
      refine ⟨fun expiry now heq => ?_, fun _ _ hok => by simp [Except.isOk, Except.toBool] at hok⟩
      simp only [Except.error.injEq, ProtocolError.expiredTrade.injEq] at heq
      obtain ⟨rfl, rfl⟩ := heq
      exact ⟨rfl, TradeIntent.isExpiredAt_eq_true.mp elapsed⟩
  | refused other =>
      refine ⟨fun expiry now heq => ?_, fun _ _ hok => by simp [Except.isOk, Except.toBool] at hok⟩
      exact absurd (Except.error.inj heq) (other expiry now)

/-- Replay protection at the level of intents. In a run whose creations pass the
commitment of their intent: every record's key commits to its intent, whose
expiry every gate reads; an intent is consumed at most once; and a rejected
creation met a record of the same intent, or a Poseidon collision. -/
theorem intents_consumed_at_most_once (H : List Fr → Fr) (maxRetries : UInt32)
    (calls : List Call) (bound : ∀ call ∈ calls, call.BindsIntent H) :
    let history := (ReplayStore.withMaxRetries maxRetries).history calls
    (∀ key record, ((ReplayStore.withMaxRetries maxRetries).run calls).get key = some record →
      record.commitment = key ∧ key = (tradeCommitmentV1 H record.intent).value) ∧
    (∀ e ∈ history, ∀ record, e.before.get e.input.commitment = some record →
      e.input.commitment = (tradeCommitmentV1 H record.intent).value ∧
      (∀ expiry now, e.output = .error (.expiredTrade expiry now) →
        expiry = record.intent.expiry.get ∧ expiry < now) ∧
      ∀ now, e.input.operation.gateTime = some now → e.output.isOk = true →
        now.get ≤ record.intent.expiry.get) ∧
    (∀ intent : TradeIntent,
      (successesOn (tradeCommitmentV1 H intent).value history).count .consume ≤ 1) ∧
    ∀ e ∈ history, ∀ (intent : TradeIntent) (error : ProtocolError),
      e.input.operation = .create intent → e.output = .error error →
      ∃ record, e.before.get e.input.commitment = some record ∧
        (record.intent = intent ∨ Collision H
          ((tradeCommitmentParts H record.intent).inputs
            ++ (tradeCommitmentParts H intent).inputs)) := by
  intro history
  refine ⟨fun key record stored => key_commits_to_intent bound stored, ?_, ?_, ?_⟩
  · intro e hmem record hbefore
    obtain ⟨before, after, rfl, hstore, -⟩ := ReplayStore.event_of_mem hmem
    have hstep := ReplayStore.transition_of_mem hmem
    rw [hbefore] at hstep
    rw [hstore] at hbefore
    have hkey := key_commits_to_intent
      (fun call hcall => bound call (List.mem_append_left _ hcall)) hbefore
    exact ⟨hkey.2, hstep.gate⟩
  · intro intent
    exact count_consume_le_one maxRetries _ calls
  · intro e hmem intent error hcreate herror
    obtain ⟨before, after, rfl, hstore, hstep⟩ := ReplayStore.event_of_mem hmem
    have hcommits := bound e.input (by simp) intent hcreate
    rw [hcreate, herror] at hstep
    cases hentry : e.before.get e.input.commitment with
    | none =>
        rw [hentry] at hstep
        exact absurd (congrArg Prod.fst hstep) (by simp [lifecycleStep])
    | some record =>
        have hstored := key_commits_to_intent
          (fun call hcall => bound call (List.mem_append_left _ hcall)) (hstore ▸ hentry)
        exact ⟨record, rfl, intent_eq_or_collision H (hstored.2.symm.trans hcommits)⟩

def presentedTwice : List Call :=
  let path := happyPath (tradeCommitmentV1 (fun _ => 0) (.blank 10)).value (.blank 10)
    ⟨.replicate 32 0⟩ ⟨10⟩
  path ++ path

theorem intents_consumed_at_most_once_presentedTwice :
    (successesOn (tradeCommitmentV1 (fun _ => 0) (.blank 10)).value
      ((ReplayStore.withMaxRetries 3).history presentedTwice)).count .consume ≤ 1 :=
  (intents_consumed_at_most_once (fun _ => 0) 3 presentedTwice (by
    intro call hmem intent hcreate
    simp only [presentedTwice, happyPath, List.map_cons, List.map_nil, List.mem_append,
      or_self, List.mem_cons, List.not_mem_nil, or_false] at hmem
    obtain rfl | rfl | rfl | rfl | rfl | rfl := hmem <;> simp_all)).2.2.1 (.blank 10)

end ZwaProtocol
