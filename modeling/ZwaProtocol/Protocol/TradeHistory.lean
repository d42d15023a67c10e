import ZwaProtocol.Protocol.ReplayRun

/-!
What a run records about one trade: its events, the operations that succeeded
and the events that changed its record. An invariant of the record and of this
past is proved once per transition and then holds after every run of the store.
-/
namespace ZwaProtocol
open Machine

/-- One call as the store saw it. -/
abbrev StoreEvent := Event ReplayStore Call (Result TradeRecord)

/-- One call on a trade as that trade saw it. -/
abbrev TradeEvent := Event (Option TradeRecord) Operation (Result TradeRecord)

namespace StoreEvent

/-- The operation, where it was asked of this commitment and succeeded. -/
def success (commitment : TradeCommitment) (e : StoreEvent) : Option Operation :=
  if e.input.commitment = commitment ∧ e.output.isOk then some e.input.operation else none

def changes (commitment : TradeCommitment) (e : StoreEvent) : Bool :=
  e.before.get commitment ≠ e.after.get commitment

end StoreEvent

namespace TradeEvent

def success (e : TradeEvent) : Option Operation :=
  if e.output.isOk then some e.input else none

def changes (e : TradeEvent) : Bool := e.before ≠ e.after

end TradeEvent

def successesOn (commitment : TradeCommitment) (events : List StoreEvent) : List Operation :=
  events.filterMap (StoreEvent.success commitment)

def successes (events : List TradeEvent) : List Operation :=
  events.filterMap TradeEvent.success

@[simp] theorem successes_nil : successes [] = [] := rfl

theorem successes_concat (events : List TradeEvent) (e : TradeEvent) :
    successes (events ++ [e]) = successes events ++ e.success.toList := by
  rw [successes, List.filterMap_append]
  cases h : e.success <;> simp [successes, h]

@[simp] theorem successes_concat_ok (events : List TradeEvent) (before after : Option TradeRecord)
    (operation : Operation) (record : TradeRecord) :
    successes (events ++ [⟨before, operation, .ok record, after⟩])
      = successes events ++ [operation] := by
  simp [successes_concat, TradeEvent.success, Except.isOk, Except.toBool]

@[simp] theorem successes_concat_error (events : List TradeEvent)
    (before after : Option TradeRecord) (operation : Operation) (error : ProtocolError) :
    successes (events ++ [⟨before, operation, .error error, after⟩]) = successes events := by
  simp [successes_concat, TradeEvent.success, Except.isOk, Except.toBool]

section Projection
variable (maxRetries : UInt32) (commitment : TradeCommitment)

/-- The trade's own record of a stretch of the store's history. -/
def tradeEvents (events : List StoreEvent) : List TradeEvent :=
  events.filterMap (tradeAt maxRetries commitment).project

theorem project_eq (e : StoreEvent) :
    (tradeAt maxRetries commitment).project e =
      if e.input.commitment = commitment then
        some ⟨e.before.get commitment, e.input.operation, e.output, e.after.get commitment⟩
      else none := by
  by_cases h : e.input.commitment = commitment <;> simp [Component.project, tradeAt, h]

theorem successes_tradeEvents (events : List StoreEvent) :
    successes (tradeEvents maxRetries commitment events) = successesOn commitment events := by
  rw [successes, tradeEvents, List.filterMap_filterMap, successesOn]
  congr 1
  funext e
  by_cases h : e.input.commitment = commitment <;>
    simp [project_eq, h, StoreEvent.success, TradeEvent.success]

variable {maxRetries commitment}

theorem tradeEvents_eq_append_cons {events : List StoreEvent} {past future : List TradeEvent}
    {now : TradeEvent} (h : tradeEvents maxRetries commitment events = past ++ now :: future) :
    ∃ before e after, events = before ++ e :: after ∧
      tradeEvents maxRetries commitment before = past ∧
      (tradeAt maxRetries commitment).project e = some now ∧
      tradeEvents maxRetries commitment after = future := by
  obtain ⟨before, rest, rfl, hpast, hrest⟩ := List.filterMap_eq_append_iff.mp h
  obtain ⟨skipped, e, after, rfl, hskipped, hnow, hfuture⟩ := List.filterMap_eq_cons_iff.mp hrest
  refine ⟨before ++ skipped, e, after, by simp, ?_, hnow, hfuture⟩
  rw [tradeEvents, List.filterMap_append, hpast, List.filterMap_eq_nil_iff.mpr hskipped,
    List.append_nil]

end Projection

/-- The record a run leaves is the table's, on the calls made to its trade. -/
theorem ReplayStore.get_run (maxRetries : UInt32) (commitment : TradeCommitment)
    (calls : List Call) :
    ((withMaxRetries maxRetries).run calls).get commitment
      = Machine.run (lifecycleStep maxRetries commitment) none
          (calls.filterMap (tradeAt maxRetries commitment).select) := by
  have hinv : (tradeAt maxRetries commitment).Inv (withMaxRetries maxRetries) := rfl
  have hrun := (tradeAt maxRetries commitment).view_run hinv calls
  rw [← get_withMaxRetries maxRetries commitment]
  exact hrun

theorem ReplayStore.history_append (store : ReplayStore) (earlier later : List Call) :
    store.history (earlier ++ later)
      = store.history earlier ++ (store.run earlier).history later :=
  Machine.history_append apply store earlier later

/-- Every event of a history follows the table at the state the earlier calls
lead to. -/
theorem ReplayStore.event_of_mem {store : ReplayStore} {calls : List Call} {e : StoreEvent}
    (h : e ∈ store.history calls) :
    ∃ before after, calls = before ++ e.input :: after ∧ e.before = store.run before ∧
      (e.output, e.after.get e.input.commitment)
        = lifecycleStep store.maxRetries e.input.commitment
            (e.before.get e.input.commitment) e.input.operation := by
  obtain ⟨before, call, after, rfl, rfl⟩ := mem_history _ h
  refine ⟨before, after, rfl, rfl, ?_⟩
  rw [← store.run_maxRetries before]
  exact (store.run before).apply_refines call.commitment call.operation

theorem ReplayStore.transition_of_mem {store : ReplayStore} {calls : List Call} {e : StoreEvent}
    (h : e ∈ store.history calls) :
    Transition store.maxRetries e.input.commitment (e.before.get e.input.commitment)
      e.input.operation e.output (e.after.get e.input.commitment) := by
  obtain ⟨_, _, _, _, hstep⟩ := ReplayStore.event_of_mem h
  have htransition := lifecycleStep_transition store.maxRetries e.input.commitment
    (e.before.get e.input.commitment) e.input.operation
  rwa [← hstep] at htransition

/-- Only a call on a commitment changes its record. -/
theorem ReplayStore.history_frame {store : ReplayStore} {calls : List Call}
    {commitment : TradeCommitment} {e : StoreEvent} (h : e ∈ store.history calls)
    (changes : e.changes commitment = true) : e.input.commitment = commitment := by
  obtain ⟨before, call, after, -, rfl⟩ := mem_history _ h
  change call.commitment = commitment
  by_contra hne
  have hframe := (Machine.run apply store before).apply_get_of_ne hne
  simp [StoreEvent.changes, event, hframe] at changes

/-- An invariant of one trade: what every transition keeps holds after every
run of the store, whatever happened on other trades in between. -/
theorem replay_induction {maxRetries : UInt32} {commitment : TradeCommitment}
    {motive : List TradeEvent → Option TradeRecord → Prop} (start : motive [] none)
    (next : ∀ past entry operation result entry', motive past entry →
      Transition maxRetries commitment entry operation result entry' →
      motive (past ++ [⟨entry, operation, result, entry'⟩]) entry')
    (calls : List Call) :
    motive
      (tradeEvents maxRetries commitment ((ReplayStore.withMaxRetries maxRetries).history calls))
      (((ReplayStore.withMaxRetries maxRetries).run calls).get commitment) := by
  have hinv : (tradeAt maxRetries commitment).Inv (ReplayStore.withMaxRetries maxRetries) := rfl
  have hhistory := (tradeAt maxRetries commitment).project_history hinv calls
  rw [ReplayStore.get_run, tradeEvents, ReplayStore.history, hhistory,
    ← ReplayStore.get_withMaxRetries maxRetries commitment]
  change motive (Machine.history _ ((ReplayStore.withMaxRetries maxRetries).get commitment) _) _
  rw [ReplayStore.get_withMaxRetries]
  exact history_induction _ none start (fun past present operation h =>
    next past present operation _ _ h
      (lifecycleStep_transition maxRetries commitment present operation)) _

def happyPath (commitment : TradeCommitment) (intent : TradeIntent) (txid : SettlementTxId)
    (now : UnixSeconds) : List Call :=
  [.create intent, .verify now, .acquireConstruction now, .submit txid now, .confirm,
    .consume].map (Call.mk commitment)

/-- A live trade that nothing interferes with is consumed. -/
theorem get_run_happyPath (maxRetries : UInt32) (commitment : TradeCommitment)
    {intent : TradeIntent} (txid : SettlementTxId) {now : UnixSeconds}
    (live : intent.isExpiredAt now = false) :
    ((ReplayStore.withMaxRetries maxRetries).run (happyPath commitment intent txid now)).get
        commitment
      = some { TradeRecord.created commitment intent with
          state := .consumed, priorTxid := some txid } := by
  rw [ReplayStore.get_run]
  simp [happyPath, tradeAt, lifecycleStep, TradeRecord.advance, TradeRecord.unlessElapsed,
    TradeRecord.accept, TradeRecord.created, live]

end ZwaProtocol
