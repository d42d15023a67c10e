import ZwaProtocol.Protocol.TradeHistory

/-!
Trades do not interfere. A call reads and writes the record of its own commitment,
so what a trade is answered and what becomes of it depend on the calls made on it
and on their order, not on how they interleave with calls on other trades.
-/
namespace ZwaProtocol
open Machine

/-- The result returned to a call, where the call is on this commitment. -/
def StoreEvent.resultOn (commitment : TradeCommitment) (e : StoreEvent) :
    Option (Result TradeRecord) :=
  if e.input.commitment = commitment then some e.output else none

def resultsOn (commitment : TradeCommitment) (events : List StoreEvent) :
    List (Result TradeRecord) :=
  events.filterMap (StoreEvent.resultOn commitment)

def callsOn (commitment : TradeCommitment) (calls : List Call) : List Call :=
  calls.filter (fun call => call.commitment = commitment)

theorem answer_tradeAt (maxRetries : UInt32) (commitment : TradeCommitment) :
    (tradeAt maxRetries commitment).answer = StoreEvent.resultOn commitment := by
  funext e
  by_cases h : e.input.commitment = commitment <;>
    simp [Component.answer, tradeAt, StoreEvent.resultOn, h]

/-- The calls on a commitment are all its trade is shown. -/
theorem select_callsOn (maxRetries : UInt32) (commitment : TradeCommitment) (calls : List Call) :
    (callsOn commitment calls).filterMap (tradeAt maxRetries commitment).select
      = calls.filterMap (tradeAt maxRetries commitment).select := by
  rw [callsOn, List.filterMap_filter]
  apply List.filterMap_congr
  intro call _
  by_cases h : call.commitment = commitment <;> simp [tradeAt, h]

@[simp] theorem callsOn_callsOn (commitment : TradeCommitment) (calls : List Call) :
    callsOn commitment (callsOn commitment calls) = callsOn commitment calls := by
  simp [callsOn]

namespace ReplayStore
variable (store : ReplayStore)

/-- Runs that make the same calls on a commitment agree on it. -/
theorem agree_of_callsOn {calls calls' : List Call} {commitment : TradeCommitment}
    (same : callsOn commitment calls = callsOn commitment calls') :
    resultsOn commitment (store.history calls) = resultsOn commitment (store.history calls') ∧
      (store.run calls).get commitment = (store.run calls').get commitment := by
  have hinv : (tradeAt store.maxRetries commitment).Inv store := rfl
  have hshown : calls.filterMap (tradeAt store.maxRetries commitment).select
      = calls'.filterMap (tradeAt store.maxRetries commitment).select := by
    rw [← select_callsOn, same, select_callsOn]
  have hagree := (tradeAt store.maxRetries commitment).noninterference hinv hshown
  rwa [answer_tradeAt] at hagree

theorem resultsOn_callsOn (commitment : TradeCommitment) (calls : List Call) :
    resultsOn commitment (store.history (callsOn commitment calls))
      = (store.history (callsOn commitment calls)).map Event.output := by
  rw [resultsOn, ← List.filterMap_eq_map']
  apply List.filterMap_congr
  intro e hmem
  obtain ⟨before, after, hcalls, -⟩ := event_of_mem hmem
  have hinput : e.input ∈ callsOn commitment calls := by simp [hcalls]
  have hon : e.input.commitment = commitment := by simpa using List.of_mem_filter hinput
  exact if_pos hon

theorem ext_get {store store' : ReplayStore} (records : ∀ key, store.get key = store'.get key)
    (maxRetries : store.maxRetries = store'.maxRetries) : store = store' := by
  cases store
  cases store'
  have hrecords := Std.ExtTreeMap.ext_getElem? records
  cases hrecords
  cases maxRetries
  rfl

end ReplayStore

/-- Independence of trades. Deleting the calls on every other commitment changes
neither a result returned on `commitment` nor its final record; so runs that make
the same calls on each commitment, in the same order, return the same results and
end in the same store. -/
theorem trades_independent (store : ReplayStore) (calls : List Call) :
    (∀ commitment,
      resultsOn commitment (store.history calls)
          = (store.history (callsOn commitment calls)).map Event.output ∧
        (store.run calls).get commitment
          = (store.run (callsOn commitment calls)).get commitment) ∧
    ∀ calls' : List Call,
      (∀ commitment, callsOn commitment calls = callsOn commitment calls') →
      (∀ commitment, resultsOn commitment (store.history calls)
        = resultsOn commitment (store.history calls')) ∧
      store.run calls = store.run calls' := by
  constructor
  · intro commitment
    rw [← store.resultsOn_callsOn]
    exact store.agree_of_callsOn (callsOn_callsOn commitment calls).symm
  · intro calls' same
    constructor
    · intro commitment
      exact (store.agree_of_callsOn (same commitment)).1
    · apply ReplayStore.ext_get
      · intro key
        exact (store.agree_of_callsOn (same key)).2
      · rw [store.run_maxRetries, store.run_maxRetries]

end ZwaProtocol
