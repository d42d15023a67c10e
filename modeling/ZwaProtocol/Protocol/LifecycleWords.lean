import ZwaProtocol.Library.Words
import ZwaProtocol.Protocol.DeadEnds
import ZwaProtocol.Protocol.LifecycleBudget

/-!
The lifecycle as its callers see it. The answers of a store spell one word of lifecycle
events for each trade; the words are those of a small automaton, and every interleaving
of them over all trades is spelled by some run.
-/
namespace ZwaProtocol
open Machine

/-- What the lifecycle keeps of a trade: where it stands and how often it was retried. -/
inductive LifecycleStage
  | absent
  | stored (state : TradeLifecycleState) (retries : Nat)
  deriving DecidableEq

/-- The lifecycle diagram with its retry bound. A trade that expires at the last second a
clock can show never does. -/
def LifecycleStage.next (maxRetries : Nat) (mayExpire : Bool) :
    LifecycleStage → LifecycleEvent → Option LifecycleStage
  | .absent, .create => some (.stored .created 0)
  | .stored .created retries, .verify => some (.stored .verified retries)
  | .stored .verified retries, .acquireConstruction =>
      some (.stored .settlementConstructed retries)
  | .stored .settlementConstructed retries, .submit => some (.stored .submitted retries)
  | .stored .submitted retries, .confirm => some (.stored .confirmed retries)
  | .stored .confirmed retries, .consume => some (.stored .consumed retries)
  | .stored state retries, .fail =>
      if state ∈ [.created, .verified, .settlementConstructed, .submitted] then
        some (.stored .failed retries)
      else none
  | .stored state retries, .expire =>
      if mayExpire ∧ state ∈ [.created, .verified, .settlementConstructed, .failed] then
        some (.stored .expired retries)
      else none
  | .stored .failed retries, .retry =>
      if retries < maxRetries then some (.stored .created (retries + 1)) else none
  | _, _ => none

/-- The events that the expiry gate guards. -/
def LifecycleEvent.gated : LifecycleEvent → Bool
  | .verify | .acquireConstruction | .submit | .retry => true
  | _ => false

theorem LifecycleStage.mayExpire_of_next {maxRetries : Nat} {mayExpire : Bool}
    {stage target : LifecycleStage}
    (edge : stage.next maxRetries mayExpire .expire = some target) : mayExpire = true := by
  cases stage with
  | absent => simp [next] at edge
  | stored state retries =>
      simp only [next] at edge
      split at edge
      · next h => exact h.1
      · cases edge

theorem LifecycleStage.next_expire {maxRetries retries : Nat} {state : TradeLifecycleState}
    (source : state ∈ [.created, .verified, .settlementConstructed, .failed]) :
    (stored state retries).next maxRetries true .expire = some (.stored .expired retries) := by
  simp only [List.mem_cons, List.not_mem_nil, or_false] at source
  obtain rfl | rfl | rfl | rfl := source
  all_goals rfl

theorem LifecycleStage.next_fail {maxRetries retries : Nat} {mayExpire : Bool}
    {state : TradeLifecycleState}
    (source : state ∈ [.created, .verified, .settlementConstructed]) :
    (stored state retries).next maxRetries mayExpire .fail = some (.stored .failed retries) := by
  simp only [List.mem_cons, List.not_mem_nil, or_false] at source
  obtain rfl | rfl | rfl := source
  all_goals rfl

/-- No edge of the diagram is a loop. -/
theorem LifecycleStage.next_ne {maxRetries : Nat} {mayExpire : Bool}
    {stage target : LifecycleStage} {event : LifecycleEvent}
    (edge : stage.next maxRetries mayExpire event = some target) : target ≠ stage := by
  rintro rfl
  cases target with
  | absent => cases event <;> simp [next] at edge
  | stored state retries => cases state <;> cases event <;> simp [next] at edge

def stageOf : Option TradeRecord → LifecycleStage
  | none => .absent
  | some record => .stored record.state record.retryCount.toNat

/-- The event that an answer reports: the one asked for, or the expiry that the gate wrote
before it refused. -/
def reported (operation : Operation) : Result TradeRecord → Option LifecycleEvent
  | .ok _ => some operation.attempted
  | .error (.expiredTrade _ _) => some .expire
  | .error _ => none

theorem reported_refusal {error : ProtocolError}
    (other : ∀ expiry now, error ≠ .expiredTrade expiry now) (operation : Operation) :
    reported operation (.error error) = none := by
  unfold reported
  split
  · next h => cases h
  · next expiry now h => exact absurd (Except.error.inj h) (other expiry now)
  · rfl

def StoreEvent.reported (e : StoreEvent) : Option (TradeCommitment × LifecycleEvent) :=
  (ZwaProtocol.reported e.input.operation e.output).map (Prod.mk e.input.commitment)

def reportedWord (events : List StoreEvent) : List (TradeCommitment × LifecycleEvent) :=
  events.filterMap StoreEvent.reported

def TradeIntent.mayExpire (intent : TradeIntent) : Bool := intent.expiry.get < u64Max

theorem TradeIntent.mayExpire_of_isExpiredAt {intent : TradeIntent} {now : UnixSeconds}
    (h : intent.isExpiredAt now = true) : intent.mayExpire = true := by
  have hbefore := TradeIntent.isExpiredAt_eq_true.mp h
  exact decide_eq_true (UInt64.lt_of_lt_of_le hbefore (le_u64Max _))

theorem TradeIntent.isExpiredAt_u64Max {intent : TradeIntent} (h : intent.mayExpire = true) :
    intent.isExpiredAt ⟨u64Max⟩ = true :=
  TradeIntent.isExpiredAt_eq_true.mpr (of_decide_eq_true h)

section Table
variable {maxRetries : UInt32} {commitment : TradeCommitment}
  {entry entry' : Option TradeRecord} {operation : Operation} {result : Result TradeRecord}

/-- Step lemma: what is stored stays stored, with its intent. -/
theorem Transition.keeps_intent {record : TradeRecord}
    (step : Transition maxRetries commitment (some record) operation result entry') :
    ∃ next, entry' = some next ∧ next.intent = record.intent := by
  cases step with
  | verified _ _ edit | acquired _ _ edit | submitted _ _ edit | confirmed _ edit
  | consumed _ edit | failed _ edit | failedSubmission _ edit | expired _ _ edit
  | retried _ _ _ _ edit | elapsed _ _ edit => exact ⟨_, rfl, by rw [edit]⟩
  | refused _ => exact ⟨record, rfl, rfl⟩

/-- Step lemma: an answer that reports nothing leaves the trade alone, and an event is
reported only where the diagram has it. -/
theorem Transition.follows {intent : TradeIntent}
    (step : Transition maxRetries commitment entry operation result entry')
    (kept : ∀ record, entry' = some record → record.intent = intent) :
    match reported operation result with
    | none => entry' = entry
    | some event =>
        (stageOf entry).next maxRetries.toNat intent.mayExpire event = some (stageOf entry') := by
  cases step with
  | created _ => rfl
  | verified source _ edit | acquired source _ edit | submitted source _ edit
  | confirmed source edit | consumed source edit | failedSubmission source edit =>
      subst edit
      simp [reported, Operation.attempted, stageOf, LifecycleStage.next, source]
  | failed source edit =>
      subst edit
      exact LifecycleStage.next_fail source
  | expired source elapsed edit =>
      have hmay := TradeIntent.mayExpire_of_isExpiredAt elapsed
      have hintent := kept _ rfl
      subst edit
      rw [show intent.mayExpire = true from hintent ▸ hmay]
      exact LifecycleStage.next_expire source
  | retried source _ budget _ edit =>
      have hbudget := UInt32.lt_iff_toNat_lt.mp budget
      have hcount := toNat_succ_of_lt budget
      subst edit
      simp [reported, Operation.attempted, stageOf, LifecycleStage.next, source, hbudget, hcount]
  | elapsed gated elapsed edit =>
      have hmay := TradeIntent.mayExpire_of_isExpiredAt elapsed
      have hintent := kept _ rfl
      subst edit
      rw [show intent.mayExpire = true from hintent ▸ hmay]
      exact LifecycleStage.next_expire (source_of_gated gated)
  | refused other => rw [reported_refusal other]

/-- An operation that takes an edge, with the reading of the clock where it needs one. -/
def performing (intent : TradeIntent) (entry : Option TradeRecord) (now : UnixSeconds) :
    LifecycleEvent → Operation
  | .create => .create intent
  | .verify => .verify now
  | .acquireConstruction => .acquireConstruction now
  | .submit => .submit ⟨.replicate 32 0⟩ now
  | .confirm => .confirm
  | .consume => .consume
  | .fail => .fail .constructionFailed
  | .expire => .expire now
  | .retry => .retryAfterFailure (entry.bind TradeRecord.priorTxid) now

@[simp] theorem attempted_performing (intent : TradeIntent) (entry : Option TradeRecord)
    (now : UnixSeconds) (event : LifecycleEvent) :
    (performing intent entry now event).attempted = event := by
  cases event <;> rfl

/-- The reading lets an event happen: the gate is open for it, or the trade has expired. -/
structure TradeIntent.Permits (intent : TradeIntent) (now : UnixSeconds)
    (event : LifecycleEvent) : Prop where
  live : event.gated = true → intent.isExpiredAt now = false
  elapsed : event = .expire → intent.isExpiredAt now = true

variable (commitment) in
/-- Every edge of the diagram is taken by a call that succeeds. -/
theorem lifecycleStep_performing {intent : TradeIntent} {now : UnixSeconds}
    {event : LifecycleEvent} {target : LifecycleStage} (permits : intent.Permits now event)
    (kept : ∀ record, entry = some record → record.intent = intent)
    (edge : (stageOf entry).next maxRetries.toNat intent.mayExpire event = some target) :
    ∃ next, lifecycleStep maxRetries commitment entry (performing intent entry now event)
        = (.ok next, some next) ∧ stageOf (some next) = target ∧ next.intent = intent := by
  cases entry with
  | none =>
      cases event with
      | create => exact ⟨.created commitment intent, rfl, Option.some.inj edge, rfl⟩
      | _ => simp [stageOf, LifecycleStage.next] at edge
  | some record =>
      obtain ⟨key, stored, state, reason, txid, retryCount⟩ := record
      have hintent : stored = intent := kept _ rfl
      subst hintent
      cases event with
      | create => cases state <;> simp [stageOf, LifecycleStage.next] at edge
      | verify | acquireConstruction | submit =>
          have hlive := permits.live rfl
          cases state <;> simp [stageOf, LifecycleStage.next] at edge
          simp [performing, lifecycleStep, TradeRecord.advance, TradeRecord.unlessElapsed,
            TradeRecord.accept, hlive, stageOf, edge]
      | confirm | consume | fail =>
          cases state <;> simp [stageOf, LifecycleStage.next] at edge
          all_goals
            simp [performing, lifecycleStep, TradeRecord.advance, TradeRecord.accept, stageOf, edge]
      | expire =>
          have helapsed := permits.elapsed rfl
          cases state <;> simp [stageOf, LifecycleStage.next] at edge
          all_goals
            simp [performing, lifecycleStep, TradeRecord.advance, TradeRecord.accept, helapsed,
              stageOf, edge.2]
      | retry =>
          have hlive := permits.live rfl
          cases state <;> simp [stageOf, LifecycleStage.next] at edge
          obtain ⟨hbudget, htarget⟩ := edge
          have hbudget := UInt32.lt_iff_toNat_lt.mpr hbudget
          simp [performing, lifecycleStep, TradeRecord.advance, TradeRecord.unlessElapsed,
            TradeRecord.accept, hlive, UInt32.not_le.mpr hbudget, stageOf,
            toNat_succ_of_lt hbudget, htarget]

end Table

/-- The automaton of one trade under the intent that its commitment stands for. -/
def lifecycleAt (maxRetries : UInt32) (intents : TradeCommitment → TradeIntent)
    (commitment : TradeCommitment) : LifecycleStage → LifecycleEvent → Option LifecycleStage :=
  LifecycleStage.next maxRetries.toNat (intents commitment).mayExpire

namespace ReplayStore

def Holds (intents : TradeCommitment → TradeIntent) (store : ReplayStore) : Prop :=
  ∀ commitment record, store.get commitment = some record → record.intent = intents commitment

def stages (store : ReplayStore) (commitment : TradeCommitment) : LifecycleStage :=
  stageOf (store.get commitment)

theorem stages_apply (store : ReplayStore) (call : Call) :
    (store.apply call).2.stages
      = Function.update store.stages call.commitment
          (stageOf ((store.apply call).2.get call.commitment)) := by
  funext commitment
  by_cases hkey : call.commitment = commitment
  · subst hkey
    rw [Function.update_self]
    rfl
  · rw [Function.update_of_ne (Ne.symm hkey)]
    exact congrArg stageOf (store.apply_get_of_ne hkey)

variable {maxRetries : UInt32} {intents : TradeCommitment → TradeIntent} {store : ReplayStore}

theorem Holds.of_apply {call : Call} (h : (store.apply call).2.Holds intents) :
    store.Holds intents := by
  intro commitment record hget
  by_cases hkey : call.commitment = commitment
  · subst hkey
    have hstep := store.apply_transition call.commitment call.operation
    rw [hget] at hstep
    obtain ⟨next, hnext, hintent⟩ := hstep.keeps_intent
    rw [← hintent]
    exact h _ _ hnext
  · exact h commitment record ((store.apply_get_of_ne hkey).trans hget)

theorem Holds.apply {call : Call} (h : store.Holds intents)
    (here : ∀ record, (store.apply call).2.get call.commitment = some record →
      record.intent = intents call.commitment) :
    (store.apply call).2.Holds intents := by
  intro commitment record hget
  by_cases hkey : call.commitment = commitment
  · subst hkey
    exact here record hget
  · exact h commitment record ((store.apply_get_of_ne hkey).symm.trans hget)

/-- Step lemma: a call takes an edge of the product of the automata, or none. -/
theorem apply_follows (store : ReplayStore) (call : Call)
    (held : (store.apply call).2.Holds intents) :
    Follows StoreEvent.reported (product (lifecycleAt store.maxRetries intents)) stages
      (event apply store call) := by
  have hfollows := (store.apply_transition call.commitment call.operation).follows
    (fun record hget => held call.commitment record hget)
  cases hreported : ZwaProtocol.reported call.operation (store.apply call).1 with
  | none =>
      have hlabel : StoreEvent.reported (event apply store call) = none := by
        simp [StoreEvent.reported, event, hreported]
      simp only [hreported] at hfollows
      rw [Follows, hlabel]
      change (store.apply call).2.stages = store.stages
      rw [stages_apply, hfollows]
      exact Function.update_eq_self _ _
  | some lifecycleEvent =>
      have hlabel : StoreEvent.reported (event apply store call)
          = some (call.commitment, lifecycleEvent) := by
        simp [StoreEvent.reported, event, hreported]
      simp only [hreported] at hfollows
      rw [Follows, hlabel]
      change product _ store.stages (call.commitment, lifecycleEvent)
        = some (store.apply call).2.stages
      rw [stages_apply, product, lifecycleAt]
      exact congrArg (Option.map _) hfollows

/-- Every edge of the product is taken by some call. -/
theorem exists_call_of_product (held : store.Holds intents)
    {addressed : TradeCommitment × LifecycleEvent} {target : TradeCommitment → LifecycleStage}
    (edge : product (lifecycleAt store.maxRetries intents) store.stages addressed
      = some target)
    {now : UnixSeconds} (permits : (intents addressed.1).Permits now addressed.2) :
    ∃ call : Call, call.operation
        = performing (intents addressed.1) (store.get addressed.1) now addressed.2 ∧
      (store.apply call).2.Holds intents ∧
      StoreEvent.reported (event apply store call) = some addressed ∧
      (store.apply call).2.stages = target := by
  obtain ⟨commitment, lifecycleEvent⟩ := addressed
  obtain ⟨moved, hmoved, rfl⟩ := Option.map_eq_some_iff.mp edge
  obtain ⟨next, hnext, hstage, hintent⟩ := lifecycleStep_performing commitment permits
    (held commitment) hmoved
  let call : Call := ⟨commitment, performing (intents commitment) (store.get commitment) now
    lifecycleEvent⟩
  have happly := (store.apply_refines commitment call.operation).trans hnext
  have hresult : (store.apply call).1 = .ok next := congrArg Prod.fst happly
  have hget : (store.apply call).2.get commitment = some next := congrArg Prod.snd happly
  refine ⟨call, rfl, held.apply ?_, ?_, ?_⟩
  · intro record hrecord
    rw [← Option.some.inj (hget.symm.trans hrecord)]
    exact hintent
  · simp [StoreEvent.reported, event, hresult, ZwaProtocol.reported, call]
  · rw [stages_apply, hget, hstage]

end ReplayStore

section Words
variable {maxRetries : UInt32} {intents : TradeCommitment → TradeIntent}

/-- A store with this retry bound that holds each trade under its intent. -/
def ReplayStore.Tracks (maxRetries : UInt32) (intents : TradeCommitment → TradeIntent)
    (store : ReplayStore) : Prop :=
  store.maxRetries = maxRetries ∧ store.Holds intents

theorem ReplayStore.stages_withMaxRetries (maxRetries : UInt32) :
    (withMaxRetries maxRetries).stages = fun _ => .absent :=
  funext (fun commitment => congrArg stageOf (get_withMaxRetries maxRetries commitment))

theorem ReplayStore.tracks_withMaxRetries :
    (withMaxRetries maxRetries).Tracks maxRetries intents := by
  refine ⟨rfl, fun commitment record hget => ?_⟩
  rw [get_withMaxRetries] at hget
  cases hget

/-- Run lemma: what a run reports leads the product of the automata to where it leaves the
trades. -/
theorem foldlM_reportedWord {calls : List Call}
    (held : ((ReplayStore.withMaxRetries maxRetries).run calls).Holds intents) :
    (reportedWord ((ReplayStore.withMaxRetries maxRetries).history calls)).foldlM
        (product (lifecycleAt maxRetries intents)) (fun _ => .absent)
      = some ((ReplayStore.withMaxRetries maxRetries).run calls).stages := by
  rw [← ReplayStore.stages_withMaxRetries maxRetries]
  refine foldlM_labels (ReplayStore.Tracks maxRetries intents) StoreEvent.reported _
    ReplayStore.stages ?_ ?_ (.withMaxRetries maxRetries) calls
    ⟨(ReplayStore.withMaxRetries maxRetries).run_maxRetries calls, held⟩
  · rintro store call ⟨hbound, hheld⟩
    exact ⟨(store.apply_maxRetries call).symm.trans hbound, hheld.of_apply⟩
  · rintro store call ⟨hbound, hheld⟩
    rw [← (store.apply_maxRetries call).symm.trans hbound]
    exact store.apply_follows call hheld

/-- Whatever the diagram allows, some reading permits. -/
theorem exists_permits {stages target : TradeCommitment → LifecycleStage}
    {addressed : TradeCommitment × LifecycleEvent}
    (edge : product (lifecycleAt maxRetries intents) stages addressed = some target) :
    ∃ now, (intents addressed.1).Permits now addressed.2 := by
  obtain ⟨commitment, event⟩ := addressed
  obtain ⟨moved, hmoved, -⟩ := Option.map_eq_some_iff.mp edge
  by_cases hexpire : event = .expire
  · subst hexpire
    have hmay := LifecycleStage.mayExpire_of_next hmoved
    exact ⟨⟨u64Max⟩, nofun, fun _ => TradeIntent.isExpiredAt_u64Max hmay⟩
  · exact ⟨⟨0⟩, fun _ => TradeIntent.isExpiredAt_zero _, fun h => absurd h hexpire⟩

/-- Every word that the product walks is reported by a run. -/
theorem exists_run_reporting {word : List (TradeCommitment × LifecycleEvent)}
    {last : TradeCommitment → LifecycleStage}
    (walk : word.foldlM (product (lifecycleAt maxRetries intents)) (fun _ => .absent)
      = some last) :
    ∃ calls, ((ReplayStore.withMaxRetries maxRetries).run calls).Holds intents ∧
      reportedWord ((ReplayStore.withMaxRetries maxRetries).history calls) = word ∧
      ((ReplayStore.withMaxRetries maxRetries).run calls).stages = last := by
  rw [← ReplayStore.stages_withMaxRetries maxRetries] at walk
  have hrealized : ∀ store addressed target, ReplayStore.Tracks maxRetries intents store →
      product (lifecycleAt maxRetries intents) store.stages addressed = some target →
      ∃ call, ReplayStore.Tracks maxRetries intents (store.apply call).2 ∧
        StoreEvent.reported (event ReplayStore.apply store call) = some addressed ∧
        (store.apply call).2.stages = target := by
    rintro store addressed target ⟨hbound, hheld⟩ edge
    rw [← hbound] at edge
    obtain ⟨now, hpermits⟩ := exists_permits edge
    obtain ⟨call, -, hkept, hreported, hstages⟩ := store.exists_call_of_product hheld edge hpermits
    exact ⟨call, ⟨(store.apply_maxRetries call).trans hbound, hkept⟩, hreported, hstages⟩
  obtain ⟨calls, ⟨-, hheld⟩, hword, hlast⟩ := exists_run_of_foldlM
    (ReplayStore.Tracks maxRetries intents) StoreEvent.reported _ ReplayStore.stages hrealized
    ReplayStore.tracks_withMaxRetries walk
  exact ⟨calls, hheld, hword, hlast⟩

end Words

/-- The language of the store. Each trade spells a word that its automaton walks, to where
the run leaves its record; and a word over all trades is reported by some run exactly when
each automaton walks its part, whatever the interleaving and whichever intents the
commitments stand for. -/
theorem lifecycle_words_exact (maxRetries : UInt32) (intents : TradeCommitment → TradeIntent) :
    (∀ calls, ((ReplayStore.withMaxRetries maxRetries).run calls).Holds intents →
      ∀ commitment,
        (wordAt commitment
            (reportedWord ((ReplayStore.withMaxRetries maxRetries).history calls))).foldlM
          (lifecycleAt maxRetries intents commitment) .absent
        = some (stageOf (((ReplayStore.withMaxRetries maxRetries).run calls).get commitment))) ∧
    ∀ word : List (TradeCommitment × LifecycleEvent),
      (∃ calls, ((ReplayStore.withMaxRetries maxRetries).run calls).Holds intents ∧
        reportedWord ((ReplayStore.withMaxRetries maxRetries).history calls) = word) ↔
      ∀ commitment, ∃ last,
        (wordAt commitment word).foldlM (lifecycleAt maxRetries intents commitment) .absent
          = some last := by
  refine ⟨fun calls held => (foldlM_product _).mp (foldlM_reportedWord held), fun word => ?_⟩
  rw [← exists_foldlM_product]
  constructor
  · rintro ⟨calls, hheld, rfl⟩
    exact ⟨_, foldlM_reportedWord hheld⟩
  · rintro ⟨last, hwalk⟩
    obtain ⟨calls, hheld, hword, -⟩ := exists_run_reporting hwalk
    exact ⟨calls, hheld, hword⟩

/-- Two trades taking turns: one is retried, the other expires after it failed. -/
theorem lifecycle_words_exact_two_trades :
    ∃ calls,
      ((ReplayStore.withMaxRetries 1).run calls).Holds (fun _ => .blank 10) ∧
      reportedWord ((ReplayStore.withMaxRetries 1).history calls)
        = [(⟨.zero⟩, .create), (⟨.fromU64 1⟩, .create), (⟨.zero⟩, .verify), (⟨.fromU64 1⟩, .fail),
          (⟨.zero⟩, .fail), (⟨.fromU64 1⟩, .expire), (⟨.zero⟩, .retry)] := by
  refine ((lifecycle_words_exact 1 (fun _ => .blank 10)).2 _).mpr (fun commitment => ?_)
  by_cases hzero : ⟨.zero⟩ = commitment
  · subst hzero
    exact ⟨.stored .created 1, rfl⟩
  · by_cases hone : ⟨.fromU64 1⟩ = commitment
    · subst hone
      exact ⟨.stored .expired 0, rfl⟩
    · simp only [wordAt_cons_of_ne hzero, wordAt_cons_of_ne hone]
      exact ⟨.absent, rfl⟩

/-- An answer reports an event exactly when the call changed the record. -/
theorem Transition.reported_isSome_iff {maxRetries : UInt32} {commitment : TradeCommitment}
    {entry entry' : Option TradeRecord} {operation : Operation} {result : Result TradeRecord}
    (step : Transition maxRetries commitment entry operation result entry') :
    (reported operation result).isSome = true ↔ entry ≠ entry' := by
  obtain ⟨intent, hkept⟩ : ∃ intent, ∀ record, entry' = some record → record.intent = intent := by
    cases entry' with
    | none => exact ⟨.blank 0, fun record h => by cases h⟩
    | some next => exact ⟨next.intent, fun record h => by rw [Option.some.inj h]⟩
  have hfollows := step.follows hkept
  cases hreported : reported operation result with
  | none =>
      simp only [hreported] at hfollows
      simp [hfollows]
  | some event =>
      simp only [hreported] at hfollows
      have hmoved : stageOf entry' ≠ stageOf entry := LifecycleStage.next_ne hfollows
      simp only [Option.isSome_some, true_iff]
      intro hsame
      exact hmoved (by rw [hsame])

theorem wordAt_reportedWord (commitment : TradeCommitment) (events : List StoreEvent) :
    wordAt commitment (reportedWord events)
      = events.filterMap (fun e => if e.input.commitment = commitment then
          reported e.input.operation e.output else none) := by
  rw [wordAt, reportedWord, List.filterMap_filterMap]
  congr 1
  funext e
  cases h : reported e.input.operation e.output <;> simp [StoreEvent.reported, h]

/-- The word of a trade has one letter for each change of its record. -/
theorem countP_changes (maxRetries : UInt32) (commitment : TradeCommitment) (calls : List Call) :
    ((ReplayStore.withMaxRetries maxRetries).history calls).countP (StoreEvent.changes commitment)
      = (wordAt commitment
          (reportedWord ((ReplayStore.withMaxRetries maxRetries).history calls))).length := by
  rw [wordAt_reportedWord, List.length_filterMap_eq_countP]
  refine List.countP_congr (fun e hmem => ?_)
  by_cases hkey : e.input.commitment = commitment
  · subst hkey
    rw [if_pos rfl, (ReplayStore.transition_of_mem hmem).reported_isSome_iff]
    simp [StoreEvent.changes]
  · have hframe : ¬ e.changes commitment = true :=
      fun hchanges => hkey (ReplayStore.history_frame hmem hchanges)
    simp [hkey, hframe]

theorem reported_eq_submit {operation : Operation} {result : Result TradeRecord} :
    reported operation result = some .submit ↔
      result.isOk = true ∧ operation.attempted = .submit := by
  unfold reported
  split <;> simp [Except.isOk, Except.toBool]

theorem count_submit_reportedWord (commitment : TradeCommitment) (events : List StoreEvent) :
    ((successesOn commitment events).map Operation.attempted).count .submit
      = (wordAt commitment (reportedWord events)).count .submit := by
  rw [count_submit, wordAt_reportedWord, List.count_eq_countP, List.countP_filterMap]
  refine List.countP_congr (fun e _ => ?_)
  by_cases hkey : e.input.commitment = commitment
  · have hsubmit : StoreEvent.submits commitment e = true
        ↔ e.output.isOk = true ∧ e.input.operation.attempted = .submit := by
      simp only [StoreEvent.submits, StoreEvent.success, hkey, true_and]
      cases e.output.isOk <;> simp
    rw [hsubmit, ← reported_eq_submit, if_pos hkey]
    cases reported e.input.operation e.output <;> simp
  · simp [StoreEvent.submits, StoreEvent.success, hkey]

/-- One attempt that is submitted and given up, and the retry after it. -/
def lostAttempt : List LifecycleEvent :=
  [.verify, .acquireConstruction, .submit, .fail, .retry]

def settledAttempt : List LifecycleEvent :=
  [.verify, .acquireConstruction, .submit, .confirm, .consume]

/-- A trade that spends its whole retry budget and is settled by its last attempt. -/
def longestLife : Nat → List LifecycleEvent
  | 0 => [.create]
  | retries + 1 => longestLife retries ++ lostAttempt

theorem foldlM_longestLife {maxRetries retries : Nat} (mayExpire : Bool)
    (h : retries ≤ maxRetries) :
    (longestLife retries).foldlM (LifecycleStage.next maxRetries mayExpire) .absent
      = some (.stored .created retries) := by
  induction retries with
  | zero => rfl
  | succ retries ih =>
      have hbudget : retries < maxRetries := h
      rw [longestLife, List.foldlM_append, ih hbudget.le]
      simp [lostAttempt, LifecycleStage.next, hbudget]

theorem length_longestLife (retries : Nat) : (longestLife retries).length = 5 * retries + 1 := by
  induction retries with
  | zero => rfl
  | succ retries ih =>
      rw [longestLife, List.length_append, ih]
      rfl

theorem count_submit_longestLife (retries : Nat) :
    (longestLife retries).count .submit = retries := by
  induction retries with
  | zero => rfl
  | succ retries ih =>
      rw [longestLife, List.count_append, ih]
      rfl

/-- The bounds on the lifecycle are sharp. Whatever the retry bound and the intent, some run
keeps one trade alive for `5 * max_retries + 6` changes of its record, submits it
`max_retries + 1` times and consumes it in the end. -/
theorem longest_life_attained (maxRetries : UInt32) (commitment : TradeCommitment)
    (intent : TradeIntent) :
    ∃ calls,
      let history := (ReplayStore.withMaxRetries maxRetries).history calls
      history.countP (StoreEvent.changes commitment) = 5 * maxRetries.toNat + 6 ∧
      ((successesOn commitment history).map Operation.attempted).count .submit
        = maxRetries.toNat + 1 ∧
      ∃ record, ((ReplayStore.withMaxRetries maxRetries).run calls).get commitment = some record ∧
        record.intent = intent ∧ record.state = .consumed := by
  let life := longestLife maxRetries.toNat ++ settledAttempt
  have hlife : life.foldlM (lifecycleAt maxRetries (fun _ => intent) commitment) .absent
      = some (.stored .consumed maxRetries.toNat) := by
    rw [List.foldlM_append, lifecycleAt, foldlM_longestLife _ le_rfl]
    rfl
  have hwalk := foldlM_product_map (lifecycleAt maxRetries (fun _ => intent))
    (fun _ => .absent) hlife
  obtain ⟨calls, hheld, hword, hstages⟩ := exists_run_reporting hwalk
  have hpart : wordAt commitment
      (reportedWord ((ReplayStore.withMaxRetries maxRetries).history calls)) = life := by
    rw [hword, wordAt_map_self]
  refine ⟨calls, ?_, ?_, ?_⟩
  · rw [countP_changes, hpart, List.length_append, length_longestLife]
    rfl
  · rw [count_submit_reportedWord, hpart, List.count_append, count_submit_longestLife]
    rfl
  · have hstage := congrFun hstages commitment
    rw [Function.update_self] at hstage
    cases hget : ((ReplayStore.withMaxRetries maxRetries).run calls).get commitment with
    | none => simp [ReplayStore.stages, hget, stageOf] at hstage
    | some record =>
        simp only [ReplayStore.stages, hget, stageOf, LifecycleStage.stored.injEq] at hstage
        exact ⟨record, rfl, hheld commitment record hget, hstage.1⟩

end ZwaProtocol
