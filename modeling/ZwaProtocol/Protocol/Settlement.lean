import ZwaProtocol.Protocol.TradeHistory

/-!
Settlement needs a whole attempt. A trade is consumed only at the end of an
attempt that verified, constructed, submitted and confirmed it without a gap,
each step that starts new work within the committed expiry.
-/
namespace ZwaProtocol
open Machine

def Operation.opensAttempt : Operation → Bool
  | .create _ | .retryAfterFailure _ _ => true
  | _ => false

def TradeEvent.opensAttempt (e : TradeEvent) : Bool :=
  e.success.any Operation.opensAttempt

def StoreEvent.opensAttempt (commitment : TradeCommitment) (e : StoreEvent) : Bool :=
  (e.success commitment).any Operation.opensAttempt

/-- The operations that changed the record, each with whether it succeeded. -/
def changesMade (events : List TradeEvent) : List (Operation × Bool) :=
  (events.filter TradeEvent.changes).map (fun e => (e.input, e.output.isOk))

def changesMadeTo (commitment : TradeCommitment) (events : List StoreEvent) :
    List (Call × Bool) :=
  (events.filter (StoreEvent.changes commitment)).map (fun e => (e.input, e.output.isOk))

/-- How far an attempt has got, and the changes it took. A failed or expired
attempt is closed: nothing is said about it. -/
inductive Attempt (intent : TradeIntent) :
    TradeLifecycleState → Option SettlementTxId → List (Operation × Bool) → Prop
  | opened : Attempt intent .created none []
  | verified {txid : Option SettlementTxId} {made : List (Operation × Bool)} {now : UnixSeconds}
      (attempt : Attempt intent .created txid made) (live : intent.isExpiredAt now = false) :
      Attempt intent .verified txid (made ++ [(.verify now, true)])
  | constructed {txid : Option SettlementTxId} {made : List (Operation × Bool)}
      {now : UnixSeconds} (attempt : Attempt intent .verified txid made)
      (live : intent.isExpiredAt now = false) :
      Attempt intent .settlementConstructed txid (made ++ [(.acquireConstruction now, true)])
  | submitted {txid : Option SettlementTxId} {made : List (Operation × Bool)}
      {submittedTxid : SettlementTxId} {now : UnixSeconds}
      (attempt : Attempt intent .settlementConstructed txid made)
      (live : intent.isExpiredAt now = false) :
      Attempt intent .submitted (some submittedTxid) (made ++ [(.submit submittedTxid now, true)])
  | confirmed {txid : Option SettlementTxId} {made : List (Operation × Bool)}
      (attempt : Attempt intent .submitted txid made) :
      Attempt intent .confirmed txid (made ++ [(.confirm, true)])
  | consumed {txid : Option SettlementTxId} {made : List (Operation × Bool)}
      (attempt : Attempt intent .confirmed txid made) :
      Attempt intent .consumed txid (made ++ [(.consume, true)])
  | closed {state : TradeLifecycleState} {txid : Option SettlementTxId}
      {made : List (Operation × Bool)} (ended : state ∈ [.failed, .expired]) :
      Attempt intent state txid made

/-- A consumed attempt went through every step once. -/
theorem Attempt.full {intent : TradeIntent} {txid : Option SettlementTxId}
    {made : List (Operation × Bool)} (h : Attempt intent .consumed txid made) :
    ∃ (verifyTime constructTime submitTime : UnixSeconds) (submittedTxid : SettlementTxId),
      made = [(.verify verifyTime, true), (.acquireConstruction constructTime, true),
        (.submit submittedTxid submitTime, true), (.confirm, true), (.consume, true)] ∧
      txid = some submittedTxid ∧ intent.isExpiredAt verifyTime = false ∧
      intent.isExpiredAt constructTime = false ∧ intent.isExpiredAt submitTime = false := by
  cases h with
  | closed ended => simp at ended
  | consumed attempt =>
  cases attempt with
  | closed ended => simp at ended
  | confirmed attempt =>
  cases attempt with
  | closed ended => simp at ended
  | submitted attempt liveSubmit =>
  cases attempt with
  | closed ended => simp at ended
  | constructed attempt liveConstruct =>
  cases attempt with
  | closed ended => simp at ended
  | verified attempt liveVerify =>
  cases attempt with
  | closed ended => simp at ended
  | opened => exact ⟨_, _, _, _, rfl, rfl, liveVerify, liveConstruct, liveSubmit⟩

/-- The past ends with the attempt the record is in, opened by a creation or a
retry; the intent is the one the creation stored. -/
def InAttempt (past : List TradeEvent) (record : TradeRecord) : Prop :=
  ∃ before opening after, past = before ++ opening :: after ∧
    opening.opensAttempt = true ∧ (∀ e ∈ after, TradeEvent.opensAttempt e = false) ∧
    Attempt record.intent record.state record.priorTxid (changesMade after) ∧
    .create record.intent ∈ successes (before ++ [opening])

theorem changesMade_of_ne {before after : Option TradeRecord} {operation : Operation}
    {result : Result TradeRecord} (h : before ≠ after) :
    changesMade [⟨before, operation, result, after⟩] = [(operation, result.isOk)] := by
  simp [changesMade, TradeEvent.changes, h]

theorem changesMade_of_eq {entry : Option TradeRecord} {operation : Operation}
    {result : Result TradeRecord} :
    changesMade [⟨entry, operation, result, entry⟩] = [] := by
  simp [changesMade, TradeEvent.changes]

section Steps
variable {past : List TradeEvent} {record next : TradeRecord} {e : TradeEvent}

theorem InAttempt.extend (h : InAttempt past record) (inside : e.opensAttempt = false)
    (intent : next.intent = record.intent)
    (step : ∀ made, Attempt record.intent record.state record.priorTxid made →
      Attempt record.intent next.state next.priorTxid (made ++ changesMade [e])) :
    InAttempt (past ++ [e]) next := by
  obtain ⟨before, opening, after, rfl, hopens, hinside, hattempt, hcreated⟩ := h
  refine ⟨before, opening, after ++ [e], by simp, hopens, ?_, ?_, by rwa [intent]⟩
  · intro other hmem
    obtain hmem | hmem := List.mem_append.mp hmem
    · exact hinside other hmem
    · rw [List.mem_singleton.mp hmem]
      exact inside
  · have happend : changesMade (after ++ [e]) = changesMade after ++ changesMade [e] := by
      simp [changesMade, List.filter_append]
    rw [intent, happend]
    exact step _ hattempt

/-- A transition to another state changes the record, so it counts. -/
theorem InAttempt.progress {state : TradeLifecycleState} {operation : Operation}
    {result : Result TradeRecord} (h : InAttempt past record) (source : record.state = state)
    (inside : TradeEvent.opensAttempt ⟨some record, operation, result, some next⟩ = false)
    (intent : next.intent = record.intent) (moved : state ≠ next.state)
    (step : ∀ made, Attempt record.intent state record.priorTxid made →
      Attempt record.intent next.state next.priorTxid (made ++ [(operation, result.isOk)])) :
    InAttempt (past ++ [⟨some record, operation, result, some next⟩]) next := by
  subst source
  have hne : some record ≠ some next := fun h => moved (by rw [Option.some.inj h])
  refine h.extend inside intent (fun made attempt => ?_)
  rw [changesMade_of_ne hne]
  exact step made attempt

theorem InAttempt.start (opens : e.opensAttempt = true) (state : next.state = .created)
    (txid : next.priorTxid = none) (created : .create next.intent ∈ successes (past ++ [e])) :
    InAttempt (past ++ [e]) next := by
  refine ⟨past, e, [], rfl, opens, by simp, ?_, created⟩
  rw [state, txid]
  exact .opened

end Steps

def InAttemptEntry (past : List TradeEvent) : Option TradeRecord → Prop
  | none => True
  | some record => InAttempt past record

/-- Step lemma: every transition keeps a record inside its attempt or opens one. -/
theorem Transition.inAttempt {maxRetries : UInt32} {commitment : TradeCommitment}
    {past : List TradeEvent} {entry entry' : Option TradeRecord} {operation : Operation}
    {result : Result TradeRecord} (h : InAttemptEntry past entry)
    (step : Transition maxRetries commitment entry operation result entry') :
    InAttemptEntry (past ++ [⟨entry, operation, result, entry'⟩]) entry' := by
  cases step with
  | created intent =>
      refine InAttempt.start rfl rfl rfl ?_
      rw [successes_concat_ok]
      exact List.mem_append_right _ (by simp [TradeRecord.created])
  | verified source live edit =>
      subst edit
      exact InAttempt.progress h source rfl rfl (by simp) (fun _ attempt => attempt.verified live)
  | acquired source live edit =>
      subst edit
      exact InAttempt.progress h source rfl rfl (by simp)
        (fun _ attempt => attempt.constructed live)
  | submitted source live edit =>
      subst edit
      exact InAttempt.progress h source rfl rfl (by simp) (fun _ attempt => attempt.submitted live)
  | confirmed source edit =>
      subst edit
      exact InAttempt.progress h source rfl rfl (by simp) (fun _ attempt => attempt.confirmed)
  | consumed source edit =>
      subst edit
      exact InAttempt.progress h source rfl rfl (by simp) (fun _ attempt => attempt.consumed)
  | failed _ edit | failedSubmission _ edit | expired _ _ edit | elapsed _ _ edit =>
      refine InAttempt.extend h rfl (by rw [edit]) (fun made _ => ?_)
      exact .closed (by simp [edit])
  | retried _ _ _ _ edit =>
      obtain ⟨before, opening, after, rfl, -, -, -, hcreated⟩ := h
      refine InAttempt.start rfl (by rw [edit]) (by rw [edit]) ?_
      rw [edit, successes_concat_ok]
      refine List.mem_append_left _ ?_
      rw [List.append_cons, successes, List.filterMap_append]
      exact List.mem_append_left _ hcreated
  | @refused entry operation error _ =>
      cases entry with
      | none => trivial
      | some record =>
          refine InAttempt.extend h rfl rfl (fun made attempt => ?_)
          rw [changesMade_of_eq, List.append_nil]
          exact attempt

theorem inAttempt_run (maxRetries : UInt32) (commitment : TradeCommitment) (calls : List Call) :
    InAttemptEntry
      (tradeEvents maxRetries commitment ((ReplayStore.withMaxRetries maxRetries).history calls))
      (((ReplayStore.withMaxRetries maxRetries).run calls).get commitment) :=
  replay_induction (motive := InAttemptEntry) trivial
    (fun _ _ _ _ _ h step => step.inAttempt h) calls

section Projection
variable {maxRetries : UInt32} {commitment : TradeCommitment}

theorem success_of_project {e : StoreEvent} {shown : TradeEvent}
    (h : (tradeAt maxRetries commitment).project e = some shown) :
    e.success commitment = shown.success := by
  rw [project_eq] at h
  split at h
  · next hkey =>
      cases Option.some.inj h
      simp [StoreEvent.success, TradeEvent.success, hkey]
  · exact absurd h (by simp)

/-- A success is always one the trade itself recorded. -/
theorem opensAttempt_eq_false {events : List StoreEvent}
    (h : ∀ shown ∈ tradeEvents maxRetries commitment events, shown.opensAttempt = false) :
    ∀ e ∈ events, e.opensAttempt commitment = false := by
  intro e hmem
  by_cases hkey : e.input.commitment = commitment
  · have hproject := project_eq maxRetries commitment e
    rw [if_pos hkey] at hproject
    rw [StoreEvent.opensAttempt, success_of_project hproject]
    exact h _ (List.mem_filterMap.mpr ⟨e, hmem, hproject⟩)
  · simp [StoreEvent.opensAttempt, StoreEvent.success, hkey]

/-- In a history only calls on a commitment change its record, so the changes
are the ones the trade recorded. -/
theorem changesMadeTo_eq {events : List StoreEvent}
    (frame : ∀ e ∈ events, e.changes commitment = true → e.input.commitment = commitment) :
    changesMadeTo commitment events
      = (changesMade (tradeEvents maxRetries commitment events)).map
          (fun change => (⟨commitment, change.1⟩, change.2)) := by
  induction events with
  | nil => rfl
  | cons e events ih =>
      have hrest := ih (fun other hmem => frame other (List.mem_cons_of_mem _ hmem))
      have hproject := project_eq maxRetries commitment e
      have hframe := frame e (List.mem_cons_self ..)
      obtain ⟨before, ⟨key, operation⟩, output, after⟩ := e
      by_cases hkey : key = commitment
      · subst hkey
        rw [if_pos rfl] at hproject
        rw [tradeEvents, List.filterMap_cons_some hproject, ← tradeEvents]
        by_cases hsame : before.get key = after.get key <;>
          simpa [changesMadeTo, changesMade, StoreEvent.changes, TradeEvent.changes, hsame]
            using hrest
      · rw [if_neg hkey] at hproject
        have hchanges : StoreEvent.changes commitment ⟨before, ⟨key, operation⟩, output, after⟩
            = false := Bool.eq_false_iff.mpr fun h => hkey (hframe h)
        rw [tradeEvents, List.filterMap_cons_none hproject, ← tradeEvents, ← hrest]
        simp [changesMadeTo, hchanges]

end Projection

/-- No settlement without a full live attempt: in any run, after the creation or
retry that opened the last attempt on a consumed trade, the calls that changed
its record are one verification, one construction, one submission, one
confirmation and one consumption, all successful and in this order. -/
theorem consumed_after_full_live_attempt (maxRetries : UInt32) (calls : List Call)
    (commitment : TradeCommitment) (record : TradeRecord)
    (stored : ((ReplayStore.withMaxRetries maxRetries).run calls).get commitment = some record)
    (consumed : record.state = .consumed) :
    ∃ (before after : List StoreEvent) (opening : StoreEvent) (intent : TradeIntent)
      (verifyTime constructTime submitTime : UnixSeconds) (txid : SettlementTxId),
      (ReplayStore.withMaxRetries maxRetries).history calls = before ++ opening :: after ∧
      opening.opensAttempt commitment = true ∧
      (∀ e ∈ after, e.opensAttempt commitment = false) ∧
      changesMadeTo commitment after =
        [(⟨commitment, .verify verifyTime⟩, true),
         (⟨commitment, .acquireConstruction constructTime⟩, true),
         (⟨commitment, .submit txid submitTime⟩, true),
         (⟨commitment, .confirm⟩, true), (⟨commitment, .consume⟩, true)] ∧
      .create intent ∈ successesOn commitment (before ++ [opening]) ∧
      record.intent = intent ∧
      verifyTime.get ≤ intent.expiry.get ∧ constructTime.get ≤ intent.expiry.get ∧
      submitTime.get ≤ intent.expiry.get ∧ record.priorTxid = some txid := by
  have hrun := inAttempt_run maxRetries commitment calls
  rw [stored] at hrun
  obtain ⟨past, first, attempt, hsplit, hopens, hinside, hattempt, hcreated⟩ := hrun
  rw [consumed] at hattempt
  obtain ⟨verifyTime, constructTime, submitTime, txid, hmade, htxid, hverify, hconstruct,
    hsubmit⟩ := hattempt.full
  obtain ⟨before, opening, after, hhistory, rfl, hproject, rfl⟩ := tradeEvents_eq_append_cons hsplit
  have hframe : ∀ e ∈ after, StoreEvent.changes commitment e = true →
      e.input.commitment = commitment := by
    intro e hmem
    have hmem : e ∈ (ReplayStore.withMaxRetries maxRetries).history calls := by
      rw [hhistory]
      exact List.mem_append_right _ (List.mem_cons_of_mem _ hmem)
    exact ReplayStore.history_frame hmem
  refine ⟨before, after, opening, record.intent, verifyTime, constructTime, submitTime, txid,
    hhistory, ?_, opensAttempt_eq_false hinside, ?_, ?_, rfl,
    TradeIntent.isExpiredAt_eq_false.mp hverify, TradeIntent.isExpiredAt_eq_false.mp hconstruct,
    TradeIntent.isExpiredAt_eq_false.mp hsubmit, htxid⟩
  · rw [StoreEvent.opensAttempt, success_of_project hproject]
    exact hopens
  · rw [changesMadeTo_eq hframe, hmade]
    rfl
  · rw [← successes_tradeEvents maxRetries commitment, tradeEvents, List.filterMap_append,
      List.filterMap_cons_some hproject]
    exact hcreated

theorem consumed_after_full_live_attempt_happyPath :
    ∃ before after opening,
      (ReplayStore.withMaxRetries 0).history
          (happyPath ⟨.zero⟩ (.blank 10) ⟨⟨List.replicate 32 0, rfl⟩⟩ ⟨10⟩)
        = before ++ opening :: after ∧
      (changesMadeTo ⟨.zero⟩ after).length = 5 := by
  have hstored := get_run_happyPath 0 ⟨.zero⟩ ⟨⟨List.replicate 32 0, rfl⟩⟩
    (show (TradeIntent.blank 10).isExpiredAt ⟨10⟩ = false by decide)
  obtain ⟨before, after, opening, _, _, _, _, _, hhistory, _, _, hchanges, _⟩ :=
    consumed_after_full_live_attempt 0 _ _ _ hstored rfl
  exact ⟨before, after, opening, hhistory, by rw [hchanges]; rfl⟩

end ZwaProtocol
