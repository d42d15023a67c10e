import ZwaProtocol.Protocol.TradeHistory

/-!
Construction is a lock that only a recorded failure, a retry and a new
verification reopen, so the retries of a trade bound its constructions.
-/
namespace ZwaProtocol
open Machine

/-- The kinds of the successful operations, in order. -/
def kinds (events : List TradeEvent) : List LifecycleEvent :=
  (successes events).map Operation.attempted

@[simp] theorem kinds_nil : kinds [] = [] := rfl

@[simp] theorem kinds_concat_ok (events : List TradeEvent) (before after : Option TradeRecord)
    (operation : Operation) (record : TradeRecord) :
    kinds (events ++ [⟨before, operation, .ok record, after⟩])
      = kinds events ++ [operation.attempted] := by
  simp [kinds]

@[simp] theorem kinds_concat_error (events : List TradeEvent)
    (before after : Option TradeRecord) (operation : Operation) (error : ProtocolError) :
    kinds (events ++ [⟨before, operation, .error error, after⟩]) = kinds events := by
  simp [kinds]

/-- What has to succeed after a construction before a trade can be in this state. -/
def sinceConstruction : TradeLifecycleState → List LifecycleEvent
  | .failed => [.fail]
  | .created => [.fail, .retry]
  | .verified => [.fail, .retry, .verify]
  | _ => []

/-- Every construction so far has been followed by what the state demands. -/
def Reopened (state : TradeLifecycleState) (past : List LifecycleEvent) : Prop :=
  ∀ before after, past = before ++ .acquireConstruction :: after →
    (sinceConstruction state).Sublist after

/-- Any two constructions so far are separated by a reopening. -/
def Interlocked (past : List LifecycleEvent) : Prop :=
  ∀ before between after,
    past = before ++ .acquireConstruction :: (between ++ .acquireConstruction :: after) →
    [LifecycleEvent.fail, .retry, .verify].Sublist between

theorem Reopened.concat {state next : TradeLifecycleState} {past : List LifecycleEvent}
    {event : LifecycleEvent} (h : Reopened state past) (other : event ≠ .acquireConstruction)
    (demand : (sinceConstruction next).Sublist (sinceConstruction state ++ [event])) :
    Reopened next (past ++ [event]) := by
  intro before after hsplit
  obtain ⟨-, hevent, -⟩ | ⟨middle, rfl, hpast⟩ := concat_eq_append_cons hsplit
  · exact absurd hevent.symm other
  · exact demand.trans ((h before middle hpast).append_right [event])

theorem Interlocked.concat_of_ne {past : List LifecycleEvent} {event : LifecycleEvent}
    (h : Interlocked past) (other : event ≠ .acquireConstruction) :
    Interlocked (past ++ [event]) := by
  intro before between after hsplit
  rw [← List.cons_append, ← List.append_assoc] at hsplit
  obtain ⟨-, hevent, -⟩ | ⟨middle, -, hpast⟩ := concat_eq_append_cons hsplit
  · exact absurd hevent.symm other
  · exact h before between middle (by simpa using hpast)

theorem Interlocked.construct {past : List LifecycleEvent} (h : Interlocked past)
    (reopened : Reopened .verified past) : Interlocked (past ++ [.acquireConstruction]) := by
  intro before between after hsplit
  rw [← List.cons_append, ← List.append_assoc] at hsplit
  obtain ⟨hpast, -, -⟩ | ⟨middle, -, hpast⟩ := concat_eq_append_cons hsplit
  · exact reopened before between hpast.symm
  · exact h before between middle (by simpa using hpast)

/-- The states from which a construction can follow without a retry. -/
def mayConstruct : TradeLifecycleState → Nat
  | .created | .verified => 1
  | _ => 0

/-- The construction lock, as an invariant of a trade's past and its record. -/
structure Locked (maxRetries : UInt32) (past : List LifecycleEvent) (record : TradeRecord) :
    Prop where
  reopened : Reopened record.state past
  interlocked : Interlocked past
  retries : past.count .retry = record.retryCount.toNat
  bounded : record.retryCount.toNat ≤ maxRetries.toNat
  constructions : past.count .acquireConstruction + mayConstruct record.state
    ≤ record.retryCount.toNat + 1

def LockedEntry (maxRetries : UInt32) (past : List LifecycleEvent) : Option TradeRecord → Prop
  | none => past = []
  | some record => Locked maxRetries past record

/-- Below a bound the counter does not wrap. -/
theorem toNat_succ_of_lt {count bound : UInt32} (h : count < bound) :
    (count + 1).toNat = count.toNat + 1 := by
  have hlt : count.toNat < bound.toNat := UInt32.lt_iff_toNat_lt.mp h
  have hlimit := bound.toNat_lt
  rw [UInt32.toNat_add]
  exact Nat.mod_eq_of_lt (by simp; omega)

section Locked
variable {maxRetries : UInt32} {past : List LifecycleEvent} {record next : TradeRecord}

/-- A success that neither constructs nor retries. -/
theorem Locked.concat {event : LifecycleEvent} (h : Locked maxRetries past record)
    (ordinary : event ≠ .acquireConstruction ∧ event ≠ .retry)
    (count : next.retryCount = record.retryCount)
    (demand : (sinceConstruction next.state).Sublist (sinceConstruction record.state ++ [event]))
    (slots : mayConstruct next.state ≤ mayConstruct record.state) :
    Locked maxRetries (past ++ [event]) next := by
  have hretry : [event].count .retry = 0 := List.count_eq_zero.mpr (by simpa using ordinary.2.symm)
  have hconstruct : [event].count .acquireConstruction = 0 :=
    List.count_eq_zero.mpr (by simpa using ordinary.1.symm)
  refine ⟨h.reopened.concat ordinary.1 demand, h.interlocked.concat_of_ne ordinary.1, ?_, ?_, ?_⟩
  · rw [List.count_append, hretry, count, h.retries, Nat.add_zero]
  · rw [count]
    exact h.bounded
  · rw [List.count_append, hconstruct, count]
    have := h.constructions
    omega

theorem Locked.construct (h : Locked maxRetries past record) (source : record.state = .verified)
    (edit : next = { record with state := .settlementConstructed }) :
    Locked maxRetries (past ++ [.acquireConstruction]) next := by
  subst edit
  have hreopened := h.reopened
  have hcount := h.constructions
  rw [source] at hreopened hcount
  refine ⟨fun _ _ _ => List.nil_sublist _, h.interlocked.construct hreopened, ?_, h.bounded, ?_⟩
  · simpa using h.retries
  · simp only [List.count_append, List.count_singleton_self, mayConstruct] at hcount ⊢
    omega

theorem Locked.retry (h : Locked maxRetries past record) (source : record.state = .failed)
    (budget : record.retryCount < maxRetries) (state : next.state = .created)
    (count : next.retryCount = record.retryCount + 1) :
    Locked maxRetries (past ++ [.retry]) next := by
  have hbudget : record.retryCount.toNat < maxRetries.toNat := UInt32.lt_iff_toNat_lt.mp budget
  have hsucc : next.retryCount.toNat = record.retryCount.toNat + 1 := by
    rw [count]
    exact toNat_succ_of_lt budget
  have hcount := h.constructions
  rw [source] at hcount
  refine ⟨h.reopened.concat (by simp) ?_, h.interlocked.concat_of_ne (by simp), ?_, ?_, ?_⟩
  · rw [state, source]
    exact List.Sublist.refl _
  · rw [List.count_append, h.retries, hsucc, List.count_singleton_self]
  · omega
  · have hother : [LifecycleEvent.retry].count .acquireConstruction = 0 := rfl
    rw [List.count_append, hother, hsucc, state]
    simp only [mayConstruct] at hcount ⊢
    omega

theorem Locked.expire (h : Locked maxRetries past record) :
    Locked maxRetries past { record with state := .expired } := by
  refine ⟨fun _ _ _ => List.nil_sublist _, h.interlocked, h.retries, h.bounded, ?_⟩
  exact (Nat.le_add_right _ _).trans h.constructions

end Locked

/-- Step lemma: every transition keeps the construction lock. -/
theorem Transition.locked {maxRetries : UInt32} {commitment : TradeCommitment}
    {past : List TradeEvent} {entry entry' : Option TradeRecord} {operation : Operation}
    {result : Result TradeRecord} (h : LockedEntry maxRetries (kinds past) entry)
    (step : Transition maxRetries commitment entry operation result entry') :
    LockedEntry maxRetries (kinds (past ++ [⟨entry, operation, result, entry'⟩])) entry' := by
  cases step with
  | created intent =>
      have hpast : kinds past = [] := h
      rw [kinds_concat_ok, hpast]
      refine ⟨?_, ?_, rfl, Nat.zero_le _, le_refl 1⟩
      · intro before after hsplit
        simp [Operation.attempted, List.singleton_eq_append_iff] at hsplit
      · intro before between after hsplit
        simp [Operation.attempted, List.singleton_eq_append_iff] at hsplit
  | verified source _ edit =>
      subst edit
      rw [kinds_concat_ok]
      refine Locked.concat h (by simp [Operation.attempted]) rfl ?_ ?_
      · rw [source]
        exact List.Sublist.refl _
      · rw [source]
        exact le_refl 1
  | acquired source _ edit =>
      rw [kinds_concat_ok]
      exact Locked.construct h source edit
  | submitted _ _ edit | confirmed _ edit | consumed _ edit | expired _ _ edit =>
      subst edit
      rw [kinds_concat_ok]
      exact Locked.concat h (by simp [Operation.attempted]) rfl (List.nil_sublist _)
        (Nat.zero_le _)
  | failed _ edit | failedSubmission _ edit =>
      subst edit
      rw [kinds_concat_ok]
      exact Locked.concat h (by simp [Operation.attempted]) rfl (List.sublist_append_right _ _)
        (Nat.zero_le _)
  | retried source _ budget _ edit =>
      rw [kinds_concat_ok]
      exact Locked.retry h source budget (by rw [edit]) (by rw [edit])
  | elapsed _ _ edit =>
      rw [kinds_concat_error, edit]
      exact Locked.expire h
  | refused _ =>
      rw [kinds_concat_error]
      exact h

theorem locked_run (maxRetries : UInt32) (commitment : TradeCommitment) (calls : List Call) :
    LockedEntry maxRetries
      ((successesOn commitment ((ReplayStore.withMaxRetries maxRetries).history calls)).map
        Operation.attempted)
      (((ReplayStore.withMaxRetries maxRetries).run calls).get commitment) := by
  rw [← successes_tradeEvents maxRetries commitment]
  exact replay_induction (motive := fun past entry => LockedEntry maxRetries (kinds past) entry)
    rfl (fun _ _ _ _ _ h step => step.locked h) calls

/-- Between two constructions of one trade there were, in this order, a recorded
failure, a retry and a new verification, so a trade is constructed at most once
more than it is retried and at most `max_retries + 1` times. -/
theorem constructions_bounded_by_retries (maxRetries : UInt32) (calls : List Call)
    (commitment : TradeCommitment) :
    let history := (ReplayStore.withMaxRetries maxRetries).history calls
    (∀ (before between after : List StoreEvent) (first second : StoreEvent)
        (firstTime secondTime : UnixSeconds),
      history = before ++ first :: (between ++ second :: after) →
      first.success commitment = some (.acquireConstruction firstTime) →
      second.success commitment = some (.acquireConstruction secondTime) →
      [LifecycleEvent.fail, .retry, .verify].Sublist
        ((successesOn commitment between).map Operation.attempted)) ∧
    ((successesOn commitment history).map Operation.attempted).count .acquireConstruction
      ≤ 1 + ((successesOn commitment history).map Operation.attempted).count .retry ∧
    ((successesOn commitment history).map Operation.attempted).count .acquireConstruction
      ≤ maxRetries.toNat + 1 := by
  intro history
  have hlocked := locked_run maxRetries commitment calls
  change LockedEntry maxRetries ((successesOn commitment history).map Operation.attempted) _
    at hlocked
  cases hentry : ((ReplayStore.withMaxRetries maxRetries).run calls).get commitment with
  | none =>
      have hnone : (successesOn commitment history).map Operation.attempted = [] := by
        rwa [hentry] at hlocked
      refine ⟨?_, by simp [hnone], by simp [hnone]⟩
      intro before between after first second firstTime secondTime hsplit hfirst hsecond
      rw [hsplit] at hnone
      simp [successesOn, List.filterMap_append, hfirst] at hnone
  | some record =>
      rw [hentry] at hlocked
      obtain ⟨-, hinterlocked, hretries, hbounded, hconstructions⟩ := hlocked
      refine ⟨?_, by omega, by omega⟩
      intro before between after first second firstTime secondTime hsplit hfirst hsecond
      refine hinterlocked ((successesOn commitment before).map Operation.attempted) _
        ((successesOn commitment after).map Operation.attempted) ?_
      rw [hsplit]
      simp [successesOn, List.filterMap_append, hfirst, hsecond, Operation.attempted]

def reconstruction : List Call :=
  [.create (.blank 10), .verify ⟨1⟩, .acquireConstruction ⟨1⟩, .fail .constructionFailed,
    .retryAfterFailure none ⟨2⟩, .verify ⟨2⟩, .acquireConstruction ⟨2⟩].map (Call.mk ⟨.zero⟩)

theorem constructions_bounded_by_retries_reconstruction :
    ∃ (before between after : List StoreEvent) (first second : StoreEvent),
      (ReplayStore.withMaxRetries 1).history reconstruction
        = before ++ first :: (between ++ second :: after) ∧
      [LifecycleEvent.fail, .retry, .verify].Sublist
        ((successesOn ⟨.zero⟩ between).map Operation.attempted) :=
  ⟨[_, _], [_, _, _], [], _, _, rfl,
    (constructions_bounded_by_retries 1 reconstruction ⟨.zero⟩).1 [_, _] [_, _, _] [] _ _
      ⟨1⟩ ⟨2⟩ rfl rfl rfl⟩

end ZwaProtocol
