import ZwaProtocol.Protocol.DeadEnds
import ZwaProtocol.Protocol.Independence
import ZwaProtocol.Protocol.RecordInvariant

/-!
The stores that runs reach. A record that satisfies the representation invariant is
rebuilt by calls read off its own fields, so the invariant is exact: a store is reachable
when, and only when, each of its records could have been stored.
-/
namespace ZwaProtocol
open Machine

/-- What holds of every record that a run stores. -/
structure TradeRecord.Storable (maxRetries : UInt32) (commitment : TradeCommitment)
    (record : TradeRecord) : Prop where
  key : record.commitment = commitment
  bounded : record.retryCount ≤ maxRetries
  consistent : record.Consistent
  elapses : record.state = .expired → record.intent.expiry.get ≠ u64Max

namespace TradeRecord

/-- Attempts given up before submission, each one retried. -/
def retryCycles : Nat → List Operation
  | 0 => []
  | count + 1 =>
      retryCycles count ++ [.fail .constructionFailed, .retryAfterFailure none ⟨0⟩]

def submission (record : TradeRecord) : List Operation :=
  match record.priorTxid with
  | none => []
  | some txid => [.verify ⟨0⟩, .acquireConstruction ⟨0⟩, .submit txid ⟨0⟩]

def failure (record : TradeRecord) : List Operation := record.failureReason.toList.map .fail

/-- The operations since the last retry. -/
def attempt (record : TradeRecord) : List Operation :=
  match record.state with
  | .created => []
  | .verified => [.verify ⟨0⟩]
  | .settlementConstructed => [.verify ⟨0⟩, .acquireConstruction ⟨0⟩]
  | .submitted => record.submission
  | .confirmed => record.submission ++ [.confirm]
  | .consumed => record.submission ++ [.confirm, .consume]
  | .failed => record.submission ++ record.failure
  | .expired => record.submission ++ record.failure ++ [.expire ⟨u64Max⟩]

def rebuild (record : TradeRecord) : List Operation :=
  .create record.intent :: (retryCycles record.retryCount.toNat ++ record.attempt)

/-- A record as its last retry left it. -/
def opened (commitment : TradeCommitment) (intent : TradeIntent) (retryCount : UInt32) :
    TradeRecord :=
  { created commitment intent with retryCount }

end TradeRecord

section Rebuild
variable {maxRetries : UInt32} {commitment : TradeCommitment}

theorem run_retryCycle (intent : TradeIntent) {retryCount : UInt32}
    (budget : retryCount < maxRetries) :
    Machine.run (lifecycleStep maxRetries commitment)
        (some (.opened commitment intent retryCount))
        [.fail .constructionFailed, .retryAfterFailure none ⟨0⟩]
      = some (.opened commitment intent (retryCount + 1)) := by
  have hbudget : ¬ maxRetries ≤ retryCount := UInt32.not_le.mpr budget
  simp [lifecycleStep, TradeRecord.advance, TradeRecord.opened, TradeRecord.created,
    TradeRecord.unlessElapsed, TradeRecord.accept, TradeIntent.isExpiredAt_zero, hbudget]

theorem run_retryCycles (intent : TradeIntent) {count : Nat} (h : count ≤ maxRetries.toNat) :
    Machine.run (lifecycleStep maxRetries commitment) (some (.opened commitment intent 0))
        (TradeRecord.retryCycles count)
      = some (.opened commitment intent (UInt32.ofNat count)) := by
  induction count with
  | zero => rfl
  | succ count ih =>
      have hcount : (UInt32.ofNat count).toNat = count :=
        UInt32.toNat_ofNat_of_lt' ((Nat.lt_of_succ_le h).trans maxRetries.toNat_lt)
      have hbudget : UInt32.ofNat count < maxRetries := by
        rw [UInt32.lt_iff_toNat_lt, hcount]
        exact h
      rw [TradeRecord.retryCycles, run_append, ih (Nat.le_of_succ_le h),
        run_retryCycle intent hbudget, UInt32.ofNat_add]
      rfl

/-- The last attempt of a storable record leads to it. -/
theorem TradeRecord.Storable.run_attempt {record : TradeRecord}
    (h : record.Storable maxRetries commitment) :
    Machine.run (lifecycleStep maxRetries commitment)
        (some (.opened commitment record.intent record.retryCount)) record.attempt
      = some record := by
  obtain ⟨key, -, consistent, elapses⟩ := h
  obtain ⟨_, intent, state, reason, txid, retryCount⟩ := record
  subst key
  have hlive := intent.isExpiredAt_zero
  cases state with
  | created | verified | settlementConstructed =>
      obtain ⟨htxid, hreason⟩ := consistent.fresh (by simp)
      cases htxid
      cases hreason
      simp [attempt, lifecycleStep, advance, opened, TradeRecord.created, unlessElapsed, accept,
        hlive]
  | submitted | confirmed | consumed =>
      obtain ⟨htxid, hreason⟩ := consistent.inFlight (by simp)
      obtain ⟨txid, rfl⟩ := Option.isSome_iff_exists.mp htxid
      cases hreason
      simp [attempt, submission, lifecycleStep, advance, opened, TradeRecord.created,
        unlessElapsed, accept, hlive]
  | failed =>
      obtain ⟨reason, rfl⟩ := Option.isSome_iff_exists.mp (consistent.failed rfl)
      cases txid <;>
        simp [attempt, submission, failure, lifecycleStep, advance, opened, TradeRecord.created,
          unlessElapsed, accept, hlive]
  | expired =>
      have helapsed : intent.isExpiredAt ⟨u64Max⟩ = true :=
        TradeIntent.isExpiredAt_eq_true.mpr
          (UInt64.lt_of_le_of_ne (le_u64Max _) (elapses rfl))
      cases txid with
      | none =>
          cases reason <;>
            simp [attempt, submission, failure, lifecycleStep, advance, opened,
              TradeRecord.created, accept, helapsed]
      | some txid =>
          obtain ⟨reason, rfl⟩ := Option.isSome_iff_exists.mp (consistent.expired rfl rfl)
          simp [attempt, submission, failure, lifecycleStep, advance, opened,
            TradeRecord.created, unlessElapsed, accept, hlive, helapsed]

theorem TradeRecord.Storable.run_rebuild {record : TradeRecord}
    (h : record.Storable maxRetries commitment) :
    Machine.run (lifecycleStep maxRetries commitment) none record.rebuild = some record := by
  have hbudget : record.retryCount.toNat ≤ maxRetries.toNat :=
    UInt32.le_iff_toNat_le.mp h.bounded
  rw [rebuild, run_cons, run_append]
  change Machine.run _ (Machine.run _ (some (opened commitment record.intent 0)) _) _ = _
  rw [run_retryCycles record.intent hbudget, UInt32.ofNat_toNat, h.run_attempt]

end Rebuild

section Keyed
variable {κ α β : Type*} [DecidableEq κ] {entries : List (κ × α)} {key : κ}

theorem flatMap_key_absent (absent : ∀ entry ∈ entries, entry.1 ≠ key) (f : α → List β) :
    entries.flatMap (fun entry => if entry.1 = key then f entry.2 else []) = [] :=
  List.flatMap_eq_nil_iff.mpr (fun entry hmem => if_neg (absent entry hmem))

/-- Under distinct keys a key selects what its own entry holds. -/
theorem flatMap_key_present (distinct : entries.Pairwise (fun entry other => entry.1 ≠ other.1))
    {value : α} (h : (key, value) ∈ entries) (f : α → List β) :
    entries.flatMap (fun entry => if entry.1 = key then f entry.2 else []) = f value := by
  induction entries with
  | nil => simp at h
  | cons first rest ih =>
      obtain ⟨hfirst, hrest⟩ := List.pairwise_cons.mp distinct
      rw [List.flatMap_cons]
      obtain rfl | hmem := List.mem_cons.mp h
      · rw [if_pos rfl, flatMap_key_absent (fun entry hentry => (hfirst entry hentry).symm),
          List.append_nil]
      · rw [if_neg (hfirst _ hmem), List.nil_append, ih hrest hmem]

end Keyed

namespace ReplayStore

/-- Calls that rebuild every record of a store, one trade after the other. -/
def rebuild (store : ReplayStore) : List Call :=
  store.records.toList.flatMap (fun entry => entry.2.rebuild.map (Call.mk entry.1))

theorem select_rebuild (store : ReplayStore) (maxRetries : UInt32)
    (commitment : TradeCommitment) :
    store.rebuild.filterMap (tradeAt maxRetries commitment).select
      = store.records.toList.flatMap
          (fun entry => if entry.1 = commitment then entry.2.rebuild else []) := by
  rw [rebuild, List.filterMap_flatMap]
  refine List.flatMap_congr fun entry _ => ?_
  rw [List.filterMap_map]
  by_cases h : entry.1 = commitment
  · rw [if_pos h]
    exact (List.filterMap_congr (fun _ _ => if_pos h)).trans List.filterMap_some
  · rw [if_neg h]
    exact List.filterMap_eq_nil_iff.mpr (fun _ _ => if_neg h)

theorem get_run_rebuild (store : ReplayStore) {maxRetries : UInt32}
    (storable : ∀ commitment record, store.get commitment = some record →
      record.Storable maxRetries commitment) (commitment : TradeCommitment) :
    ((withMaxRetries maxRetries).run store.rebuild).get commitment = store.get commitment := by
  have hentries (key : TradeCommitment) (record : TradeRecord) :
      (key, record) ∈ store.records.toList ↔ store.get key = some record :=
    Std.ExtTreeMap.mem_toList_iff_getElem?_eq_some
  have hdistinct : store.records.toList.Pairwise (fun entry other => entry.1 ≠ other.1) :=
    Std.ExtTreeMap.distinct_keys_toList.imp
      (fun hne heq => hne (Std.LawfulEqCmp.compare_eq_iff_eq.mpr heq))
  rw [get_run, select_rebuild]
  cases hget : store.get commitment with
  | none =>
      rw [flatMap_key_absent, run_nil]
      rintro ⟨key, record⟩ hmem rfl
      rw [hentries, hget] at hmem
      simp at hmem
  | some record =>
      rw [flatMap_key_present hdistinct ((hentries _ _).mpr hget)]
      exact (storable commitment record hget).run_rebuild

end ReplayStore

/-- An elapsed record has an expiry that some time is after. -/
def ElapsedEntry : Option TradeRecord → Prop
  | none => True
  | some record => record.state = .expired → record.intent.expiry.get ≠ u64Max

theorem bounded_of_isExpiredAt {intent : TradeIntent} {now : UnixSeconds}
    (elapsed : intent.isExpiredAt now = true) : intent.expiry.get ≠ u64Max := by
  have hbefore : intent.expiry.get < now.get := TradeIntent.isExpiredAt_eq_true.mp elapsed
  exact fun heq => UInt64.not_lt.mpr (le_u64Max now.get) (heq ▸ hbefore)

theorem Transition.elapses {maxRetries : UInt32} {commitment : TradeCommitment}
    {entry entry' : Option TradeRecord} {operation : Operation} {result : Result TradeRecord}
    (h : ElapsedEntry entry)
    (step : Transition maxRetries commitment entry operation result entry') :
    ElapsedEntry entry' := by
  cases step with
  | created intent => exact fun hstate => by simp [TradeRecord.created] at hstate
  | expired _ elapsed edit | elapsed _ elapsed edit =>
      subst edit
      exact fun _ => bounded_of_isExpiredAt elapsed
  | verified _ _ edit | acquired _ _ edit | submitted _ _ edit | confirmed _ edit
  | consumed _ edit | failed _ edit | failedSubmission _ edit | retried _ _ _ _ edit =>
      subst edit
      exact fun hstate => by simp at hstate
  | refused _ => exact h

theorem elapses_run (maxRetries : UInt32) (commitment : TradeCommitment) (calls : List Call) :
    ElapsedEntry (((ReplayStore.withMaxRetries maxRetries).run calls).get commitment) :=
  replay_induction (motive := fun _ entry => ElapsedEntry entry) trivial
    (fun _ _ _ _ _ h step => step.elapses h) calls

theorem storable_run {maxRetries : UInt32} {calls : List Call} {commitment : TradeCommitment}
    {record : TradeRecord}
    (stored : ((ReplayStore.withMaxRetries maxRetries).run calls).get commitment = some record) :
    record.Storable maxRetries commitment := by
  have hrecorded := recorded_run maxRetries commitment calls
  have hlocked := locked_run maxRetries commitment calls
  have hconsistent := consistent_run maxRetries commitment calls
  have helapses := elapses_run maxRetries commitment calls
  rw [stored] at hrecorded hlocked hconsistent helapses
  exact {
    key := hrecorded.key
    bounded := UInt32.le_iff_toNat_le.mpr hlocked.bounded
    consistent := hconsistent
    elapses := helapses }

/-- The representation invariant is exact. A run reaches a store when, and only when,
every record lies under its own commitment, within the retry budget, with the identifier
and the reason its state calls for, and is expired only if some time is after its expiry;
and then the calls read off its records rebuild it. -/
theorem reachable_iff_storable (store : ReplayStore) :
    ((∃ calls, (ReplayStore.withMaxRetries store.maxRetries).run calls = store) ↔
      ∀ commitment record, store.get commitment = some record →
        record.Storable store.maxRetries commitment) ∧
    ((∃ calls, (ReplayStore.withMaxRetries store.maxRetries).run calls = store) →
      (ReplayStore.withMaxRetries store.maxRetries).run store.rebuild = store) := by
  have hsound : (∃ calls, (ReplayStore.withMaxRetries store.maxRetries).run calls = store) →
      ∀ commitment record, store.get commitment = some record →
        record.Storable store.maxRetries commitment := by
    rintro ⟨calls, hrun⟩ commitment record hget
    rw [← hrun] at hget
    exact storable_run hget
  have hcomplete (storable : ∀ commitment record, store.get commitment = some record →
      record.Storable store.maxRetries commitment) :
      (ReplayStore.withMaxRetries store.maxRetries).run store.rebuild = store :=
    ReplayStore.ext_get (store.get_run_rebuild storable) (ReplayStore.run_maxRetries _ _)
  exact ⟨⟨hsound, fun storable => ⟨store.rebuild, hcomplete storable⟩⟩,
    fun hreachable => hcomplete (hsound hreachable)⟩

def settledStore : ReplayStore :=
  (ReplayStore.withMaxRetries 3).run (happyPath ⟨.zero⟩ (.blank 10) ⟨.replicate 32 0⟩ ⟨5⟩)

theorem reachable_iff_storable_settled :
    (ReplayStore.withMaxRetries 3).run settledStore.rebuild = settledStore :=
  (reachable_iff_storable settledStore).2 ⟨_, rfl⟩

end ZwaProtocol
