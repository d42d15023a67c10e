import ZwaProtocol.Protocol.LifecycleWords
import ZwaProtocol.Protocol.TradeLifetime

/-!
The lifecycle under a clock. A store takes whatever readings its callers pass; where they
come from one clock that does not go back, an expiry forbids every later step past the gate
for the trades that expire no later, and this is all that such a clock adds.
-/
namespace ZwaProtocol
open Machine

/-- The reading of the clock that a call passes. -/
def Operation.reading : Operation → Option UnixSeconds
  | .verify now | .acquireConstruction now | .submit _ now | .expire now
  | .retryAfterFailure _ now => some now
  | .create _ | .confirm | .consume | .fail _ => none

def readings (calls : List Call) : List UnixSeconds :=
  calls.filterMap (fun call => call.operation.reading)

/-- A trade that passes the gate after another expired expires later than it. -/
def Outlives (intents : TradeCommitment → TradeIntent)
    (earlier later : TradeCommitment × LifecycleEvent) : Prop :=
  earlier.2 = .expire → later.2.gated = true →
    (intents earlier.1).expiry.get < (intents later.1).expiry.get

section Soundness

/-- Step lemma: the reading behind an expiry is past it, the one behind a gated event not. -/
theorem Transition.reading {maxRetries : UInt32} {commitment : TradeCommitment}
    {entry entry' : Option TradeRecord} {operation : Operation} {result : Result TradeRecord}
    {intent : TradeIntent} {event : LifecycleEvent}
    (step : Transition maxRetries commitment entry operation result entry')
    (kept : ∀ record, entry' = some record → record.intent = intent)
    (hreported : reported operation result = some event) :
    (event = .expire → ∃ now, operation.reading = some now ∧ intent.expiry.get < now.get) ∧
      (event.gated = true →
        ∃ now, operation.reading = some now ∧ now.get ≤ intent.expiry.get) := by
  cases step with
  | created _ | confirmed _ _ | consumed _ _ | failed _ _ | failedSubmission _ _ =>
      cases hreported
      exact ⟨nofun, nofun⟩
  | verified _ live edit | acquired _ live edit | submitted _ live edit
  | retried _ live _ _ edit =>
      have hintent := kept _ rfl
      cases hreported
      subst edit hintent
      exact ⟨nofun, fun _ => ⟨_, rfl, TradeIntent.isExpiredAt_eq_false.mp live⟩⟩
  | expired _ elapsed edit =>
      have hintent := kept _ rfl
      cases hreported
      subst edit hintent
      exact ⟨fun _ => ⟨_, rfl, TradeIntent.isExpiredAt_eq_true.mp elapsed⟩, nofun⟩
  | elapsed gated elapsed edit =>
      have hintent := kept _ rfl
      cases hreported
      subst edit hintent
      refine ⟨fun _ => ⟨_, ?_, TradeIntent.isExpiredAt_eq_true.mp elapsed⟩, nofun⟩
      obtain ⟨-, rfl⟩ | ⟨-, rfl⟩ | ⟨_, -, rfl⟩ | ⟨_, -, rfl⟩ := gated
      all_goals rfl
  | refused other =>
      rw [reported_refusal other] at hreported
      cases hreported

variable {intents : TradeCommitment → TradeIntent} {store : ReplayStore}

theorem ReplayStore.Holds.of_run {calls : List Call} (h : (store.run calls).Holds intents) :
    store.Holds intents := by
  induction calls generalizing store with
  | nil => exact h
  | cons call calls ih => exact (ih h).of_apply

theorem ReplayStore.reading_of_mem {calls : List Call}
    (held : (store.run calls).Holds intents) {e : StoreEvent} (hmem : e ∈ store.history calls)
    {addressed : TradeCommitment × LifecycleEvent} (hreported : e.reported = some addressed) :
    (addressed.2 = .expire → ∃ now, e.input.operation.reading = some now ∧
        (intents addressed.1).expiry.get < now.get) ∧
      (addressed.2.gated = true → ∃ now, e.input.operation.reading = some now ∧
        now.get ≤ (intents addressed.1).expiry.get) := by
  obtain ⟨event, hevent, rfl⟩ := Option.map_eq_some_iff.mp hreported
  refine (transition_of_mem hmem).reading (fun record hget => ?_) hevent
  obtain ⟨before, call, after, rfl, rfl⟩ := mem_history _ hmem
  rw [run, run_append, run_cons] at held
  exact held.of_run call.commitment record hget

/-- Run lemma: under a clock that does not go back the reported words are in order. -/
theorem pairwise_outlives {calls : List Call} (clock : ClockReadings (readings calls))
    (held : (store.run calls).Holds intents) :
    (reportedWord (store.history calls)).Pairwise (Outlives intents) := by
  have hcalls : (store.history calls).map Event.input = calls := map_input_history _ store calls
  have hreadings : (store.history calls).filterMap (fun e => e.input.operation.reading)
      = readings calls :=
    List.filterMap_map.symm.trans
      (congrArg (List.filterMap (fun call : Call => call.operation.reading)) hcalls)
  rw [ClockReadings, ← hreadings, List.pairwise_filterMap] at clock
  rw [reportedWord, List.pairwise_filterMap]
  refine clock.imp_of_mem ?_
  intro e f he hf hclock earlier hearlier later hlater hexpire hgated
  obtain ⟨now, hnow, hpast⟩ := (ReplayStore.reading_of_mem held he hearlier).1 hexpire
  obtain ⟨now', hnow', hlive⟩ := (ReplayStore.reading_of_mem held hf hlater).2 hgated
  exact UInt64.lt_of_lt_of_le hpast
    (UInt64.le_trans (hclock now hnow now' hnow') hlive)

end Soundness

section Completeness
variable {intents : TradeCommitment → TradeIntent}

/-- The earliest reading at which an event may happen. -/
def earliestReading (clock : UnixSeconds) (expiry : UInt64) (event : LifecycleEvent) :
    UnixSeconds :=
  if event = .expire ∧ clock.get ≤ expiry then ⟨expiry + 1⟩ else clock

theorem toNat_succ_of_lt_u64Max {expiry : UInt64} (h : expiry < u64Max) :
    (expiry + 1).toNat = expiry.toNat + 1 := by
  have hlt : expiry.toNat < 2 ^ 64 - 1 := UInt64.lt_iff_toNat_lt.mp h
  rw [UInt64.toNat_add]
  exact Nat.mod_eq_of_lt (by simp; omega)

theorem le_earliestReading {clock : UnixSeconds} {expiry : UInt64} {event : LifecycleEvent}
    (mayExpire : event = .expire → expiry < u64Max) :
    clock.get ≤ (earliestReading clock expiry event).get := by
  rw [earliestReading]
  split
  · next h =>
      have hsucc := toNat_succ_of_lt_u64Max (mayExpire h.1)
      have hclock := UInt64.le_iff_toNat_le.mp h.2
      rw [UInt64.le_iff_toNat_le, hsucc]
      omega
  · exact UInt64.le_refl _

theorem earliestReading_permits {clock : UnixSeconds} {intent : TradeIntent}
    {event : LifecycleEvent} (mayExpire : event = .expire → intent.expiry.get < u64Max)
    (onTime : event.gated = true → clock.get ≤ intent.expiry.get) :
    intent.Permits (earliestReading clock intent.expiry.get event) event where
  live hgated := by
    have hother : event ≠ .expire := by
      rintro rfl
      cases hgated
    rw [TradeIntent.isExpiredAt_eq_false, earliestReading, if_neg (fun h => hother h.1)]
    exact onTime hgated
  elapsed hexpire := by
    rw [TradeIntent.isExpiredAt_eq_true, earliestReading]
    split
    · rw [UInt64.lt_iff_toNat_lt, toNat_succ_of_lt_u64Max (mayExpire hexpire)]
      exact Nat.lt_succ_self _
    · next h => exact UInt64.not_le.mp (fun hle => h ⟨hexpire, hle⟩)

/-- What outlives an expiry is still on time at the earliest reading for it. -/
theorem earliestReading_le {clock : UnixSeconds} {expiry later : UInt64} {event : LifecycleEvent}
    (mayExpire : event = .expire → expiry < u64Max) (onTime : clock.get ≤ later)
    (outlives : event = .expire → expiry < later) :
    (earliestReading clock expiry event).get ≤ later := by
  rw [earliestReading]
  split
  · next h =>
      have hlater := UInt64.lt_iff_toNat_lt.mp (outlives h.1)
      rw [UInt64.le_iff_toNat_le, toNat_succ_of_lt_u64Max (mayExpire h.1)]
      exact hlater
  · exact onTime

theorem expiry_lt_of_product {maxRetries : UInt32}
    {stages target : TradeCommitment → LifecycleStage}
    {addressed : TradeCommitment × LifecycleEvent}
    (edge : product (lifecycleAt maxRetries intents) stages addressed = some target)
    (expires : addressed.2 = .expire) : (intents addressed.1).expiry.get < u64Max := by
  obtain ⟨moved, hmoved, -⟩ := Option.map_eq_some_iff.mp edge
  rw [expires] at hmoved
  exact of_decide_eq_true (LifecycleStage.mayExpire_of_next hmoved)

theorem reading_performing {intent : TradeIntent} {entry : Option TradeRecord}
    {now reading : UnixSeconds} {event : LifecycleEvent}
    (h : (performing intent entry now event).reading = some reading) : reading = now := by
  cases event <;> simp [performing, Operation.reading] at h <;> exact h.symm

theorem clockReadings_cons {call : Call} {calls : List Call} {clock now : UnixSeconds}
    (start : clock.get ≤ now.get)
    (reading : ∀ reading, call.operation.reading = some reading → reading = now)
    (forward : ClockReadings (readings calls))
    (after : ∀ later ∈ readings calls, now.get ≤ later.get) :
    ClockReadings (readings (call :: calls)) ∧
      ∀ later ∈ readings (call :: calls), clock.get ≤ later.get := by
  cases hreading : call.operation.reading with
  | none =>
      have hsame : readings (call :: calls) = readings calls := List.filterMap_cons_none hreading
      rw [hsame]
      exact ⟨forward, fun later hmem => UInt64.le_trans start (after later hmem)⟩
  | some first =>
      obtain rfl := reading first hreading
      have hmore : readings (call :: calls) = first :: readings calls :=
        List.filterMap_cons_some hreading
      rw [hmore]
      refine ⟨List.pairwise_cons.mpr ⟨after, forward⟩, List.forall_mem_cons.mpr ⟨start, ?_⟩⟩
      exact fun later hmem => UInt64.le_trans start (after later hmem)

/-- A clock that stops at the earliest readings. By induction on the word; the trades that
pass the gate later are on time at the present reading. -/
theorem exists_clocked_run {maxRetries : UInt32}
    {word : List (TradeCommitment × LifecycleEvent)} {store : ReplayStore}
    {last : TradeCommitment → LifecycleStage} (clock : UnixSeconds)
    (tracks : store.Tracks maxRetries intents)
    (walk : word.foldlM (product (lifecycleAt maxRetries intents)) store.stages = some last)
    (outlives : word.Pairwise (Outlives intents))
    (onTime : ∀ addressed ∈ word, addressed.2.gated = true →
      clock.get ≤ (intents addressed.1).expiry.get) :
    ∃ calls, (store.run calls).Holds intents ∧ reportedWord (store.history calls) = word ∧
      ClockReadings (readings calls) ∧ ∀ now ∈ readings calls, clock.get ≤ now.get := by
  induction word generalizing store clock with
  | nil => exact ⟨[], tracks.2, rfl, .nil, nofun⟩
  | cons addressed word ih =>
      obtain ⟨hbound, hheld⟩ := tracks
      rw [List.foldlM_cons] at walk
      obtain ⟨target, hedge, hrest⟩ := Option.bind_eq_some_iff.mp walk
      obtain ⟨hfirst, hlater⟩ := List.pairwise_cons.mp outlives
      have hmay := expiry_lt_of_product hedge
      let now := earliestReading clock (intents addressed.1).expiry.get addressed.2
      have hnow : clock.get ≤ now.get := le_earliestReading hmay
      have hpermits : (intents addressed.1).Permits now addressed.2 :=
        earliestReading_permits hmay (onTime addressed List.mem_cons_self)
      rw [← hbound] at hedge
      obtain ⟨call, hcall, hkept, hreported, hstages⟩ :=
        store.exists_call_of_product hheld hedge hpermits
      rw [← hstages] at hrest
      obtain ⟨calls, hfinal, hword, hclock, hbefore⟩ := ih now
        ⟨(store.apply_maxRetries call).trans hbound, hkept⟩ hrest hlater
        (fun later hmem hgated => earliestReading_le hmay
          (onTime later (List.mem_cons_of_mem _ hmem) hgated)
          (fun hexpire => hfirst later hmem hexpire hgated))
      refine ⟨call :: calls, hfinal, ?_, ?_⟩
      · rw [reportedWord, ReplayStore.history, history_cons, List.filterMap_cons_some hreported]
        exact congrArg (addressed :: ·) hword
      · exact clockReadings_cons hnow (fun reading h => reading_performing (hcall ▸ h)) hclock
          hbefore

end Completeness

/-- What one clock allows. A word over all trades is reported by a run whose callers read a
clock that does not go back exactly when each trade's automaton walks its part and no trade
passes the expiry gate after the expiry of another that expires no earlier. -/
theorem clocked_words_exact (maxRetries : UInt32) (intents : TradeCommitment → TradeIntent)
    (word : List (TradeCommitment × LifecycleEvent)) :
    (∃ calls, ClockReadings (readings calls) ∧
      ((ReplayStore.withMaxRetries maxRetries).run calls).Holds intents ∧
      reportedWord ((ReplayStore.withMaxRetries maxRetries).history calls) = word) ↔
    (∀ commitment, ∃ last,
      (wordAt commitment word).foldlM (lifecycleAt maxRetries intents commitment) .absent
        = some last) ∧
    word.Pairwise (Outlives intents) := by
  rw [← exists_foldlM_product]
  constructor
  · rintro ⟨calls, hclock, hheld, rfl⟩
    exact ⟨⟨_, foldlM_reportedWord hheld⟩, pairwise_outlives hclock hheld⟩
  · rintro ⟨⟨last, hwalk⟩, houtlives⟩
    rw [← ReplayStore.stages_withMaxRetries maxRetries] at hwalk
    obtain ⟨calls, hheld, hword, hclock, -⟩ := exists_clocked_run ⟨0⟩
      ReplayStore.tracks_withMaxRetries hwalk houtlives
      (fun _ _ _ => UInt64.le_iff_toNat_le.mpr (Nat.zero_le _))
    exact ⟨calls, hclock, hheld, hword⟩

end ZwaProtocol
