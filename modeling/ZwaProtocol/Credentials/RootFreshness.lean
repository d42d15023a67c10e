import ZwaProtocol.Credentials.Envelope
import ZwaProtocol.Protocol.TradeLifetime

/-!
When a signed root is current. The verdict on an envelope is read off the signed bytes,
the clocks that accept it are exactly its window, and under a clock that does not run
back every envelope goes through the same three phases once.
-/
namespace ZwaProtocol
open SelfDelimiting

section Window
variable {window : ValidityWindow} {now : UnixSeconds}

theorem ValidityWindow.le (window : ValidityWindow) :
    window.validFrom.get ≤ window.expiresAt.get :=
  UInt64.not_lt.mp window.ordered

theorem ValidityWindow.contains_early (early : now.get < window.validFrom.get) :
    window.contains now =
      .error (.invalidRootEnvelope (.notYetValid window.validFrom.get now.get)) :=
  if_pos early

theorem ValidityWindow.contains_late (late : window.expiresAt.get < now.get) :
    window.contains now =
      .error (.invalidRootEnvelope (.expired window.expiresAt.get now.get)) := by
  have hstarted : ¬ now.get < window.validFrom.get :=
    UInt64.not_lt.mpr (UInt64.le_of_lt (UInt64.lt_of_le_of_lt window.le late))
  rw [contains, if_neg hstarted, if_pos late]

theorem ValidityWindow.contains_iff :
    window.contains now = .ok () ↔
      window.validFrom.get ≤ now.get ∧ now.get ≤ window.expiresAt.get := by
  constructor
  · intro hok
    constructor
    · by_contra hearly
      rw [contains_early (UInt64.not_le.mp hearly)] at hok
      simp at hok
    · by_contra hlate
      rw [contains_late (UInt64.not_le.mp hlate)] at hok
      simp at hok
  · rintro ⟨hstarted, hrunning⟩
    rw [contains, if_neg (UInt64.not_lt.mpr hstarted), if_neg (UInt64.not_lt.mpr hrunning)]

end Window

namespace RootEnvelope
variable {kind kind' : RootKind} (envelope : RootEnvelope kind)

def window : ValidityWindow := envelope.payload.metadata.window

/-- An envelope is validated by its window alone. -/
theorem validateStructureAt_eq (now : UnixSeconds) :
    envelope.validateStructureAt now =
      (envelope.window.contains now).map (fun _ => ⟨envelope⟩) := by
  rw [validateStructureAt, RootPayload.validateStructureAt, RootMetadata.ensureCurrentAt, window]
  cases envelope.payload.metadata.window.contains now <;> rfl

theorem validateStructureAt_iff (now : UnixSeconds) :
    envelope.validateStructureAt now = .ok ⟨envelope⟩ ↔
      envelope.window.validFrom.get ≤ now.get ∧ now.get ≤ envelope.window.expiresAt.get := by
  rw [validateStructureAt_eq, ← ValidityWindow.contains_iff]
  cases envelope.window.contains now <;> simp [Except.map]

/-- The window is signed. -/
theorem window_eq_of_bytes {envelope' : RootEnvelope kind'}
    (bytes : envelope.canonicalPayloadBytes = envelope'.canonicalPayloadBytes) :
    envelope.window = envelope'.window := by
  have hsigned : (⟨kind, envelope.payload⟩ : SignedRoot) = ⟨kind', envelope'.payload⟩ :=
    encode_injective SignedRoot.reads_decode bytes
  exact congrArg (fun signed : SignedRoot => signed.2.metadata.window) hsigned

/-- A window is told by the clocks inside it. -/
theorem window_eq_of_accepts {envelope' : RootEnvelope kind'}
    (accepts : ∀ now, envelope.validateStructureAt now = .ok ⟨envelope⟩ ↔
      envelope'.validateStructureAt now = .ok ⟨envelope'⟩) :
    envelope.window = envelope'.window := by
  have hinside (now : UnixSeconds) :
      (envelope.window.validFrom.get ≤ now.get ∧ now.get ≤ envelope.window.expiresAt.get) ↔
        envelope'.window.validFrom.get ≤ now.get ∧
          now.get ≤ envelope'.window.expiresAt.get := by
    rw [← validateStructureAt_iff, ← validateStructureAt_iff, accepts]
  have hfrom := (hinside envelope.window.validFrom).mp ⟨UInt64.le_refl _, envelope.window.le⟩
  have hfrom' := (hinside envelope'.window.validFrom).mpr ⟨UInt64.le_refl _, envelope'.window.le⟩
  have huntil := (hinside envelope.window.expiresAt).mp ⟨envelope.window.le, UInt64.le_refl _⟩
  have huntil' := (hinside envelope'.window.expiresAt).mpr ⟨envelope'.window.le, UInt64.le_refl _⟩
  ext1
  · exact congrArg U64Newtype.mk (UInt64.le_antisymm hfrom'.1 hfrom.1)
  · exact congrArg U64Newtype.mk (UInt64.le_antisymm huntil.2 huntil'.2)

end RootEnvelope

/-- Signed roots are current exactly within their windows. For every envelope of either
kind: under a clock that does not run back the verdicts are first `NotYetValid`, then
acceptance, then `Expired`, each naming the bound it misses and the time, and both ends of
the window are accepted; an envelope with the same signed bytes, whatever its signature, is
judged alike at every time; and envelopes accepted at the same times have one window. -/
theorem roots_current_within_windows {kind : RootKind} (envelope : RootEnvelope kind) :
    (∀ readings, ClockReadings readings → ∃ early current late,
      readings = early ++ current ++ late ∧
      (∀ now ∈ early, envelope.validateStructureAt now =
        .error (.invalidRootEnvelope (.notYetValid envelope.window.validFrom.get now.get))) ∧
      (∀ now ∈ current, envelope.validateStructureAt now = .ok ⟨envelope⟩) ∧
      ∀ now ∈ late, envelope.validateStructureAt now =
        .error (.invalidRootEnvelope (.expired envelope.window.expiresAt.get now.get))) ∧
    envelope.validateStructureAt envelope.window.validFrom = .ok ⟨envelope⟩ ∧
    envelope.validateStructureAt envelope.window.expiresAt = .ok ⟨envelope⟩ ∧
    (∀ {kind' : RootKind} (envelope' : RootEnvelope kind'),
      envelope.canonicalPayloadBytes = envelope'.canonicalPayloadBytes →
      ∀ now, (envelope.validateStructureAt now).map (fun _ => ()) =
        (envelope'.validateStructureAt now).map (fun _ => ())) ∧
    ∀ {kind' : RootKind} (envelope' : RootEnvelope kind'),
      (∀ now, envelope.validateStructureAt now = .ok ⟨envelope⟩ ↔
        envelope'.validateStructureAt now = .ok ⟨envelope'⟩) →
      envelope.window = envelope'.window := by
  have hwindow := envelope.window.le
  refine ⟨?_, ?_, ?_, ?_, fun _ => envelope.window_eq_of_accepts⟩
  · intro readings hclock
    obtain ⟨early, rest, rfl, hearly, hstarted, hrest⟩ := hclock.split
      (fun now => now.get < envelope.window.validFrom.get)
      (fun _ _ hle hlt => UInt64.lt_of_le_of_lt hle hlt)
    obtain ⟨current, late, rfl, hcurrent, hlate, -⟩ := hrest.split
      (fun now => now.get ≤ envelope.window.expiresAt.get)
      (fun _ _ hle hlt => UInt64.le_trans hle hlt)
    refine ⟨early, current, late, (List.append_assoc _ _ _).symm, ?_, ?_, ?_⟩
    · intro now hnow
      rw [envelope.validateStructureAt_eq, ValidityWindow.contains_early (hearly now hnow)]
      rfl
    · intro now hnow
      have hnotEarly := hstarted now (List.mem_append_left _ hnow)
      exact (envelope.validateStructureAt_iff now).mpr
        ⟨UInt64.not_lt.mp hnotEarly, hcurrent now hnow⟩
    · intro now hnow
      rw [envelope.validateStructureAt_eq,
        ValidityWindow.contains_late (UInt64.not_le.mp (hlate now hnow))]
      rfl
  · exact (envelope.validateStructureAt_iff _).mpr ⟨UInt64.le_refl _, hwindow⟩
  · exact (envelope.validateStructureAt_iff _).mpr ⟨hwindow, UInt64.le_refl _⟩
  · intro kind' envelope' bytes now
    rw [envelope.validateStructureAt_eq, envelope'.validateStructureAt_eq,
      envelope.window_eq_of_bytes bytes]
    cases envelope'.window.contains now <;> rfl

theorem roots_current_within_windows_three_readings :
    ∃ (envelope : IssuerRootEnvelope) (early current late : List UnixSeconds),
      [⟨9⟩, ⟨15⟩, ⟨21⟩] = early ++ current ++ late ∧
      ∀ now ∈ current, envelope.validateStructureAt now = .ok ⟨envelope⟩ := by
  let envelope : IssuerRootEnvelope :=
    ⟨⟨⟨.zero⟩, ⟨⟨[0x69], by simp, by decide⟩⟩, ⟨⟨1⟩, ⟨⟨10⟩, ⟨20⟩, by decide⟩, rfl⟩⟩,
      ⟨[0x5a], by simp, by decide⟩⟩
  obtain ⟨early, current, late, hreadings, -, hcurrent, -⟩ :=
    (roots_current_within_windows envelope).1 [⟨9⟩, ⟨15⟩, ⟨21⟩]
      (by simp [ClockReadings, List.pairwise_cons])
  exact ⟨envelope, early, current, late, hreadings, hcurrent⟩

end ZwaProtocol
