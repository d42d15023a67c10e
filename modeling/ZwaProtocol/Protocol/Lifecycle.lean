import ZwaProtocol.Library.ByteStrings

/-!
Matcher-side lifecycle vocabulary: states, events, failure reasons and the
settlement transaction identifier. Transition rules live with the store.
-/
namespace ZwaProtocol

inductive TradeLifecycleState
  | created
  | verified
  | settlementConstructed
  | submitted
  | confirmed
  | consumed
  | expired
  | failed
  deriving DecidableEq, Repr

namespace TradeLifecycleState

def isConsumed : TradeLifecycleState → Bool
  | .consumed => true
  | _ => false

def isExpired : TradeLifecycleState → Bool
  | .expired => true
  | _ => false

/-- Whether settlement-active work may still run. -/
def isSettlementActive : TradeLifecycleState → Bool
  | .created | .verified | .settlementConstructed | .submitted | .confirmed => true
  | _ => false

@[simp] theorem isConsumed_iff (state : TradeLifecycleState) :
    state.isConsumed = true ↔ state = .consumed := by
  cases state <;> simp [isConsumed]

end TradeLifecycleState

inductive LifecycleEvent
  | create
  | verify
  | acquireConstruction
  | submit
  | confirm
  | consume
  | fail
  | expire
  | retry
  deriving DecidableEq, Repr

inductive FailureReason
  | verificationRejected
  | constructionFailed
  | submissionFailed
  | confirmationFailed
  deriving DecidableEq, Repr

/-- A 32-byte identifier; the store only ever compares it. -/
structure SettlementTxId where
  bytes : List.Vector UInt8 32
  deriving DecidableEq

end ZwaProtocol
