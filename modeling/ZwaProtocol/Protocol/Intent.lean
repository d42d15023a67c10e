import ZwaProtocol.Protocol.Values
import ZwaProtocol.Protocol.Bytes

/-!
The canonical trade intent: exactly the values the trade commitment binds.
-/
namespace ZwaProtocol

@[ext] structure TradeIntent where
  offeredAsset : AssetBaseBytes
  offeredAmount : TradeAmount
  requestedAsset : AssetBaseBytes
  requestedAmount : TradeAmount
  recipientCommitment : RecipientCommitment
  policyRoot : PolicyRoot
  matcherFee : MatcherFee
  nonce : TradeNonce
  expiry : TradeExpiry
  deriving DecidableEq

namespace TradeIntent

def isExpiredAt (intent : TradeIntent) (now : UnixSeconds) : Bool :=
  intent.expiry.isExpiredAt now

theorem isExpiredAt_eq_true {intent : TradeIntent} {now : UnixSeconds} :
    intent.isExpiredAt now = true ↔ intent.expiry.get < now.get := by
  simp [isExpiredAt, TradeExpiry.isExpiredAt, TradeExpiry.get]

theorem isExpiredAt_eq_false {intent : TradeIntent} {now : UnixSeconds} :
    intent.isExpiredAt now = false ↔ now.get ≤ intent.expiry.get := by
  simp [isExpiredAt, TradeExpiry.isExpiredAt, TradeExpiry.get]

def ensureUnexpiredAt (intent : TradeIntent) (now : UnixSeconds) : Result Unit :=
  intent.expiry.ensureUnexpiredAt now

/-- An intent over zero bytes, distinguished by its expiry. -/
def blank (expiry : UInt64) : TradeIntent where
  offeredAsset := ⟨.replicate 32 0⟩
  offeredAmount := ⟨0⟩
  requestedAsset := ⟨.replicate 32 0⟩
  requestedAmount := ⟨0⟩
  recipientCommitment := ⟨.zero⟩
  policyRoot := ⟨.zero⟩
  matcherFee := ⟨⟨0⟩, ⟨.zero⟩⟩
  nonce := ⟨0⟩
  expiry := .new expiry

end TradeIntent

end ZwaProtocol
