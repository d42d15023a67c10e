import ZwaProtocol.Protocol.Lifecycle

/-!
Typed protocol errors. Every rejection a caller branches on is a constructor,
with the data the source attaches to it.
-/
namespace ZwaProtocol

inductive FieldEncodingProblem
  | wrongLength
  | notReduced
  | notDecimal
  | decimalOverflow
  deriving DecidableEq, Repr

inductive LimbKind
  | assetBaseLo
  | assetBaseHi
  | receiverLimb0
  | receiverLimb1
  | receiverLimb2
  deriving DecidableEq, Repr

inductive CredentialCodeField
  | investorClass
  | jurisdiction
  deriving DecidableEq, Repr

inductive TimestampProblem
  | windowInverted
  | overflow
  deriving DecidableEq, Repr

inductive RootEnvelopeProblem
  | missingAuthorityIdentifier
  | identifierTooLong (got max : Nat)
  | signatureMissing
  | signatureTooLong (got max : Nat)
  | notYetValid (validFrom now : UInt64)
  | expired (expiresAt now : UInt64)
  deriving DecidableEq, Repr

inductive ProtocolError
  | invalidAssetBase (got : Nat)
  | invalidReceiver (got : Nat)
  | invalidFieldEncoding (reason : FieldEncodingProblem)
  | limbOutOfRange (limb : LimbKind) (bits : UInt32)
  | credentialCodeOutOfRange (code : CredentialCodeField) (bits : UInt32)
  | invalidTimestamp (reason : TimestampProblem)
  | expiredTrade (expiry now : UInt64)
  | commitmentMismatch (expected actual : String)
  | unsupportedPoseidonArity (arity : Nat)
  | invalidRootEnvelope (reason : RootEnvelopeProblem)
  | unsupportedVersion (got : UInt64)
  | invalidStateTransition (source : TradeLifecycleState) (attempted : LifecycleEvent)
  | alreadyConsumed
  | unknownTrade
  | unreconciledPriorSubmission
  | retryBudgetExhausted (attempts max : UInt32)
  deriving DecidableEq, Repr

/-- The source's `Result<T>`. -/
abbrev Result (α : Type) := Except ProtocolError α

/-- `Result::expect` on a result that is never an error: the proof stands where
the source would panic. -/
def Result.expect {α : Type} : (result : Result α) → result.isOk = true → α
  | .ok value, _ => value

@[simp] theorem Result.expect_ok {α : Type} (value : α) (h) :
    Result.expect (.ok value) h = value := rfl

end ZwaProtocol
