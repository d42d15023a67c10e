import ZwaProtocol.Circuits.Compliance
import ZwaProtocol.Circuits.FixtureGenerator

/-!
Trees with other leaves. Beside the credentials that approve a receiver, a tree may hold
leaves of the frozen form, which commits to none, and the fillers of the fixtures. The
eligibility circuit opens only the first.
-/
namespace ZwaProtocol
open MerkleTree FieldElement HashStaging SharedEngine SharedEligibility
open ConstraintSystem ConstraintSystem.Circuit

section Leaves
variable (H : List Fr → Fr)

end Leaves

section Opened
variable {H : List Fr → Fr} {recorded : Set (List Fr)} (injective : Set.InjOn H recorded)
include injective

end Opened

section Circuit
variable {lib : Circomlib} (lawful : lib.Lawful) {H : List Fr → Fr}
  {credentialDepth policyDepth : Nat}

end Circuit

section Sample

end Sample

end ZwaProtocol
