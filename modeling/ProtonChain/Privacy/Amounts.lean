import ProtonChain.Vm.PrivateTransfer

/-! What the encrypted amount of a private transfer tells.

The eight bytes of the sender's secret are used twice, once on each half of the amount. Whoever
sees the bytes knows the halves of the amount mixed with one another, and where the upper half is
empty it is the secret that stands there.
-/

set_option autoImplicit false

namespace ProtonChain.Privacy

namespace PrivacyTxBuilder

section Amounts
variable (amount : U128) (secret : U64)

end Amounts

end PrivacyTxBuilder

end ProtonChain.Privacy
