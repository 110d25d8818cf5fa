import Mathlib

/-!
# Return values of the API

`rmw_ret_t` as the functions of the package use it, with the message that
`RMW_SET_ERROR_MSG` leaves.  A message with a format keeps the format.
-/

namespace RmwDps

/-- `rmw_ret_t`. -/
inductive RmwRet
  | ok
  | timeout
  | error (message : String)
  deriving DecidableEq, Repr

/-- `intel_dps_identifier`. -/
def intelDpsIdentifier : String := "rmw_dps_cpp"

end RmwDps
