/-
  Phrasebook.Host.Stock
  ────────────────────────────────
  **STOCK FUNCTIONS.**

  A few functions that a host program can hand to its resources without
  writing any of its own:

      count   —  how many arguments there are
      first   —  the first argument
      types   —  the kinds of the arguments, separated by commas
      list    —  the arguments as an array
      fail    —  a division by zero, to see how an error travels
-/
import Phrasebook.Eval.Scope

namespace Phrasebook

/-- What the stock functions do; any other name gives nothing. -/
def stockHost : Host := fun name _ arguments =>
  if name = "count" then .ok (.number (Int64.ofNat arguments.length))
  else if name = "first" then .ok (arguments.headD .absent)
  else if name = "types" then
    .ok (.text (",".intercalate (arguments.map fun v => v.kind.name)))
  else if name = "list" then .ok (.array arguments)
  else if name = "fail" then .error .divisionByZero
  else .ok .absent

end Phrasebook
