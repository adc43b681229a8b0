import Dotpath.Decimal.Layout

/-!
# Numbers

The numbers of both kinds of trees: integers, which documents keep within 64 bits, and floats.
-/

namespace Dotpath

inductive Number where
  | int (value : Int)
  | float (value : Binary64)
deriving DecidableEq, Repr

namespace Number

/-- Equality of mapping keys: an integer never equals a float. -/
def sameKey : Number → Number → Bool
  | int a, int b => a == b
  | float a, float b => a.sameKey b
  | _, _ => false

def write (layout : FloatLayout) : Number → String
  | int value => toString value
  | float value => layout.write value

end Number

end Dotpath
