/-!
# Words

The integers that a binary word of a given width can hold.
-/

namespace Dotpath.Word

/-- The value fits a word of so many bits, with or without a sign. -/
def holds (signed : Bool) (bits : Nat) (value : Int) : Bool :=
  if signed then -(Nat.pow 2 (bits - 1) : Int) ≤ value && value < (Nat.pow 2 (bits - 1) : Int)
  else 0 ≤ value && value < (Nat.pow 2 bits : Int)

end Dotpath.Word
