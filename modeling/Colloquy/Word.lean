/-!
# Words

How many words of some bits there are, which bounds the numbers that fit into one.
-/

namespace Colloquy.Word

/-- How many words of some bits there are. -/
def count (bits : Nat) : Nat :=
  Nat.pow 2 bits

theorem count_32 : count 32 = 4294967296 := rfl

/-- Whether an integer is a word of 64 bits with a sign. -/
def isSigned64 (n : Int) : Bool :=
  -(count 63 : Int) ≤ n && n < (count 63 : Int)

end Colloquy.Word
