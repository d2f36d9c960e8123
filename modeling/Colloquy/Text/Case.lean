/-!
# Letter case of the ASCII alphabet

Names of tools and of the choices in a configuration are compared without regard to the case of
the letters A to Z; no other character has a case here.
-/

namespace Colloquy.Text

/-- The text with its ASCII capitals made small and every other character kept. -/
def lowerAscii (s : String) : String :=
  String.ofList (s.toList.map Char.toLower)

/-- Two texts are alike when they differ at most in the case of ASCII letters. -/
def alike (s t : String) : Bool :=
  lowerAscii s == lowerAscii t

theorem alike_iff {s t : String} : alike s t = true ↔ lowerAscii s = lowerAscii t := by
  simp [alike]

theorem alike_refl (s : String) : alike s s = true := by
  simp [alike]

theorem alike_comm (s t : String) : alike s t = alike t s := by
  rw [Bool.eq_iff_iff, alike_iff, alike_iff]
  exact eq_comm

end Colloquy.Text
