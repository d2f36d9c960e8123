import Colloquy.Text.Case
import Colloquy.Text.LowerCase

/-!
# Small forms and the ASCII alphabet

The small form of a text by the rules of Unicode does not see the case of its ASCII letters: they have
a case and are never passed over, whether capital or small, and none of them is a sigma. So texts with
different small forms differ in more than the case of ASCII letters.
-/

namespace Colloquy.Text

/-- What is the same for each ASCII capital and its small letter does not see the case of ASCII
letters. -/
private theorem eq_of_capitals {β : Type} (f : Char → β)
    (h : ∀ n < 26, f (Char.ofNat (65 + n)).toLower = f (Char.ofNat (65 + n))) (c : Char) :
    f c.toLower = f c := by
  by_cases hcapital : 65 ≤ c.toNat ∧ c.toNat ≤ 90
  · obtain ⟨hlow, hhigh⟩ := hcapital
    have hc : Char.ofNat (65 + (c.toNat - 65)) = c := by
      rw [Nat.add_sub_cancel' hlow, Char.ofNat_toNat]
    have hsame := h (c.toNat - 65) (by omega)
    rwa [hc] at hsame
  · have hkept : c.toLower = c := dif_neg hcapital
    rw [hkept]

private theorem isCased_toLower (c : Char) : isCased c.toLower = isCased c :=
  eq_of_capitals isCased (by decide +kernel) c

private theorem isCaseIgnorable_toLower (c : Char) : isCaseIgnorable c.toLower = isCaseIgnorable c :=
  eq_of_capitals isCaseIgnorable (by decide +kernel) c

private theorem smallForm_toLower (c : Char) : smallForm c.toLower = smallForm c :=
  eq_of_capitals smallForm (by decide +kernel) c

private theorem isSigma_toLower (c : Char) :
    decide (c.toLower = Char.ofNat 0x3A3) = decide (c = Char.ofNat 0x3A3) :=
  eq_of_capitals (fun c => decide (c = Char.ofNat 0x3A3)) (by decide +kernel) c

private theorem meetsLetter_toLower (cs : List Char) :
    meetsLetter (cs.map Char.toLower) = meetsLetter cs := by
  have hpassed : isCaseIgnorable ∘ Char.toLower = isCaseIgnorable := funext isCaseIgnorable_toLower
  rw [meetsLetter, meetsLetter, List.dropWhile_map, hpassed]
  cases cs.dropWhile isCaseIgnorable with
  | nil => rfl
  | cons c rest => exact isCased_toLower c

private theorem lowerFrom_toLower (before after : List Char) :
    lowerFrom (before.map Char.toLower) (after.map Char.toLower) = lowerFrom before after := by
  induction after generalizing before with
  | nil => rfl
  | cons c after ih =>
    rw [List.map_cons, lowerFrom, lowerFrom, isSigma_toLower, meetsLetter_toLower,
      meetsLetter_toLower, smallForm_toLower, ← List.map_cons, ih]

/-- Making ASCII capitals small beforehand does not change the small form. -/
theorem lower_lowerAscii (s : String) : lower (lowerAscii s) = lower s := by
  rw [lower, lower, lowerAscii, String.toList_ofList]
  exact congrArg String.ofList (lowerFrom_toLower [] s.toList)

/-- Texts that differ at most in the case of ASCII letters have the same small form. -/
theorem lower_eq_of_alike {s t : String} (h : alike s t = true) : lower s = lower t := by
  rw [← lower_lowerAscii s, alike_iff.mp h, lower_lowerAscii]

end Colloquy.Text
