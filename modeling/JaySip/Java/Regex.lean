/-
  `java.util.regex` patterns without groups that are read: regular expressions over
  characters, and their words.
-/
import Mathlib.Computability.RegularExpressions

namespace Java

open RegularExpression Computability

variable {α : Type} {P : RegularExpression α} {as : List α} {w : List α}

/-- A class of characters, `[abc]`. -/
def oneOf (as : List α) : RegularExpression α := (as.map char).foldr (· + ·) 0

/-- `P?`. -/
def zeroOrOne (P : RegularExpression α) : RegularExpression α := 1 + P

/-- `P+`. -/
def oneOrMore (P : RegularExpression α) : RegularExpression α := P * star P

/-- `\d`, the ASCII digits. -/
def digits : RegularExpression Char := oneOf "0123456789".toList

theorem mem_oneOf : w ∈ (oneOf as).matches' ↔ ∃ a ∈ as, w = [a] := by
  induction as with
  | nil => simp [oneOf, matches'_zero]
  | cons a as ih =>
    rw [oneOf, List.map_cons, List.foldr_cons, matches'_add, Language.mem_add, matches'_char]
    simp only [List.mem_cons, exists_eq_or_imp]
    exact or_congr Iff.rfl ih

theorem mem_zeroOrOne : w ∈ (zeroOrOne P).matches' ↔ w = [] ∨ w ∈ P.matches' := by
  rw [zeroOrOne, matches'_add, Language.mem_add, matches'_epsilon, Language.mem_one]

/-- One word of the expression, and any number of them behind it. -/
theorem mem_oneOrMore : w ∈ (oneOrMore P).matches' ↔
    ∃ (u : List α) (us : List (List α)),
      w = u ++ us.flatten ∧ u ∈ P.matches' ∧ ∀ v ∈ us, v ∈ P.matches' := by
  rw [oneOrMore, matches'_mul, Language.mem_mul]
  constructor
  · rintro ⟨u, hu, v, hv, rfl⟩
    obtain ⟨us, rfl, hus⟩ := Language.mem_kstar.1 hv
    exact ⟨u, us, rfl, hu, hus⟩
  · rintro ⟨u, us, rfl, hu, hus⟩
    exact ⟨u, hu, us.flatten, Language.mem_kstar.2 ⟨us, rfl, hus⟩, rfl⟩

theorem isDigit_iff_mem {c : Char} : c.isDigit = true ↔ c ∈ "0123456789".toList := by
  constructor
  · intro h
    obtain ⟨hlo, hhi⟩ := Char.isDigit_iff_toNat.1 h
    have hall : ∀ n < 58, 48 ≤ n → Char.ofNat n ∈ "0123456789".toList := by decide
    rw [← Char.ofNat_toNat c]
    exact hall _ (Nat.lt_succ_of_le hhi) hlo
  · intro h
    have hall : "0123456789".toList.all (·.isDigit) = true := by decide
    exact List.all_eq_true.1 hall c h

theorem mem_digits {w : List Char} :
    w ∈ digits.matches' ↔ ∃ c : Char, c.isDigit = true ∧ w = [c] := by
  rw [digits, mem_oneOf]
  exact exists_congr fun c => and_congr_left' isDigit_iff_mem.symm

end Java
