/-
  Java strings and the `java.lang` operations on them: `split`, `indexOf`,
  `substring`, `contains`, `replace`, `Integer.parseInt`.

  A string is the list of its characters.  An operation that throws in Java
  returns the exception.
-/
import Mathlib.Data.List.DropRight
import Mathlib.Data.List.Infix

namespace Java

/-- A Java string. -/
abbrev Str := List Char

/-- The exceptions that the modelled programs can meet. -/
inductive JException where
  | nullPointer | indexOutOfBounds | numberFormat | parse | sip | invalidArgument | sdp
  | unknownHost
  deriving DecidableEq, Repr

/-- Dereferencing a reference that may be `null`. -/
def nonNull {α : Type} : Option α → Except JException α
  | some a => .ok a
  | none => .error .nullPointer

@[simp] theorem nonNull_some {α : Type} (a : α) : nonNull (some a) = .ok a := rfl

@[simp] theorem nonNull_none {α : Type} : nonNull (none : Option α) = .error .nullPointer := rfl

theorem nonNull_eq_ok {α : Type} {x : Option α} {a : α} : nonNull x = .ok a ↔ x = some a := by
  cases x <;> simp

theorem eq_none_of_nonNull {α : Type} {x : Option α} {e : JException} (h : nonNull x = .error e) :
    x = none := by
  cases x with
  | none => rfl
  | some a => simp at h

/-- `xs[i]` of an array. -/
def arrayGet {α : Type} (xs : List α) (i : ℤ) : Except JException α :=
  if i < 0 then .error .indexOutOfBounds
  else match xs[i.toNat]? with
    | some a => .ok a
    | none => .error .indexOutOfBounds

/-- `s.split("c")` for a single character that is no regular-expression
    operator: trailing empty parts are dropped, and a string without `c` is
    its own only part. -/
def split (s : Str) (c : Char) : List Str :=
  if c ∈ s then (s.splitOn c).rdropWhile (·.isEmpty) else [s]

/-- `s.indexOf('c')`. -/
def indexOf (s : Str) (c : Char) : ℤ := if c ∈ s then s.idxOf c else -1

/-- `s.substring(b, e)`. -/
def substring (s : Str) (b e : ℤ) : Except JException Str :=
  if 0 ≤ b ∧ b ≤ e ∧ e ≤ s.length then .ok ((s.take e.toNat).drop b.toNat)
  else .error .indexOutOfBounds

/-- `s.contains(t)`. -/
def contains (s t : Str) : Bool := decide (t <:+: s)

/-- `s.replace(t, u)` with the characters of the match still to be skipped. -/
def replaceFrom (t u : Str) : ℕ → Str → Str
  | _, [] => []
  | n + 1, _ :: s => replaceFrom t u n s
  | 0, c :: s =>
    if t.isPrefixOf (c :: s) then u ++ replaceFrom t u (t.length - 1) s
    else c :: replaceFrom t u 0 s

/-- `s.replace(t, u)` for a non-empty `t`: every match, left to right, without
    overlaps. -/
def replace (s t u : Str) : Str := replaceFrom t u 0 s

/-- The zero digits of Unicode's decimal digit runs in the basic plane, the
    ones `Character.digit` accepts. -/
def decimalZeros : List ℕ :=
  [0x0030, 0x0660, 0x06F0, 0x07C0, 0x0966, 0x09E6, 0x0A66, 0x0AE6, 0x0B66, 0x0BE6, 0x0C66, 0x0CE6,
    0x0D66, 0x0DE6, 0x0E50, 0x0ED0, 0x0F20, 0x1040, 0x1090, 0x17E0, 0x1810, 0x1946, 0x19D0, 0x1A80,
    0x1A90, 0x1B50, 0x1BB0, 0x1C40, 0x1C50, 0xA620, 0xA8D0, 0xA900, 0xA9D0, 0xA9F0, 0xAA50, 0xABF0,
    0xFF10]

/-- `Character.digit(c, 10)`. -/
def digit (c : Char) : Option ℕ :=
  (decimalZeros.find? fun z => z ≤ c.toNat ∧ c.toNat < z + 10).map (c.toNat - ·)

/-- The number written by a non-empty run of digits. -/
def digitsValue (s : Str) : Option ℕ :=
  if s = [] then none else s.foldlM (fun n c => (digit c).map (n * 10 + ·)) 0

/-- An optional sign in front of digits. -/
def signedValue : Str → Option ℤ
  | '-' :: s => (digitsValue s).map fun n => -(n : ℤ)
  | '+' :: s => (digitsValue s).map (↑·)
  | s => (digitsValue s).map (↑·)

/-- `Integer.parseInt(s)`: a signed decimal number in the range of `int`. -/
def parseInt (s : Str) : Except JException ℤ :=
  match signedValue s with
  | some n => if -2147483648 ≤ n ∧ n ≤ 2147483647 then .ok n else .error .numberFormat
  | none => .error .numberFormat

/-- `n + ""`. -/
def intText : ℤ → Str
  | .ofNat n => Nat.toDigits 10 n
  | .negSucc n => '-' :: Nat.toDigits 10 (n + 1)

example : split "a@b@@".toList '@' = ["a".toList, "b".toList] := by decide
example : split "@".toList '@' = [] := by decide
example : replace "sip:a".toList "sip:".toList [] = "a".toList := by decide
example : parseInt "-8".toList = .ok (-8) := by decide

end Java
