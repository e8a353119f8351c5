/-
  What the response of an authorization digest binds: the nonce and both inner hashes.
-/
import JaySip.Sip.Profile
import Mathlib.Data.List.Basic

namespace JaySip

open Java

namespace AuthorizationDigest

/-- The two characters of a byte. -/
def hexByte (x : UInt8) : Str := (Nat.toDigits 16 (x.toNat + 0x100)).drop 1

/-! ## Hexadecimal text -/

/-- The text of a byte, over the digits of its number. -/
theorem hexByte_eq (x : UInt8) :
    hexByte x = [(x.toNat / 16).digitChar, (x.toNat % 16).digitChar] := by
  have hx := x.toNat_lt
  have h1 : (x.toNat + 0x100) / 16 / 16 = 1 := by omega
  have h2 : (x.toNat + 0x100) / 16 % 16 = x.toNat / 16 := by omega
  have h3 : (x.toNat + 0x100) % 16 = x.toNat % 16 := by omega
  rw [hexByte, Nat.toDigits_of_base_le (by omega) (by omega),
    Nat.toDigits_of_base_le (by omega) (by omega), h1, h2, h3]
  rfl

theorem digitChar_injOn {m n : ℕ} (hm : m < 16) (hn : n < 16) (h : m.digitChar = n.digitChar) :
    m = n := by
  have key : ∀ m < 16, ∀ n < 16, Nat.digitChar m = Nat.digitChar n → m = n := by decide
  exact key m hm n hn h

theorem hexByte_injective {x y : UInt8} (h : hexByte x = hexByte y) : x = y := by
  rw [hexByte_eq, hexByte_eq] at h
  have hx := x.toNat_lt
  have hy := y.toNat_lt
  obtain ⟨hhi, hlo⟩ := List.cons_eq_cons.1 h
  have h₁ : x.toNat / 16 = y.toNat / 16 := digitChar_injOn (by omega) (by omega) hhi
  have h₂ : x.toNat % 16 = y.toNat % 16 :=
    digitChar_injOn (by omega) (by omega) (List.cons_eq_cons.1 hlo).1
  exact UInt8.toNat_inj.1 (by omega)

theorem getHexString_cons (x : UInt8) (b : List UInt8) :
    getHexString (x :: b) = hexByte x ++ getHexString b := rfl

/-- Two characters for each byte. -/
theorem length_getHexString (b : List UInt8) : (getHexString b).length = 2 * b.length := by
  induction b with
  | nil => rfl
  | cons x b ih =>
    rw [getHexString_cons, List.length_append, ih, hexByte_eq]
    simp only [List.length_cons, List.length_nil]
    omega

/-- The text tells all bytes, those below 16 and those above 127 too. -/
theorem getHexString_injective {a b : List UInt8} (h : getHexString a = getHexString b) :
    a = b := by
  induction a generalizing b with
  | nil =>
    have hl := congrArg List.length h
    rw [length_getHexString, length_getHexString, List.length_nil] at hl
    exact (List.length_eq_zero_iff.1 (by omega)).symm
  | cons x a ih =>
    cases b with
    | nil =>
      have hl := congrArg List.length h
      rw [length_getHexString, length_getHexString] at hl
      simp at hl
    | cons y b =>
      rw [getHexString_cons, getHexString_cons] at h
      have hlen : (hexByte x).length = (hexByte y).length := by rw [hexByte_eq, hexByte_eq]; rfl
      obtain ⟨hx, hb⟩ := List.append_inj h hlen
      rw [hexByte_injective hx, ih hb]

/-! ## The text of the last hash -/

section
variable {H : Digest} {user realm password method uri nonce : Str}
  {user' realm' password' method' uri' nonce' : Str}

/-- A text between two others of fixed lengths. -/
theorem append_colon_inj {a b m a' b' m' : Str} (ha : a.length = a'.length)
    (hb : b.length = b'.length)
    (h : a ++ ":".toList ++ m ++ ":".toList ++ b = a' ++ ":".toList ++ m' ++ ":".toList ++ b') :
    a = a' ∧ m = m' ∧ b = b' := by
  obtain ⟨h₁, hb'⟩ := List.append_inj' h hb
  have h₂ : a ++ ":".toList ++ m = a' ++ ":".toList ++ m' := List.append_cancel_right h₁
  rw [List.append_assoc, List.append_assoc] at h₂
  obtain ⟨ha', h₃⟩ := List.append_inj h₂ ha
  exact ⟨ha', List.append_cancel_left h₃, hb'⟩

/-- **Digest binding.**  Equal texts of the last hash have equal nonces, equal hashes of user,
    realm and password, and equal hashes of method and URI. -/
theorem digest3_binds (hH : ∀ b, (H b).length = 16)
    (h : digest3 H user realm password method uri nonce =
      digest3 H user' realm' password' method' uri' nonce') :
    nonce = nonce' ∧
      H (getBytes (user ++ ":".toList ++ realm ++ ":".toList ++ password)) =
        H (getBytes (user' ++ ":".toList ++ realm' ++ ":".toList ++ password')) ∧
      H (getBytes (method ++ ":".toList ++ uri)) =
        H (getBytes (method' ++ ":".toList ++ uri')) := by
  have hlen : ∀ b b', (getHexString (H b)).length = (getHexString (H b')).length := by
    intro b b'
    rw [length_getHexString, length_getHexString, hH, hH]
  obtain ⟨h₁, hn, h₂⟩ := append_colon_inj (hlen _ _) (hlen _ _) h
  exact ⟨hn, getHexString_injective h₁, getHexString_injective h₂⟩

/-- A hash that is the same for all texts. -/
def constantHash : Digest := fun _ => List.replicate 16 0x0f

/-- Two users with one nonce, under a hash that does not tell them apart. -/
theorem digest3_binds_constant :
    "n:1".toList = "n:1".toList ∧
      constantHash (getBytes ("alice".toList ++ ":".toList ++ "r".toList ++ ":".toList ++
        "p".toList)) = constantHash (getBytes ("bob".toList ++ ":".toList ++ "r".toList ++
        ":".toList ++ "q".toList)) ∧
      constantHash (getBytes ("INVITE".toList ++ ":".toList ++ "sip:d".toList)) =
        constantHash (getBytes ("REGISTER".toList ++ ":".toList ++ "sip:e".toList)) :=
  digest3_binds (fun _ => rfl) (by simp only [digest3, constantHash])

end

end AuthorizationDigest

end JaySip
