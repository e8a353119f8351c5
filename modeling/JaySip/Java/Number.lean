/-
  The text of an `int`, and what `Integer.parseInt` reads from it.
-/
import JaySip.Java.Text

namespace Java

/-- The ASCII digits are read by their value. -/
theorem digit_of_isDigit {c : Char} (h : c.isDigit = true) :
    digit c = some (c.toNat - '0'.toNat) := by
  obtain ⟨hlo, hhi⟩ := Char.isDigit_iff_toNat.1 h
  have hz : 0x30 ≤ c.toNat ∧ c.toNat < 0x30 + 10 := ⟨hlo, Nat.lt_succ_of_le hhi⟩
  rw [digit, decimalZeros, List.find?_cons_of_pos (by simpa using hz)]
  rfl

/-- Reading ASCII digits from the left, behind a number `m`. -/
theorem foldlM_digits {s : Str} (h : ∀ c ∈ s, c.isDigit = true) (m : ℕ) :
    s.foldlM (fun n c => (digit c).map (n * 10 + ·)) m = some (Nat.ofDigitChars 10 s m) := by
  induction s generalizing m with
  | nil => simp
  | cons c s ih =>
    rw [List.foldlM_cons, digit_of_isDigit (h c (by simp)), Option.map_some,
      Nat.ofDigitChars_cons, Nat.mul_comm 10 m]
    exact ih (fun d hd => h d (List.mem_cons_of_mem c hd)) _

theorem digitsValue_digits {s : Str} (h : ∀ c ∈ s, c.isDigit = true) (hne : s ≠ []) :
    digitsValue s = some (Nat.ofDigitChars 10 s 0) := by
  rw [digitsValue, if_neg hne, foldlM_digits h]

theorem isDigit_toDigits (n : ℕ) : ∀ c ∈ Nat.toDigits 10 n, c.isDigit = true :=
  fun _ hc => Nat.isDigit_of_mem_toDigits (by omega) (by omega) hc

theorem digitsValue_toDigits (n : ℕ) : digitsValue (Nat.toDigits 10 n) = some n := by
  rw [digitsValue_digits (isDigit_toDigits n) Nat.toDigits_ne_nil, Nat.ofDigitChars_ten_toDigits]

theorem signedValue_of_notMem {s : Str} (hm : '-' ∉ s) (hp : '+' ∉ s) :
    signedValue s = (digitsValue s).map fun n : ℕ => (n : ℤ) := by
  unfold signedValue
  split
  · exact absurd List.mem_cons_self hm
  · exact absurd List.mem_cons_self hp
  · cases digitsValue s <;> rfl

/-- A text of digits has no sign. -/
theorem signedValue_digits {s : Str} (h : ∀ c ∈ s, c.isDigit = true) :
    signedValue s = (digitsValue s).map fun n : ℕ => (n : ℤ) :=
  signedValue_of_notMem (fun hm => absurd (h '-' hm) (by decide))
    fun hp => absurd (h '+' hp) (by decide)

theorem signedValue_intText (n : ℤ) : signedValue (intText n) = some n := by
  cases n with
  | ofNat n =>
    change signedValue (Nat.toDigits 10 n) = _
    rw [signedValue_digits (isDigit_toDigits n), digitsValue_toDigits]
    rfl
  | negSucc n =>
    change (digitsValue (Nat.toDigits 10 (n + 1))).map (fun n => -(n : ℤ)) = _
    rw [digitsValue_toDigits]
    rfl

/-- `Integer.parseInt` reads an `int` back from its text. -/
theorem parseInt_intText {n : ℤ} (hlo : -2147483648 ≤ n) (hhi : n ≤ 2147483647) :
    parseInt (intText n) = .ok n := by
  simp only [parseInt, signedValue_intText]
  rw [if_pos ⟨hlo, hhi⟩]

/-- `Integer.parseInt` reads a run of ASCII digits. -/
theorem parseInt_digits {s : Str} (h : ∀ c ∈ s, c.isDigit = true) (hne : s ≠ [])
    (hhi : Nat.ofDigitChars 10 s 0 ≤ 2147483647) : parseInt s = .ok (Nat.ofDigitChars 10 s 0) := by
  have hv : signedValue s = some (Nat.ofDigitChars 10 s 0 : ℤ) := by
    rw [signedValue_digits h, digitsValue_digits h hne]
    rfl
  simp only [parseInt, hv]
  rw [if_pos (by omega)]

/-- Every character of a number that is read is a digit. -/
theorem digit_isSome_of_foldlM {s : Str} {m n : ℕ}
    (h : s.foldlM (fun n c => (digit c).map (n * 10 + ·)) m = some n) :
    ∀ c ∈ s, (digit c).isSome = true := by
  induction s generalizing m with
  | nil => simp
  | cons d s ih =>
    rw [List.foldlM_cons] at h
    cases hd : digit d with
    | none => simp [hd] at h
    | some k =>
      rw [hd, Option.map_some, Option.bind_eq_bind, Option.bind_some] at h
      intro c hc
      rcases List.mem_cons.1 hc with rfl | hc
      · rw [hd]
        rfl
      · exact ih h c hc

/-- What `Integer.parseInt` reads from a text without a sign whose digits are ASCII digits. -/
theorem parseInt_eq_ok {s : Str} {n : ℤ} (hm : '-' ∉ s) (hp : '+' ∉ s)
    (hd : ∀ c ∈ s, (digit c).isSome = true → c.isDigit = true) : parseInt s = .ok n ↔
      s ≠ [] ∧ (∀ c ∈ s, c.isDigit = true) ∧ n = Nat.ofDigitChars 10 s 0 ∧ n ≤ 2147483647 := by
  constructor
  · intro h
    simp only [parseInt, signedValue_of_notMem hm hp] at h
    cases hv : digitsValue s with
    | none => simp [hv] at h
    | some k =>
      simp only [hv, Option.map_some] at h
      split_ifs at h with hr
      · cases h
        rw [digitsValue] at hv
        split_ifs at hv with hne
        have hall : ∀ c ∈ s, c.isDigit = true := fun c hc =>
          hd c hc (digit_isSome_of_foldlM hv c hc)
        rw [foldlM_digits hall] at hv
        obtain rfl := Option.some.inj hv
        exact ⟨hne, hall, rfl, hr.2⟩
  · rintro ⟨hne, hall, rfl, hn⟩
    exact parseInt_digits hall hne (by omega)

/-- The text of a number has digits, and a minus sign. -/
theorem mem_intText {n : ℤ} {c : Char} (h : c ∈ intText n) : c.isDigit = true ∨ c = '-' := by
  cases n with
  | ofNat n => exact Or.inl (isDigit_toDigits n c h)
  | negSucc n =>
    rcases List.mem_cons.1 h with rfl | h
    · exact Or.inr rfl
    · exact Or.inl (isDigit_toDigits (n + 1) c h)

theorem intText_ne_nil (n : ℤ) : intText n ≠ [] := by
  cases n with
  | ofNat n => exact Nat.toDigits_ne_nil
  | negSucc n => exact List.cons_ne_nil _ _

end Java
