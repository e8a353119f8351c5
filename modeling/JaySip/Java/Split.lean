/-
  The first two parts of `split`, and `replace` of a text by nothing.
-/
import JaySip.Java.Text

namespace Java

variable {s t : Str} {c : Char}

/-- The text in front of the first `c`, all of it if there is none. -/
def textBefore (s : Str) (c : Char) : Str := s.takeWhile (· ≠ c)

/-- The text behind the first `c`, empty if there is none. -/
def textAfter (s : Str) (c : Char) : Str := (s.dropWhile (· ≠ c)).drop 1

/-! ## Before and after -/

theorem notMem_textBefore (s : Str) (c : Char) : c ∉ textBefore s c := by
  intro h
  have := List.mem_takeWhile_imp h
  simp at this

theorem textBefore_of_notMem (h : c ∉ s) : textBefore s c = s := by
  refine List.takeWhile_eq_self_iff.2 fun x hx => decide_eq_true ?_
  rintro rfl
  exact h hx

theorem textAfter_of_notMem (h : c ∉ s) : textAfter s c = [] := by
  have : s.dropWhile (· ≠ c) = [] := by
    refine List.dropWhile_eq_nil_iff.2 fun x hx => decide_eq_true ?_
    rintro rfl
    exact h hx
  rw [textAfter, this, List.drop_nil]

theorem textBefore_append (h : c ∉ s) (t : Str) : textBefore (s ++ c :: t) c = s := by
  induction s with
  | nil => simp [textBefore]
  | cons x s ih =>
    rw [List.mem_cons, not_or] at h
    have hx : decide (x ≠ c) = true := decide_eq_true (Ne.symm h.1)
    rw [textBefore, List.cons_append, List.takeWhile_cons_of_pos (p := (· ≠ c)) hx]
    exact congrArg (x :: ·) (ih h.2)

theorem textAfter_append (h : c ∉ s) (t : Str) : textAfter (s ++ c :: t) c = t := by
  induction s with
  | nil => simp [textAfter]
  | cons x s ih =>
    rw [List.mem_cons, not_or] at h
    have hx : decide (x ≠ c) = true := decide_eq_true (Ne.symm h.1)
    rw [textAfter, List.cons_append, List.dropWhile_cons_of_pos (p := (· ≠ c)) hx]
    exact ih h.2

theorem exists_eq_textBefore_textAfter (h : c ∈ s) : s = textBefore s c ++ c :: textAfter s c := by
  obtain ⟨a, b, rfl, ha⟩ := List.eq_append_cons_of_mem h
  rw [textBefore_append ha, textAfter_append ha]

/-! ## Parts -/

/-- Dropping entries from the end keeps the ones in front of an entry that stays. -/
theorem getElem?_rdropWhile {α : Type} {p : α → Bool} (l : List α) (i : ℕ) :
    (l.rdropWhile p)[i]? = if (l.drop i).all p then none else l[i]? := by
  induction l using List.reverseRecOn with
  | nil => simp
  | append_singleton l a ih =>
    rw [List.drop_append, List.all_append]
    by_cases ha : p a = true
    · -- the dropped entry does not count
      have hlast : ([a].drop (i - l.length)).all p = true :=
        List.all_eq_true.2 fun x hx => by rwa [List.mem_singleton.1 (List.mem_of_mem_drop hx)]
      rw [List.rdropWhile_concat_pos _ _ _ ha, ih, hlast, Bool.and_true]
      by_cases hi : i < l.length
      · rw [List.getElem?_append_left hi]
      · rw [List.drop_eq_nil_of_le (by omega), List.all_nil, if_pos rfl, if_pos rfl]
    · rw [List.rdropWhile_concat_neg _ _ _ ha]
      by_cases hi : i ≤ l.length
      · have hlast : ([a].drop (i - l.length)).all p = false := by
          rw [Nat.sub_eq_zero_of_le hi, List.drop_zero, List.all_cons, Bool.eq_false_iff.2 ha]
          rfl
        rw [hlast, Bool.and_false, if_neg (by simp)]
      · rw [List.getElem?_eq_none (by simp; omega), ite_self]

theorem splitOn_of_mem (h : c ∈ s) : s.splitOn c = textBefore s c :: (textAfter s c).splitOn c := by
  conv_lhs => rw [exists_eq_textBefore_textAfter h]
  rw [List.splitOn_append_cons_self_of_not_mem (notMem_textBefore s c)]

/-- The parts of a run of `c` are empty, and those of no other text. -/
theorem all_isEmpty_splitOn (s : Str) (c : Char) :
    (s.splitOn c).all (·.isEmpty) = s.all (· == c) := by
  induction s with
  | nil => rfl
  | cons x s ih =>
    rw [List.splitOn_cons_eq_if_modifyHead, List.all_cons]
    by_cases hx : (x == c) = true
    · rw [if_pos hx, hx, Bool.true_and, ← ih]
      rfl
    · obtain ⟨p, ps, hps⟩ := List.exists_cons_of_ne_nil (List.splitOn_ne_nil c s)
      rw [if_neg hx, Bool.eq_false_iff.2 hx, hps]
      rfl

/-- A text with another character is no run of `c`. -/
theorem not_run {x : Char} (hx : x ∈ s) (hne : x ≠ c) : ¬ s.all (· == c) = true :=
  fun h => hne (eq_of_beq (List.all_eq_true.1 h x hx))

theorem getElem?_split (hs : c ∈ s) (i : ℕ) : (split s c)[i]? =
    if ((s.splitOn c).drop i).all (·.isEmpty) then none else (s.splitOn c)[i]? := by
  rw [split, if_pos hs, getElem?_rdropWhile]

/-- `s.split("c")[0]` is the text in front of the first `c`, unless `s` is a run of `c`. -/
theorem arrayGet_split_zero (s : Str) (c : Char) : arrayGet (split s c) 0 =
    if c ∈ s ∧ s.all (· == c) then .error .indexOutOfBounds else .ok (textBefore s c) := by
  by_cases hc : c ∈ s
  · rw [arrayGet, if_neg (by decide), Int.toNat_zero, getElem?_split hc, List.drop_zero,
      all_isEmpty_splitOn, splitOn_of_mem hc]
    by_cases hall : s.all (· == c) = true
    · rw [if_pos hall, if_pos ⟨hc, hall⟩]
    · rw [if_neg hall, if_neg fun h => hall h.2]
      rfl
  · rw [split, if_neg hc, if_neg fun h => hc h.1, textBefore_of_notMem hc]
    rfl

/-- `s.split("c")[1]` is the text between the first `c` and the next, if a character other
    than `c` follows. -/
theorem arrayGet_split_one (s : Str) (c : Char) : arrayGet (split s c) 1 =
    if (textAfter s c).all (· == c) then .error .indexOutOfBounds
    else .ok (textBefore (textAfter s c) c) := by
  by_cases hc : c ∈ s
  · rw [arrayGet, if_neg (by decide), Int.toNat_one, getElem?_split hc, splitOn_of_mem hc,
      List.drop_one, List.tail_cons, List.getElem?_cons_succ, all_isEmpty_splitOn]
    split_ifs with hall
    · rfl
    · by_cases ha : c ∈ textAfter s c
      · rw [splitOn_of_mem ha]
        rfl
      · rw [List.splitOn_eq_singleton ha, textBefore_of_notMem ha]
        rfl
  · rw [split, if_neg hc, textAfter_of_notMem hc, List.all_nil, if_pos rfl]
    rfl

/-! ## Replacing by nothing -/

/-- A match reaches over no character that the text lacks. -/
theorem infix_append_cons {a b : Str} (hc : c ∉ t) :
    t <:+: a ++ c :: b ↔ t <:+: a ∨ t <:+: b := by
  constructor
  · rintro ⟨u, v, h⟩
    rcases List.append_eq_append_iff.1 h with ⟨w, rfl, -⟩ | ⟨w, hw, hb⟩
    · exact Or.inl ⟨u, w, rfl⟩
    cases w with
    | nil => exact Or.inl ⟨u, [], by simpa using hw⟩
    | cons d w =>
      obtain ⟨rfl, rfl⟩ := List.cons_eq_cons.1 hb
      -- the match lies behind the `c`, or it would have it
      rcases List.append_eq_append_iff.1 hw with ⟨x, rfl, rfl⟩ | ⟨x, -, hx⟩
      · simp at hc
      · cases x with
        | nil =>
          rw [List.nil_append] at hx
          simp [← hx] at hc
        | cons d x =>
          obtain ⟨rfl, rfl⟩ := List.cons_eq_cons.1 hx
          exact Or.inr ⟨x, v, rfl⟩
  · rintro (h | h)
    · exact h.trans (List.prefix_append _ _).isInfix
    · exact h.trans ⟨a ++ [c], [], by simp⟩

theorem replaceFrom_skip (t u r s : Str) :
    replaceFrom t u r.length (r ++ s) = replaceFrom t u 0 s := by
  induction r with
  | nil => rfl
  | cons x r ih => exact ih

/-- A match at the front is replaced. -/
theorem replace_append (u : Str) (ht : t ≠ []) : replace (t ++ s) t u = u ++ replace s t u := by
  obtain ⟨x, t', rfl⟩ := List.exists_cons_of_ne_nil ht
  rw [replace, List.cons_append, replaceFrom, if_pos (by simp)]
  exact congrArg (u ++ ·) (replaceFrom_skip _ u t' s)

theorem replace_of_not_infix (u : Str) (h : ¬ t <:+: s) : replace s t u = s := by
  induction s with
  | nil => rfl
  | cons x s ih =>
    have hp : ¬ t.isPrefixOf (x :: s) = true := fun hp =>
      h (List.isPrefixOf_iff_prefix.1 hp).isInfix
    rw [replace, replaceFrom, if_neg hp]
    exact congrArg (x :: ·) (ih fun hi => h (hi.trans (List.suffix_cons x s).isInfix))

/-- Without a character: every occurrence of it goes. -/
theorem replace_singleton (s : Str) (c : Char) : replace s [c] [] = s.filter (· ≠ c) := by
  induction s with
  | nil => rfl
  | cons x s ih =>
    rw [replace, replaceFrom]
    by_cases hx : c = x
    · subst hx
      rw [if_pos (by simp), List.filter_cons_of_neg (by simp)]
      exact ih
    · rw [if_neg (by simpa using hx), List.filter_cons_of_pos (by simpa using Ne.symm hx)]
      exact congrArg (x :: ·) ih

end Java
