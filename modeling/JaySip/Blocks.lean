/-
  Lists of which some elements open a block, and lists where an element can replace the last one.
-/
import Mathlib.Data.List.Basic
import Mathlib.Data.List.Induction
import Mathlib.Data.List.ModifyLast

namespace Blocks

variable {α β : Type}

/-! ## Blocks -/

/-- There is one first element with a property. -/
theorem first_unique {p : α → Prop} {pre pre' rest rest' : List α} {a a' : α}
    (hpre : ∀ x ∈ pre, ¬p x) (hpre' : ∀ x ∈ pre', ¬p x) (ha : p a) (ha' : p a')
    (h : pre ++ a :: rest = pre' ++ a' :: rest') : pre = pre' ∧ a = a' ∧ rest = rest' := by
  classical
  have hcut {l r : List α} {x : α} (hl : ∀ y ∈ l, ¬p y) (hx : p x) :
      (l ++ x :: r).takeWhile (fun y => decide (¬p y)) = l := by
    rw [List.takeWhile_append_of_pos (by simpa using hl),
      List.takeWhile_cons_of_neg (by simpa using hx), List.append_nil]
  have heq : pre = pre' := by
    rw [← hcut (r := rest) hpre ha, h, hcut hpre' ha']
  subst heq
  exact ⟨rfl, List.cons.inj (List.append_cancel_left h)⟩

section
variable (head : β → α) (tail : β → List α)

/-- The blocks, one behind the other. -/
def join (l : List β) : List α := l.flatMap fun b => head b :: tail b

@[simp] theorem join_nil : join head tail [] = [] := rfl

@[simp] theorem join_cons (b : β) (l : List β) :
    join head tail (b :: l) = head b :: (tail b ++ join head tail l) := rfl

theorem join_append (l l' : List β) :
    join head tail (l ++ l') = join head tail l ++ join head tail l' := List.flatMap_append

variable {head tail}

theorem join_ne_nil {l : List β} (h : l ≠ []) : join head tail l ≠ [] := by
  cases l with
  | nil => exact absurd rfl h
  | cons b l => exact List.cons_ne_nil _ _

/-- What changes in the last block. -/
theorem join_modifyLast {change : β → β} {l : List β} (h : l ≠ []) :
    ∃ pre b, l = pre ++ [b] ∧
      join head tail (l.modifyLast change) =
        join head tail pre ++ head (change b) :: tail (change b) := by
  refine ⟨l.dropLast, l.getLast h, (List.dropLast_append_getLast h).symm, ?_⟩
  conv_lhs => rw [← List.dropLast_append_getLast h]
  rw [List.modifyLast_concat, join_append, join_cons, join_nil, List.append_nil]

/-- A change that is not seen. -/
theorem join_modifyLast_of_eq {change : β → β} (l : List β)
    (h : ∀ b, head (change b) = head b ∧ tail (change b) = tail b) :
    join head tail (l.modifyLast change) = join head tail l := by
  by_cases hl : l = []
  · subst hl
    rfl
  · obtain ⟨pre, b, rfl, hjoin⟩ := @join_modifyLast _ _ head tail change l hl
    rw [hjoin, (h b).1, (h b).2, join_append, join_cons, join_nil, List.append_nil]

theorem filter_join_of_pos {q : α → Bool} (h : ∀ b, q (head b) = true) (l : List β) :
    (join head tail l).filter q = join head (fun b => (tail b).filter q) l := by
  induction l with
  | nil => rfl
  | cons b l ih => rw [join_cons, List.filter_cons_of_pos (h b), List.filter_append, ih, join_cons]

theorem filter_join_of_neg {q : α → Bool} (h : ∀ b, q (head b) = false)
    (htail : ∀ b, (tail b).filter q = []) (l : List β) : (join head tail l).filter q = [] := by
  induction l with
  | nil => rfl
  | cons b l ih =>
    rw [join_cons, List.filter_cons_of_neg (by rw [h]; exact Bool.false_ne_true),
      List.filter_append, ih, htail, List.append_nil]

variable {p : α → Prop}

/-- Where the blocks begin is seen from the elements. -/
theorem join_inj (hhead : ∀ b, p (head b)) (htail : ∀ b, ∀ a ∈ tail b, ¬p a)
    {pre pre' : List α} (hpre : ∀ a ∈ pre, ¬p a) (hpre' : ∀ a ∈ pre', ¬p a) {l l' : List β}
    (h : pre ++ join head tail l = pre' ++ join head tail l') :
    pre = pre' ∧ l.map (fun b => (head b, tail b)) = l'.map fun b => (head b, tail b) := by
  induction l generalizing pre pre' l' with
  | nil =>
    cases l' with
    | nil => exact ⟨by simpa using h, rfl⟩
    | cons b l' =>
      have hmem : head b ∈ pre ++ join head tail [] := by
        rw [h]
        simp
      rw [join_nil, List.append_nil] at hmem
      exact absurd (hhead b) (hpre _ hmem)
  | cons c l ih =>
    cases l' with
    | nil =>
      have hmem : head c ∈ pre' ++ join head tail [] := by
        rw [← h]
        simp
      rw [join_nil, List.append_nil] at hmem
      exact absurd (hhead c) (hpre' _ hmem)
    | cons b l' =>
      obtain ⟨rfl, hbc, hrest⟩ := first_unique hpre hpre' (hhead c) (hhead b) h
      obtain ⟨htails, hblocks⟩ := ih (htail c) (htail b) hrest
      refine ⟨rfl, ?_⟩
      rw [List.map_cons, List.map_cons, hbc, htails, hblocks]

end

/-- Elements that several views tell apart. -/
theorem eq_of_map {ι γ : Type} [Nonempty ι] {view : ι → β → γ}
    (hview : ∀ b b', (∀ i, view i b = view i b') → b = b') {l l' : List β}
    (h : ∀ i, l.map (view i) = l'.map (view i)) : l = l' := by
  obtain ⟨i⟩ := ‹Nonempty ι›
  induction l generalizing l' with
  | nil =>
    cases l' with
    | nil => rfl
    | cons b l' => exact absurd (h i) (by simp)
  | cons b l ih =>
    cases l' with
    | nil => exact absurd (h i) (by simp)
    | cons b' l' =>
      rw [hview b b' fun i => (List.cons.inj (h i)).1, ih fun i => (List.cons.inj (h i)).2]

/-! ## Replacing the last one -/

section
variable {p : α → Bool} {l l' : List α} {a b : α}

/-- An element replaces the one before it if `p` holds of both. -/
def put (p : α → Bool) (l : List α) (a : α) : List α :=
  if p a && l.getLast?.any p then l.dropLast ++ [a] else l ++ [a]

/-- A list after all replacements. -/
def settle (p : α → Bool) (l : List α) : List α := l.foldl (put p) []

theorem put_of_false (h : p a = false) : put p l a = l ++ [a] := by
  rw [put, h, Bool.false_and, if_neg Bool.false_ne_true]

@[simp] theorem put_nil : put p [] a = [a] := by
  rw [put, List.getLast?_nil, Option.any_none, Bool.and_false, if_neg Bool.false_ne_true,
    List.nil_append]

theorem put_concat (ha : p a = true) (hb : p b = true) : put p (l ++ [b]) a = l ++ [a] := by
  rw [put, List.getLast?_concat, Option.any_some, ha, hb, Bool.and_self, if_pos rfl,
    List.dropLast_concat]

theorem put_concat_of_false (hb : p b = false) : put p (l ++ [b]) a = l ++ [b] ++ [a] := by
  rw [put, List.getLast?_concat, Option.any_some, hb, Bool.and_false, if_neg Bool.false_ne_true]

theorem put_append (h : l' ≠ []) : put p (l ++ l') a = l ++ put p l' a := by
  rw [put, put, List.getLast?_append_of_ne_nil _ h, List.dropLast_append_of_ne_nil h]
  split
  · rw [List.append_assoc]
  · rw [List.append_assoc]

theorem settle_concat : settle p (l ++ [a]) = put p (settle p l) a := by
  rw [settle, List.foldl_concat, settle]

theorem settle_of_false (h : ∀ b ∈ l, p b = false) : settle p l = l := by
  induction l using List.reverseRecOn with
  | nil => rfl
  | append_singleton l b ih =>
    rw [settle_concat, ih fun c hc => h c (List.mem_append_left _ hc),
      put_of_false (h b (List.mem_append_right _ (List.mem_singleton_self b)))]

theorem settle_of_length (h : l.length ≤ 1) : settle p l = l := by
  rcases l with _ | ⟨b, rest⟩
  · rfl
  · rw [List.length_cons] at h
    rw [List.length_eq_zero_iff.1 (show rest.length = 0 by omega)]
    exact put_nil

section
variable {head : β → α} {tail : β → List α} {bs : List β}

/-- An element of the last block. -/
theorem put_join {change : β → β} (hbs : bs ≠ [])
    (h : ∀ b, head (change b) :: tail (change b) = put p (head b :: tail b) a) :
    l ++ join head tail (bs.modifyLast change) = put p (l ++ join head tail bs) a := by
  obtain ⟨pre, b, rfl, hjoin⟩ := @join_modifyLast _ _ head tail change bs hbs
  rw [hjoin, h, join_append, join_cons, join_nil, List.append_nil, ← List.append_assoc,
    ← List.append_assoc, put_append (List.cons_ne_nil _ _)]

/-- Blocks with one element at most that can be replaced. -/
theorem settle_join (hl : settle p l = l) (hhead : ∀ b, p (head b) = false)
    (htail : ∀ b, (tail b).length ≤ 1) :
    settle p (l ++ join head tail bs) = l ++ join head tail bs := by
  induction bs using List.reverseRecOn with
  | nil => rw [join_nil, List.append_nil, hl]
  | append_singleton bs b ih =>
    rw [join_append, join_cons, join_nil, List.append_nil, ← List.append_assoc]
    have hb : settle p (l ++ join head tail bs ++ [head b]) =
        l ++ join head tail bs ++ [head b] := by
      rw [settle_concat, ih, put_of_false (hhead b)]
    rcases htb : tail b with _ | ⟨t, rest⟩
    · exact hb
    · have hrest : rest = [] := by
        have hlen := htail b
        rw [htb, List.length_cons] at hlen
        exact List.length_eq_zero_iff.1 (by omega)
      rw [hrest, List.append_cons, settle_concat, hb, put_concat_of_false (hhead b)]

end

end

end Blocks
