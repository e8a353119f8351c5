/-
  Texts and their lines, where a line ends with one of two characters or with both.
-/
import JaySip.Blocks

namespace Lines

variable {α : Type} {a b : α}

/-- A line without an end in it. -/
structure Line (a b : α) (line : List α) : Prop where
  left : a ∉ line
  right : b ∉ line

/-- The characters that can end a line. -/
def IsEnd (a b c : α) : Prop := c = a ∨ c = b

/-- The lines of a text.  Two characters that can be one end are one end. -/
inductive Split (a b : α) : List α → List (List α) → Prop
  | nil : Split a b [] []
  | one {line rest : List α} {c : α} {lines : List (List α)} (hline : Line a b line)
      (hc : IsEnd a b c) (hrest : ∀ d, rest.head? = some d → d = c ∨ ¬IsEnd a b d)
      (h : Split a b rest lines) : Split a b (line ++ c :: rest) (line :: lines)
  | both {line rest : List α} {c d : α} {lines : List (List α)} (hline : Line a b line)
      (hc : IsEnd a b c) (hd : IsEnd a b d) (hne : d ≠ c) (h : Split a b rest lines) :
      Split a b (line ++ c :: d :: rest) (line :: lines)

/-- A text up to its first end. -/
theorem exists_line {c : α} {text : List α} (hc : IsEnd a b c) (h : c ∈ text) :
    ∃ line d rest, Line a b line ∧ IsEnd a b d ∧ text = line ++ d :: rest := by
  induction text with
  | nil => cases h
  | cons x text ih =>
    by_cases hx : IsEnd a b x
    · exact ⟨[], x, text, ⟨List.not_mem_nil, List.not_mem_nil⟩, hx, rfl⟩
    · have hne : c ≠ x := by
        rintro rfl
        exact hx hc
      obtain ⟨line, d, rest, hline, hd, rfl⟩ := ih (List.mem_of_ne_of_mem hne h)
      refine ⟨x :: line, d, rest, ⟨?_, ?_⟩, hd, rfl⟩
      · rw [List.mem_cons, not_or]
        exact ⟨fun h => hx (Or.inl h.symm), hline.left⟩
      · rw [List.mem_cons, not_or]
        exact ⟨fun h => hx (Or.inr h.symm), hline.right⟩

/-- There is one first end. -/
theorem line_unique {line line' rest rest' : List α} {c c' : α} (hline : Line a b line)
    (hline' : Line a b line') (hc : IsEnd a b c) (hc' : IsEnd a b c')
    (h : line ++ c :: rest = line' ++ c' :: rest') : line = line' ∧ c = c' ∧ rest = rest' := by
  have hnot {l : List α} (hl : Line a b l) : ∀ x ∈ l, ¬IsEnd a b x := by
    rintro x hx (rfl | rfl)
    · exact hl.left hx
    · exact hl.right hx
  exact Blocks.first_unique (hnot hline) (hnot hline') hc hc' h

/-- A text has its lines in one way only. -/
theorem Split.unique {text : List α} {lines lines' : List (List α)} (h : Split a b text lines)
    (h' : Split a b text lines') : lines = lines' := by
  induction h generalizing lines' with
  | nil =>
    generalize htext : ([] : List α) = text at h'
    cases h' with
    | nil => rfl
    | one => exact absurd htext.symm (by simp)
    | both => exact absurd htext.symm (by simp)
  | @one line rest c lines hline hc hrest h ih =>
    generalize htext : line ++ c :: rest = text at h'
    cases h' with
    | nil => exact absurd htext (by simp)
    | one hline' hc' hrest' h' =>
      obtain ⟨rfl, rfl, rfl⟩ := line_unique hline hline' hc hc' htext
      rw [ih h']
    | both hline' hc' hd' hne' h' =>
      obtain ⟨rfl, rfl, rfl⟩ := line_unique hline hline' hc hc' htext
      rcases hrest _ rfl with heq | hnot
      · exact absurd heq hne'
      · exact absurd hd' hnot
  | @both line rest c d lines hline hc hd hne h ih =>
    generalize htext : line ++ c :: d :: rest = text at h'
    cases h' with
    | nil => exact absurd htext (by simp)
    | one hline' hc' hrest' h' =>
      obtain ⟨rfl, rfl, rfl⟩ := line_unique hline hline' hc hc' htext
      rcases hrest' _ rfl with heq | hnot
      · exact absurd heq hne
      · exact absurd hd hnot
    | both hline' hc' hd' hne' h' =>
      obtain ⟨rfl, rfl, hrest⟩ := line_unique hline hline' hc hc' htext
      obtain ⟨-, rfl⟩ := List.cons.inj hrest
      rw [ih h']

/-- Lines that all end with both characters. -/
theorem split_flatMap (hne : b ≠ a) {lines : List (List α)} (h : ∀ line ∈ lines, Line a b line) :
    Split a b (lines.flatMap (· ++ [a, b])) lines := by
  induction lines with
  | nil => exact .nil
  | cons line lines ih =>
    obtain ⟨hline, hlines⟩ := List.forall_mem_cons.1 h
    rw [List.flatMap_cons, List.append_assoc]
    exact .both hline (Or.inl rfl) (Or.inr rfl) hne (ih hlines)

end Lines
