/-
  `SDPAnnounceParser` takes a message apart into its lines, and never ends on a blank one.
-/
import JaySip.Lines
import JaySip.Sdp.Announce

namespace JaySip.Sdp

open Java Lines

/-! ## Places -/

section
variable {s line rest : Str} {c d : Char} {start : ℕ}

theorem indexOfFrom_here (h : s.drop start = line ++ c :: rest) (hc : c ∉ line) :
    indexOfFrom s c start = start + line.length := by
  rw [indexOfFrom, h, if_pos (by simp), List.idxOf_append_of_notMem hc, List.idxOf_cons_self,
    Nat.add_zero]

theorem indexOfFrom_later (h : s.drop start = line ++ c :: rest) (hd : d ∉ line) (hne : d ≠ c)
    (hrest : d ∈ rest) :
    indexOfFrom s d start = start + line.length + 1 + rest.idxOf d := by
  rw [indexOfFrom, h, if_pos (List.mem_append_right _ (List.mem_cons_of_mem c hrest)),
    List.idxOf_append_of_notMem hd, List.idxOf_cons_ne _ hne.symm]
  push_cast
  omega

theorem take_line (sp : Splitting) (h : s.drop sp.start = line ++ rest) (next : ℤ) :
    sp.take s (sp.start + line.length : ℕ) next =
      ⟨next.toNat, some line, sp.sdpMessage ++ [some line]⟩ := by
  have htake : (s.take (sp.start + line.length)).drop sp.start = line := by
    rw [List.drop_take, h, Nat.add_sub_cancel_left, List.take_left' rfl]
  rw [Splitting.take, Int.toNat_natCast, htake]

end

/-! ## A turn -/

/-- What is left of a text that ends with an end of a line, behind a character that is none. -/
def Ready (rest : Str) : Prop :=
  rest = [] ∨ ∃ body last, 32 < last.toNat ∧ rest = body ++ [last, '\r', '\n']

theorem not_isEnd {c : Char} (h : 32 < c.toNat) : ¬IsEnd '\r' '\n' c := by
  rintro (rfl | rfl) <;> exact absurd h (by decide)

/-- What is left behind an end. -/
theorem ready_behind {pre rest body : Str} {last c : Char} (hlast : 32 < last.toNat)
    (hc : IsEnd '\r' '\n' c) (h : body ++ [last, '\r', '\n'] = pre ++ c :: rest) :
    (∃ body', rest = body' ++ [last, '\r', '\n']) ∨ (c = '\r' ∧ rest = ['\n']) ∨
      (c = '\n' ∧ rest = [] ∧ pre = body ++ [last, '\r']) := by
  have hrest : c :: rest <:+ body ++ [last, '\r', '\n'] := ⟨pre, h.symm⟩
  have hend : [last, '\r', '\n'] <:+ body ++ [last, '\r', '\n'] := ⟨body, rfl⟩
  have hlastc : c ≠ last := by
    rintro rfl
    exact not_isEnd hlast hc
  by_cases hlen : 3 ≤ (c :: rest).length
  · obtain ⟨body', hb⟩ := List.suffix_of_suffix_length_le hend hrest hlen
    cases body' with
    | nil => exact absurd (List.cons.inj hb).1.symm hlastc
    | cons x body' => exact Or.inl ⟨body', (List.cons.inj hb).2.symm⟩
  · have hsuffix : c :: rest <:+ [last, '\r', '\n'] :=
      List.suffix_of_suffix_length_le hrest hend (Nat.le_of_not_le hlen)
    rcases List.suffix_cons_iff.1 hsuffix with hr | hsuffix
    · exact absurd (List.cons.inj hr).1 hlastc
    · rcases List.suffix_cons_iff.1 hsuffix with hr | hsuffix
      · exact Or.inr (Or.inl (List.cons.inj hr))
      · rcases List.suffix_cons_iff.1 hsuffix with hr | hsuffix
        · obtain ⟨rfl, rfl⟩ := List.cons.inj hr
          refine Or.inr (Or.inr ⟨rfl, rfl, ?_⟩)
          exact List.append_cancel_right (by rw [← h, List.append_assoc]; rfl)
        · exact absurd (List.suffix_nil.1 hsuffix) (List.cons_ne_nil _ _)

section
variable {s body : Str} {last : Char} {sp : Splitting} {n k : ℕ}

/-- The line ends with `\r`, and with the `\n` right behind it. -/
theorem splitTurn_cr (hlt : sp.start < s.length) (hn : 0 < n)
    (hcr : indexOfFrom s '\r' sp.start = n) (hlf : indexOfFrom s '\n' sp.start = n + 1 + k) :
    splitTurn s sp = .inl (sp.take s n (if k = 0 then (n + 2 : ℕ) else (n + 1 : ℕ))) := by
  rw [splitTurn, if_pos hlt]
  simp only [hcr, hlf]
  rw [if_neg (by omega), if_neg (by omega), if_pos (by omega), if_pos (by omega)]
  by_cases hk : k = 0
  · have hnext : (n : ℤ) + 1 + k + 1 = (n + 2 : ℕ) := by omega
    rw [if_pos (by omega), if_pos hk, hnext]
  · rw [if_neg (by omega), if_neg hk]
    rfl

/-- The line ends with `\n`, and with the `\r` right behind it. -/
theorem splitTurn_lf (hlt : sp.start < s.length) (hn : 0 < n)
    (hlf : indexOfFrom s '\n' sp.start = n) (hcr : indexOfFrom s '\r' sp.start = n + 1 + k) :
    splitTurn s sp = .inl (sp.take s n (if k = 0 then (n + 2 : ℕ) else (n + 1 : ℕ))) := by
  rw [splitTurn, if_pos hlt]
  simp only [hcr, hlf]
  rw [if_neg (by omega), if_neg (by omega), if_pos (by omega), if_neg (by omega)]
  by_cases hk : k = 0
  · have hnext : (n : ℤ) + 1 + k + 1 = (n + 2 : ℕ) := by omega
    rw [if_pos (by omega), if_pos hk, hnext]
  · rw [if_neg (by omega), if_neg hk]
    rfl

/-- A turn of the constructor takes the next line. -/
theorem splitTurn_line (hlast : 32 < last.toNat)
    (hs : s.drop sp.start = body ++ [last, '\r', '\n'])
    (hstart : 0 < sp.start ∨ ∀ d, (s.drop sp.start).head? = some d → ¬IsEnd '\r' '\n' d) :
    ∃ line sp', splitTurn s sp = .inl sp' ∧ sp.start < sp'.start ∧
      sp'.sdpMessage = sp.sdpMessage ++ [some line] ∧ Ready (s.drop sp'.start) ∧
      ∀ lines, Split '\r' '\n' (s.drop sp'.start) lines →
        Split '\r' '\n' (s.drop sp.start) (line :: lines) := by
  have hlf : '\n' ∈ s.drop sp.start := by
    rw [hs]
    simp
  obtain ⟨line, c, rest, hline, hc, htext⟩ := exists_line (Or.inr rfl) hlf
  have hlt : sp.start < s.length := by
    by_contra hge
    rw [List.drop_eq_nil_of_le (not_lt.1 hge)] at hlf
    cases hlf
  have hpos : 0 < sp.start + line.length := by
    rcases hstart with hstart | hhead
    · omega
    · cases line with
      | nil => exact absurd hc (hhead c (by rw [htext]; rfl))
      | cons x line => exact Nat.lt_of_lt_of_le (Nat.succ_pos _) (Nat.le_add_left _ _)
  have hready := ready_behind hlast hc (hs.symm.trans htext)
  -- the other character that can end a line comes later
  obtain ⟨d, hd, hdc, hdrest, hmunch⟩ : ∃ d, IsEnd '\r' '\n' d ∧ d ≠ c ∧ d ∈ rest ∧
      splitTurn s sp = .inl (sp.take s (sp.start + line.length : ℕ)
        (if rest.idxOf d = 0 then (sp.start + line.length + 2 : ℕ)
          else (sp.start + line.length + 1 : ℕ))) := by
    rcases hc with rfl | rfl
    · have hmem : '\n' ∈ rest := by
        rcases hready with ⟨body', hr⟩ | ⟨-, hr⟩ | ⟨hcr, -⟩
        · rw [hr]
          simp
        · rw [hr]
          exact List.mem_singleton_self _
        · exact absurd hcr (by decide)
      refine ⟨'\n', Or.inr rfl, by decide, hmem, splitTurn_cr hlt hpos ?_ ?_⟩
      · exact_mod_cast indexOfFrom_here htext hline.left
      · exact_mod_cast indexOfFrom_later htext hline.right (by decide) hmem
    · have hmem : '\r' ∈ rest := by
        rcases hready with ⟨body', hr⟩ | ⟨hcr, -⟩ | ⟨-, -, hpre⟩
        · rw [hr]
          simp
        · exact absurd hcr (by decide)
        · exact absurd (hpre ▸ List.mem_append_right _ (by simp)) hline.left
      refine ⟨'\r', Or.inl rfl, by decide, hmem, splitTurn_lf hlt hpos ?_ ?_⟩
      · exact_mod_cast indexOfFrom_here htext hline.right
      · exact_mod_cast indexOfFrom_later htext hline.left (by decide) hmem
  have hdrop (n : ℕ) : s.drop (sp.start + line.length + n) = (c :: rest).drop n := by
    rw [← List.drop_drop, ← List.drop_drop, htext, List.drop_left' rfl]
  rw [hmunch]
  cases rest with
  | nil => cases hdrest
  | cons x rest =>
    by_cases hx : x = d
    · subst hx
      rw [if_pos List.idxOf_cons_self, take_line sp htext]
      refine ⟨line, _, rfl, by dsimp only; omega, rfl, ?_, ?_⟩
      · rw [Int.toNat_natCast, hdrop]
        have htwo : body ++ [last, '\r', '\n'] = (line ++ [c]) ++ x :: rest := by
          rw [← hs, htext, List.append_assoc]
          rfl
        rcases ready_behind hlast hd htwo with ⟨body', hr⟩ | ⟨rfl, rfl⟩ | ⟨-, rfl, -⟩
        · exact Or.inr ⟨body', last, hlast, hr⟩
        · rcases hready with ⟨body', hr⟩ | ⟨-, hr⟩ | ⟨-, hr, -⟩
          · exact absurd (congrArg List.length hr) (by simp)
          · exact absurd hr (by simp)
          · exact absurd hr (by simp)
        · exact Or.inl rfl
      · intro lines hlines
        rw [Int.toNat_natCast, hdrop] at hlines
        rw [htext]
        exact .both hline hc hd hdc hlines
    · rw [if_neg (by rw [List.idxOf_cons_ne _ hx]; exact Nat.succ_ne_zero _), take_line sp htext]
      refine ⟨line, _, rfl, by dsimp only; omega, rfl, ?_, ?_⟩
      · rw [Int.toNat_natCast, hdrop]
        rcases hready with ⟨body', hr⟩ | ⟨rfl, hr⟩ | ⟨-, hr, -⟩
        · exact Or.inr ⟨body', last, hlast, hr⟩
        · obtain rfl : x = '\n' := (List.cons.inj hr).1
          exact absurd (hd.resolve_left hdc).symm hx
        · cases hr
      · intro lines hlines
        rw [Int.toNat_natCast, hdrop] at hlines
        rw [htext]
        refine .one hline hc (fun e he => ?_) hlines
        obtain rfl : x = e := Option.some.inj he
        by_cases hxe : IsEnd '\r' '\n' x
        · left
          rcases hc with rfl | rfl <;> rcases hd with rfl | rfl <;> rcases hxe with rfl | rfl <;>
            first | rfl | exact absurd rfl hx | exact absurd rfl hdc
        · exact Or.inr hxe

end

/-! ## The loop -/

section
variable {message : Str}

/-- A message that is not blank begins and ends with something visible. -/
theorem trim_eq (h : trim message ≠ []) :
    (∃ body last, 32 < last.toNat ∧ trim message = body ++ [last]) ∧
      ∀ c, (trim message).head? = some c → 32 < c.toNat := by
  constructor
  · refine ⟨(trim message).dropLast, (trim message).getLast h, ?_,
      (List.dropLast_append_getLast h).symm⟩
    have hlast := List.rdropWhile_last_not _ _ h
    rw [decide_eq_true_eq, not_le] at hlast
    exact hlast
  · intro c hc
    have hprefix : trim message <+: message.dropWhile (·.toNat ≤ 32) := List.rdropWhile_prefix _ _
    obtain ⟨rest, hrest⟩ := hprefix
    have hne : message.dropWhile (·.toNat ≤ 32) ≠ [] := by
      rw [← hrest]
      exact List.append_ne_nil_of_left_ne_nil h rest
    have hhead := List.head_dropWhile_not (fun c : Char => decide (c.toNat ≤ 32)) hne
    have hc' : (message.dropWhile (·.toNat ≤ 32)).head? = some c := by
      rw [← hrest, List.head?_append, hc]
      rfl
    rw [List.head?_eq_some_head hne, Option.some.injEq] at hc'
    rw [hc'] at hhead
    simpa using hhead

/-- Before a turn: the lines so far, with those of the rest, are the lines of the message. -/
structure Taken (s : Str) (n : ℕ) (sp : Splitting) : Prop where
  left : s.length - sp.start ≤ n
  ready : Ready (s.drop sp.start)
  started : 0 < sp.start ∨ ∀ d, (s.drop sp.start).head? = some d → ¬IsEnd '\r' '\n' d
  lines : ∀ lines, Split '\r' '\n' (s.drop sp.start) lines →
    ∃ all : List Str, sp.sdpMessage ++ lines.map some = all.map some ∧ Split '\r' '\n' s all

theorem Taken.turn {s : Str} {n : ℕ} {sp : Splitting} (h : Taken s n sp) :
    (∃ m sp', n = m + 1 ∧ splitTurn s sp = .inl sp' ∧ Taken s m sp') ∨
      ∃ r, splitTurn s sp = .inr r ∧
        ∃ lines : List Str, r = lines.map some ∧ Split '\r' '\n' s lines := by
  rcases h.ready with hnil | ⟨body, last, hlast, hbody⟩
  · right
    refine ⟨sp.sdpMessage, ?_, ?_⟩
    · rw [splitTurn, if_neg (not_lt.2 (List.drop_eq_nil_iff.1 hnil))]
    · obtain ⟨all, hall, hsplit⟩ := h.lines [] (hnil ▸ .nil)
      rw [List.map_nil, List.append_nil] at hall
      exact ⟨all, hall, hsplit⟩
  · left
    obtain ⟨line, sp', hturn, hlt, hmessage, hready, hsplit⟩ :=
      splitTurn_line hlast hbody h.started
    have hlen := congrArg List.length hbody
    rw [List.length_drop, List.length_append] at hlen
    have hleft := h.left
    obtain ⟨m, rfl⟩ : ∃ m, n = m + 1 := Nat.exists_eq_succ_of_ne_zero (by simp at hlen; omega)
    refine ⟨m, sp', rfl, hturn, by omega, hready, Or.inl (by omega), fun lines hl => ?_⟩
    obtain ⟨all, hall, hs⟩ := h.lines (line :: lines) (hsplit lines hl)
    refine ⟨all, ?_, hs⟩
    rw [hmessage, ← hall, List.append_assoc]
    rfl

/-- A message that is not blank is taken apart into its lines. -/
theorem exists_split (h : trim message ≠ []) :
    ∃ lines, Split '\r' '\n' (trim message ++ ['\r', '\n']) lines ∧
      ∃ turns, SDPAnnounceParser message turns = some (lines.map some) := by
  obtain ⟨⟨body, last, hlast, htrim⟩, hhead⟩ := trim_eq h
  have hend : trim message ++ ['\r', '\n'] = body ++ [last, '\r', '\n'] := by
    rw [htrim, List.append_assoc]
    rfl
  have hfirst : ∀ d, (trim message ++ ['\r', '\n']).head? = some d → ¬IsEnd '\r' '\n' d := by
    intro d hd
    rw [List.head?_append_of_ne_nil _ h] at hd
    exact not_isEnd (hhead d hd)
  have htaken : Taken (trim message ++ ['\r', '\n']) (trim message ++ ['\r', '\n']).length
      ⟨0, none, []⟩ :=
    ⟨Nat.le_refl _, Or.inr ⟨body, last, hlast, hend⟩, Or.inr hfirst,
      fun lines hl => ⟨lines, rfl, hl⟩⟩
  obtain ⟨r, hr, lines, rfl, hsplit⟩ := Iteration.run_countdown (fun _ _ h => Taken.turn h) htaken
  exact ⟨lines, hsplit, _, hr⟩

/-- On a blank message the constructor collects lines that are `null`. -/
theorem split_blank (n : ℕ) (sdpMessage : List (Option Str)) :
    Iteration.run (splitTurn ['\r', '\n']) n ⟨0, none, sdpMessage⟩ = none := by
  induction n generalizing sdpMessage with
  | zero => rfl
  | succ n ih =>
    have hturn : splitTurn ['\r', '\n'] ⟨0, none, sdpMessage⟩ =
        .inl ⟨0, none, sdpMessage ++ [none]⟩ := rfl
    rw [Iteration.run_inl hturn]
    exact ih _

end

/-- **Lines.**  The constructor runs forever exactly on blank messages.  Of any other message it
    makes its lines, whichever way each of them ends. -/
theorem SDPAnnounceParser_lines (message : Str) :
    ((∀ turns, SDPAnnounceParser message turns = none) ↔ trim message = []) ∧
      ∀ sdpMessage, (∃ turns, SDPAnnounceParser message turns = some sdpMessage) ↔
        trim message ≠ [] ∧ ∃ lines : List Str, sdpMessage = lines.map some ∧
          Split '\r' '\n' (trim message ++ ['\r', '\n']) lines := by
  have hblank (h : trim message = []) (turns : ℕ) : SDPAnnounceParser message turns = none := by
    rw [SDPAnnounceParser, h]
    exact split_blank turns []
  constructor
  · constructor
    · intro hnone
      by_contra hne
      obtain ⟨lines, -, turns, hlines⟩ := exists_split hne
      rw [hnone] at hlines
      cases hlines
    · exact hblank
  · intro sdpMessage
    constructor
    · rintro ⟨turns, hturns⟩
      have hne : trim message ≠ [] := by
        intro h
        rw [hblank h] at hturns
        cases hturns
      obtain ⟨lines, hsplit, turns', hlines⟩ := exists_split hne
      exact ⟨hne, lines, Iteration.run_unique hturns hlines, hsplit⟩
    · rintro ⟨hne, lines, rfl, hsplit⟩
      obtain ⟨lines', hsplit', turns, hlines⟩ := exists_split hne
      rw [hsplit.unique hsplit']
      exact ⟨turns, hlines⟩

end JaySip.Sdp
