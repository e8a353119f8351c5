/-
  Reads that get less than a frame, with an encoder that is always idle: the encoder still gets
  whole frames.
-/
import JaySip.Proof.Laps

namespace JaySip

/-- The encoder gets the samples captured, in their order, each amplified once. -/
def Amplified (s : RecordLoop ℤ) : Prop :=
  s.put.flatMap (fun q => List.ofFn q.frame) = s.captured.flatten.map calc2

/-! ## Lengths -/

theorem LoopTurn.fails_iff {α : Type} {t : LoopTurn α} : t.fails = true ↔ (t.count : ℕ) = 0 := by
  rw [LoopTurn.fails, decide_eq_true_iff]
  omega

theorem LoopTurn.length_samples {α : Type} (t : LoopTurn α) : t.samples.length = t.count :=
  List.length_ofFn

/-- A read gets at most a frame. -/
theorem length_captured_le (ts : List (LoopTurn ℤ)) :
    ((ts.filter fun t => !t.fails).map (·.samples)).flatten.length ≤
      160 * ts.countP fun t => !t.fails := by
  induction ts with
  | nil => exact le_rfl
  | cons t ts ih =>
    have hn := t.count.isLt
    by_cases h : t.fails = true
    · rw [List.filter_cons_of_neg (by simpa using h), List.countP_cons_of_neg (by simpa using h)]
      exact ih
    · rw [List.filter_cons_of_pos (by simpa using h), List.countP_cons_of_pos (by simpa using h),
        List.map_cons, List.flatten_cons, List.length_append, t.length_samples]
      omega

/-- Only whole reads fill their frames. -/
theorem whole_of_length_captured {ts : List (LoopTurn ℤ)}
    (h : ((ts.filter fun t => !t.fails).map (·.samples)).flatten.length =
      160 * ts.countP fun t => !t.fails) : ∀ t ∈ ts, t.Whole := by
  induction ts with
  | nil =>
    intro t ht
    cases ht
  | cons t ts ih =>
    have hn := t.count.isLt
    have hle := length_captured_le ts
    intro t' ht'
    by_cases hf : t.fails = true
    · rw [List.filter_cons_of_neg (by simpa using hf),
        List.countP_cons_of_neg (by simpa using hf)] at h
      rcases List.mem_cons.1 ht' with rfl | ht'
      · exact Or.inl hf
      · exact ih h t' ht'
    · rw [List.filter_cons_of_pos (by simpa using hf), List.countP_cons_of_pos (by simpa using hf),
        List.map_cons, List.flatten_cons, List.length_append, t.length_samples] at h
      rcases List.mem_cons.1 ht' with rfl | ht'
      · exact Or.inr (by omega)
      · exact ih (by omega) t' ht'

theorem length_flatMap_put (put : List (Submission ℤ)) :
    (put.flatMap fun q => List.ofFn q.frame).length = 160 * put.length := by
  induction put with
  | nil => rfl
  | cons q put ih =>
    rw [List.flatMap_cons, List.length_append, List.length_ofFn, ih, List.length_cons]
    omega

/-! ## Turns with an idle encoder -/

section
variable (a : RecorderArgs) {ts : List (LoopTurn ℤ)} {counts : List (Fin 161)}

theorem map_count_finds (h : List.Forall₂ (fun t n => t.Finds n true) ts counts) :
    ts.map (·.count) = counts := by
  induction h with
  | nil => rfl
  | cons ht _ ih => rw [List.map_cons, Fin.ext ht.count, ih]

theorem idle_finds (h : List.Forall₂ (fun t n => t.Finds n true) ts counts) :
    ∀ t ∈ ts, t.idle = true :=
  forall_mem_of_forall₂ (fun _ _ ht => ht.idle) h

/-- Each read that gets some makes a submission. -/
theorem countP_idle (h : ∀ t ∈ ts, t.idle = true) :
    (ts.countP fun t => !t.fails && t.idle) = ts.countP fun t => !t.fails := by
  refine List.countP_congr fun t ht => ?_
  rw [h t ht, Bool.and_true]

/-- Samples are only passed on one for one when every read that gets some is whole. -/
theorem whole_of_amplified {readpos writepos : ℕ} (h : ∀ t ∈ ts, t.idle = true)
    (hA : Amplified ((recordLoop a calc2).run (.start 0 readpos writepos) ts)) :
    ∀ t ∈ ts, t.Whole := by
  have hlen := congrArg List.length hA
  rw [length_flatMap_put, run_put_length, List.length_map, run_captured, countP_idle h,
    RecordLoop.start, List.nil_append, List.length_nil, Nat.zero_add] at hlen
  exact whole_of_length_captured hlen.symm

/-- Without a busy turn every frame captured is handed over in its turn. -/
theorem Laps.amplified {w : Fin (a.mFrameRate + 1)} {s : RecordLoop ℤ}
    (h : Laps (a.mFrameRate + 1) calc2 0 w w s) (hlen : s.put.length = s.captured.length) :
    Amplified s := by
  have hbusy : s.busy = 0 := by
    have := h.captured
    omega
  have hput : s.put.map (fun q => List.ofFn q.frame) = s.captured.map (·.map calc2) := by
    refine List.ext_getElem? fun j => ?_
    rw [List.getElem?_map]
    cases hq : s.put[j]? with
    | none =>
      have hj : s.put.length ≤ j := List.getElem?_eq_none_iff.1 hq
      rw [List.getElem?_eq_none (by rw [List.length_map]; omega)]
      rfl
    | some q =>
      obtain ⟨hw, hb, -⟩ := h.times j q hq
      have hf := h.frame_of_eq hq
      rw [CircularBuffer.lastIn_of_lt (by omega)] at hf
      exact hf.symm
  rw [Amplified, List.flatMap_def, hput, List.map_flatten]

theorem amplified_of_eq (w : Fin (a.mFrameRate + 1)) (hidle : ∀ t ∈ ts, t.idle = true)
    (hwhole : ∀ t ∈ ts, t.Whole) :
    Amplified ((recordLoop a calc2).run (.start 0 (160 * w) (160 * w)) ts) := by
  have hl : Laps (a.mFrameRate + 1) calc2 0 w w ((recordLoop a calc2).run
    (.start 0 (160 * w) (160 * w)) ts) := (Laps.start w w).run hwhole
  refine hl.amplified a ?_
  rw [run_put_length, run_captured, countP_idle hidle, RecordLoop.start, List.nil_append,
    List.length_map, List.countP_eq_length_filter, List.length_nil, Nat.zero_add]

/-- Reads that fail hand nothing over. -/
theorem amplified_of_failed {readpos writepos : ℕ} (h : ∀ t ∈ ts, t.fails = true) :
    Amplified ((recordLoop a calc2).run (.start 0 readpos writepos) ts) := by
  have hrun : (recordLoop a calc2).run (.start 0 readpos writepos) ts =
      .start 0 readpos writepos := by
    induction ts with
    | nil => rfl
    | cons t ts ih =>
      have ht : RecordLoop.turn a calc2 (.start 0 readpos writepos) t =
        .start 0 readpos writepos := if_pos (h t (.head _))
      rw [Machine.run_cons]
      show (recordLoop a calc2).run (RecordLoop.turn a calc2 _ t) ts = _
      rw [ht]
      exact ih fun t' ht' => h t' (.tail _ ht')
  rw [hrun]
  rfl

end

/-- Reads of silence. -/
theorem silence_finds (counts : List (Fin 161)) : List.Forall₂ (fun t n => t.Finds n true)
    (counts.map fun n => (⟨n, fun _ => 0, true⟩ : LoopTurn ℤ)) counts := by
  have hzero : IsShort 0 := by unfold IsShort; omega
  induction counts with
  | nil => exact .nil
  | cons n counts ih => exact .cons ⟨rfl, rfl, fun _ => hzero⟩ ih

/-! ## Different positions -/

/-- What the turns of whole reads with an idle encoder find. -/
def alwaysIdle (counts : List (Fin 161)) : List FrameTurn :=
  counts.map fun n : Fin 161 => ⟨(n : ℕ) ≠ 0, true⟩

theorem beats_alwaysIdle (K c : ℕ) {counts : List (Fin 161)}
    (h : ∀ n ∈ counts, (n : ℕ) = 0 ∨ (n : ℕ) = 160) :
    List.Forall₂ (fun t n => t.Finds n true) (beats K c (alwaysIdle counts)) counts := by
  induction counts generalizing c with
  | nil => exact .nil
  | cons n counts ih =>
    have hfinds := beats_finds K c (alwaysIdle (n :: counts))
    unfold alwaysIdle at hfinds ih ⊢
    rw [List.map_cons, beats] at hfinds ⊢
    have hcount : FrameTurn.count ⟨(n : ℕ) ≠ 0, true⟩ = n := by
      unfold FrameTurn.count
      rcases h n (.head _) with h₀ | h₀ <;> simp [h₀]
    refine .cons ?_ (ih _ fun n' hn' => h n' (.tail _ hn'))
    have hn := (List.forall₂_cons.1 hfinds).1
    exact ⟨hn.count.trans hcount, hn.idle, hn.short⟩

/-- From different positions the encoder gets silence before the first beat. -/
theorem not_amplified_of_ne (a : RecorderArgs) {r w : Fin (a.mFrameRate + 1)} (hne : r ≠ w)
    {ps : List FrameTurn} {p : FrameTurn} (hp : p ∈ ps) (hpi : p.fills ∧ p.idle) :
    ¬ Amplified ((recordLoop a calc2).run (.start 0 (160 * r) (160 * w))
      (beats (a.mFrameRate + 1) 0 ps)) := by
  intro hA
  obtain ⟨q, hq, hzero, hbeat⟩ := beats_first a hne hp hpi
  generalize (recordLoop a calc2).run (.start 0 (160 * r) (160 * w))
    (beats (a.mFrameRate + 1) 0 ps) = s at hA hq hbeat
  unfold Amplified at hA
  -- the first sample of the first submission is 0, that of the first frame captured gives 2
  obtain ⟨put, hput⟩ : ∃ put, s.put = q :: put := by
    cases hs : s.put with
    | nil => rw [hs] at hq; cases hq
    | cons q' put => rw [hs] at hq; cases hq; exact ⟨put, rfl⟩
  rw [hput, List.flatMap_cons, hzero] at hA
  cases hc : s.captured with
  | nil =>
    rw [hc] at hA
    cases hA
  | cons x captured =>
    have hx : x = List.replicate 160 1 := hbeat 0 x (Nat.zero_mod _) (by rw [hc]; rfl)
    rw [hc, hx, List.flatten_cons, List.map_append] at hA
    have hhead : some (0 : ℤ) = some (calc2 1) := congrArg List.head? hA
    exact absurd hhead (by decide)

/-- **Short reads.**  With an encoder that is always idle it gets the samples captured, in their
    order and each amplified once, whatever they are, exactly when every read that gets some
    fills a frame and `run` starts with equal positions, or no read gets any. -/
theorem amplified_iff (a : RecorderArgs) (r w : Fin (a.mFrameRate + 1))
    (counts : List (Fin 161)) :
    (∀ ts, List.Forall₂ (fun t n => t.Finds n true) ts counts →
      Amplified ((recordLoop a calc2).run (.start 0 (160 * r) (160 * w)) ts)) ↔
    (∀ n ∈ counts, (n : ℕ) = 0) ∨ (r = w ∧ ∀ n ∈ counts, (n : ℕ) = 0 ∨ (n : ℕ) = 160) := by
  constructor
  · intro h
    by_cases hz : ∀ n ∈ counts, (n : ℕ) = 0
    · exact Or.inl hz
    · have hsilent := silence_finds counts
      have hwhole : ∀ n ∈ counts, (n : ℕ) = 0 ∨ (n : ℕ) = 160 := by
        intro n hn
        have ht := whole_of_amplified a (idle_finds hsilent) (h _ hsilent) ⟨n, fun _ => 0, true⟩
          (List.mem_map_of_mem hn)
        exact ht.imp_left LoopTurn.fails_iff.1
      refine Or.inr ⟨?_, hwhole⟩
      by_contra hne
      obtain ⟨n, hn, hpos⟩ : ∃ n ∈ counts, (n : ℕ) ≠ 0 := by
        push Not at hz
        exact hz
      exact not_amplified_of_ne a hne (List.mem_map_of_mem hn) ⟨decide_eq_true hpos, rfl⟩
        (h _ (beats_alwaysIdle (a.mFrameRate + 1) 0 hwhole))
  · rintro (hz | ⟨rfl, hwhole⟩) ts hts
    · refine amplified_of_failed a fun t ht => LoopTurn.fails_iff.2 (hz _ ?_)
      rw [← map_count_finds hts]
      exact List.mem_map_of_mem ht
    · refine amplified_of_eq a r (idle_finds hts) fun t ht => ?_
      refine (hwhole t.count ?_).imp_left LoopTurn.fails_iff.2
      rw [← map_count_finds hts]
      exact List.mem_map_of_mem ht

/-- A read of 80 samples in the first turn of the first call: the encoder gets 160. -/
theorem short_read_padded : ¬ ∀ (counts : List (Fin 161)) ts,
    List.Forall₂ (fun t n => t.Finds n true) ts counts →
      Amplified ((recordLoop ⟨8, 8000⟩ calc2).run (.start 0 0 0) ts) := by
  intro h
  have hlen := congrArg List.length (h [80] _ (silence_finds [80]))
  revert hlen
  decide +kernel

end JaySip
