/-
  The ring buffer of the recorder over any number of laps: which of the captured frames the
  encoder gets.
-/
import JaySip.CircularBuffer
import JaySip.Media.RecordLoop
import Mathlib.Data.List.OfFn

namespace JaySip

variable {α β σ ε : Type}

open CircularBuffer

/-! ## The ring of frames -/

namespace Recorder

variable {r : Recorder α} {K : ℕ}

/-- `Audio_in` as slots of a frame each. -/
def ring (r : Recorder α) : CircularBuffer (List α) where
  slot i := List.ofFn fun k : Fin 160 => r.Audio_in (160 * i + k)
  head := r.readpos / 160
  tail := r.writepos / 160

/-- Both positions are at frames of a ring of `K` frames. -/
structure Framed (K : ℕ) (r : Recorder α) : Prop where
  readpos : 160 ∣ r.readpos ∧ r.readpos < 160 * K
  writepos : 160 ∣ r.writepos ∧ r.writepos < 160 * K

/-- The position behind a frame. -/
theorem next_pos {n : ℕ} (h : 160 ∣ n) (hn : n < 160 * K) :
    (160 ∣ (n + 160) % (160 * K) ∧ (n + 160) % (160 * K) < 160 * K) ∧
      (n + 160) % (160 * K) / 160 = (n / 160 + 1) % K := by
  obtain ⟨i, rfl⟩ := h
  have hmul : 160 * i + 160 = 160 * (i + 1) := rfl
  rw [hmul, Nat.mul_mod_mul_left, Nat.mul_div_cancel_left _ (by decide),
    Nat.mul_div_cancel_left _ (by decide)]
  refine ⟨⟨Nat.dvd_mul_right _ _, ?_⟩, rfl⟩
  have := Nat.mod_lt (i + 1) (show 0 < K by omega)
  omega

theorem Framed.capture {double : α → α} {count : ℕ} {x : ℕ → α} (h : r.Framed K) :
    (r.capture double (160 * K) count x).Framed K :=
  ⟨h.readpos, (next_pos h.writepos.1 h.writepos.2).1⟩

theorem Framed.advance (h : r.Framed K) : (r.advance (160 * K)).Framed K :=
  ⟨(next_pos h.readpos.1 h.readpos.2).1, h.writepos⟩

theorem capture_inside {double : α → α} {ringSize i : ℕ} {x : ℕ → α} (h : r.writepos ≤ i)
    (hi : i < r.writepos + 160) :
    (r.capture double ringSize 160 x).Audio_in i = double (x (i - r.writepos)) :=
  (if_pos ⟨h, hi⟩).trans (congrArg double (if_pos hi))

theorem capture_outside {double : α → α} {ringSize count i : ℕ} {x : ℕ → α}
    (h : i < r.writepos ∨ r.writepos + 160 ≤ i) :
    (r.capture double ringSize count x).Audio_in i = r.Audio_in i :=
  if_neg (by omega)

/-- A read that fills a frame writes it into its slot, amplified. -/
theorem capture_ring (double : α → α) (x : ℕ → α) (h : r.Framed K) :
    (r.capture double (160 * K) 160 x).ring =
      r.ring.write K ((List.ofFn fun i : Fin 160 => x i).map double) := by
  obtain ⟨i, hi⟩ := h.writepos.1
  have htail : r.ring.tail = i := by
    rw [ring, hi, Nat.mul_div_cancel_left _ (by decide)]
  have hslot : (r.capture double (160 * K) 160 x).ring.slot =
      Function.update r.ring.slot i ((List.ofFn fun i : Fin 160 => x i).map double) := by
    funext j
    by_cases hj : j = i
    · rw [hj, Function.update_self, List.map_ofFn]
      refine congrArg List.ofFn (funext fun k => ?_)
      have hk := k.isLt
      have hx : 160 * i + k - r.writepos = k := by omega
      rw [capture_inside (by omega) (by omega), hx]
      rfl
    · rw [Function.update_of_ne hj]
      refine congrArg List.ofFn (funext fun k => capture_outside ?_)
      have hk := k.isLt
      omega
  unfold CircularBuffer.write
  rw [htail, ← hslot]
  have hnext := (next_pos h.writepos.1 h.writepos.2).2
  rw [hi, Nat.mul_div_cancel_left _ (by decide)] at hnext
  rw [← hnext, ← hi]
  rfl

theorem advance_ring (h : r.Framed K) : (r.advance (160 * K)).ring = r.ring.read K := by
  unfold ring CircularBuffer.read Recorder.advance
  rw [(next_pos h.readpos.1 h.readpos.2).2]

/-- What is handed to the encoder is in the slot under `readpos`. -/
theorem frame_eq (h : r.Framed K) : List.ofFn r.frame = r.ring.slot r.ring.head := by
  obtain ⟨i, hi⟩ := h.readpos.1
  unfold ring frame
  rw [hi, Nat.mul_div_cancel_left _ (by decide)]

end Recorder

/-! ## Laps -/

/-- The read of the turn fails or fills a frame. -/
def LoopTurn.Whole (t : LoopTurn α) : Prop := t.fails = true ∨ (t.count : ℕ) = 160

theorem LoopTurn.samples_of_full {t : LoopTurn α} (h : (t.count : ℕ) = 160) :
    t.samples = List.ofFn fun i : Fin 160 => t.x i := by
  unfold LoopTurn.samples
  rw [h]

/-- The loop behind whole frames: the ring holds those of the last lap, and every submission
    is a slot of the ring at its time. -/
structure Laps (K : ℕ) (double : α → α) (silence : α) (tail head : ℕ) (s : RecordLoop α) :
    Prop where
  framed : s.recorder.Framed K
  wrote : s.recorder.ring.Wrote K tail (fun _ => List.replicate 160 silence)
    (s.captured.map (·.map double))
  reads : s.recorder.ring.head = (head + s.put.length) % K
  captured : s.captured.length = s.put.length + s.busy
  times : ∀ j q, s.put[j]? = some q →
    q.captured = j + 1 + q.busy ∧ q.busy ≤ s.busy ∧ q.captured ≤ s.captured.length
  sorted : s.put.Pairwise fun q q' => q.busy ≤ q'.busy
  frame : ∀ j q, s.put[j]? = some q → ∃ B : CircularBuffer (List α),
    B.Wrote K tail (fun _ => List.replicate 160 silence)
        ((s.captured.map (·.map double)).take q.captured) ∧
      List.ofFn q.frame = B.slot ((head + j) % K)

namespace Laps

variable {a : RecorderArgs} {double : α → α} {silence : α} {tail head : ℕ} {s : RecordLoop α}

theorem start (r w : Fin (a.mFrameRate + 1)) :
    Laps (a.mFrameRate + 1) double silence w r (.start silence (160 * r) (160 * w)) := by
  have hr := r.isLt
  have hw := w.isLt
  have hring : (RecordLoop.start silence (160 * r) (160 * w)).recorder.ring =
      ⟨fun _ => List.replicate 160 silence, r, w⟩ := by
    unfold RecordLoop.start Recorder.ring
    rw [Nat.mul_div_cancel_left _ (by decide), Nat.mul_div_cancel_left _ (by decide),
      ← List.ofFn_const]
  refine ⟨⟨⟨Nat.dvd_mul_right .., ?_⟩, ⟨Nat.dvd_mul_right .., ?_⟩⟩, ?_, ?_, rfl, ?_, .nil, ?_⟩
  · show 160 * (r : ℕ) < 160 * (a.mFrameRate + 1)
    omega
  · show 160 * (w : ℕ) < 160 * (a.mFrameRate + 1)
    omega
  · rw [hring]
    exact .start hw
  · rw [hring]
    exact (Nat.mod_eq_of_lt hr).symm
  · intro j q hq
    cases hq
  · intro j q hq
    cases hq

/-- A submission among those before, or the new one. -/
theorem getElem?_concat_cases {xs : List β} {x y : β} {j : ℕ} (h : (xs ++ [x])[j]? = some y) :
    xs[j]? = some y ∨ j = xs.length ∧ y = x := by
  by_cases hj : j < xs.length
  · rw [List.getElem?_append_left hj] at h
    exact Or.inl h
  · have hlt := (List.getElem?_eq_some_iff.1 h).1
    rw [List.length_append, List.length_singleton] at hlt
    obtain rfl : j = xs.length := by omega
    rw [List.getElem?_concat_length] at h
    exact Or.inr ⟨rfl, (Option.some.inj h).symm⟩

/-- What the submissions before see of a longer history. -/
theorem frame_append (h : Laps (a.mFrameRate + 1) double silence tail head s) (x : List α) :
    ∀ j q, s.put[j]? = some q → ∃ B : CircularBuffer (List α),
      B.Wrote (a.mFrameRate + 1) tail (fun _ => List.replicate 160 silence)
          (((s.captured ++ [x]).map (·.map double)).take q.captured) ∧
        List.ofFn q.frame = B.slot ((head + j) % (a.mFrameRate + 1)) := by
  intro j q hq
  obtain ⟨B, hB, hf⟩ := h.frame j q hq
  refine ⟨B, ?_, hf⟩
  rw [List.map_append, List.take_append_of_le_length]
  · exact hB
  · rw [List.length_map]
    exact (h.times j q hq).2.2

/-- The ring behind a read of a frame. -/
theorem wrote_capture (h : Laps (a.mFrameRate + 1) double silence tail head s) {t : LoopTurn α}
    (hfull : (t.count : ℕ) = 160) :
    (s.recorder.capture double a.ringSize t.count t.x).ring.Wrote (a.mFrameRate + 1) tail
        (fun _ => List.replicate 160 silence)
        ((s.captured ++ [t.samples]).map (·.map double)) ∧
      (s.recorder.capture double a.ringSize t.count t.x).ring.head =
        (head + s.put.length) % (a.mFrameRate + 1) := by
  have hring := Recorder.capture_ring double t.x h.framed
  rw [← LoopTurn.samples_of_full hfull] at hring
  rw [hfull, RecorderArgs.ringSize, hring, List.map_append, List.map_singleton]
  exact ⟨h.wrote.write _, h.reads⟩

theorem turn_busy (h : Laps (a.mFrameRate + 1) double silence tail head s) {t : LoopTurn α}
    (hfull : (t.count : ℕ) = 160) :
    Laps (a.mFrameRate + 1) double silence tail head
      ⟨s.recorder.capture double a.ringSize t.count t.x, s.captured ++ [t.samples], s.busy + 1,
        s.put⟩ := by
  obtain ⟨hwrote, hreads⟩ := h.wrote_capture hfull
  refine ⟨h.framed.capture, hwrote, hreads, ?_, ?_, h.sorted, h.frame_append _⟩
  · rw [List.length_append, List.length_singleton, h.captured, Nat.add_assoc]
  · intro j q hq
    obtain ⟨hw, hb, hc⟩ := h.times j q hq
    refine ⟨hw, Nat.le_succ_of_le hb, ?_⟩
    rw [List.length_append]
    omega

theorem turn_idle (h : Laps (a.mFrameRate + 1) double silence tail head s) {t : LoopTurn α}
    (hfull : (t.count : ℕ) = 160) :
    Laps (a.mFrameRate + 1) double silence tail head
      ⟨(s.recorder.capture double a.ringSize t.count t.x).advance a.ringSize,
        s.captured ++ [t.samples], s.busy, s.put ++ [⟨s.captured.length + 1, s.busy,
          (s.recorder.capture double a.ringSize t.count t.x).frame⟩]⟩ := by
  obtain ⟨hwrote, hreads⟩ := h.wrote_capture hfull
  have hframed : (s.recorder.capture double a.ringSize t.count t.x).Framed (a.mFrameRate + 1) :=
    h.framed.capture
  have hadvance := Recorder.advance_ring hframed
  generalize s.recorder.capture double a.ringSize t.count t.x = r at *
  refine ⟨hframed.advance, ?_, ?_, ?_, ?_, ?_, ?_⟩
  · rw [RecorderArgs.ringSize, hadvance]
    exact hwrote.read
  · rw [RecorderArgs.ringSize, hadvance, CircularBuffer.read, hreads, List.length_append,
      List.length_singleton, Nat.mod_add_mod, Nat.add_assoc]
  · show (s.captured ++ [t.samples]).length = (s.put ++ [_]).length + s.busy
    rw [List.length_append, List.length_append, List.length_singleton, List.length_singleton,
      h.captured]
    omega
  · intro j q hq
    rw [List.length_append, List.length_singleton]
    rcases getElem?_concat_cases hq with hq | ⟨rfl, rfl⟩
    · obtain ⟨hw, hb, hc⟩ := h.times j q hq
      exact ⟨hw, hb, Nat.le_succ_of_le hc⟩
    · have hc := h.captured
      refine ⟨?_, le_rfl, le_rfl⟩
      dsimp only
      omega
  · rw [List.pairwise_append]
    refine ⟨h.sorted, List.pairwise_singleton _ _, ?_⟩
    intro q hq q' hq'
    obtain ⟨j, hj⟩ := List.mem_iff_getElem?.1 hq
    rw [List.mem_singleton.1 hq']
    exact (h.times j q hj).2.1
  · intro j q hq
    rcases getElem?_concat_cases hq with hq | ⟨rfl, rfl⟩
    · exact h.frame_append _ j q hq
    · refine ⟨r.ring, ?_, ?_⟩
      · rw [List.take_of_length_le]
        · exact hwrote
        · rw [List.length_map, List.length_append, List.length_singleton]
      · rw [Recorder.frame_eq hframed, hreads]

theorem turn (h : Laps (a.mFrameRate + 1) double silence tail head s) {t : LoopTurn α}
    (ht : t.Whole) : Laps (a.mFrameRate + 1) double silence tail head (s.turn a double t) := by
  unfold RecordLoop.turn
  split_ifs with hc
  · exact h
  · exact h.turn_idle (ht.resolve_left hc)
  · exact h.turn_busy (ht.resolve_left hc)

theorem run (h : Laps (a.mFrameRate + 1) double silence tail head s) {ts : List (LoopTurn α)}
    (hts : ∀ t ∈ ts, t.Whole) :
    Laps (a.mFrameRate + 1) double silence tail head ((recordLoop a double).run s ts) := by
  induction ts generalizing s with
  | nil => exact h
  | cons t ts ih =>
    rw [Machine.run_cons]
    exact ih (h.turn (hts t (.head _))) fun t' ht' => hts t' (.tail _ ht')

/-- From equal positions a submission is the last frame captured into the slot it should be. -/
theorem frame_of_eq (h : Laps (a.mFrameRate + 1) double silence tail tail s) {j : ℕ}
    {q : Submission α} (hq : s.put[j]? = some q) :
    (s.captured.map (·.map double))[lastIn (a.mFrameRate + 1) j q.captured]? =
      some (List.ofFn q.frame) := by
  obtain ⟨hw, -, hle⟩ := h.times j q hq
  obtain ⟨B, hB, hf⟩ := h.frame j q hq
  have hlen : ((s.captured.map (·.map double)).take q.captured).length = q.captured := by
    rw [List.length_take, List.length_map]
    omega
  have hslot := hB.slot_of_lt (Nat.succ_pos _) (j := j) (by omega)
  rw [hlen, List.getElem?_take_of_lt (lastIn_lt (by omega)), ← hf] at hslot
  exact hslot

/-- From other positions the first submission is silence, or a frame captured into a slot that
    is not its own. -/
theorem first_of_ne {r w : Fin (a.mFrameRate + 1)} (hne : r ≠ w)
    (h : Laps (a.mFrameRate + 1) double silence w r s) {q : Submission α}
    (hq : s.put[0]? = some q) :
    List.ofFn q.frame = List.replicate 160 silence ∨ ∃ n, n % (a.mFrameRate + 1) ≠ 0 ∧
      (s.captured.map (·.map double))[n]? = some (List.ofFn q.frame) := by
  obtain ⟨B, hB, hf⟩ := h.frame 0 q hq
  have hr := r.isLt
  have hw := w.isLt
  have hv : (r : ℕ) ≠ w := fun he => hne (Fin.ext he)
  obtain ⟨d, hd, hd₀, hslot⟩ : ∃ d < a.mFrameRate + 1, d ≠ 0 ∧
      ((r : ℕ) + 0) % (a.mFrameRate + 1) = ((w : ℕ) + d) % (a.mFrameRate + 1) := by
    rcases Nat.lt_or_gt_of_ne hv with hlt | hgt
    · refine ⟨r + (a.mFrameRate + 1) - w, by omega, by omega, ?_⟩
      have he : (w : ℕ) + (r + (a.mFrameRate + 1) - w) = r + (a.mFrameRate + 1) := by omega
      rw [he, Nat.add_mod_right]
      rfl
    · refine ⟨r - w, by omega, by omega, ?_⟩
      have he : (w : ℕ) + (r - w) = r := by omega
      rw [he]
      rfl
  rw [hslot] at hf
  rcases hB.slot_cases hd with hs | ⟨n, hn, hs⟩
  · exact Or.inl (hf.trans hs)
  · refine Or.inr ⟨n, by omega, ?_⟩
    have hlt := (List.getElem?_eq_some_iff.1 hs).1
    rw [List.length_take] at hlt
    rwa [List.getElem?_take_of_lt (by omega), ← hf] at hs

end Laps

/-! ## Runs of the loop -/

section
variable (a : RecorderArgs) (double : α → α) (s : RecordLoop α) (ts : List (LoopTurn α))

/-- The samples of the reads that got some. -/
theorem run_captured : ((recordLoop a double).run s ts).captured =
    s.captured ++ (ts.filter fun t => !t.fails).map (·.samples) := by
  induction ts generalizing s with
  | nil => simp
  | cons t ts ih =>
    have ht : (s.turn a double t).captured =
        s.captured ++ ([t].filter fun t => !t.fails).map (·.samples) := by
      unfold RecordLoop.turn
      split_ifs with hc <;> simp [hc]
    rw [Machine.run_cons, ih]
    show (s.turn a double t).captured ++ _ = _
    rw [ht, List.append_assoc, ← List.map_append, ← List.filter_append]
    rfl

/-- A frame is handed over in each turn with a read that finds the encoder idle. -/
theorem run_put_length : ((recordLoop a double).run s ts).put.length =
    s.put.length + ts.countP fun t => !t.fails && t.idle := by
  induction ts generalizing s with
  | nil => simp
  | cons t ts ih =>
    have ht : (s.turn a double t).put.length =
        s.put.length + [t].countP fun t => !t.fails && t.idle := by
      unfold RecordLoop.turn
      split_ifs with hc hi
      · simp [hc]
      · simp [hc, hi]
      · simp [hc, hi]
    rw [Machine.run_cons, ih]
    show (s.turn a double t).put.length + _ = _
    rw [ht, Nat.add_assoc, ← List.countP_append]
    rfl

end

/-! ## What the encoder gets -/

/-- A 16-bit sample. -/
def IsShort (x : ℤ) : Prop := -32768 ≤ x ∧ x ≤ 32767

/-- A turn that reads `count` samples and finds the encoder `idle` or not. -/
structure LoopTurn.Finds (t : LoopTurn ℤ) (count : ℕ) (idle : Bool) : Prop where
  count : (t.count : ℕ) = count
  idle : t.idle = idle
  short : ∀ i, IsShort (t.x i)

/-- What a turn may find when no read is short: the read fills a frame or fails, and the
    encoder is idle or busy. -/
structure FrameTurn where
  fills : Bool
  idle : Bool
  deriving DecidableEq, Repr

def FrameTurn.count (p : FrameTurn) : ℕ := if p.fills then 160 else 0

theorem FrameTurn.count_lt (p : FrameTurn) : p.count < 161 := by
  unfold FrameTurn.count
  split_ifs <;> omega

theorem LoopTurn.Finds.fails {t : LoopTurn ℤ} {p : FrameTurn} (h : t.Finds p.count p.idle) :
    t.fails = !p.fills := by
  rw [LoopTurn.fails, h.count, FrameTurn.count]
  cases p.fills <;> rfl

theorem LoopTurn.Finds.whole {t : LoopTurn ℤ} {p : FrameTurn} (h : t.Finds p.count p.idle) :
    t.Whole := by
  rw [LoopTurn.Whole, h.fails, h.count, FrameTurn.count]
  cases p.fills
  · exact Or.inl rfl
  · exact Or.inr rfl

/-- The number of the captured frame that submission `j` should be. -/
def RecorderArgs.frameNumber (a : RecorderArgs) (j : ℕ) (q : Submission ℤ) : ℕ :=
  j + (a.mFrameRate + 1) * ((q.captured - 1 - j) / (a.mFrameRate + 1))

/-- What the encoder gets: the positions are at frames, and submission `j` is the captured frame
    with the number `frameNumber`.  These numbers grow; a frame is skipped only when the encoder
    has been busy for a lap, and then as many as a lap has. -/
structure FramesInOrder (a : RecorderArgs) (s : RecordLoop ℤ) : Prop where
  framed : s.recorder.Framed (a.mFrameRate + 1)
  frame : ∀ j q, s.put[j]? = some q →
    (s.captured[a.frameNumber j q]?).map (·.map calc2) = some (List.ofFn q.frame)
  sorted : ∀ i j q q', i < j → s.put[i]? = some q → s.put[j]? = some q' →
    a.frameNumber i q < a.frameNumber j q'
  fifo : ∀ j q, s.put[j]? = some q → q.busy ≤ a.mFrameRate → a.frameNumber j q = j
  loses : ∀ j q, s.put[j]? = some q →
    a.frameNumber j q = j + (a.mFrameRate + 1) * (q.busy / (a.mFrameRate + 1))

section
variable {a : RecorderArgs} {s : RecordLoop ℤ} {silence : ℤ} {tail head : ℕ}

theorem Laps.frameNumber_eq (h : Laps (a.mFrameRate + 1) calc2 silence tail head s) {j : ℕ}
    {q : Submission ℤ} (hq : s.put[j]? = some q) :
    a.frameNumber j q = j + (a.mFrameRate + 1) * (q.busy / (a.mFrameRate + 1)) := by
  have hw := (h.times j q hq).1
  have hb : q.captured - 1 - j = q.busy := by omega
  rw [RecorderArgs.frameNumber, hb]

/-- What holds of the submissions when each is the frame it should be. -/
theorem Laps.framesInOrder (h : Laps (a.mFrameRate + 1) calc2 silence tail head s)
    (hf : ∀ j q, s.put[j]? = some q →
      (s.captured[a.frameNumber j q]?).map (·.map calc2) = some (List.ofFn q.frame)) :
    FramesInOrder a s := by
  refine ⟨h.framed, hf, ?_, ?_, fun j q hq => h.frameNumber_eq hq⟩
  · intro i j q q' hij hq hq'
    obtain ⟨hi, hqi⟩ := List.getElem?_eq_some_iff.1 hq
    obtain ⟨hj, hqj⟩ := List.getElem?_eq_some_iff.1 hq'
    have hb := List.pairwise_iff_getElem.1 h.sorted i j hi hj hij
    rw [hqi, hqj] at hb
    have hw := (h.times i q hq).1
    have hw' := (h.times j q' hq').1
    exact lastIn_lt_lastIn hij (by omega)
  · intro j q hq hb
    have hw := (h.times j q hq).1
    exact lastIn_of_lt (by omega)

theorem framesInOrder_of_eq (a : RecorderArgs) (w : Fin (a.mFrameRate + 1)) {ts : List (LoopTurn ℤ)}
    (hts : ∀ t ∈ ts, t.Whole) :
    FramesInOrder a ((recordLoop a calc2).run (.start 0 (160 * w) (160 * w)) ts) := by
  have hl : Laps (a.mFrameRate + 1) calc2 0 w w
    ((recordLoop a calc2).run (.start 0 (160 * w) (160 * w)) ts) := (Laps.start w w).run hts
  refine hl.framesInOrder fun j q hq => ?_
  have hf := hl.frame_of_eq hq
  rwa [List.getElem?_map] at hf

end

/-- Turns whose frames are silent but for every `K`-th; `c` have been captured before. -/
def beats (K : ℕ) : ℕ → List FrameTurn → List (LoopTurn ℤ)
  | _, [] => []
  | c, p :: ps =>
    ⟨⟨p.count, p.count_lt⟩, fun _ => if c % K = 0 then 1 else 0, p.idle⟩ ::
      beats K (if p.fills then c + 1 else c) ps

theorem beats_finds (K c : ℕ) (ps : List FrameTurn) :
    List.Forall₂ (fun t p => t.Finds p.count p.idle) (beats K c ps) ps := by
  induction ps generalizing c with
  | nil => exact .nil
  | cons p ps ih =>
    refine .cons ⟨rfl, rfl, fun i => ?_⟩ (ih _)
    dsimp only
    unfold IsShort
    split_ifs <;> omega

/-- Every `K`-th frame of them is 1, the others are 0. -/
theorem beats_samples (K c : ℕ) (ps : List FrameTurn) {n : ℕ} {x : List ℤ}
    (h : (((beats K c ps).filter fun t => !t.fails).map (·.samples))[n]? = some x) :
    x = List.replicate 160 (if (c + n) % K = 0 then 1 else 0) := by
  induction ps generalizing c n with
  | nil => cases h
  | cons p ps ih =>
    have hfinds := beats_finds K c (p :: ps)
    unfold beats at h hfinds
    have hfails := (List.forall₂_cons.1 hfinds).1.fails
    cases hp : p.fills with
    | false =>
      rw [List.filter_cons_of_neg (by rw [hfails, hp]; decide), hp] at h
      exact ih c h
    | true =>
      rw [List.filter_cons_of_pos (by rw [hfails, hp]; decide), hp, List.map_cons] at h
      cases n with
      | zero =>
        have hfull : p.count = 160 := by rw [FrameTurn.count, hp]; rfl
        rw [List.getElem?_cons_zero, LoopTurn.samples_of_full hfull, List.ofFn_const] at h
        exact (Option.some.inj h).symm
      | succ n =>
        rw [List.getElem?_cons_succ] at h
        have hn : c + (n + 1) = c + 1 + n := by omega
        rw [hn]
        exact ih (c + 1) h

section
variable {ts : List (LoopTurn ℤ)} {ps : List FrameTurn}

/-- What related elements have, every element of the first list has. -/
theorem forall_mem_of_forall₂ {γ δ : Type} {R : γ → δ → Prop} {P : γ → Prop}
    (hP : ∀ x y, R x y → P x) {xs : List γ} {ys : List δ} (h : List.Forall₂ R xs ys) :
    ∀ x ∈ xs, P x := by
  induction h with
  | nil =>
    intro x hx
    cases hx
  | cons hxy _ ih => exact List.forall_mem_cons.2 ⟨hP _ _ hxy, ih⟩

theorem whole_of_finds (h : List.Forall₂ (fun t p => t.Finds p.count p.idle) ts ps) :
    ∀ t ∈ ts, t.Whole :=
  forall_mem_of_forall₂ (fun _ _ ht => ht.whole) h

theorem put_length_of_finds (a : RecorderArgs) (readpos writepos : ℕ)
    (h : List.Forall₂ (fun t p => t.Finds p.count p.idle) ts ps) :
    ((recordLoop a calc2).run (.start 0 readpos writepos) ts).put.length =
      ps.countP fun p => p.fills && p.idle := by
  have hcount : (ts.countP fun t => !t.fails && t.idle) =
      ps.countP fun p => p.fills && p.idle := by
    induction h with
    | nil => rfl
    | cons hp _ ih =>
      simp only [List.countP_cons, ih, hp.fails, hp.idle, Bool.not_not]
  rw [run_put_length, hcount]
  exact Nat.zero_add _

end

/-- From different positions the first submission of the turns `beats` is silent, where a beat
    should be. -/
theorem beats_first (a : RecorderArgs) {r w : Fin (a.mFrameRate + 1)} (hne : r ≠ w)
    {ps : List FrameTurn} {p : FrameTurn} (hp : p ∈ ps) (hpi : p.fills ∧ p.idle) :
    ∃ q, ((recordLoop a calc2).run (.start 0 (160 * r) (160 * w))
        (beats (a.mFrameRate + 1) 0 ps)).put[0]? = some q ∧
      List.ofFn q.frame = List.replicate 160 0 ∧
      ∀ n x, n % (a.mFrameRate + 1) = 0 → ((recordLoop a calc2).run
        (.start 0 (160 * r) (160 * w)) (beats (a.mFrameRate + 1) 0 ps)).captured[n]? = some x →
          x = List.replicate 160 1 := by
  have hfinds := beats_finds (a.mFrameRate + 1) 0 ps
  have hlen := put_length_of_finds a (160 * r) (160 * w) hfinds
  have hl : Laps (a.mFrameRate + 1) calc2 0 w r ((recordLoop a calc2).run
    (.start 0 (160 * r) (160 * w)) (beats (a.mFrameRate + 1) 0 ps)) :=
    (Laps.start r w).run (whole_of_finds hfinds)
  have hcap := run_captured a calc2 (.start 0 (160 * r) (160 * w))
    (beats (a.mFrameRate + 1) 0 ps)
  generalize (recordLoop a calc2).run (.start 0 (160 * r) (160 * w))
    (beats (a.mFrameRate + 1) 0 ps) = s at hlen hl hcap ⊢
  have hbeat : ∀ n x, s.captured[n]? = some x →
      x = List.replicate 160 (if n % (a.mFrameRate + 1) = 0 then 1 else 0) := by
    intro n x hx
    rw [hcap] at hx
    have := beats_samples (a.mFrameRate + 1) 0 ps hx
    rwa [Nat.zero_add] at this
  have hpos : 0 < s.put.length := by
    rw [hlen, List.countP_pos_iff]
    exact ⟨p, hp, by simpa using hpi⟩
  refine ⟨s.put[0], List.getElem?_eq_getElem hpos, ?_, ?_⟩
  · rcases hl.first_of_ne hne (List.getElem?_eq_getElem hpos) with hz | ⟨n, hn, hx⟩
    · exact hz
    · rw [List.getElem?_map, Option.map_eq_some_iff] at hx
      obtain ⟨x, hx, hmap⟩ := hx
      rw [hbeat n x hx, if_neg hn, List.map_replicate] at hmap
      exact hmap.symm
  · intro n x hn hx
    rw [hbeat n x hx, if_pos hn]

/-- **The ring buffer of the recorder.**  When every read fills a frame or fails, the encoder
    gets the frames it should, whatever they hold, exactly when `run` starts with equal
    positions or nothing is handed over. -/
theorem framesInOrder_iff (a : RecorderArgs) (r w : Fin (a.mFrameRate + 1)) (ps : List FrameTurn) :
    (∀ ts, List.Forall₂ (fun t p => t.Finds p.count p.idle) ts ps →
      FramesInOrder a ((recordLoop a calc2).run (.start 0 (160 * r) (160 * w)) ts)) ↔
    r = w ∨ ∀ p ∈ ps, ¬ (p.fills ∧ p.idle) := by
  constructor
  · intro h
    by_cases hne : r = w
    · exact Or.inl hne
    · refine Or.inr fun p hp hpi => ?_
      obtain ⟨q, hq, hzero, hbeat⟩ := beats_first a hne hp hpi
      have hf := (h _ (beats_finds (a.mFrameRate + 1) 0 ps)).frame 0 q hq
      rw [hzero, Option.map_eq_some_iff] at hf
      obtain ⟨x, hx, hmap⟩ := hf
      have hmod : a.frameNumber 0 q % (a.mFrameRate + 1) = 0 := lastIn_mod _ 0 q.captured
      rw [hbeat _ x hmod hx, List.map_replicate] at hmap
      have := List.replicate_right_injective (by decide) hmap
      revert this
      decide
  · rintro (rfl | hno) ts hts
    · exact framesInOrder_of_eq a r (whole_of_finds hts)
    · have hl : Laps (a.mFrameRate + 1) calc2 0 w r ((recordLoop a calc2).run
        (.start 0 (160 * r) (160 * w)) ts) := (Laps.start r w).run (whole_of_finds hts)
      have hlen := put_length_of_finds a (160 * r) (160 * w) hts
      have hzero : (ps.countP fun p => p.fills && p.idle) = 0 := by
        rw [List.countP_eq_zero]
        intro p hp
        simpa using hno p hp
      rw [hzero, List.length_eq_zero_iff] at hlen
      refine hl.framesInOrder fun j q hq => ?_
      rw [hlen] at hq
      cases hq

namespace Trace

/-- A turn that captures a frame of ones. -/
def ones (idle : Bool) : LoopTurn ℤ := ⟨Fin.last 160, fun _ => 1, idle⟩

/-- The first call at 8000 Hz: the encoder is idle once and busy once. -/
def firstRun : RecordLoop ℤ :=
  (recordLoop ⟨8, 8000⟩ calc2).run (.start 0 0 0) [ones true, ones false]

end Trace

/-- In the second call of the same recorder the first frame handed over is silence. -/
theorem second_run_hands_over_silence : ¬ ∀ ts : List (LoopTurn ℤ), (∀ t ∈ ts, t.Whole) →
    FramesInOrder ⟨8, 8000⟩ ((recordLoop ⟨8, 8000⟩ calc2).run
      (.start 0 Trace.firstRun.recorder.readpos Trace.firstRun.recorder.writepos) ts) := by
  intro h
  have hd := h [Trace.ones true] fun t ht => Or.inr (by rw [List.mem_singleton.1 ht]; rfl)
  have hf := hd.frame 0 _ rfl
  revert hf
  decide +kernel

end JaySip
