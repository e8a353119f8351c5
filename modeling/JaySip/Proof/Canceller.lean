/-
  The echo canceller between its callers and its thread: the size flags, the queues, and when
  it sleeps on frames that it has accepted.
-/
import JaySip.Media.EchoCancellation

namespace JaySip

namespace EchoCancellation

variable {φ β σ ε : Type} {p : Codecs φ β σ ε} {ec : EchoCancellation φ ε}

/-! ## Queues and flags -/

/-- The queue of captured frames, or of played ones. -/
def queue (ec : EchoCancellation φ ε) (type : Bool) : List (Frame φ) :=
  if type then ec.m_cap_q else ec.m_play_q

/-- The flag of that queue. -/
def size (ec : EchoCancellation φ ε) (type : Bool) : ℕ :=
  if type then ec.CaptureSize else ec.PlaySize

theorem isIdle_iff : ec.isIdle = true ↔ ∀ type, ec.size type = 0 := by
  rw [isIdle, decide_eq_true_eq, Bool.forall_bool, and_comm]
  rfl

theorem queue_putData (ec : EchoCancellation φ ε) (type type' : Bool) (data : Frame φ) (n : ℕ) :
    (ec.putData type data n).queue type' =
      if type' = type then ec.queue type' ++ [data] else ec.queue type' := by
  cases type <;> cases type' <;> rfl

theorem size_putData (ec : EchoCancellation φ ε) (type type' : Bool) (data : Frame φ) (n : ℕ) :
    (ec.putData type data n).size type' = if type' = type then n else ec.size type' := by
  cases type <;> cases type' <;> rfl

theorem queue_capture (ec : EchoCancellation φ ε) : (ec.capture p).m_play_q = ec.m_play_q ∧
    (ec.capture p).PlaySize = ec.PlaySize ∧
    (ec.capture p).m_cap_q = if ec.CaptureSize = 0 then ec.m_cap_q else ec.m_cap_q.tail := by
  unfold capture
  split_ifs
  · exact ⟨rfl, rfl, rfl⟩
  · cases h : ec.m_cap_q with
    | nil => exact ⟨rfl, rfl, h⟩
    | cons f q => exact ⟨rfl, rfl, rfl⟩

theorem queue_playback (ec : EchoCancellation φ ε) : (ec.playback p).m_cap_q = ec.m_cap_q ∧
    (ec.playback p).m_play_q = if ec.PlaySize = 0 then ec.m_play_q else ec.m_play_q.tail := by
  unfold playback
  split_ifs
  · exact ⟨rfl, rfl⟩
  · cases h : ec.m_play_q with
    | nil => exact ⟨rfl, h⟩
    | cons f q => exact ⟨rfl, rfl⟩

/-- A turn takes one frame of each queue whose flag is set. -/
theorem queue_step (type : Bool) : (ec.step p).queue type =
    if ec.size type = 0 then ec.queue type else (ec.queue type).tail := by
  obtain ⟨hp, hs, hc⟩ := ec.queue_capture (p := p)
  obtain ⟨hc', hp'⟩ := (ec.capture p).queue_playback (p := p)
  by_cases hi : ec.isIdle = true
  · rw [step, if_pos hi, if_pos (isIdle_iff.1 hi type)]
  · rw [step, if_neg hi]
    cases type with
    | true => exact hc'.trans hc
    | false => exact hp'.trans (by rw [hp, hs]; rfl)

/-- A turn clears the flags. -/
theorem size_step (type : Bool) : (ec.step p).size type = 0 := by
  by_cases hi : ec.isIdle = true
  · rw [step, if_pos hi, isIdle_iff.1 hi type]
  · rw [step, if_neg hi]
    cases type <;> rfl

/-! ## Frames since the last turn -/

/-- The number of samples that an input puts into the queue. -/
def Input.puts (type : Bool) : Input φ → Option ℕ
  | .putData type' _ size => if type = type' then some size else none
  | .putBytes type' _ size => if type = type' then some (size / 2) else none
  | _ => none

/-- A turn of the thread. -/
def Input.isRun : Input φ → Bool
  | .run => true
  | _ => false

/-- The sizes of the frames put into the queue since the last turn. -/
def sinceRun (type : Bool) (h : List (Machine.Step (EchoCancellation φ ε) (Input φ))) : List ℕ :=
  h.foldl (fun sizes st =>
    (if st.input.isRun then [] else sizes) ++ (st.input.puts type).toList) []

/-- The size of the last frame put since the last turn, 0 if there is none. -/
def lastSize (type : Bool) (h : List (Machine.Step (EchoCancellation φ ε) (Input φ))) : ℕ :=
  (sinceRun type h).getLastD 0

/-- A turn that has work finds at most one frame of each kind, and it has samples; a frame
    without samples comes only behind a frame of the other kind that has some. -/
def PutsOnce (h : List (Machine.Step (EchoCancellation φ ε) (Input φ)))
    (st : Machine.Step (EchoCancellation φ ε) (Input φ)) : Prop :=
  if st.input.isRun then
    (∃ type, lastSize type h ≠ 0) →
      ∀ type, sinceRun type h = [] ∨ ∃ n, n ≠ 0 ∧ sinceRun type h = [n]
  else ∀ type, st.input.puts type = some 0 → lastSize (!type) h ≠ 0

/-- The canceller sleeps on no frame. -/
def SleepsEmpty (ec : EchoCancellation φ ε) : Prop :=
  ec.isIdle = true → ec.m_cap_q = [] ∧ ec.m_play_q = []

theorem sleepsEmpty_iff :
    ec.SleepsEmpty ↔ ((∀ type, ec.size type = 0) → ∀ type, ec.queue type = []) := by
  rw [SleepsEmpty, isIdle_iff, Bool.forall_bool (p := fun type => ec.queue type = []), and_comm]
  rfl

theorem sinceRun_snoc (type : Bool) (h : List (Machine.Step (EchoCancellation φ ε) (Input φ)))
    (st : Machine.Step (EchoCancellation φ ε) (Input φ)) : sinceRun type (h ++ [st]) =
      (if st.input.isRun then [] else sinceRun type h) ++ (st.input.puts type).toList := by
  rw [sinceRun, List.foldl_append]
  rfl

/-- As many frames wait as were put since the last turn, and the flag is the size of the last
    one. -/
def Counted (h : List (Machine.Step (EchoCancellation φ ε) (Input φ)))
    (ec : EchoCancellation φ ε) : Prop :=
  ∀ type, (ec.queue type).length = (sinceRun type h).length ∧ ec.size type = lastSize type h

/-- A call of `putData` adds its frame and sets its flag; taking a frame out does neither. -/
theorem step_puts (p : Codecs φ β σ ε) (ec : EchoCancellation φ ε) {i : Input φ}
    (hi : i.isRun = false) (type : Bool) :
    (((canceller p).step ec i).queue type).length =
      (ec.queue type).length + (i.puts type).toList.length ∧
    ((canceller p).step ec i).size type = (i.puts type).getD (ec.size type) := by
  have hput : ∀ (type' : Bool) data n,
      ((ec.putData type' data n).queue type).length =
        (ec.queue type).length + (if type = type' then some n else none).toList.length ∧
      (ec.putData type' data n).size type =
        (if type = type' then some n else none).getD (ec.size type) := by
    intro type' data n
    rw [queue_putData, size_putData]
    split_ifs
    · exact ⟨List.length_append, rfl⟩
    · exact ⟨rfl, rfl⟩
  cases i with
  | putData type' data n => exact hput type' data n
  | putBytes type' data n => exact hput type' data (n / 2)
  | getData => exact ⟨rfl, rfl⟩
  | run => cases hi

/-- An input puts a frame into one queue, or into none. -/
theorem puts_cases {i : Input φ} :
    (∀ type, i.puts type = none) ∨ ∃ t n, i.puts t = some n ∧ i.puts (!t) = none := by
  have hput : ∀ (t : Bool) (n : ℕ), (if t = t then some n else none) = some n ∧
      (if (!t) = t then some n else none) = none := by
    intro t n
    cases t <;> exact ⟨rfl, rfl⟩
  cases i with
  | putData t data n => exact Or.inr ⟨t, n, hput t n⟩
  | putBytes t data n => exact Or.inr ⟨t, n / 2, hput t (n / 2)⟩
  | getData | run => exact Or.inl fun _ => rfl

/-- What a turn leaves in a queue, from the sizes of the frames in it. -/
theorem left_nil_iff {α : Type} {q : List α} {sizes : List ℕ} (hl : q.length = sizes.length) :
    (if sizes.getLastD 0 = 0 then q else q.tail) = [] ↔
      sizes = [] ∨ ∃ n, n ≠ 0 ∧ sizes = [n] := by
  match sizes, hl with
  | [], hl => simp [List.length_eq_zero_iff.1 hl]
  | [n], hl =>
    obtain ⟨f, rfl⟩ := List.length_eq_one_iff.1 hl
    by_cases hn : n = 0
    · simp [hn]
    · simp [hn]
  | n :: n' :: sizes, hl =>
    refine iff_of_false (fun hq => ?_) (by simp)
    have h := congrArg List.length hq
    split_ifs at h
    · rw [hl] at h
      cases h
    · rw [List.length_tail, hl] at h
      cases h

theorem counted_step {h : List (Machine.Step (EchoCancellation φ ε) (Input φ))} {i : Input φ}
    (hi : i.isRun = false) (hc : Counted h ec) :
    Counted (h ++ [(canceller p).stepOf ec i]) ((canceller p).step ec i) := by
  intro type
  obtain ⟨hl, hs⟩ := step_puts p ec hi type
  have hr : ((canceller p).stepOf ec i).input.isRun = false := hi
  rw [lastSize, sinceRun_snoc, hr, if_neg Bool.false_ne_true, hl, hs, (hc type).1, (hc type).2,
    List.length_append]
  refine ⟨rfl, ?_⟩
  show (i.puts type).getD (lastSize type h) = (sinceRun type h ++ (i.puts type).toList).getLastD 0
  cases i.puts type with
  | none => simp [lastSize]
  | some n => simp

/-- One step, from a state that sleeps on no frame. -/
theorem step_sleepsEmpty {h : List (Machine.Step (EchoCancellation φ ε) (Input φ))} {i : Input φ}
    (hc : Counted h ec) (he : ec.SleepsEmpty) :
    ((canceller p).step ec i).SleepsEmpty ↔ PutsOnce h ((canceller p).stepOf ec i) := by
  rw [sleepsEmpty_iff]
  cases hi : i.isRun with
  | true =>
    obtain rfl : i = .run := by
      cases i with
      | run => rfl
      | putData | putBytes | getData => cases hi
    have hleft : (∀ type, ((canceller p).step ec .run).queue type = []) ↔
        ∀ type, sinceRun type h = [] ∨ ∃ n, n ≠ 0 ∧ sinceRun type h = [n] := by
      refine forall_congr' fun type => ?_
      rw [← left_nil_iff (hc type).1]
      show (ec.step p).queue type = [] ↔ _
      rw [queue_step, (hc type).2]
      rfl
    show (_ → ∀ type, ((canceller p).step ec .run).queue type = []) ↔ (_ → _)
    rw [hleft]
    constructor
    · exact fun hp _ => hp size_step
    · intro hp _
      by_cases hw : ∃ type, lastSize type h ≠ 0
      · exact hp hw
      · -- a turn without work leaves the queues, which are empty
        intro type
        have hidle : ∀ type, ec.size type = 0 := by
          intro type
          rw [(hc type).2]
          by_contra hn
          exact hw ⟨type, hn⟩
        have hq := (hc type).1
        rw [sleepsEmpty_iff.1 he hidle type] at hq
        exact Or.inl (List.length_eq_zero_iff.1 hq.symm)
  | false =>
    have hstep := fun type => step_puts p ec hi type
    have hr : ((canceller p).stepOf ec i).input.isRun = false := hi
    rw [PutsOnce, hr, if_neg Bool.false_ne_true]
    show _ ↔ ∀ type, i.puts type = some 0 → lastSize (!type) h ≠ 0
    rcases puts_cases (i := i) with hn | ⟨t, n, ht, hnt⟩
    · have hsame : ∀ type, ((canceller p).step ec i).size type = ec.size type ∧
          (((canceller p).step ec i).queue type).length = (ec.queue type).length := by
        intro type
        obtain ⟨hl, hs⟩ := hstep type
        rw [hn] at hl hs
        exact ⟨hs, hl⟩
      refine iff_of_true (fun hz type => ?_) fun type h0 =>
        absurd ((hn type).symm.trans h0) (by simp)
      have hq := sleepsEmpty_iff.1 he (fun type => (hsame type).1 ▸ hz type) type
      have hl := (hsame type).2
      rw [hq] at hl
      exact List.length_eq_zero_iff.1 hl
    · obtain ⟨hl, hs⟩ := hstep t
      obtain ⟨-, hs'⟩ := hstep (!t)
      rw [ht] at hl hs
      rw [hnt, Option.getD_none, (hc (!t)).2] at hs'
      have hne : ((canceller p).step ec i).queue t ≠ [] := by
        intro hq
        rw [hq] at hl
        cases hl
      constructor
      · intro hp type h0 hz
        have htype : type = t := by
          by_contra htt
          rw [Bool.eq_not.2 htt, hnt] at h0
          cases h0
        subst htype
        obtain rfl : n = 0 := Option.some.inj (ht.symm.trans h0)
        refine hne (hp (fun type' => ?_) type)
        by_cases htt : type' = type
        · rw [htt, hs]
          rfl
        · rw [Bool.eq_not.2 htt, hs', hz]
      · intro hp hz
        have hn0 : n = 0 := hs.symm.trans (hz t)
        rw [hn0] at ht
        exact absurd (hs'.symm.trans (hz (!t))) (hp t ht)

/-- A run step that meets the condition leaves nothing waiting. -/
theorem counted_run {h : List (Machine.Step (EchoCancellation φ ε) (Input φ))}
    (he : ((canceller p).step ec .run).SleepsEmpty) :
    Counted (h ++ [(canceller p).stepOf ec .run]) ((canceller p).step ec .run) := by
  intro type
  have hq := sleepsEmpty_iff.1 he size_step type
  rw [lastSize, sinceRun_snoc, hq]
  exact ⟨rfl, size_step type⟩

/-- **Sleeping.**  Along a run the canceller never sleeps on a frame it has accepted exactly
    when every turn that has work finds at most one frame of each kind, put since the turn
    before. -/
theorem sleeps_empty_iff (p : Codecs φ β σ ε) (speex_echo : ε) (is : List (Input φ)) :
    (canceller p).Along (create speex_echo) is (fun _ st => st.post.SleepsEmpty) ↔
      (canceller p).Along (create speex_echo) is PutsOnce := by
  refine (canceller p).along_iff (I := fun h ec => Counted h ec ∧ ec.SleepsEmpty) ?_ ?_ ?_ is
  · exact ⟨fun type => by cases type <;> exact ⟨rfl, rfl⟩, fun _ => ⟨rfl, rfl⟩⟩
  · rintro h ec i ⟨hc, he⟩ hp
    have he' := (step_sleepsEmpty hc he).2 hp
    refine ⟨?_, he'⟩
    cases i with
    | run => exact counted_run he'
    | putData | putBytes | getData => exact counted_step rfl hc
  · rintro h ec i ⟨hc, he⟩
    exact step_sleepsEmpty hc he

/-- The flag of an empty queue is not set: `removeFirst` finds a frame. -/
theorem queue_ne_nil (h : (canceller p).Reachable ec) (type : Bool) (hs : ec.size type ≠ 0) :
    ec.queue type ≠ [] := by
  have hinv : ∀ type, ec.queue type = [] → ec.size type = 0 := by
    refine h.inv (canceller p)
      (I := fun ec : EchoCancellation φ ε => ∀ type, ec.queue type = [] → ec.size type = 0) ?_ ?_
    · rintro _ ⟨speex_echo, rfl⟩ type -
      cases type <;> rfl
    · intro ec i ih type hq
      cases hi : i.isRun with
      | true =>
        cases i with
        | run => exact size_step type
        | putData | putBytes | getData => cases hi
      | false =>
        obtain ⟨hl, hsize⟩ := step_puts p ec hi type
        rw [hq, List.length_nil] at hl
        cases hput : i.puts type with
        | some n =>
          rw [hput] at hl
          cases hl
        | none =>
          rw [hput] at hl hsize
          rw [hsize]
          exact ih type (List.length_eq_zero_iff.1 hl.symm)
  exact fun hq => hs (hinv type hq)

/-- A canceller that does nothing. -/
def silent : Codecs Unit Unit Unit Unit :=
  ⟨fun _ _ _ => ((), ()), fun _ f => ((), f), fun _ _ => ()⟩

/-- Two frames are captured before the thread has its turn: it takes one and sleeps. -/
theorem sleeps_on_frame : ¬ ∀ is, (canceller silent).Along (create ()) is
    fun _ st => st.post.SleepsEmpty := by
  intro h
  obtain ⟨hq, -⟩ := h [.putData true ⟨(), none, false⟩ 160, .putData true ⟨(), none, false⟩ 160,
    .run] [_, _] _ [] rfl rfl
  have hw : [(⟨(), none, false⟩ : Frame Unit)] = [] := hq
  cases hw

end EchoCancellation

end JaySip
