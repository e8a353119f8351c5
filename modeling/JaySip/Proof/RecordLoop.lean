/-
  The recorder thread among the others runs the loop `recordLoop`: its ring buffer and the
  frames it hands over are those of some turns of the loop.
-/
import JaySip.Proof.Fifo
import JaySip.Proof.Laps

namespace JaySip

variable {α β σ ε : Type}

namespace Sender

/-- What a step of the threads does to the ring buffer and to the frames handed over: nothing,
    a read, or a frame handed over. -/
inductive TurnStep (a : RecorderArgs) (double : α → α) (s : Sender α β σ ε) (i : SenderInput α)
    (s' : Sender α β σ ε) : Prop where
  | same (audio : s'.recorder.Audio_in = s.recorder.Audio_in)
      (readpos : s'.recorder.readpos = s.recorder.readpos)
      (writepos : s'.recorder.writepos = s.recorder.writepos) (put : s'.coder.put = s.coder.put)
      (pc : s'.recorder.pc = .testing ∨ s'.recorder.pc = .putting →
        s.recorder.pc = .testing ∨ s.recorder.pc = .putting)
  | reads (count : Fin 161) (x : ℕ → α) (input : i = .read count x) (pos : ¬ (count : ℕ) ≤ 0)
      (recorder : s'.recorder = s.recorder.capture double a.ringSize count x)
      (put : s'.coder.put = s.coder.put)
  | puts (pc : s.recorder.pc = .putting) (post : s' = s.put a)

theorem step_turn (a : RecorderArgs) (p : Sound α β σ ε) (s : Sender α β σ ε)
    (i : SenderInput α) : TurnStep a p.calc2 s i (s.step a p i) := by
  cases i with
  | read count x =>
    show TurnStep a p.calc2 s _ (s.read a p count x)
    unfold Sender.read
    split_ifs with h
    · exact .reads count x rfl (fun h₀ => h.2 (Fin.ext (Nat.le_zero.1 h₀))) rfl rfl
    · exact .same rfl rfl rfl rfl id
  | recorder throws =>
    show TurnStep a p.calc2 s _ (s.recorderStep a throws)
    unfold Sender.recorderStep
    split
    · exact .same rfl rfl rfl rfl id
    · exact .same rfl rfl rfl rfl fun _ => Or.inl ‹_›
    · split_ifs
      · exact .same rfl rfl rfl rfl id
      · exact .puts ‹_› rfl
    · refine .same rfl rfl rfl rfl fun hpc => ?_
      dsimp only at hpc
      split_ifs at hpc <;> simp at hpc
    · refine .same rfl rfl rfl rfl fun hpc => ?_
      dsimp only at hpc
      split_ifs at hpc <;> simp at hpc
    · unfold Sender.send
      split
      · exact .same rfl rfl rfl rfl id
      · split_ifs
        · exact .same rfl rfl rfl rfl fun hpc => by simp at hpc
        · exact .same rfl rfl rfl rfl fun hpc => by simp at hpc
  | encoder => exact .same rfl rfl rfl Fifo.encoderStep_put id
  | decoded samples =>
    refine .same rfl rfl rfl ?_ id
    show (s.coder.decoded samples).put = s.coder.put
    unfold Coder.decoded
    split
    · rfl
    · split_ifs <;> rfl
  | mute => exact .same rfl rfl rfl rfl id
  | demute => exact .same rfl rfl rfl rfl id
  | canceller => exact .same rfl rfl rfl rfl id

/-- The threads have come where the loop is. -/
structure Follows (s : Sender α β σ ε) (l : RecordLoop α) : Prop where
  audio : s.recorder.Audio_in = l.recorder.Audio_in
  readpos : s.recorder.readpos = l.recorder.readpos
  writepos : s.recorder.writepos = l.recorder.writepos
  put : s.coder.put = l.put.map (·.frame)

/-- The turns `ts` that the threads have made: each with a read among the inputs, and the last
    one counts as busy until its frame is handed over. -/
structure Turns (a : RecorderArgs) (double : α → α) (l : RecordLoop α) (is : List (SenderInput α))
    (ts : List (LoopTurn α)) (s : Sender α β σ ε) : Prop where
  follows : s.Follows ((recordLoop a double).run l ts)
  reads : ∀ t ∈ ts, t.fails = false ∧ SenderInput.read t.count t.x ∈ is
  last : s.recorder.pc = .testing ∨ s.recorder.pc = .putting →
    ∃ ts' t, ts = ts' ++ [t] ∧ t.idle = false

namespace Turns

variable {a : RecorderArgs} {p : Sound α β σ ε} {double : α → α} {l : RecordLoop α}
  {is : List (SenderInput α)} {ts : List (LoopTurn α)} {s s' : Sender α β σ ε}

theorem turn_busy {t : LoopTurn α} (hc : t.fails = false) (hi : t.idle = false) :
    l.turn a double t = ⟨l.recorder.capture double a.ringSize t.count t.x,
      l.captured ++ [t.samples], l.busy + 1, l.put⟩ := by
  rw [RecordLoop.turn, hc, hi]
  rfl

theorem turn_idle {t : LoopTurn α} (hc : t.fails = false) (hi : t.idle = true) :
    l.turn a double t = ⟨(l.recorder.capture double a.ringSize t.count t.x).advance a.ringSize,
      l.captured ++ [t.samples], l.busy, l.put ++ [⟨l.captured.length + 1, l.busy,
        (l.recorder.capture double a.ringSize t.count t.x).frame⟩]⟩ := by
  rw [RecordLoop.turn, hc, hi]
  rfl

theorem step (h : Turns a double l is ts s) {i : SenderInput α}
    (hstep : TurnStep a double s i s') : ∃ ts', Turns a double l (is ++ [i]) ts' s' := by
  have hold : ∀ t ∈ ts, t.fails = false ∧ SenderInput.read t.count t.x ∈ is ++ [i] :=
    fun t ht => ⟨(h.reads t ht).1, List.mem_append_left _ (h.reads t ht).2⟩
  obtain ⟨ha, hr, hw, hp⟩ := h.follows
  cases hstep with
  | same ha' hr' hw' hp' hpc =>
    exact ⟨ts, ⟨⟨ha'.trans ha, hr'.trans hr, hw'.trans hw, hp'.trans hp⟩, hold,
      fun h' => h.last (hpc h')⟩⟩
  | reads count x hin hpos hrec hp' =>
    have hc : (⟨count, x, false⟩ : LoopTurn α).fails = false := decide_eq_false hpos
    refine ⟨ts ++ [⟨count, x, false⟩], ⟨?_, ?_, fun _ => ⟨ts, _, rfl, rfl⟩⟩⟩
    · rw [Machine.run_append]
      show Follows _ (RecordLoop.turn a double _ _)
      rw [turn_busy hc rfl]
      refine ⟨?_, ?_, ?_, hp'.trans hp⟩
      · rw [hrec]
        unfold Recorder.capture
        dsimp only
        rw [ha, hw]
      · rw [hrec]
        exact hr
      · rw [hrec]
        unfold Recorder.capture
        dsimp only
        rw [hw]
    · intro t ht
      rcases List.mem_append.1 ht with ht | ht
      · exact hold t ht
      · rw [List.mem_singleton.1 ht]
        exact ⟨hc, List.mem_append_right _ (hin ▸ List.mem_singleton_self _)⟩
  | puts hpc hpost =>
    obtain ⟨ts', t, rfl, hi⟩ := h.last (Or.inr hpc)
    have hc := (h.reads t (List.mem_append_right _ (List.mem_singleton_self _))).1
    rw [Machine.run_append] at ha hr hw hp
    change _ = (RecordLoop.turn a double _ t).recorder.Audio_in at ha
    change _ = (RecordLoop.turn a double _ t).recorder.readpos at hr
    change _ = (RecordLoop.turn a double _ t).recorder.writepos at hw
    change _ = (RecordLoop.turn a double _ t).put.map _ at hp
    rw [turn_busy hc hi] at ha hr hw hp
    have hframe : s.recorder.frame = (((recordLoop a double).run l ts').recorder.capture double
        a.ringSize t.count t.x).frame := by
      unfold Recorder.frame
      rw [ha, hr]
    refine ⟨ts' ++ [{ t with idle := true }], ⟨?_, ?_, ?_⟩⟩
    · rw [Machine.run_append]
      show Follows _ (RecordLoop.turn a double _ _)
      rw [turn_idle (t := { t with idle := true }) hc rfl, hpost]
      refine ⟨ha, ?_, hw, ?_⟩
      · show (s.recorder.readpos + 160) % a.ringSize = _
        rw [hr]
        rfl
      · show s.coder.put ++ [s.recorder.frame] = _
        rw [hp, hframe, List.map_append]
        rfl
    · intro u hu
      rcases List.mem_append.1 hu with hu | hu
      · exact hold u (List.mem_append_left _ hu)
      · rw [List.mem_singleton.1 hu]
        exact hold t (List.mem_append_right _ (List.mem_singleton_self _))
    · intro hpc'
      rw [hpost] at hpc'
      simp [Sender.put] at hpc'

end Turns

/-- The recorder thread runs the loop. -/
theorem follows_loop (a : RecorderArgs) (p : Sound α β σ ε) (silence : α)
    (readpos writepos : ℕ) (muteflag : Bool) (codec : σ) (num_send num_recv : ℕ)
    (m_ec : Option (EchoCancellation (Samples α) ε)) (is : List (SenderInput α)) :
    ∃ ts, Turns a p.calc2 (.start silence readpos writepos) is ts ((sender a p).run
      (.start silence readpos writepos muteflag codec num_send num_recv m_ec) is) := by
  induction is using List.reverseRecOn with
  | nil =>
    refine ⟨[], ⟨rfl, rfl, rfl, rfl⟩, ?_, ?_⟩
    · intro t ht
      cases ht
    · intro hpc
      simp [Sender.start] at hpc
  | append_singleton is i ih =>
    obtain ⟨ts, hts⟩ := ih
    rw [Machine.run_append]
    exact hts.step (step_turn a p _ i)

/-- When no read is short, a run that starts with equal positions hands over only frames that
    it has read, amplified. -/
theorem put_read (a : RecorderArgs) (p : Sound α β σ ε) (silence : α)
    (w : Fin (a.mFrameRate + 1)) (muteflag : Bool) (codec : σ) (num_send num_recv : ℕ)
    (m_ec : Option (EchoCancellation (Samples α) ε)) {is : List (SenderInput α)}
    (hw : ∀ count x, SenderInput.read count x ∈ is → (count : ℕ) = 0 ∨ (count : ℕ) = 160) :
    ∀ f ∈ ((sender a p).run (.start silence (160 * w) (160 * w) muteflag codec num_send num_recv
      m_ec) is).coder.put,
      ∃ count x, SenderInput.read count x ∈ is ∧ f = fun i : Fin 160 => p.calc2 (x i) := by
  intro f hf
  obtain ⟨ts, hts⟩ := follows_loop a p silence (160 * w) (160 * w) muteflag codec num_send
    num_recv m_ec is
  have hfull : ∀ t ∈ ts, (t.count : ℕ) = 160 := by
    intro t ht
    obtain ⟨hc, hread⟩ := hts.reads t ht
    have hpos := of_decide_eq_false hc
    exact (hw _ _ hread).resolve_left fun h₀ => hpos h₀.le
  have hl : Laps (a.mFrameRate + 1) p.calc2 silence w w ((recordLoop a p.calc2).run
    (.start silence (160 * w) (160 * w)) ts) :=
    (Laps.start w w).run fun t ht => Or.inr (hfull t ht)
  rw [hts.follows.put, List.mem_map] at hf
  obtain ⟨q, hq, rfl⟩ := hf
  obtain ⟨j, hj⟩ := List.mem_iff_getElem?.1 hq
  have hx := hl.frame_of_eq hj
  rw [List.getElem?_map, Option.map_eq_some_iff, run_captured] at hx
  obtain ⟨x, hx, hmap⟩ := hx
  have hmem := List.mem_of_getElem? hx
  rw [RecordLoop.start, List.nil_append, List.mem_map] at hmem
  obtain ⟨t, ht, rfl⟩ := hmem
  have ht' := List.mem_of_mem_filter ht
  rw [LoopTurn.samples_of_full (hfull t ht'), List.map_ofFn] at hmap
  exact ⟨t.count, t.x, (hts.reads t ht').2, (List.ofFn_injective hmap).symm⟩

end Sender

end JaySip
