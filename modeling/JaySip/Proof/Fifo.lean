/-
  The sending pipeline without an echo canceller: payloads leave in the order of the frames
  that were put, and no frame is put over another.
-/
import JaySip.Media.LanAudioRecord

namespace JaySip

variable {φ α β σ ε : Type}

/-! ## Encodings -/

/-- The codec and the payloads after it has encoded the frames, one after another. -/
def Codecs.encodeAll (p : Codecs φ β σ ε) : σ → List φ → σ × List β
  | codec, [] => (codec, [])
  | codec, x :: xs =>
    let r := p.encode codec x 160
    let rs := p.encodeAll r.1 xs
    (rs.1, r.2 :: rs.2)

theorem encodeAll_append (p : Codecs φ β σ ε) (codec : σ) (xs ys : List φ) :
    p.encodeAll codec (xs ++ ys) =
      ((p.encodeAll (p.encodeAll codec xs).1 ys).1,
        (p.encodeAll codec xs).2 ++ (p.encodeAll (p.encodeAll codec xs).1 ys).2) := by
  induction xs generalizing codec with
  | nil => rfl
  | cons x xs ih => simp only [List.cons_append, Codecs.encodeAll, ih]

/-! ## The encoder -/

/-- The frame that was put and is not yet encoded. -/
def Encoder.unencoded (e : Encoder φ β σ) : List φ :=
  match e.pc with
  | .waiting => if e.leftSize = 0 then [] else [e.rawdata.samples]
  | .cancelling => [e.output.samples]
  | .encoding _ => [e.output.samples]
  | _ => []

/-- The payload that is not yet in the queue. -/
def Encoder.pending (e : Encoder φ β σ) : List β :=
  match e.pc with
  | .adding tempdata => [tempdata]
  | _ => []

/-- Without a canceller: the frames put are those encoded and the one in hand, and the
    encodings are the payloads `taken`, those in the queue and the one in hand. -/
structure Coder.Fifo (p : Codecs φ β σ ε) (codec : σ) (taken : List β) (s : Coder φ β σ ε) :
    Prop where
  alone : s.m_ec = none
  size : s.encoder.leftSize = 0 ∧ s.encoder.pc = .waiting ∨ s.encoder.leftSize = 160
  frames : s.encoded.map (·.samples) ++ s.encoder.unencoded = s.put
  payloads : p.encodeAll codec (s.encoded.map (·.samples)) =
    (s.encoder.codec, taken ++ s.encoder.m_in_q ++ s.encoder.pending)

namespace Coder.Fifo

variable {p : Codecs φ β σ ε} {codec : σ} {taken : List β} {s : Coder φ β σ ε}

/-- An idle encoder has encoded every frame. -/
theorem all_encoded (h : s.Fifo p codec taken) (hi : s.encoder.leftSize = 0) :
    s.encoded.map (·.samples) = s.put := by
  have hpc : s.encoder.pc = .waiting := by
    rcases h.size with ⟨-, hpc⟩ | hn
    · exact hpc
    · omega
  have hf := h.frames
  rw [Encoder.unencoded, hpc, if_pos hi, List.append_nil] at hf
  exact hf

/-- What was taken is a prefix of the encodings of what was put. -/
theorem prefix_put (h : s.Fifo p codec taken) : taken <+: (p.encodeAll codec s.put).2 := by
  rw [← h.frames, encodeAll_append, h.payloads, List.append_assoc, List.append_assoc]
  exact List.prefix_append ..

theorem putData (h : s.Fifo p codec taken) (hi : s.encoder.leftSize = 0) (x : φ) :
    (s.putData x).Fifo p codec taken := by
  have hall := h.all_encoded hi
  have hpc : s.encoder.pc = .waiting := by
    rcases h.size with ⟨-, hpc⟩ | hn
    · exact hpc
    · omega
  refine ⟨h.alone, Or.inr rfl, ?_, h.payloads⟩
  have hu : (s.putData x).encoder.unencoded = [x] := by
    simp [Coder.putData, Encoder.putData, Encoder.unencoded, hpc]
  rw [hu]
  exact congrArg (· ++ [x]) hall

theorem encode (h : s.Fifo p codec taken) {polls : Bool} (hpc : s.encoder.pc = .encoding polls) :
    (s.encode p polls).Fifo p codec taken := by
  have hsize : s.encoder.leftSize = 160 := h.size.resolve_left (by simp [hpc])
  have hpoll : s.poll polls = (s.encoder.output, s.m_ec) := by
    unfold Coder.poll
    rw [h.alone]
    split
    · rename_i he
      cases he
    · rfl
  have hf := h.frames
  have hp := h.payloads
  rw [Encoder.unencoded, hpc] at hf
  rw [Encoder.pending, hpc, List.append_nil] at hp
  refine ⟨?_, Or.inr hsize, ?_, ?_⟩
  · rw [Coder.encode, hpoll]
    exact h.alone
  · simpa [Coder.encode, hpoll, Encoder.unencoded] using hf
  · simp only [Coder.encode, hpoll, List.map_append, List.map_cons, List.map_nil, encodeAll_append,
      hp, Codecs.encodeAll, hsize, Encoder.pending]

theorem encoderStep (h : s.Fifo p codec taken) : (s.encoderStep p).Fifo p codec taken := by
  have hsize := h.size
  have hf := h.frames
  have hp := h.payloads
  unfold Coder.encoderStep
  split
  · rename_i hpc
    split_ifs with hi
    · exact h
    · have hn : s.encoder.leftSize ≠ 0 := by simpa [Encoder.isIdle] using hi
      rw [Encoder.unencoded, hpc, if_neg hn] at hf
      rw [Encoder.pending, hpc] at hp
      exact ⟨h.alone, Or.inr (hsize.resolve_left fun hl => hn hl.1), hf, hp⟩
  · rename_i hpc
    rw [Encoder.unencoded, hpc] at hf
    rw [Encoder.pending, hpc] at hp
    unfold Coder.cancel
    split
    · exact ⟨h.alone, Or.inr (hsize.resolve_left (by simp [hpc])), hf, hp⟩
    · rename_i ec hec
      exact absurd (h.alone.symm.trans hec) (by simp)
  · exact h.encode ‹_›
  · rename_i tempdata hpc
    rw [Encoder.unencoded, hpc] at hf
    rw [Encoder.pending, hpc] at hp
    refine ⟨h.alone, Or.inr (hsize.resolve_left (by simp [hpc])), hf, ?_⟩
    simpa [Encoder.pending] using hp
  · rename_i hpc
    rw [Encoder.unencoded, hpc] at hf
    rw [Encoder.pending, hpc] at hp
    refine ⟨h.alone, Or.inl ⟨rfl, rfl⟩, ?_, hp⟩
    simpa [Encoder.unencoded] using hf

theorem canceller (h : s.Fifo p codec taken) :
    ({ s with m_ec := s.m_ec.map (·.step p) } : Coder φ β σ ε).Fifo p codec taken := by
  refine ⟨?_, h.size, h.frames, h.payloads⟩
  rw [h.alone]
  rfl

/-- Taking a payload from the queue. -/
theorem getData (h : s.Fifo p codec taken) {b : β} {e : Encoder φ β σ}
    (hg : s.encoder.getData = some (b, e)) :
    ({ s with encoder := e } : Coder φ β σ ε).Fifo p codec (taken ++ [b]) := by
  unfold Encoder.getData at hg
  cases hq : s.encoder.m_in_q with
  | nil => rw [hq] at hg; cases hg
  | cons b' q =>
    rw [hq] at hg
    cases hg
    have hp := h.payloads
    refine ⟨h.alone, h.size, h.frames, ?_⟩
    rw [hp, hq]
    simp [Encoder.pending]

end Coder.Fifo

/-! ## The recorder -/

/-- The socket throws, if the step sends. -/
def SenderInput.throws : SenderInput α → Bool
  | recorder throws => throws
  | _ => false

namespace Sender

variable (a : RecorderArgs) (p : Sound α β σ ε) (s : Sender α β σ ε)

/-- What the step passes to `RtpSocket.send`, whether the socket takes it or throws. -/
def passes (i : SenderInput α) : List β :=
  match i, s.recorder.pc, s.coder.encoder.getData with
  | .recorder _, .sending, some (b, _) => [b]
  | _, _, _ => []

/-- What a history passes to `RtpSocket.send`. -/
def passed (h : List (Machine.Step (Sender α β σ ε) (SenderInput α))) : List β :=
  h.flatMap fun st => st.pre.passes st.input

/-- What of it the socket takes: all, unless it throws. -/
def accepted (h : List (Machine.Step (Sender α β σ ε) (SenderInput α))) : List β :=
  h.flatMap fun st => if st.input.throws then [] else st.pre.passes st.input

/-- A call before its first read, without a canceller. -/
def alone (silence : α) (readpos writepos : ℕ) (muteflag : Bool) (codec : σ)
    (num_send num_recv : ℕ) : Sender α β σ ε :=
  start silence readpos writepos muteflag codec num_send num_recv none

/-- A step sends what it passes, unless the socket throws. -/
theorem step_sent (i : SenderInput α) : (s.step a p i).sent.map (·.payload) =
    s.sent.map (·.payload) ++ if i.throws then [] else s.passes i := by
  have hnil : ∀ s' : Sender α β σ ε, s'.sent = s.sent → s.passes i = [] →
      s'.sent.map (·.payload) =
        s.sent.map (·.payload) ++ if i.throws then [] else s.passes i := by
    intro s' he hp
    rw [he, hp, ite_self, List.append_nil]
  cases i with
  | read count x =>
    refine hnil _ ?_ rfl
    unfold Sender.step Sender.read
    dsimp only
    split_ifs <;> rfl
  | recorder throws =>
    by_cases hpc : s.recorder.pc = .sending
    · simp only [Sender.step, Sender.recorderStep, hpc, Sender.send, passes]
      cases hg : s.coder.encoder.getData with
      | none => simp
      | some r => cases throws <;> simp [SenderInput.throws]
    · refine hnil _ ?_ ?_
      · unfold Sender.step Sender.recorderStep
        dsimp only
        split
        · rfl
        · rfl
        · split_ifs <;> rfl
        · rfl
        · rfl
        · exact absurd ‹_› hpc
      · unfold passes
        split
        · exact absurd ‹_› hpc
        · rfl
  | _ => exact hnil _ rfl rfl

/-- The packets sent carry the payloads that the socket has taken, in their order. -/
theorem sent_eq_accepted {s₀ : Sender α β σ ε} (h₀ : s₀.sent = []) (is : List (SenderInput α)) :
    ((sender a p).run s₀ is).sent.map (·.payload) = accepted ((sender a p).history s₀ is) := by
  induction is using List.reverseRecOn with
  | nil =>
    rw [Machine.run_nil, h₀]
    rfl
  | append_singleton is i ih =>
    have haccepted : accepted ((sender a p).history s₀ (is ++ [i])) =
        accepted ((sender a p).history s₀ is) ++
          if i.throws then [] else ((sender a p).run s₀ is).passes i := by
      rw [Machine.history_append]
      simp [accepted, Machine.history, Machine.stepOf]
    rw [Machine.run_append, haccepted, ← ih]
    exact step_sent a p _ i

/-- The pipeline keeps the order, and the recorder puts only into an idle encoder. -/
structure Fifo (codec : σ) (taken : List β) (s : Sender α β σ ε) : Prop where
  coder : s.coder.Fifo p.toCodecs codec taken
  putting : s.recorder.pc = .putting → s.coder.encoder.leftSize = 0

namespace Fifo

variable {a p s} {codec : σ} {taken : List β}

theorem start (silence : α) (readpos writepos : ℕ) (muteflag : Bool) (codec : σ)
    (num_send num_recv : ℕ) :
    (alone silence readpos writepos muteflag codec num_send num_recv).Fifo p codec [] :=
  ⟨⟨rfl, Or.inl ⟨rfl, rfl⟩, rfl, rfl⟩, fun h => (nomatch h)⟩

theorem encoderStep_put {c : Coder φ β σ ε} {p : Codecs φ β σ ε} :
    (c.encoderStep p).put = c.put := by
  unfold Coder.encoderStep
  split
  · split_ifs <;> rfl
  · unfold Coder.cancel
    split
    · rfl
    · split_ifs <;> rfl
  · rfl
  · rfl
  · rfl

/-- An idle encoder stays idle until the recorder puts a frame. -/
theorem encoderStep_idle {e : Coder φ β σ ε} {p : Codecs φ β σ ε}
    (h : e.Fifo p codec taken) (hi : e.encoder.leftSize = 0) :
    (e.encoderStep p).encoder.leftSize = 0 := by
  unfold Coder.encoderStep
  rcases h.size with ⟨-, hpc⟩ | hn
  · rw [hpc]
    dsimp only
    rw [if_pos (by simp [Encoder.isIdle, hi])]
    exact hi
  · omega

theorem send (h : s.Fifo p codec taken) (hpc : s.recorder.pc = .sending) (throws : Bool) :
    (s.send a throws).Fifo p codec (taken ++ s.passes (.recorder throws)) := by
  unfold Sender.send passes
  rw [hpc]
  cases hg : s.coder.encoder.getData with
  | none =>
    refine ⟨?_, h.putting⟩
    simpa using h.coder
  | some r =>
    obtain ⟨b, e⟩ := r
    dsimp only
    split_ifs
    · exact ⟨h.coder.getData hg, fun h => (nomatch h)⟩
    · exact ⟨h.coder.getData hg, fun h => (nomatch h)⟩

theorem put (h : s.Fifo p codec taken) (hi : s.coder.encoder.leftSize = 0) :
    (s.put a).Fifo p codec taken :=
  ⟨h.coder.putData hi _, fun h => (nomatch h)⟩

/-- Only a step that sends passes anything on. -/
theorem passes_eq_nil {i : SenderInput α} (hn : s.recorder.pc ≠ .sending) : s.passes i = [] := by
  unfold passes
  split
  · exact absurd ‹_› hn
  · rfl

theorem recorderStep (h : s.Fifo p codec taken) (throws : Bool) :
    (s.recorderStep a throws).Fifo p codec (taken ++ s.passes (.recorder throws)) := by
  by_cases hs : s.recorder.pc = .sending
  · rw [Sender.recorderStep, hs]
    exact h.send hs throws
  rw [passes_eq_nil hs, List.append_nil]
  unfold Sender.recorderStep
  split
  · exact h
  · -- the test finds the encoder idle, or the recorder skips the frame
    refine ⟨h.coder, ?_⟩
    intro hpc
    by_cases hi : s.coder.encoder.isIdle = true
    · simpa [Encoder.isIdle] using hi
    · simp [hi] at hpc
  · split_ifs
    · exact h
    · exact h.put (h.putting ‹_›)
  · refine ⟨h.coder, ?_⟩
    intro hpc
    dsimp only at hpc
    split_ifs at hpc
  · refine ⟨h.coder, ?_⟩
    intro hpc
    dsimp only at hpc
    split_ifs at hpc
  · exact absurd ‹_› hs

/-- Only the recorder puts frames, when it has found the encoder idle. -/
theorem step_put {i : SenderInput α} (hpc : s.recorder.pc ≠ .putting) :
    (s.step a p i).coder.put = s.coder.put := by
  unfold Sender.step
  split
  · rfl
  · rfl
  · unfold Sender.read
    split_ifs <;> rfl
  · unfold Sender.recorderStep
    split
    · rfl
    · rfl
    · exact absurd ‹_› hpc
    · rfl
    · rfl
    · unfold Sender.send
      split
      · rfl
      · split_ifs <;> rfl
  · exact encoderStep_put
  · rfl
  · unfold Coder.decoded
    split
    · rfl
    · split_ifs <;> rfl

theorem step (h : s.Fifo p codec taken) (i : SenderInput α) :
    (s.step a p i).Fifo p codec (taken ++ s.passes i) := by
  cases i with
  | recorder throws => exact h.recorderStep throws
  | encoder =>
    rw [show s.passes .encoder = [] from rfl, List.append_nil]
    exact ⟨h.coder.encoderStep, fun hpc => encoderStep_idle h.coder (h.putting hpc)⟩
  | read count x =>
    rw [show s.passes (.read count x) = [] from rfl, List.append_nil]
    unfold Sender.step Sender.read
    dsimp only
    split_ifs
    · exact ⟨h.coder, fun hpc => (nomatch hpc)⟩
    · exact h
  | mute =>
    rw [show s.passes .mute = [] from rfl, List.append_nil]
    exact ⟨h.coder, h.putting⟩
  | demute =>
    rw [show s.passes .demute = [] from rfl, List.append_nil]
    exact ⟨h.coder, h.putting⟩
  | canceller =>
    rw [show s.passes .canceller = [] from rfl, List.append_nil]
    exact ⟨h.coder.canceller, h.putting⟩
  | decoded x =>
    rw [show s.passes (.decoded x) = [] from rfl, List.append_nil]
    unfold Sender.step Coder.decoded
    dsimp only
    rw [h.coder.alone]
    exact h

/-- A step that puts a frame finds every frame before it encoded. -/
theorem all_encoded (h : s.Fifo p codec taken) {i : SenderInput α}
    (hput : (s.step a p i).coder.put ≠ s.coder.put) :
    s.coder.encoded.map (·.samples) = s.coder.put := by
  by_cases hpc : s.recorder.pc = .putting
  · exact h.coder.all_encoded (h.putting hpc)
  · exact absurd (step_put hpc) hput

/-- Every run keeps the order, and puts no frame over another. -/
theorem along (a : RecorderArgs) (p : Sound α β σ ε) (silence : α) (readpos writepos : ℕ)
    (muteflag : Bool) (codec : σ) (num_send num_recv : ℕ) (is : List (SenderInput α)) :
    ((sender a p).run (.alone silence readpos writepos muteflag codec num_send num_recv) is).Fifo p
      codec (passed ((sender a p).history
        (.alone silence readpos writepos muteflag codec num_send num_recv) is)) ∧
    (sender a p).Along (.alone silence readpos writepos muteflag codec num_send num_recv) is
      fun _ st => st.post.coder.put ≠ st.pre.coder.put →
        st.pre.coder.encoded.map (·.samples) = st.pre.coder.put := by
  have h₀ : (.alone silence readpos writepos muteflag codec num_send num_recv :
      Sender α β σ ε).Fifo p codec [] := .start ..
  refine (sender a p).along_inv (I := fun h s => s.Fifo p codec (passed h))
    (C := fun _ _ => True) h₀ ?_ is fun _ _ _ _ => trivial
  intro h s i hs _
  refine ⟨?_, fun hput => hs.all_encoded hput⟩
  have hstep := hs.step (a := a) i
  have hpassed : passed (h ++ [(sender a p).stepOf s i]) = passed h ++ s.passes i := by
    simp [passed, Machine.stepOf]
  rw [hpassed]
  exact hstep

end Fifo

end Sender

/-- **The sending pipeline is FIFO.**  Without a canceller, in every run the payloads passed to
    the socket are the first of the encodings of the frames put, in their order, and a frame
    is put only when all frames put before it have been encoded.  The packets sent carry those
    payloads at which the socket has not thrown. -/
theorem sent_fifo (a : RecorderArgs) (p : Sound α β σ ε) (silence : α) (readpos writepos : ℕ)
    (muteflag : Bool) (codec : σ) (num_send num_recv : ℕ) (is : List (SenderInput α)) :
    Sender.passed ((sender a p).history
        (.alone silence readpos writepos muteflag codec num_send num_recv) is) <+:
      (p.encodeAll codec ((sender a p).run
        (.alone silence readpos writepos muteflag codec num_send num_recv) is).coder.put).2 ∧
    ((sender a p).Along (.alone silence readpos writepos muteflag codec num_send num_recv) is
      fun _ st => st.post.coder.put ≠ st.pre.coder.put →
        st.pre.coder.encoded.map (·.samples) = st.pre.coder.put) ∧
    ((sender a p).run (.alone silence readpos writepos muteflag codec num_send num_recv)
        is).sent.map (·.payload) =
      Sender.accepted ((sender a p).history
        (.alone silence readpos writepos muteflag codec num_send num_recv) is) := by
  obtain ⟨hfifo, halong⟩ := Sender.Fifo.along a p silence readpos writepos muteflag codec num_send
    num_recv is
  exact ⟨hfifo.coder.prefix_put, halong, Sender.sent_eq_accepted a p rfl is⟩

end JaySip
