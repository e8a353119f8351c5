/-
  The numbers of the packets of a call: the sequence number counts the frames taken from the
  encoder, the timestamp only those whose packets the socket took.
-/
import JaySip.Proof.Fifo
import JaySip.Proof.Muting

namespace JaySip

variable {α β σ ε : Type}

namespace Sender

/-! ## What is sent -/

/-- How many packets the step offers to a socket that throws. -/
def refuses (s : Sender α β σ ε) : SenderInput α → ℕ
  | .recorder true => (s.passes (.recorder true)).length
  | _ => 0

/-- How many packets the socket has refused. -/
def refused (h : List (Machine.Step (Sender α β σ ε) (SenderInput α))) : ℕ :=
  (h.map fun st => st.pre.refuses st.input).sum

/-- A packet that was sent, how many frames were taken from the encoder before its own, and
    how many packets the socket had refused before. -/
structure Shipped (β : Type) where
  frame : ℕ
  refused : ℕ
  packet : Packet β

/-- What the step sends behind the history `h`. -/
def ships (h : List (Machine.Step (Sender α β σ ε) (SenderInput α)))
    (st : Machine.Step (Sender α β σ ε) (SenderInput α)) : List (Shipped β) :=
  (st.post.sent.drop st.pre.sent.length).map (Shipped.mk (passed h).length (refused h))

/-- What a history sends behind the history `before`. -/
def shippedAfter (before : List (Machine.Step (Sender α β σ ε) (SenderInput α))) :
    List (Machine.Step (Sender α β σ ε) (SenderInput α)) → List (Shipped β)
  | [] => []
  | st :: h => ships before st ++ shippedAfter (before ++ [st]) h

/-- What a history sends. -/
def shipped (h : List (Machine.Step (Sender α β σ ε) (SenderInput α))) : List (Shipped β) :=
  shippedAfter [] h

theorem shippedAfter_concat (before h : List (Machine.Step (Sender α β σ ε) (SenderInput α)))
    (st : Machine.Step (Sender α β σ ε) (SenderInput α)) :
    shippedAfter before (h ++ [st]) = shippedAfter before h ++ ships (before ++ h) st := by
  induction h generalizing before with
  | nil => simp [shippedAfter]
  | cons st' h ih => simp [shippedAfter, ih]

theorem shipped_concat (h : List (Machine.Step (Sender α β σ ε) (SenderInput α)))
    (st : Machine.Step (Sender α β σ ε) (SenderInput α)) :
    shipped (h ++ [st]) = shipped h ++ ships h st := shippedAfter_concat [] h st

theorem passed_concat (h : List (Machine.Step (Sender α β σ ε) (SenderInput α)))
    (st : Machine.Step (Sender α β σ ε) (SenderInput α)) :
    passed (h ++ [st]) = passed h ++ st.pre.passes st.input := by
  simp [passed]

theorem refused_concat (h : List (Machine.Step (Sender α β σ ε) (SenderInput α)))
    (st : Machine.Step (Sender α β σ ε) (SenderInput α)) :
    refused (h ++ [st]) = refused h + st.pre.refuses st.input := by
  simp [refused]

/-- A step that sends nothing. -/
theorem shipped_of_sent_eq (h : List (Machine.Step (Sender α β σ ε) (SenderInput α)))
    (st : Machine.Step (Sender α β σ ε) (SenderInput α)) (hs : st.post.sent = st.pre.sent) :
    shipped (h ++ [st]) = shipped h := by
  rw [shipped_concat, ships, hs, List.drop_length, List.map_nil, List.append_nil]

/-- A step that sends a packet. -/
theorem shipped_of_sent_concat (h : List (Machine.Step (Sender α β σ ε) (SenderInput α)))
    (st : Machine.Step (Sender α β σ ε) (SenderInput α)) {q : Packet β}
    (hs : st.post.sent = st.pre.sent ++ [q]) :
    shipped (h ++ [st]) = shipped h ++ [⟨(passed h).length, refused h, q⟩] := by
  rw [shipped_concat, ships, hs, List.drop_left, List.map_singleton]

/-! ## Numbers -/

/-- What `time` grows by, as a number. -/
def frameStep (a : RecorderArgs) : ℕ := if a.codectype = 9 then 80 else 160

/-- What a step does to the numbers that passes `bs` to the socket, which refuses `n` of them. -/
inductive Numbers (a : RecorderArgs) (s s' : Sender α β σ ε) : List β → ℕ → Prop where
  | nothing (seqn : s'.recorder.seqn = s.recorder.seqn) (time : s'.recorder.time = s.recorder.time)
      (sent : s'.sent = s.sent) : Numbers a s s' [] 0
  | refused (b : β) (seqn : s'.recorder.seqn = s.recorder.seqn + 1)
      (time : s'.recorder.time = s.recorder.time) (sent : s'.sent = s.sent) : Numbers a s s' [b] 1
  | sent (b : β) (seqn : s'.recorder.seqn = s.recorder.seqn + 1)
      (time : s'.recorder.time = s.recorder.time + a.timeStep)
      (sent : s'.sent = s.sent ++ [⟨s.recorder.seqn, s.recorder.time, b⟩]) : Numbers a s s' [b] 0

theorem refuses_eq_zero {s : Sender α β σ ε} {i : SenderInput α}
    (h : i ≠ .recorder true ∨ s.passes i = []) : s.refuses i = 0 := by
  unfold refuses
  split
  · rcases h with h | h
    · exact absurd rfl h
    · rw [h, List.length_nil]
  · rfl

theorem send_numbers (a : RecorderArgs) {s : Sender α β σ ε} (hpc : s.recorder.pc = .sending)
    (throws : Bool) :
    Numbers a s (s.send a throws) (s.passes (.recorder throws)) (s.refuses (.recorder throws)) := by
  have hpasses : s.passes (.recorder throws) = s.coder.encoder.getData.toList.map (·.1) := by
    unfold passes
    rw [hpc]
    cases s.coder.encoder.getData <;> rfl
  unfold Sender.send
  cases hg : s.coder.encoder.getData with
  | none =>
    rw [hg] at hpasses
    rw [refuses_eq_zero (.inr hpasses), hpasses]
    exact .nothing rfl rfl rfl
  | some r =>
    obtain ⟨b, e⟩ := r
    rw [hg] at hpasses
    rw [hpasses]
    cases throws with
    | true =>
      rw [refuses, hpasses]
      exact .refused b rfl rfl rfl
    | false =>
      rw [refuses_eq_zero (.inl (by simp))]
      exact .sent b rfl rfl rfl

theorem step_numbers (a : RecorderArgs) (p : Sound α β σ ε) (s : Sender α β σ ε)
    (i : SenderInput α) : Numbers a s (s.step a p i) (s.passes i) (s.refuses i) := by
  by_cases hs : s.recorder.pc = .sending ∧ ∃ throws, i = .recorder throws
  · obtain ⟨hpc, throws, rfl⟩ := hs
    rw [Sender.step, Sender.recorderStep, hpc]
    exact send_numbers a hpc throws
  · have hpasses : s.passes i = [] := by
      unfold passes
      split
      · exact absurd ⟨‹_›, _, rfl⟩ hs
      · rfl
    rw [refuses_eq_zero (.inr hpasses), hpasses]
    cases i with
    | read count x =>
      show Numbers a s (s.read a p count x) [] 0
      unfold Sender.read
      split_ifs
      · exact .nothing rfl rfl rfl
      · exact .nothing rfl rfl rfl
    | recorder throws =>
      show Numbers a s (s.recorderStep a throws) [] 0
      unfold Sender.recorderStep
      split
      · exact .nothing rfl rfl rfl
      · exact .nothing rfl rfl rfl
      · split_ifs
        · exact .nothing rfl rfl rfl
        · exact .nothing rfl rfl rfl
      · exact .nothing rfl rfl rfl
      · exact .nothing rfl rfl rfl
      · exact absurd ⟨‹_›, throws, rfl⟩ hs
    | _ => exact .nothing rfl rfl rfl

/-- The numbers of a packet: those of the frames taken, and of the packets sent before it. -/
def Shipped.Numbered (a : RecorderArgs) (x : Shipped β) : Prop :=
  x.packet.sequenceNumber = BitVec.ofNat 32 x.frame ∧
    ∃ k, k + x.refused = x.frame ∧ x.packet.timestamp = BitVec.ofNat 64 (k * frameStep a)

/-- The counters of the recorder, and the packets sent. -/
structure Clock (a : RecorderArgs) (h : List (Machine.Step (Sender α β σ ε) (SenderInput α)))
    (s : Sender α β σ ε) : Prop where
  seqn : s.recorder.seqn = BitVec.ofNat 32 (passed h).length
  time : ∃ k, k + refused h = (passed h).length ∧
    s.recorder.time = BitVec.ofNat 64 (k * frameStep a)
  numbered : ∀ x ∈ shipped h, x.Numbered a
  before : ∀ x ∈ shipped h, x.frame ≤ (passed h).length ∧ x.refused ≤ refused h
  sorted : (shipped h).Pairwise fun x y => x.frame ≤ y.frame ∧ x.refused ≤ y.refused
  sent : (shipped h).map (·.packet) = s.sent
  payload : ∀ x ∈ shipped h, (passed h)[x.frame]? = some x.packet.payload

theorem ofNat_succ_frame (a : RecorderArgs) (k : ℕ) :
    BitVec.ofNat 64 (k * frameStep a) + a.timeStep = BitVec.ofNat 64 ((k + 1) * frameStep a) := by
  rw [Nat.succ_mul, BitVec.ofNat_add]
  unfold RecorderArgs.timeStep frameStep
  split_ifs <;> rfl

namespace Clock

variable {a : RecorderArgs} {p : Sound α β σ ε} {s : Sender α β σ ε}
  {h : List (Machine.Step (Sender α β σ ε) (SenderInput α))}

theorem start (silence : α) (readpos writepos : ℕ) (muteflag : Bool) (codec : σ)
    (num_send num_recv : ℕ) (m_ec : Option (EchoCancellation (Samples α) ε)) :
    Clock a [] (Sender.start silence readpos writepos muteflag codec num_send num_recv m_ec :
      Sender α β σ ε) :=
  ⟨rfl, ⟨0, rfl, by rw [Nat.zero_mul]; rfl⟩, fun _ hx => absurd hx List.not_mem_nil,
    fun _ hx => absurd hx List.not_mem_nil, .nil, rfl, fun _ hx => absurd hx List.not_mem_nil⟩

theorem step (hI : Clock a h s) (i : SenderInput α) :
    Clock a (h ++ [(sender a p).stepOf s i]) (s.step a p i) := by
  obtain ⟨hseqn, ⟨k, hk, htime⟩, hnum, hbefore, hsorted, hsent, hpay⟩ := hI
  have hstep := step_numbers a p s i
  have hpassed : passed (h ++ [(sender a p).stepOf s i]) = passed h ++ s.passes i :=
    passed_concat ..
  have hrefused : refused (h ++ [(sender a p).stepOf s i]) = refused h + s.refuses i :=
    refused_concat ..
  have hkept : (s.step a p i).sent = s.sent →
      shipped (h ++ [(sender a p).stepOf s i]) = shipped h :=
    shipped_of_sent_eq h ((sender a p).stepOf s i)
  have hgrown : ∀ q, (s.step a p i).sent = s.sent ++ [q] →
      shipped (h ++ [(sender a p).stepOf s i]) =
        shipped h ++ [⟨(passed h).length, refused h, q⟩] := fun _ =>
    shipped_of_sent_concat h ((sender a p).stepOf s i)
  -- the packets sent before lie behind the longer history
  have hbefore' : ∀ x ∈ shipped h, x.frame ≤ (passed h ++ s.passes i).length ∧
      x.refused ≤ refused h + s.refuses i := by
    intro x hx
    rw [List.length_append]
    have := hbefore x hx
    omega
  have hpay' : ∀ x ∈ shipped h, (passed h ++ s.passes i)[x.frame]? = some x.packet.payload := by
    intro x hx
    obtain ⟨hlt, -⟩ := List.getElem?_eq_some_iff.1 (hpay x hx)
    rw [List.getElem?_append_left hlt, hpay x hx]
  rw [← hpassed, ← hrefused] at hbefore'
  rw [← hpassed] at hpay'
  generalize s.step a p i = s' at *
  generalize s.passes i = bs at *
  generalize s.refuses i = n at *
  cases hstep with
  | nothing hseqn' htime' hsent' =>
    rw [List.append_nil] at hpassed
    refine ⟨?_, ⟨k, ?_, ?_⟩, ?_, ?_, ?_, ?_, ?_⟩
    · rw [hseqn', hseqn, hpassed]
    · rw [hpassed, hrefused, Nat.add_zero, hk]
    · rw [htime', htime]
    · rwa [hkept hsent']
    · rwa [hkept hsent']
    · rwa [hkept hsent']
    · rw [hkept hsent', hsent, hsent']
    · rwa [hkept hsent']
  | refused b hseqn' htime' hsent' =>
    refine ⟨?_, ⟨k, ?_, ?_⟩, ?_, ?_, ?_, ?_, ?_⟩
    · rw [hseqn', hseqn, hpassed, List.length_append, List.length_singleton, BitVec.ofNat_add]
      rfl
    · rw [hpassed, hrefused, List.length_append, List.length_singleton]
      omega
    · rw [htime', htime]
    · rwa [hkept hsent']
    · rwa [hkept hsent']
    · rwa [hkept hsent']
    · rw [hkept hsent', hsent, hsent']
    · rwa [hkept hsent']
  | sent b hseqn' htime' hsent' =>
    refine ⟨?_, ⟨k + 1, ?_, ?_⟩, ?_, ?_, ?_, ?_, ?_⟩
    · rw [hseqn', hseqn, hpassed, List.length_append, List.length_singleton, BitVec.ofNat_add]
      rfl
    · rw [hpassed, hrefused, List.length_append, List.length_singleton]
      omega
    · rw [htime', htime, ofNat_succ_frame]
    · rw [hgrown _ hsent', List.forall_mem_append, List.forall_mem_singleton]
      exact ⟨hnum, hseqn, k, hk, htime⟩
    · rw [hgrown _ hsent', List.forall_mem_append, List.forall_mem_singleton, hpassed,
        List.length_append, hrefused]
      rw [hpassed, List.length_append, hrefused] at hbefore'
      exact ⟨hbefore', Nat.le_add_right .., Nat.le_add_right ..⟩
    · rw [hgrown _ hsent', List.pairwise_append]
      refine ⟨hsorted, List.pairwise_singleton _ _, ?_⟩
      intro x hx y hy
      rw [List.mem_singleton.1 hy]
      exact hbefore x hx
    · rw [hgrown _ hsent', List.map_append, hsent, hsent', List.map_singleton]
    · rw [hgrown _ hsent', List.forall_mem_append, List.forall_mem_singleton]
      refine ⟨hpay', ?_⟩
      rw [hpassed]
      exact List.getElem?_concat_length

/-- In every run. -/
theorem of_run (a : RecorderArgs) (silence : α) (readpos writepos : ℕ) (muteflag : Bool)
    (codec : σ) (num_send num_recv : ℕ) (m_ec : Option (EchoCancellation (Samples α) ε))
    (is : List (SenderInput α)) :
    Clock a ((sender a p).history
        (.start silence readpos writepos muteflag codec num_send num_recv m_ec) is)
      ((sender a p).run
        (.start silence readpos writepos muteflag codec num_send num_recv m_ec) is) :=
  (sender a p).along_keeps (I := Clock a) (C := fun _ _ => True) (start ..)
    (fun _ _ i hI _ => hI.step i) fun _ _ _ _ => trivial

end Clock

/-! ## Datagrams -/

namespace Shipped

/-- The packet as the socket gets it: its payload of `len` bytes, and its header, in what the
    buffer holds. -/
def datagram (buffer : ℕ → HeadedPacket) (len : ℕ → ℕ) (x : Shipped β) : RtpPacket :=
  (x.packet.fill (len x.frame) (buffer x.frame)).1

variable {a : RecorderArgs} (buffer : ℕ → HeadedPacket) (len : ℕ → ℕ) {x y : Shipped β}

theorem datagram_getSequenceNumber (hx : x.Numbered a) :
    (x.datagram buffer len).getSequenceNumber = x.frame % 2 ^ 16 := by
  rw [datagram, Packet.fill, HeadedPacket.getSequenceNumber_setTimestamp,
    HeadedPacket.getSequenceNumber_setSequenceNumber, hx.1, BitVec.toInt_ofNat', Int.bmod]
  omega

theorem datagram_getTimestamp (hx : x.Numbered a) :
    ∃ k, k + x.refused = x.frame ∧
      (x.datagram buffer len).getTimestamp = k * frameStep a % 2 ^ 32 := by
  obtain ⟨k, hk, ht⟩ := hx.2
  refine ⟨k, hk, ?_⟩
  rw [datagram, Packet.fill, HeadedPacket.getTimestamp_setTimestamp, ht, BitVec.toInt_ofNat',
    Int.bmod]
  omega

/-- `y`, sent behind `x`, has the numbers of a frame so many frames behind that of `x`. -/
def SameClock (a : RecorderArgs) (buffer : ℕ → HeadedPacket) (len : ℕ → ℕ) (x y : Shipped β) :
    Prop :=
  (y.datagram buffer len).getSequenceNumber =
      ((x.datagram buffer len).getSequenceNumber + (y.frame - x.frame)) % 2 ^ 16 ∧
    (y.datagram buffer len).getTimestamp =
      ((x.datagram buffer len).getTimestamp + (y.frame - x.frame) * frameStep a) % 2 ^ 32

/-- The frames between two packets take as long as those sent and those refused. -/
theorem mod_step_iff {k l r r' f f' : ℕ} (step : ℕ) (hk : k + r = f) (hl : l + r' = f')
    (hf : f ≤ f') (hr : r ≤ r') :
    l * step % 2 ^ 32 = (k * step % 2 ^ 32 + (f' - f) * step) % 2 ^ 32 ↔
      2 ^ 32 ∣ (r' - r) * step := by
  have hsum : k * step + (f' - f) * step = l * step + (r' - r) * step := by
    rw [← Nat.add_mul, ← Nat.add_mul]
    congr 1
    omega
  rw [Nat.mod_add_mod, hsum]
  omega

/-- The steps of both kinds of codecs are five times a power of two. -/
theorem two_pow_dvd_mul_step (i j m : ℕ) : 2 ^ (j + i) ∣ m * (5 * 2 ^ i) ↔ 2 ^ j ∣ m := by
  rw [Nat.pow_add, ← Nat.mul_assoc, Nat.mul_dvd_mul_iff_right (Nat.two_pow_pos i)]
  constructor
  · exact fun h => Nat.Coprime.dvd_of_dvd_mul_right (Nat.Coprime.pow_left j (by decide)) h
  · exact fun h => h.mul_right 5

/-- Two packets are on the same clock exactly if the steps of the packets refused between them are a
    multiple of 2^32. -/
theorem sameClock_pair_iff (hx : x.Numbered a) (hy : y.Numbered a) (hf : x.frame ≤ y.frame)
    (hr : x.refused ≤ y.refused) : x.SameClock a buffer len y ↔
      (if a.codectype = 9 then 2 ^ 28 else 2 ^ 27) ∣ y.refused - x.refused := by
  obtain ⟨k, hk, ht⟩ := datagram_getTimestamp buffer len hx
  obtain ⟨l, hl, hu⟩ := datagram_getTimestamp buffer len hy
  rw [SameClock, datagram_getSequenceNumber _ _ hx, datagram_getSequenceNumber _ _ hy, ht, hu,
    and_iff_right (by omega), mod_step_iff _ hk hl hf hr, frameStep]
  split_ifs
  · exact two_pow_dvd_mul_step 4 28 _
  · exact two_pow_dvd_mul_step 5 27 _

end Shipped

end Sender

/-- Without a canceller a packet carries the encoding of the frame it is numbered by. -/
theorem shipped_encoding (a : RecorderArgs) (p : Sound α β σ ε) (silence : α)
    (readpos writepos : ℕ) (muteflag : Bool) (codec : σ) (num_send num_recv : ℕ)
    (is : List (SenderInput α)) {x : Sender.Shipped β}
    (hx : x ∈ Sender.shipped ((sender a p).history
      (.alone silence readpos writepos muteflag codec num_send num_recv) is)) :
    (p.encodeAll codec ((sender a p).run (.alone silence readpos writepos muteflag codec num_send
      num_recv) is).coder.put).2[x.frame]? = some x.packet.payload := by
  have hI := Sender.Clock.of_run (p := p) a silence readpos writepos muteflag codec num_send
    num_recv none is
  have hpre := (Sender.Fifo.along a p silence readpos writepos muteflag codec num_send num_recv
    is).1.coder.prefix_put
  have hpay := hI.payload x hx
  obtain ⟨hlt, -⟩ := List.getElem?_eq_some_iff.1 hpay
  obtain ⟨t, ht⟩ := hpre
  rw [← ht]
  exact (List.getElem?_append_left hlt).trans hpay

/-- **The RTP clock.**  In every run any two packets sent have sequence numbers as far apart as
    their frames; so are their timestamps exactly when the socket has refused a multiple of 2^27
    packets between them, for the codec 9 of 2^28. -/
theorem sameClock_iff (a : RecorderArgs) (p : Sound α β σ ε) (silence : α)
    (readpos writepos : ℕ) (muteflag : Bool) (codec : σ) (num_send num_recv : ℕ)
    (m_ec : Option (EchoCancellation (Samples α) ε)) (buffer : ℕ → HeadedPacket) (len : ℕ → ℕ)
    (is : List (SenderInput α)) :
    (Sender.shipped ((sender a p).history
      (.start silence readpos writepos muteflag codec num_send num_recv m_ec) is)).Pairwise
        (Sender.Shipped.SameClock a buffer len) ↔
    (Sender.shipped ((sender a p).history
      (.start silence readpos writepos muteflag codec num_send num_recv m_ec) is)).Pairwise
        fun x y => (if a.codectype = 9 then 2 ^ 28 else 2 ^ 27) ∣ y.refused - x.refused := by
  have hI := Sender.Clock.of_run (p := p) a silence readpos writepos muteflag codec num_send
    num_recv m_ec is
  have hiff := hI.sorted.imp_of_mem fun hx hy hle =>
    Sender.Shipped.sameClock_pair_iff buffer len (hI.numbered _ hx)
      (hI.numbered _ hy) hle.1 hle.2
  constructor
  · exact fun h => (hiff.and h).imp fun h => h.1.1 h.2
  · exact fun h => (hiff.and h).imp fun h => h.1.2 h.2

namespace Trace

/-- A frame is captured, encoded and passed to the socket. -/
def framePassed (throws : Bool) : List (SenderInput ℤ) :=
  [.read (Fin.last 160) (fun _ => 0), .recorder false, .recorder false,
    .encoder, .encoder, .encoder, .encoder, .encoder,
    .recorder false, .recorder false, .recorder throws]

/-- The buffer of `run`. -/
def buffer : HeadedPacket :=
  ⟨⟨List.replicate 172 0, 12⟩, le_rfl, List.length_replicate.symm ▸ (by omega : 12 ≤ 172)⟩

end Trace

/-- The socket refuses the second packet: the timestamp of the third is that of the second. -/
theorem refused_frame_shifts_clock : ¬ ∀ is : List (SenderInput ℤ),
    (Sender.shipped ((sender Trace.narrowband Trace.alaw).history
      (.start 0 0 0 false () 0 0 none) is)).Pairwise
        (Sender.Shipped.SameClock Trace.narrowband (fun _ => Trace.buffer) fun _ => 160) := by
  intro h
  have hrun := h (Trace.framePassed false ++ Trace.framePassed true ++ Trace.framePassed false)
  revert hrun
  unfold Sender.Shipped.SameClock
  decide +kernel

end JaySip
