/-
  Steps of the player and of the decoder thread, and what every run of them keeps.
-/
import JaySip.Media.LanAudioPlay
import JaySip.Proof.Bounds

namespace JaySip

open Java

variable {σ : Type} {decode : Decode σ} {d d' : Decoder σ} {s s' : Player σ} {i : PlayerInput}

/-! ## The decoder thread -/

namespace Decoder

/-- What the canceller gets leaves the rest of the decoder alone. -/
theorem cancel_eq (d : Decoder σ) : ∃ n ec, d.cancel = { d with num_recv := n, m_ec := ec } := by
  unfold cancel
  split
  · exact ⟨_, _, rfl⟩
  · split_ifs <;> exact ⟨_, _, rfl⟩

/-- The bytes in the mailbox. -/
def mailbox (d : Decoder σ) : List UInt8 := d.rawdata.take d.leftSize

theorem length_mailbox (hl : d.leftSize ≤ d.rawdata.length) : d.mailbox.length = d.leftSize := by
  rw [mailbox, List.length_take, min_eq_left hl]

/-- `putData` leaves the part of its array in the mailbox. -/
theorem putData_mailbox {data : List UInt8} {offset size : ℤ}
    (h : d.putData data offset size = .ok d') :
    d'.mailbox = (data.drop offset.toNat).take size.toNat := by
  obtain ⟨-, rawdata, hr, -, rfl⟩ := putData_eq_ok h
  exact arraycopy_take hr

/-- What the codec, in its present state, makes of a payload. -/
def samplesOf (decode : Decode σ) (d : Decoder σ) (payload : List UInt8) : List ℤ :=
  (after (decode (List.replicate 12 0 ++ payload) payload.length) (d.codec, d.processedData)).2

/-- What a step of the decoder thread does. -/
inductive Steps (d : Decoder σ) : Decoder σ → Prop
  | same : (d.pc = .waiting ∧ d.leftSize = 0) ∨ d.pc = .ended → Steps d d
  | decoded (t : σ × List ℤ) (n : ℕ) (ec : Option (List (List ℤ))) : d.pc = .waiting →
      d.leftSize ≠ 0 → Steps d { d.decoded t with num_recv := n, m_ec := ec, pc := .adding }
  | failed (t : σ × List ℤ) : d.pc = .waiting → d.leftSize ≠ 0 →
      Steps d { d.decoded t with pc := .ended }
  | added : d.pc = .adding →
      Steps d { d with m_out_q := d.m_out_q ++ [.processedData], pc := .idling }
  | idled : d.pc = .idling → Steps d { d with leftSize := 0, pc := .waiting }

/-- The codec gets the bytes in the mailbox, behind room for the RTP header. -/
theorem decode_eq (hl : d.leftSize ≤ d.rawdata.length) : Decoder.decode decode d =
    onCodec (decode (List.replicate 12 0 ++ d.mailbox) d.mailbox.length) d := by
  have hr : arraycopy d.rawdata 0 (List.replicate (d.leftSize + 12) 0) 12 d.leftSize =
      .ok (List.replicate 12 0 ++ d.mailbox) := by
    refine arraycopy_eq_ok.2 ⟨⟨by omega, by omega, by omega, by omega, ?_⟩, ?_⟩
    · rw [List.length_replicate]
      omega
    · have hroom : (12 + (d.leftSize : ℤ)).toNat = d.leftSize + 12 := by omega
      rw [hroom, List.drop_replicate, Nat.sub_self, List.replicate_zero, List.append_nil,
        Int.toNat_natCast, Int.toNat_zero, List.drop_zero, List.take_replicate, mailbox]
      have htwelve : min (12 : ℤ).toNat (d.leftSize + 12) = 12 := by omega
      rw [htwelve]
  have hget : Decoder.decode decode d = (lift (arraycopy d.rawdata 0
      (List.replicate (d.leftSize + 12) 0) 12 d.leftSize) >>=
        fun raw_temp => onCodec (decode raw_temp d.leftSize)) d := rfl
  rw [hget, hr, length_mailbox hl]
  rfl

/-- A step that decodes leaves what the codec makes of the mailbox in the array. -/
theorem step_processedData (hpc : d.pc = .waiting) (hn : d.leftSize ≠ 0)
    (hl : d.leftSize ≤ d.rawdata.length) :
    (d.step decode).processedData = d.samplesOf decode d.mailbox := by
  have hidle : d.isIdle = false := decide_eq_false hn
  simp only [step, hpc, hidle, Bool.false_eq_true, if_false, decode_eq hl, onCodec]
  unfold samplesOf after
  cases decode (List.replicate 12 0 ++ d.mailbox) d.mailbox.length (d.codec, d.processedData) with
  | ok n t =>
    obtain ⟨_, _, he⟩ := cancel_eq (d.decoded t)
    dsimp only
    rw [he]
    rfl
  | error e t => rfl

theorem steps (hl : d.leftSize ≤ d.rawdata.length) : Steps d (d.step decode) := by
  unfold step
  cases hpc : d.pc with
  | waiting =>
    rcases Nat.eq_zero_or_pos d.leftSize with h | h
    · simp only [isIdle, h, decide_true, if_true]
      exact .same (Or.inl ⟨hpc, h⟩)
    · simp only [isIdle, h.ne', decide_false, Bool.false_eq_true, if_false, decode_eq hl, onCodec]
      cases decode (List.replicate 12 0 ++ d.mailbox) d.mailbox.length
          (d.codec, d.processedData) with
      | ok n t =>
        obtain ⟨n, ec, he⟩ := cancel_eq (d.decoded t)
        dsimp only
        rw [he]
        exact .decoded t n ec hpc h.ne'
      | error e t => exact .failed t hpc h.ne'
  | adding => exact .added hpc
  | idling => exact .idled hpc
  | ended => exact .same (Or.inr hpc)

end Decoder

/-! ## The player -/

namespace Player

/-- What a step does. -/
inductive Moves (s : Player σ) : PlayerInput → Player σ → Prop
  | same (i : PlayerInput) : (i = .player → s.pc = .receiving ∨ s.pc = .ended) → Moves s i s
  | received (datagram : Option (List UInt8)) : s.pc = .receiving →
      Moves s (.receive datagram) (s.received datagram)
  | tested : s.pc = .testing → Moves s .player
      { s with pc := if s.decoder.isIdle then .putting else .polling }
  | handed (d : Decoder σ) : s.pc = .putting →
      s.decoder.putData s.rtp_packet.packet 12 s.rtp_packet.getPayloadLength = .ok d →
      Moves s .player { s with decoder := d, put := s.put ++ [s.handed], pc := .polling }
  | refused (e : JException) : s.pc = .putting →
      s.decoder.putData s.rtp_packet.packet 12 s.rtp_packet.getPayloadLength = .error e →
      Moves s .player { s with pc := .ended }
  | polled : s.pc = .polling → Moves s .player
      { s with pc := if s.decoder.isGetData then .taking else .receiving }
  | took (r : ArrayRef) (q : List ArrayRef) : s.pc = .taking → s.decoder.m_out_q = r :: q →
      Moves s .player { s with
        decoder := { s.decoder with m_out_q := q }
        track := s.track ++ [⟨s.decoder.processedData, s.decoder.source⟩], pc := .receiving }
  | decoder (d : Decoder σ) : Decoder.Steps s.decoder d → Moves s .decoder { s with decoder := d }

/-- A datagram changes the packet, and what the player goes on with. -/
theorem received_cases (s : Player σ) (datagram : Option (List UInt8)) :
    ∃ packet, s.received datagram = { s with rtp_packet := packet } ∨
      ∃ gseq, s.received datagram =
        { s with rtp_packet := packet, currentseq := gseq, pc := .testing } := by
  unfold received
  dsimp only
  split_ifs
  · exact ⟨_, Or.inl rfl⟩
  · exact ⟨_, Or.inr ⟨_, rfl⟩⟩

@[simp] theorem received_decoder (datagram : Option (List UInt8)) :
    (s.received datagram).decoder = s.decoder := by
  obtain ⟨_, h | ⟨_, h⟩⟩ := s.received_cases datagram <;> rw [h]

@[simp] theorem received_put (datagram : Option (List UInt8)) :
    (s.received datagram).put = s.put := by
  obtain ⟨_, h | ⟨_, h⟩⟩ := s.received_cases datagram <;> rw [h]

@[simp] theorem received_track (datagram : Option (List UInt8)) :
    (s.received datagram).track = s.track := by
  obtain ⟨_, h | ⟨_, h⟩⟩ := s.received_cases datagram <;> rw [h]

theorem received_pc (datagram : Option (List UInt8)) :
    (s.received datagram).pc = s.pc ∨ (s.received datagram).pc = .testing := by
  obtain ⟨_, h | ⟨_, h⟩⟩ := s.received_cases datagram
  · exact Or.inl (by rw [h])
  · exact Or.inr (by rw [h])

theorem moves (hl : s.decoder.leftSize ≤ s.decoder.rawdata.length)
    (hputting : s.pc = .putting → s.decoder.pc = .waiting)
    (htaking : s.pc = .taking → s.decoder.m_out_q ≠ []) : Moves s i (s.step decode i) := by
  cases i with
  | receive datagram =>
    rw [step]
    split_ifs with hpc
    · exact .received datagram hpc
    · exact .same _ fun h => (nomatch h)
  | decoder => exact .decoder _ (Decoder.steps hl)
  | player =>
    rw [step, playerStep]
    cases hpc : s.pc with
    | receiving => exact .same _ fun _ => Or.inl hpc
    | testing => exact .tested hpc
    | putting =>
      have hm : s.decoder.holdsMutex = false := by simp [Decoder.holdsMutex, hputting hpc]
      simp only [hm, Bool.false_eq_true, if_false, putData]
      cases hd : s.decoder.putData s.rtp_packet.packet 12 s.rtp_packet.getPayloadLength with
      | ok d => exact .handed d hpc hd
      | error e => exact .refused e hpc hd
    | polling => exact .polled hpc
    | taking =>
      cases hq : s.decoder.m_out_q with
      | nil => exact absurd hq (htaking hpc)
      | cons r q =>
        simp only [getData, Decoder.getData, hq]
        exact .took r q hpc hq
    | ended => exact .same _ fun _ => Or.inr hpc

/-- What the code keeps in every run: the sizes of the arrays, and what the tests of the
    player have shown. -/
structure Inv (s : Player σ) : Prop where
  packet : s.rtp_packet.packet.length = 332
  packet_len : s.rtp_packet.packet_len ≤ 332
  rawdata : s.decoder.rawdata.length = 320
  leftSize : s.decoder.leftSize ≤ 320
  waiting : s.decoder.leftSize = 0 → s.decoder.pc = .waiting
  putting : s.pc = .putting → s.decoder.leftSize = 0
  taking : s.pc = .taking → s.decoder.m_out_q ≠ []

namespace Inv

theorem moves (hs : s.Inv) (i : PlayerInput) : Moves s i (s.step decode i) :=
  Player.moves (by rw [hs.rawdata]; exact hs.leftSize) (fun h => hs.waiting (hs.putting h)) hs.taking

theorem start {packet : RtpPacket} {codec : σ} {num_recv : ℕ} {m_ec : Option (List (List ℤ))}
    (hp : packet.packet.length = 332) (hl : packet.packet_len ≤ 332) :
    (Player.start packet (Decoder.create codec num_recv m_ec)).Inv where
  packet := hp
  packet_len := hl
  rawdata := List.length_replicate
  leftSize := Nat.zero_le _
  waiting := fun _ => rfl
  putting := fun h => (nomatch h)
  taking := fun h => (nomatch h)

/-- The decoder leaves the mailbox to the player while it is empty. -/
theorem decoderStep (hs : s.Inv) (hd : Decoder.Steps s.decoder d) :
    ({ s with decoder := d } : Player σ).Inv := by
  obtain ⟨h₁, h₂, h₃, h₄, h₅, h₆, h₇⟩ := hs
  cases hd with
  | same => exact ⟨h₁, h₂, h₃, h₄, h₅, h₆, h₇⟩
  | decoded t n ec _ hn =>
    exact ⟨h₁, h₂, h₃, h₄, fun h => absurd h hn, fun h => absurd (h₆ h) hn, h₇⟩
  | failed t _ hn => exact ⟨h₁, h₂, h₃, h₄, fun h => absurd h hn, fun h => absurd (h₆ h) hn, h₇⟩
  | added hpc =>
    have hn : s.decoder.leftSize ≠ 0 := by
      intro h
      simp [h₅ h] at hpc
    exact ⟨h₁, h₂, h₃, h₄, fun h => absurd h hn, h₆, fun _ => by simp⟩
  | idled => exact ⟨h₁, h₂, h₃, Nat.zero_le _, fun _ => rfl, fun _ => rfl, h₇⟩

theorem step (hs : s.Inv) (i : PlayerInput) : (s.step decode i).Inv := by
  have hm : s.Moves i (s.step decode i) := hs.moves i
  generalize s.step decode i = s' at hm
  cases hm with
  | same => exact hs
  | decoder d hd => exact hs.decoderStep hd
  | received datagram hpc =>
    unfold received
    cases datagram with
    | none =>
      simp only
      split_ifs
      · exact hs
      · exact ⟨hs.packet, hs.packet_len, hs.rawdata, hs.leftSize, hs.waiting, fun h => (nomatch h),
          fun h => (nomatch h)⟩
    | some d =>
      have hp : (s.rtp_packet.receive d).packet.length = 332 :=
        (RtpPacket.receive_length _ _).trans hs.packet
      have hl : (s.rtp_packet.receive d).packet_len ≤ 332 :=
        hp ▸ RtpPacket.receive_packet_len s.rtp_packet d
      simp only
      split_ifs
      · exact ⟨hp, hl, hs.rawdata, hs.leftSize, hs.waiting, hs.putting, hs.taking⟩
      · exact ⟨hp, hl, hs.rawdata, hs.leftSize, hs.waiting, fun h => (nomatch h),
          fun h => (nomatch h)⟩
  | tested =>
    refine ⟨hs.packet, hs.packet_len, hs.rawdata, hs.leftSize, hs.waiting, ?_, ?_⟩
    · intro h
      by_contra hn
      simp [Decoder.isIdle, hn] at h
    · intro h
      simp only at h
      split_ifs at h
  | handed d _ hd =>
    obtain ⟨-, rawdata, hr, hl, rfl⟩ := Decoder.putData_eq_ok hd
    obtain ⟨⟨-, -, -, -, hfit⟩, -⟩ := arraycopy_eq_ok.1 hr
    refine ⟨hs.packet, hs.packet_len, hl.trans hs.rawdata, ?_, ?_, fun h => (nomatch h),
      fun h => (nomatch h)⟩
    · have := hs.rawdata
      simp only
      omega
    · exact fun _ => hs.waiting (hs.putting ‹_›)
  | refused e => exact ⟨hs.packet, hs.packet_len, hs.rawdata, hs.leftSize, hs.waiting,
      fun h => (nomatch h), fun h => (nomatch h)⟩
  | polled =>
    refine ⟨hs.packet, hs.packet_len, hs.rawdata, hs.leftSize, hs.waiting, ?_, ?_⟩
    · intro h
      simp only at h
      split_ifs at h
    · intro h hn
      have hn' : s.decoder.m_out_q = [] := hn
      simp [Decoder.isGetData, hn'] at h
  | took r q => exact ⟨hs.packet, hs.packet_len, hs.rawdata, hs.leftSize, hs.waiting,
      fun h => (nomatch h), fun h => (nomatch h)⟩

end Inv

theorem inv_init {s : Player σ} (h : (player decode).init s) : s.Inv := by
  obtain ⟨packet, codec, num_recv, m_ec, hp, hl, rfl⟩ := h
  exact Inv.start hp hl

/-! ## The arrays of a call -/

section
variable {γ ψ : Type} {native : Native γ ψ} {n : Natives γ ψ} {code : ℤ}

theorem decoded_ready {d : Decoder (Natives γ ψ)} (hd : d.Ready code) :
    (d.step (Codec.decode native code)).Ready code := by
  have hdec : wp (Decoder.decode (Codec.decode native code))
      (fun _ (d' : Decoder (Natives γ ψ)) => d'.Ready code)
      (fun _ (d' : Decoder (Natives γ ψ)) => d'.Ready code) d := by
    rw [Decoder.decode, wp_bind, wp_get, wp_bind, wp_lift]
    refine ⟨fun raw _ => ?_, fun _ _ => hd⟩
    rw [Decoder.wp_onCodec]
    exact wp_mono Codec.Kept.decode
      (fun _ _ h => ⟨hd.rawdata, h.length.trans hd.processedData, h.isOpen hd.isOpen⟩)
      fun _ _ h => ⟨hd.rawdata, h.length.trans hd.processedData, h.isOpen hd.isOpen⟩
  unfold wp at hdec
  unfold Decoder.step
  cases d.pc with
  | waiting =>
    dsimp only
    split_ifs
    · exact hd
    · cases hx : Decoder.decode (Codec.decode native code) d with
      | ok a d₁ =>
        rw [hx] at hdec
        obtain ⟨m, ec, he⟩ := Decoder.cancel_eq d₁
        dsimp only
        rw [he]
        exact ⟨hdec.rawdata, hdec.processedData, hdec.isOpen⟩
      | error e d₁ =>
        rw [hx] at hdec
        exact ⟨hdec.rawdata, hdec.processedData, hdec.isOpen⟩
  | adding => exact ⟨hd.rawdata, hd.processedData, hd.isOpen⟩
  | idling => exact ⟨hd.rawdata, hd.processedData, hd.isOpen⟩
  | ended => exact hd

/-- In every run of a call the decoder has its arrays and its open codec. -/
theorem run_ready {packet : RtpPacket} {num_recv : ℕ} {m_ec : Option (List (List ℤ))}
    (is : List PlayerInput) : ((player (Codec.decode native code)).run
      (start packet (Decoder.create (Codec.init code n) num_recv m_ec)) is).decoder.Ready code := by
  induction is using List.reverseRecOn with
  | nil => exact Decoder.create_ready
  | append_singleton is i ih =>
    rw [Machine.run_append]
    generalize (player (Codec.decode native code)).run _ is = s at ih
    change (s.step (Codec.decode native code) i).decoder.Ready code
    cases i with
    | receive datagram =>
      rw [step]
      split_ifs
      · rw [received_decoder]
        exact ih
      · exact ih
    | decoder => exact decoded_ready ih
    | player =>
      rw [step, playerStep]
      cases s.pc with
      | putting =>
        dsimp only
        split_ifs
        · exact ih
        · rw [putData]
          split
          · exact ih.putData ‹_›
          · exact ih
      | taking =>
        dsimp only
        rw [getData, Decoder.getData]
        split
        · rename_i r d he
          split at he
          · simp at he
          · cases he
            exact ⟨ih.rawdata, ih.processedData, ih.isOpen⟩
        · exact ih
      | _ => exact ih

end

end Player

end JaySip
