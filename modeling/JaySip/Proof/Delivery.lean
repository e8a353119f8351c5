/-
  Delivery: which packets the arrays that the player takes were decoded from.

  All arrays in the queue of the decoder are one and the same, so that an array holds what
  was decoded last when it is taken.
-/
import JaySip.Proof.Payload

namespace JaySip

open Java

variable {σ : Type} {decode : Decode σ} {d : Decoder σ} {s s' : Player σ} {i : PlayerInput}
  {h : List (Machine.Step (Player σ) PlayerInput)} {st : Machine.Step (Player σ) PlayerInput}

/-- How often the decoder has written its array for the player to take. -/
def Decoder.outstanding (d : Decoder σ) : ℕ :=
  d.m_out_q.length + if d.pc = .adding ∨ d.pc = .ended then 1 else 0

/-- The step decodes the `k`-th payload that was put, which lies in the mailbox, and leaves the
    samples that the codec makes of it in the array. -/
def Decodes (decode : Decode σ) (st : Machine.Step (Player σ) PlayerInput) (k : ℕ)
    (samples : List ℤ) : Prop :=
  st.input = .decoder ∧ st.pre.decoder.pc = .waiting ∧ st.pre.decoder.packet = k ∧
    ∃ payload ≠ [], st.pre.put[k - 1]? = some payload ∧ st.pre.decoder.mailbox = payload ∧
      samples = st.pre.decoder.samplesOf decode payload ∧ st.post.decoder.processedData = samples

/-- The `k`-th array that is taken holds what was decoded from the `k`-th packet that was put. -/
def TakesInOrder (decode : Decode σ) (h : List (Machine.Step (Player σ) PlayerInput))
    (st : Machine.Step (Player σ) PlayerInput) : Prop :=
  ∀ t, st.post.track = st.pre.track ++ [t] →
    t.source = st.post.track.length ∧ ∃ st' ∈ h, Decodes decode st' t.source t.samples

/-- When the step takes an array, the decoder has written it once since the last one was
    taken, and no packet up to the one it was decoded from was without a payload. -/
def TakesOnly (st : Machine.Step (Player σ) PlayerInput) : Prop :=
  st.pre.pc = .taking → st.input = .player →
    st.pre.decoder.outstanding = 1 ∧ ∀ b ∈ st.pre.put.take st.pre.decoder.source, b ≠ []

/-! ## Counting packets -/

/-- The packets with a payload. -/
def payloads (put : List (List UInt8)) : ℕ := put.countP (· ≠ [])

/-- Up to the one decoded last, the packets with a payload are the arrays taken and those
    outstanding; behind it there is at most the one in the mailbox, which is the last. -/
structure Counted (decode : Decode σ) (h : List (Machine.Step (Player σ) PlayerInput))
    (s : Player σ) : Prop where
  inv : s.Inv
  packet : s.decoder.packet = s.put.length
  source : s.decoder.source ≤ s.put.length
  taken : payloads (s.put.take s.decoder.source) = s.track.length + s.decoder.outstanding
  mailbox : payloads (s.put.drop s.decoder.source) =
    if s.decoder.pc = .waiting ∧ s.decoder.leftSize ≠ 0 then 1 else 0
  content : s.decoder.leftSize ≠ 0 → s.put.getLast? = some s.decoder.mailbox
  decodes : s.decoder.source ≠ 0 →
    ∃ st ∈ h, Decodes decode st s.decoder.source s.decoder.processedData

theorem payloads_append (l l' : List (List UInt8)) : payloads (l ++ l') = payloads l + payloads l' :=
  List.countP_append

theorem payloads_le (l : List (List UInt8)) : payloads l ≤ l.length := List.countP_le_length

/-- All packets have a payload when there are as many payloads. -/
theorem payloads_eq_length {l : List (List UInt8)} : payloads l = l.length ↔ ∀ b ∈ l, b ≠ [] := by
  rw [payloads, List.countP_eq_length]
  simp

theorem snoc_ne_self {α : Type} (l : List α) (a : α) : l ≠ l ++ [a] := by
  intro h
  simpa using congrArg List.length h

namespace Counted

theorem start {s : Player σ} (h₀ : (player decode).init s) : Counted decode [] s := by
  have hi := Player.inv_init h₀
  obtain ⟨packet, codec, num_recv, m_ec, -, -, rfl⟩ := h₀
  exact ⟨hi, rfl, le_rfl, rfl, rfl, fun hn => absurd rfl hn, fun hn => absurd rfl hn⟩

/-- The history may grow. -/
theorem decodes_snoc (hc : Counted decode h s) (st : Machine.Step (Player σ) PlayerInput) :
    s.decoder.source ≠ 0 →
      ∃ st' ∈ h ++ [st], Decodes decode st' s.decoder.source s.decoder.processedData := by
  intro hn
  obtain ⟨st', hm, hd⟩ := hc.decodes hn
  exact ⟨st', List.mem_append_left _ hm, hd⟩

/-- The decoder writes its array for the packet in the mailbox. -/
theorem wrote (hc : Counted decode h s) (hpc : s.decoder.pc = .waiting) (hn : s.decoder.leftSize ≠ 0) :
    payloads s.put = s.track.length + (s.decoder.m_out_q.length + 1) ∧
      s.decoder.packet ≠ 0 := by
  have ht := hc.taken
  have hm := hc.mailbox
  have happ := payloads_append (s.put.take s.decoder.source) (s.put.drop s.decoder.source)
  rw [List.take_append_drop] at happ
  rw [if_pos ⟨hpc, hn⟩] at hm
  simp only [Decoder.outstanding, hpc, reduceCtorEq, or_self, if_false] at ht
  have hle := payloads_le s.put
  have hp := hc.packet
  constructor <;> omega

/-- A decoder step that leaves the counts alone. -/
theorem sameCount (hc : Counted decode h s) (hi : ({ s with decoder := d } : Player σ).Inv)
    (hp : d.packet = s.decoder.packet) (hs : d.source = s.decoder.source)
    (hx : d.processedData = s.decoder.processedData) (ho : d.outstanding = s.decoder.outstanding)
    (hm : (d.pc = .waiting ∧ d.leftSize ≠ 0) ↔ (s.decoder.pc = .waiting ∧ s.decoder.leftSize ≠ 0))
    (hr : d.leftSize ≠ 0 → d.leftSize = s.decoder.leftSize ∧ d.mailbox = s.decoder.mailbox)
    (st : Machine.Step (Player σ) PlayerInput) :
    Counted decode (h ++ [st]) { s with decoder := d } where
  inv := hi
  packet := hp.trans hc.packet
  source := hs ▸ hc.source
  taken := by
    simp only [hs, ho]
    exact hc.taken
  mailbox := by
    simp only [hs, hm]
    exact hc.mailbox
  content := by
    intro hn
    obtain ⟨hl, hmail⟩ := hr hn
    simp only [hmail]
    exact hc.content (hl ▸ hn)
  decodes := by
    simp only [hs, hx]
    exact hc.decodes_snoc st

/-- The packet in the mailbox is the last one put. -/
theorem last (hc : Counted decode h s) (hn : s.decoder.leftSize ≠ 0) :
    s.put[s.decoder.packet - 1]? = some s.decoder.mailbox ∧ s.decoder.mailbox ≠ [] := by
  refine ⟨?_, ?_⟩
  · rw [hc.packet, ← List.getLast?_eq_getElem?]
    exact hc.content hn
  · have hl : s.decoder.leftSize ≤ s.decoder.rawdata.length := by
      rw [hc.inv.rawdata]
      exact hc.inv.leftSize
    rw [← List.length_pos_iff_ne_nil, Decoder.length_mailbox hl]
    omega

/-- A step that decodes: the array holds what was made of the mailbox. -/
theorem decodedCount (hc : Counted decode h s) (hpc : s.decoder.pc = .waiting)
    (hn : s.decoder.leftSize ≠ 0) (hi : ({ s with decoder := d } : Player σ).Inv)
    (hx : d.processedData = s.decoder.samplesOf decode s.decoder.mailbox)
    (hp : d.packet = s.decoder.packet) (hs : d.source = s.decoder.packet)
    (hq : d.m_out_q = s.decoder.m_out_q) (hl : d.leftSize = s.decoder.leftSize)
    (hr : d.mailbox = s.decoder.mailbox) (hd : d.pc = .adding ∨ d.pc = .ended) :
    Counted decode (h ++ [⟨s, .decoder, { s with decoder := d }⟩]) { s with decoder := d } := by
  obtain ⟨hw, hne⟩ := hc.wrote hpc hn
  have hput : s.decoder.packet = s.put.length := hc.packet
  refine ⟨hi, hp.trans hput, by simp only [hs]; omega, ?_, ?_, ?_, ?_⟩
  · simp only [hs, hput, List.take_length, Decoder.outstanding, hq, if_pos hd]
    exact hw
  · have hnw : ¬ (d.pc = .waiting ∧ d.leftSize ≠ 0) := by
      rintro ⟨h, -⟩
      rcases hd with hd | hd <;> simp [hd] at h
    simp only [hs, hput, List.drop_length]
    rw [if_neg hnw]
    rfl
  · simp only [hl, hr]
    exact hc.content
  · intro _
    obtain ⟨hlast, hnil⟩ := hc.last hn
    refine ⟨_, List.mem_append_right _ (List.mem_singleton_self _), rfl, hpc, hs.symm, _, hnil, ?_,
      rfl, hx, rfl⟩
    simp only [hs]
    exact hlast

theorem decoderStep (hc : Counted decode h s) :
    Counted decode (h ++ [⟨s, .decoder, { s with decoder := s.decoder.step decode }⟩])
      { s with decoder := s.decoder.step decode } := by
  have hl : s.decoder.leftSize ≤ s.decoder.rawdata.length := by
    rw [hc.inv.rawdata]
    exact hc.inv.leftSize
  have hd : Decoder.Steps s.decoder (s.decoder.step decode) := Decoder.steps hl
  have hx (hpc : s.decoder.pc = .waiting) (hn : s.decoder.leftSize ≠ 0) :
      (s.decoder.step decode).processedData = s.decoder.samplesOf decode s.decoder.mailbox :=
    Decoder.step_processedData hpc hn hl
  have hi := hc.inv.decoderStep hd
  generalize s.decoder.step decode = d at hd hx hi
  cases hd with
  | same => exact hc.sameCount hi rfl rfl rfl rfl Iff.rfl (fun _ => ⟨rfl, rfl⟩) _
  | decoded t n ec hpc hn =>
    exact hc.decodedCount hpc hn hi (hx hpc hn) rfl rfl rfl rfl rfl (Or.inl rfl)
  | failed t hpc hn =>
    exact hc.decodedCount hpc hn hi (hx hpc hn) rfl rfl rfl rfl rfl (Or.inr rfl)
  | added hpc =>
    refine hc.sameCount hi rfl rfl rfl ?_ ?_ (fun _ => ⟨rfl, rfl⟩) _
    · simp [Decoder.outstanding, hpc]
    · simp [hpc]
  | idled hpc =>
    refine hc.sameCount hi rfl rfl rfl ?_ ?_ (fun hn => absurd rfl hn) _
    · simp [Decoder.outstanding, hpc]
    · simp [hpc]

/-- A player step that leaves the decoder and what was put and taken alone. -/
theorem playerStep (hc : Counted decode h s) (hi : s'.Inv) (hd : s'.decoder = s.decoder)
    (hp : s'.put = s.put) (ht : s'.track = s.track)
    (st : Machine.Step (Player σ) PlayerInput) : Counted decode (h ++ [st]) s' where
  inv := hi
  packet := by rw [hd, hp, hc.packet]
  source := by rw [hd, hp]; exact hc.source
  taken := by rw [hd, hp, ht]; exact hc.taken
  mailbox := by rw [hd, hp]; exact hc.mailbox
  content := by rw [hd, hp]; exact hc.content
  decodes := by rw [hd]; exact hc.decodes_snoc st

theorem step (hc : Counted decode h s) (i : PlayerInput) :
    Counted decode (h ++ [(player decode).stepOf s i]) (s.step decode i) := by
  rcases eq_or_ne i .decoder with rfl | hne
  · exact hc.decoderStep
  have hm : s.Moves i (s.step decode i) := hc.inv.moves i
  have hi : (s.step decode i).Inv := hc.inv.step i
  unfold Machine.stepOf player
  dsimp only
  generalize s.step decode i = s' at hm hi
  cases hm with
  | same => exact hc.playerStep hi rfl rfl rfl _
  | received datagram =>
    exact hc.playerStep hi (Player.received_decoder _) (Player.received_put _)
      (Player.received_track _) _
  | tested => exact hc.playerStep hi rfl rfl rfl _
  | refused => exact hc.playerStep hi rfl rfl rfl _
  | polled => exact hc.playerStep hi rfl rfl rfl _
  | decoder => exact absurd rfl hne
  | handed d hpc hd =>
    have hz := hc.inv.putting hpc
    have hw := hc.inv.waiting hz
    have hmail : d.mailbox = s.handed := Decoder.putData_mailbox hd
    obtain ⟨-, rawdata, hr, -, rfl⟩ := Decoder.putData_eq_ok hd
    obtain ⟨⟨-, -, hsize, hfit, -⟩, -⟩ := arraycopy_eq_ok.1 hr
    have hlen : s.handed.length = s.rtp_packet.getPayloadLength.toNat := by
      rw [Player.handed, List.length_take, List.length_drop]
      omega
    have hsrc := hc.source
    refine ⟨hi, ?_, ?_, ?_, ?_, ?_, hc.decodes_snoc _⟩
    · simp only [List.length_append, List.length_singleton, hc.packet]
    · simp only [List.length_append, List.length_singleton]
      omega
    · simp only [List.take_append_of_le_length hsrc]
      exact hc.taken
    · have hm := hc.mailbox
      rw [if_neg (fun hn => hn.2 hz)] at hm
      have hone : payloads [s.handed] =
          if s.rtp_packet.getPayloadLength.toNat ≠ 0 then 1 else 0 := by
        rw [← hlen]
        simp [payloads, List.countP_singleton]
      simp only [List.drop_append_of_le_length hsrc, payloads_append, hm, hone, hw, true_and,
        Nat.zero_add]
    · intro _
      rw [List.getLast?_append_of_ne_nil _ (by simp), List.getLast?_singleton, ← hmail]
  | took r q hpc hq =>
    refine ⟨hi, hc.packet, hc.source, ?_, hc.mailbox, hc.content, hc.decodes_snoc _⟩
    have ht := hc.taken
    simp only [Decoder.outstanding, hq, List.length_cons, List.length_append, List.length_nil]
      at ht ⊢
    omega

/-- An array is taken in order exactly when it is the only one outstanding. -/
theorem takesInOrder_iff (hc : Counted decode h s) (i : PlayerInput) :
    TakesInOrder decode h ((player decode).stepOf s i) ↔ TakesOnly ((player decode).stepOf s i) := by
  have hm : s.Moves i (s.step decode i) := hc.inv.moves i
  unfold TakesInOrder TakesOnly Machine.stepOf player
  dsimp only
  generalize s.step decode i = s' at hm
  have silent : s'.track = s.track → (∀ t, s'.track = s.track ++ [t] →
      t.source = s'.track.length ∧ ∃ st' ∈ h, Decodes decode st' t.source t.samples) := by
    intro hs t ht
    exact absurd (hs.symm.trans ht) (snoc_ne_self _ t)
  cases hm with
  | same i hi =>
    refine iff_of_true (silent rfl) ?_
    intro hpc hi'
    rcases hi hi' with h | h <;> simp [hpc] at h
  | received datagram =>
    exact iff_of_true (silent (Player.received_track _)) fun _ h => (nomatch h)
  | tested hpc => exact iff_of_true (silent rfl) fun h => by simp [hpc] at h
  | handed d hpc => exact iff_of_true (silent rfl) fun h => by simp [hpc] at h
  | refused e hpc => exact iff_of_true (silent rfl) fun h => by simp [hpc] at h
  | polled hpc => exact iff_of_true (silent rfl) fun h => by simp [hpc] at h
  | decoder d => exact iff_of_true (silent rfl) fun _ h => (nomatch h)
  | took r q hpc hq =>
    have ht := hc.taken
    have hsrc := hc.source
    have hone : 1 ≤ s.decoder.outstanding := by
      rw [Decoder.outstanding, hq, List.length_cons]
      omega
    have hlen : (s.put.take s.decoder.source).length = s.decoder.source := by
      rw [List.length_take]
      omega
    have hle := payloads_le (s.put.take s.decoder.source)
    have hall := @payloads_eq_length (s.put.take s.decoder.source)
    constructor
    · intro h _ _
      have hs : s.decoder.source = (s.track ++ [_]).length := (h _ rfl).1
      rw [List.length_append, List.length_singleton] at hs
      have hout : s.decoder.outstanding = 1 := by omega
      exact ⟨hout, hall.1 (by omega)⟩
    · intro h t hadd
      obtain ⟨hout, hne⟩ := h hpc rfl
      obtain rfl : (⟨s.decoder.processedData, s.decoder.source⟩ : Played) = t := by simpa using hadd
      have hn := hall.2 hne
      refine ⟨?_, hc.decodes (by omega)⟩
      simp only [List.length_append, List.length_singleton]
      omega

end Counted

/-- **Delivery.**  In exactly the runs in which an array is only taken while it is the only one
    outstanding, the arrays hold the packets that were put, one each and in their order. -/
theorem takesInOrder_along_iff {s₀ : Player σ} (h₀ : (player decode).init s₀)
    (is : List PlayerInput) : (player decode).Along s₀ is (TakesInOrder decode) ↔
      (player decode).Along s₀ is (fun _ => TakesOnly) :=
  (player decode).along_congr (I := Counted decode) (Counted.start h₀) (fun _ _ i hc => hc.step i)
    (fun _ _ i hc => hc.takesInOrder_iff i) is

namespace Trace

/-- A datagram with a sequence number and two payload bytes. -/
def datagram (seq : UInt8) (a b : UInt8) : List UInt8 :=
  [0x80, 0, 0, seq, 0, 0, 0, 0, 0, 0, 0, 0, a, b]

/-- A packet comes, is handed over and decoded. -/
def decodes (datagram : List UInt8) : List PlayerInput :=
  handover datagram ++ [.decoder, .decoder, .decoder]

/-- The player goes back to its socket, when it finds no array to take. -/
def lateDecoder : List PlayerInput :=
  handover (datagram 1 7 9) ++ [.player, .decoder, .decoder, .decoder] ++
    decodes (datagram 2 8 6) ++ [.player]

end Trace

/-- A packet that is decoded and taken. -/
theorem takesInOrder_along_packet : (player (Codec.decode Trace.silent 0)).Along Trace.listening
    (Trace.decodes (Trace.datagram 1 7 9) ++ [.player, .player])
    (TakesInOrder (Codec.decode Trace.silent 0)) := by
  rw [takesInOrder_along_iff Trace.listening_init]
  have hlast : ∀ st : Machine.Step (Player (Natives Unit Unit)) PlayerInput,
      (st.pre.decoder.outstanding = 1 ∧ st.pre.put = [[7, 9]]) → TakesOnly st := by
    rintro st ⟨ho, hp⟩ - -
    refine ⟨ho, ?_⟩
    intro b hb
    have hmem := List.mem_of_mem_take hb
    rw [hp, List.mem_singleton] at hmem
    simp [hmem]
  have hidle : ∀ st : Machine.Step (Player (Natives Unit Unit)) PlayerInput,
      st.pre.pc ≠ .taking → TakesOnly st := fun st hn hpc => absurd hpc hn
  simp only [Trace.decodes, Trace.handover, List.cons_append, List.nil_append, Machine.along_cons]
  refine ⟨hidle _ ?_, hidle _ ?_, hidle _ ?_, hidle _ ?_, hidle _ ?_, hidle _ ?_, hidle _ ?_,
    hlast _ ⟨?_, ?_⟩, Machine.along_nil _ _ _⟩
  all_goals decide +kernel

/-- The second packet is decoded while the array of the first is in the queue: the first array
    that is taken holds the second packet. -/
theorem second_packet_taken_first : ¬ ∀ s₀, (player (Codec.decode Trace.silent 0)).init s₀ → ∀ is,
    (player (Codec.decode Trace.silent 0)).Along s₀ is
      (TakesInOrder (Codec.decode Trace.silent 0)) := by
  intro h
  have hrun := h _ Trace.listening_init (Trace.lateDecoder ++ [.player])
  have hlast := ((Machine.along_snoc _).1 hrun).2
    ⟨((player (Codec.decode Trace.silent 0)).run Trace.listening
      Trace.lateDecoder).decoder.processedData, 2⟩ (by decide +kernel)
  have hsource := hlast.1
  revert hsource
  decide +kernel

end JaySip
