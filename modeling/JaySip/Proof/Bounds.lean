/-
  Array bounds: which payloads the decode path can take.
-/
import JaySip.Media.Decoder

namespace JaySip

open Java

variable {γ ψ σ : Type} {native : Native γ ψ} {n : Natives γ ψ} {enc : List UInt8}
  {lin : List ℤ} {size : ℕ} {code : ℤ}

/-! ## The loops -/

theorem wp_onSamples {α : Type} {x : EStateM JException (List ℤ) α} {s : σ × List ℤ}
    {Q : α → σ × List ℤ → Prop} {E : JException → σ × List ℤ → Prop} :
    wp (Codec.onSamples x) Q E s ↔
      wp x (fun a lin => Q a (s.1, lin)) (fun e lin => E e (s.1, lin)) s.2 := by
  unfold wp Codec.onSamples
  cases x s.2 <;> rfl

section
variable {sample : ℕ → Except JException ℤ} {i : ℕ}

/-- A turn writes sample `i`, when there is a byte for it. -/
theorem wp_decodeByte {Q : List ℤ → Prop} {E : JException → List ℤ → Prop}
    (hs : ∀ b < 256, ∃ s, sample b = .ok s) (hi : i + 12 < enc.length)
    (hlt : ∀ s, i < lin.length → Q (lin.set i s)) (hge : lin.length ≤ i → E .indexOutOfBounds lin) :
    wp (G711.decodeByte sample enc i) (fun _ => Q) E lin := by
  obtain ⟨b, -, hb⟩ := @arrayGet_of_lt _ enc (i + 12) (by omega) (by omega)
  obtain ⟨s, hs⟩ := hs b.toNat b.toNat_lt
  simp only [G711.decodeByte, hb, hs, wp_bind, wp_lift_ok, wp_get]
  rcases Nat.lt_or_ge i lin.length with h | h
  · rw [arraySet_of_lt (by omega) (by omega), wp_lift_ok]
    exact hlt s h
  · rw [arraySet_of_ge (by omega)]
    exact hge h

/-- Bytes that have room become samples. -/
theorem wp_decodeBytes (hs : ∀ b < 256, ∃ s, sample b = .ok s) (he : enc.length = size + 12)
    (hl : size ≤ lin.length) :
    wp (loop size (fun i _ => G711.decodeByte sample enc i) ())
      (fun _ lin' => lin'.length = lin.length) (fun _ _ => False) lin := by
  refine wp_loop (fun _ _ (lin' : List ℤ) => lin'.length = lin.length) rfl ?_
  intro i hi _ lin' hl'
  refine wp_decodeByte hs (by omega) ?_ ?_
  · intro s _
    rw [List.length_set, hl']
  · intro h
    omega

/-- One byte more than there is room for ends the loop. -/
theorem throws_decodeBytes (hs : ∀ b < 256, ∃ s, sample b = .ok s) (he : enc.length = size + 12)
    (hl : lin.length < size) :
    wp (loop size (fun i _ => G711.decodeByte sample enc i) ())
      (fun _ _ => False) (fun _ _ => True) lin := by
  refine wp_loop_throws (fun _ _ (lin' : List ℤ) => lin'.length = lin.length) hl rfl ?_ ?_
  · intro i hi _ lin' hl'
    refine wp_decodeByte hs (by omega) ?_ fun _ => trivial
    intro s _
    rw [List.length_set, hl']
  · intro _ lin' hl'
    refine wp_decodeByte hs (by omega) ?_ fun _ => trivial
    intro s h
    omega

end

/-! ## G.711 -/

theorem a2s_length : G711.a2s.length = 256 := by
  rw [G711.a2s, List.length_map]
  decide +kernel

theorem alaw_sample : ∀ b < 256, ∃ s, arrayGet G711.a2s (b : ℕ) = .ok s := by
  intro b hb
  obtain ⟨s, -, hs⟩ := @arrayGet_of_lt _ G711.a2s b (by omega) (by rw [a2s_length]; omega)
  exact ⟨s, hs⟩

/-- The u-law table has an entry for every byte, and it is a byte. -/
theorem ulaw2alaw_byte : ∀ b < 256, ∃ a < 256, G711.ulaw2alaw b = .ok a := by
  have h : ∀ b : Fin 256, (G711.ulaw2alaw b).toOption.any (· < 256) = true := by decide +kernel
  intro b hb
  have hb' := h ⟨b, hb⟩
  cases hu : G711.ulaw2alaw b with
  | error e => simp [hu, Except.toOption] at hb'
  | ok a =>
    refine ⟨a, ?_, rfl⟩
    simpa [hu, Except.toOption] using hb'

theorem ulaw_sample :
    ∀ b < 256, ∃ s, (do arrayGet G711.a2s ((← G711.ulaw2alaw b : ℕ) : ℤ)) = .ok s := by
  intro b hb
  obtain ⟨a, ha, hu⟩ := ulaw2alaw_byte b hb
  rw [hu, ok_bind]
  exact alaw_sample a ha

theorem decodeUlaw_returns (he : enc.length = size + 12) {s : σ × List ℤ} (h : size ≤ s.2.length) :
    Returns (Codec.decodeUlaw enc size) s := by
  simp only [Returns, Codec.decodeUlaw, wp_bind, wp_onSamples, wp_pure]
  exact wp_mono (wp_decodeBytes ulaw_sample he h) (fun _ _ _ => trivial) fun _ _ hf => hf

theorem decodeUlaw_throws (he : enc.length = size + 12) {s : σ × List ℤ} (h : s.2.length < size) :
    ¬ Returns (Codec.decodeUlaw enc size) s := by
  refine not_returns ?_
  simp only [Codec.decodeUlaw, wp_bind, wp_onSamples, wp_pure]
  exact throws_decodeBytes ulaw_sample he h

theorem decodeAlaw_returns (he : enc.length = size + 12) {s : σ × List ℤ} (h : size ≤ s.2.length) :
    Returns (Codec.decodeAlaw enc size) s := by
  simp only [Returns, Codec.decodeAlaw, wp_bind, wp_onSamples, wp_pure]
  exact wp_mono (wp_decodeBytes alaw_sample he h) (fun _ _ _ => trivial) fun _ _ hf => hf

theorem decodeAlaw_throws (he : enc.length = size + 12) {s : σ × List ℤ} (h : s.2.length < size) :
    ¬ Returns (Codec.decodeAlaw enc size) s := by
  refine not_returns ?_
  simp only [Codec.decodeAlaw, wp_bind, wp_onSamples, wp_pure]
  exact throws_decodeBytes alaw_sample he h

/-! ## Native codecs -/

/-- The native codec of the code is open. -/
def Codec.IsOpen (code : ℤ) (n : Natives γ ψ) : Prop :=
  (code = 101 → 0 < n.speex_open) ∧ (code = 9 → 0 < n.g722_open)

theorem Codec.init_isOpen : Codec.IsOpen code (Codec.init code n) := by
  unfold Codec.init
  constructor
  · rintro rfl
    simp
  · rintro rfl
    simp

/-- The block buffer takes 160 bytes. -/
theorem block_copy (he : enc.length = size + 12) : (size ≤ 160 → ∃ b : List UInt8,
      arraycopy enc 12 (List.replicate 160 0) 0 size = .ok b ∧ b.length = 160) ∧
    (160 < size → arraycopy enc 12 (List.replicate 160 0) 0 size = .error .indexOutOfBounds) := by
  constructor
  · intro h
    obtain ⟨b, hb, hl⟩ := @arraycopy_of_le _ enc (List.replicate 160 0) 12 0 size (by omega) (by omega)
      (by omega) (by omega) (by rw [List.length_replicate]; omega)
    exact ⟨b, hb, hl.trans List.length_replicate⟩
  · intro h
    rw [arraycopy, if_neg]
    rw [List.length_replicate]
    omega

/-- A turn of the G.722 loop writes the next two samples. -/
theorem wp_g722Turn {data : List UInt8} {j : ℕ} {b : γ × List ℤ × ℕ} {s : Natives γ ψ × List ℤ}
    {Q : γ × List ℤ × ℕ → Natives γ ψ × List ℤ → Prop}
    {E : JException → Natives γ ψ × List ℤ → Prop} (hj : j < data.length)
    (hlt : b.2.2 + 1 < b.2.1.length → ∀ c amp, amp.length = b.2.1.length →
      Q (c, amp, b.2.2 + 2) s)
    (hge : b.2.1.length ≤ b.2.2 + 1 → E .indexOutOfBounds s) :
    wp (Codec.g722Turn native data j b) Q E s := by
  obtain ⟨c, -, hc⟩ := @arrayGet_of_lt _ data j (by omega) (by omega)
  simp only [Codec.g722Turn, hc, wp_bind, wp_lift_ok]
  rcases Nat.lt_or_ge b.2.2 b.2.1.length with h | h
  · rw [arraySet_of_lt (by omega) (by omega), wp_lift_ok]
    rcases Nat.lt_or_ge (b.2.2 + 1) b.2.1.length with h' | h'
    · rw [arraySet_of_lt (by omega) (by rw [List.length_set]; omega), wp_bind, wp_lift_ok]
      exact hlt h' _ _ (by simp)
    · rw [arraySet_of_ge (by rw [List.length_set]; omega)]
      exact hge h'
  · rw [arraySet_of_ge (by omega)]
    exact hge (by omega)

/-- Before turn `j` of the G.722 loop `2 * j` samples are written. -/
def G722Inv (j : ℕ) (b : γ × List ℤ × ℕ) (s₀ s : Natives γ ψ × List ℤ) : Prop :=
  b.2.1.length = 160 ∧ b.2.2 = 2 * j ∧ s = s₀

theorem G722Inv.start (c : γ) (s : Natives γ ψ × List ℤ) :
    G722Inv 0 (c, List.replicate 160 0, 0) s s := ⟨List.length_replicate, rfl, rfl⟩

theorem decodeG722_returns {s : Natives γ ψ × List ℤ} (he : enc.length = size + 12)
    (hl : s.2.length = 160) (h : size ≤ 80) : Returns (Codec.decodeG722 native enc size) s := by
  obtain ⟨adpcm, hb, hbl⟩ := (block_copy he).1 (by omega)
  simp only [Returns, Codec.decodeG722, wp_bind, wp_get, wp_ite, wp_pure, hb, wp_lift_ok]
  refine ⟨fun _ => trivial, fun _ => ?_⟩
  refine wp_mono (wp_loop (fun j b s' => G722Inv j b s s') (.start _ s) ?_) ?_ fun _ _ hf => hf
  · rintro j hj b _ ⟨hamp, hout, rfl⟩
    refine wp_g722Turn (by omega) ?_ ?_
    · intro _ c amp ha
      exact ⟨ha.trans hamp, congrArg (· + 2) hout, rfl⟩
    · intro hge
      omega
  · rintro ⟨c, outdata, len⟩ s' ⟨hamp, hout, hs⟩
    have hlen : len = 2 * size := hout
    have hout' : outdata.length = 160 := hamp
    obtain ⟨r, hr, -⟩ := @arraycopy_of_le _ outdata s'.2 0 0 len (by omega) (by omega) (by omega)
      (by omega)      (by rw [hs]; omega)
    simp only [wp_bind, wp_modify, wp_get, hr, wp_lift_ok]
    trivial

theorem decodeG722_throws {s : Natives γ ψ × List ℤ} (he : enc.length = size + 12)
    (ho : 0 < s.1.g722_open) (h : 80 < size) :
    ¬ Returns (Codec.decodeG722 native enc size) s := by
  refine not_returns ?_
  simp only [Codec.decodeG722, wp_bind, wp_get, wp_ite, wp_pure]
  refine ⟨fun hz => absurd hz ho.ne', fun _ => ?_⟩
  rcases Nat.lt_or_ge 160 size with hs | hs
  · rw [(block_copy he).2 hs]
    trivial
  · obtain ⟨adpcm, hb, hbl⟩ := (block_copy he).1 hs
    rw [hb, wp_lift_ok, wp_bind]
    refine wp_mono (wp_loop_throws (fun j b s' => G722Inv j b s s') h (.start _ s) ?_ ?_)
      (fun _ _ hf => hf.elim) fun _ _ he => he
    · rintro j hj b _ ⟨hamp, hout, rfl⟩
      refine wp_g722Turn (by omega) ?_ fun _ => trivial
      intro _ c amp ha
      exact ⟨ha.trans hamp, congrArg (· + 2) hout, rfl⟩
    · rintro b _ ⟨hamp, hout, rfl⟩
      refine wp_g722Turn (by omega) ?_ fun _ => trivial
      intro hlt
      omega

theorem decodeSpeex_returns {s : Natives γ ψ × List ℤ} (he : enc.length = size + 12)
    (hl : s.2.length = 160) (h : size ≤ 160) : Returns (Codec.decodeSpeex native enc size) s := by
  obtain ⟨buffer, hb, -⟩ := (block_copy he).1 h
  simp only [Returns, Codec.decodeSpeex, wp_bind, wp_get, wp_ite, wp_pure, hb, wp_lift_ok, wp_modify]
  refine ⟨fun _ => trivial, fun _ => ?_⟩
  have hf : (List.ofFn (native.speexFrame s.1.speex (buffer.take size)).2).length = 160 :=
    List.length_ofFn
  generalize List.ofFn (native.speexFrame s.1.speex (buffer.take size)).2 = frame at hf ⊢
  obtain ⟨r, hr, -⟩ := @arraycopy_of_le _ frame s.2 0 0 160 (by omega) (by omega) (by omega)
    (by omega) (by omega)
  rw [hr]
  trivial

theorem decodeSpeex_throws {s : Natives γ ψ × List ℤ} (he : enc.length = size + 12)
    (ho : 0 < s.1.speex_open) (h : 160 < size) :
    ¬ Returns (Codec.decodeSpeex native enc size) s := by
  refine not_returns ?_
  simp only [Codec.decodeSpeex, wp_bind, wp_get, wp_ite, wp_pure]
  refine ⟨fun hz => absurd hz ho.ne', fun _ => ?_⟩
  rw [(block_copy he).2 h]
  trivial

/-! ## What decoding keeps -/

/-- The array has its length, and the codecs are as open as they were. -/
structure Codec.Kept (s s' : Natives γ ψ × List ℤ) : Prop where
  length : s'.2.length = s.2.length
  g722_open : s'.1.g722_open = s.1.g722_open
  speex_open : s'.1.speex_open = s.1.speex_open

namespace Codec.Kept

variable {s s' : Natives γ ψ × List ℤ}

theorem refl (s : Natives γ ψ × List ℤ) : Kept s s := ⟨rfl, rfl, rfl⟩

theorem isOpen (hk : Kept s s') (ho : Codec.IsOpen code s.1) : Codec.IsOpen code s'.1 :=
  ⟨fun h => hk.speex_open ▸ ho.1 h, fun h => hk.g722_open ▸ ho.2 h⟩

theorem loop {sample : ℕ → Except JException ℤ} :
    wp (Codec.onSamples (Java.loop size (fun i _ => G711.decodeByte sample enc i) ()))
      (fun _ => Kept s) (fun _ => Kept s) s := by
  rw [wp_onSamples]
  have hloop : wp (Java.loop size (fun i _ => G711.decodeByte sample enc i) ())
      (fun _ (lin' : List ℤ) => lin'.length = s.2.length)
      (fun _ lin' => lin'.length = s.2.length) s.2 := by
    refine wp_loop (fun _ _ (lin' : List ℤ) => lin'.length = s.2.length) rfl ?_
    intro i _ _ lin' hl
    simp only [G711.decodeByte, wp_bind, wp_lift, wp_get]
    refine ⟨fun _ _ => ⟨fun _ _ => ⟨fun r hr => ?_, fun _ _ => hl⟩, fun _ _ => hl⟩, fun _ _ => hl⟩
    rw [arraySet] at hr
    split_ifs at hr
    cases hr
    exact (List.length_set).trans hl
  exact wp_mono hloop (fun _ _ h => ⟨h, rfl, rfl⟩) fun _ _ h => ⟨h, rfl, rfl⟩

theorem copy {outdata lin : List ℤ} {len : ℤ} {n : Natives γ ψ}
    (h : arraycopy outdata 0 s.2 0 len = .ok lin) (hg : n.g722_open = s.1.g722_open)
    (hs : n.speex_open = s.1.speex_open) : Kept s (n, lin) := by
  obtain ⟨⟨h₀, h₁, h₂, h₃, h₄⟩, -⟩ := arraycopy_eq_ok.1 h
  obtain ⟨r, hr, hl⟩ := arraycopy_of_le h₀ h₁ h₂ h₃ h₄
  exact ⟨Except.ok.inj (h.symm.trans hr) ▸ hl, hg, hs⟩

theorem decodeG722 :
    wp (Codec.decodeG722 native enc size) (fun _ => Kept s) (fun _ => Kept s) s := by
  simp only [Codec.decodeG722, wp_bind, wp_get, wp_ite, wp_pure, wp_lift]
  refine ⟨fun _ => refl s, fun _ => ⟨fun data _ => ?_, fun _ _ => refl s⟩⟩
  have hloop : wp (Java.loop size (Codec.g722Turn native data) (s.1.g722, List.replicate 160 0, 0))
      (fun _ s' => s' = s) (fun _ => Kept s) s := by
    refine wp_loop (fun _ _ s' => s' = s) rfl ?_
    intro i _ b s' hs'
    rw [hs']
    simp only [Codec.g722Turn, wp_bind, wp_lift, wp_pure]
    exact ⟨fun _ _ => ⟨fun _ _ => ⟨fun _ _ => trivial, fun _ _ => refl s⟩, fun _ _ => refl s⟩,
      fun _ _ => refl s⟩
  refine wp_mono hloop ?_ fun _ _ h => h
  rintro ⟨c, outdata, len⟩ s' hs'
  rw [hs']
  simp only [wp_bind, wp_modify, wp_get, wp_lift]
  exact ⟨fun lin hl => copy hl rfl rfl, fun _ _ => ⟨rfl, rfl, rfl⟩⟩

theorem decodeSpeex :
    wp (Codec.decodeSpeex native enc size) (fun _ => Kept s) (fun _ => Kept s) s := by
  simp only [Codec.decodeSpeex, wp_bind, wp_get, wp_ite, wp_pure, wp_lift, wp_modify]
  refine ⟨fun _ => refl s, fun _ => ⟨fun buffer _ => ?_, fun _ _ => refl s⟩⟩
  exact ⟨fun lin hl => copy hl rfl rfl, fun _ _ => ⟨rfl, rfl, rfl⟩⟩

theorem decode : wp (Codec.decode native code enc size) (fun _ => Kept s) (fun _ => Kept s) s := by
  unfold Codec.decode
  split_ifs
  · exact decodeSpeex
  · rw [Codec.decodeUlaw, wp_bind]
    exact loop
  · rw [Codec.decodeAlaw, wp_bind]
    exact loop
  · exact decodeG722
  · exact refl s

end Codec.Kept

/-! ## The decoder -/

/-- The payload bytes that the arrays and buffers of a codec have room for. -/
def Codec.room (code : ℤ) : ℕ := if code = 9 then 80 else 160

theorem Codec.decode_returns_iff {s : Natives γ ψ × List ℤ} (hc : code ∈ [0, 8, 9, 101])
    (ho : Codec.IsOpen code s.1) (he : enc.length = size + 12) (hl : s.2.length = 160) :
    Returns (Codec.decode native code enc size) s ↔ size ≤ Codec.room code := by
  rw [← not_iff_not, Nat.not_le]
  simp only [List.mem_cons, List.not_mem_nil, or_false] at hc
  constructor
  · intro hn
    by_contra hle
    rw [Nat.not_lt] at hle
    refine hn ?_
    rcases hc with rfl | rfl | rfl | rfl
    · exact decodeUlaw_returns he (hl.symm ▸ hle)
    · exact decodeAlaw_returns he (hl.symm ▸ hle)
    · exact decodeG722_returns he hl hle
    · exact decodeSpeex_returns he hl hle
  · intro hlt
    rcases hc with rfl | rfl | rfl | rfl
    · exact decodeUlaw_throws he (hl.symm ▸ hlt)
    · exact decodeAlaw_throws he (hl.symm ▸ hlt)
    · exact decodeG722_throws he (ho.2 rfl) hlt
    · exact decodeSpeex_throws he (ho.1 rfl) hlt

namespace Decoder

variable {d d' : Decoder (Natives γ ψ)}

/-- The arrays of a decoder for the code have their sizes, and the codec is open. -/
structure Ready (d : Decoder (Natives γ ψ)) (code : ℤ) : Prop where
  rawdata : d.rawdata.length = 320
  processedData : d.processedData.length = 160
  isOpen : Codec.IsOpen code d.codec

theorem create_ready {num_recv : ℕ} {m_ec : Option (List (List ℤ))} :
    (create (Codec.init code n) num_recv m_ec).Ready code :=
  ⟨List.length_replicate, List.length_replicate, Codec.init_isOpen⟩

/-- What `putData` leaves in the mailbox. -/
theorem putData_eq_ok {d d' : Decoder σ} {data : List UInt8} {offset size : ℤ}
    (h : d.putData data offset size = .ok d') : 0 ≤ size ∧ ∃ rawdata,
      arraycopy data offset d.rawdata 0 size = .ok rawdata ∧
      rawdata.length = d.rawdata.length ∧
      d' = { d with rawdata := rawdata, leftSize := size.toNat, packet := d.packet + 1 } := by
  rw [putData] at h
  cases hr : arraycopy data offset d.rawdata 0 size with
  | error e => simp [hr] at h
  | ok rawdata =>
    obtain ⟨⟨h₀, h₁, h₂, hs, hd⟩, -⟩ := arraycopy_eq_ok.1 hr
    obtain ⟨r, hr', hl⟩ := arraycopy_of_le h₀ h₁ h₂ hs hd
    rw [hr, ok_bind] at h
    cases h
    exact ⟨h₂, rawdata, rfl, Except.ok.inj (hr.symm.trans hr') ▸ hl, rfl⟩

theorem Ready.putData {data : List UInt8} {offset size : ℤ} (hd : d.Ready code)
    (h : d.putData data offset size = .ok d') : d'.Ready code := by
  obtain ⟨-, rawdata, -, hl, rfl⟩ := putData_eq_ok h
  exact ⟨hl.trans hd.rawdata, hd.processedData, hd.isOpen⟩

theorem wp_onCodec {α : Type} {x : EStateM JException (σ × List ℤ) α} {d : Decoder σ}
    {Q : α → Decoder σ → Prop} {E : JException → Decoder σ → Prop} :
    wp (onCodec x) Q E d ↔
      wp x (fun a s => Q a (d.decoded s)) (fun e s => E e (d.decoded s))
        (d.codec, d.processedData) := by
  unfold wp onCodec
  cases x (d.codec, d.processedData) <;> rfl

/-- The copy in front of the decoding fits, and the decoding decides. -/
theorem decode_returns_iff {d : Decoder σ} {decode : Decode σ} (hl : d.leftSize ≤ d.rawdata.length) :
    ∃ raw_temp : List UInt8, raw_temp.length = d.leftSize + 12 ∧
      (Returns (Decoder.decode decode) d ↔
        Returns (decode raw_temp d.leftSize) (d.codec, d.processedData)) := by
  obtain ⟨raw_temp, hr, hlen⟩ := @arraycopy_of_le _ d.rawdata (List.replicate (d.leftSize + 12) 0)
    0 12 d.leftSize (by omega) (by omega) (by omega) (by omega)
    (by rw [List.length_replicate]; omega)
  refine ⟨raw_temp, by rw [hlen, List.length_replicate], ?_⟩
  rw [Returns, Decoder.decode, wp_bind, wp_get, hr, wp_bind, wp_lift_ok, wp_onCodec]
  rfl

/-- The packet in the mailbox decides whether its decoding stays in range. -/
theorem Ready.returns_iff (hc : code ∈ [0, 8, 9, 101]) (hd : d.Ready code)
    (hl : d.leftSize ≤ 320) :
    Returns (Decoder.decode (Codec.decode native code)) d ↔ d.leftSize ≤ Codec.room code := by
  obtain ⟨raw_temp, hlen, hiff⟩ := @decode_returns_iff _ d (Codec.decode native code)
    (by rw [hd.rawdata]; exact hl)
  rw [hiff, Codec.decode_returns_iff hc hd.isOpen hlen hd.processedData]

/-- The mailbox of a decoder holds the bytes of the packet that was put. -/
theorem Ready.leftSize {data : List UInt8} {offset size : ℤ} (hd : d.Ready code)
    (hp : d.putData data offset size = .ok d') : (d'.leftSize : ℤ) = size ∧ d'.leftSize ≤ 320 := by
  obtain ⟨hs, rawdata, hr, hl, rfl⟩ := putData_eq_ok hp
  obtain ⟨⟨-, -, -, -, hfit⟩, -⟩ := arraycopy_eq_ok.1 hr
  rw [hd.rawdata] at hfit
  exact ⟨Int.toNat_of_nonneg hs, by simp only; omega⟩

/-- **Array bounds of the decode path.**  A packet that `putData` takes is decoded inside all
    arrays and native buffers exactly when its payload fits: 80 bytes for G.722, which makes
    two samples of each, and 160 bytes for the other codecs. -/
theorem decode_inRange_iff {data : List UInt8} {offset size : ℤ} (hc : code ∈ [0, 8, 9, 101])
    (hd : d.Ready code) (hp : d.putData data offset size = .ok d') :
    Returns (Decoder.decode (Codec.decode native code)) d' ↔ size ≤ Codec.room code := by
  obtain ⟨hs, hl⟩ := hd.leftSize hp
  rw [(hd.putData hp).returns_iff hc hl]
  omega

end Decoder

namespace Trace

/-- Native codecs that are never asked. -/
def silent : Native Unit Unit where
  g722Byte c _ := (c, 0, 0)
  speexFrame c _ := (c, fun _ => 0)

/-- A new u-law decoder. -/
def decoder : Decoder (Natives Unit Unit) :=
  Decoder.create (Codec.init 0 ⟨0, (), 0, ()⟩) 0 none

theorem decoder_ready : decoder.Ready 0 := Decoder.create_ready

theorem decoder_putData {n : ℕ} (h : n ≤ 320) :
    ∃ d, decoder.putData (List.replicate n 0) 0 n = .ok d := by
  have hl := decoder_ready.rawdata
  obtain ⟨r, hr, -⟩ := @arraycopy_of_le UInt8 (List.replicate n 0) decoder.rawdata 0 0 n (by omega)
    (by omega) (by omega) (by rw [List.length_replicate]; omega) (by omega)
  exact ⟨_, by rw [Decoder.putData, hr]; rfl⟩

end Trace

/-- A u-law packet of 160 bytes. -/
theorem decode_inRange_packet : ∃ d, Trace.decoder.putData (List.replicate 160 0) 0 160 = .ok d ∧
    Returns (Decoder.decode (Codec.decode Trace.silent 0)) d := by
  obtain ⟨d, hd⟩ := @Trace.decoder_putData 160 (by omega)
  exact ⟨d, hd, (Decoder.decode_inRange_iff (by decide) Trace.decoder_ready hd).2 (by decide)⟩

/-- A u-law packet of 200 bytes runs out of the array of samples. -/
theorem decode_outOfRange : ¬ ∀ (d d' : Decoder (Natives Unit Unit)) (data : List UInt8)
    (offset size : ℤ), d.Ready 0 → d.putData data offset size = .ok d' →
      Returns (Decoder.decode (Codec.decode Trace.silent 0)) d' := by
  intro h
  obtain ⟨d, hd⟩ := @Trace.decoder_putData 200 (by omega)
  have hr := h _ _ _ _ _ Trace.decoder_ready hd
  obtain ⟨hs, hl⟩ := Trace.decoder_ready.leftSize hd
  rw [(Trace.decoder_ready.putData hd).returns_iff (by decide) hl] at hr
  have hroom : Codec.room 0 = 160 := rfl
  omega

end JaySip
