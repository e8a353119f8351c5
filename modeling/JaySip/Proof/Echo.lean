/-
  Echo cancellation: which frames the encoder encodes.

  A frame that the canceller has not finished in time is encoded raw, and its copy stays in
  the canceller, where the next frame finds it.
-/
import JaySip.Media.Encoder
import Mathlib.Data.Int.Notation

namespace JaySip

variable {φ β σ ε : Type} {p : Codecs φ β σ ε} {s s' : Coder φ β σ ε}
  {ec : EchoCancellation φ ε} {f : Frame φ}

/-! ## Frames -/

/-- A frame with a number is the one that was put under it, or its copy without echo. -/
def Frame.Stems (p : Codecs φ β σ ε) (put : List φ) (f : Frame φ) : Prop :=
  ∀ n, f.number = some n → ∃ x, put[n]? = some x ∧
    ((f.cancelled = false ∧ f.samples = x) ∨
      (f.cancelled = true ∧ ∃ e, f.samples = (p.echocapture e x).2))

theorem Frame.Stems.snoc {put : List φ} (h : f.Stems p put) (x : φ) : f.Stems p (put ++ [x]) := by
  intro n hn
  obtain ⟨y, hy, hf⟩ := h n hn
  have hlt : n < put.length := by
    by_contra hge
    rw [List.getElem?_eq_none (by omega)] at hy
    simp at hy
  exact ⟨y, by rw [List.getElem?_append_left hlt, hy], hf⟩

/-- The frames encoded so far are the first ones put, in their order, each raw or cancelled. -/
def Coder.InOrder (p : Codecs φ β σ ε) (s : Coder φ β σ ε) : Prop :=
  s.encoded.map (·.number) = (List.range s.encoded.length).map some ∧
    ∀ f ∈ s.encoded, f.Stems p s.put

/-- When the encoder finds a frame in the canceller, the one it has just put in is the only
    one there. -/
def TakesOwn (st : Machine.Step (Coder φ β σ ε) (CoderInput φ)) : Prop :=
  ∀ ec, st.input = .encoder → st.pre.encoder.pc = .encoding true → st.pre.m_ec = some ec →
    ec.m_out_q = [] ∨ (ec.m_out_q.length = 1 ∧ ec.m_cap_q = [])

/-! ## The canceller -/

namespace EchoCancellation

/-- The numbers of the frames inside, the oldest first. -/
def numbers (ec : EchoCancellation φ ε) : List (Option ℕ) :=
  (ec.m_out_q ++ ec.m_cap_q).map (·.number)

/-- The captured frames inside that have a number are raw. -/
structure Holds (p : Codecs φ β σ ε) (put : List φ) (ec : EchoCancellation φ ε) : Prop where
  captured : ∀ f ∈ ec.m_cap_q, f.Stems p put ∧ (f.number ≠ none → f.cancelled = false)
  ready : ∀ f ∈ ec.m_out_q, f.Stems p put

theorem capture_numbers (p : Codecs φ β σ ε) (ec : EchoCancellation φ ε) :
    (ec.capture p).numbers = ec.numbers := by
  unfold capture
  split_ifs
  · rfl
  · cases hq : ec.m_cap_q with
    | nil => rfl
    | cons f q => simp [numbers, hq]

theorem playback_numbers (p : Codecs φ β σ ε) (ec : EchoCancellation φ ε) :
    (ec.playback p).numbers = ec.numbers := by
  unfold playback
  split_ifs
  · rfl
  · cases hq : ec.m_play_q <;> rfl

/-- A turn of the canceller neither loses nor reorders frames. -/
theorem step_numbers (p : Codecs φ β σ ε) (ec : EchoCancellation φ ε) :
    (ec.step p).numbers = ec.numbers := by
  unfold step
  split_ifs
  · rfl
  · exact (playback_numbers p _).trans (capture_numbers p ec)

namespace Holds

variable {put : List φ}

theorem capture (h : ec.Holds p put) : (ec.capture p).Holds p put := by
  unfold EchoCancellation.capture
  split_ifs
  · exact h
  · cases hq : ec.m_cap_q with
    | nil => exact h
    | cons f q =>
      have hcap := h.captured
      rw [hq, List.forall_mem_cons] at hcap
      refine ⟨hcap.2, ?_⟩
      intro g hg
      rcases List.mem_append.1 hg with hg | hg
      · exact h.ready g hg
      · rw [List.mem_singleton.1 hg]
        intro n hn
        obtain ⟨x, hx, hraw | ⟨hc, -⟩⟩ := hcap.1.1 n hn
        · exact ⟨x, hx, Or.inr ⟨rfl, ec.speex_echo, by rw [hraw.2]⟩⟩
        · have hf : f.number ≠ none := by simp [show f.number = some n from hn]
          simp [hcap.1.2 hf] at hc

theorem playback (h : ec.Holds p put) : (ec.playback p).Holds p put := by
  unfold EchoCancellation.playback
  split_ifs
  · exact h
  · cases ec.m_play_q <;> exact ⟨h.captured, h.ready⟩

theorem step (h : ec.Holds p put) : (ec.step p).Holds p put := by
  unfold EchoCancellation.step
  split_ifs
  · exact h
  · exact ⟨h.capture.playback.captured, h.capture.playback.ready⟩

theorem snoc (h : ec.Holds p put) (x : φ) : ec.Holds p (put ++ [x]) :=
  ⟨fun f hf => ⟨(h.captured f hf).1.snoc x, (h.captured f hf).2⟩,
    fun f hf => (h.ready f hf).snoc x⟩

theorem putData (h : ec.Holds p put) {n : ℕ} (hf : f.Stems p put) (hc : f.cancelled = false) :
    (ec.putData true f n).Holds p put := by
  refine ⟨?_, h.ready⟩
  intro g hg
  rcases List.mem_append.1 hg with hg | hg
  · exact h.captured g hg
  · rw [List.mem_singleton.1 hg]
    exact ⟨hf, fun _ => hc⟩

end Holds

end EchoCancellation

/-! ## The encoder -/

/-- The encoder has a frame that it has not yet encoded. -/
def Encoder.inHand (e : Encoder φ β σ) : Bool :=
  match e.pc with
  | .waiting => ¬ e.leftSize = 0
  | .cancelling => true
  | .encoding _ => true
  | .adding _ => false
  | .idling => false

/-- Of the frames in the canceller only the newest can be one that comes next: the one in
    hand, once that has been put in. -/
structure Queued (p : Codecs φ β σ ε) (s : Coder φ β σ ε) (ec : EchoCancellation φ ε) : Prop where
  holds : ec.Holds p s.put
  before : s.encoder.pc ≠ .encoding true → ∀ n, some n ∈ ec.numbers → n < s.encoded.length
  polling : s.encoder.pc = .encoding true → ∃ l, ec.numbers = l ++ [some s.encoded.length] ∧
    ∀ n, some n ∈ l → n < s.encoded.length

/-- Every frame put is encoded under its turn before the next one is put. -/
structure Coder.Inv (p : Codecs φ β σ ε) (s : Coder φ β σ ε) : Prop where
  leftSize : s.encoder.leftSize = 0 → s.encoder.pc = .waiting
  count : s.put.length = s.encoded.length + if s.encoder.inHand then 1 else 0
  raw : s.encoder.inHand = true → s.encoder.rawdata.number = some s.encoded.length ∧
    s.encoder.rawdata.cancelled = false ∧ s.encoder.rawdata.Stems p s.put
  output : s.encoder.pc = .cancelling ∨ (∃ b, s.encoder.pc = .encoding b) →
    s.encoder.output = s.encoder.rawdata
  stems : ∀ f ∈ s.encoded, f.Stems p s.put
  canceller : ∀ ec, s.m_ec = some ec → Queued p s ec

namespace Coder.Inv

theorem start {s : Coder φ β σ ε} (h : (coder p).init s) : s.Inv p := by
  obtain ⟨codec, silence, num_send, num_recv, m_ec, rfl, hnone⟩ := h
  refine ⟨fun _ => rfl, rfl, fun h => (nomatch h), ?_, ?_, ?_⟩
  · rintro (h | ⟨b, h⟩) <;> exact nomatch h
  · intro f hf
    exact absurd hf (List.not_mem_nil)
  · intro ec hec
    have hec' : ∀ f ∈ ec.m_out_q ++ ec.m_cap_q, ∀ n, f.number ≠ some n := by
      intro f hf n hn
      simp [hnone ec hec f hf] at hn
    refine ⟨⟨?_, ?_⟩, ?_, fun h => (nomatch h)⟩
    · intro f hf
      have hf' := List.mem_append_right ec.m_out_q hf
      exact ⟨fun n hn => absurd hn (hec' f hf' n), fun hn => absurd (hnone ec hec f hf') hn⟩
    · exact fun f hf n hn => absurd hn (hec' f (List.mem_append_left _ hf) n)
    · intro _ n hn
      obtain ⟨f, hf, hfn⟩ := List.mem_map.1 hn
      exact absurd hfn (hec' f hf n)

theorem putData (hs : s.Inv p) (hi : s.encoder.leftSize = 0) (x : φ) :
    (s.putData x).Inv p := by
  have hpc := hs.leftSize hi
  have hcount : s.put.length = s.encoded.length := by
    simpa [Encoder.inHand, hpc, hi] using hs.count
  have hhand : (s.putData x).encoder.inHand = true := by
    simp [Coder.putData, Encoder.putData, Encoder.inHand, hpc]
  have hnext : (s.putData x).encoder.rawdata.Stems p (s.putData x).put := by
    rintro n ⟨⟩
    exact ⟨x, by simp [Coder.putData], Or.inl ⟨rfl, rfl⟩⟩
  refine ⟨fun _ => hpc, ?_, fun _ => ⟨congrArg some hcount, rfl, hnext⟩, ?_, ?_, ?_⟩
  · rw [hhand]
    simp [Coder.putData, hcount]
  · rintro (h | ⟨b, h⟩)
    · exact absurd (hpc.symm.trans h) (by simp)
    · exact absurd (hpc.symm.trans h) (by simp)
  · intro f hf
    exact (hs.stems f hf).snoc x
  · intro ec hec
    have hq := hs.canceller ec hec
    exact ⟨hq.holds.snoc x, hq.before, hq.polling⟩

/-- Only the encoder changes, and the canceller has not the frame in hand. -/
theorem queued (hs : s.Inv p) (hpc : s.encoder.pc ≠ .encoding true)
    (hpc' : s'.encoder.pc ≠ .encoding true) (hm : s'.m_ec = s.m_ec) (hp : s'.put = s.put)
    (he : s'.encoded = s.encoded) : ∀ ec, s'.m_ec = some ec → Queued p s' ec := by
  intro ec hec
  have hq := hs.canceller ec (hm ▸ hec)
  exact ⟨hp ▸ hq.holds, fun _ => he ▸ hq.before hpc, fun h => absurd h hpc'⟩

/-- The thread starts on the frame in the mailbox. -/
theorem woken (hs : s.Inv p) (hpc : s.encoder.pc = .waiting) (hi : s.encoder.leftSize ≠ 0) :
    Inv p { s with encoder := { s.encoder with
      output := s.encoder.rawdata, pc := .cancelling } } := by
  have hhand : s.encoder.inHand = true := by simp [Encoder.inHand, hpc, hi]
  have hcount := hs.count
  rw [if_pos hhand] at hcount
  exact ⟨fun h => absurd h hi, hcount, fun _ => hs.raw hhand, fun _ => rfl, hs.stems,
    hs.queued (by simp [hpc]) (by simp) rfl rfl rfl⟩

/-- The frame stays out of the canceller. -/
theorem bypassed (hs : s.Inv p) (hpc : s.encoder.pc = .cancelling) (n : ℕ) :
    Inv p { s with encoder := { s.encoder with num_send := n, pc := .encoding false } } := by
  have hhand : s.encoder.inHand = true := by simp [Encoder.inHand, hpc]
  have hcount := hs.count
  rw [if_pos hhand] at hcount
  exact ⟨fun h => absurd (hs.leftSize h) (by simp [hpc]), hcount, fun _ => hs.raw hhand,
    fun _ => hs.output (Or.inl hpc), hs.stems, hs.queued (by simp [hpc]) (by simp) rfl rfl rfl⟩

theorem cancel (hs : s.Inv p) (hpc : s.encoder.pc = .cancelling) : s.cancel.Inv p := by
  unfold Coder.cancel
  split
  · exact hs.bypassed hpc _
  · rename_i ec hec
    split_ifs
    · exact hs.bypassed hpc _
    · exact hs.bypassed hpc _
    · have hhand : s.encoder.inHand = true := by simp [Encoder.inHand, hpc]
      have hcount := hs.count
      rw [if_pos hhand] at hcount
      have hout := hs.output (Or.inl hpc)
      obtain ⟨hnum, hraw, hstems⟩ := hs.raw hhand
      refine ⟨fun h => absurd (hs.leftSize h) (by simp [hpc]), hcount, fun _ => hs.raw hhand,
        fun _ => hout, hs.stems, ?_⟩
      rintro _ ⟨⟩
      have hq := hs.canceller ec hec
      have hlt := hq.before (by simp [hpc])
      have hn : (ec.putData true s.encoder.output 160).numbers =
          ec.numbers ++ [some s.encoded.length] := by
        simp [EchoCancellation.numbers, EchoCancellation.putData, hout, hnum]
      exact ⟨hq.holds.putData (hout ▸ hstems) (hout ▸ hraw), fun h => absurd rfl h,
        fun _ => ⟨_, hn, hlt⟩⟩

/-- What the encoder takes: the frame in hand, or the oldest one that is ready. -/
theorem poll_cases (s : Coder φ β σ ε) (polls : Bool) :
    ((∀ ec, polls = true → s.m_ec = some ec → ec.m_out_q = []) ∧
      s.poll polls = (s.encoder.output, s.m_ec)) ∨
    ∃ ec f q, polls = true ∧ s.m_ec = some ec ∧ ec.m_out_q = f :: q ∧
      s.poll polls = (f, some { ec with m_out_q := q }) := by
  unfold Coder.poll
  split
  · rename_i ec hec
    split
    · rename_i hq
      refine Or.inl ⟨?_, rfl⟩
      rintro ec' - hec'
      cases hec.symm.trans hec'
      exact hq
    · rename_i f q hq
      exact Or.inr ⟨ec, f, q, rfl, hec, hq, rfl⟩
  · rename_i hne
    exact Or.inl ⟨fun ec hp hec => absurd hec (hne ec hp), rfl⟩

/-- The frame that is encoded. -/
theorem poll_stems (hs : s.Inv p) {polls : Bool} (hpc : s.encoder.pc = .encoding polls) :
    (s.poll polls).1.Stems p s.put := by
  have hhand : s.encoder.inHand = true := by simp [Encoder.inHand, hpc]
  rcases poll_cases s polls with ⟨-, h⟩ | ⟨ec, f, q, -, hec, hq, h⟩
  · rw [h, hs.output (Or.inr ⟨polls, hpc⟩)]
    exact (hs.raw hhand).2.2
  · rw [h]
    exact (hs.canceller ec hec).holds.ready f (by simp [hq])

theorem encode (hs : s.Inv p) {polls : Bool} (hpc : s.encoder.pc = .encoding polls) :
    (s.encode p polls).Inv p := by
  have hhand : s.encoder.inHand = true := by simp [Encoder.inHand, hpc]
  have hcount := hs.count
  rw [if_pos hhand] at hcount
  have hlen : (s.encode p polls).encoded.length = s.encoded.length + 1 := by
    simp [Coder.encode]
  -- the canceller before the step holds nothing newer than the frame in hand
  have hold : ∀ ec, s.m_ec = some ec → ∀ n, some n ∈ ec.numbers → n < s.encoded.length + 1 := by
    intro ec hec n hn
    have hq := hs.canceller ec hec
    by_cases ht : s.encoder.pc = .encoding true
    · obtain ⟨l, hl, hlt⟩ := hq.polling ht
      rw [hl, List.mem_append, List.mem_singleton, Option.some.injEq] at hn
      rcases hn with hn | rfl
      · exact Nat.lt_succ_of_lt (hlt n hn)
      · exact Nat.lt_succ_self _
    · exact Nat.lt_succ_of_lt (hq.before ht n hn)
  refine ⟨fun h => absurd (hs.leftSize h) (by simp [hpc]), ?_, fun h => (nomatch h), ?_, ?_, ?_⟩
  · rw [hlen]
    exact hcount
  · rintro (h | ⟨b, h⟩) <;> exact nomatch h
  · intro f hf
    rcases List.mem_append.1 hf with hf | hf
    · exact hs.stems f hf
    · rw [List.mem_singleton.1 hf]
      exact hs.poll_stems hpc
  · intro ec' hec'
    have hm : (s.poll polls).2 = some ec' := hec'
    rcases poll_cases s polls with ⟨-, h⟩ | ⟨ec, f, q, -, hec, hq, h⟩
    · rw [h] at hm
      have hc := hs.canceller ec' hm
      exact ⟨hc.holds, fun _ n hn => hlen ▸ hold ec' hm n hn, fun h => (nomatch h)⟩
    · rw [h] at hm
      cases hm
      have hc := hs.canceller ec hec
      have hnum : ec.numbers =
          f.number :: ({ ec with m_out_q := q } : EchoCancellation φ ε).numbers := by
        simp [EchoCancellation.numbers, hq]
      refine ⟨⟨hc.holds.captured, fun g hg => hc.holds.ready g (by simp [hq, hg])⟩,
        fun _ n hn => hlen ▸ hold ec hec n ?_, fun h => (nomatch h)⟩
      rw [hnum]
      exact List.mem_cons_of_mem _ hn

theorem encoderStep (hs : s.Inv p) : (s.encoderStep p).Inv p := by
  unfold Coder.encoderStep
  split
  · rename_i hpc
    split_ifs with hi
    · exact hs
    · exact hs.woken hpc (by simpa [Encoder.isIdle] using hi)
  · exact hs.cancel ‹_›
  · exact hs.encode ‹_›
  · rename_i tempdata hpc
    have hn : s.encoder.leftSize ≠ 0 := fun h => absurd (hs.leftSize h) (by simp [hpc])
    have hcount := hs.count
    simp only [Encoder.inHand, hpc, Bool.false_eq_true, if_false] at hcount
    refine ⟨fun h => absurd h hn, hcount, fun h => (nomatch h), ?_, hs.stems,
      hs.queued (by simp [hpc]) (by simp) rfl rfl rfl⟩
    rintro (h | ⟨b, h⟩) <;> exact nomatch h
  · rename_i hpc
    have hcount := hs.count
    simp only [Encoder.inHand, hpc, Bool.false_eq_true, if_false] at hcount
    refine ⟨fun _ => rfl, hcount, fun h => (nomatch h), ?_, hs.stems,
      hs.queued (by simp [hpc]) (by simp) rfl rfl rfl⟩
    rintro (h | ⟨b, h⟩) <;> exact nomatch h

/-- Only the canceller changes, and it holds what it held. -/
theorem ofCanceller (hs : s.Inv p) {m_ec : Option (EchoCancellation φ ε)} (n : ℕ)
    (h : ∀ ec', m_ec = some ec' → ∃ ec, s.m_ec = some ec ∧ ec'.numbers = ec.numbers ∧
      (ec.Holds p s.put → ec'.Holds p s.put)) :
    Inv p { s with m_ec := m_ec, num_recv := n } := by
  refine ⟨hs.leftSize, hs.count, hs.raw, hs.output, hs.stems, ?_⟩
  intro ec' hec'
  obtain ⟨ec, hec, hn, hh⟩ := h ec' hec'
  have hq := hs.canceller ec hec
  exact ⟨hh hq.holds, hn ▸ hq.before, hn ▸ hq.polling⟩

theorem decoded (hs : s.Inv p) (x : φ) : (s.decoded x).Inv p := by
  unfold Coder.decoded
  split
  · exact hs
  · rename_i ec hec
    split_ifs
    · exact hs.ofCanceller _ fun ec' h => ⟨ec', h, rfl, id⟩
    · refine hs.ofCanceller s.num_recv ?_
      rintro _ ⟨⟩
      exact ⟨ec, hec, rfl, fun h => ⟨h.captured, h.ready⟩⟩

theorem step (hs : s.Inv p) (i : CoderInput φ) : (s.step p i).Inv p := by
  cases i with
  | putData x =>
    rw [Coder.step]
    split_ifs with hi
    · exact hs.putData (by simpa [Encoder.isIdle] using hi) x
    · exact hs
  | encoder => exact hs.encoderStep
  | canceller =>
    refine hs.ofCanceller s.num_recv ?_
    intro ec' h
    obtain ⟨ec, hec, rfl⟩ := Option.map_eq_some_iff.1 h
    exact ⟨ec, hec, EchoCancellation.step_numbers p ec, fun h => h.step⟩
  | decoded x => exact hs.decoded x

/-! ## The order of the frames -/

theorem inOrder_iff (hs : s.Inv p) :
    s.InOrder p ↔ s.encoded.map (·.number) = (List.range s.encoded.length).map some :=
  ⟨fun h => h.1, fun h => ⟨h, hs.stems⟩⟩

/-- The next frame encoded is the next one in the order exactly when it is not an older one. -/
theorem encode_inOrder (hs : s.Inv p) (ho : s.InOrder p) {polls : Bool}
    (hpc : s.encoder.pc = .encoding polls) :
    (s.encode p polls).InOrder p ↔ (s.poll polls).1.number = some s.encoded.length := by
  have he : (s.encode p polls).encoded = s.encoded ++ [(s.poll polls).1] := rfl
  rw [(hs.encode hpc).inOrder_iff, he, List.map_append, List.length_append, List.length_singleton,
    List.range_succ, ho.1, List.map_singleton]
  simp

/-- Of the frames in the canceller the oldest is the one in hand exactly when there is no
    other. -/
theorem oldest_iff (hs : s.Inv p) (hpc : s.encoder.pc = .encoding true) (hec : s.m_ec = some ec)
    {q : List (Frame φ)} (hq : ec.m_out_q = f :: q) :
    f.number = some s.encoded.length ↔ ec.m_out_q.length = 1 ∧ ec.m_cap_q = [] := by
  obtain ⟨l, hl, hlt⟩ := (hs.canceller ec hec).polling hpc
  have hnum : ec.numbers = f.number :: (q ++ ec.m_cap_q).map (·.number) := by
    simp [EchoCancellation.numbers, hq]
  have hlen : (l ++ [some s.encoded.length]).length = q.length + ec.m_cap_q.length + 1 := by
    rw [← hl, hnum]
    simp
  rw [List.length_append, List.length_singleton] at hlen
  rw [hq, List.length_cons, ← List.length_eq_zero_iff]
  rw [hnum] at hl
  cases l with
  | nil =>
    rw [List.nil_append] at hl
    refine iff_of_true (List.cons.inj hl).1 ?_
    rw [List.length_nil] at hlen
    constructor <;> omega
  | cons n l =>
    rw [List.cons_append] at hl
    rw [(List.cons.inj hl).1]
    rw [List.length_cons] at hlen
    refine iff_of_false ?_ ?_
    · rintro rfl
      exact absurd (hlt _ (List.mem_cons_self ..)) (Nat.lt_irrefl _)
    · rintro ⟨h₁, h₂⟩
      omega

theorem encoded_inOrder (hs : s.Inv p) (ho : s.InOrder p) {polls : Bool}
    (hpc : s.encoder.pc = .encoding polls) :
    (s.encode p polls).InOrder p ↔ TakesOwn ((coder p).stepOf s .encoder) := by
  have hhand : s.encoder.inHand = true := by simp [Encoder.inHand, hpc]
  rw [hs.encode_inOrder ho hpc]
  rcases poll_cases s polls with ⟨hempty, h⟩ | ⟨ec, f, q, rfl, hec, hq, h⟩
  · rw [h, hs.output (Or.inr ⟨polls, hpc⟩)]
    refine iff_of_true (hs.raw hhand).1 ?_
    intro ec _ hpc' hec
    have hp : s.encoder.pc = .encoding true := hpc'
    rw [hpc] at hp
    exact Or.inl (hempty ec (EncoderPc.encoding.inj hp) hec)
  · rw [h, hs.oldest_iff hpc hec hq]
    constructor
    · intro hone ec' _ _ hec'
      cases hec.symm.trans hec'
      exact Or.inr hone
    · intro hown
      rcases hown ec rfl hpc hec with hnil | hone
      · simp [hq] at hnil
      · exact hone

theorem cancel_encoded (s : Coder φ β σ ε) : s.cancel.encoded = s.encoded := by
  unfold Coder.cancel
  split
  · rfl
  · split_ifs <;> rfl

theorem encoderStep_encoded (h : ∀ b, s.encoder.pc ≠ .encoding b) :
    (s.encoderStep p).encoded = s.encoded := by
  unfold Coder.encoderStep
  split
  · split_ifs <;> rfl
  · exact cancel_encoded s
  · exact absurd ‹_› (h _)
  · rfl
  · rfl

/-- A step that encodes nothing. -/
theorem quiet_inOrder (hs' : s'.Inv p) (ho : s.InOrder p) (he : s'.encoded = s.encoded) :
    s'.InOrder p := by
  rw [hs'.inOrder_iff, he]
  exact ho.1

theorem step_inOrder (hs : s.Inv p) (ho : s.InOrder p) (i : CoderInput φ) :
    (s.step p i).InOrder p ↔ TakesOwn ((coder p).stepOf s i) := by
  have hs' := hs.step i
  cases i with
  | putData x =>
    refine iff_of_true (hs'.quiet_inOrder ho ?_) fun _ h => (nomatch h)
    rw [Coder.step]
    split_ifs <;> rfl
  | canceller => exact iff_of_true (hs'.quiet_inOrder ho rfl) fun _ h => (nomatch h)
  | decoded x =>
    refine iff_of_true (hs'.quiet_inOrder ho ?_) fun _ h => (nomatch h)
    rw [Coder.step, Coder.decoded]
    split
    · rfl
    · split_ifs <;> rfl
  | encoder =>
    cases hpc : s.encoder.pc with
    | encoding polls =>
      rw [Coder.step, Coder.encoderStep, hpc]
      exact hs.encoded_inOrder ho hpc
    | _ =>
      refine iff_of_true (hs'.quiet_inOrder ho (encoderStep_encoded fun b hb => ?_)) ?_
      · simp [hpc] at hb
      · intro ec _ hp
        have hp' : s.encoder.pc = .encoding true := hp
        simp [hpc] at hp'

end Coder.Inv

/-- **Frames under echo cancellation.**  In exactly the runs in which the encoder finds no
    other frame than its own in the canceller, the frames encoded are those put, one to one
    and in their order, each raw or without its echo. -/
theorem inOrder_along_iff {s₀ : Coder φ β σ ε} (h₀ : (coder p).init s₀)
    (is : List (CoderInput φ)) : (coder p).Along s₀ is (fun _ st => st.post.InOrder p) ↔
      (coder p).Along s₀ is (fun _ => TakesOwn) := by
  refine (coder p).along_iff (I := fun _ s => s.Inv p ∧ s.InOrder p) ?_ ?_ ?_ is
  · refine ⟨Coder.Inv.start h₀, ?_⟩
    obtain ⟨codec, silence, num_send, num_recv, m_ec, rfl, -⟩ := h₀
    exact ⟨rfl, fun f hf => absurd hf List.not_mem_nil⟩
  · rintro _ s i ⟨hs, ho⟩ hc
    exact ⟨hs.step i, (hs.step_inOrder ho i).2 hc⟩
  · rintro _ s i ⟨hs, ho⟩
    exact hs.step_inOrder ho i

namespace Trace

/-- A codec and a canceller that leave frames as they are, as without a sound to cancel. -/
def plain : Codecs ℤ ℤ Unit Unit where
  encode c f _ := (c, f)
  echocapture e f := (e, f)
  echoplayback e _ := e

/-- The encoder and the canceller when both counters have passed. -/
def warm : Coder ℤ ℤ Unit Unit := Coder.start () 0 20 20 (some (.create ()))

theorem warm_init : (coder plain).init warm := by
  refine ⟨_, _, _, _, _, rfl, ?_⟩
  rintro _ ⟨⟩ f hf
  exact absurd hf List.not_mem_nil

/-- A frame that goes into the canceller; the encoder is about to encode. -/
def offered (frame : ℤ) : List (CoderInput ℤ) := [.putData frame, .encoder, .encoder]

/-- The canceller is late for the first frame. -/
def lateCanceller : List (CoderInput ℤ) :=
  offered 5 ++ [.encoder, .encoder, .encoder, .canceller] ++ offered 6

end Trace

/-- A frame that the canceller finishes in time. -/
theorem inOrder_along_cancelled : (coder Trace.plain).Along Trace.warm
    (Trace.offered 5 ++ [.canceller, .encoder]) (fun _ st => st.post.InOrder Trace.plain) := by
  rw [inOrder_along_iff Trace.warm_init]
  simp only [Trace.offered, List.cons_append, List.nil_append, Machine.along_cons]
  refine ⟨?_, ?_, ?_, ?_, ?_, Machine.along_nil _ _ _⟩
  · exact fun _ h => (nomatch h)
  · exact fun _ _ h => (nomatch h)
  · exact fun _ _ h => (nomatch h)
  · exact fun _ h => (nomatch h)
  · rintro _ - - ⟨⟩
    exact Or.inr ⟨rfl, rfl⟩

/-- A frame that was encoded raw is encoded once more when the canceller has finished it. -/
theorem frame_encoded_twice : ¬ ∀ s₀, (coder Trace.plain).init s₀ → ∀ is,
    (coder Trace.plain).Along s₀ is fun _ st => st.post.InOrder Trace.plain := by
  intro h
  have hrun := h _ Trace.warm_init (Trace.lateCanceller ++ [.encoder])
  have hlast := ((Machine.along_snoc _).1 hrun).2.1
  revert hlast
  decide

end JaySip
