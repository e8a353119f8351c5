/-
  Muting: what is sent of the sound that the microphone captures while the phone is muted.

  The threads also run on marks, where a sample is marked if it was captured while the phone
  was muted, and a payload or a state if it depends on a marked sample.  Two runs that differ
  in such samples only, and the run on the marks, are three images of one run (`Twin`).
-/
import JaySip.Proof.Naturality

namespace JaySip

/-! ## Marks -/

/-- A frame with a marked sample. -/
def Samples.marked (f : Samples Bool) : Bool := ∃ i, f i = true

theorem Samples.marked_eq_false {f : Samples Bool} : f.marked = false ↔ ∀ i, f i = false := by
  simp [marked]

@[simp] theorem Samples.marked_silent : Samples.marked (fun _ => false) = false :=
  Samples.marked_eq_false.2 fun _ => rfl

attribute [irreducible] Samples.marked

/-- What a mark spreads to.  A codec that keeps the past in its state spreads it to all the
    payloads behind; the canceller does so with frames. -/
def marks (keeps : Bool) : Sound Bool Bool Bool Bool where
  calc2 x := x
  encode s f _ := (s || f.marked, keeps && s || f.marked)
  echocapture e f := (e || f.marked, fun _ => e || f.marked)
  echoplayback e f := e || f.marked

/-- The run on the marks of a schedule, which begins muted or not. -/
def mark : Bool → List (SenderInput Unit) → List (SenderInput Bool)
  | _, [] => []
  | _, .mute :: is => .mute :: mark true is
  | _, .demute :: is => .demute :: mark false is
  | muted, .read count _ :: is => .read count (fun _ => muted) :: mark muted is
  | muted, .recorder throws :: is => .recorder throws :: mark muted is
  | muted, .encoder :: is => .encoder :: mark muted is
  | muted, .canceller :: is => .canceller :: mark muted is
  | muted, .decoded _ :: is => .decoded (fun _ => false) :: mark muted is

/-- Two runs of a schedule, which begin muted or not, with the same samples except for those
    captured while muted. -/
inductive SameUnmuted {α : Type} :
    Bool → List (SenderInput Unit) → List (SenderInput α) → List (SenderInput α) → Prop
  | nil {muted} : SameUnmuted muted [] [] []
  | mute {muted is js ks} (h : SameUnmuted true is js ks) :
      SameUnmuted muted (.mute :: is) (.mute :: js) (.mute :: ks)
  | demute {muted is js ks} (h : SameUnmuted false is js ks) :
      SameUnmuted muted (.demute :: is) (.demute :: js) (.demute :: ks)
  | read {muted is js ks count u x y} (hx : muted = false → x = y)
      (h : SameUnmuted muted is js ks) :
      SameUnmuted muted (.read count u :: is) (.read count x :: js) (.read count y :: ks)
  | recorder {muted is js ks throws} (h : SameUnmuted muted is js ks) :
      SameUnmuted muted (.recorder throws :: is) (.recorder throws :: js) (.recorder throws :: ks)
  | encoder {muted is js ks} (h : SameUnmuted muted is js ks) :
      SameUnmuted muted (.encoder :: is) (.encoder :: js) (.encoder :: ks)
  | canceller {muted is js ks} (h : SameUnmuted muted is js ks) :
      SameUnmuted muted (.canceller :: is) (.canceller :: js) (.canceller :: ks)
  | decoded {muted is js ks u x} (h : SameUnmuted muted is js ks) :
      SameUnmuted muted (.decoded u :: is) (.decoded x :: js) (.decoded x :: ks)

/-- The payload of a frame does not depend on the frames before it. -/
def Sound.Memoryless {α β σ ε : Type} (p : Sound α β σ ε) : Prop :=
  ∀ s t f n, (p.encode s f n).2 = (p.encode t f n).2

/-- What is left of a run without its sound. -/
def control : Sound Unit Unit Unit Unit where
  calc2 _ := ()
  encode _ _ _ := ((), ())
  echocapture _ _ := ((), fun _ => ())
  echoplayback _ _ := ()

def Sound.control {α β σ ε : Type} (p : Sound α β σ ε) : Sound.Hom p JaySip.control where
  sample _ := ()
  payload _ := ()
  codec _ := ()
  echo _ := ()
  calc2 _ := rfl
  encode _ _ _ := rfl
  echocapture _ _ := rfl
  echoplayback _ _ := rfl

/-- In all runs of the schedule what is sent is independent of the sound captured while muted,
    whatever the canceller computes, and whatever a codec does that keeps the past in its
    state or does not.  The runs begin in one state, of which the schedule knows all but the
    sound. -/
def Unheard (a : RecorderArgs) (keeps : Bool) (c : Sender Unit Unit Unit Unit)
    (is : List (SenderInput Unit)) : Prop :=
  ∀ {β σ ε : Type} (p : Sound ℤ β σ ε), p.calc2 = calc2 → (keeps = false → p.Memoryless) →
    ∀ s₀ : Sender ℤ β σ ε, s₀.map p.control = c →
      ∀ js ks, SameUnmuted c.recorder.muteflag is js ks →
        ((sender a p).run s₀ js).sent = ((sender a p).run s₀ ks).sent

/-- Nothing is marked. -/
def unmarked (keeps : Bool) : Sound.Hom control (marks keeps) where
  sample _ := false
  payload _ := false
  codec _ := false
  echo _ := false
  calc2 _ := rfl
  encode _ _ _ := by simp [marks, control]
  echocapture _ _ := by simp [marks, control]
  echoplayback _ _ := by simp [marks]

/-- The packet that is sent has no mark. -/
def SendsUnmarked (st : Machine.Step (Sender Bool Bool Bool Bool) (SenderInput Bool)) : Prop :=
  st.input = .recorder false → st.pre.recorder.pc = .sending →
    ∀ b ∈ st.pre.coder.encoder.m_in_q.head?, b = false

/-! ## Values in two runs -/

/-- A value in two runs, which agree on it if it is not marked. -/
@[ext]
structure Twin (α : Type) where
  marked : Bool
  left : α
  right : α
  agree : marked = false → left = right

namespace Twin

variable {α β σ ε : Type}

/-- A value that is the same in both runs. -/
def same (x : α) : Twin α := ⟨false, x, x, fun _ => rfl⟩

/-- The frame on the marks, and in the two runs. -/
abbrev flags (f : Samples (Twin α)) : Samples Bool := fun i => (f i).marked

abbrev lefts (f : Samples (Twin α)) : Samples α := fun i => (f i).left

abbrev rights (f : Samples (Twin α)) : Samples α := fun i => (f i).right

/-- The runs agree on a frame without a mark. -/
theorem frame_agree {f : Samples (Twin α)} (h : (flags f).marked = false) :
    lefts f = rights f := by
  funext i
  exact (f i).agree (Samples.marked_eq_false.1 h i)

/-- They agree on a state and a frame without a mark. -/
theorem both_agree {x : Twin σ} {f : Samples (Twin α)}
    (h : (x.marked || (flags f).marked) = false) : x.left = x.right ∧ lefts f = rights f := by
  obtain ⟨hx, hf⟩ := Bool.or_eq_false_iff.1 h
  exact ⟨x.agree hx, frame_agree hf⟩

/-- A payload depends on the state, unless the codec is memoryless. -/
theorem payload_agree {keeps : Bool} {p : Sound α β σ ε} (hp : keeps = false → p.Memoryless)
    {s : Twin σ} {f : Samples (Twin α)} {n : ℕ}
    (h : (keeps && s.marked || (flags f).marked) = false) :
    (p.encode s.left (lefts f) n).2 = (p.encode s.right (rights f) n).2 := by
  obtain ⟨hs, hf⟩ := Bool.or_eq_false_iff.1 h
  rw [frame_agree hf]
  cases keeps with
  | false => exact hp rfl ..
  | true => rw [s.agree (by simpa using hs)]

end Twin

section
variable {α β σ ε : Type} (keeps : Bool) (p : Sound α β σ ε)

open Twin in
/-- What is computed in two runs, and on the marks. -/
def twin (hp : keeps = false → p.Memoryless) :
    Sound (Twin α) (Twin β) (Twin σ) (Twin ε) where
  calc2 x := ⟨x.marked, p.calc2 x.left, p.calc2 x.right, fun h => by rw [x.agree h]⟩
  encode s f n :=
    (⟨((marks keeps).encode s.marked (flags f) n).1, (p.encode s.left (lefts f) n).1,
        (p.encode s.right (rights f) n).1, fun h => by
          rw [(both_agree h).1, (both_agree h).2]⟩,
      ⟨((marks keeps).encode s.marked (flags f) n).2, (p.encode s.left (lefts f) n).2,
        (p.encode s.right (rights f) n).2, payload_agree hp⟩)
  echocapture e f :=
    (⟨((marks keeps).echocapture e.marked (flags f)).1, (p.echocapture e.left (lefts f)).1,
        (p.echocapture e.right (rights f)).1, fun h => by
          rw [(both_agree h).1, (both_agree h).2]⟩,
      fun i => ⟨((marks keeps).echocapture e.marked (flags f)).2 i,
        (p.echocapture e.left (lefts f)).2 i, (p.echocapture e.right (rights f)).2 i, fun h => by
          rw [(both_agree h).1, (both_agree h).2]⟩)
  echoplayback e f := ⟨(marks keeps).echoplayback e.marked (flags f),
    p.echoplayback e.left (lefts f), p.echoplayback e.right (rights f), fun h => by
      rw [(both_agree h).1, (both_agree h).2]⟩

variable (hp : keeps = false → p.Memoryless)

def twin.marks : Sound.Hom (twin keeps p hp) (marks keeps) where
  sample := Twin.marked
  payload := Twin.marked
  codec := Twin.marked
  echo := Twin.marked
  calc2 _ := rfl
  encode _ _ _ := rfl
  echocapture _ _ := rfl
  echoplayback _ _ := rfl

def twin.left : Sound.Hom (twin keeps p hp) p where
  sample := Twin.left
  payload := Twin.left
  codec := Twin.left
  echo := Twin.left
  calc2 _ := rfl
  encode _ _ _ := rfl
  echocapture _ _ := rfl
  echoplayback _ _ := rfl

def twin.right : Sound.Hom (twin keeps p hp) p where
  sample := Twin.right
  payload := Twin.right
  codec := Twin.right
  echo := Twin.right
  calc2 _ := rfl
  encode _ _ _ := rfl
  echocapture _ _ := rfl
  echoplayback _ _ := rfl

def twin.same : Sound.Hom p (twin keeps p hp) where
  sample := Twin.same
  payload := Twin.same
  codec := Twin.same
  echo := Twin.same
  calc2 _ := rfl
  encode _ _ n := by
    have hm := (unmarked keeps).encode () (fun _ => ()) n
    exact Prod.ext (Twin.ext (congrArg Prod.fst hm) rfl rfl)
      (Twin.ext (congrArg Prod.snd hm) rfl rfl)
  echocapture _ _ := by
    have hm := (unmarked keeps).echocapture () fun _ => ()
    exact Prod.ext (Twin.ext (congrArg Prod.fst hm) rfl rfl)
      (funext fun i => Twin.ext (congrFun (congrArg Prod.snd hm) i) rfl rfl)
  echoplayback _ _ := by
    have hm := (unmarked keeps).echoplayback () fun _ => ()
    exact Twin.ext hm rfl rfl

end

/-! ## Two runs as one -/

/-- Three lists of inputs are the images of one. -/
def Tracks {α : Type} (ms : List (SenderInput Bool)) (js ks : List (SenderInput α)) : Prop :=
  ∃ l : List (SenderInput (Twin α)), l.map (SenderInput.map Twin.marked) = ms ∧
    l.map (SenderInput.map Twin.left) = js ∧ l.map (SenderInput.map Twin.right) = ks

theorem Tracks.cons {α : Type} {ms : List (SenderInput Bool)} {js ks : List (SenderInput α)}
    (h : Tracks ms js ks) (i : SenderInput (Twin α)) :
    Tracks (i.map Twin.marked :: ms) (i.map Twin.left :: js) (i.map Twin.right :: ks) := by
  obtain ⟨l, rfl, rfl, rfl⟩ := h
  exact ⟨i :: l, rfl, rfl, rfl⟩

/-- So are two runs of a schedule and the run on its marks. -/
theorem SameUnmuted.tracks {α : Type} {muted : Bool} {is : List (SenderInput Unit)}
    {js ks : List (SenderInput α)} (h : SameUnmuted muted is js ks) :
    Tracks (mark muted is) js ks := by
  induction h with
  | nil => exact ⟨[], rfl, rfl, rfl⟩
  | mute _ ih => exact ih.cons .mute
  | demute _ ih => exact ih.cons .demute
  | @read muted _ _ _ count _ x y hx _ ih =>
    exact ih.cons (.read count fun i => ⟨muted, x i, y i, fun h => congrFun (hx h) i⟩)
  | @recorder _ _ _ _ throws _ ih => exact ih.cons (.recorder throws)
  | encoder _ ih => exact ih.cons .encoder
  | canceller _ ih => exact ih.cons .canceller
  | @decoded _ _ _ _ _ x _ ih => exact ih.cons (.decoded fun i => .same (x i))

section
variable {a : RecorderArgs} {keeps : Bool} {c : Sender Unit Unit Unit Unit}
  {is : List (SenderInput Unit)}

/-- The packets of the run on the marks. -/
abbrev marksSent (a : RecorderArgs) (keeps : Bool) (c : Sender Unit Unit Unit Unit)
    (is : List (SenderInput Unit)) : List (Packet Bool) :=
  ((sender a (marks keeps)).run (c.map (unmarked keeps)) (mark c.recorder.muteflag is)).sent

/-- Two runs send the same packets if none has a mark. -/
theorem unheard_of_unmarked (h : ∀ k ∈ marksSent a keeps c is, k.payload = false) :
    Unheard a keeps c is := by
  intro β σ ε p _ hp s₀ hc js ks hjk
  obtain ⟨l, hm, rfl, rfl⟩ := hjk.tracks
  let t₀ := s₀.map (twin.same keeps p hp)
  have hmarks : t₀.map (twin.marks keeps p hp) = c.map (unmarked keeps) := by
    rw [← hc, Sender.map_map, Sender.map_map]
    rfl
  have hleft : t₀.map (twin.left keeps p hp) = s₀ := (s₀.map_map _ _).trans s₀.map_id
  have hright : t₀.map (twin.right keeps p hp) = s₀ := (s₀.map_map _ _).trans s₀.map_id
  have hall : ∀ k ∈ ((sender a (twin keeps p hp)).run t₀ l).sent, k.payload.marked = false := by
    intro k hk
    refine h (k.map Twin.marked) ?_
    have hrun := t₀.map_run a (twin.marks keeps p hp) l
    rw [hmarks, show l.map (SenderInput.map (twin.marks keeps p hp).sample) = _ from hm] at hrun
    rw [marksSent, ← hrun]
    exact List.mem_map_of_mem hk
  have hl := t₀.map_run a (twin.left keeps p hp) l
  have hr := t₀.map_run a (twin.right keeps p hp) l
  rw [hleft] at hl
  rw [hright] at hr
  calc ((sender a p).run s₀ (l.map (SenderInput.map Twin.left))).sent
      = ((sender a (twin keeps p hp)).run t₀ l).sent.map (Packet.map Twin.left) :=
        (congrArg Sender.sent hl).symm
    _ = ((sender a (twin keeps p hp)).run t₀ l).sent.map (Packet.map Twin.right) := by
        refine List.map_congr_left fun k hk => ?_
        rw [Packet.map, Packet.map, k.payload.agree (hall k hk)]
    _ = ((sender a p).run s₀ (l.map (SenderInput.map Twin.right))).sent :=
        congrArg Sender.sent hr

/-! ## A codec that hears marks -/

/-- The codec and the canceller that tell silence from any other sound, and no more. -/
def heard (keeps : Bool) : Sound ℤ Bool Bool Bool where
  calc2 := calc2
  encode s f n := (marks keeps).encode s (fun i => f i ≠ 0) n
  echocapture e f :=
    (((marks keeps).echocapture e fun i => f i ≠ 0).1, fun i =>
      if ((marks keeps).echocapture e fun i => f i ≠ 0).2 i then 32700 else 0)
  echoplayback e f := (marks keeps).echoplayback e fun i => f i ≠ 0

/-- Marked samples are loud; `calc2` keeps them. -/
def heard.loud (keeps : Bool) : Sound.Hom (marks keeps) (heard keeps) where
  sample b := if b then 32700 else 0
  payload b := b
  codec b := b
  echo b := b
  calc2 b := by cases b <;> rfl
  encode s f n := by simp [heard]
  echocapture e f := by simp [heard, marks]
  echoplayback e f := by simp [heard]

/-- All samples are silent. -/
def heard.silent (keeps : Bool) : Sound.Hom (marks keeps) (heard keeps) where
  sample _ := 0
  payload _ := false
  codec _ := false
  echo _ := false
  calc2 _ := rfl
  encode s f n := by simp [heard, marks]
  echocapture e f := by simp [heard, marks]
  echoplayback e f := by simp [heard, marks]

/-- Loud and silent samples differ only where the microphone captured them while muted. -/
theorem heard_sameUnmuted (keeps muted : Bool) (is : List (SenderInput Unit)) :
    SameUnmuted muted is ((mark muted is).map (SenderInput.map (heard.silent keeps).sample))
      ((mark muted is).map (SenderInput.map (heard.loud keeps).sample)) := by
  induction is generalizing muted with
  | nil => exact .nil
  | cons i is ih =>
    cases i with
    | mute => exact .mute (ih true)
    | demute => exact .demute (ih false)
    | read count x =>
      refine .read ?_ (ih muted)
      rintro rfl
      rfl
    | recorder throws => exact .recorder (ih muted)
    | encoder => exact .encoder (ih muted)
    | canceller => exact .canceller (ih muted)
    | decoded x => exact .decoded (ih muted)

/-- A packet with a mark tells the two apart. -/
theorem unmarked_of_unheard (h : Unheard a keeps c is) :
    ∀ k ∈ marksSent a keeps c is, k.payload = false := by
  have hp : keeps = false → (heard keeps).Memoryless := by
    rintro rfl s t f n
    rfl
  let s₀ := (c.map (unmarked keeps)).map (heard.silent keeps)
  have hc : s₀.map (heard keeps).control = c := by
    rw [Sender.map_map, Sender.map_map]
    exact c.map_id
  have hloud : (c.map (unmarked keeps)).map (heard.loud keeps) = s₀ := by
    rw [Sender.map_map, show s₀ = _ from c.map_map (unmarked keeps) (heard.silent keeps)]
    rfl
  have heq := h (heard keeps) rfl hp s₀ hc _ _ (heard_sameUnmuted keeps c.recorder.muteflag is)
  have hs := (c.map (unmarked keeps)).map_run a (heard.silent keeps) (mark c.recorder.muteflag is)
  have hl := (c.map (unmarked keeps)).map_run a (heard.loud keeps) (mark c.recorder.muteflag is)
  rw [hloud] at hl
  have hmap := (congrArg Sender.sent hs).trans (heq.trans (congrArg Sender.sent hl).symm)
  intro k hk
  have hk' := List.map_inj_left.1 hmap k hk
  exact (congrArg Packet.payload hk').symm

/-! ## What is sent -/

/-- Only the recorder sends, when the socket does not throw. -/
theorem step_sent {α β σ ε : Type} {p : Sound α β σ ε} {s : Sender α β σ ε} {i : SenderInput α}
    (h : ¬ (i = .recorder false ∧ s.recorder.pc = .sending)) : (s.step a p i).sent = s.sent := by
  cases i with
  | mute => rfl
  | demute => rfl
  | read count x =>
    show (s.read a p count x).sent = s.sent
    unfold Sender.read
    split_ifs <;> rfl
  | recorder throws =>
    show (s.recorderStep a throws).sent = s.sent
    unfold Sender.recorderStep
    split
    · rfl
    · rfl
    · split_ifs <;> rfl
    · rfl
    · rfl
    · have ht : throws = true := by
        by_contra hf
        exact h ⟨by rw [Bool.eq_false_iff.2 hf], ‹_›⟩
      rw [Sender.send, ht]
      split <;> rfl
  | encoder => rfl
  | canceller => rfl
  | decoded samples => rfl

theorem step_sending {α β σ ε : Type} {p : Sound α β σ ε} {s : Sender α β σ ε}
    (hpc : s.recorder.pc = .sending) (throws : Bool) :
    s.step a p (.recorder throws) = s.send a throws := by
  rw [Sender.step, Sender.recorderStep, hpc]

/-- The oldest payload is sent, if there is one. -/
theorem send_sent {α β σ ε : Type} (s : Sender α β σ ε) : (s.send a false).sent =
    s.sent ++ s.coder.encoder.m_in_q.head?.toList.map
      (Packet.mk s.recorder.seqn s.recorder.time) := by
  rw [Sender.send]
  cases hq : s.coder.encoder.m_in_q <;> simp [Encoder.getData, hq]

theorem unmarked_step_iff (s : Sender Bool Bool Bool Bool) (i : SenderInput Bool) :
    (∀ k ∈ (s.step a (marks keeps) i).sent, k.payload = false) ↔
      (∀ k ∈ s.sent, k.payload = false) ∧ SendsUnmarked ((sender a (marks keeps)).stepOf s i) := by
  by_cases hi : i = .recorder false ∧ s.recorder.pc = .sending
  · obtain ⟨rfl, hpc⟩ := hi
    rw [step_sending hpc, send_sent, List.forall_mem_append, List.forall_mem_map]
    refine and_congr_right fun _ => ?_
    constructor
    · intro h _ _ b hb
      exact h b (Option.mem_toList.2 hb)
    · intro h b hb
      exact h rfl hpc b (Option.mem_toList.1 hb)
  · rw [step_sent hi]
    exact (and_iff_left fun h₁ h₂ => absurd ⟨h₁, h₂⟩ hi).symm

theorem marksSent_iff : (∀ k ∈ marksSent a keeps c is, k.payload = false) ↔
    (sender a (marks keeps)).Along (c.map (unmarked keeps)) (mark c.recorder.muteflag is)
      fun _ => SendsUnmarked := by
  refine (sender a (marks keeps)).run_iff (P := fun s => ∀ k ∈ s.sent, k.payload = false) ?_
    unmarked_step_iff _
  intro k hk
  obtain ⟨_, _, rfl⟩ := List.mem_map.1 hk
  rfl

/-- **Muted audio.**  What is sent is independent of the sound captured while the phone was
    muted in exactly the schedules in which no packet sent has a mark. -/
theorem unheard_iff (a : RecorderArgs) (keeps : Bool) (c : Sender Unit Unit Unit Unit)
    (is : List (SenderInput Unit)) : Unheard a keeps c is ↔
      (sender a (marks keeps)).Along (c.map (unmarked keeps)) (mark c.recorder.muteflag is)
        fun _ => SendsUnmarked := by
  rw [← marksSent_iff]
  exact ⟨unmarked_of_unheard, unheard_of_unmarked⟩

end

namespace Trace

/-- A-law on the samples 0 and 32700; the canceller leaves frames as they are. -/
def alaw : Sound ℤ (Fin 160 → ℕ) Unit Unit where
  calc2 := calc2
  encode c f _ := (c, fun i => if f i = 0 then 213 else 170)
  echocapture e f := (e, f)
  echoplayback e _ := e

def narrowband : RecorderArgs := ⟨8, 8000⟩

/-- The first call. -/
def firstCall : Sender ℤ (Fin 160 → ℕ) Unit Unit :=
  Sender.start 0 0 0 false () 0 0 (some (.create ()))

/-- A frame of sample `x` is captured and encoded while the phone is muted, and sent with the
    first frame behind `demute`. -/
def mutedFrame {α : Type} (x y : α) : List (SenderInput α) :=
  [.mute, .read (Fin.last 160) (fun _ => x), .recorder false, .recorder false, .recorder false,
    .encoder, .encoder, .encoder, .encoder, .encoder,
    .demute, .read (Fin.last 160) (fun _ => y), .recorder false, .recorder false, .recorder false,
    .recorder false, .recorder false]

theorem mutedFrame_sameUnmuted (x y : ℤ) :
    SameUnmuted false (mutedFrame () ()) (mutedFrame 0 y) (mutedFrame x y) := by
  refine .mute (.read (fun h => (nomatch h)) (.recorder (.recorder (.recorder ?_))))
  refine .encoder (.encoder (.encoder (.encoder (.encoder (.demute (.read (fun _ => rfl) ?_))))))
  exact .recorder (.recorder (.recorder (.recorder (.recorder .nil))))

end Trace

/-- A frame captured while the phone is muted is sent after `demute`. -/
theorem muted_frame_sent : ¬ ∀ is js ks, SameUnmuted false is js ks →
    ((sender Trace.narrowband Trace.alaw).run Trace.firstCall js).sent =
      ((sender Trace.narrowband Trace.alaw).run Trace.firstCall ks).sent := by
  intro h
  have hsent := h _ _ _ (Trace.mutedFrame_sameUnmuted 32700 0)
  have hfirst := congrArg (List.map fun k => k.payload 0) hsent
  revert hfirst
  decide

end JaySip
