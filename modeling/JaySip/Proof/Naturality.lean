/-
  Maps between what the threads compute.

  The recorder, the encoder and the canceller move samples, payloads and the states of the
  codec and the canceller around without looking at them.  A map that commutes with what is
  computed on those (`Sound.Hom`) therefore commutes with every step, and with every run.
-/
import JaySip.Media.LanAudioRecord

namespace JaySip

/-! ## Homomorphisms -/

section
variable {φ β σ ε φ' β' σ' ε' : Type}

/-- Maps of frames, payloads and states that commute with the codec and the canceller. -/
structure Codecs.Hom (p : Codecs φ β σ ε) (p' : Codecs φ' β' σ' ε') where
  frame : φ → φ'
  payload : β → β'
  codec : σ → σ'
  echo : ε → ε'
  encode (s : σ) (f : φ) (n : ℕ) :
    p'.encode (codec s) (frame f) n = ((p.encode s f n).map codec payload)
  echocapture (e : ε) (f : φ) :
    p'.echocapture (echo e) (frame f) = ((p.echocapture e f).map echo frame)
  echoplayback (e : ε) (f : φ) : p'.echoplayback (echo e) (frame f) = echo (p.echoplayback e f)

variable {φ'' β'' σ'' ε'' : Type} {p : Codecs φ β σ ε} {p' : Codecs φ' β' σ' ε'}
  {p'' : Codecs φ'' β'' σ'' ε''} (h : Codecs.Hom p p') (h' : Codecs.Hom p' p'')

def Codecs.Hom.id (p : Codecs φ β σ ε) : Codecs.Hom p p where
  frame f := f
  payload b := b
  codec s := s
  echo e := e
  encode _ _ _ := rfl
  echocapture _ _ := rfl
  echoplayback _ _ := rfl

def Codecs.Hom.comp : Codecs.Hom p p'' where
  frame f := h'.frame (h.frame f)
  payload b := h'.payload (h.payload b)
  codec s := h'.codec (h.codec s)
  echo e := h'.echo (h.echo e)
  encode s f n := by rw [h'.encode, h.encode]; rfl
  echocapture e f := by rw [h'.echocapture, h.echocapture]; rfl
  echoplayback e f := by rw [h'.echoplayback, h.echoplayback]

/-! ## The canceller -/

def Frame.map (g : φ → φ') (f : Frame φ) : Frame φ' := ⟨g f.samples, f.number, f.cancelled⟩

namespace EchoCancellation

variable (ec : EchoCancellation φ ε)

def map : EchoCancellation φ' ε' where
  speex_echo := h.echo ec.speex_echo
  CaptureSize := ec.CaptureSize
  PlaySize := ec.PlaySize
  m_cap_q := ec.m_cap_q.map (Frame.map h.frame)
  m_play_q := ec.m_play_q.map (Frame.map h.frame)
  m_out_q := ec.m_out_q.map (Frame.map h.frame)

theorem map_id : ec.map (Codecs.Hom.id p) = ec := by
  have hf : Frame.map (Codecs.Hom.id p).frame = fun x => x := rfl
  simp only [map, hf, List.map_id']
  rfl

theorem map_map : (ec.map h).map h' = ec.map (h.comp h') := by
  simp only [map, List.map_map]
  rfl

theorem map_putData (type : Bool) (data : Frame φ) (size : ℕ) :
    (ec.putData type data size).map h = (ec.map h).putData type (data.map h.frame) size := by
  cases type <;> simp [putData, map]

theorem map_capture : (ec.capture p).map h = (ec.map h).capture p' := by
  unfold capture
  by_cases hc : ec.CaptureSize = 0
  · rw [if_pos hc, if_pos (show (ec.map h).CaptureSize = 0 from hc)]
  · rw [if_neg hc, if_neg (show ¬ (ec.map h).CaptureSize = 0 from hc)]
    cases hq : ec.m_cap_q with
    | nil => simp [map, hq]
    | cons f q => simp [map, hq, Frame.map, h.echocapture]

theorem map_playback : (ec.playback p).map h = (ec.map h).playback p' := by
  unfold playback
  by_cases hc : ec.PlaySize = 0
  · rw [if_pos hc, if_pos (show (ec.map h).PlaySize = 0 from hc)]
  · rw [if_neg hc, if_neg (show ¬ (ec.map h).PlaySize = 0 from hc)]
    cases hq : ec.m_play_q with
    | nil => simp [map, hq]
    | cons f q => simp [map, hq, Frame.map, h.echoplayback]

theorem map_step : (ec.step p).map h = (ec.map h).step p' := by
  unfold step
  by_cases hc : ec.isIdle
  · rw [if_pos hc, if_pos (show (ec.map h).isIdle from hc)]
  · rw [if_neg hc, if_neg (show ¬ (ec.map h).isIdle from hc), ← map_capture, ← map_playback]
    rfl

end EchoCancellation

/-! ## The encoder -/

def EncoderPc.map (g : β → β') : EncoderPc β → EncoderPc β'
  | .waiting => .waiting
  | .cancelling => .cancelling
  | .encoding polls => .encoding polls
  | .adding tempdata => .adding (g tempdata)
  | .idling => .idling

namespace Encoder

variable (e : Encoder φ β σ)

def map : Encoder φ' β' σ' where
  codec := h.codec e.codec
  leftSize := e.leftSize
  rawdata := e.rawdata.map h.frame
  output := e.output.map h.frame
  m_in_q := e.m_in_q.map h.payload
  num_send := e.num_send
  pc := e.pc.map h.payload

theorem map_id : e.map (Codecs.Hom.id p) = e := by
  have hp : (Codecs.Hom.id p).payload = fun x => x := rfl
  have hpc : e.pc.map (Codecs.Hom.id p).payload = e.pc := by cases e.pc <;> rfl
  rw [map, hpc, hp, List.map_id']
  rfl

theorem map_map : (e.map h).map h' = e.map (h.comp h') := by
  have hpc : (e.pc.map h.payload).map h'.payload = e.pc.map (h.comp h').payload := by
    cases e.pc <;> rfl
  simp only [map, hpc, List.map_map]
  rfl

@[simp] theorem map_isGetData : (e.map h).isGetData = e.isGetData := by
  simp [isGetData, map]

@[simp] theorem map_holdsMutex : (e.map h).holdsMutex = e.holdsMutex := by
  cases hpc : e.pc <;> simp [holdsMutex, map, hpc, EncoderPc.map]

theorem map_getData : (e.map h).getData = e.getData.map (Prod.map h.payload (map h)) := by
  cases hq : e.m_in_q <;> simp [getData, map, hq]

end Encoder

namespace Coder

variable (s : Coder φ β σ ε)

def map : Coder φ' β' σ' ε' where
  encoder := s.encoder.map h
  m_ec := s.m_ec.map (EchoCancellation.map h)
  num_recv := s.num_recv
  put := s.put.map h.frame
  encoded := s.encoded.map (Frame.map h.frame)

theorem map_id : s.map (Codecs.Hom.id p) = s := by
  have hec : EchoCancellation.map (Codecs.Hom.id p) = fun x => x :=
    funext EchoCancellation.map_id
  have hf : Frame.map (Codecs.Hom.id p).frame = fun x => x := rfl
  have hp : (Codecs.Hom.id p).frame = fun x => x := rfl
  rw [map, Encoder.map_id, hec, hf, hp, List.map_id', List.map_id', Option.map_id_fun']
  rfl

theorem map_map : (s.map h).map h' = s.map (h.comp h') := by
  have hec : EchoCancellation.map h' ∘ EchoCancellation.map h = EchoCancellation.map (h.comp h') :=
    funext fun ec => ec.map_map h h'
  simp only [map, Encoder.map_map, Option.map_map, hec, List.map_map]
  rfl

theorem map_putData (x : φ) : (s.putData x).map h = (s.map h).putData (h.frame x) := by
  simp [putData, map, Encoder.putData, Encoder.map, Frame.map]

theorem map_cancel : s.cancel.map h = (s.map h).cancel := by
  unfold cancel
  cases hec : s.m_ec with
  | none => simp [map, hec, Encoder.map, EncoderPc.map]
  | some ec =>
    simp only [map, hec, Option.map_some]
    by_cases hr : s.num_recv = 0
    · simp [hr, Encoder.map, EncoderPc.map]
    · by_cases hn : s.encoder.num_send < 20
      · simp [hr, hn, Encoder.map, EncoderPc.map]
      · simp [hr, hn, Encoder.map, EncoderPc.map, EchoCancellation.map_putData]

theorem map_poll (polls : Bool) : (s.map h).poll polls =
    ((s.poll polls).map (Frame.map h.frame) (Option.map (EchoCancellation.map h))) := by
  unfold poll
  cases polls with
  | false => rfl
  | true =>
    cases hec : s.m_ec with
    | none => simp [map, hec, Encoder.map]
    | some ec =>
      cases hq : ec.m_out_q <;> simp [map, hec, Encoder.map, EchoCancellation.map, hq]

theorem map_encode (polls : Bool) : (s.encode p polls).map h = (s.map h).encode p' polls := by
  unfold encode
  rw [map_poll]
  simp [map, Encoder.map, EncoderPc.map, Frame.map, h.encode]

theorem map_encoderStep : (s.encoderStep p).map h = (s.map h).encoderStep p' := by
  have hpc' : (s.map h).encoder.pc = s.encoder.pc.map h.payload := rfl
  unfold encoderStep
  rw [hpc']
  cases hpc : s.encoder.pc with
  | waiting =>
    show (if s.encoder.isIdle then s else _).map h = if (s.map h).encoder.isIdle then s.map h else _
    by_cases hi : s.encoder.isIdle
    · rw [if_pos hi, if_pos (show (s.map h).encoder.isIdle from hi)]
    · rw [if_neg hi, if_neg (show ¬ (s.map h).encoder.isIdle from hi)]
      rfl
  | cancelling => exact s.map_cancel h
  | encoding polls => exact s.map_encode h polls
  | adding tempdata => simp [map, Encoder.map, EncoderPc.map]
  | idling => rfl

theorem map_canceller : Coder.map h { s with m_ec := s.m_ec.map (·.step p) } =
    { s.map h with m_ec := (s.map h).m_ec.map (·.step p') } := by
  have hm : (s.m_ec.map (·.step p)).map (EchoCancellation.map h) =
      (s.m_ec.map (EchoCancellation.map h)).map (·.step p') := by
    rw [Option.map_map, Option.map_map]
    exact congrArg (Option.map · s.m_ec) (funext fun ec => ec.map_step h)
  simp only [map, hm]

theorem map_decoded (x : φ) : (s.decoded x).map h = (s.map h).decoded (h.frame x) := by
  unfold decoded
  cases hec : s.m_ec with
  | none => simp [map, hec]
  | some ec =>
    by_cases hr : s.num_recv < 20
    · simp [map, hec, hr]
    · simp [map, hec, hr, EchoCancellation.map_putData, Frame.map]

end Coder

end

/-! ## The recorder -/

section
variable {α β σ ε α' β' σ' ε' : Type}

/-- Maps of samples, payloads and states that commute with what the threads compute. -/
structure Sound.Hom (p : Sound α β σ ε) (p' : Sound α' β' σ' ε') where
  sample : α → α'
  payload : β → β'
  codec : σ → σ'
  echo : ε → ε'
  calc2 (x : α) : p'.calc2 (sample x) = sample (p.calc2 x)
  encode (s : σ) (f : Samples α) (n : ℕ) :
    p'.encode (codec s) (fun i => sample (f i)) n = ((p.encode s f n).map codec payload)
  echocapture (e : ε) (f : Samples α) : p'.echocapture (echo e) (fun i => sample (f i)) =
    ((p.echocapture e f).map echo fun f i => sample (f i))
  echoplayback (e : ε) (f : Samples α) :
    p'.echoplayback (echo e) (fun i => sample (f i)) = echo (p.echoplayback e f)

def Sound.Hom.toCodecs {p : Sound α β σ ε} {p' : Sound α' β' σ' ε'} (h : Sound.Hom p p') :
    Codecs.Hom p.toCodecs p'.toCodecs where
  frame f i := h.sample (f i)
  payload := h.payload
  codec := h.codec
  echo := h.echo
  encode := h.encode
  echocapture := h.echocapture
  echoplayback := h.echoplayback

variable {α'' β'' σ'' ε'' : Type}

def Sound.Hom.id (p : Sound α β σ ε) : Sound.Hom p p where
  sample x := x
  payload b := b
  codec s := s
  echo e := e
  calc2 _ := rfl
  encode _ _ _ := rfl
  echocapture _ _ := rfl
  echoplayback _ _ := rfl

def Sound.Hom.comp {p : Sound α β σ ε} {p' : Sound α' β' σ' ε'} {p'' : Sound α'' β'' σ'' ε''}
    (h : Sound.Hom p p') (h' : Sound.Hom p' p'') : Sound.Hom p p'' where
  sample x := h'.sample (h.sample x)
  payload b := h'.payload (h.payload b)
  codec s := h'.codec (h.codec s)
  echo e := h'.echo (h.echo e)
  calc2 x := by rw [h'.calc2, h.calc2]
  encode := (h.toCodecs.comp h'.toCodecs).encode
  echocapture := (h.toCodecs.comp h'.toCodecs).echocapture
  echoplayback := (h.toCodecs.comp h'.toCodecs).echoplayback

def Packet.map (g : β → β') (k : Packet β) : Packet β' :=
  ⟨k.sequenceNumber, k.timestamp, g k.payload⟩

namespace Recorder

variable (g : α → α') (r : Recorder α)

def map : Recorder α' where
  Audio_in i := g (r.Audio_in i)
  readpos := r.readpos
  writepos := r.writepos
  muteflag := r.muteflag
  seqn := r.seqn
  time := r.time
  pc := r.pc

theorem map_capture {double : α → α} {double' : α' → α'} (h : ∀ x, double' (g x) = g (double x))
    (ringSize count : ℕ) (x : ℕ → α) : (r.capture double ringSize count x).map g =
      (r.map g).capture double' ringSize count fun i => g (x i) := by
  simp only [capture, map, mk.injEq, and_true]
  funext i
  by_cases hi : r.writepos ≤ i ∧ i < r.writepos + 160
  · by_cases hc : i < r.writepos + count
    · simp [hi, hc, h]
    · simp [hi, hc, h]
  · simp [hi]

end Recorder

def SenderInput.map (g : α → α') : SenderInput α → SenderInput α'
  | .mute => .mute
  | .demute => .demute
  | .read count x => .read count fun i => g (x i)
  | .recorder throws => .recorder throws
  | .encoder => .encoder
  | .canceller => .canceller
  | .decoded samples => .decoded fun i => g (samples i)

namespace Sender

variable (a : RecorderArgs) {p : Sound α β σ ε} {p' : Sound α' β' σ' ε'} (h : Sound.Hom p p')
  (s : Sender α β σ ε)

def map : Sender α' β' σ' ε' where
  recorder := s.recorder.map h.sample
  coder := s.coder.map h.toCodecs
  sent := s.sent.map (Packet.map h.payload)

theorem map_id : s.map (Sound.Hom.id p) = s := by
  have hp : Packet.map (Sound.Hom.id p).payload = fun x => x := rfl
  have hc : s.coder.map (Sound.Hom.id p).toCodecs = s.coder := s.coder.map_id
  simp only [map, hp, hc, List.map_id']
  rfl

theorem map_map {p'' : Sound α'' β'' σ'' ε''} (h' : Sound.Hom p' p'') :
    (s.map h).map h' = s.map (h.comp h') := by
  have hc : (s.coder.map h.toCodecs).map h'.toCodecs = s.coder.map (h.comp h').toCodecs :=
    s.coder.map_map h.toCodecs h'.toCodecs
  simp only [map, hc, List.map_map]
  rfl

theorem map_read (count : Fin 161) (x : ℕ → α) :
    (s.read a p count x).map h = (s.map h).read a p' count fun i => h.sample (x i) := by
  unfold read
  by_cases hc : s.recorder.pc = .reading ∧ count ≠ 0
  · rw [if_pos hc, if_pos (show (s.map h).recorder.pc = .reading ∧ count ≠ 0 from hc)]
    simp only [map, Recorder.map_capture h.sample s.recorder h.calc2]
  · rw [if_neg hc, if_neg (show ¬ ((s.map h).recorder.pc = .reading ∧ count ≠ 0) from hc)]

theorem map_put : (s.put a).map h = (s.map h).put a := by
  simp only [put, map, Coder.map_putData]
  rfl

theorem map_send (throws : Bool) : (s.send a throws).map h = (s.map h).send a throws := by
  unfold send
  rw [show (s.map h).coder.encoder = s.coder.encoder.map h.toCodecs from rfl, Encoder.map_getData]
  cases hd : s.coder.encoder.getData with
  | none => rfl
  | some d => cases throws <;> simp [map, Coder.map, Recorder.map, Packet.map, Sound.Hom.toCodecs]

theorem map_recorderStep (throws : Bool) :
    (s.recorderStep a throws).map h = (s.map h).recorderStep a throws := by
  unfold recorderStep
  rw [show (s.map h).recorder.pc = s.recorder.pc from rfl]
  cases hpc : s.recorder.pc with
  | reading => rfl
  | testing => rfl
  | putting =>
    show (if s.coder.encoder.holdsMutex then s else s.put a).map h =
      if (s.map h).coder.encoder.holdsMutex then s.map h else (s.map h).put a
    rw [show (s.map h).coder.encoder.holdsMutex = s.coder.encoder.holdsMutex from
      s.coder.encoder.map_holdsMutex h.toCodecs, ← map_put, apply_ite (map h)]
  | muting => rfl
  | polling =>
    simp only [show (s.map h).coder.encoder.isGetData = s.coder.encoder.isGetData from
      s.coder.encoder.map_isGetData h.toCodecs]
    rfl
  | sending => exact s.map_send a h throws

/-- A step on the images is the image of the step. -/
theorem map_step (i : SenderInput α) :
    (s.step a p i).map h = (s.map h).step a p' (i.map h.sample) := by
  cases i with
  | mute => rfl
  | demute => rfl
  | read count x => exact s.map_read a h count x
  | recorder throws => exact s.map_recorderStep a h throws
  | encoder =>
    simp only [step, map, Coder.map_encoderStep]
    rfl
  | canceller =>
    simp only [step, map, Coder.map_canceller]
    rfl
  | decoded samples =>
    simp only [step, map, Coder.map_decoded]
    rfl

theorem map_run (is : List (SenderInput α)) : ((sender a p).run s is).map h =
    (sender a p').run (s.map h) (is.map (SenderInput.map h.sample)) :=
  (sender a p).run_map (fun s i => s.map_step a h i) s is

end Sender

end

end JaySip
