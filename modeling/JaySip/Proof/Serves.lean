/-
  Calls with other arguments than the first: what the reused recorder and player take from a
  later call.
-/
import JaySip.Proof.Tuned

namespace JaySip

open Java

variable {getByName : Str → Option Str} {c : Chance} {t n u : ℕ} {m m' : Media}
  {r r' : LanAudioRecord} {p : LanAudioPlay} {w : Option ℕ} {s : MediaService}
  {run run' : RecorderRun} {a : AudioArgs} {e : Platform}

/-- The recorder is behind the store of `rtp_socket`. -/
def RecorderRun.bound : RecorderRun → Bool
  | .creating | .waking => true
  | run => run.encodes

/-- The recorder is behind the making of its encoder. -/
def RecorderRun.made : RecorderRun → Bool
  | .waking => true
  | run => run.encodes

/-- The peer is that of the call's address and port. -/
def Called (getByName : Str → Option Str) (a : AudioArgs) (q : Peer) : Prop :=
  getByName a.Destaddr = some q.address ∧ q.port = a.RtpPort

/-- The recorder and the player thread of a call use its codec and sample rate, and the recorder
    sends to its address and port, when they have come to that. -/
structure Serves (getByName : Str → Option Str) (a : AudioArgs) (s : MediaService) : Prop where
  rate : ∀ r n run, Current s r n run → r.mSampleRate = a.SampleRate
  encodes : ∀ r n run, Current s r n run → run.made →
    ∃ i o, s.shared.encoderOf r = some (i, o) ∧ o.codeccode = a.codecType
  sends : ∀ r n run, Current s r n run → run.bound →
    ∀ q, r.rtp_socket = some q → Called getByName a q
  track : ∀ p, s.shared.m_iPlay = some p → p.runner ≠ none →
    ∀ rate, p.m_out_trk = some rate → rate = a.SampleRate
  decodes : ∀ p n run w, s.shared.m_iPlay = some p → p.runner = some n →
    s.places[n]? = some (.player run w) → run.started →
      ∃ i o, s.shared.decoderOf p = some (i, o) ∧ o.codeccode = a.codecType

/-- Every input but `startAudio`. -/
def MediaInput.continues : MediaInput → Bool
  | .startAudio _ _ => false
  | _ => true

/-- If the step is a call, it is served until the next call, whatever the threads do. -/
def Follows (getByName : Str → Option Str) (st : Machine.Step MediaService MediaInput) : Prop :=
  ∀ a e, st.input = .startAudio a e → ∀ is : List MediaInput, (∀ i ∈ is, i.continues) →
    Serves getByName a ((media getByName).run st.post is)

/-- A call with the codec and the sample rate of the recorder; none has stored another peer if
    its address is unknown, and no recorder thread is about to store another peer than the
    call's. -/
def Matches (getByName : Str → Option Str) (s : MediaService) (i : MediaInput) : Prop :=
  match i with
  | .startAudio a _ => ∀ r, s.shared.m_iRecord = some r →
      r.codectype = a.codecType ∧ r.mSampleRate = a.SampleRate ∧
      (getByName a.Destaddr = none → r.rtp_socket = none) ∧
      (∀ t address, RecorderAt s t (.connecting address) → getByName a.Destaddr = some address) ∧
      ∀ t q, RecorderAt s t (.storing q) → Called getByName a q
  | _ => True

/-- All is made for one codec and sample rate. -/
structure Cast (codec rate : ℤ) (m : Media) : Prop where
  record : ∀ r, m.m_iRecord = some r → r.codectype = codec ∧ r.mSampleRate = rate
  play : ∀ p, m.m_iPlay = some p → p.codectype = codec ∧ ∀ k, p.m_out_trk = some k → k = rate
  encoders : ∀ o ∈ m.encoders, o.codeccode = codec
  decoders : ∀ o ∈ m.decoders, o.codeccode = codec

/-- The service has made everything for the call of its first recorder. -/
structure Uniform (s : MediaService) : Prop where
  cast : ∃ codec rate, Cast codec rate s.shared
  unmade : s.shared.m_iRecord = none ∨ s.shared.m_iPlay = none → s.places = [] ∧
    s.shared.m_iRecord = none ∧ s.shared.m_iPlay = none ∧ s.shared.encoders = [] ∧
    s.shared.decoders = []

/-! ## One codec and sample rate -/

namespace Cast

variable {codec rate : ℤ}

theorem codes {l l' : List Coding} (hl : l'.map (·.codeccode) = l.map (·.codeccode))
    (h : ∀ o ∈ l, o.codeccode = codec) : ∀ o ∈ l', o.codeccode = codec := by
  intro o ho
  have hmem : o.codeccode ∈ l.map (·.codeccode) := hl ▸ List.mem_map_of_mem ho
  obtain ⟨o', ho', he⟩ := List.mem_map.1 hmem
  exact he ▸ h o' ho'

theorem codes_snoc {l : List Coding} {ec : Bool} (h : ∀ o ∈ l, o.codeccode = codec) :
    ∀ o ∈ l ++ [Coding.create codec ec], o.codeccode = codec := by
  intro o ho
  rcases List.mem_append.1 ho with ho | ho
  · exact h o ho
  · cases List.mem_singleton.1 ho
    rfl

/-- A turn keeps to the codec and the sample rate. -/
theorem turn {q : MediaThread} (h : Cast codec rate m) :
    Cast codec rate (m.turn getByName c t n q).shared := by
  refine ⟨fun r' hr' => ?_, fun p' hp' => ?_, ?_, ?_⟩
  · obtain ⟨r, hr, hset⟩ := Media.turn_record hr'
    have hc : r'.codectype = r.codectype := congrArg (·.codectype) hset
    have hk : r'.mSampleRate = r.mSampleRate := congrArg (·.mSampleRate) hset
    rw [hc, hk]
    exact h.record r hr
  · obtain ⟨p, hp, hset⟩ := Media.turn_play hp'
    have hc : p'.codectype = p.codectype := congrArg (·.codectype) hset
    have hk : p'.m_out_trk = p.m_out_trk := congrArg (·.m_out_trk) hset
    rw [hc, hk]
    exact h.play p hp
  · rcases Media.turn_encoders q with hk | ⟨r, w, hr, -, he⟩
    · exact codes hk.codes h.encoders
    · rw [he, Media.newEncoder_encoders, (h.record r hr).1]
      exact codes_snoc h.encoders
  · rcases Media.turn_decoders q with hk | ⟨p, w, hp, -, he⟩
    · exact codes hk.codes h.decoders
    · rw [he, Media.newDecoder_decoders, (h.play p hp).1]
      exact codes_snoc h.decoders

theorem stopAudio (h : Cast codec rate s.shared) : Cast codec rate s.stopAudio.shared := by
  refine ⟨fun r hr => ?_, fun p hp => ?_, h.encoders, h.decoders⟩
  · obtain ⟨r', hr', rfl⟩ := Option.map_eq_some_iff.1 hr
    exact h.record r' hr'
  · obtain ⟨p', hp', rfl⟩ := Option.map_eq_some_iff.1 hp
    exact h.play p' hp'

/-- A call of the same codec and sample rate, or the first call. -/
theorem startAudio (h : Cast codec rate s.shared)
    (hu : s.shared.m_iRecord = none ∨ s.shared.m_iPlay = none →
      codec = a.codecType ∧ rate = a.SampleRate ∧ s.shared.m_iRecord = none ∧
        s.shared.m_iPlay = none) : Cast codec rate (s.startAudio a e).shared := by
  cases hr : (s.opened e).shared.recordFor a e with
  | none =>
    rw [startAudio_none hr]
    exact ⟨h.record, h.play, h.encoders, h.decoders⟩
  | some r =>
    rw [startAudio_some hr]
    refine ⟨?_, ?_, h.encoders, h.decoders⟩
    · rintro r' ⟨⟩
      unfold Media.recordFor at hr
      split at hr
      next hnone =>
        obtain ⟨rfl, rfl, -⟩ := hu (Or.inl hnone)
        unfold LanAudioRecord.create at hr
        split_ifs at hr
        cases hr
        exact ⟨rfl, rfl⟩
      next r₀ hr₀ =>
        cases hr
        exact h.record r₀ hr₀
    · rintro p' ⟨⟩
      unfold Media.playFor
      split
      next hnone =>
        obtain ⟨rfl, rfl, -⟩ := hu (Or.inr hnone)
        unfold LanAudioPlay.create
        split_ifs
        · exact ⟨rfl, fun k hk => nomatch hk⟩
        · exact ⟨rfl, fun k hk => (Option.some.inj hk).symm⟩
      next p₀ hp₀ => exact h.play p₀ hp₀

end Cast

namespace Uniform

/-- What the first recorder is made for. -/
theorem cast_of {codec rate : ℤ} (h : Uniform s) (hr : ∀ r, s.shared.m_iRecord = some r →
    r.codectype = codec ∧ r.mSampleRate = rate) : Cast codec rate s.shared := by
  cases hrec : s.shared.m_iRecord with
  | none =>
    obtain ⟨-, -, hp, he, hd⟩ := h.unmade (Or.inl hrec)
    refine ⟨fun r hr => ?_, fun p hp' => ?_, by simp [he], by simp [hd]⟩
    · cases hrec.symm.trans hr
    · cases hp.symm.trans hp'
  | some r =>
    obtain ⟨codec', rate', hc⟩ := h.cast
    obtain ⟨rfl, rfl⟩ := hc.record r hrec
    obtain ⟨rfl, rfl⟩ := hr r hrec
    exact hc

theorem init : Uniform MediaService.init :=
  ⟨⟨0, 0, nofun, nofun, nofun, nofun⟩, fun _ => ⟨rfl, rfl, rfl, rfl, rfl⟩⟩

theorem startAudio (h : Uniform s) : Uniform (s.startAudio a e) := by
  constructor
  · cases hrec : s.shared.m_iRecord with
    | none =>
      have hc : Cast a.codecType a.SampleRate s.shared :=
        h.cast_of fun r hr => nomatch hrec.symm.trans hr
      exact ⟨_, _, hc.startAudio fun hu => ⟨rfl, rfl, (h.unmade hu).2.1, (h.unmade hu).2.2.1⟩⟩
    | some r =>
      obtain ⟨codec, rate, hc⟩ := h.cast
      refine ⟨codec, rate, hc.startAudio fun hu => ?_⟩
      exact absurd (hrec.symm.trans (h.unmade hu).2.1) (by simp)
  · cases hr : (s.opened e).shared.recordFor a e with
    | none =>
      rw [startAudio_none hr]
      exact h.unmade
    | some r =>
      rw [startAudio_some hr]
      rintro (hn | hn) <;> cases hn

theorem step {i : MediaInput} (h : Uniform s) : Uniform ((media getByName).step s i) := by
  cases i with
  | startAudio a e => exact h.startAudio
  | stopAudio =>
    obtain ⟨codec, rate, hc⟩ := h.cast
    refine ⟨⟨codec, rate, hc.stopAudio⟩, fun hu => ?_⟩
    obtain ⟨h₁, h₂, h₃, h₄, h₅⟩ := h.unmade (hu.imp Option.map_eq_none_iff.1 Option.map_eq_none_iff.1)
    exact ⟨h₁, Option.map_eq_none_iff.2 h₂, Option.map_eq_none_iff.2 h₃, h₄, h₅⟩
  | turn t c =>
    show Uniform (s.turned getByName c t)
    cases hq : s.places[t]? with
    | none => rwa [MediaService.turned, Threads.turn_none hq]
    | some q =>
      have hne : ¬ (s.shared.m_iRecord = none ∨ s.shared.m_iPlay = none) := by
        intro hu
        rw [(h.unmade hu).1] at hq
        cases hq
      obtain ⟨codec, rate, hc⟩ := h.cast
      have hsh : (s.turned getByName c t).shared =
          (s.shared.turn getByName c t s.places.length q).shared := turned_shared hq
      refine ⟨⟨codec, rate, hsh ▸ hc.turn⟩, fun hu => absurd ?_ hne⟩
      rw [hsh] at hu
      have hrec : (s.shared.turn getByName c t s.places.length q).shared.m_iRecord.map
          (·.settings) = s.shared.m_iRecord.map (·.settings) := Media.turn_recordSettings q
      have hplay : (s.shared.turn getByName c t s.places.length q).shared.m_iPlay.map
          (·.settings) = s.shared.m_iPlay.map (·.settings) := Media.turn_playSettings q
      rcases hu with hu | hu
      · rw [hu, Option.map_none, eq_comm, Option.map_eq_none_iff] at hrec
        exact Or.inl hrec
      · rw [hu, Option.map_none, eq_comm, Option.map_eq_none_iff] at hplay
        exact Or.inr hplay

end Uniform

/-! ## A call that is served -/

/-- What the threads share is for the call. -/
structure Suits (getByName : Str → Option Str) (a : AudioArgs) (m : Media) : Prop where
  cast : Cast a.codecType a.SampleRate m
  dest : ∀ r, m.m_iRecord = some r → r.destip = a.Destaddr ∧ r.destport = a.RtpPort
  unknown : getByName a.Destaddr = none → ∀ r, m.m_iRecord = some r → r.rtp_socket = none

/-- What thread `t` has come to is for the call. -/
def Attends (getByName : Str → Option Str) (a : AudioArgs) (m : Media) (t : ℕ) :
    MediaThread → Prop
  | .recorder run _ =>
    (∀ address, run = .connecting address → getByName a.Destaddr = some address) ∧
      (∀ q, run = .storing q → Called getByName a q) ∧
      ∀ r, m.m_iRecord = some r → r.runner = some t → (run.made → m.encoderOf r ≠ none) ∧
        (run.bound → ∀ q, r.rtp_socket = some q → Called getByName a q)
  | .player run _ => run ≠ .starting →
    ∀ p, m.m_iPlay = some p → p.runner = some t → m.decoderOf p ≠ none
  | _ => True

/-- The service and its threads are for the call. -/
abbrev Attended (getByName : Str → Option Str) (a : AudioArgs) (s : MediaService) : Prop :=
  Threads.Annotated (Suits getByName a) (Attends getByName a) s

theorem Attended.serves (h : Attended getByName a s) : Serves getByName a s where
  rate r n run hc := (h.shared.cast.record r hc.record).2
  encodes r n run hc he := by
    obtain ⟨w, hw⟩ := hc.place
    obtain ⟨x, hx⟩ := Option.ne_none_iff_exists'.1
      (((h.place n _ hw).2.2 r hc.record hc.runner).1 he)
    obtain ⟨-, hg⟩ := Media.encoderOf_eq_some.1 hx
    exact ⟨x.1, x.2, hx, h.shared.cast.encoders _ (List.mem_of_getElem? hg)⟩
  sends r n run hc hb := by
    obtain ⟨w, hw⟩ := hc.place
    exact ((h.place n _ hw).2.2 r hc.record hc.runner).2 hb
  track p hp _ := (h.shared.cast.play p hp).2
  decodes p n run w hp hn hw hs := by
    have hne : run ≠ .starting := by
      rintro rfl
      cases hs
    obtain ⟨x, hx⟩ := Option.ne_none_iff_exists'.1 (h.place n _ hw hne p hp hn)
    obtain ⟨-, hg⟩ := Media.decoderOf_eq_some.1 hx
    exact ⟨x.1, x.2, hx, h.shared.cast.decoders _ (List.mem_of_getElem? hg)⟩

theorem Suits.turn {q : MediaThread} (h : Suits getByName a m) (hq : Attends getByName a m t q) :
    Suits getByName a (m.turn getByName c t n q).shared := by
  refine ⟨h.cast.turn, fun r' hr' => ?_, fun hn r' hr' => ?_⟩
  · obtain ⟨r, hr, hset⟩ := Media.turn_record hr'
    have hip : r'.destip = r.destip := congrArg (·.destip) hset
    have hport : r'.destport = r.destport := congrArg (·.destport) hset
    rw [hip, hport]
    exact h.dest r hr
  · obtain ⟨r, hr, hs | ⟨peer, w, rfl, -⟩⟩ := Media.turn_rtp_socket hr'
    · rw [hs]
      exact h.unknown hn r hr
    · exact absurd (hn.symm.trans (hq.2.1 peer rfl).1) (by simp)

/-- A turn of one thread does not disturb another one. -/
theorem Attends.stable {q q' : MediaThread} (hq : Attends getByName a m t q)
    (hu : Attends getByName a m u q') :
    Attends getByName a (m.turn getByName c t n q).shared u q' := by
  cases q' with
  | recorder run w =>
    refine ⟨hu.1, hu.2.1, fun r' hr' hn => ?_⟩
    obtain ⟨r, hr, hset⟩ := Media.turn_record hr'
    obtain ⟨henc, hbound⟩ := hu.2.2 r hr (settings_runner hset ▸ hn)
    refine ⟨fun he => Media.turn_encoderOf hr hr' (henc he), fun hb p hp => ?_⟩
    obtain ⟨r₁, hr₁, hs | ⟨peer, w, rfl, hs⟩⟩ := Media.turn_rtp_socket hr'
    · cases hr.symm.trans hr₁
      exact hbound hb p (hs ▸ hp)
    · cases hs.symm.trans hp
      exact hq.2.1 p rfl
  | player run w =>
    intro hrun p' hp' hn
    obtain ⟨p, hp, hset⟩ := Media.turn_play hp'
    have hn' : p.runner = p'.runner := (congrArg (·.runner) hset).symm
    exact Media.turn_decoderOf hp hp' (hu hrun p hp (hn'.trans hn))
  | _ => trivial

theorem made_of_loops (h : run.loops) : run.made := by
  cases run <;> first | rfl | cases h

theorem bound_of_loops (h : run.loops) : run.bound := by
  cases run <;> first | rfl | cases h

theorem Attends.own_recorder (h : Suits getByName a m)
    (hq : Attends getByName a m t (.recorder run w)) (hr : m.m_iRecord = some r) :
    Attends getByName a (m.turn getByName c t n (.recorder run w)).shared t
      (m.turn getByName c t n (.recorder run w)).place := by
  have hst : Attends getByName a (m.turn getByName c t n (.recorder run w)).shared t
      (.recorder run w) := hq.stable hq
  have ht : Media.RecorderTurn getByName t n m r w run (m.turn getByName c t n (.recorder run w)) :=
    Media.turn_recorder hr
  obtain ⟨hip, hport⟩ := h.dest r hr
  generalize m.turn getByName c t n (.recorder run w) = x at ht hst
  cases ht with
  | resolved address hg =>
    refine ⟨?_, nofun, fun _ _ _ => ⟨nofun, nofun⟩⟩
    rintro _ ⟨⟩
    exact hip ▸ hg
  | unknown hg =>
    refine ⟨nofun, nofun, fun r' hr' _ => ⟨nofun, fun _ q hq' => ?_⟩⟩
    cases hr.symm.trans hr'
    exact absurd ((h.unknown (hip ▸ hg) r hr).symm.trans hq') (by simp)
  | addressed address =>
    refine ⟨nofun, ?_, fun _ _ _ => ⟨nofun, nofun⟩⟩
    rintro _ ⟨⟩
    exact ⟨hq.1 address rfl, hport⟩
  | stored peer =>
    refine ⟨nofun, nofun, fun r' hr' _ => ⟨nofun, fun _ q hq' => ?_⟩⟩
    cases hr'
    cases hq'
    exact hq.2.1 peer rfl
  | created =>
    refine ⟨nofun, nofun, fun r' hr' hn => ⟨fun _ => ?_, fun _ => (hst.2.2 r' hr' hn).2 rfl⟩⟩
    cases hr'
    exact Media.encoderOf_ne_none.2 ⟨m.encoders.length, rfl, by simp⟩
  | woken e o _ =>
    exact ⟨nofun, nofun, fun r' hr' hn =>
      ⟨fun _ => (hst.2.2 r' hr' hn).1 rfl, fun _ => (hst.2.2 r' hr' hn).2 rfl⟩⟩
  | recording =>
    exact ⟨nofun, nofun, fun r' hr' hn =>
      ⟨fun _ => (hst.2.2 r' hr' hn).1 rfl, fun _ => (hst.2.2 r' hr' hn).2 rfl⟩⟩
  | running =>
    exact ⟨nofun, nofun, fun r' hr' hn =>
      ⟨fun _ => (hst.2.2 r' hr' hn).1 rfl, fun _ => (hst.2.2 r' hr' hn).2 rfl⟩⟩
  | looped _ run' m' _ hl hl' =>
    refine ⟨?_, ?_, fun r' hr' hn => ?_⟩
    · rintro _ rfl
      cases hl'
    · rintro _ rfl
      cases hl'
    · have hold := hst.2.2 r' hr' hn
      exact ⟨fun _ => hold.1 (made_of_loops hl), fun _ => hold.2 (bound_of_loops hl)⟩
  | _ => exact ⟨nofun, nofun, fun _ _ _ => ⟨nofun, nofun⟩⟩

theorem Attends.own_player {run : PlayerRun} (hq : Attends getByName a m t (.player run w))
    (hp : m.m_iPlay = some p) :
    Attends getByName a (m.turn getByName c t n (.player run w)).shared t
      (m.turn getByName c t n (.player run w)).place := by
  have ht : Media.PlayerTurn c t n m p w run (m.turn getByName c t n (.player run w)) :=
    Media.turn_player hp
  have hst : Attends getByName a (m.turn getByName c t n (.player run w)).shared t
      (.player run w) := hq.stable hq
  have hdec : m.decoderOf p ≠ none → ∀ p',
      (m.turn getByName c t n (.player run w)).shared.m_iPlay = some p' →
        (m.turn getByName c t n (.player run w)).shared.decoderOf p' ≠ none :=
    fun h p' hp' => Media.turn_decoderOf hp hp' h
  generalize m.turn getByName c t n (.player run w) = x at ht hst hdec
  cases ht with
  | created =>
    rintro - p' ⟨⟩ -
    exact Media.decoderOf_ne_none.2 ⟨m.decoders.length, rfl, by simp⟩
  | woken d o hd => exact fun _ p' hp' _ => hdec (by simp [hd]) p' hp'
  | undecoded hd =>
    rintro - p' hp' hn
    cases hp.symm.trans hp'
    exact absurd hd (hq nofun p hp hn)
  | handed _ _ _ _ hs =>
    refine fun _ => hst ?_
    rintro rfl
    cases hs
  | _ =>
    refine fun _ => hst ?_
    rintro rfl
    contradiction

/-- What is attended stays so until the next call. -/
theorem Attended.step {i : MediaInput} (h : Attended getByName a s) (hi : i.continues) :
    Attended getByName a ((media getByName).step s i) := by
  cases i with
  | startAudio a e => cases hi
  | stopAudio =>
    refine h.of_shared ⟨h.shared.cast.stopAudio, fun r hr => ?_, fun hn r hr => ?_⟩ ?_
    · obtain ⟨r', hr', rfl⟩ := Option.map_eq_some_iff.1 hr
      exact h.shared.dest r' hr'
    · obtain ⟨r', hr', rfl⟩ := Option.map_eq_some_iff.1 hr
      exact h.shared.unknown hn r' hr'
    · intro u q _ hA
      cases q with
      | recorder run w =>
        refine ⟨hA.1, hA.2.1, fun r hr hn => ?_⟩
        obtain ⟨r', -, rfl⟩ := Option.map_eq_some_iff.1 hr
        cases hn
      | player run w =>
        intro _ p hp hn
        obtain ⟨p', -, rfl⟩ := Option.map_eq_some_iff.1 hp
        cases hn
      | _ => trivial
  | turn t c =>
    refine h.turn fun q hq hA => ⟨h.shared.turn hA, ?_, ?_, fun u q' _ _ => hA.stable⟩
    · cases q with
      | recorder run w =>
        cases hr : s.shared.m_iRecord with
        | some r => exact Attends.own_recorder h.shared hA hr
        | none =>
          rw [Media.turn_recorder_none hr]
          exact hA
      | player run w =>
        cases hp : s.shared.m_iPlay with
        | some p => exact Attends.own_player hA hp
        | none =>
          rw [Media.turn_player_none hp]
          exact hA
      | encoder e run =>
        have he : ∃ run', (s.shared.turn getByName c t s.places.length (.encoder e run)).place =
            .encoder e run' := (Media.turn_encoder e run).1
        obtain ⟨run', he⟩ := he
        rw [he]
        trivial
      | decoder d run =>
        have hd : ∃ run', (s.shared.turn getByName c t s.places.length (.decoder d run)).place =
            .decoder d run' := (Media.turn_decoder d run).1
        obtain ⟨run', hd⟩ := hd
        rw [hd]
        trivial
    · intro q' hq'
      rcases Media.turn_started hq' with ⟨e, rfl⟩ | ⟨d, rfl⟩ <;> trivial

theorem Attended.runs {is : List MediaInput} (h : Attended getByName a s)
    (hi : ∀ i ∈ is, i.continues) : Attended getByName a ((media getByName).run s is) := by
  induction is generalizing s with
  | nil => exact h
  | cons i is ih =>
    rw [Machine.run_cons]
    exact ih (h.step (hi i List.mem_cons_self)) fun j hj => hi j (List.mem_cons_of_mem i hj)

theorem recordFor_none (h : m.recordFor a e = none) : m.m_iRecord = none := by
  unfold Media.recordFor at h
  split at h
  · assumption
  · cases h

/-- What the threads share behind a call that matches is for it. -/
theorem suits_startAudio (hu : Uniform s) (hm : Matches getByName s (.startAudio a e)) :
    Suits getByName a (s.startAudio a e).shared := by
  have hcast : Cast a.codecType a.SampleRate (s.startAudio a e).shared :=
    (hu.cast_of fun r hr => ⟨(hm r hr).1, (hm r hr).2.1⟩).startAudio fun h =>
      ⟨rfl, rfl, (hu.unmade h).2.1, (hu.unmade h).2.2.1⟩
  cases hr : (s.opened e).shared.recordFor a e with
  | none =>
    have hnone : s.shared.m_iRecord = none := recordFor_none (m := (s.opened e).shared) hr
    rw [startAudio_none hr] at hcast ⊢
    refine ⟨hcast, fun r h => ?_, fun _ r h => ?_⟩
    · cases hnone.symm.trans h
    · cases hnone.symm.trans h
  | some r =>
    rw [startAudio_some hr] at hcast ⊢
    refine ⟨hcast, ?_, ?_⟩
    · obtain ⟨hip, hport⟩ := recordFor_destination hr
      rintro r' ⟨⟩
      exact ⟨hip, hport⟩
    · rintro hn r' ⟨⟩
      unfold Media.recordFor at hr
      split at hr
      · unfold LanAudioRecord.create at hr
        split_ifs at hr
        cases hr
        rfl
      next r₀ hr₀ =>
        cases hr
        exact (hm r₀ hr₀).2.2.1 hn

/-- A call that matches is not disturbed by the threads of earlier calls. -/
theorem attends_called {q : MediaThread} (hu : Uniform s)
    (hm : Matches getByName s (.startAudio a e)) (hq : s.places[u]? = some q) :
    Attends getByName a (m.called s.places.length r p) u q := by
  have hlt := Threads.lt_of_place hq
  cases q with
  | recorder run w =>
    obtain ⟨r₀, hr₀⟩ : ∃ r₀, s.shared.m_iRecord = some r₀ := by
      refine Option.ne_none_iff_exists'.1 fun hnone => ?_
      simp [(hu.unmade (Or.inl hnone)).1] at hq
    obtain ⟨-, -, -, hcon, hsto⟩ := hm r₀ hr₀
    refine ⟨?_, ?_, ?_⟩
    · rintro address rfl
      exact hcon u address ⟨w, hq⟩
    · rintro q rfl
      exact hsto u q ⟨w, hq⟩
    · rintro r' ⟨⟩ hn
      exact absurd (Option.some.inj hn) (by omega)
  | player run w =>
    rintro - p' ⟨⟩ hn
    exact absurd (Option.some.inj hn) (by omega)
  | _ => trivial

/-- A call that matches is attended. -/
theorem attended_startAudio (hu : Uniform s) (hm : Matches getByName s (.startAudio a e)) :
    Attended getByName a (s.startAudio a e) := by
  have hsuits := suits_startAudio hu hm
  cases hr : (s.opened e).shared.recordFor a e with
  | none =>
    have hnone : s.shared.m_iRecord = none := recordFor_none (m := (s.opened e).shared) hr
    rw [startAudio_none hr] at hsuits ⊢
    refine ⟨hsuits, fun u q hq => ?_⟩
    have hq' : s.places[u]? = some q := hq
    simp [(hu.unmade (Or.inl hnone)).1] at hq'
  | some r =>
    rw [startAudio_some hr] at hsuits ⊢
    refine .of_append hsuits (fun u q hq => attends_called hu hm hq) ?_
    rintro (_ | _ | i) q hq <;> cases hq
    · exact ⟨nofun, nofun, fun _ _ _ => ⟨nofun, nofun⟩⟩
    · exact fun h => absurd rfl h

/-! ## Calls that are not served -/

/-- A turn of a recorder thread that only goes on. -/
theorem turned_recorder {m' : Media} (hq : s.places[t]? = some (.recorder run w))
    (hr : s.shared.m_iRecord = some r)
    (h : s.shared.recorderTurn getByName c t s.places.length r w run = m'.goes (.recorder run' w)) :
    (s.turned getByName c t).places[t]? = some (.recorder run' w) ∧
      (s.turned getByName c t).shared = m' := by
  have ht : s.shared.turn getByName c t s.places.length (.recorder run w) =
      m'.goes (.recorder run' w) := by
    rw [Media.turn, hr]
    exact h
  refine ⟨?_, ?_⟩
  · rw [MediaService.turned, Threads.place_turn_self hq, ht]
    rfl
  · rw [turned_shared hq, ht]
    rfl

/-- The call is served until the next. -/
def Served (getByName : Str → Option Str) (a : AudioArgs) (s : MediaService) : Prop :=
  ∀ is : List MediaInput, (∀ i ∈ is, i.continues) →
    Serves getByName a ((media getByName).run s is)

theorem Served.serves (h : Served getByName a s) : Serves getByName a s := h [] nofun

theorem Served.turned (h : Served getByName a s) :
    Served getByName a (s.turned getByName c t) := by
  intro is hi
  refine h (.turn t c :: is) fun i hmem => ?_
  rcases List.mem_cons.1 hmem with rfl | hmem
  · rfl
  · exact hi i hmem

/-- The thread at its start can go on behind the store. -/
theorem Served.binds (h : Served getByName a s) (c : Chance)
    (hq : s.places[n]? = some (.recorder .starting w)) (hr : s.shared.m_iRecord = some r) :
    ∃ s', Served getByName a s' ∧ s'.places[n]? = some (.recorder .creating w) ∧
      (∀ u run, u ≠ n → (RecorderAt s' u run ↔ RecorderAt s u run)) ∧
      ∃ r', s'.shared.m_iRecord = some r' ∧ r'.settings = r.settings ∧
        (getByName r.destip = none → r'.rtp_socket = r.rtp_socket) := by
  cases hg : getByName r.destip with
  | none =>
    have hturn : s.shared.recorderTurn getByName c n s.places.length r w .starting =
        s.shared.goes (.recorder .creating w) := by
      simp only [Media.recorderTurn, hg]
    obtain ⟨hq₁, hs₁⟩ := turned_recorder hq hr hturn
    exact ⟨_, h.turned, hq₁, fun u run hu => recorderAt_turned_of_ne hu, r, hs₁ ▸ hr, rfl,
      fun _ => rfl⟩
  | some address =>
    have hturn : s.shared.recorderTurn getByName c n s.places.length r w .starting =
        s.shared.goes (.recorder (.connecting address) w) := by
      simp only [Media.recorderTurn, hg]
    obtain ⟨hq₁, hs₁⟩ := turned_recorder hq hr hturn
    obtain ⟨hq₂, hs₂⟩ := turned_recorder (c := c) hq₁ (hs₁ ▸ hr) rfl
    obtain ⟨hq₃, hs₃⟩ := turned_recorder (c := c) hq₂ (hs₂ ▸ hs₁ ▸ hr) rfl
    refine ⟨_, h.turned.turned.turned, hq₃, fun u run hu => ?_,
      { r with rtp_socket := some ⟨address, r.destport⟩ }, by rw [hs₃]; rfl, rfl,
      fun hn => absurd hn (by simp)⟩
    rw [recorderAt_turned_of_ne hu, recorderAt_turned_of_ne hu, recorderAt_turned_of_ne hu]

/-- What another thread is about to store is the call's peer. -/
theorem Served.stores {peer : Peer} (h : Served getByName a s) (c : Chance)
    (hc : Current s r n .creating) (hut : u ≠ n) (hu : RecorderAt s u (.storing peer)) :
    Called getByName a peer := by
  obtain ⟨w, hw⟩ := hu
  have hturn : s.shared.recorderTurn getByName c u s.places.length r w (.storing peer) =
      (s.shared.setRecord { r with rtp_socket := some peer }).goes (.recorder .creating w) := rfl
  obtain ⟨-, hs⟩ := turned_recorder hw hc.record hturn
  have hc' : Current (s.turned getByName c u) { r with rtp_socket := some peer } n .creating :=
    ⟨by rw [hs]; rfl, hc.runner, (recorderAt_turned_of_ne hut.symm).2 hc.place⟩
  exact h.turned.serves.sends _ n .creating hc' rfl peer rfl

/-- What another thread has resolved is the call's address. -/
theorem Served.connects {address : Str} (h : Served getByName a s) (c : Chance)
    (hc : Current s r n .creating) (hut : u ≠ n) (hu : RecorderAt s u (.connecting address)) :
    getByName a.Destaddr = some address := by
  obtain ⟨w, hw⟩ := hu
  have hturn : s.shared.recorderTurn getByName c u s.places.length r w (.connecting address) =
      s.shared.goes (.recorder (.storing ⟨address, r.destport⟩) w) := rfl
  obtain ⟨hw', hs⟩ := turned_recorder hw hc.record hturn
  have hc' : Current (s.turned getByName c u) r n .creating :=
    ⟨by rw [hs, hc.record], hc.runner, (recorderAt_turned_of_ne hut.symm).2 hc.place⟩
  exact (h.turned.stores c hc' hut ⟨w, hw'⟩).1

/-- The encoder that the thread makes is for the call's codec. -/
theorem Served.codes (h : Served getByName a s) (c : Chance) (hc : Current s r n .creating) :
    r.codectype = a.codecType := by
  obtain ⟨w, hw⟩ := hc.place
  have hturn : s.shared.recorderTurn getByName c n s.places.length r w .creating =
      (s.shared.newEncoder r).goes (.recorder .waking w) := rfl
  obtain ⟨hw', hs⟩ := turned_recorder hw hc.record hturn
  have hc' : Current (s.turned getByName c n) { r with encoder := some s.shared.encoders.length } n
      .waking := ⟨by rw [hs]; rfl, hc.runner, w, hw'⟩
  obtain ⟨i, o, ho, hcode⟩ := h.turned.serves.encodes _ n .waking hc' rfl
  obtain ⟨hi, hg⟩ := Media.encoderOf_eq_some.1 ho
  cases hi
  rw [hs, Media.newEncoder_encoders, List.getElem?_append_right le_rfl, Nat.sub_self] at hg
  cases hg
  exact hcode

theorem Served.matches (h : Served getByName a (s.startAudio a e)) :
    Matches getByName s (.startAudio a e) := by
  intro r₀ hr₀
  have hfor : (s.opened e).shared.recordFor a e =
      some ((r₀.stopThread.setDestIP a.Destaddr).setDestPort a.RtpPort) := by
    unfold Media.recordFor
    rw [show (s.opened e).shared.m_iRecord = some r₀ from hr₀]
  have hold : ∀ u run, RecorderAt s u run → u ≠ s.places.length ∧
      RecorderAt (s.startAudio a e) u run := by
    rintro u run ⟨w, hw⟩
    have hlt := Threads.lt_of_place hw
    refine ⟨hlt.ne, w, ?_⟩
    rw [startAudio_some hfor, ← hw]
    exact List.getElem?_append_left hlt
  have hq : (s.startAudio a e).places[s.places.length]? = some (.recorder .starting none) := by
    rw [startAudio_some hfor, List.getElem?_append_right le_rfl, Nat.sub_self]
    rfl
  have hr : (s.startAudio a e).shared.m_iRecord = some
      { (r₀.stopThread.setDestIP a.Destaddr).setDestPort a.RtpPort with
        runner := some s.places.length } := by
    rw [startAudio_some hfor]
    rfl
  let c : Chance := ⟨false, none, none, false⟩
  obtain ⟨s', h', hq', hsame, r', hr', hset, hsock⟩ := h.binds c hq hr
  have hc : Current s' r' s.places.length .creating := ⟨hr', settings_runner hset, none, hq'⟩
  have hcodec : r'.codectype = r₀.codectype := congrArg (·.codectype) hset
  have hrate := h.serves.rate _ s.places.length .starting ⟨hr, rfl, none, hq⟩
  refine ⟨?_, hrate, ?_, ?_, ?_⟩
  · exact hcodec.symm.trans (h'.codes c hc)
  · intro hn
    cases hk : r₀.rtp_socket with
    | none => rfl
    | some q =>
      have hcall := h'.serves.sends r' _ .creating hc rfl q ((hsock hn).trans hk)
      exact absurd (hn.symm.trans hcall.1) (by simp)
  · intro t address ht
    obtain ⟨hne, ht'⟩ := hold t _ ht
    exact h'.connects c hc hne ((hsame t _ hne).2 ht')
  · intro t q ht
    obtain ⟨hne, ht'⟩ := hold t _ ht
    exact h'.stores c hc hne ((hsame t _ hne).2 ht')

/-- **Later calls.**  Every call of a run is served, with its codec, sample rate, address and
    port, whatever the threads do until the next, in exactly the runs in which each call has
    the codec and the sample rate of the first recorder, finds no peer stored if its address
    is unknown, and no recorder thread about to store another peer than its own. -/
theorem follows_along_iff (getByName : Str → Option Str) (is : List MediaInput) :
    (media getByName).Along MediaService.init is (fun _ st => Follows getByName st) ↔
      (media getByName).Along MediaService.init is
        (fun _ st => Matches getByName st.pre st.input) := by
  refine (media getByName).along_congr (I := fun _ s => Uniform s) Uniform.init ?_ ?_ is
  · exact fun _ s i h => h.step
  · intro _ s i h
    constructor
    · intro hf
      cases i with
      | startAudio a e =>
        have hs : Served getByName a (s.startAudio a e) := hf a e rfl
        exact hs.matches
      | _ => trivial
    · rintro hm a e rfl is hi
      exact ((attended_startAudio h hm).runs hi).serves

/-- The second call has another codec and sample rate: it is encoded as the first. -/
theorem second_call_misserved : ¬ ∀ is, (media some).Along MediaService.init is
    fun _ st => Follows some st := by
  intro h
  have hrun := h ([Trace.callTo 8 8000 "10.0.0.2", .stopAudio] ++
    [Trace.callTo 9 16000 "10.0.0.2"])
  have hlast := ((media some).along_snoc.1 hrun).2 _ _ rfl [] nofun
  have hrate := hlast.rate _ 2 .starting ⟨rfl, rfl, none, rfl⟩
  exact absurd hrate (by decide)

end JaySip
