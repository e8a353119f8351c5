/-
  What a call leaves behind: the decoder thread, and the native codecs that are open.
-/
import JaySip.Proof.Serves

namespace JaySip

open Java

variable {getByName : Str → Option Str} {c : Chance} {t n k d : ℕ} {m m' : Media}
  {r : LanAudioRecord} {p : LanAudioPlay} {o : Coding} {w : Option ℕ} {s : MediaService}
  {code rate : ℤ}

/-- The step is a call with a native codec, whose recorder thread is `n` and player thread `k`. -/
structure NativeCall (st : Machine.Step MediaService MediaInput) (n k : ℕ) : Prop where
  native : ∃ a e, st.input = .startAudio a e ∧ (a.codecType = 9 ∨ a.codecType = 101)
  recorder : ∃ r, st.post.shared.m_iRecord = some r ∧ r.runner = some n
  player : ∃ p, st.post.shared.m_iPlay = some p ∧ p.runner = some k

/-- The call with these threads is stopped, and they have ended, as have those of its encoder. -/
structure Over (n k : ℕ) (s : MediaService) : Prop where
  record : ∀ r, s.shared.m_iRecord = some r → r.runner ≠ some n
  play : ∀ p, s.shared.m_iPlay = some p → p.runner ≠ some k
  recorder : ∃ w, s.places[n]? = some (.recorder .ended w)
  player : ∃ w, s.places[k]? = some (.player .ended w)
  encoder : ∀ (e t : ℕ) (run : CodingRun), s.places[n]? = some (.recorder .ended (some e)) →
    s.places[t]? = some (.encoder e run) → run = .ended

/-- The decoder thread of the call with player thread `k` has been told to stop, the native
    codecs are as often open as before the call, and the counters are 0. -/
structure Released (k : ℕ) (pre s : MediaService) : Prop where
  decoder : ∀ d o, s.places[k]? = some (.player .ended (some d)) → s.shared.decoders[d]? = some o →
    o.runner = none
  codec_open : ∀ code,
    s.shared.natives.codec_open code = pre.shared.natives.codec_open code
  num_recv : s.shared.num_recv = 0
  num_send : s.shared.num_send = 0

/-- Decoder `d` has a thread, which has not been told to stop. -/
def Media.DecoderRuns (m : Media) (d : ℕ) : Prop := ∃ o, m.decoders[d]? = some o ∧ o.runner ≠ none

/-- A player has a decoder when it has made one, and has started the one whose thread it
    called. -/
def HasDecoder (m : Media) : MediaThread → Prop
  | .player run w => (run ≠ .starting → ∃ p, m.m_iPlay = some p ∧ m.decoderOf p ≠ none) ∧
      (run.started → ∃ d, w = some d ∧ m.DecoderRuns d)
  | _ => True

/-! ## Decoder threads -/

theorem Media.DecoderRuns.spares (h : m.DecoderRuns d) (hs : m.SparesPlay m') :
    m'.DecoderRuns d := by
  unfold DecoderRuns at h ⊢
  rw [runs_iff_core] at h ⊢
  rwa [hs.decoders]

/-- `startThread` only starts threads. -/
theorem Media.DecoderRuns.startThread {i : ℕ} (h : m.DecoderRuns d) :
    (m.onDecoder i (·.startThread n)).DecoderRuns d := by
  obtain ⟨o, ho, hn⟩ := h
  by_cases hi : i = d
  · subst hi
    refine ⟨o.startThread n, ?_, startThread_runner⟩
    rw [Media.onDecoder_decoders, List.getElem?_modify_eq, ho]
    rfl
  · refine ⟨o, ?_, hn⟩
    rw [Media.onDecoder_decoders, List.getElem?_modify, ho]
    exact congrArg some (if_neg hi)

theorem decoderRuns_started (h : m.decoderOf p = some (d, o)) :
    (m.onDecoder d (·.startThread n)).DecoderRuns d := by
  obtain ⟨-, hg⟩ := Media.decoderOf_eq_some.1 h
  refine ⟨o.startThread n, ?_, startThread_runner⟩
  rw [Media.onDecoder_decoders, List.getElem?_modify_eq, hg]
  rfl

/-- No turn tells a decoder thread to stop. -/
theorem Media.DecoderRuns.turn {q : MediaThread} (h : m.DecoderRuns d) :
    (m.turn getByName c t n q).shared.DecoderRuns d := by
  cases hq : q.plays with
  | false => exact h.spares (Media.turn_sparesPlay hq)
  | true =>
    obtain ⟨run, w, rfl⟩ := exists_of_plays hq
    cases hp : m.m_iPlay with
    | none => rwa [Media.turn_player_none hp]
    | some p =>
      have ht : Media.PlayerTurn c t n m p w run (m.turn getByName c t n (.player run w)) :=
        Media.turn_player hp
      generalize m.turn getByName c t n (.player run w) = x at ht
      cases ht with
      | created =>
        obtain ⟨o, ho, hn⟩ := h
        refine ⟨o, ?_, hn⟩
        rw [Media.goes_shared, Media.newDecoder_decoders,
          List.getElem?_append_left (List.getElem?_eq_some_iff.1 ho).1, ho]
      | woken => exact h.startThread
      | received _ _ _ _ _ _ hr =>
        obtain ⟨u, rfl⟩ := Media.receive_eq hr
        exact h
      | handed _ _ _ _ _ _ _ hs => exact h.spares hs
      | _ => exact h

/-- A turn of one thread does not disturb another one. -/
theorem HasDecoder.stable {q q' : MediaThread} (h : HasDecoder m q') :
    HasDecoder (m.turn getByName c t n q).shared q' := by
  cases q' with
  | player run w =>
    refine ⟨fun hrun => ?_, fun hrun => ?_⟩
    · obtain ⟨p, hp, hd⟩ := h.1 hrun
      have hs : (m.turn getByName c t n q).shared.m_iPlay.map (·.settings) =
          m.m_iPlay.map (·.settings) := Media.turn_playSettings q
      rw [hp, Option.map_some, Option.map_eq_some_iff] at hs
      obtain ⟨p', hp', -⟩ := hs
      exact ⟨p', hp', Media.turn_decoderOf hp hp' hd⟩
    · obtain ⟨d, rfl, hd⟩ := h.2 hrun
      exact ⟨d, rfl, hd.turn⟩
  | _ => trivial

/-- A turn of a player. -/
theorem HasDecoder.own {run : PlayerRun} (h : HasDecoder m (.player run w)) :
    HasDecoder (m.turn getByName c t n (.player run w)).shared
      (m.turn getByName c t n (.player run w)).place := by
  cases hp : m.m_iPlay with
  | none =>
    rw [Media.turn_player_none hp]
    exact h
  | some p =>
    have ht : Media.PlayerTurn c t n m p w run (m.turn getByName c t n (.player run w)) :=
      Media.turn_player hp
    have hst : HasDecoder (m.turn getByName c t n (.player run w)).shared (.player run w) :=
      h.stable
    generalize m.turn getByName c t n (.player run w) = x at ht hst
    have hgoes : ∀ run', run.started → HasDecoder x.shared (.player run' w) := by
      intro run' hrun
      refine ⟨fun _ => hst.1 ?_, fun _ => hst.2 hrun⟩
      rintro rfl
      cases hrun
    have hrec : run.receives → run.started := by
      cases run <;> first | exact fun _ => rfl | exact nofun
    cases ht with
    | created => exact ⟨fun _ => ⟨_, rfl, Media.decoderOf_ne_none.2 ⟨_, rfl, by simp⟩⟩, nofun⟩
    | woken d o hd => exact ⟨fun _ => hst.1 nofun, fun _ => ⟨d, rfl, decoderRuns_started hd⟩⟩
    | undecoded hd =>
      obtain ⟨p', hp', hne⟩ := h.1 nofun
      cases hp.symm.trans hp'
      exact absurd hd hne
    | received _ _ _ hr => exact hgoes _ (hrec hr)
    | waited _ hr => exact hst
    | deaf _ hr => exact hgoes _ (hrec hr)
    | handed _ _ _ _ hs => exact hgoes _ hs

/-- Every player has a decoder when it has made one, and has started one behind that. -/
abbrev Decoding (s : MediaService) : Prop :=
  Threads.Annotated (fun _ => True) (fun m _ => HasDecoder m) s

theorem hasDecoder_of_plays {q : MediaThread} (h : q.plays = false) : HasDecoder m q := by
  cases q with
  | player run w => cases h
  | _ => trivial

/-- A change that leaves the decoders. -/
theorem HasDecoder.of_kept {q : MediaThread} (h : HasDecoder m q) (hp : ∀ p, m.m_iPlay = some p →
    ∃ p', m'.m_iPlay = some p' ∧ p'.decoder = p.decoder) (hd : m'.decoders = m.decoders) :
    HasDecoder m' q := by
  cases q with
  | player run w =>
    refine ⟨fun hrun => ?_, fun hrun => ?_⟩
    · obtain ⟨p, hp₀, hne⟩ := h.1 hrun
      obtain ⟨p', hp', he⟩ := hp p hp₀
      refine ⟨p', hp', ?_⟩
      rw [Media.decoderOf_ne_none] at hne ⊢
      rwa [he, hd]
    · obtain ⟨d, rfl, o, ho⟩ := h.2 hrun
      exact ⟨d, rfl, o, hd ▸ ho⟩
  | _ => trivial

theorem playFor_decoder {a : AudioArgs} {e : Platform} (h : m.m_iPlay = some p) :
    (m.playFor a e).decoder = p.decoder := by
  unfold Media.playFor
  rw [h]
  rfl

theorem Decoding.step {i : MediaInput} (h : Decoding s) :
    Decoding ((media getByName).step s i) := by
  cases i with
  | startAudio a e =>
    show Decoding (s.startAudio a e)
    cases hr : (s.opened e).shared.recordFor a e with
    | none =>
      rw [startAudio_none hr]
      exact h.of_shared trivial fun u q _ hA => hA
    | some r =>
      rw [startAudio_some hr]
      refine h.append trivial ?_ fun u q _ hA => ?_
      · rintro (_ | _ | i) q hq <;> cases hq
        · trivial
        · exact ⟨fun hn => absurd rfl hn, nofun⟩
      · exact hA.of_kept (fun p hp => ⟨_, rfl, playFor_decoder (m := (s.opened e).shared) hp⟩) rfl
  | stopAudio =>
    refine h.of_shared trivial fun u q _ hA => hA.of_kept (fun p hp => ?_) rfl
    exact ⟨p.stopThread, by simp [hp], rfl⟩
  | turn t c =>
    refine h.turn fun q hq hA => ⟨trivial, ?_, ?_, fun u q' _ _ hA' => hA'.stable⟩
    · cases hplays : q.plays with
      | false =>
        refine hasDecoder_of_plays ?_
        rw [(Media.turn_place q).2, hplays]
      | true =>
        obtain ⟨run, w, rfl⟩ := exists_of_plays hplays
        exact hA.own
    · intro q' hq'
      rcases Media.turn_started hq' with ⟨e, rfl⟩ | ⟨d, rfl⟩ <;> trivial

theorem Decoding.init : Decoding MediaService.init := by
  refine ⟨trivial, fun t q hq => ?_⟩
  simp [MediaService.init] at hq

/-- A call that is over has left its decoder thread running. -/
theorem Decoding.not_released {pre : MediaService} (h : Decoding s) (ho : Over n k s) :
    ¬ Released k pre s := by
  intro hr
  obtain ⟨w, hw⟩ := ho.player
  obtain ⟨d, rfl, o, hg, hn⟩ := (h.place k _ hw).2 rfl
  exact hn (hr.decoder d o hw hg)

/-! ## Open native codecs -/

/-- The thread keeps a native codec open: the recorder has made an encoder that it has yet to
    start, or the encoder's thread has not ended. -/
def MediaThread.opens : MediaThread → Bool
  | .recorder .waking _ => true
  | .encoder _ .ended => false
  | .encoder _ _ => true
  | _ => false

theorem codec_open_init (hn : code = 9 ∨ code = 101) (x : Natives Unit Unit) :
    (Codec.init code x).codec_open code = x.codec_open code + 1 := by
  rcases hn with rfl | rfl <;> rfl

theorem codec_open_close (hn : code = 9 ∨ code = 101) (x : Natives Unit Unit) :
    (Codec.close code x).codec_open code = x.codec_open code - 1 := by
  rcases hn with rfl | rfl <;> rfl

theorem recorderTurn_natives {run : RecorderRun} (hrun : run ≠ .creating) :
    (m.recorderTurn getByName c t n r w run).shared.natives = m.natives := by
  cases run with
  | creating => exact absurd rfl hrun
  | starting =>
    rw [Media.recorderTurn]
    cases getByName r.destip <;> rfl
  | waking =>
    rw [Media.recorderTurn]
    cases m.encoderOf r <;> rfl
  | recording =>
    rw [Media.recorderTurn]
    split_ifs <;> rfl
  | working =>
    rw [Media.recorderTurn]
    cases m.encoderOf r with
    | none => rfl
    | some x =>
      show Media.natives (Turn.shared (if _ then _ else Media.goes (if _ then _ else _) _)) =
        m.natives
      split_ifs <;> rfl
  | sending =>
    rw [Media.recorderTurn]
    cases m.encoderOf r <;> rfl
  | releasing =>
    rw [Media.recorderTurn]
    cases m.encoderOf r <;> rfl
  | _ => rfl

theorem receiving_natives {run next : PlayerRun} :
    (m.receiving c p run w next).shared.natives = m.natives := by
  unfold Media.receiving
  split_ifs
  · cases h : m.receive c.source with
    | none => rfl
    | some m' =>
      obtain ⟨u, rfl⟩ := Media.receive_eq h
      rfl
  · rfl

theorem playerTurn_natives {run : PlayerRun} (hrun : run ≠ .starting) :
    (m.playerTurn c t n p w run).shared.natives = m.natives := by
  cases run with
  | starting => exact absurd rfl hrun
  | waking =>
    rw [Media.playerTurn]
    cases m.decoderOf p <;> rfl
  | receiving => exact receiving_natives
  | emptying => exact receiving_natives
  | listening => exact receiving_natives
  | handing size =>
    rw [Media.playerTurn]
    cases m.decoderOf p with
    | none => rfl
    | some x =>
      show Media.natives (Turn.shared (if _ then if _ then _ else _ else _)) = m.natives
      split_ifs <;> rfl
  | _ => rfl

/-- The turn opens the native codec for what it makes: a decoder, or a thread that keeps it
    open. -/
def OpensNative (code : ℤ) (m : Media) (q : MediaThread) (x : Turn Media MediaThread) : Prop :=
  x.shared.decoders.length + x.place.opens.toNat + x.started.toList.countP MediaThread.opens +
      m.natives.codec_open code ≤
    m.decoders.length + q.opens.toNat + x.shared.natives.codec_open code

theorem OpensNative.goes (q : MediaThread) : OpensNative code m q (m.goes q) := by
  simp [OpensNative]

theorem SparesPlay.length (h : m.SparesPlay m') : m'.decoders.length = m.decoders.length := by
  have hl := congrArg List.length h.decoders
  rwa [List.length_map, List.length_map] at hl

theorem opens_recorder {run : RecorderRun} (hn : code = 9 ∨ code = 101) (hr : r.codectype = code) :
    OpensNative code m (.recorder run w) (m.recorderTurn getByName c t n r w run) := by
  have ht : Media.RecorderTurn getByName t n m r w run (m.recorderTurn getByName c t n r w run) :=
    Media.recorderTurn_turn
  have hnat : run ≠ .creating →
      (m.recorderTurn getByName c t n r w run).shared.natives = m.natives := recorderTurn_natives
  generalize m.recorderTurn getByName c t n r w run = x at ht hnat
  have hlen := SparesPlay.length ht.spares
  rw [OpensNative, hlen]
  by_cases hrun : run = .creating
  · subst hrun
    cases ht with
    | created =>
      rw [Media.goes_shared, Media.newEncoder_natives, hr, codec_open_init hn]
      simp [MediaThread.opens]
      omega
    | looped _ _ _ _ hl => cases hl
    | thrown _ _ ht => cases ht
  · rw [hnat hrun]
    cases ht with
    | created => exact absurd rfl hrun
    | woken e o _ =>
      split_ifs <;> simp [MediaThread.opens]
    | looped _ run' _ _ _ hl =>
      have hop : (MediaThread.recorder run' w).opens = false := by
        cases run' <;> first | rfl | cases hl
      simp [hop]
    | _ => simp [MediaThread.opens]

theorem opens_player {run : PlayerRun} (hn : code = 9 ∨ code = 101) (hp : p.codectype = code) :
    OpensNative code m (.player run w) (m.playerTurn c t n p w run) := by
  have ht : Media.PlayerTurn c t n m p w run (m.playerTurn c t n p w run) := Media.playerTurn_turn
  have hnat : run ≠ .starting → (m.playerTurn c t n p w run).shared.natives = m.natives :=
    playerTurn_natives
  generalize m.playerTurn c t n p w run = x at ht hnat
  have hopens : x.place.opens = false ∧ x.started.toList.countP MediaThread.opens = 0 := by
    cases ht with
    | woken d o _ =>
      refine ⟨rfl, ?_⟩
      split_ifs <;> rfl
    | _ => exact ⟨rfl, rfl⟩
  rw [OpensNative, hopens.1, hopens.2]
  by_cases hrun : run = .starting
  · subst hrun
    cases ht with
    | created =>
      rw [Media.goes_shared, Media.newDecoder_natives, hp, codec_open_init hn]
      simp [MediaThread.opens]
      omega
    | received _ _ _ hr => cases hr
    | waited _ hr => cases hr
    | deaf _ hr => cases hr
    | handed _ _ _ _ hs => cases hs
  · rcases ht.decoders with hk | ⟨hs, -⟩
    · have hl := congrArg List.length hk.codes
      rw [List.length_map, List.length_map] at hl
      rw [hnat hrun, hl]
      exact Nat.le_refl _
    · exact absurd hs hrun

theorem opens_encoder {e : ℕ} {run : CodingRun} (hn : code = 9 ∨ code = 101)
    (ho : o.codeccode = code) :
    OpensNative code m (.encoder e run) (m.encoderTurn c t e o run) := by
  cases run with
  | testing =>
    rw [Media.encoderTurn]
    split_ifs <;> exact Nat.le_refl _
  | waiting =>
    rw [Media.encoderTurn]
    split_ifs <;> exact Nat.le_refl _
  | working =>
    rw [Media.encoderTurn]
    split_ifs
    · simp [OpensNative, MediaThread.opens]
    · exact Nat.le_refl _
  | freeing =>
    rw [Media.encoderTurn, OpensNative, Media.goes_shared, Media.freeEncoder_natives, ho,
      codec_open_close hn]
    simp [MediaThread.opens]
    omega
  | ended => exact .goes _

theorem opens_decoder {d : ℕ} {run : CodingRun} :
    OpensNative code m (.decoder d run) (m.decoderTurn c t d o run) := by
  cases run with
  | testing =>
    rw [Media.decoderTurn]
    split_ifs <;> exact Nat.le_refl _
  | waiting =>
    rw [Media.decoderTurn]
    split_ifs <;> exact Nat.le_refl _
  | working =>
    rw [Media.decoderTurn]
    split_ifs
    · exact Nat.le_refl _
    · simp [OpensNative, MediaThread.opens]
  | _ => exact Nat.le_refl _

/-- While all is made for a native codec, each turn opens it for what it makes. -/
theorem opens_turn (hn : code = 9 ∨ code = 101) (h : Cast code rate m) (q : MediaThread) :
    OpensNative code m q (m.turn getByName c t n q) := by
  cases q with
  | recorder run w =>
    rw [Media.turn]
    split
    next r hr => exact opens_recorder hn (h.record r hr).1
    next => exact .goes _
  | player run w =>
    rw [Media.turn]
    split
    next p hp => exact opens_player hn (h.play p hp).1
    next => exact .goes _
  | encoder e run =>
    rw [Media.turn]
    split
    next o ho => exact opens_encoder hn (h.encoders o (List.mem_of_getElem? ho))
    next => exact .goes _
  | decoder d run =>
    rw [Media.turn]
    split
    next o _ => exact opens_decoder
    next => exact .goes _

/-- A native codec that the recorder is made for is open for every decoder that has been made,
    and every thread that keeps it open. -/
def Accounted (s : MediaService) : Prop := ∀ r, s.shared.m_iRecord = some r →
  (r.codectype = 9 ∨ r.codectype = 101) → s.shared.decoders.length +
    s.places.countP MediaThread.opens ≤ s.shared.natives.codec_open r.codectype

theorem Accounted.startAudio {a : AudioArgs} {e : Platform} (hu : Uniform s) (h : Accounted s) :
    Accounted (s.startAudio a e) := by
  cases hrec : (s.opened e).shared.recordFor a e with
  | none =>
    rw [startAudio_none hrec]
    exact h
  | some r₀ =>
    rw [startAudio_some hrec]
    rintro r ⟨⟩ hn
    rw [List.countP_append]
    show s.shared.decoders.length + (s.places.countP MediaThread.opens + 0) ≤ _
    rw [Nat.add_zero]
    unfold Media.recordFor at hrec
    split at hrec
    next hnone =>
      obtain ⟨hp, -, -, -, hd⟩ := hu.unmade (Or.inl hnone)
      simp [hp, hd]
    next r₁ hr₁ =>
      cases hrec
      exact h r₁ hr₁ hn

theorem Accounted.turned (hu : Uniform s) (h : Accounted s) :
    Accounted (s.turned getByName c t) := by
  cases hq : s.places[t]? with
  | none => rwa [MediaService.turned, Threads.turn_none hq]
  | some q =>
    intro r hr hn
    rw [turned_shared hq] at hr ⊢
    obtain ⟨r₀, hr₀, hset⟩ := Media.turn_record hr
    have hc : r.codectype = r₀.codectype := congrArg (·.codectype) hset
    obtain ⟨codec, rate, hcast⟩ := hu.cast
    have hcode : r.codectype = codec := hc.trans (hcast.record r₀ hr₀).1
    have hold := h r₀ hr₀ (hc ▸ hn)
    have hnew : OpensNative r.codectype s.shared q
        (s.shared.turn getByName c t s.places.length q) := opens_turn hn (hcode ▸ hcast) q
    have hcount : (s.turned getByName c t).places.countP MediaThread.opens + q.opens.toNat = _ :=
      Threads.countP_turn MediaThread.opens hq
    rw [← hc] at hold
    rw [OpensNative] at hnew
    omega

theorem Accounted.step {i : MediaInput} (hu : Uniform s) (h : Accounted s) :
    Accounted ((media getByName).step s i) := by
  cases i with
  | startAudio a e => exact h.startAudio hu
  | stopAudio =>
    intro r hr hn
    obtain ⟨r', hr', rfl⟩ := Option.map_eq_some_iff.1 hr
    exact h r' hr' hn
  | turn t c => exact h.turned hu

/-- A native codec stays open for every decoder that has ever been made. -/
theorem decoders_le_codec_open (h : (media getByName).Reachable s)
    (hr : s.shared.m_iRecord = some r) (hn : r.codectype = 9 ∨ r.codectype = 101) :
    s.shared.decoders.length ≤ s.shared.natives.codec_open r.codectype := by
  have hinv : Uniform s ∧ Accounted s := by
    refine h.inv (I := fun s => Uniform s ∧ Accounted s) _ ?_ fun s i h => ⟨h.1.step, h.2.step h.1⟩
    rintro s rfl
    exact ⟨.init, nofun⟩
  exact Nat.le_trans (Nat.le_add_right _ _) (hinv.2 r hr hn)

/-! ## Runs -/

/-- **Leaks.**  In no run has a call that is over released what it took: nothing tells its
    decoder thread to stop. -/
theorem unreleased_along (getByName : Str → Option Str) (is : List MediaInput) :
    (media getByName).Along MediaService.init is fun h st => ∀ call ∈ h ++ [st], ∀ n k,
      NativeCall call n k → Over n k st.post → ¬ Released k call.pre st.post := by
  refine ((media getByName).along_inv (I := fun _ s => Decoding s) (C := fun _ _ => True)
    Decoding.init ?_ is fun _ _ _ _ => trivial).2
  intro _ s i h _
  have hpost : Decoding ((media getByName).step s i) := h.step
  exact ⟨hpost, fun _ _ _ _ _ ho => hpost.not_released ho⟩

/-- A call with G.722, in which one datagram comes and one frame is read; it is stopped, and all
    its threads end but the decoder's. -/
def Trace.hangUp : List MediaInput :=
  [callTo 9 16000 "10.0.0.2"] ++ turns 0 8 ++ turns 1 2 ++
    [.turn 1 ⟨true, some ⟨"10.0.0.2".toList, 8000⟩, some 160, false⟩] ++ turns 1 1 ++
    [.stopAudio] ++ turns 1 1 ++ turns 0 3 ++ turns 2 2

/-- The decoder thread waits on, and the codec stays open. -/
theorem hangUp_unreleased : ¬ (media some).Along MediaService.init Trace.hangUp fun h st =>
    ∀ call ∈ h ++ [st], ∀ n k, NativeCall call n k → Over n k st.post →
      Released k call.pre st.post := by
  intro h
  have hrun : (media some).Along MediaService.init (Trace.hangUp.dropLast ++ [_]) _ := h
  have hlast := ((media some).along_snoc.1 hrun).2
  have hcall : NativeCall
      ((media some).stepOf MediaService.init (Trace.callTo 9 16000 "10.0.0.2")) 0 1 :=
    ⟨⟨_, _, rfl, Or.inl rfl⟩, ⟨_, rfl, rfl⟩, _, rfl, rfl⟩
  have hover : Over 0 1 ((media some).run MediaService.init Trace.hangUp) := by
    refine ⟨?_, ?_, ⟨_, rfl⟩, ⟨_, rfl⟩, ?_⟩
    · rintro r ⟨⟩
      exact nofun
    · rintro p ⟨⟩
      exact nofun
    · rintro e (_ | _ | _ | _ | t) run ⟨⟩ hw <;> cases hw
      rfl
  have hopen := (hlast _ List.mem_cons_self 0 1 hcall hover).codec_open 9
  exact absurd hopen (by decide)

end JaySip
