/-
  What the threads of the service do in a turn.

  Apart from frames, a recorder thread changes the recorder and its encoders, a player thread
  the player, its decoders and the peer of the socket, and the other threads nothing.
-/
import JaySip.Media.MediaService

namespace JaySip

open Java

variable {getByName : Str → Option Str} {c : Chance} {t n : ℕ} {m m' : Media} {r : LanAudioRecord}
  {p : LanAudioPlay} {o : Coding} {w : Option ℕ}

/-- What a coding is for, and whether it runs. -/
def Coding.core (c : Coding) : ℤ × Option ℕ := (c.codeccode, c.runner)

/-- The recorder without what its threads change. -/
def LanAudioRecord.settings (r : LanAudioRecord) : LanAudioRecord :=
  { r with recording := false, rtp_socket := none, encoder := none }

/-- The player without what its threads change. -/
def LanAudioPlay.settings (p : LanAudioPlay) : LanAudioPlay := { p with decoder := none }

theorem modify_map {α β : Type} {f : α → α} {g : α → β} (h : ∀ a, g (f a) = g a) (l : List α)
    (i : ℕ) : (l.modify i f).map g = l.map g := by
  refine List.ext_getElem? fun j => ?_
  rw [List.getElem?_map, List.getElem?_map, List.getElem?_modify]
  cases l[j]? with
  | none => rfl
  | some a =>
    by_cases hij : i = j
    · simp [hij, h]
    · simp [hij]

theorem startThread_runner : (o.startThread n).runner ≠ none := by
  unfold Coding.startThread
  split_ifs with h
  · simp
  · exact h

/-- Whether a coding runs is part of its core. -/
theorem runs_iff_core {l : List Coding} {i : ℕ} : (∃ o, l[i]? = some o ∧ o.runner ≠ none) ↔
    ∃ k, (l.map Coding.core)[i]? = some k ∧ k.2 ≠ none := by
  constructor
  · rintro ⟨o, h, ho⟩
    exact ⟨o.core, by rw [List.getElem?_map, h]; rfl, ho⟩
  · rintro ⟨k, h, hk⟩
    rw [List.getElem?_map, Option.map_eq_some_iff] at h
    obtain ⟨o, hg, rfl⟩ := h
    exact ⟨o, hg, hk⟩

/-- The loop of the recorder, behind its start. -/
def RecorderRun.loops : RecorderRun → Bool
  | .testing | .working | .sending => true
  | _ => false

/-- The player receives. -/
def PlayerRun.receives : PlayerRun → Bool
  | .receiving | .emptying | .listening => true
  | _ => false

/-- The player has started its decoder. -/
def PlayerRun.started : PlayerRun → Bool
  | .starting | .waking => false
  | _ => true

/-- A thread that is a recorder. -/
def MediaThread.records : MediaThread → Bool
  | .recorder _ _ => true
  | _ => false

/-- A thread that is a player. -/
def MediaThread.plays : MediaThread → Bool
  | .player _ _ => true
  | _ => false

theorem exists_of_records {q : MediaThread} (h : q.records = true) :
    ∃ run w, q = .recorder run w := by
  cases q with
  | recorder run w => exact ⟨run, w, rfl⟩
  | _ => cases h

theorem exists_of_plays {q : MediaThread} (h : q.plays = true) :
    ∃ run w, q = .player run w := by
  cases q with
  | player run w => exact ⟨run, w, rfl⟩
  | _ => cases h

namespace Media

/-- The recorder is as it was, and its encoders are up to frames. -/
structure SparesRecord (m m' : Media) : Prop where
  record : m'.m_iRecord = m.m_iRecord
  encoders : m'.encoders.map Coding.core = m.encoders.map Coding.core

/-- The player and the socket are as they were, and its decoders are up to frames. -/
structure SparesPlay (m m' : Media) : Prop where
  play : m'.m_iPlay = m.m_iPlay
  decoders : m'.decoders.map Coding.core = m.decoders.map Coding.core
  socket : m'.udp_socket = m.udp_socket

theorem SparesRecord.refl (m : Media) : m.SparesRecord m := ⟨rfl, rfl⟩

theorem SparesPlay.refl (m : Media) : m.SparesPlay m := ⟨rfl, rfl, rfl⟩

theorem encoderOf_eq_some {e : ℕ} : m.encoderOf r = some (e, o) ↔
    r.encoder = some e ∧ m.encoders[e]? = some o := by
  simp [encoderOf, Option.bind_eq_some_iff]

theorem decoderOf_eq_some {d : ℕ} : m.decoderOf p = some (d, o) ↔
    p.decoder = some d ∧ m.decoders[d]? = some o := by
  simp [decoderOf, Option.bind_eq_some_iff]

theorem onEncoder_spares {e : ℕ} {f : Coding → Coding} (hf : ∀ o, (f o).core = o.core) :
    m.SparesRecord (m.onEncoder e f) := ⟨rfl, modify_map hf _ _⟩

theorem onDecoder_spares {d : ℕ} {f : Coding → Coding} (hf : ∀ o, (f o).core = o.core) :
    m.SparesPlay (m.onDecoder d f) := ⟨rfl, modify_map hf _ _, rfl⟩

/-! ## Recorder threads -/

/-- The next step of the recorder throws: there is no encoder, the device is not initialised,
    there is nothing to send, or the socket does not send it. -/
def Throws (m : Media) (r : LanAudioRecord) : RecorderRun → Prop
  | .waking => m.encoderOf r = none
  | .recording => r.initialized = false
  | .working => m.encoderOf r = none
  | .sending => ∀ e o, m.encoderOf r = some (e, o) → o.m_q = 0 ∨ m.rejects r = true
  | .releasing => m.encoderOf r = none
  | _ => False

/-- The turns of a recorder thread. -/
inductive RecorderTurn (getByName : Str → Option Str) (t n : ℕ) (m : Media) (r : LanAudioRecord)
    (w : Option ℕ) : RecorderRun → Turn Media MediaThread → Prop
  | resolved (address : Str) : getByName r.destip = some address →
      RecorderTurn getByName t n m r w .starting (m.goes (.recorder (.connecting address) w))
  | unknown : getByName r.destip = none →
      RecorderTurn getByName t n m r w .starting (m.goes (.recorder .creating w))
  | addressed (address : Str) :
      RecorderTurn getByName t n m r w (.connecting address)
        (m.goes (.recorder (.storing ⟨address, r.destport⟩) w))
  | stored (peer : Peer) :
      RecorderTurn getByName t n m r w (.storing peer)
        ((m.setRecord { r with rtp_socket := some peer }).goes (.recorder .creating w))
  | created : RecorderTurn getByName t n m r w .creating
      ((m.newEncoder r).goes (.recorder .waking w))
  | woken (e : ℕ) (o : Coding) : m.encoderOf r = some (e, o) →
      RecorderTurn getByName t n m r w .waking
        ⟨m.onEncoder e (·.startThread n), .recorder .recording (some e),
          if o.runner = none then some (.encoder e .testing) else none⟩
  | recording : r.initialized = true → RecorderTurn getByName t n m r w .recording
      ((m.setRecord { r with recording := true }).goes (.recorder .testing w))
  | running : r.runner = some t → RecorderTurn getByName t n m r w .testing
      (m.goes (.recorder .working w))
  | stopped : r.runner ≠ some t → RecorderTurn getByName t n m r w .testing
      (m.goes (.recorder .stopping w))
  | looped (run run' : RecorderRun) (m' : Media) : run ≠ .testing → run.loops →
      run'.loops → ¬ m.Throws r run → m.SparesRecord m' → m.SparesPlay m' →
      RecorderTurn getByName t n m r w run (m'.goes (.recorder run' w))
  | silenced : RecorderTurn getByName t n m r w .stopping
      ((m.setRecord { r with recording := false }).goes (.recorder .releasing w))
  | released (e : ℕ) (o : Coding) : m.encoderOf r = some (e, o) →
      RecorderTurn getByName t n m r w .releasing
        ((m.onEncoder e (·.stopThread)).goes (.recorder .ended w))
  | thrown (run : RecorderRun) (m' : Media) : m.Throws r run → m.SparesRecord m' →
      m.SparesPlay m' → RecorderTurn getByName t n m r w run (m'.goes (.recorder .ended w))
  | ended : RecorderTurn getByName t n m r w .ended (m.goes (.recorder .ended w))

theorem recorderTurn_turn {run : RecorderRun} : RecorderTurn getByName t n m r w run
    (m.recorderTurn getByName c t n r w run) := by
  have spares : ∀ e : ℕ, m.SparesPlay (m.onEncoder e (·.getData)) := fun _ => ⟨rfl, rfl, rfl⟩
  cases run with
  | starting =>
    rw [recorderTurn]
    cases h : getByName r.destip with
    | some address => exact .resolved address h
    | none => exact .unknown h
  | connecting address => exact .addressed address
  | storing peer => exact .stored peer
  | creating => exact .created
  | waking =>
    rw [recorderTurn]
    cases h : m.encoderOf r with
    | some x => exact .woken x.1 x.2 h
    | none => exact .thrown .waking m h (.refl m) (.refl m)
  | recording =>
    rw [recorderTurn]
    split_ifs with h
    · exact .recording h
    · exact .thrown .recording m (by simpa [Throws] using h) (.refl m) (.refl m)
  | testing =>
    rw [recorderTurn]
    split_ifs with h
    · exact .running h
    · exact .stopped h
  | working =>
    rw [recorderTurn]
    cases h : m.encoderOf r with
    | some x =>
      have hn : ¬ m.Throws r .working := by simp [Throws, h]
      show RecorderTurn _ _ _ _ _ _ _ (if _ then _ else goes (if _ then _ else _) _)
      by_cases hr : c.reads
      · rw [if_neg (not_not.2 hr)]
        refine .looped .working _ _ (by simp) rfl ?_ hn ?_ ?_
        · split_ifs <;> rfl
        · split_ifs
          · exact onEncoder_spares fun _ => rfl
          · exact .refl m
        · split_ifs <;> exact ⟨rfl, rfl, rfl⟩
      · rw [if_pos hr]
        exact .looped .working .testing m (by simp) rfl rfl hn (.refl m) (.refl m)
    | none => exact .thrown .working m h (.refl m) (.refl m)
  | sending =>
    rw [recorderTurn]
    cases h : m.encoderOf r with
    | some x =>
      show RecorderTurn _ _ _ _ _ _ _ (goes _ (.recorder (if _ then _ else _) _))
      split_ifs with hs
      · refine .thrown .sending _ ?_ (onEncoder_spares fun _ => rfl) (spares _)
        intro e o he
        cases h.symm.trans he
        exact hs
      · refine .looped .sending .testing _ (by simp) rfl rfl ?_ (onEncoder_spares fun _ => rfl)
          (spares _)
        exact fun ht => hs (ht x.1 x.2 h)
    | none => exact .thrown .sending m (by simp [Throws, h]) (.refl m) (.refl m)
  | stopping => exact .silenced
  | releasing =>
    rw [recorderTurn]
    cases h : m.encoderOf r with
    | some x => exact .released x.1 x.2 h
    | none => exact .thrown .releasing m h (.refl m) (.refl m)
  | ended => exact .ended

/-! ## Player threads -/

/-- The turns of a player thread. -/
inductive PlayerTurn (c : Chance) (t n : ℕ) (m : Media) (p : LanAudioPlay) (w : Option ℕ) :
    PlayerRun → Turn Media MediaThread → Prop
  | created : PlayerTurn c t n m p w .starting ((m.newDecoder p).goes (.player .waking w))
  | woken (d : ℕ) (o : Coding) : m.decoderOf p = some (d, o) →
      PlayerTurn c t n m p w .waking
        ⟨m.onDecoder d (·.startThread n), .player .receiving (some d),
          if o.runner = none then some (.decoder d .testing) else none⟩
  | undecoded : m.decoderOf p = none → PlayerTurn c t n m p w .waking (m.goes (.player .ended w))
  | received (run run' : PlayerRun) (m' : Media) : run.receives → run'.started →
      p.udp_socket = true → m.receive c.source = some m' →
      PlayerTurn c t n m p w run (m'.goes (.player run' w))
  | waited (run : PlayerRun) : run.receives → m.receive c.source = none →
      PlayerTurn c t n m p w run (m.goes (.player run w))
  | deaf (run : PlayerRun) : run.receives → p.udp_socket = false →
      PlayerTurn c t n m p w run (m.goes (.player .ended w))
  | handed (run run' : PlayerRun) (m' : Media) : run.receives = false → run.started →
      run'.started → m.SparesRecord m' → m.SparesPlay m' →
      PlayerTurn c t n m p w run (m'.goes (.player run' w))

theorem receiving_turn {run next : PlayerRun} (hr : run.receives) (hn : next.started) :
    PlayerTurn c t n m p w run (m.receiving c p run w next) := by
  unfold receiving
  split_ifs with hs
  · cases h : m.receive c.source with
    | some m' => exact .received run next m' hr hn hs h
    | none => exact .waited run hr h
  · exact .deaf run hr (by simpa using hs)

theorem playerTurn_turn {run : PlayerRun} : PlayerTurn c t n m p w run
    (m.playerTurn c t n p w run) := by
  cases run with
  | starting => exact .created
  | waking =>
    rw [playerTurn]
    cases h : m.decoderOf p with
    | some x => exact .woken x.1 x.2 h
    | none => exact .undecoded h
  | receiving =>
    refine receiving_turn rfl ?_
    split_ifs <;> rfl
  | emptying =>
    refine receiving_turn rfl ?_
    split_ifs <;> rfl
  | testing =>
    refine .handed .testing _ m rfl rfl ?_ (.refl m) (.refl m)
    split_ifs <;> rfl
  | listening =>
    refine receiving_turn rfl ?_
    cases c.payload <;> rfl
  | handing size =>
    rw [playerTurn]
    cases h : m.decoderOf p with
    | some x =>
      show PlayerTurn _ _ _ _ _ _ _ (if _ then if _ then _ else _ else _)
      split_ifs
      · exact .handed _ _ _ rfl rfl rfl ⟨rfl, rfl⟩ (onDecoder_spares fun _ => rfl)
      · exact .handed _ _ m rfl rfl rfl (.refl m) (.refl m)
      · exact .handed _ _ _ rfl rfl rfl ⟨rfl, rfl⟩ (onDecoder_spares fun _ => rfl)
    | none => exact .handed _ _ m rfl rfl rfl (.refl m) (.refl m)
  | ended => exact .handed _ _ m rfl rfl rfl (.refl m) (.refl m)

/-! ## All threads -/

theorem receive_eq {source : Option Peer} (h : m.receive source = some m') :
    ∃ s, m' = { m with udp_socket := s } := by
  unfold receive at h
  split at h
  · exact ⟨_, (Option.some.inj h).symm⟩
  · exact ⟨_, (Option.some.inj h).symm⟩
  · split_ifs at h
    exact ⟨_, (Option.some.inj h).symm⟩
  · cases h

theorem PlayerTurn.spares {run : PlayerRun} {r : Turn Media MediaThread}
    (h : PlayerTurn c t n m p w run r) : m.SparesRecord r.shared := by
  cases h with
  | received run run' m' _ _ _ hr =>
    obtain ⟨s, rfl⟩ := receive_eq hr
    exact ⟨rfl, rfl⟩
  | handed _ _ _ _ _ _ hs => exact hs
  | _ => exact ⟨rfl, rfl⟩

theorem RecorderTurn.spares {run : RecorderRun} {r' : Turn Media MediaThread}
    (h : RecorderTurn getByName t n m r w run r') : m.SparesPlay r'.shared := by
  cases h with
  | looped _ _ _ _ _ _ _ _ hs => exact hs
  | thrown _ _ _ _ hs => exact hs
  | _ => exact ⟨rfl, rfl, rfl⟩

/-- An encoder thread only touches frames. -/
theorem encoderTurn_spares {e : ℕ} {run : CodingRun} :
    m.SparesRecord (m.encoderTurn c t e o run).shared ∧
      m.SparesPlay (m.encoderTurn c t e o run).shared := by
  cases run with
  | working =>
    rw [encoderTurn]
    split_ifs
    · exact ⟨.refl m, .refl m⟩
    · exact ⟨⟨rfl, modify_map (f := Coding.coded) (fun _ => rfl) _ _⟩, rfl, rfl, rfl⟩
  | _ => exact ⟨⟨rfl, rfl⟩, rfl, rfl, rfl⟩

/-- A decoder thread only touches frames. -/
theorem decoderTurn_spares {d : ℕ} {run : CodingRun} :
    m.SparesRecord (m.decoderTurn c t d o run).shared ∧
      m.SparesPlay (m.decoderTurn c t d o run).shared := by
  cases run with
  | working =>
    rw [decoderTurn]
    split_ifs
    · exact ⟨.refl m, .refl m⟩
    · exact ⟨⟨rfl, rfl⟩, rfl, modify_map (f := Coding.coded) (fun _ => rfl) _ _, rfl⟩
  | _ => exact ⟨⟨rfl, rfl⟩, rfl, rfl, rfl⟩

/-- Only a recorder thread touches the recorder and its encoders. -/
theorem turn_sparesRecord {q : MediaThread} (h : q.records = false) :
    m.SparesRecord (m.turn getByName c t n q).shared := by
  cases q with
  | recorder run e => cases h
  | player run d =>
    rw [turn]
    split
    · exact playerTurn_turn.spares
    · exact .refl m
  | encoder e run =>
    rw [turn]
    split
    · exact encoderTurn_spares.1
    · exact .refl m
  | decoder d run =>
    rw [turn]
    split
    · exact decoderTurn_spares.1
    · exact .refl m

/-- Only a player thread touches the player, its decoders and the peer of the socket. -/
theorem turn_sparesPlay {q : MediaThread} (h : q.plays = false) :
    m.SparesPlay (m.turn getByName c t n q).shared := by
  cases q with
  | player run d => cases h
  | recorder run e =>
    rw [turn]
    split
    · exact (recorderTurn_turn (c := c)).spares
    · exact .refl m
  | encoder e run =>
    rw [turn]
    split
    · exact encoderTurn_spares.2
    · exact .refl m
  | decoder d run =>
    rw [turn]
    split
    · exact decoderTurn_spares.2
    · exact .refl m

theorem encoderTurn_place {e : ℕ} {run : CodingRun} :
    (∃ run', (m.encoderTurn c t e o run).place = .encoder e run') ∧
      (m.encoderTurn c t e o run).started = none := by
  cases run with
  | working =>
    rw [encoderTurn]
    split_ifs <;> exact ⟨⟨_, rfl⟩, rfl⟩
  | _ => exact ⟨⟨_, rfl⟩, rfl⟩

theorem decoderTurn_place {d : ℕ} {run : CodingRun} :
    (∃ run', (m.decoderTurn c t d o run).place = .decoder d run') ∧
      (m.decoderTurn c t d o run).started = none := by
  cases run with
  | working =>
    rw [decoderTurn]
    split_ifs <;> exact ⟨⟨_, rfl⟩, rfl⟩
  | _ => exact ⟨⟨_, rfl⟩, rfl⟩

/-- A turn of a recorder thread. -/
theorem turn_recorder {run : RecorderRun} (hr : m.m_iRecord = some r) :
    RecorderTurn getByName t n m r w run (m.turn getByName c t n (.recorder run w)) := by
  rw [turn, hr]
  exact recorderTurn_turn

theorem turn_recorder_none {run : RecorderRun} (hr : m.m_iRecord = none) :
    m.turn getByName c t n (.recorder run w) = m.goes (.recorder run w) := by
  rw [turn, hr]

/-- A turn of a player thread. -/
theorem turn_player {run : PlayerRun} (hp : m.m_iPlay = some p) :
    PlayerTurn c t n m p w run (m.turn getByName c t n (.player run w)) := by
  rw [turn, hp]
  exact playerTurn_turn

theorem turn_player_none {run : PlayerRun} (hp : m.m_iPlay = none) :
    m.turn getByName c t n (.player run w) = m.goes (.player run w) := by
  rw [turn, hp]

theorem turn_encoder (e : ℕ) (run : CodingRun) :
    (∃ run', (m.turn getByName c t n (.encoder e run)).place = .encoder e run') ∧
      (m.turn getByName c t n (.encoder e run)).started = none := by
  rw [turn]
  split
  · exact encoderTurn_place
  · exact ⟨⟨_, rfl⟩, rfl⟩

theorem turn_decoder (d : ℕ) (run : CodingRun) :
    (∃ run', (m.turn getByName c t n (.decoder d run)).place = .decoder d run') ∧
      (m.turn getByName c t n (.decoder d run)).started = none := by
  rw [turn]
  split
  · exact decoderTurn_place
  · exact ⟨⟨_, rfl⟩, rfl⟩

theorem RecorderTurn.place {run : RecorderRun} {r' : Turn Media MediaThread}
    (h : RecorderTurn getByName t n m r w run r') : ∃ run' w', r'.place = .recorder run' w' := by
  cases h <;> exact ⟨_, _, rfl⟩

theorem PlayerTurn.place {run : PlayerRun} {r : Turn Media MediaThread}
    (h : PlayerTurn c t n m p w run r) : ∃ run' w', r.place = .player run' w' := by
  cases h <;> exact ⟨_, _, rfl⟩

/-- What a thread is does not change. -/
theorem turn_place (q : MediaThread) :
    (m.turn getByName c t n q).place.records = q.records ∧
      (m.turn getByName c t n q).place.plays = q.plays := by
  cases q with
  | recorder run e =>
    cases hr : m.m_iRecord with
    | some r =>
      have ht : RecorderTurn getByName t n m r e run (m.turn getByName c t n (.recorder run e)) :=
        turn_recorder hr
      obtain ⟨run', w', h⟩ := ht.place
      rw [h]
      exact ⟨rfl, rfl⟩
    | none =>
      rw [turn_recorder_none hr]
      exact ⟨rfl, rfl⟩
  | player run d =>
    cases hp : m.m_iPlay with
    | some p =>
      have ht : PlayerTurn c t n m p d run (m.turn getByName c t n (.player run d)) :=
        turn_player hp
      obtain ⟨run', w', h⟩ := ht.place
      rw [h]
      exact ⟨rfl, rfl⟩
    | none =>
      rw [turn_player_none hp]
      exact ⟨rfl, rfl⟩
  | encoder e run =>
    obtain ⟨run', h⟩ := (turn_encoder e run).1
    rw [h]
    exact ⟨rfl, rfl⟩
  | decoder d run =>
    obtain ⟨run', h⟩ := (turn_decoder d run).1
    rw [h]
    exact ⟨rfl, rfl⟩

/-- A thread that is started in a turn is neither a recorder nor a player. -/
theorem turn_started {q q' : MediaThread} (h : (m.turn getByName c t n q).started = some q') :
    (∃ e, q' = .encoder e .testing) ∨ ∃ d, q' = .decoder d .testing := by
  cases q with
  | recorder run w =>
    cases hr : m.m_iRecord with
    | some r =>
      have ht : RecorderTurn getByName t n m r w run (m.turn getByName c t n (.recorder run w)) :=
        turn_recorder hr
      generalize m.turn getByName c t n (.recorder run w) = r' at h ht
      cases ht with
      | woken e o _ =>
        simp only [Option.ite_none_right_eq_some, Option.some.injEq] at h
        exact Or.inl ⟨e, h.2.symm⟩
      | _ => cases h
    | none =>
      rw [turn_recorder_none hr] at h
      cases h
  | player run w =>
    cases hp : m.m_iPlay with
    | some p =>
      have ht : PlayerTurn c t n m p w run (m.turn getByName c t n (.player run w)) :=
        turn_player hp
      generalize m.turn getByName c t n (.player run w) = r' at h ht
      cases ht with
      | woken d o _ =>
        simp only [Option.ite_none_right_eq_some, Option.some.injEq] at h
        exact Or.inr ⟨d, h.2.symm⟩
      | _ => cases h
    | none =>
      rw [turn_player_none hp] at h
      cases h
  | encoder e run =>
    rw [(turn_encoder e run).2] at h
    cases h
  | decoder d run =>
    rw [(turn_decoder d run).2] at h
    cases h

/-- The threads leave the settings of the recorder alone. -/
theorem turn_recordSettings (q : MediaThread) :
    (m.turn getByName c t n q).shared.m_iRecord.map (·.settings) =
      m.m_iRecord.map (·.settings) := by
  cases hq : q.records with
  | false => rw [(turn_sparesRecord hq).record]
  | true =>
    cases q with
    | recorder run w =>
      cases hr : m.m_iRecord with
      | none =>
        rw [turn_recorder_none hr, goes_shared, hr]
      | some r =>
        have ht : RecorderTurn getByName t n m r w run (m.turn getByName c t n (.recorder run w)) :=
          turn_recorder hr
        generalize m.turn getByName c t n (.recorder run w) = q at ht
        cases ht with
        | looped _ _ _ _ _ _ _ hs => rw [goes_shared, hs.record, hr]
        | thrown _ _ _ hs => rw [goes_shared, hs.record, hr]
        | _ => simp [hr, LanAudioRecord.settings]
    | _ => cases hq

/-- The recorder behind a turn is that before it, up to what threads change. -/
theorem turn_record {q : MediaThread} {r' : LanAudioRecord}
    (h : (m.turn getByName c t n q).shared.m_iRecord = some r') :
    ∃ r, m.m_iRecord = some r ∧ r'.settings = r.settings := by
  have hs : (m.turn getByName c t n q).shared.m_iRecord.map (·.settings) =
      m.m_iRecord.map (·.settings) := turn_recordSettings q
  rw [h, Option.map_some, eq_comm, Option.map_eq_some_iff] at hs
  exact hs.imp fun r hr => ⟨hr.1, hr.2.symm⟩

/-- The threads leave the settings of the player alone. -/
theorem turn_playSettings (q : MediaThread) :
    (m.turn getByName c t n q).shared.m_iPlay.map (·.settings) = m.m_iPlay.map (·.settings) := by
  cases hq : q.plays with
  | false => rw [(turn_sparesPlay hq).play]
  | true =>
    cases q with
    | player run w =>
      cases hp : m.m_iPlay with
      | none =>
        rw [turn_player_none hp, goes_shared, hp]
      | some p =>
        have ht : PlayerTurn c t n m p w run (m.turn getByName c t n (.player run w)) :=
          turn_player hp
        generalize m.turn getByName c t n (.player run w) = q at ht
        cases ht with
        | received _ _ m' _ _ _ hr =>
          obtain ⟨s, rfl⟩ := receive_eq hr
          rw [goes_shared, hp]
        | handed _ _ _ _ _ _ _ hs => rw [goes_shared, hs.play, hp]
        | _ => simp [hp, LanAudioPlay.settings]
    | _ => cases hq

/-- The player behind a turn is that before it, up to what threads change. -/
theorem turn_play {q : MediaThread} {p' : LanAudioPlay}
    (h : (m.turn getByName c t n q).shared.m_iPlay = some p') :
    ∃ p, m.m_iPlay = some p ∧ p'.settings = p.settings := by
  have hs : (m.turn getByName c t n q).shared.m_iPlay.map (·.settings) =
      m.m_iPlay.map (·.settings) := turn_playSettings q
  rw [h, Option.map_some, eq_comm, Option.map_eq_some_iff] at hs
  exact hs.imp fun p hp => ⟨hp.1, hp.2.symm⟩

/-! ## Encoders and decoders -/

/-- The recorder's encoder and what the encoders are for stay the same. -/
structure KeepsEncoders (m m' : Media) : Prop where
  field : m'.m_iRecord.map (·.encoder) = m.m_iRecord.map (·.encoder)
  codes : m'.encoders.map (·.codeccode) = m.encoders.map (·.codeccode)

/-- The player's decoder and what the decoders are for stay the same. -/
structure KeepsDecoders (m m' : Media) : Prop where
  field : m'.m_iPlay.map (·.decoder) = m.m_iPlay.map (·.decoder)
  codes : m'.decoders.map (·.codeccode) = m.decoders.map (·.codeccode)

theorem codes_of_core {l l' : List Coding} (h : l'.map Coding.core = l.map Coding.core) :
    l'.map (·.codeccode) = l.map (·.codeccode) := by
  have hc := congrArg (List.map Prod.fst) h
  rwa [List.map_map, List.map_map] at hc

theorem SparesRecord.keeps (h : m.SparesRecord m') : m.KeepsEncoders m' :=
  ⟨by rw [h.record], codes_of_core h.encoders⟩

theorem SparesPlay.keeps (h : m.SparesPlay m') : m.KeepsDecoders m' :=
  ⟨by rw [h.play], codes_of_core h.decoders⟩

theorem RecorderTurn.encoders {run : RecorderRun} {q : Turn Media MediaThread}
    (hr : m.m_iRecord = some r) (h : RecorderTurn getByName t n m r w run q) :
    m.KeepsEncoders q.shared ∨ run = .creating ∧ q.shared = m.newEncoder r := by
  cases h with
  | created => exact Or.inr ⟨rfl, rfl⟩
  | woken e o _ =>
    refine Or.inl ⟨rfl, modify_map (fun o => ?_) _ _⟩
    unfold Coding.startThread
    split_ifs <;> rfl
  | released e o _ => exact Or.inl ⟨rfl, modify_map (f := Coding.stopThread) (fun _ => rfl) _ _⟩
  | looped _ _ _ _ _ _ _ hs => exact Or.inl hs.keeps
  | thrown _ _ _ hs => exact Or.inl hs.keeps
  | _ => exact Or.inl ⟨by simp [hr], rfl⟩

theorem PlayerTurn.decoders {run : PlayerRun} {q : Turn Media MediaThread}
    (h : PlayerTurn c t n m p w run q) :
    m.KeepsDecoders q.shared ∨ run = .starting ∧ q.shared = m.newDecoder p := by
  cases h with
  | created => exact Or.inr ⟨rfl, rfl⟩
  | woken d o _ =>
    refine Or.inl ⟨rfl, modify_map (fun o => ?_) _ _⟩
    unfold Coding.startThread
    split_ifs <;> rfl
  | received _ _ _ _ _ _ hr =>
    obtain ⟨u, rfl⟩ := receive_eq hr
    exact Or.inl ⟨rfl, rfl⟩
  | handed _ _ _ _ _ _ _ hs => exact Or.inl hs.keeps
  | _ => exact Or.inl ⟨rfl, rfl⟩

/-- Encoders are only made by a recorder thread, for the recorder's codec. -/
theorem turn_encoders (q : MediaThread) :
    m.KeepsEncoders (m.turn getByName c t n q).shared ∨ ∃ r w, m.m_iRecord = some r ∧
      q = .recorder .creating w ∧ (m.turn getByName c t n q).shared = m.newEncoder r := by
  cases hq : q.records with
  | false => exact Or.inl (turn_sparesRecord hq).keeps
  | true =>
    obtain ⟨run, w, rfl⟩ := exists_of_records hq
    cases hr : m.m_iRecord with
    | none =>
      rw [turn_recorder_none hr]
      exact Or.inl ⟨rfl, rfl⟩
    | some r =>
      have ht : RecorderTurn getByName t n m r w run (m.turn getByName c t n (.recorder run w)) :=
        turn_recorder hr
      refine (ht.encoders hr).imp_right ?_
      rintro ⟨rfl, h⟩
      exact ⟨r, w, rfl, rfl, h⟩

/-- Decoders are only made by a player thread, for the player's codec. -/
theorem turn_decoders (q : MediaThread) :
    m.KeepsDecoders (m.turn getByName c t n q).shared ∨ ∃ p w, m.m_iPlay = some p ∧
      q = .player .starting w ∧ (m.turn getByName c t n q).shared = m.newDecoder p := by
  cases hq : q.plays with
  | false => exact Or.inl (turn_sparesPlay hq).keeps
  | true =>
    obtain ⟨run, w, rfl⟩ := exists_of_plays hq
    cases hp : m.m_iPlay with
    | none =>
      rw [turn_player_none hp]
      exact Or.inl ⟨rfl, rfl⟩
    | some p =>
      have ht : PlayerTurn c t n m p w run (m.turn getByName c t n (.player run w)) :=
        turn_player hp
      refine ht.decoders.imp_right ?_
      rintro ⟨rfl, h⟩
      exact ⟨p, w, rfl, rfl, h⟩

theorem encoderOf_ne_none : m.encoderOf r ≠ none ↔
    ∃ e, r.encoder = some e ∧ e < (m.encoders.map (·.codeccode)).length := by
  rw [List.length_map]
  cases he : r.encoder with
  | none => simp [encoderOf, he]
  | some e => simp [encoderOf, he]

theorem decoderOf_ne_none : m.decoderOf p ≠ none ↔
    ∃ d, p.decoder = some d ∧ d < (m.decoders.map (·.codeccode)).length := by
  rw [List.length_map]
  cases hd : p.decoder with
  | none => simp [decoderOf, hd]
  | some d => simp [decoderOf, hd]

/-- The recorder never loses its encoder. -/
theorem turn_encoderOf {q : MediaThread} {r' : LanAudioRecord} (hr : m.m_iRecord = some r)
    (hr' : (m.turn getByName c t n q).shared.m_iRecord = some r') (h : m.encoderOf r ≠ none) :
    (m.turn getByName c t n q).shared.encoderOf r' ≠ none := by
  rw [encoderOf_ne_none] at h ⊢
  have ht : m.KeepsEncoders (m.turn getByName c t n q).shared ∨ _ := turn_encoders q
  rcases ht with hk | ⟨r₁, w, -, -, he⟩
  · have hf := hk.field
    rw [hr, hr', Option.map_some, Option.map_some, Option.some.injEq] at hf
    rwa [hf, hk.codes]
  · rw [he] at hr' ⊢
    cases hr'
    exact ⟨m.encoders.length, rfl, by simp⟩

/-- The player never loses its decoder. -/
theorem turn_decoderOf {q : MediaThread} {p' : LanAudioPlay} (hp : m.m_iPlay = some p)
    (hp' : (m.turn getByName c t n q).shared.m_iPlay = some p') (h : m.decoderOf p ≠ none) :
    (m.turn getByName c t n q).shared.decoderOf p' ≠ none := by
  rw [decoderOf_ne_none] at h ⊢
  have ht : m.KeepsDecoders (m.turn getByName c t n q).shared ∨ _ := turn_decoders q
  rcases ht with hk | ⟨p₁, w, -, -, he⟩
  · have hf := hk.field
    rw [hp, hp', Option.map_some, Option.map_some, Option.some.injEq] at hf
    rwa [hf, hk.codes]
  · rw [he] at hp' ⊢
    cases hp'
    exact ⟨m.decoders.length, rfl, by simp⟩

/-- Only a thread at the store changes `rtp_socket`. -/
theorem turn_rtp_socket {q : MediaThread} {r' : LanAudioRecord}
    (h : (m.turn getByName c t n q).shared.m_iRecord = some r') :
    ∃ r, m.m_iRecord = some r ∧ (r'.rtp_socket = r.rtp_socket ∨
      ∃ peer w, q = .recorder (.storing peer) w ∧ r'.rtp_socket = some peer) := by
  cases hq : q.records with
  | false =>
    rw [(turn_sparesRecord hq).record] at h
    exact ⟨r', h, Or.inl rfl⟩
  | true =>
    obtain ⟨run, w, rfl⟩ := exists_of_records hq
    cases hr : m.m_iRecord with
    | none =>
      rw [turn_recorder_none hr, goes_shared] at h
      cases hr.symm.trans h
    | some r =>
      refine ⟨r, rfl, ?_⟩
      have ht : RecorderTurn getByName t n m r w run (m.turn getByName c t n (.recorder run w)) :=
        turn_recorder hr
      generalize m.turn getByName c t n (.recorder run w) = x at ht h
      cases ht with
      | stored peer =>
        cases h
        exact Or.inr ⟨peer, w, rfl, rfl⟩
      | looped _ _ _ _ _ _ _ hs =>
        cases hr.symm.trans (hs.record.symm.trans h)
        exact Or.inl rfl
      | thrown _ _ _ hs =>
        cases hr.symm.trans (hs.record.symm.trans h)
        exact Or.inl rfl
      | created =>
        cases h
        exact Or.inl rfl
      | recording =>
        cases h
        exact Or.inl rfl
      | silenced =>
        cases h
        exact Or.inl rfl
      | _ =>
        cases hr.symm.trans h
        exact Or.inl rfl

end Media

/-! ## The operations -/

section
variable {s : MediaService} {a : AudioArgs} {e : Platform}

/-- The recorder of a call, before its thread: a new one, or the old one with the new address. -/
def Media.recordFor (m : Media) (a : AudioArgs) (e : Platform) : Option LanAudioRecord :=
  match m.m_iRecord with
  | none => LanAudioRecord.create m.udp_socket.isSome a e
  | some r => some ((r.stopThread.setDestIP a.Destaddr).setDestPort a.RtpPort)

/-- The player of a call, before its thread. -/
def Media.playFor (m : Media) (a : AudioArgs) (e : Platform) : LanAudioPlay :=
  match m.m_iPlay with
  | none => LanAudioPlay.create m.udp_socket.isSome a e
  | some p => p.stopThread

/-- The recorder gets thread `n`, and the player the next. -/
@[simps]
def Media.called (m : Media) (n : ℕ) (r : LanAudioRecord) (p : LanAudioPlay) : Media :=
  { m with
    m_iRecord := some { r with runner := some n }
    m_iPlay := some { p with runner := some (n + 1) } }

theorem recordFor_runner (h : m.recordFor a e = some r) : r.runner = none := by
  unfold Media.recordFor at h
  split at h
  · unfold LanAudioRecord.create at h
    split_ifs at h
    cases h
    rfl
  · cases h
    rfl

theorem playFor_runner : (m.playFor a e).runner = none := by
  unfold Media.playFor
  split
  · unfold LanAudioPlay.create
    split_ifs <;> rfl
  · rfl

theorem startPlayer_eq : s.startPlayer a e = s.startPlay (s.shared.playFor a e) := by
  unfold MediaService.startPlayer Media.playFor
  cases s.shared.m_iPlay <;> rfl

theorem startCall_none (h : s.shared.recordFor a e = none) : s.startCall a e = s := by
  unfold Media.recordFor at h
  unfold MediaService.startCall
  generalize s.shared.m_iRecord = x at h ⊢
  cases x with
  | none =>
    dsimp only at h ⊢
    rw [h]
  | some r => cases h

theorem startCall_some (h : s.shared.recordFor a e = some r) :
    s.startCall a e = (s.startRecord r).startPlayer a e := by
  unfold Media.recordFor at h
  unfold MediaService.startCall
  generalize s.shared.m_iRecord = x at h ⊢
  cases x with
  | none =>
    dsimp only at h ⊢
    rw [h]
  | some r =>
    cases h
    rfl

theorem startAudio_none (h : (s.opened e).shared.recordFor a e = none) :
    s.startAudio a e = s.opened e := startCall_none h

/-- A call starts a thread of the recorder and one of the player. -/
theorem startAudio_some (h : (s.opened e).shared.recordFor a e = some r) : s.startAudio a e =
    ⟨(s.opened e).shared.called s.places.length r ((s.opened e).shared.playFor a e),
      s.places ++ [.recorder .starting none, .player .starting none]⟩ := by
  have hstart : s.startAudio a e = ((s.opened e).startRecord r).startPlayer a e :=
    startCall_some h
  have hsame : ((s.opened e).startRecord r).shared.playFor a e = (s.opened e).shared.playFor a e := by
    rw [MediaService.startRecord, if_pos (recordFor_runner h)]
    rfl
  rw [hstart, startPlayer_eq, hsame, MediaService.startPlay, if_pos playFor_runner,
    MediaService.startRecord, if_pos (recordFor_runner h)]
  simp [Threads.start, MediaService.opened, Media.called, Media.setRecord, Media.setPlay]

end

end JaySip
