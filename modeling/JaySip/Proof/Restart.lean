/-
  Restarts of the recorder: what the cleanup of the thread before leaves to the new one.
-/
import JaySip.Proof.MediaService

namespace JaySip

open Java

variable {getByName : Str → Option Str} {c : Chance} {t n u : ℕ} {m m' : Media}
  {r r' : LanAudioRecord} {w : Option ℕ} {s : MediaService} {run run' : RecorderRun}

/-- The recorder has started its encoder. -/
def RecorderRun.encodes : RecorderRun → Bool
  | .recording | .testing | .working | .sending => true
  | _ => false

/-- Thread `t` is a recorder at `run`. -/
def RecorderAt (s : MediaService) (t : ℕ) (run : RecorderRun) : Prop :=
  ∃ w, s.places[t]? = some (.recorder run w)

/-- The thread of the recorder `r` is `n`, at `run`. -/
structure Current (s : MediaService) (r : LanAudioRecord) (n : ℕ) (run : RecorderRun) : Prop where
  record : s.shared.m_iRecord = some r
  runner : r.runner = some n
  place : RecorderAt s n run

/-- The encoder of the recorder has a thread. -/
def Media.EncoderRuns (m : Media) (r : LanAudioRecord) : Prop :=
  ∃ e o, m.encoderOf r = some (e, o) ∧ o.runner ≠ none

/-- What the thread at `run` has started is running: the encoder, and the device. -/
def Media.Intact (m : Media) (r : LanAudioRecord) (run : RecorderRun) : Prop :=
  (run.encodes → m.EncoderRuns r) ∧ (run.loops → r.recording = true)

/-- When no other recorder thread is left, what the recorder's thread has started is running. -/
def RestartSafe (s : MediaService) : Prop := ∀ r n run, Current s r n run →
  (∀ u run', u ≠ n → RecorderAt s u run' → run' = .ended) → s.shared.Intact r run

/-- The last thread but that of the recorder frees the encoder that the recorder's thread has
    started; or it throws when some other has. -/
def Spoils (s : MediaService) (i : MediaInput) : Prop :=
  match i with
  | .turn t _ => ∃ r n run run', Current s r n run ∧ t ≠ n ∧ RecorderAt s t run' ∧
      (∀ u run', u ≠ n → u ≠ t → RecorderAt s u run' → run' = .ended) ∧
      (run' = .releasing ∧ run.encodes ∨ s.shared.Throws r run' ∧ ¬ s.shared.Intact r run)
  | _ => False

/-- A thread that cleans up is not the recorder's. -/
def Leaves (m : Media) (t : ℕ) (q : MediaThread) : Prop := ∀ run w, q = .recorder run w →
  run = .stopping ∨ run = .releasing → ∀ r, m.m_iRecord = some r → r.runner ≠ some t

/-! ## Running encoders -/

theorem encoderRuns_iff : m.EncoderRuns r ↔
    ∃ e k, r.encoder = some e ∧ (m.encoders.map Coding.core)[e]? = some k ∧ k.2 ≠ none := by
  constructor
  · rintro ⟨e, o, h, ho⟩
    obtain ⟨he, hg⟩ := Media.encoderOf_eq_some.1 h
    obtain ⟨k, hk⟩ := runs_iff_core.1 ⟨o, hg, ho⟩
    exact ⟨e, k, he, hk⟩
  · rintro ⟨e, k, he, hk⟩
    obtain ⟨o, hg, ho⟩ := runs_iff_core.2 ⟨k, hk⟩
    exact ⟨e, o, Media.encoderOf_eq_some.2 ⟨he, hg⟩, ho⟩

theorem EncoderRuns.congr (hm : m'.encoders.map Coding.core = m.encoders.map Coding.core)
    (hr : r'.encoder = r.encoder) : m'.EncoderRuns r' ↔ m.EncoderRuns r := by
  rw [encoderRuns_iff, encoderRuns_iff, hm, hr]

theorem intact_congr (hm : m'.encoders.map Coding.core = m.encoders.map Coding.core) :
    m'.Intact r run ↔ m.Intact r run :=
  and_congr_left fun _ => imp_congr_right fun _ => EncoderRuns.congr hm rfl

theorem encoderRuns_started {e : ℕ} {o : Coding} (h : m.encoderOf r = some (e, o)) :
    (m.onEncoder e (·.startThread n)).EncoderRuns r := by
  obtain ⟨he, hg⟩ := Media.encoderOf_eq_some.1 h
  refine ⟨e, o.startThread n, Media.encoderOf_eq_some.2 ⟨he, ?_⟩, startThread_runner⟩
  rw [Media.onEncoder_encoders, List.getElem?_modify_eq, hg]
  rfl

theorem not_encoderRuns_stopped {e : ℕ} {o : Coding} (h : m.encoderOf r = some (e, o)) :
    ¬ (m.onEncoder e (·.stopThread)).EncoderRuns r := by
  obtain ⟨he, hg⟩ := Media.encoderOf_eq_some.1 h
  rintro ⟨e', o', h', hn⟩
  obtain ⟨he', hg'⟩ := Media.encoderOf_eq_some.1 h'
  obtain rfl : e = e' := Option.some.inj (he.symm.trans he')
  rw [Media.onEncoder_encoders, List.getElem?_modify_eq, hg] at hg'
  obtain rfl : o.stopThread = o' := Option.some.inj hg'
  exact hn rfl

/-! ## Places -/

theorem RecorderAt.unique (h : RecorderAt s t run) (h' : RecorderAt s t run') : run = run' := by
  obtain ⟨w, hw⟩ := h
  obtain ⟨w', hw'⟩ := h'
  cases hw.symm.trans hw'
  rfl

/-- The service behind a turn of thread `t`. -/
abbrev MediaService.turned (getByName : Str → Option Str) (c : Chance) (s : MediaService) (t : ℕ) :
    MediaService := Threads.turn (Media.turn getByName c) s t

theorem turned_shared {q : MediaThread} (hq : s.places[t]? = some q) :
    (s.turned getByName c t).shared =
      (s.shared.turn getByName c t s.places.length q).shared := by
  rw [MediaService.turned, Threads.turn_some hq]

/-- The other recorder threads stay where they are. -/
theorem recorderAt_turned_of_ne (hu : u ≠ t) :
    RecorderAt (s.turned getByName c t) u run ↔ RecorderAt s u run := by
  cases hq : s.places[t]? with
  | none => rw [MediaService.turned, Threads.turn_none hq]
  | some q =>
    refine exists_congr fun w => ?_
    rw [Threads.place_turn hq, if_neg hu]
    split_ifs with hl
    · refine iff_of_false (fun h => ?_) (by simp [hl])
      rcases Media.turn_started h with ⟨e, he⟩ | ⟨d, hd⟩
      · cases he
      · cases hd
    · rfl

theorem recorderAt_turned_self {q : MediaThread} (hq : s.places[t]? = some q) :
    RecorderAt (s.turned getByName c t) t run ↔
      ∃ w, (s.shared.turn getByName c t s.places.length q).place = .recorder run w := by
  refine exists_congr fun w => ?_
  rw [Threads.place_turn_self hq, Option.some.injEq]

/-- A turn of a thread that is no recorder moves no recorder. -/
theorem recorderAt_turned {q : MediaThread} (hq : s.places[t]? = some q) (hn : q.records = false) :
    RecorderAt (s.turned getByName c t) u run ↔ RecorderAt s u run := by
  by_cases hu : u = t
  · subst hu
    rw [recorderAt_turned_self hq]
    refine iff_of_false ?_ ?_
    · rintro ⟨w, hw⟩
      have hp : (Media.turn getByName c u s.places.length s.shared q).place.records = q.records :=
        (Media.turn_place q).1
      rw [hw, hn] at hp
      cases hp
    · rintro ⟨w, hw⟩
      cases hq.symm.trans hw
      cases hn
  · exact recorderAt_turned_of_ne hu

/-! ## One step -/

namespace RestartSafe

theorem of_record_none (h : s.shared.m_iRecord = none) : RestartSafe s := fun r _ _ hc =>
  absurd (h.symm.trans hc.record) (by simp)

/-- While the thread of the recorder has not started its encoder. -/
theorem of_starting (h : ∀ r n run, Current s r n run → run.encodes = false ∧ run.loops = false) :
    RestartSafe s := by
  intro r n run hc _
  obtain ⟨h₁, h₂⟩ := h r n run hc
  exact ⟨fun he => by simp [h₁] at he, fun hl => by simp [h₂] at hl⟩

/-- While another thread is left. -/
theorem of_alive (ha : RecorderAt s t run) (hn : run ≠ .ended)
    (ht : ∀ r, s.shared.m_iRecord = some r → r.runner ≠ some t) : RestartSafe s := by
  intro r n run' hc ho
  refine absurd (ho t run ?_ ha) hn
  rintro rfl
  exact ht r hc.record hc.runner

/-- Turns that move no recorder thread and leave its encoders alone. -/
theorem congr {s' : MediaService} (hr : s'.shared.m_iRecord = s.shared.m_iRecord)
    (he : s'.shared.encoders.map Coding.core = s.shared.encoders.map Coding.core)
    (hp : ∀ u run, RecorderAt s' u run ↔ RecorderAt s u run) : RestartSafe s' ↔ RestartSafe s := by
  refine forall_congr' fun r => forall_congr' fun n => forall_congr' fun run => ?_
  have hc : Current s' r n run ↔ Current s r n run :=
    ⟨fun h => ⟨hr ▸ h.record, h.runner, (hp _ _).1 h.place⟩,
      fun h => ⟨hr ▸ h.record, h.runner, (hp _ _).2 h.place⟩⟩
  rw [hc, intact_congr he]
  simp only [hp]

end RestartSafe

/-- The turns that end a thread. -/
theorem Media.RecorderTurn.ended_iff {q : Turn Media MediaThread}
    (h : RecorderTurn getByName t n m r w run q) : (∃ w', q.place = .recorder .ended w') ↔
      run = .ended ∨ run = .releasing ∨ m.Throws r run := by
  cases h with
  | woken e o he => simp [Throws, he]
  | recording hi => simp [Throws, hi]
  | looped run run' m' _ hl hl' ht =>
    refine iff_of_false ?_ ?_
    · rintro ⟨w', hw⟩
      cases hw
      cases hl'
    · rintro (rfl | rfl | h')
      · cases hl
      · cases hl
      · exact ht h'
  | thrown run m' ht => simp [ht]
  | _ => simp [Throws]

/-- The recorder's own thread in a turn. -/
theorem restartSafe_own (hs : RestartSafe s) (hq : s.places[t]? = some (.recorder run w))
    (hr : s.shared.m_iRecord = some r) (hn : r.runner = some t)
    (hl : Leaves s.shared t (.recorder run w)) : RestartSafe (s.turned getByName c t) := by
  have hpre : (∀ u run', u ≠ t → RecorderAt s u run' → run' = .ended) → s.shared.Intact r run :=
    hs r t run ⟨hr, hn, w, hq⟩
  have hleave : run ≠ .stopping ∧ run ≠ .releasing :=
    ⟨fun h => hl run w rfl (Or.inl h) r hr hn, fun h => hl run w rfl (Or.inr h) r hr hn⟩
  have ht : Media.RecorderTurn getByName t s.places.length s.shared r w run
      (s.shared.turn getByName c t s.places.length (.recorder run w)) := Media.turn_recorder hr
  have hsh : (s.turned getByName c t).shared =
      (s.shared.turn getByName c t s.places.length (.recorder run w)).shared := turned_shared hq
  have hset : (s.shared.turn getByName c t s.places.length (.recorder run w)).shared.m_iRecord.map
      (·.settings) = s.shared.m_iRecord.map (·.settings) := Media.turn_recordSettings _
  intro r' n run' hc ho
  have hrun : r'.runner = some t := by
    rw [← hsh, hc.record, hr] at hset
    exact (congrArg (fun x => x.runner) (Option.some.inj hset)).trans hn
  obtain rfl : t = n := Option.some.inj (hrun.symm.trans hc.runner)
  obtain ⟨w', hw'⟩ := (recorderAt_turned_self hq).1 hc.place
  have hothers : ∀ u run', u ≠ t → RecorderAt s u run' → run' = .ended :=
    fun u run' hu h => ho u run' hu ((recorderAt_turned_of_ne hu).2 h)
  have hrec := hc.record
  rw [hsh] at hrec ⊢
  generalize s.shared.turn getByName c t s.places.length (.recorder run w) = q at *
  have nothing : ∀ {m : Media}, run'.encodes = false → run'.loops = false → m.Intact r' run' :=
    fun h₁ h₂ => ⟨fun h => by simp [h₁] at h, fun h => by simp [h₂] at h⟩
  cases ht with
  | woken e o he =>
    cases hw'
    obtain rfl : r = r' := Option.some.inj (hr.symm.trans hrec)
    exact ⟨fun _ => encoderRuns_started he, fun h => by simp [RecorderRun.loops] at h⟩
  | recording hi =>
    cases hw'
    cases hrec
    exact ⟨fun _ => (EncoderRuns.congr rfl rfl).1 ((hpre hothers).1 rfl), fun _ => rfl⟩
  | running _ =>
    cases hw'
    obtain rfl : r = r' := Option.some.inj (hr.symm.trans hrec)
    exact ⟨fun _ => (hpre hothers).1 rfl, fun _ => (hpre hothers).2 rfl⟩
  | stopped h => exact absurd hn h
  | looped run run' m' _ hl hl' _ hspare =>
    cases hw'
    obtain rfl : r = r' := Option.some.inj (hr.symm.trans (hspare.record.symm.trans hrec))
    have he : run.encodes = true := by cases run <;> first | rfl | cases hl
    exact ⟨fun _ => (EncoderRuns.congr hspare.encoders rfl).2 ((hpre hothers).1 he),
      fun _ => (hpre hothers).2 hl⟩
  | silenced => exact absurd rfl hleave.1
  | released e o _ => exact absurd rfl hleave.2
  | _ =>
    cases hw'
    exact nothing rfl rfl

theorem spoils_iff (hq : s.places[t]? = some (.recorder run w)) (hr : s.shared.m_iRecord = some r)
    (hn : r.runner ≠ some t) : Spoils s (.turn t c) ↔ ∃ n run₁, Current s r n run₁ ∧
      (∀ u run', u ≠ n → u ≠ t → RecorderAt s u run' → run' = .ended) ∧
      (run = .releasing ∧ run₁.encodes ∨ s.shared.Throws r run ∧ ¬ s.shared.Intact r run₁) := by
  constructor
  · rintro ⟨r', n, run₁, run₂, hc, -, hat, ho, h⟩
    obtain rfl : r = r' := Option.some.inj (hr.symm.trans hc.record)
    obtain rfl : run = run₂ := RecorderAt.unique ⟨w, hq⟩ hat
    exact ⟨n, run₁, hc, ho, h⟩
  · rintro ⟨n, run₁, hc, ho, h⟩
    refine ⟨r, n, run₁, run, hc, ?_, ⟨w, hq⟩, ho, h⟩
    rintro rfl
    exact hn hc.runner

/-- Behind the turn in which another recorder thread ends. -/
theorem restartSafe_ended_iff (hq : s.places[t]? = some (.recorder run w))
    (hr : s.shared.m_iRecord = some r) (hn : r.runner ≠ some t)
    (hr' : (s.turned getByName c t).shared.m_iRecord = some r)
    (he : RecorderAt (s.turned getByName c t) t .ended) : RestartSafe (s.turned getByName c t) ↔
      ∀ n run₁, Current s r n run₁ →
        (∀ u run', u ≠ n → u ≠ t → RecorderAt s u run' → run' = .ended) →
          (s.turned getByName c t).shared.Intact r run₁ := by
  have hne : ∀ n, r.runner = some n → n ≠ t := fun n h ht => hn (ht ▸ h)
  constructor
  · intro h n run₁ hc ho
    have hc' : Current (s.turned getByName c t) r n run₁ :=
      ⟨hr', hc.runner, (recorderAt_turned_of_ne (hne n hc.runner)).2 hc.place⟩
    refine h r n run₁ hc' fun u run' hu hat => ?_
    by_cases ht : u = t
    · subst ht
      exact hat.unique he
    · exact ho u run' hu ht ((recorderAt_turned_of_ne ht).1 hat)
  · intro h r' n run₁ hc ho
    obtain rfl : r = r' := Option.some.inj (hr'.symm.trans hc.record)
    have hc' : Current s r n run₁ :=
      ⟨hr, hc.runner, (recorderAt_turned_of_ne (hne n hc.runner)).1 hc.place⟩
    exact h n run₁ hc' fun u run' hu ht hat => ho u run' hu ((recorderAt_turned_of_ne ht).2 hat)

theorem Media.RecorderTurn.thrown_spares {q : Turn Media MediaThread}
    (h : RecorderTurn getByName t n m r w run q) (ht : m.Throws r run) :
    m.SparesRecord q.shared := by
  cases h with
  | woken e o he => exact absurd (he.symm.trans ht) (by simp)
  | recording hi => exact absurd (hi.symm.trans ht) (by simp)
  | looped _ _ _ _ _ _ hn => exact absurd ht hn
  | released e o he => exact absurd (he.symm.trans ht) (by simp)
  | thrown _ _ _ hs => exact hs
  | _ => exact ht.elim

/-- The turn in which another recorder thread ends is safe if what it leaves intact is what it
    does not spoil. -/
theorem restartSafe_of_intact (hq : s.places[t]? = some (.recorder run w))
    (hr : s.shared.m_iRecord = some r) (hn : r.runner ≠ some t)
    (hr' : (s.turned getByName c t).shared.m_iRecord = some r)
    (he : RecorderAt (s.turned getByName c t) t .ended)
    (hi : ∀ run₁, (s.turned getByName c t).shared.Intact r run₁ ↔
      ¬ (run = .releasing ∧ run₁.encodes ∨ s.shared.Throws r run ∧ ¬ s.shared.Intact r run₁)) :
    RestartSafe (s.turned getByName c t) ↔ ¬ Spoils s (.turn t c) := by
  rw [restartSafe_ended_iff hq hr hn hr' he, spoils_iff hq hr hn]
  constructor
  · rintro h ⟨n, run₁, hc, ho, hs⟩
    exact (hi run₁).1 (h n run₁ hc ho) hs
  · intro h n run₁ hc ho
    exact (hi run₁).2 fun hs => h ⟨n, run₁, hc, ho, hs⟩

theorem restartSafe_released {e : ℕ} {o : Coding}
    (hq : s.places[t]? = some (.recorder .releasing w)) (hr : s.shared.m_iRecord = some r)
    (hn : r.runner ≠ some t) (he : s.shared.encoderOf r = some (e, o)) :
    RestartSafe (s.turned getByName c t) ↔ ¬ Spoils s (.turn t c) := by
  have hturn : s.shared.turn getByName c t s.places.length (.recorder .releasing w) =
      (s.shared.onEncoder e (·.stopThread)).goes (.recorder .ended w) := by
    simp only [Media.turn, hr, Media.recorderTurn, he]
  have hsh : (s.turned getByName c t).shared = s.shared.onEncoder e (·.stopThread) := by
    rw [turned_shared hq, hturn, Media.goes_shared]
  have hend : RecorderAt (s.turned getByName c t) t .ended :=
    (recorderAt_turned_self hq).2 ⟨w, by rw [hturn, Media.goes_place]⟩
  refine restartSafe_of_intact hq hr hn (by rw [hsh, Media.onEncoder_m_iRecord, hr]) hend ?_
  intro run₁
  rw [hsh]
  have hstop := not_encoderRuns_stopped he
  constructor
  · rintro hi (⟨-, h⟩ | ⟨h, -⟩)
    · exact hstop (hi.1 h)
    · exact absurd (he.symm.trans h) (by simp)
  · intro h
    have henc : ¬ run₁.encodes = true := fun h' => h (Or.inl ⟨rfl, h'⟩)
    refine ⟨fun h' => absurd h' henc, fun h' => absurd ?_ henc⟩
    cases run₁ <;> first | rfl | cases h'

theorem restartSafe_thrown (hq : s.places[t]? = some (.recorder run w))
    (hr : s.shared.m_iRecord = some r) (hn : r.runner ≠ some t) (ht : s.shared.Throws r run) :
    RestartSafe (s.turned getByName c t) ↔ ¬ Spoils s (.turn t c) := by
  have hturn : Media.RecorderTurn getByName t s.places.length s.shared r w run
      (s.shared.turn getByName c t s.places.length (.recorder run w)) := Media.turn_recorder hr
  have hspare := hturn.thrown_spares ht
  have hsh : (s.turned getByName c t).shared =
      (s.shared.turn getByName c t s.places.length (.recorder run w)).shared := turned_shared hq
  have hend : RecorderAt (s.turned getByName c t) t .ended :=
    (recorderAt_turned_self hq).2 (hturn.ended_iff.2 (Or.inr (Or.inr ht)))
  refine restartSafe_of_intact hq hr hn (by rw [hsh, hspare.record, hr]) hend fun run₁ => ?_
  rw [hsh, intact_congr hspare.encoders]
  constructor
  · rintro hi (⟨rfl, h⟩ | ⟨-, h⟩)
    · obtain ⟨e, o, he, -⟩ := hi.1 h
      exact absurd (he.symm.trans ht) (by simp)
    · exact h hi
  · intro h
    by_contra hni
    exact h (Or.inr ⟨ht, hni⟩)

/-- Another recorder thread in a turn. -/
theorem restartSafe_other (hs : RestartSafe s) (hq : s.places[t]? = some (.recorder run w))
    (hr : s.shared.m_iRecord = some r) (hn : r.runner ≠ some t) :
    RestartSafe (s.turned getByName c t) ↔ ¬ Spoils s (.turn t c) := by
  have ht : Media.RecorderTurn getByName t s.places.length s.shared r w run
      (s.shared.turn getByName c t s.places.length (.recorder run w)) := Media.turn_recorder hr
  by_cases hthrow : s.shared.Throws r run
  · exact restartSafe_thrown hq hr hn hthrow
  by_cases hrel : run = .releasing
  · subst hrel
    obtain ⟨x, hx⟩ := Option.ne_none_iff_exists'.1 hthrow
    exact restartSafe_released hq hr hn hx
  have hnot : ¬ Spoils s (.turn t c) := by
    rw [spoils_iff hq hr hn]
    rintro ⟨n, run₁, -, -, h | h⟩
    · exact hrel h.1
    · exact hthrow h.1
  refine iff_of_true ?_ hnot
  by_cases hend : run = .ended
  · subst hend
    have hstay : s.shared.turn getByName c t s.places.length (.recorder .ended w) =
        ⟨s.shared, .recorder .ended w, none⟩ := by
      rw [Media.turn, hr]
      rfl
    rwa [MediaService.turned, Threads.turn_stay hq hstay]
  · -- the thread goes on
    obtain ⟨run', w', hp⟩ := ht.place
    refine .of_alive ((recorderAt_turned_self hq).2 ⟨w', hp⟩) ?_ fun r' h' => ?_
    · rintro rfl
      obtain h | h | h := ht.ended_iff.1 ⟨w', hp⟩
      · exact hend h
      · exact hrel h
      · exact hthrow h
    · have hset : (s.shared.turn getByName c t s.places.length
          (.recorder run w)).shared.m_iRecord.map (·.settings) =
          s.shared.m_iRecord.map (·.settings) := Media.turn_recordSettings _
      rw [← turned_shared hq, h', hr] at hset
      have he : r'.runner = r.runner := congrArg (fun x => x.runner) (Option.some.inj hset)
      rwa [he]

/-! ## All steps -/

theorem settings_runner (h : r'.settings = r.settings) : r'.runner = r.runner :=
  congrArg (fun x => x.runner) h

/-- A thread that cleans up stays replaced. -/
theorem Leaves.step {i : MediaInput} (h : Threads.Annotated (fun _ => True) Leaves s) :
    Threads.Annotated (fun _ => True) Leaves ((media getByName).step s i) := by
  cases i with
  | startAudio a e =>
    show Threads.Annotated _ _ (s.startAudio a e)
    cases hr : (s.opened e).shared.recordFor a e with
    | none =>
      rw [startAudio_none hr]
      exact h.of_shared trivial fun u q _ hA => hA
    | some r =>
      rw [startAudio_some hr]
      refine h.append trivial ?_ ?_
      · rintro (_ | _ | i) p hp run w rfl hrun
        · cases hp
          simp at hrun
        · cases hp
        · cases hp
      · rintro u q hq - run w - - r' hr'
        cases hr'
        have hu := Threads.lt_of_place hq
        simp
        omega
  | stopAudio =>
    refine h.of_shared trivial ?_
    rintro u q - - run w - - r' hr'
    obtain ⟨r, -, rfl⟩ := Option.map_eq_some_iff.1 hr'
    simp [LanAudioRecord.stopThread]
  | turn t c =>
    refine h.turn fun q hq hA => ⟨trivial, ?_, ?_, ?_⟩
    · rintro run' w' hp hrun r' hr'
      obtain ⟨r, hr, hset⟩ := Media.turn_record hr'
      rw [settings_runner hset]
      have hrec : q.records = true := by
        have hk : (s.shared.turn getByName c t s.places.length q).place.records = q.records :=
          (Media.turn_place q).1
        rw [← hk, hp]
        rfl
      cases q with
      | recorder run w =>
        have ht : Media.RecorderTurn getByName t s.places.length s.shared r w run
            (s.shared.turn getByName c t s.places.length (.recorder run w)) :=
          Media.turn_recorder hr
        generalize s.shared.turn getByName c t s.places.length (.recorder run w) = q at ht hp
        cases ht with
        | stopped hn => exact hn
        | silenced => exact hA .stopping w rfl (Or.inl rfl) r hr
        | looped _ _ _ _ _ hl =>
          cases hp
          rcases hrun with rfl | rfl <;> cases hl
        | _ =>
          cases hp
          simp at hrun
      | _ => cases hrec
    · rintro q' hq' run w rfl
      rcases Media.turn_started hq' with ⟨e, he⟩ | ⟨d, hd⟩
      · cases he
      · cases hd
    · rintro u q' - - hA' run w rfl hrun r' hr'
      obtain ⟨r, hr, hset⟩ := Media.turn_record hr'
      rw [settings_runner hset]
      exact hA' run w rfl hrun r hr

/-- Nothing is lost by a call: its thread has started nothing yet. -/
theorem RestartSafe.startAudio {a : AudioArgs} {e : Platform} (hs : RestartSafe s) :
    RestartSafe (s.startAudio a e) := by
  cases hr : (s.opened e).shared.recordFor a e with
  | none =>
    rw [startAudio_none hr]
    have hc : RestartSafe (s.opened e) ↔ RestartSafe s :=
      RestartSafe.congr rfl rfl fun _ _ => Iff.rfl
    exact hc.2 hs
  | some r =>
    rw [startAudio_some hr]
    refine .of_starting ?_
    rintro r' n run ⟨hr', hn, w, hw⟩
    cases hr'
    obtain rfl : s.places.length = n := Option.some.inj hn
    rw [List.getElem?_append_right le_rfl, Nat.sub_self] at hw
    cases hw
    exact ⟨rfl, rfl⟩

theorem RestartSafe.turned (hl : Threads.Annotated (fun _ => True) Leaves s) (hs : RestartSafe s) :
    RestartSafe (s.turned getByName c t) ↔ ¬ Spoils s (.turn t c) := by
  cases hq : s.places[t]? with
  | none =>
    rw [MediaService.turned, Threads.turn_none hq]
    refine iff_of_true hs ?_
    rintro ⟨r, n, run, run', -, -, ⟨w, hw⟩, -⟩
    cases hq.symm.trans hw
  | some q =>
    cases hrec : q.records with
    | false =>
      have hsh : (s.turned getByName c t).shared =
          (s.shared.turn getByName c t s.places.length q).shared := turned_shared hq
      have hspare : s.shared.SparesRecord (s.turned getByName c t).shared :=
        hsh ▸ Media.turn_sparesRecord hrec
      refine iff_of_true ((RestartSafe.congr hspare.record hspare.encoders fun u run =>
        recorderAt_turned hq hrec).2 hs) ?_
      rintro ⟨r, n, run, run', -, -, ⟨w, hw⟩, -⟩
      cases hq.symm.trans hw
      cases hrec
    | true =>
      obtain ⟨run, w, rfl⟩ := exists_of_records hrec
      cases hr : s.shared.m_iRecord with
      | none =>
        refine iff_of_true (.of_record_none ?_) ?_
        · rw [turned_shared hq, Media.turn_recorder_none hr, Media.goes_shared, hr]
        · rintro ⟨r, n, run, run', hc, -⟩
          cases hr.symm.trans hc.record
      | some r =>
        by_cases hn : r.runner = some t
        · refine iff_of_true (restartSafe_own hs hq hr hn (hl.place t _ hq)) ?_
          rintro ⟨r', n, run, run', hc, ht, -⟩
          obtain rfl : r = r' := Option.some.inj (hr.symm.trans hc.record)
          exact ht (Option.some.inj (hn.symm.trans hc.runner))
        · exact restartSafe_other hs hq hr hn

theorem RestartSafe.step {i : MediaInput} (hl : Threads.Annotated (fun _ => True) Leaves s)
    (hs : RestartSafe s) : RestartSafe ((media getByName).step s i) ↔ ¬ Spoils s i := by
  cases i with
  | startAudio a e => exact iff_of_true hs.startAudio id
  | stopAudio =>
    refine iff_of_true ?_ id
    rintro r n run ⟨hr, hn, -⟩
    obtain ⟨r', -, rfl⟩ := Option.map_eq_some_iff.1 hr
    simp [LanAudioRecord.stopThread] at hn
  | turn t c => exact hs.turned hl

/-- **Restarts of the recorder.**  What the recorder's thread has started is running, once it is
    the only one, in exactly the runs in which no last outgoing thread frees it, or ends by
    an exception when it has been freed. -/
theorem restartSafe_along_iff (getByName : Str → Option Str) (is : List MediaInput) :
    (media getByName).Along MediaService.init is (fun _ st => RestartSafe st.post) ↔
      (media getByName).Along MediaService.init is (fun _ st => ¬ Spoils st.pre st.input) := by
  refine (media getByName).along_iff
    (I := fun _ s => Threads.Annotated (fun _ => True) Leaves s ∧ RestartSafe s) ?_ ?_ ?_ is
  · refine ⟨⟨trivial, fun t q hq => ?_⟩, .of_record_none rfl⟩
    simp [MediaService.init] at hq
  · rintro _ s i ⟨hl, hs⟩ hc
    exact ⟨Leaves.step hl, (hs.step hl).2 hc⟩
  · rintro _ s i ⟨hl, hs⟩
    exact hs.step hl

namespace Trace

/-- A call to Bob. -/
def callTo (codecType SampleRate : ℤ) (address : String) : MediaInput :=
  .startAudio ⟨address.toList, codecType, SampleRate, 8000⟩ ⟨false, false, true, false⟩

/-- `n` turns of thread `t`, while samples come and no datagrams. -/
def turns (t n : ℕ) : List MediaInput := List.replicate n (.turn t ⟨true, none, none, false⟩)

/-- A second call, whose recorder gets to its loop before that of the first leaves its own. -/
def restart : List MediaInput :=
  [callTo 8 8000 "10.0.0.2"] ++ turns 0 6 ++ [callTo 8 8000 "10.0.0.2"] ++ turns 3 6 ++ turns 0 2

end Trace

/-- The cleanup of the first call's thread stops the device and the encoder of the second. -/
theorem restart_unsafe : ¬ ∀ is, (media some).Along MediaService.init is
    fun _ st => RestartSafe st.post := by
  intro h
  have hrun := h (Trace.restart ++ Trace.turns 0 1)
  have hlast := ((media some).along_snoc.1 hrun).2
  have hc : Current ((media some).run MediaService.init (Trace.restart ++ Trace.turns 0 1)) _ 3
    .testing := ⟨rfl, rfl, _, rfl⟩
  refine absurd ((hlast _ 3 .testing hc ?_).2 rfl) (by simp)
  rintro (_ | _ | _ | _ | _ | _ | u) run' hu ⟨w, hw⟩ <;> cases hw
  · rfl
  · exact absurd rfl hu

end JaySip
