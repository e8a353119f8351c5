/-
  The peer of the shared socket: whom the socket is connected to while a call runs.
-/
import JaySip.Proof.Restart

namespace JaySip

open Java

variable {getByName : Str → Option Str} {c : Chance} {t : ℕ} {r r' : LanAudioRecord}
  {s s' : MediaService} {q : Peer}

/-- The peer is where the recorder sends to. -/
def Destination (getByName : Str → Option Str) (r : LanAudioRecord) (q : Peer) : Prop :=
  getByName r.destip = some q.address ∧ q.port = r.destport

/-- While a call runs, a connected socket is connected to the call's destination. -/
def Tuned (getByName : Str → Option Str) (s : MediaService) : Prop :=
  ∀ r q, s.shared.m_iRecord = some r → r.runner ≠ none → s.shared.udp_socket = some ⟨some q⟩ →
    Destination getByName r q

/-- While a call runs, a recorder thread sends to its destination, but the socket is connected
    to another peer. -/
def Rejects (getByName : Str → Option Str) (s : MediaService) (i : MediaInput) : Prop :=
  match i with
  | .turn t _ => RecorderAt s t .sending ∧ ∃ r p q, s.shared.m_iRecord = some r ∧
      r.runner ≠ none ∧ r.rtp_socket = some p ∧ Destination getByName r p ∧
      s.shared.udp_socket = some ⟨some q⟩ ∧ q ≠ p
  | _ => False

/-- A call starts while the socket is connected to another peer than its destination; or while
    one runs, a player thread takes its first datagram from another peer. -/
def Strays (getByName : Str → Option Str) (s : MediaService) (i : MediaInput) : Prop :=
  match i with
  | .startAudio a _ => ∃ q, s.shared.udp_socket = some ⟨some q⟩ ∧
      ¬ (getByName a.Destaddr = some q.address ∧ q.port = a.RtpPort)
  | .stopAudio => False
  | .turn t c => ∃ run w p r q, s.places[t]? = some (.player run w) ∧ run.receives ∧
      s.shared.m_iPlay = some p ∧ p.udp_socket = true ∧ s.shared.udp_socket = some ⟨none⟩ ∧
      c.source = some q ∧ s.shared.m_iRecord = some r ∧ r.runner ≠ none ∧
      ¬ Destination getByName r q

/-- There is a recorder when there is a player or the socket is connected. -/
structure Made (m : Media) : Prop where
  play : m.m_iPlay ≠ none → m.m_iRecord ≠ none
  peer : ∀ q, m.udp_socket = some ⟨some q⟩ → m.m_iRecord ≠ none

theorem Destination.of_settings (h : Destination getByName r q) (hs : r'.settings = r.settings) :
    Destination getByName r' q := by
  have hip : r'.destip = r.destip := congrArg (·.destip) hs
  have hport : r'.destport = r.destport := congrArg (·.destport) hs
  rwa [Destination, hip, hport]

theorem Destination.unique {p : Peer} (h : Destination getByName r q)
    (h' : Destination getByName r p) : q = p := by
  have ha : q.address = p.address := Option.some.inj (h.1.symm.trans h'.1)
  have hp : q.port = p.port := h.2.trans h'.2.symm
  cases q
  cases p
  cases ha
  cases hp
  rfl

/-- While the socket is tuned, the recorder's packets are not refused. -/
theorem Tuned.not_rejects (h : Tuned getByName s) (i : MediaInput) : ¬ Rejects getByName s i := by
  cases i with
  | turn t c =>
    rintro ⟨-, r, p, q, hr, hn, -, hd, hq, hne⟩
    exact hne ((h r q hr hn hq).unique hd)
  | _ => exact id

/-- Steps that keep the settings of the recorder and the socket. -/
theorem Tuned.of_kept (h : Tuned getByName s)
    (hs : s'.shared.m_iRecord.map (·.settings) = s.shared.m_iRecord.map (·.settings))
    (hu : s'.shared.udp_socket = s.shared.udp_socket) : Tuned getByName s' := by
  intro r' q hr' hn hq
  rw [hr', Option.map_some, eq_comm, Option.map_eq_some_iff] at hs
  obtain ⟨r, hr, hset⟩ := hs
  rw [hu] at hq
  exact (h r q hr (settings_runner hset ▸ hn) hq).of_settings hset.symm

/-! ## One step -/

/-- A receive on the unconnected socket connects it, another one does not. -/
theorem receive_socket {m m' : Media} {source : Option Peer} (h : m.receive source = some m') :
    m'.udp_socket = m.udp_socket ∧ (source = none ∨ m.udp_socket ≠ some ⟨none⟩) ∨
      ∃ q, source = some q ∧ m.udp_socket = some ⟨none⟩ ∧ m'.udp_socket = some ⟨some q⟩ := by
  unfold Media.receive at h
  split at h
  · cases h
    exact Or.inl ⟨rfl, Or.inl rfl⟩
  next q hu =>
    cases h
    exact Or.inr ⟨q, rfl, hu, rfl⟩
  next p q hu =>
    split_ifs at h
    cases h
    exact Or.inl ⟨rfl, Or.inr (by simp [hu])⟩
  · cases h

theorem receive_unconnected {m : Media} (h : m.udp_socket = some ⟨none⟩) (q : Peer) :
    m.receive (some q) = some { m with udp_socket := some ⟨some q⟩ } := by
  simp only [Media.receive, h]

namespace Tuned

/-- Turns that leave the socket's peer. -/
theorem of_socket {q : MediaThread} (h : Tuned getByName s) (hq : s.places[t]? = some q)
    (hu : (s.shared.turn getByName c t s.places.length q).shared.udp_socket =
      s.shared.udp_socket) : Tuned getByName (s.turned getByName c t) := by
  refine h.of_kept ?_ ?_
  · rw [turned_shared hq]
    exact Media.turn_recordSettings q
  · rw [turned_shared hq, hu]

/-- A player thread in a turn. -/
theorem turned_player {run : PlayerRun} {w : Option ℕ} {p : LanAudioPlay} (h : Tuned getByName s)
    (hq : s.places[t]? = some (.player run w)) (hp : s.shared.m_iPlay = some p) :
    Tuned getByName (s.turned getByName c t) ↔ ¬ Strays getByName s (.turn t c) := by
  have ht : Media.PlayerTurn c t s.places.length s.shared p w run
      (s.shared.turn getByName c t s.places.length (.player run w)) := Media.turn_player hp
  have hsh : (s.turned getByName c t).shared =
      (s.shared.turn getByName c t s.places.length (.player run w)).shared := turned_shared hq
  have hstray : Strays getByName s (.turn t c) → run.receives ∧ p.udp_socket = true ∧
      s.shared.udp_socket = some ⟨none⟩ ∧ ∃ q, c.source = some q := by
    rintro ⟨run', w', p', r, q, hq', hrun, hp', hsock, hu, hc, -⟩
    cases hq.symm.trans hq'
    cases hp.symm.trans hp'
    exact ⟨hrun, hsock, hu, q, hc⟩
  have hkeep := h.of_socket (c := c) hq
  generalize s.shared.turn getByName c t s.places.length (.player run w) = x at ht hsh hkeep
  cases ht with
  | received run next m' hrun _ hsock hrec =>
    have hsame : m'.m_iRecord = s.shared.m_iRecord := by
      obtain ⟨u, rfl⟩ := Media.receive_eq hrec
      rfl
    rcases receive_socket hrec with ⟨hu, hn⟩ | ⟨q, hc, hu, hu'⟩
    · refine iff_of_true (hkeep hu) fun hs => ?_
      obtain ⟨-, -, hu, q, hc⟩ := hstray hs
      exact hn.elim (fun h => by simp [h] at hc) fun h => h hu
    · constructor
      · rintro h' ⟨run', w', p', r, q', -, -, -, -, -, hc', hr, hn, hd⟩
        obtain rfl : q = q' := Option.some.inj (hc.symm.trans hc')
        exact hd (h' r q (hsh ▸ hsame.trans hr) hn (hsh ▸ hu'))
      · intro h' r q' hr hn hq'
        rw [hsh] at hr hq'
        obtain rfl : q = q' := by simpa using hu'.symm.trans hq'
        by_contra hd
        exact h' ⟨run, w, p, r, q, hq, hrun, hp, hsock, hu, hc, hsame.symm.trans hr, hn, hd⟩
  | waited run hrun hrec =>
    refine iff_of_true (hkeep rfl) fun hs => ?_
    obtain ⟨-, -, hu, q, hc⟩ := hstray hs
    rw [hc, receive_unconnected hu] at hrec
    cases hrec
  | deaf run hrun hsock =>
    refine iff_of_true (hkeep rfl) fun hs => ?_
    exact absurd (hsock.symm.trans (hstray hs).2.1) (by simp)
  | handed run next m' hrun _ _ _ hs =>
    refine iff_of_true (hkeep hs.socket) fun hs => ?_
    exact absurd (hrun.symm.trans (hstray hs).1) (by simp)
  | _ => exact iff_of_true (hkeep rfl) fun hs => nomatch (hstray hs).1

theorem turned (h : Tuned getByName s) :
    Tuned getByName (s.turned getByName c t) ↔ ¬ Strays getByName s (.turn t c) := by
  cases hq : s.places[t]? with
  | none =>
    rw [MediaService.turned, Threads.turn_none hq]
    refine iff_of_true h ?_
    rintro ⟨run, w, p, r, q, hq', -⟩
    cases hq.symm.trans hq'
  | some q =>
    cases hplay : q.plays with
    | false =>
      refine iff_of_true (h.of_socket hq (Media.turn_sparesPlay hplay).socket) ?_
      rintro ⟨run, w, p, r, q', hq', -⟩
      cases hq.symm.trans hq'
      cases hplay
    | true =>
      obtain ⟨run, w, rfl⟩ := exists_of_plays hplay
      cases hp : s.shared.m_iPlay with
      | none =>
        refine iff_of_true (h.of_socket hq ?_) ?_
        · rw [Media.turn_player_none hp, Media.goes_shared]
        · rintro ⟨run', w', p, r, q', -, -, hp', -⟩
          cases hp.symm.trans hp'
      | some p => exact h.turned_player hq hp

end Tuned

/-- A connected socket stays connected when the service opens it. -/
theorem opened_socket {e : Platform} {q : Peer} :
    (s.opened e).shared.udp_socket = some ⟨some q⟩ ↔ s.shared.udp_socket = some ⟨some q⟩ := by
  unfold MediaService.opened
  cases s.shared.udp_socket with
  | none => by_cases hb : e.bindThrows <;> simp [hb]
  | some k => simp

/-- The recorder of a call sends to the address of the call. -/
theorem recordFor_destination {m : Media} {a : AudioArgs} {e : Platform}
    (h : m.recordFor a e = some r) : r.destip = a.Destaddr ∧ r.destport = a.RtpPort := by
  unfold Media.recordFor at h
  split at h
  · unfold LanAudioRecord.create at h
    split_ifs at h
    cases h
    exact ⟨rfl, rfl⟩
  · cases h
    exact ⟨rfl, rfl⟩

theorem Tuned.startAudio {a : AudioArgs} {e : Platform} (hm : Made s.shared) :
    Tuned getByName (s.startAudio a e) ↔ ¬ Strays getByName s (.startAudio a e) := by
  cases hr : (s.opened e).shared.recordFor a e with
  | none =>
    have hnone : s.shared.m_iRecord = none := by
      unfold Media.recordFor at hr
      split at hr
      · assumption
      · cases hr
    rw [startAudio_none hr]
    refine iff_of_true (fun r q hr' => ?_) ?_
    · cases hnone.symm.trans hr'
    · rintro ⟨q, hq, -⟩
      exact hm.peer q hq hnone
  | some r =>
    obtain ⟨hip, hport⟩ := recordFor_destination hr
    rw [startAudio_some hr]
    constructor
    · rintro h ⟨q, hq, hd⟩
      obtain ⟨h₁, h₂⟩ := h _ q rfl (by simp) (opened_socket.2 hq)
      exact hd ⟨hip ▸ h₁, h₂.trans hport⟩
    · intro h r' q hr' _ hq
      cases hr'
      by_contra hd
      refine h ⟨q, opened_socket.1 hq, fun h' => hd ⟨?_, h'.2.trans hport.symm⟩⟩
      show getByName r.destip = _
      rw [hip]
      exact h'.1

theorem Tuned.stopAudio : Tuned getByName s.stopAudio := by
  intro r q hr hn
  obtain ⟨r', -, rfl⟩ := Option.map_eq_some_iff.1 hr
  exact absurd rfl hn

namespace Made

/-- Steps that keep the recorder, up to its settings, and make no player and no peer. -/
theorem of_record {m m' : Media} (h : Made m)
    (hr : m'.m_iRecord.map (·.settings) = m.m_iRecord.map (·.settings))
    (hp : m'.m_iPlay ≠ none → m.m_iPlay ≠ none)
    (hu : ∀ q, m'.udp_socket = some ⟨some q⟩ →
      m.udp_socket = some ⟨some q⟩ ∨ m.m_iPlay ≠ none) : Made m' := by
  have hne : m.m_iRecord ≠ none → m'.m_iRecord ≠ none := by
    intro hn hn'
    rw [hn', Option.map_none, eq_comm, Option.map_eq_none_iff] at hr
    exact hn hr
  exact ⟨fun h' => hne (h.play (hp h')), fun q hq =>
    hne ((hu q hq).elim (h.peer q) h.play)⟩

theorem step {i : MediaInput} (h : Made s.shared) :
    Made ((media getByName).step s i).shared := by
  cases i with
  | startAudio a e =>
    show Made (s.startAudio a e).shared
    cases hr : (s.opened e).shared.recordFor a e with
    | none =>
      rw [startAudio_none hr]
      exact h.of_record rfl id fun q hq => Or.inl (opened_socket.1 hq)
    | some r =>
      rw [startAudio_some hr]
      exact ⟨fun _ => by simp, fun _ _ => by simp⟩
  | stopAudio =>
    have hn : s.stopAudio.shared.m_iRecord = none → s.shared.m_iRecord = none :=
      Option.map_eq_none_iff.1
    refine ⟨fun hp h' => h.play (fun hp' => hp ?_) (hn h'), fun q hq h' => h.peer q hq (hn h')⟩
    exact Option.map_eq_none_iff.2 hp'
  | turn t c =>
    cases hq : s.places[t]? with
    | none =>
      show Made (s.turned getByName c t).shared
      rwa [MediaService.turned, Threads.turn_none hq]
    | some q =>
      show Made (s.turned getByName c t).shared
      rw [turned_shared hq]
      have hset : (s.shared.turn getByName c t s.places.length q).shared.m_iPlay.map (·.settings) =
          s.shared.m_iPlay.map (·.settings) := Media.turn_playSettings q
      refine h.of_record (Media.turn_recordSettings q) ?_ ?_
      · intro hp hp'
        rw [hp', Option.map_none, Option.map_eq_none_iff] at hset
        exact hp hset
      · intro q' hq'
        cases hp : s.shared.m_iPlay with
        | some p => exact Or.inr (by simp)
        | none =>
          left
          cases hplay : q.plays with
          | false => rwa [(Media.turn_sparesPlay hplay).socket] at hq'
          | true =>
            obtain ⟨run, w, rfl⟩ := exists_of_plays hplay
            rwa [Media.turn_player_none hp] at hq'

end Made

/-! ## Runs -/

theorem Tuned.step {i : MediaInput} (hm : Made s.shared) (h : Tuned getByName s) :
    Tuned getByName ((media getByName).step s i) ↔ ¬ Strays getByName s i := by
  cases i with
  | startAudio a e => exact Tuned.startAudio hm
  | stopAudio => exact iff_of_true Tuned.stopAudio id
  | turn t c => exact h.turned

/-- **The peer of the socket.**  While a call runs, a connected socket is connected to its
    destination, and no packet to there is refused, in exactly the runs in which each call
    starts while the socket is unconnected or connected to its destination, and the first
    datagram on the unconnected socket is the destination's. -/
theorem tuned_along_iff (getByName : Str → Option Str) (is : List MediaInput) :
    (media getByName).Along MediaService.init is
        (fun _ st => Tuned getByName st.post ∧ ¬ Rejects getByName st.pre st.input) ↔
      (media getByName).Along MediaService.init is
        (fun _ st => ¬ Strays getByName st.pre st.input) := by
  refine (media getByName).along_iff
    (I := fun _ s => Made s.shared ∧ Tuned getByName s) ?_ ?_ ?_ is
  · refine ⟨⟨fun h => absurd rfl h, fun q h => ?_⟩, fun r q h => ?_⟩
    · cases h
    · cases h
  · rintro _ s i ⟨hm, h⟩ hc
    exact ⟨hm.step, (h.step hm).2 hc⟩
  · rintro _ s i ⟨hm, h⟩
    exact (and_iff_left (h.not_rejects i)).trans (h.step hm)

namespace Trace

/-- A datagram comes to the player. -/
def hears (t : ℕ) (address : String) : MediaInput :=
  .turn t ⟨false, some ⟨address.toList, 8000⟩, none, false⟩

end Trace

/-- The first datagram is a stranger's: the socket is connected to him. -/
theorem tuned_to_stranger : ¬ ∀ is, (media some).Along MediaService.init is fun _ st =>
    Tuned some st.post ∧ ¬ Rejects some st.pre st.input := by
  intro h
  have hrun := h (([Trace.callTo 8 8000 "10.0.0.2"] ++ Trace.turns 1 2) ++
    [Trace.hears 1 "10.6.6.6"])
  have hlast := ((media some).along_snoc.1 hrun).2.1
  obtain ⟨ha, -⟩ := hlast _ _ rfl (by simp) rfl
  exact absurd ha (by decide)

end JaySip
