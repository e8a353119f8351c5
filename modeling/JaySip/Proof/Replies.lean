/-
  Which INVITEs get the one response that is due.
-/
import JaySip.Proof.Formats

namespace JaySip

open Java

variable {env : Env} {w : World} {ev : RequestEvent} {r : Request} {p : LocalSipProfile}
  {d : SessionDescription}

/-- The user that the To header names, if it names one. -/
def Request.called (r : Request) : Option Str :=
  (substring r.toURI (indexOf r.toURI ':' + 1) (indexOf r.toURI '@')).toOption

/-- The codecs of all m= sections. -/
def SessionDescription.offered (d : SessionDescription) : List Str :=
  d.mediaDescriptions.flatMap (·.formats)

/-- The code that is due: 486 with a session, 603 without a common codec, 180 for the local user
    and 404 for another. -/
def World.dueCode (w : World) (r : Request) (d : SessionDescription) : ℕ :=
  if w.service.currentSession ≠ none then 486
  else if ∀ s ∈ d.offered, ¬ w.handler.localSipProfile.hasCodec s then 603
  else if r.called = some w.handler.localSipProfile.userName then 180
  else 404

/-! ## What the client has to read -/

/-- The identifiers of the o= line are numbers, the session's not negative. -/
def SessionDescription.Identified (d : SessionDescription) : Prop :=
  ∃ o id version, d.origin = some o ∧ o.sessionId = some id ∧ 0 ≤ id ∧
    o.sessionVersion = some version

/-- The formats of the section are numbers, there are local ones among them, and those are in
    the static table. -/
structure MediaDescription.Shares (m : MediaDescription) (p : LocalSipProfile) : Prop where
  numbers : ∀ s ∈ m.formats, ∃ n, parseInt s = .ok n
  common : ∃ s ∈ m.formats, p.hasCodec s
  table : ∀ s ∈ m.formats, ∀ n, parseInt s = .ok n → n ∈ p.codes → 0 ≤ n ∧ n ≤ 34

/-- An answer and a session can be made of the INVITE: its description has an o= and an s= line,
    a common codec in its first m= section and an address that is known; its Contact has a host
    and a port; and its To header names a user. -/
structure Openable (env : Env) (p : LocalSipProfile) (r : Request) (d : SessionDescription) :
    Prop where
  origin : d.Identified
  name : d.sessionName ≠ none
  media : ∃ m, d.mediaDescriptions.head? = some m ∧ m.Shares p
  contact : ∃ address port, contactAddress r.contactURI = .ok address ∧
    contactPort address = .ok port
  connection : ∃ c host, d.connection = some c ∧ env.getByName c.address = some host
  called : r.called ≠ none

theorem called_iff {user : Str} : r.called = some user ↔
    substring r.toURI (indexOf r.toURI ':' + 1) (indexOf r.toURI '@') = .ok user := by
  rw [Request.called]
  cases substring r.toURI (indexOf r.toURI ':' + 1) (indexOf r.toURI '@') with
  | ok user' => simp [Except.toOption]
  | error e => simp [Except.toOption]

theorem originNumber_iff {n : Option ℤ} {k : ℤ} : Origin.number n = .ok k ↔ n = some k := by
  cases n <;> simp [Origin.number]

/-- An offer is read from the o= and the s= line. -/
theorem readOffer_iff {o : Offer} (hd : descriptionOf r.rawContent = .ok d) :
    readOffer r = .ok o ↔ o.sdpSession = d ∧ (∃ origin, d.origin = some origin ∧
      origin.sessionId = some o.sessionId ∧ origin.sessionVersion = some o.sessionVersion) ∧
      d.sessionName = some o.sessionName := by
  rw [readOffer, hd, ok_bind]
  simp only [bind_eq_ok, nonNull_eq_ok, originNumber_iff]
  constructor
  · rintro ⟨origin, ho, id, hid, version, hv, name, hn, ⟨⟩⟩
    exact ⟨rfl, ⟨origin, ho, hid, hv⟩, hn⟩
  · rintro ⟨hs, ⟨origin, ho, hid, hv⟩, hn⟩
    refine ⟨origin, ho, _, hid, _, hv, _, hn, ?_⟩
    rw [← hs]
    rfl

/-- The codecs kept of a section become formats. -/
theorem shares_iff {m : MediaDescription} (hm : d.mediaDescriptions.head? = some m) :
    (∃ codes fs, negotiate p d = .ok codes ∧ codes ≠ [] ∧
      getSipAudioFormatsList codes = .ok fs) ↔ m.Shares p := by
  have hfs : (∃ fs, p.negotiated d = .ok fs) ↔ ∃ codes fs, negotiate p d = .ok codes ∧
      getSipAudioFormatsList codes = .ok fs := by
    rw [LocalSipProfile.negotiated]
    simp only [bind_eq_ok]
    exact exists_comm
  constructor
  · rintro ⟨codes, fs, hn, hne, hl⟩
    have hall := (negotiated_returns hm).1 (hfs.2 ⟨codes, fs, hn, hl⟩)
    obtain ⟨m', hm', -, rfl⟩ := negotiate_iff.1 hn
    obtain rfl : m = m' := Option.some.inj (hm.symm.trans hm')
    obtain ⟨s, hs⟩ := List.exists_mem_of_ne_nil _ hne
    refine ⟨fun s hs => (hall s hs).imp fun _ h => h.1, ⟨s, List.mem_filter.1 hs⟩, ?_⟩
    intro s hs n hn hc
    obtain ⟨n', hn', ht⟩ := hall s hs
    obtain rfl : n = n' := Except.ok.inj (hn.symm.trans hn')
    exact ht hc
  · rintro ⟨hp, ⟨s, hs, hc⟩, ht⟩
    obtain ⟨codes, fs, hn, hl⟩ := hfs.1 ((negotiated_returns hm).2 fun s hs => by
      obtain ⟨n, hn⟩ := hp s hs
      exact ⟨n, hn, ht s hs n hn⟩)
    refine ⟨codes, fs, hn, ?_, hl⟩
    obtain ⟨m', hm', -, rfl⟩ := negotiate_iff.1 hn
    obtain rfl : m = m' := Option.some.inj (hm.symm.trans hm')
    exact List.ne_nil_of_mem (List.mem_filter.2 ⟨hs, hc⟩)

/-- When an answer is made: the o= and s= lines can be read, and the first m= section has a
    common codec. -/
theorem answer_iff {h : SipMessageHandler} (hd : descriptionOf r.rawContent = .ok d) :
    (∃ fs sdp, h.answer r = .ok (some (fs, sdp))) ↔ d.Identified ∧ d.sessionName ≠ none ∧
      ∃ m, d.mediaDescriptions.head? = some m ∧ m.Shares h.localSipProfile := by
  constructor
  · rintro ⟨fs, sdp, ha⟩
    obtain ⟨o, codes, ho, hn, hne, hl, hw⟩ := answer_eq_some.1 ha
    obtain ⟨rfl, ⟨origin, hor, hid, hv⟩, hname⟩ := (readOffer_iff hd).1 ho
    obtain ⟨m, hm, -⟩ := negotiate_iff.1 hn
    exact ⟨⟨origin, _, _, hor, hid, describe_iff.1 ⟨sdp, hw⟩, hv⟩, by simp [hname], m, hm,
      (shares_iff hm).1 ⟨codes, fs, hn, hne, hl⟩⟩
  · rintro ⟨⟨origin, id, version, hor, hid, hpos, hv⟩, hname, m, hm, hs⟩
    obtain ⟨name, hname⟩ := Option.ne_none_iff_exists'.1 hname
    obtain ⟨codes, fs, hn, hne, hl⟩ := (shares_iff hm).2 hs
    have ho : readOffer r = .ok ⟨d, id, version, name⟩ :=
      (readOffer_iff hd).2 ⟨rfl, ⟨origin, hor, hid, hv⟩, hname⟩
    obtain ⟨sdp, hw⟩ : ∃ sdp, h.answerWith ⟨d, id, version, name⟩ codes fs = .ok sdp :=
      describe_iff.2 hpos
    exact ⟨fs, sdp, answer_eq_some.2 ⟨_, codes, ho, hn, hne, hl, hw⟩⟩

/-- When a session is made: the Contact has a host and a port, and the c= line a known host. -/
theorem session_iff (hd : descriptionOf r.rawContent = .ok d) :
    (∃ s, r.session env.getByName = .ok s) ↔
      (∃ address port, contactAddress r.contactURI = .ok address ∧
        contactPort address = .ok port) ∧
      ∃ c host, d.connection = some c ∧ env.getByName c.address = some host := by
  rw [Request.session, hd, ok_bind, createSipSession]
  obtain ⟨audio, video⟩ := readMedia d.mediaDescriptions
  dsimp only
  constructor
  · rintro ⟨s, hs⟩
    obtain ⟨address, ha, hs⟩ := bind_eq_ok.1 hs
    obtain ⟨port, hp, hs⟩ := bind_eq_ok.1 hs
    obtain ⟨c, hc, hs⟩ := bind_eq_ok.1 hs
    refine ⟨⟨address, port, ha, hp⟩, c, ?_⟩
    cases hg : env.getByName c.address with
    | none =>
      rw [hg] at hs
      cases hs
    | some host => exact ⟨host, nonNull_eq_ok.1 hc, rfl⟩
  · rintro ⟨⟨address, port, ha, hp⟩, c, host, hc, hg⟩
    rw [ha, ok_bind, hp, ok_bind, hc, nonNull_some, ok_bind, hg]
    exact ⟨_, rfl⟩

theorem calledUser_iff {s : SipSession} {user : Str} (hs : r.session env.getByName = .ok s) :
    s.calledUser = .ok user ↔ r.called = some user := by
  obtain ⟨_, -, hs⟩ := bind_eq_ok.1 hs
  obtain ⟨-, -, -, hto⟩ := createSipSession_fields hs
  rw [called_iff, SipSession.calledUser, hto]

/-! ## Every INVITE is answered -/

/-- With a common codec in the first section the code that is due is that of the user. -/
theorem dueCode_of_shares {m : MediaDescription} (hs : w.service.currentSession = none)
    (hm : d.mediaDescriptions.head? = some m) (hsh : m.Shares w.handler.localSipProfile) :
    w.dueCode r d = if r.called = some w.handler.localSipProfile.userName then 180 else 404 := by
  obtain ⟨s, hmem, hc⟩ := hsh.common
  have hoff : s ∈ d.offered :=
    List.mem_flatMap.2 ⟨m, List.mem_of_mem_head? hm, hmem⟩
  rw [World.dueCode, if_neg (by simpa using hs), if_neg fun h => h s hoff hc]

/-- **An INVITE whose description parses gets the one response that is due exactly when the stack
    takes it and, with no session, an answer and a session can be made of the INVITE.** -/
theorem repliesOnly_due_iff (h : client.Reachable w) (hm : ev.message.method = .invite)
    (hd : descriptionOf ev.message.rawContent = .ok d) :
    RepliesOnly (step w ⟨env, .request ev⟩) (w.dueCode (w.received ev) d) (w.received ev) ↔
      w.CanReply env ∧ (w.service.currentSession = none →
        env.fails .createDescription = none ∧
          Openable env w.handler.localSipProfile (w.received ev) d) := by
  rw [step_repliesOnly_iff (bounded h) hm]
  refine and_congr_right fun _ => ?_
  have hd : descriptionOf (w.received ev).rawContent = .ok d := hd
  by_cases hs : w.service.currentSession = none
  · constructor
    · intro hg _
      obtain ⟨fs, sdp, s, ho, user, hu⟩ := hg.opens hs
      obtain ⟨horigin, hname, hmedia⟩ := (answer_iff hd).1 ⟨fs, sdp, ho.answer⟩
      obtain ⟨hcontact, hconn⟩ := (session_iff hd).1 ⟨s, ho.session⟩
      refine ⟨ho.describes, horigin, hname, hmedia, hcontact, hconn, ?_⟩
      simp [(calledUser_iff ho.session).1 hu]
    · intro hg
      obtain ⟨hdesc, ha⟩ := hg hs
      obtain ⟨fs, sdp, hans⟩ := (answer_iff hd).2 ⟨ha.origin, ha.name, ha.media⟩
      obtain ⟨s, hses⟩ := (session_iff hd).2 ⟨ha.contact, ha.connection⟩
      obtain ⟨user, hu⟩ := Option.ne_none_iff_exists'.1 ha.called
      obtain ⟨m, hhead, hsh⟩ := ha.media
      refine (Grants.iff_of_opens ⟨hs, hdesc, hans, hses⟩ ((calledUser_iff hses).2 hu)).2 ?_
      rw [dueCode_of_shares hs hhead hsh, hu]
      simp only [Option.some.injEq]
  · rw [World.dueCode, if_pos hs]
    exact iff_of_true (.busy hs) fun h => absurd h hs

/-- An INVITE for Alice rings. -/
theorem repliesOnly_due_rings : RepliesOnly
    (step Trace.idle (Trace.invite 5 "alice".toList "0".toList)) 180
    (Trace.idle.received (Trace.offer 5 "alice".toList "0".toList)) := by
  refine (repliesOnly_due_iff (d := Trace.description "0".toList) ⟨_, [], Trace.idle_init, rfl⟩
    rfl rfl).2 ⟨Trace.calm_succeeds.canReply, fun _ => ⟨rfl, ?_⟩⟩
  refine ⟨⟨_, 1, 1, rfl, rfl, by decide, rfl⟩, by decide, ⟨_, rfl, ?_⟩, ⟨_, _, rfl, rfl⟩,
    ⟨_, _, rfl, rfl⟩, by decide⟩
  refine ⟨?_, ⟨"0".toList, List.mem_singleton_self _, by decide⟩, ?_⟩
  · intro s hs
    rw [List.mem_singleton.1 hs]
    exact ⟨0, by decide⟩
  · intro s _ n _ hn
    obtain rfl : n = 0 := List.mem_singleton.1 hn
    decide

/-- Without a common codec the caller gets no response. -/
theorem no_codec_unanswered : ¬ ∀ w env ev d, client.Reachable w →
    ev.message.method = .invite → descriptionOf ev.message.rawContent = .ok d →
    (∃ address port, contactAddress ev.message.contactURI = .ok address ∧
      contactPort address = .ok port) →
    (w.received ev).called ≠ none → env.Succeeds →
    RepliesOnly (step w ⟨env, .request ev⟩) (w.dueCode (w.received ev) d) (w.received ev) := by
  intro h
  obtain ⟨t, ht⟩ := h Trace.idle Trace.calm (Trace.offer 5 "alice".toList "8".toList)
    (Trace.description "8".toList) ⟨_, [], Trace.idle_init, rfl⟩ rfl rfl ⟨_, _, rfl, rfl⟩
    (by decide) Trace.calm_succeeds
  have hnone : (step Trace.idle (Trace.invite 5 "alice".toList "8".toList)).responses = [] := by
    decide
  exact absurd (hnone.symm.trans ht) (by simp)

end JaySip
