/-
  Offer and answer between two clients: what each side makes of the other's description.
-/
import Mathlib.Tactic.IntervalCases
import JaySip.Java.Number
import JaySip.Proof.Cancels
import JaySip.Proof.Finals

namespace JaySip

open Java

variable {env : Env} {a b w w' : World} {p : LocalSipProfile}

/-! ## Codes -/

/-- The codes of the local audio formats. -/
def LocalSipProfile.codes (p : LocalSipProfile) : List ℤ := p.audioFormats.map (·.format)

/-- The codes that the caller `p` has in common with `q`, in the caller's order. -/
def LocalSipProfile.common (p q : LocalSipProfile) : List ℤ := p.codes.filter (· ∈ q.codes)

/-- The codes lie in the static table. -/
def LocalSipProfile.InTable (p : LocalSipProfile) : Prop := ∀ n ∈ p.codes, 0 ≤ n ∧ n ≤ 34

/-- The format of a code, with the name and the rate of the static table. -/
def tableFormat (n : ℤ) : SipAudioFormat :=
  ⟨n, avpTypeNames.getD n.toNat [], avpClockRates.getD n.toNat 0⟩

/-- A Java `int`. -/
def IsInt (n : ℤ) : Prop := -2147483648 ≤ n ∧ n ≤ 2147483647

theorem arrayGet_table {n : ℤ} (h : 0 ≤ n ∧ n ≤ 34) :
    arrayGet avpTypeNames n = .ok (tableFormat n).formatName ∧
      arrayGet avpClockRates n = .ok (tableFormat n).sampleRate := by
  obtain ⟨h₀, h₁⟩ := h
  interval_cases n <;> exact ⟨rfl, rfl⟩

theorem parseInt_code {n : ℤ} (h : 0 ≤ n ∧ n ≤ 34) : parseInt (intText n) = .ok n :=
  parseInt_intText (by omega) (by omega)

/-- The texts of codes in the table become the formats of the table. -/
theorem getSipAudioFormatsList_texts {ns : List ℤ} (h : ∀ n ∈ ns, 0 ≤ n ∧ n ≤ 34) :
    getSipAudioFormatsList (ns.map intText) = .ok (ns.map tableFormat) := by
  induction ns with
  | nil => rfl
  | cons n ns ih =>
    have hn := h n (by simp)
    have hs := ih fun m hm => h m (by simp [hm])
    rw [getSipAudioFormatsList] at hs ⊢
    rw [List.map_cons, List.mapM_cons, hs, parseInt_code hn, ok_bind, (arrayGet_table hn).1,
      ok_bind, (arrayGet_table hn).2]
    rfl

/-- Of texts of codes those of the local codes are kept. -/
theorem filter_texts {ns : List ℤ} (h : ∀ n ∈ ns, 0 ≤ n ∧ n ≤ 34) :
    (ns.map intText).filter p.hasCodec = (ns.filter (· ∈ p.codes)).map intText := by
  rw [List.filter_map]
  refine congrArg (List.map intText) (List.filter_congr fun n hn => ?_)
  have hc := hasCodec_iff (p := p) (parseInt_code (h n hn))
  by_cases hm : n ∈ p.codes
  · simpa [hm] using hc.2 hm
  · have hf : p.hasCodec (intText n) = false := by
      rw [Bool.eq_false_iff]
      exact fun ht => hm (hc.1 ht)
    simpa [hm] using hf

theorem negotiate_texts {d : SessionDescription} {m : MediaDescription}
    {ms : List MediaDescription} {ns : List ℤ} (hd : d.mediaDescriptions = m :: ms)
    (hm : m.formats = ns.map intText) (h : ∀ n ∈ ns, 0 ≤ n ∧ n ≤ 34) :
    negotiate p d = .ok ((ns.filter (· ∈ p.codes)).map intText) := by
  refine negotiate_iff.2 ⟨m, by rw [hd]; rfl, ?_, by rw [hm, filter_texts h]⟩
  rw [hm]
  intro s hs
  obtain ⟨n, hn, rfl⟩ := List.mem_map.1 hs
  exact ⟨n, parseInt_code (h n hn)⟩

/-! ## Media sections -/

/-- The rtpmap lines of a section leave its ports alone. -/
theorem readAttribute_rtpmaps {parse : Option Str → Option SipAudioFormat} (lines : List Str)
    (m : MediaPart SipAudioFormat) :
    ((lines.map rtpmap).foldl (MediaPart.readAttribute parse) m).rtpPort = m.rtpPort ∧
      ((lines.map rtpmap).foldl (MediaPart.readAttribute parse) m).rtcpPort = m.rtcpPort := by
  induction lines generalizing m with
  | nil => exact ⟨rfl, rfl⟩
  | cons l ls ih =>
    have hc : contains (rtpmap l).name "rtpmap".toList = true := by
      change contains "rtpmap".toList "rtpmap".toList = true
      decide
    have hr : MediaPart.readAttribute parse m (rtpmap l) =
        { m with formats := m.formats ++ [parse (rtpmap l).value] } := if_pos hc
    rw [List.map_cons, List.foldl_cons, hr]
    exact ih _

/-- The attributes that end an audio section set its RTCP port. -/
theorem readSection_ports {parse : Option Str → Option SipAudioFormat} {lines : List Str}
    {item : MediaDescription} {port : ℤ} (m : MediaPart SipAudioFormat) (hi : IsInt port)
    (ha : item.attributes = lines.map rtpmap ++ [sendReceive, rtcpAttribute port]) :
    (m.readSection parse item).rtpPort = item.port ∧
      (m.readSection parse item).rtcpPort = port := by
  have hs : ∀ m : MediaPart SipAudioFormat, m.readAttribute parse sendReceive = m := fun _ => rfl
  have hr : ∀ m : MediaPart SipAudioFormat,
      m.readAttribute parse (rtcpAttribute port) = { m with rtcpPort := port } := by
    intro m
    have hv : (nonNull (rtcpAttribute port).value >>= parseInt) = .ok port := by
      rw [rtcpAttribute, nonNull_some, ok_bind, parseInt_intText hi.1 hi.2]
    have h₁ : ¬ contains "rtcp".toList "rtpmap".toList = true := by decide
    have h₂ : contains "rtcp".toList "rtcp".toList = true := by decide
    unfold MediaPart.readAttribute
    rw [hv]
    exact (if_neg h₁).trans (if_pos h₂)
  obtain ⟨h₁, -⟩ := @readAttribute_rtpmaps parse lines { m with rtpPort := item.port }
  rw [MediaPart.readSection, ha, List.foldl_append, List.foldl_cons, hs, List.foldl_cons, hr]
  exact ⟨h₁, rfl⟩

/-- One turn of the loop over the media sections. -/
def readItem (m : MediaPart SipAudioFormat × MediaPart SipVideoFormat) (item : MediaDescription) :
    MediaPart SipAudioFormat × MediaPart SipVideoFormat :=
  if contains item.mediaType "audio".toList then
    (m.1.readSection SipAudioFormat.parseAudioFormat item, m.2)
  else if contains item.mediaType "video".toList then
    (m.1, m.2.readSection SipVideoFormat.parseVideoFormat item)
  else m

theorem readMedia_eq (items : List MediaDescription) :
    readMedia items = items.foldl readItem (⟨[], 0, 0⟩, ⟨[], 0, 0⟩) := rfl

/-- The video section leaves what was read of the audio section alone. -/
theorem readItem_video (m : MediaPart SipAudioFormat × MediaPart SipVideoFormat) :
    ((videoSection p).foldl readItem m).1 = m.1 := by
  have hv : contains "video".toList "audio".toList = false := by decide
  have hw : contains "video".toList "video".toList = true := by decide
  unfold videoSection
  split_ifs with hl
  · simp only [List.foldl_cons, List.foldl_nil, readItem, hv, hw, Bool.false_eq_true, if_false,
      if_true]
  · rfl

/-- A reader finds the ports of the audio section. -/
theorem readMedia_sections {lines cs : List Str} (hp : 0 < p.audioFormats.length)
    (hi : IsInt p.localAudioRtcpPort) :
    (readMedia (audioSection p cs (lines.map rtpmap) ++ videoSection p)).1.rtpPort =
        p.localAudioRtpPort ∧
      (readMedia (audioSection p cs (lines.map rtpmap) ++ videoSection p)).1.rtcpPort =
        p.localAudioRtcpPort := by
  have ha : contains "audio".toList "audio".toList = true := by decide
  rw [readMedia_eq, List.foldl_append, readItem_video, audioSection, if_pos hp, List.foldl_cons,
    List.foldl_nil, readItem, if_pos ha]
  exact readSection_ports _ hi rfl

/-! ## Descriptions -/

/-- A description that the client makes: its address, and an audio section with the codes. -/
structure Describing (h : SipMessageHandler) (codes : List ℤ) (d : SessionDescription) : Prop where
  connection : d.connection = some { address := h.localIPAddress }
  sections : ∃ lines : List Str, d.mediaDescriptions = audioSection h.localSipProfile (codes.map intText)
    (lines.map rtpmap) ++ videoSection h.localSipProfile

theorem describing_of_describe {h : SipMessageHandler} {sessionId sessionVersion : ℤ}
    {sessionName : Str} {codes : List ℤ} {fs : List SipAudioFormat} {d : SessionDescription}
    (hd : describe h sessionId sessionVersion sessionName (codes.map intText)
      (fs.map (rtpmap ·.getSdpField)) = .ok d) : Describing h codes d := by
  have hs := describe_sections hd
  refine ⟨?_, fs.map (·.getSdpField), ?_⟩
  · rw [describe] at hd
    split_ifs at hd
    cases hd
    rfl
  · rw [hs, List.map_map]
    rfl

/-- The offer of the INVITEs that a client sends. -/
def SipMessageHandler.offer (h : SipMessageHandler) : Except JException SessionDescription :=
  describe h 0 0 "call".toList (h.localSipProfile.audioFormats.map (intText ·.format))
    (h.localSipProfile.audioFormats.map (rtpmap ·.getSdpField))

theorem wp_createOffer_offer : wp (createOffer env)
    (fun d w' => w' = w ∧ w.handler.offer = .ok d) (fun _ w' => w' = w) w := by
  simp only [createOffer, wp_bind, wp_call, wp_get, wp_lift]
  exact ⟨fun _ => ⟨fun d hd => ⟨trivial, hd⟩, fun _ _ => trivial⟩, fun _ _ => trivial⟩

theorem sendInvite_offers {contact : SipContact} {state : SipRequestState} :
    Always (SipMessageHandler.sendInvite env contact state)
      (fun w' => ∀ t, Output.request t ∈ w'.out → Output.request t ∈ w.out ∨
        ∃ d, t.request.content = some d ∧ w.handler.offer = .ok d) w := by
  have old : ∀ t, Output.request t ∈ (w.renewed state).out → Output.request t ∈ w.out ∨
      ∃ d, t.request.content = some d ∧ w.handler.offer = .ok d :=
    fun t ht => Or.inl (by simpa using ht)
  have ho : (w.renewed state).handler.offer = w.handler.offer := by
    rw [renewed_handler]
    rfl
  simp only [SipMessageHandler.sendInvite, wp_bind, wp_call, wp_renewCallID, wp_get, wp_lift]
  refine ⟨fun _ => ⟨fun c _ => ⟨fun _ => ⟨fun a _ => ?_, fun _ _ => old⟩, fun _ _ => old⟩,
    fun _ _ => old⟩, fun _ _ t ht => Or.inl ht⟩
  refine wp_mono wp_createOffer_offer ?_ ?_
  · rintro d _ ⟨rfl, hd⟩
    simp only [wp_getNewClientTransaction, wp_bind, wp_modify, wp_sendRequest]
    refine ⟨fun _ => ⟨fun _ t ht => ?_, fun _ _ => old⟩, fun _ _ => old⟩
    have ht' : Output.request t ∈ w.out ∨ t.request.content = some d := by
      simp only [World.setDialog_out, World.emit_out, World.setClientTransaction_out,
        World.tick_out, renewed_out, List.mem_append, List.mem_singleton] at ht
      rcases ht with ht | ht
      · exact Or.inl ht
      · exact Or.inr (by rw [Output.request.inj ht]; rfl)
    exact ht'.imp_right fun hc => ⟨d, hc, ho ▸ hd⟩
  · rintro _ _ rfl
    exact old

/-- The INVITE that a client sends carries its offer. -/
theorem offer_of_sendInvite {contact : SipContact} {t : ClientTransaction}
    (ht : Output.request t ∈ (step w ⟨env, .sendInvite contact⟩).out) :
    ∃ d, t.request.content = some d ∧ w.handler.offer = .ok d := by
  have hw : Always (sendInvite env contact) (fun w' => ∀ t, Output.request t ∈ w'.out →
      ∃ d, t.request.content = some d ∧ w.handler.offer = .ok d) w.quiet := by
    rw [Always, sendInvite, wp_bind, wp_modify, wp_bind, wp_modify, wp_bind, wp_setStatusChanged]
    refine wp_mono sendInvite_offers ?_ ?_
    · intro _ w' h t ht
      exact (h t ht).resolve_left (by simp)
    · intro _ w' h t ht
      exact (h t ht).resolve_left (by simp)
  exact wp_after.1 hw t ht

theorem readOffer_offered {r : Request} {h : SipMessageHandler} {d : SessionDescription}
    (hb : r.rawContent = some (.sdp d)) (hd : h.offer = .ok d) :
    readOffer r = .ok ⟨d, 0, 0, "call".toList⟩ := by
  rw [SipMessageHandler.offer, describe] at hd
  split_ifs at hd
  cases hd
  simp only [readOffer, descriptionOf, hb]
  rfl

theorem describing_offer {h : SipMessageHandler} {d : SessionDescription} (hd : h.offer = .ok d) :
    Describing h h.localSipProfile.codes d := by
  have hc : describe h 0 0 "call".toList (h.localSipProfile.codes.map intText)
      (h.localSipProfile.audioFormats.map (rtpmap ·.getSdpField)) = .ok d := by
    rw [LocalSipProfile.codes, List.map_map]
    exact hd
  exact describing_of_describe hc

/-- An audio section of a description with codes is its first one. -/
theorem Describing.head {h : SipMessageHandler} {codes : List ℤ} {d : SessionDescription}
    (hd : Describing h codes d) (hp : 0 < h.localSipProfile.audioFormats.length) :
    ∃ m ms, d.mediaDescriptions = m :: ms ∧ m.formats = codes.map intText := by
  obtain ⟨lines, hs⟩ := hd.sections
  rw [audioSection, if_pos hp] at hs
  exact ⟨_, _, hs, rfl⟩

/-! ## Sessions -/

/-- The Contact header of the message can be read, and the address of its description
    resolved. -/
structure Readable (getByName : Str → Option Str) (m : Message) (d : SessionDescription) :
    Prop where
  contact : ∃ address port, contactAddress m.contactURI = .ok address ∧
    contactPort address = .ok port
  host : ∃ c x, d.connection = some c ∧ getByName c.address = some x

/-- The session that is made of a description has the ports of its maker. -/
theorem session_of_readable {getByName : Str → Option Str} {m : Message} (source : Source)
    {d : SessionDescription} {h : SipMessageHandler} {codes : List ℤ} (hd : Describing h codes d)
    (hp : 0 < h.localSipProfile.audioFormats.length)
    (hi : IsInt h.localSipProfile.localAudioRtcpPort) (hr : Readable getByName m d) :
    ∃ s, createSipSession getByName m source d = .ok s ∧ s.toSipURI = m.toURI ∧
      s.remoteAudioRtpPort = h.localSipProfile.localAudioRtpPort ∧
      s.remoteAudioRtcpPort = h.localSipProfile.localAudioRtcpPort := by
  obtain ⟨address, port, ha, hport⟩ := hr.contact
  obtain ⟨c, x, hc, hx⟩ := hr.host
  obtain ⟨lines, hs⟩ := hd.sections
  have hm := @readMedia_sections h.localSipProfile lines (codes.map intText) hp hi
  rw [← hs] at hm
  simp only [createSipSession, ha, hport, hc, hx, nonNull_some, ok_bind]
  exact ⟨_, rfl, rfl, hm.1, hm.2⟩

/-! ## The answer -/

theorem common_inTable {p q : LocalSipProfile} (h : p.InTable) :
    ∀ n ∈ p.common q, 0 ≤ n ∧ n ≤ 34 := fun n hn => h n (List.mem_filter.1 hn).1

theorem codes_pos {n : ℤ} (h : n ∈ p.codes) : 0 < p.audioFormats.length := by
  rw [LocalSipProfile.codes, List.mem_map] at h
  obtain ⟨f, hf, -⟩ := h
  exact List.length_pos_of_mem hf

/-- The answer to an offer keeps the common codes, in the order of the offer. -/
theorem answer_common {hA hB : SipMessageHandler} {r : Request} {offer : SessionDescription}
    (hb : r.rawContent = some (.sdp offer)) (ho : hA.offer = .ok offer)
    (ht : hA.localSipProfile.InTable)
    (hc : hA.localSipProfile.common hB.localSipProfile ≠ []) :
    ∃ d, hB.answer r = .ok (some ((hA.localSipProfile.common hB.localSipProfile).map tableFormat,
      d)) ∧ Describing hB (hA.localSipProfile.common hB.localSipProfile) d := by
  have hin := common_inTable (q := hB.localSipProfile) ht
  obtain ⟨n, hn⟩ := List.exists_mem_of_ne_nil _ hc
  obtain ⟨m, ms, hm, hf⟩ :=
    (describing_offer ho).head (codes_pos (List.mem_filter.1 hn).1)
  have hneg : negotiate hB.localSipProfile offer =
      .ok ((hA.localSipProfile.common hB.localSipProfile).map intText) := negotiate_texts hm hf ht
  have hd : ∃ d, describe hB 0 0 "call".toList
      ((hA.localSipProfile.common hB.localSipProfile).map intText)
      (((hA.localSipProfile.common hB.localSipProfile).map tableFormat).map
        (rtpmap ·.getSdpField)) = .ok d := describe_iff.2 le_rfl
  obtain ⟨d, hd⟩ := hd
  refine ⟨d, ?_, describing_of_describe hd⟩
  rw [SipMessageHandler.answer, readOffer_offered hb ho, ok_bind, hneg, ok_bind,
    if_neg (by simpa using hc), getSipAudioFormatsList_texts hin, ok_bind,
    SipMessageHandler.answerWith, hd]
  rfl

/-- The caller keeps all codes of the answer. -/
theorem formats_common {hB : SipMessageHandler} {pA : LocalSipProfile} {r : Response}
    {answer : SessionDescription} (hb : r.rawContent = some (.sdp answer)) (ht : pA.InTable)
    (hd : Describing hB (pA.common hB.localSipProfile) answer)
    (hc : pA.common hB.localSipProfile ≠ []) :
    r.formats pA = .ok ((pA.common hB.localSipProfile).map tableFormat) := by
  have hin := common_inTable (q := hB.localSipProfile) ht
  obtain ⟨n, hn⟩ := List.exists_mem_of_ne_nil _ hc
  have hp : 0 < hB.localSipProfile.audioFormats.length :=
    codes_pos (by simpa using (List.mem_filter.1 hn).2)
  obtain ⟨m, ms, hm, hf⟩ := hd.head hp
  have hself : (pA.common hB.localSipProfile).filter (· ∈ pA.codes) =
      pA.common hB.localSipProfile := by
    rw [List.filter_eq_self]
    intro n hn
    simpa using (List.mem_filter.1 hn).1
  have hneg : negotiate pA answer = .ok ((pA.common hB.localSipProfile).map intText) := by
    rw [negotiate_texts hm hf hin, hself]
  have hbody : descriptionOf r.rawContent = .ok answer := by
    rw [hb]
    rfl
  rw [Response.formats, hbody, ok_bind, hneg, ok_bind, getSipAudioFormatsList_texts hin]

/-! ## The two sides -/

/-- The INVITE rings, or its 180 fails: the session is made and the request held. -/
theorem Invited.of_opens {r : Request} {fs : List SipAudioFormat} {sdp : SessionDescription}
    {s : SipSession} (ho : Opens env w r fs sdp s)
    (hu : s.calledUser = .ok w.handler.localSipProfile.userName) (hi : Invited env w r w') :
    w'.service.currentSession = some { s with incoming := true, audioFormats := fs.map some } ∧
      w'.service.currentRequest = some r := by
  have same : ∀ {fs' sdp' s'}, Opens env w r fs' sdp' s' → fs' = fs ∧ s' = s := by
    intro fs' sdp' s' ho'
    refine ⟨?_, Except.ok.inj (ho'.session.symm.trans ho.session)⟩
    have ha := ho'.answer.symm.trans ho.answer
    simp only [Except.ok.injEq, Option.some.injEq, Prod.mk.injEq] at ha
    exact ha.1
  have other : ∀ {fs' sdp' s' user}, Opens env w r fs' sdp' s' → s'.calledUser = .ok user →
      ¬ user ≠ w.handler.localSipProfile.userName := by
    intro fs' sdp' s' user ho' hu' hn
    rw [(same ho').2] at hu'
    exact hn (Except.ok.inj (hu'.symm.trans hu))
  cases hi with
  | busy hs => exact absurd ho.free hs
  | busyFailed _ hs => exact absurd ho.free hs
  | unread _ _ ha =>
    obtain ⟨e, he⟩ := ha ho.describes
    exact absurd (he.symm.trans ho.answer) (by simp)
  | declined _ _ _ ha => exact absurd (ha.symm.trans ho.answer) (by simp)
  | declineFailed _ _ _ ha => exact absurd (ha.symm.trans ho.answer) (by simp)
  | noSession _ _ _ _ _ _ he => exact absurd (he.symm.trans ho.session) (by simp)
  | noUser _ _ _ _ ho' he =>
    rw [(same ho').2] at he
    exact absurd (he.symm.trans hu) (by simp)
  | notFound _ _ _ _ ho' hu' hn => exact absurd hn (other ho' hu')
  | notFoundFailed _ _ _ _ _ ho' hu' hn => exact absurd hn (other ho' hu')
  | rang _ _ _ _ ho' =>
    obtain ⟨rfl, rfl⟩ := same ho'
    exact ⟨by simp, by simp⟩
  | rangError _ _ _ _ ho' =>
    obtain ⟨rfl, rfl⟩ := same ho'
    exact ⟨by simp, by simp⟩
  | ringFailed _ _ _ _ ho' _ _ hw =>
    obtain ⟨rfl, rfl⟩ := same ho'
    rcases hw with rfl | rfl <;> exact ⟨by simp, by simp⟩

/-- The answer gives the caller its session, whether or not the ACK goes out. -/
theorem Answered.of_joins {ev : ResponseEvent} {d : Dialog} {fs : List SipAudioFormat}
    {s : SipSession} (hj : Joins env w ev d fs s) (ha : Answered env w ev w') :
    w'.service.currentSession =
      some { s with audioFormats := fs.map some, incoming := false } := by
  have same : ∀ {d' fs' s'}, Joins env w ev d' fs' s' → fs' = fs ∧ s' = s := fun hj' =>
    ⟨Except.ok.inj (hj'.formats.symm.trans hj.formats),
      Except.ok.inj (hj'.session.symm.trans hj.session)⟩
  cases ha with
  | established _ _ _ hj' =>
    obtain ⟨rfl, rfl⟩ := same hj'
    rfl
  | unacked _ _ _ hj' =>
    obtain ⟨rfl, rfl⟩ := same hj'
    rfl
  | unmatched _ _ _ _ he => exact absurd (he.symm.trans hj.formats) (by simp)
  | unread _ _ he => exact absurd (he.symm.trans hj.session) (by simp)
  | registered hs => rcases hj.answering.1 with h | h <;> simp [hs] at h
  | unregistered hs => rcases hj.answering.1 with h | h <;> simp [hs] at h
  | ignored hn => exact absurd hj.answering hn

/-! ## Agreement -/

theorem SameLocal.run (w : World) (is : List Input) :
    SameLocal w.handler (client.run w is).handler := by
  induction is generalizing w with
  | nil => exact refl _
  | cons i is ih => exact (step w i).trans (ih _)

theorem SameLocal.codes {h h' : SipMessageHandler} (hl : SameLocal h h') :
    h'.localSipProfile.codes = h.localSipProfile.codes := by
  obtain ⟨nonce, realm, hp⟩ := hl.profile
  rw [hp]
  rfl

/-- The user stays in the call that the client answers. -/
theorem acceptCall_session :
    (step w ⟨env, .acceptCall⟩).service.currentSession = w.service.currentSession := by
  have hst := stepped w ⟨env, .acceptCall⟩
  generalize step w ⟨env, .acceptCall⟩ = w' at hst
  cases hst with
  | acceptCall _ _ ha => cases ha <;> simp

/-- The To URI of the message names the user. -/
def Message.Addresses (m : Message) (user : Str) : Prop :=
  substring m.toURI (indexOf m.toURI ':' + 1) (indexOf m.toURI '@') = .ok user

/-- The sessions of the caller `p` and of the called `q` have the common formats, and each has
    the ports of the other side. -/
structure Agree (p q : LocalSipProfile) (sA sB : SipSession) : Prop where
  caller : sA.audioFormats = ((p.common q).map tableFormat).map some
  called : sB.audioFormats = ((p.common q).map tableFormat).map some
  callerPorts : sA.remoteAudioRtpPort = q.localAudioRtpPort ∧
    sA.remoteAudioRtcpPort = q.localAudioRtcpPort
  calledPorts : sB.remoteAudioRtpPort = p.localAudioRtpPort ∧
    sB.remoteAudioRtcpPort = p.localAudioRtcpPort

/-- The called side holds the INVITE with the offer, and its session is the caller's. -/
theorem invite_opens {hA : SipMessageHandler} {ev : RequestEvent} {offer : SessionDescription}
    (ht : hA.localSipProfile.InTable) (hi : IsInt hA.localSipProfile.localAudioRtcpPort)
    (hc : hA.localSipProfile.common b.handler.localSipProfile ≠ []) (ho : hA.offer = .ok offer)
    (hfree : b.service.currentSession = none) (henv : env.fails .createDescription = none)
    (hm : ev.message.method = .invite) (hb : ev.message.rawContent = some (.sdp offer))
    (hu : ev.message.Addresses b.handler.localSipProfile.userName)
    (hr : Readable env.getByName ev.message offer) :
    ∃ s, (step b ⟨env, .request ev⟩).service.currentSession = some s ∧
      s.audioFormats =
        ((hA.localSipProfile.common b.handler.localSipProfile).map tableFormat).map some ∧
      s.remoteAudioRtpPort = hA.localSipProfile.localAudioRtpPort ∧
      s.remoteAudioRtcpPort = hA.localSipProfile.localAudioRtcpPort := by
  have hbody : (b.received ev).rawContent = some (.sdp offer) := hb
  obtain ⟨n, hn⟩ := List.exists_mem_of_ne_nil _ hc
  obtain ⟨sdp, hans, -⟩ := answer_common hbody ho ht hc
  obtain ⟨s, hs, hto, hp, hq⟩ := session_of_readable (.request b.fresh) (describing_offer ho)
    (codes_pos (List.mem_filter.1 hn).1) hi hr
  have hses : (b.received ev).session env.getByName = .ok s := by
    rw [Request.session, hbody]
    exact hs
  have hcalled : s.calledUser = .ok b.handler.localSipProfile.userName := by
    rw [SipSession.calledUser, hto]
    exact hu
  have hopens : Opens env b.quiet.tick (b.received ev)
      ((hA.localSipProfile.common b.handler.localSipProfile).map tableFormat) sdp s :=
    opens_quiet.2 ⟨hfree, henv, hans, hses⟩
  obtain ⟨hcur, -⟩ := Invited.of_opens hopens hcalled (step_invited hm)
  exact ⟨_, hcur, rfl, hp, hq⟩

/-- The 200 carries the description that the handler answers with. -/
theorem acceptCall_answers {r : Request} {fs : List SipAudioFormat} {sdp : SessionDescription}
    {t : ServerTransaction} {ok : Reply} (hheld : w.service.currentRequest = some r)
    (hans : w.handler.answer r = .ok (some (fs, sdp)))
    (hacc : Output.response t ok ∈ (step w ⟨env, .acceptCall⟩).out) :
    ok.status = 200 ∧ ok.content = some sdp := by
  have hwp := @wp_acceptCall env w.quiet _ _ _ hheld hans
  refine (wp_after (P := fun w' => Output.response t ok ∈ w'.out →
    ok.status = 200 ∧ ok.content = some sdp)).1 (wp_mono hwp ?_ ?_) hacc
  · rintro - w' ⟨-, hout⟩ hmem
    simp only [hout, World.quiet_out, List.nil_append, List.mem_singleton] at hmem
    cases hmem
    exact ⟨rfl, rfl⟩
  · rintro - w' ⟨-, hout⟩ hmem
    simp [hout] at hmem

/-- The caller takes the 200 with the answer, and its session is that of the called side. -/
theorem answer_joins {hB : SipMessageHandler} {ev : ResponseEvent} {answer : SessionDescription}
    (ht : a.handler.localSipProfile.InTable) (hi : IsInt hB.localSipProfile.localAudioRtcpPort)
    (hc : a.handler.localSipProfile.common hB.localSipProfile ≠ [])
    (hdesc : Describing hB (a.handler.localSipProfile.common hB.localSipProfile) answer)
    (hw : Waiting a) (hs : ev.response.status = 200) (hd : ev.dialogTag ≠ none)
    (hb : ev.response.rawContent = some (.sdp answer))
    (hr : Readable env.getByName ev.response.toMessage answer) :
    ∃ s, (step a ⟨env, .response ev⟩).service.currentSession = some s ∧
      s.audioFormats =
        ((a.handler.localSipProfile.common hB.localSipProfile).map tableFormat).map some ∧
      s.remoteAudioRtpPort = hB.localSipProfile.localAudioRtpPort ∧
      s.remoteAudioRtcpPort = hB.localSipProfile.localAudioRtcpPort := by
  obtain ⟨n, hn⟩ := List.exists_mem_of_ne_nil _ hc
  have hpos : 0 < hB.localSipProfile.audioFormats.length :=
    codes_pos (by simpa using (List.mem_filter.1 hn).2)
  obtain ⟨s, hses, -, hp, hq⟩ := session_of_readable (.response ev.response.callId) hdesc hpos hi hr
  obtain ⟨tag, htag⟩ := Option.ne_none_iff_exists'.1 hd
  have hdialog : ev.getDialog = some ⟨ev.response.callId, tag⟩ := by
    rw [ResponseEvent.getDialog, htag]
    rfl
  have hjoin : Joins env a.quiet ev ⟨ev.response.callId, tag⟩
      ((a.handler.localSipProfile.common hB.localSipProfile).map tableFormat) s := by
    refine ⟨⟨hw, by simp [hb], by simp [hdialog]⟩, ?_, formats_common hb ht hdesc hc, hdialog⟩
    rw [Response.session, hb]
    exact hses
  have hresp : Responds env a.quiet ev (step a ⟨env, .response ev⟩) := step_responds
  refine ⟨{ s with
    audioFormats := ((a.handler.localSipProfile.common hB.localSipProfile).map tableFormat).map some
    incoming := false }, ?_, rfl, hp, hq⟩
  generalize step a ⟨env, .response ev⟩ = a' at hresp
  cases hresp with
  | ok _ _ hans => exact hans.of_joins hjoin
  | ringing _ h => simp [hs] at h
  | unauthorized _ h => simp [hs] at h
  | proxied _ h => simp [hs] at h
  | failure _ h => simp [hs, failureState] at h
  | other h => simp [hs] at h

/-- **Offer and answer agree.**  The caller sends its offer, the called side takes the INVITE
    that carries it and answers, and the caller takes the 200 with the answer: both sessions
    have the caller's codes that the called side has, in the caller's order and with the names
    and rates of the table, and each side sends its audio to the ports of the other.  Before
    the 200 comes the caller may do anything that leaves it waiting, and before it answers the
    called side anything that leaves it the call. -/
theorem offer_answer_agree {a b : World} {envA envA' envB envB' : Env} {contact : SipContact}
    {invite : ClientTransaction} {ok : Reply} {t : ServerTransaction} {is js : List Input}
    {evB : RequestEvent} {evA : ResponseEvent} {offer answer : SessionDescription}
    -- the two profiles
    (ht : a.handler.localSipProfile.InTable)
    (hc : a.handler.localSipProfile.common b.handler.localSipProfile ≠ [])
    (hiA : IsInt a.handler.localSipProfile.localAudioRtcpPort)
    (hiB : IsInt b.handler.localSipProfile.localAudioRtcpPort)
    -- the caller sends its INVITE, and the called side gets it while it has no session
    (hsent : Output.request invite ∈ (step a ⟨envA, .sendInvite contact⟩).out)
    (hoffer : invite.request.content = some offer)
    (hfree : b.service.currentSession = none) (henv : envB.fails .createDescription = none)
    (hm : evB.message.method = .invite) (hbB : evB.message.rawContent = some (.sdp offer))
    (hu : evB.message.Addresses b.handler.localSipProfile.userName)
    (hrB : Readable envB.getByName evB.message offer)
    -- the called side still has the call when it answers
    (hheld : (client.run (step b ⟨envB, .request evB⟩) js).service.currentRequest =
      some (b.received evB))
    (hkept : (client.run (step b ⟨envB, .request evB⟩) js).service.currentSession =
      (step b ⟨envB, .request evB⟩).service.currentSession)
    (hacc : Output.response t ok ∈
      (step (client.run (step b ⟨envB, .request evB⟩) js) ⟨envB', .acceptCall⟩).out)
    (hanswer : ok.content = some answer)
    -- the caller still waits when it gets the 200
    (hw : Waiting (client.run (step a ⟨envA, .sendInvite contact⟩) is))
    (hs : evA.response.status = ok.status) (hd : evA.dialogTag ≠ none)
    (hbA : evA.response.rawContent = some (.sdp answer))
    (hrA : Readable envA'.getByName evA.response.toMessage answer) :
    ok.status = 200 ∧ ∃ sA sB,
      (step (client.run (step a ⟨envA, .sendInvite contact⟩) is)
        ⟨envA', .response evA⟩).service.currentSession = some sA ∧
      (step (client.run (step b ⟨envB, .request evB⟩) js)
        ⟨envB', .acceptCall⟩).service.currentSession = some sB ∧
      Agree a.handler.localSipProfile b.handler.localSipProfile sA sB := by
  -- the offer and the session it opens
  obtain ⟨d, hcontent, ho⟩ := offer_of_sendInvite hsent
  obtain rfl : d = offer := Option.some.inj (hcontent.symm.trans hoffer)
  obtain ⟨sB, hsB, hfB, hpB, hqB⟩ := invite_opens ht hiA hc ho hfree henv hm hbB hu hrB
  -- the answer
  have hlB : SameLocal b.handler (client.run (step b ⟨envB, .request evB⟩) js).handler :=
    (SameLocal.step b _).trans (SameLocal.run _ js)
  have hlA : SameLocal a.handler (client.run (step a ⟨envA, .sendInvite contact⟩) is).handler :=
    (SameLocal.step a _).trans (SameLocal.run _ is)
  rw [← hkept] at hsB
  generalize client.run (step b ⟨envB, .request evB⟩) js = b₁ at *
  generalize client.run (step a ⟨envA, .sendInvite contact⟩) is = a₁ at *
  obtain ⟨sdp, hans, hdesc⟩ := answer_common (r := b.received evB) hbB ho ht hc
  obtain ⟨h200, hcont⟩ := acceptCall_answers hheld ((hlB.answer _).trans hans) hacc
  obtain rfl : sdp = answer := Option.some.inj (hcont.symm.trans hanswer)
  -- the session of the caller
  have hcodes : a₁.handler.localSipProfile.common b.handler.localSipProfile =
      a.handler.localSipProfile.common b.handler.localSipProfile := by
    rw [LocalSipProfile.common, hlA.codes]
    rfl
  have htA : a₁.handler.localSipProfile.InTable := fun n hn => ht n (hlA.codes ▸ hn)
  rw [← hcodes] at hc hdesc
  obtain ⟨sA, hsA, hfA, hpA, hqA⟩ :=
    answer_joins htA hiB hc hdesc hw (hs.trans h200) hd hbA hrA
  rw [hcodes] at hfA
  exact ⟨h200, sA, sB, hsA, acceptCall_session.trans hsB, hfA, hfB, ⟨hpA, hqA⟩, ⟨hpB, hqB⟩⟩

namespace Trace

/-- Alice's client, with a codec that Bob lacks and one that it lists twice. -/
def dialing : World :=
  World.start { alice with
    audioFormats := [⟨3, "GSM".toList, 8000⟩, ⟨8, "PCMA".toList, 8000⟩, ⟨8, "PCMA".toList, 8000⟩] }
    "10.0.0.1".toList 5060

/-- Bob's client. -/
def dialed : World :=
  World.start { alice with
    userName := "bob".toList
    displayName := "Bob".toList
    localAudioRtpPort := 9000
    localAudioRtcpPort := 9001
    audioFormats := [⟨0, "PCMU".toList, 8000⟩, ⟨8, "PCMA".toList, 8000⟩] }
    "10.0.0.2".toList 5060

/-- What a client describes with the formats. -/
def describes (w : World) (formats : List SipAudioFormat) : SessionDescription where
  origin := some { username := w.handler.localSipProfile.displayName, sessionId := some 0
                   sessionVersion := some 0, address := w.handler.localIPAddress }
  sessionName := some "call".toList
  connection := some { address := w.handler.localIPAddress }
  mediaDescriptions := audioSection w.handler.localSipProfile (formats.map (intText ·.format))
    (formats.map (rtpmap ·.getSdpField)) ++ videoSection w.handler.localSipProfile

def dialOffer : SessionDescription := describes dialing dialing.handler.localSipProfile.audioFormats

def dialAnswer : SessionDescription := describes dialed [tableFormat 8, tableFormat 8]

/-- The INVITE as it comes to Bob. -/
def dialInvite : RequestEvent :=
  ⟨message .invite 0 "bob".toList (some (.sdp dialOffer)), false, none⟩

/-- The 200 as it comes to Alice. -/
def dialOK : ResponseEvent := answer 200 .invite 0 (some (.sdp dialAnswer))

end Trace

/-- Alice calls Bob, who accepts. -/
theorem offer_answer_bob : ∃ sA sB,
    (step (step Trace.dialing (Trace.act (.sendInvite Trace.bob)))
      ⟨Trace.calm, .response Trace.dialOK⟩).service.currentSession = some sA ∧
    (step (step Trace.dialed ⟨Trace.calm, .request Trace.dialInvite⟩)
      (Trace.act .acceptCall)).service.currentSession = some sB ∧
    Agree Trace.dialing.handler.localSipProfile Trace.dialed.handler.localSipProfile sA sB := by
  have hi : ∀ n : ℤ, n ∈ [8001, 9001] → IsInt n := by
    intro n hn
    simp only [List.mem_cons, List.not_mem_nil, or_false] at hn
    constructor <;> omega
  have hr : ∀ m d, m.contactURI = some "sip:bob@10.0.0.2:5060".toList →
      (∃ c, SessionDescription.connection d = some c) → Readable Trace.calm.getByName m d := by
    intro m d hm hd
    obtain ⟨c, hc⟩ := hd
    refine ⟨⟨"10.0.0.2:5060".toList, 5060, ?_, by decide⟩, c, c.address, hc, rfl⟩
    rw [hm]
    decide
  have ht : Trace.dialing.handler.localSipProfile.InTable := by
    unfold LocalSipProfile.InTable
    decide
  have hu : Trace.dialInvite.message.Addresses Trace.dialed.handler.localSipProfile.userName := by
    unfold Message.Addresses
    decide
  have hsent : ∃ t, Output.request t ∈
      (step Trace.dialing ⟨Trace.calm, .sendInvite Trace.bob⟩).out ∧
        t.request.content = some Trace.dialOffer :=
    ⟨_, List.mem_cons_of_mem _ (List.mem_singleton.2 rfl), rfl⟩
  have hacc : ∃ t ok, Output.response t ok ∈
      (step (client.run (step Trace.dialed ⟨Trace.calm, .request Trace.dialInvite⟩) [])
        ⟨Trace.calm, .acceptCall⟩).out ∧ ok.content = some Trace.dialAnswer ∧ 200 = ok.status :=
    ⟨_, _, List.mem_singleton.2 rfl, rfl, rfl⟩
  have hw : Waiting (client.run (step Trace.dialing ⟨Trace.calm, .sendInvite Trace.bob⟩) []) :=
    Or.inr rfl
  obtain ⟨_, hsent, hoffer⟩ := hsent
  obtain ⟨_, _, hacc, hanswer, hstatus⟩ := hacc
  have hd : Trace.dialOK.dialogTag ≠ none := by decide
  exact (offer_answer_agree ht (by decide) (hi _ (by decide)) (hi _ (by decide)) hsent hoffer rfl
    rfl rfl rfl hu (hr _ _ rfl ⟨_, rfl⟩) rfl rfl hacc hanswer hw hstatus hd rfl
    (hr _ _ rfl ⟨_, rfl⟩)).2

end JaySip
