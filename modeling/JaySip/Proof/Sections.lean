/-
  The media sections of a description: those that an answer has, and the one that the client
  takes for the audio section.
-/
import Mathlib.Data.List.Forall2
import JaySip.Proof.Formats

namespace JaySip

open Java

variable {env : Env} {w w' : World} {p : LocalSipProfile} {offer sdp d : SessionDescription}

/-! ## The sections of an answer -/

/-- A local format of the section's medium is among its formats. -/
def LocalSipProfile.Supports (p : LocalSipProfile) (m : MediaDescription) : Prop :=
  (m.mediaType = "audio".toList ∧ ∃ s ∈ m.formats, ∃ f ∈ p.audioFormats, parseInt s = .ok f.format) ∨
    (m.mediaType = "video".toList ∧
      ∃ s ∈ m.formats, ∃ f ∈ p.videoFormats, parseInt s = .ok f.format)

/-- The answer has the sections of the offer, and rejects those that are not supported: their
    port is 0. -/
def LocalSipProfile.Matches (p : LocalSipProfile) (offer answer : SessionDescription) : Prop :=
  List.Forall₂ (fun o a => a.mediaType = o.mediaType ∧ (¬ p.Supports o → a.port = 0))
    offer.mediaDescriptions answer.mediaDescriptions

/-- The media types of the sections that the client describes. -/
def LocalSipProfile.mediaTypes (p : LocalSipProfile) : List Str :=
  (if p.audioFormats.length > 0 then ["audio".toList] else []) ++
    if p.videoFormats.length > 0 then ["video".toList] else []

/-- What `createSDP` returns: a local codec of the first section was kept, and the sections are
    those of the profile. -/
theorem createAnswer_sections {r : Request} (hc : createAnswer env r w = .ok (some sdp) w')
    (ho : r.rawContent = some (.sdp offer)) :
    ∃ m ms codes rtpmaps, offer.mediaDescriptions = m :: ms ∧
      (∃ s ∈ m.formats, ∃ f ∈ w.handler.localSipProfile.audioFormats, parseInt s = .ok f.format) ∧
      sdp.mediaDescriptions = audioSection w.handler.localSipProfile codes rtpmaps ++
        videoSection w.handler.localSipProfile := by
  have hw := @wp_createAnswer env w r
  rw [wp, hc] at hw
  obtain ⟨-, ⟨hn, -⟩ | ⟨fs, sdp', hs, ha, -⟩⟩ := hw
  · cases hn
  obtain rfl : sdp = sdp' := Option.some.inj hs
  obtain ⟨o, codes, hread, hneg, hne, -, hwith⟩ := answer_eq_some.1 ha
  have hoffer : o.sdpSession = offer := by
    obtain ⟨d, hd, hread⟩ := bind_eq_ok.1 hread
    obtain ⟨origin, -, hread⟩ := bind_eq_ok.1 hread
    obtain ⟨sessionId, -, hread⟩ := bind_eq_ok.1 hread
    obtain ⟨sessionVersion, -, hread⟩ := bind_eq_ok.1 hread
    obtain ⟨sessionName, -, hread⟩ := bind_eq_ok.1 hread
    cases hread
    rw [ho] at hd
    cases hd
    rfl
  obtain ⟨m, hm, hp, rfl⟩ := negotiate_iff.1 hneg
  rw [hoffer] at hm
  obtain ⟨ms, hms⟩ := List.head?_eq_some_iff.1 hm
  refine ⟨m, ms, _, _, hms, ?_, describe_sections hwith⟩
  obtain ⟨s, hs⟩ := List.exists_mem_of_ne_nil _ hne
  obtain ⟨hmem, hcodec⟩ := List.mem_filter.1 hs
  obtain ⟨n, hn⟩ := hp s hmem
  obtain ⟨f, hf, hfn⟩ := List.mem_map.1 ((hasCodec_iff hn).1 hcodec)
  exact ⟨s, hmem, f, hf, hfn ▸ hn⟩

/-- Sections match the video section exactly when they are one, if the profile has video, and
    it is supported or finds a port of 0. -/
theorem forall₂_videoSection {ms : List MediaDescription} :
    List.Forall₂ (fun o a => a.mediaType = o.mediaType ∧ (¬ p.Supports o → a.port = 0)) ms
        (videoSection p) ↔
      ms.map (·.mediaType) = (if p.videoFormats.length > 0 then ["video".toList] else []) ∧
        ∀ m ∈ ms, m.mediaType = "video".toList → p.Supports m ∨ p.localVideoRtpPort = 0 := by
  unfold videoSection
  split_ifs with hv
  · constructor
    · intro h
      obtain ⟨m, ms', ⟨ht, hport⟩, hnil, rfl⟩ := List.forall₂_cons_right_iff.1 h
      obtain rfl := List.forall₂_nil_right_iff.1 hnil
      refine ⟨congrArg (fun t => [t]) ht.symm, fun m' hm' _ => ?_⟩
      rw [List.mem_singleton.1 hm']
      by_cases hs : p.Supports m
      · exact Or.inl hs
      · exact Or.inr (hport hs)
    · rintro ⟨htypes, hvideo⟩
      obtain ⟨m, ms', rfl, ht, hnil⟩ := List.map_eq_cons_iff.1 htypes
      obtain rfl := List.map_eq_nil_iff.1 hnil
      refine List.forall₂_cons.2 ⟨⟨ht.symm, fun hs => ?_⟩, .nil⟩
      exact (hvideo m List.mem_cons_self ht).resolve_left hs
  · rw [List.forall₂_nil_right_iff]
    constructor
    · rintro rfl
      exact ⟨rfl, nofun⟩
    · exact fun h => List.map_eq_nil_iff.1 h.1

/-- **The sections of an answer.**  They match those of the offer exactly when the offer has
    the media that the profile has, audio before video, and when a video section without a
    common format finds a video port of 0. -/
theorem answer_matches_iff {r : Request} (hc : createAnswer env r w = .ok (some sdp) w')
    (ho : r.rawContent = some (.sdp offer)) :
    w.handler.localSipProfile.Matches offer sdp ↔
      offer.mediaDescriptions.map (·.mediaType) = w.handler.localSipProfile.mediaTypes ∧
      ∀ m ∈ offer.mediaDescriptions, m.mediaType = "video".toList →
        w.handler.localSipProfile.Supports m ∨ w.handler.localSipProfile.localVideoRtpPort = 0 := by
  obtain ⟨m, ms, codes, rtpmaps, hms, hcommon, hsections⟩ := createAnswer_sections hc ho
  generalize w.handler.localSipProfile = p at *
  have hlen : p.audioFormats.length > 0 := by
    obtain ⟨s, -, f, hf, -⟩ := hcommon
    exact List.length_pos_of_mem hf
  have hsupports : m.mediaType = "audio".toList → p.Supports m := fun ht => Or.inl ⟨ht, hcommon⟩
  have hne : "audio".toList ≠ "video".toList := by decide
  unfold LocalSipProfile.Matches
  rw [hsections, audioSection, if_pos hlen, hms, LocalSipProfile.mediaTypes, if_pos hlen,
    List.map_cons]
  show List.Forall₂ _ (m :: ms) (_ :: videoSection p) ↔ _ :: _ = "audio".toList :: _ ∧ _
  rw [List.forall₂_cons, forall₂_videoSection, List.cons.injEq]
  constructor
  · rintro ⟨⟨hm, -⟩, htypes, hvideo⟩
    refine ⟨⟨hm.symm, htypes⟩, fun m' hm' ht => ?_⟩
    rcases List.mem_cons.1 hm' with rfl | hm'
    · exact absurd (hm.trans ht) hne
    · exact hvideo m' hm' ht
  · rintro ⟨⟨hm, htypes⟩, hvideo⟩
    exact ⟨⟨hm.symm, fun hs => absurd (hsupports hm) hs⟩, htypes,
      fun m' hm' => hvideo m' (List.mem_cons_of_mem m hm')⟩

namespace Trace

def audioSection : MediaDescription :=
  { mediaType := "audio".toList, port := 4000, formats := ["0".toList], attributes := [] }

def videoSection : MediaDescription :=
  { mediaType := "video".toList, port := 4002, formats := ["34".toList], attributes := [] }

/-- A description with the sections. -/
def sections (ms : List MediaDescription) : SessionDescription :=
  { description [] with mediaDescriptions := ms }

/-- An INVITE that offers the sections. -/
def offers (ms : List MediaDescription) : Request :=
  ⟨message .invite 0 "alice".toList (some (.sdp (sections ms))), 0⟩

end Trace

/-- An offer of audio alone is matched. -/
theorem answer_matches_audio : ∃ sdp w',
    createAnswer Trace.calm (Trace.offers [Trace.audioSection]) Trace.idle = .ok (some sdp) w' ∧
      Trace.alice.Matches (Trace.sections [Trace.audioSection]) sdp := by
  have htypes : (Trace.sections [Trace.audioSection]).mediaDescriptions.map (·.mediaType) =
      Trace.alice.mediaTypes := by
    decide
  obtain ⟨sdp, w', hc⟩ : ∃ sdp w', createAnswer Trace.calm (Trace.offers [Trace.audioSection])
      Trace.idle = .ok (some sdp) w' := ⟨_, _, rfl⟩
  refine ⟨sdp, w', hc, (answer_matches_iff hc rfl).2 ⟨htypes, ?_⟩⟩
  intro m hm hvideo
  rw [List.mem_singleton.1 hm] at hvideo
  exact absurd hvideo (by decide)

/-- The answer to an offer of audio and video lacks the video section. -/
theorem answer_lacks_section : ¬ ∀ env r w w' offer sdp,
    createAnswer env r w = .ok (some sdp) w' → r.rawContent = some (.sdp offer) →
      w.handler.localSipProfile.Matches offer sdp := by
  intro h
  have hm := h Trace.calm (Trace.offers [Trace.audioSection, Trace.videoSection]) Trace.idle _ _ _
    rfl rfl
  exact absurd hm.length_eq (by decide)

/-! ## The audio section -/

/-- `createSipSession` takes the section for audio. -/
def MediaDescription.isAudio (m : MediaDescription) : Bool :=
  contains m.mediaType "audio".toList

/-- The section whose port `createSipSession` stores: the last one that it takes for audio. -/
def SessionDescription.audioItem (d : SessionDescription) : Option MediaDescription :=
  (d.mediaDescriptions.filter (·.isAudio)).getLast?

/-- The two readers of the description agree: the formats that are negotiated are those of the
    section whose port the session has. -/
def ReadersAgree (d : SessionDescription) (s : SipSession) : Prop :=
  ∃ m, d.audioItem = some m ∧ s.remoteAudioRtpPort = m.port ∧ getSipAudioFormats d = .ok m.formats

/-- The attributes of a section leave its port. -/
theorem readSection_rtpPort {α : Type} (parse : Option Str → Option α) (m : MediaPart α)
    (item : MediaDescription) : (m.readSection parse item).rtpPort = item.port := by
  have hkeep : ∀ (as : List Attribute) (m : MediaPart α),
      (as.foldl (MediaPart.readAttribute parse) m).rtpPort = m.rtpPort := by
    intro as
    induction as with
    | nil => exact fun _ => rfl
    | cons a as ih =>
      intro m
      rw [List.foldl_cons, ih]
      unfold MediaPart.readAttribute
      split_ifs
      · rfl
      · split <;> rfl
      · rfl
  exact hkeep item.attributes { m with rtpPort := item.port }

/-- The loop over the sections stores the port of the last audio section. -/
theorem readMedia_rtpPort (items : List MediaDescription) : (readMedia items).1.rtpPort =
    (((items.filter (·.isAudio)).getLast?).map (·.port)).getD 0 := by
  induction items using List.reverseRecOn with
  | nil => rfl
  | append_singleton items item ih =>
    rw [readMedia_eq, List.foldl_append, ← readMedia_eq, List.filter_append, List.foldl_cons,
      List.foldl_nil, readItem, show contains item.mediaType "audio".toList = item.isAudio from rfl]
    by_cases ha : item.isAudio = true
    · have hf : [item].filter (·.isAudio) = [item] := by simp [ha]
      rw [if_pos ha, hf, List.getLast?_append, readSection_rtpPort]
      rfl
    · have hf : [item].filter (·.isAudio) = [] := by simp [ha]
      rw [if_neg ha, hf, List.append_nil, ← ih]
      split_ifs <;> rfl

theorem createSipSession_rtpPort {getByName : Str → Option Str} {message : Message}
    {source : Source} {s : SipSession} (h : createSipSession getByName message source d = .ok s) :
    s.remoteAudioRtpPort = (readMedia d.mediaDescriptions).1.rtpPort := by
  obtain ⟨address, -, h⟩ := bind_eq_ok.1 h
  obtain ⟨port, -, h⟩ := bind_eq_ok.1 h
  obtain ⟨connection, -, h⟩ := bind_eq_ok.1 h
  cases hx : getByName connection.address with
  | none => rw [hx] at h; cases h
  | some x =>
    rw [hx] at h
    cases h
    rfl

/-- The last audio section is the last one behind the first section, or else the first. -/
theorem audioItem_cons {m₀ : MediaDescription} {ms : List MediaDescription}
    (hd : d.mediaDescriptions = m₀ :: ms) (ha : ∃ m ∈ d.mediaDescriptions, m.isAudio = true) :
    d.audioItem = some (((ms.filter (·.isAudio)).getLast?).getD m₀) := by
  rw [SessionDescription.audioItem, hd]
  by_cases h₀ : m₀.isAudio = true
  · rw [List.filter_cons_of_pos h₀, List.getLast?_cons]
  · rw [List.filter_cons_of_neg h₀]
    cases hl : (ms.filter (·.isAudio)).getLast? with
    | some m => rfl
    | none =>
      obtain ⟨m, hm, hma⟩ := ha
      rw [hd] at hm
      rcases List.mem_cons.1 hm with rfl | hm
      · exact absurd hma h₀
      · have hmem : m ∈ ms.filter (·.isAudio) := List.mem_filter.2 ⟨hm, hma⟩
        rw [List.getLast?_eq_none_iff.1 hl] at hmem
        cases hmem

/-- **The two readers of a description.**  With an audio section they agree exactly when the
    last audio section behind the first section, if there is one, has the formats of the
    first. -/
theorem readers_agree_iff {getByName : Str → Option Str} {message : Message} {source : Source}
    {s : SipSession} (h : createSipSession getByName message source d = .ok s)
    (ha : ∃ m ∈ d.mediaDescriptions, m.isAudio = true) :
    ReadersAgree d s ↔ ∀ m₀ ms m, d.mediaDescriptions = m₀ :: ms →
      (ms.filter (·.isAudio)).getLast? = some m → m.formats = m₀.formats := by
  have hport := createSipSession_rtpPort h
  rw [readMedia_rtpPort] at hport
  obtain ⟨m₀, ms, hd⟩ : ∃ m₀ ms, d.mediaDescriptions = m₀ :: ms := by
    obtain ⟨m, hm, -⟩ := ha
    exact List.exists_cons_of_ne_nil (List.ne_nil_of_mem hm)
  have hitem := audioItem_cons hd ha
  have hformats : getSipAudioFormats d = .ok m₀.formats := by
    rw [getSipAudioFormats, hd]
    rfl
  constructor
  · rintro ⟨m, hm, -, hf⟩ m₁ ms₁ m' hd' hlast
    obtain ⟨rfl, rfl⟩ := List.cons.inj (hd.symm.trans hd')
    rw [hlast] at hitem
    obtain rfl : m = m' := Option.some.inj (hm.symm.trans hitem)
    exact (Except.ok.inj (hformats.symm.trans hf)).symm
  · intro hlast
    refine ⟨_, hitem, ?_, ?_⟩
    · rw [hport, show (d.mediaDescriptions.filter (·.isAudio)).getLast? = d.audioItem from rfl, hitem]
      rfl
    · rw [hformats]
      cases hl : (ms.filter (·.isAudio)).getLast? with
      | none => rfl
      | some m => exact congrArg _ (hlast m₀ ms m hd hl).symm

/-- The session of an INVITE whose audio section is its only one. -/
theorem readers_agree_audio : ∃ s, createSipSession some (Trace.offers [Trace.audioSection]).toMessage
    (.request 0) (Trace.sections [Trace.audioSection]) = .ok s ∧
      ReadersAgree (Trace.sections [Trace.audioSection]) s := by
  obtain ⟨s, hs⟩ : ∃ s, createSipSession some (Trace.offers [Trace.audioSection]).toMessage
      (.request 0) (Trace.sections [Trace.audioSection]) = .ok s := ⟨_, rfl⟩
  refine ⟨s, hs, (readers_agree_iff hs ⟨Trace.audioSection, by decide, by decide⟩).2 ?_⟩
  intro m₀ ms m hd hlast
  obtain ⟨-, rfl⟩ := List.cons.inj hd
  cases hlast

/-- Behind a video section the audio port is stored, and the video formats are negotiated. -/
theorem readers_disagree : ¬ ∀ getByName message source d s,
    createSipSession getByName message source d = .ok s →
      (∃ m ∈ d.mediaDescriptions, m.isAudio = true) → ReadersAgree d s := by
  intro h
  obtain ⟨m, hm, -, hf⟩ := h some (Trace.offers [Trace.videoSection, Trace.audioSection]).toMessage
    (.request 0) (Trace.sections [Trace.videoSection, Trace.audioSection]) _ rfl
    ⟨Trace.audioSection, by decide, by decide⟩
  obtain rfl : Trace.audioSection = m := Option.some.inj hm
  exact absurd hf (by decide)

end JaySip
