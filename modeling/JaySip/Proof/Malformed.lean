/-
  The formats of a session: what `createSipSession` makes of rtpmap and rtcp attributes that
  it cannot read.
-/
import JaySip.Proof.Sections

namespace JaySip

open Java

variable {getByName : Str → Option Str} {message : Message} {source : Source}
  {d : SessionDescription} {s : SipSession}

/-! ## Attributes -/

/-- `createSipSession` takes the section for video. -/
def MediaDescription.isVideo (m : MediaDescription) : Bool :=
  !m.isAudio && contains m.mediaType "video".toList

/-- `createSipSession` takes the attribute for an rtpmap. -/
def Attribute.isRtpmap (a : Attribute) : Bool :=
  contains a.name "rtpmap".toList

/-- The values of the rtpmap attributes of the sections, in order. -/
def rtpmapsOf (sections : List MediaDescription) : List (Option Str) :=
  sections.flatMap fun m => (m.attributes.filter (·.isRtpmap)).map (·.value)

/-- An rtpmap that parses, an rtcp attribute that is a number, or an attribute of another
    name. -/
def Attribute.isReadable {α : Type} (parse : Option Str → Option α) (a : Attribute) : Bool :=
  if a.isRtpmap then (parse a.value).isSome
  else if contains a.name "rtcp".toList then (nonNull a.value >>= parseInt).isOk
  else true

/-- The section without its malformed attributes. -/
def MediaDescription.readable (m : MediaDescription) : MediaDescription :=
  if m.isAudio then
    { m with attributes := m.attributes.filter (·.isReadable SipAudioFormat.parseAudioFormat) }
  else if m.isVideo then
    { m with attributes := m.attributes.filter (·.isReadable SipVideoFormat.parseVideoFormat) }
  else m

/-- The description without its malformed attributes. -/
def SessionDescription.readable (d : SessionDescription) : SessionDescription :=
  { d with mediaDescriptions := d.mediaDescriptions.map (·.readable) }

/-- The session has the formats that parse, in order, and malformed attributes have no effect
    on it. -/
structure ReadsFormats (getByName : Str → Option Str) (message : Message) (source : Source)
    (d : SessionDescription) (s : SipSession) : Prop where
  audio : s.audioFormats = ((rtpmapsOf (d.mediaDescriptions.filter (·.isAudio))).filterMap
    SipAudioFormat.parseAudioFormat).map some
  video : s.videoFormats = ((rtpmapsOf (d.mediaDescriptions.filter (·.isVideo))).filterMap
    SipVideoFormat.parseVideoFormat).map some
  others : createSipSession getByName message source d.readable = .ok s

/-- Every rtpmap attribute of the audio and the video sections parses. -/
def SessionDescription.FormatsParse (d : SessionDescription) : Prop :=
  (∀ v ∈ rtpmapsOf (d.mediaDescriptions.filter (·.isAudio)),
    (SipAudioFormat.parseAudioFormat v).isSome = true) ∧
  ∀ v ∈ rtpmapsOf (d.mediaDescriptions.filter (·.isVideo)),
    (SipVideoFormat.parseVideoFormat v).isSome = true

/-! ## The loops -/

section
variable {α : Type} {parse : Option Str → Option α}

/-- A section adds what its rtpmap attributes parse to, `null` for each that does not. -/
theorem readSection_formats (m : MediaPart α) (item : MediaDescription) :
    (m.readSection parse item).formats = m.formats ++ (rtpmapsOf [item]).map parse := by
  have hfold : ∀ (as : List Attribute) (m : MediaPart α),
      (as.foldl (MediaPart.readAttribute parse) m).formats =
        m.formats ++ ((as.filter (·.isRtpmap)).map (·.value)).map parse := by
    intro as
    induction as with
    | nil => simp
    | cons a as ih =>
      intro m
      rw [List.foldl_cons, ih, MediaPart.readAttribute,
        show contains a.name "rtpmap".toList = a.isRtpmap from rfl]
      by_cases ha : a.isRtpmap = true
      · rw [if_pos ha, List.filter_cons_of_pos ha]
        simp
      · rw [if_neg ha, List.filter_cons_of_neg ha]
        split_ifs
        · split <;> rfl
        · rfl
  rw [MediaPart.readSection, hfold, rtpmapsOf, List.flatMap_singleton]

/-- Attributes that cannot be read are skipped, if all rtpmap attributes parse. -/
theorem readSection_filter {m : MediaPart α} {item : MediaDescription}
    (hp : ∀ v ∈ rtpmapsOf [item], (parse v).isSome = true) :
    m.readSection parse { item with attributes := item.attributes.filter (·.isReadable parse) } =
      m.readSection parse item := by
  have hskip : ∀ a ∈ item.attributes, a.isReadable parse = false → ∀ m : MediaPart α,
      m.readAttribute parse a = m := by
    intro a ha hr m
    have hn : ¬ a.isRtpmap = true := by
      intro hn
      rw [Attribute.isReadable, if_pos hn, hp] at hr
      · cases hr
      · rw [rtpmapsOf, List.flatMap_singleton]
        exact List.mem_map.2 ⟨a, List.mem_filter.2 ⟨ha, hn⟩, rfl⟩
    rw [Attribute.isReadable, if_neg hn] at hr
    rw [MediaPart.readAttribute, show contains a.name "rtpmap".toList = a.isRtpmap from rfl,
      if_neg hn]
    split_ifs at hr ⊢
    · cases hv : nonNull a.value >>= parseInt with
      | ok n =>
        rw [hv] at hr
        cases hr
      | error e => rfl
  show (item.attributes.filter (·.isReadable parse)).foldl (MediaPart.readAttribute parse) _ =
    item.attributes.foldl (MediaPart.readAttribute parse) _
  generalize ({ m with rtpPort := item.port } : MediaPart α) = m
  generalize item.attributes = as at hskip
  induction as generalizing m with
  | nil => rfl
  | cons a as ih =>
    have hskip' := fun b hb => hskip b (List.mem_cons_of_mem a hb)
    by_cases ha : a.isReadable parse = true
    · rw [List.filter_cons_of_pos ha, List.foldl_cons, List.foldl_cons, ih _ hskip']
    · rw [List.filter_cons_of_neg ha, List.foldl_cons,
        hskip a List.mem_cons_self (Bool.eq_false_iff.2 ha), ih _ hskip']

end

/-! ## The session -/

section
variable {m : MediaPart SipAudioFormat × MediaPart SipVideoFormat} {item : MediaDescription}

theorem isVideo_iff : item.isVideo = true ↔
    item.isAudio = false ∧ contains item.mediaType "video".toList = true := by
  rw [MediaDescription.isVideo, Bool.and_eq_true, Bool.not_eq_true']

theorem readItem_of_isAudio (ha : item.isAudio = true) :
    readItem m item = (m.1.readSection SipAudioFormat.parseAudioFormat item, m.2) := if_pos ha

theorem readItem_of_isVideo (hv : item.isVideo = true) :
    readItem m item = (m.1, m.2.readSection SipVideoFormat.parseVideoFormat item) := by
  obtain ⟨ha, hv⟩ := isVideo_iff.1 hv
  exact (if_neg (Bool.eq_false_iff.1 ha)).trans (if_pos hv)

theorem readItem_of_not (ha : item.isAudio = false) (hv : item.isVideo = false) :
    readItem m item = m := by
  have hc : ¬ contains item.mediaType "video".toList = true := by
    intro hc
    rw [isVideo_iff.2 ⟨ha, hc⟩] at hv
    cases hv
  exact (if_neg (Bool.eq_false_iff.1 ha)).trans (if_neg hc)

/-- What the loop over the sections gathers as formats. -/
theorem readItems_formats (items : List MediaDescription) :
    (items.foldl readItem m).1.formats = m.1.formats ++
      (rtpmapsOf (items.filter (·.isAudio))).map SipAudioFormat.parseAudioFormat ∧
    (items.foldl readItem m).2.formats = m.2.formats ++
      (rtpmapsOf (items.filter (·.isVideo))).map SipVideoFormat.parseVideoFormat := by
  have hcons : ∀ (item : MediaDescription) ms,
      rtpmapsOf (item :: ms) = rtpmapsOf [item] ++ rtpmapsOf ms := by
    intro item ms
    rw [← List.singleton_append, rtpmapsOf, List.flatMap_append]
    rfl
  induction items generalizing m with
  | nil => exact ⟨(List.append_nil _).symm, (List.append_nil _).symm⟩
  | cons item items ih =>
    rw [List.foldl_cons]
    cases ha : item.isAudio with
    | true =>
      have hv : ¬ item.isVideo = true := by simp [isVideo_iff, ha]
      rw [readItem_of_isAudio ha, List.filter_cons_of_pos ha, List.filter_cons_of_neg hv, hcons,
        List.map_append, ← List.append_assoc, ← readSection_formats]
      exact ih
    | false =>
      rw [List.filter_cons_of_neg (Bool.eq_false_iff.1 ha)]
      cases hv : item.isVideo with
      | true =>
        rw [readItem_of_isVideo hv, List.filter_cons_of_pos hv, hcons, List.map_append,
          ← List.append_assoc, ← readSection_formats]
        exact ih
      | false =>
        rw [readItem_of_not ha hv, List.filter_cons_of_neg (Bool.eq_false_iff.1 hv)]
        exact ih

/-- A section is read as it is without its malformed attributes, if its rtpmaps parse. -/
theorem readItem_readable
    (ha : item.isAudio = true →
      ∀ v ∈ rtpmapsOf [item], (SipAudioFormat.parseAudioFormat v).isSome = true)
    (hv : item.isVideo = true →
      ∀ v ∈ rtpmapsOf [item], (SipVideoFormat.parseVideoFormat v).isSome = true) :
    readItem m item.readable = readItem m item := by
  rw [MediaDescription.readable]
  split_ifs with h₁ h₂
  · rw [readItem_of_isAudio h₁, readItem_of_isAudio, readSection_filter (ha h₁)]
    exact h₁
  · rw [readItem_of_isVideo h₂, readItem_of_isVideo, readSection_filter (hv h₂)]
    exact h₂
  · rfl

end

theorem mem_rtpmapsOf {sections : List MediaDescription} {v : Option Str} :
    v ∈ rtpmapsOf sections ↔ ∃ m ∈ sections, v ∈ rtpmapsOf [m] := by
  simp [rtpmapsOf]

theorem readMedia_readable (hp : d.FormatsParse) :
    readMedia d.readable.mediaDescriptions = readMedia d.mediaDescriptions := by
  obtain ⟨ha, hv⟩ := hp
  rw [readMedia_eq, readMedia_eq, SessionDescription.readable, List.foldl_map]
  refine List.foldl_ext _ _ _ fun m item hm => readItem_readable ?_ ?_
  · exact fun h v hmem => ha v (mem_rtpmapsOf.2 ⟨item, List.mem_filter.2 ⟨hm, h⟩, hmem⟩)
  · exact fun h v hmem => hv v (mem_rtpmapsOf.2 ⟨item, List.mem_filter.2 ⟨hm, h⟩, hmem⟩)

theorem createSipSession_formats (h : createSipSession getByName message source d = .ok s) :
    s.audioFormats =
      (rtpmapsOf (d.mediaDescriptions.filter (·.isAudio))).map SipAudioFormat.parseAudioFormat ∧
    s.videoFormats =
      (rtpmapsOf (d.mediaDescriptions.filter (·.isVideo))).map SipVideoFormat.parseVideoFormat := by
  have hs : s.audioFormats = (readMedia d.mediaDescriptions).1.formats ∧
      s.videoFormats = (readMedia d.mediaDescriptions).2.formats := by
    obtain ⟨address, -, h⟩ := bind_eq_ok.1 h
    obtain ⟨port, -, h⟩ := bind_eq_ok.1 h
    obtain ⟨connection, -, h⟩ := bind_eq_ok.1 h
    cases hx : getByName connection.address with
    | none => rw [hx] at h; cases h
    | some x =>
      rw [hx] at h
      cases h
      exact ⟨rfl, rfl⟩
  rw [hs.1, hs.2, readMedia_eq]
  exact readItems_formats d.mediaDescriptions

/-- No `null` was added exactly when everything parses. -/
theorem map_eq_filterMap_iff {α β : Type} {f : α → Option β} {xs : List α} :
    xs.map f = (xs.filterMap f).map some ↔ ∀ x ∈ xs, (f x).isSome = true := by
  rw [List.map_filterMap_some_eq_filter_map_isSome, eq_comm, List.filter_eq_self]
  simp

/-- **The formats of a session.**  They are those that parse, and malformed attributes have no
    effect on the rest, exactly when every rtpmap attribute of the audio and the video sections
    parses. -/
theorem reads_formats_iff (h : createSipSession getByName message source d = .ok s) :
    ReadsFormats getByName message source d s ↔ d.FormatsParse := by
  obtain ⟨ha, hv⟩ := createSipSession_formats h
  constructor
  · intro hr
    exact ⟨map_eq_filterMap_iff.1 (ha.symm.trans hr.audio),
      map_eq_filterMap_iff.1 (hv.symm.trans hr.video)⟩
  · intro hp
    refine ⟨ha.trans (map_eq_filterMap_iff.2 hp.1), hv.trans (map_eq_filterMap_iff.2 hp.2), ?_⟩
    rw [← h, createSipSession, createSipSession, readMedia_readable hp]
    rfl

namespace Trace

/-- An audio section with the rtpmap lines. -/
def rtpmaps (lines : List Str) : MediaDescription :=
  { audioSection with attributes := lines.map rtpmap }

end Trace

/-- The session of a description whose rtpmap line can be read. -/
theorem reads_formats_rtpmap : ∃ s,
    createSipSession some (Trace.offers [Trace.rtpmaps ["0 PCMU/8000".toList]]).toMessage
      (.request 0) (Trace.sections [Trace.rtpmaps ["0 PCMU/8000".toList]]) = .ok s ∧
    ReadsFormats some (Trace.offers [Trace.rtpmaps ["0 PCMU/8000".toList]]).toMessage (.request 0)
      (Trace.sections [Trace.rtpmaps ["0 PCMU/8000".toList]]) s := by
  obtain ⟨s, hs⟩ : ∃ s,
      createSipSession some (Trace.offers [Trace.rtpmaps ["0 PCMU/8000".toList]]).toMessage
        (.request 0) (Trace.sections [Trace.rtpmaps ["0 PCMU/8000".toList]]) = .ok s := ⟨_, rfl⟩
  refine ⟨s, hs, (reads_formats_iff hs).2 ⟨?_, ?_⟩⟩
  · decide
  · decide

/-- An rtpmap line without a rate adds `null`. -/
theorem rtpmap_adds_null : ¬ ∀ getByName message source d s,
    createSipSession getByName message source d = .ok s →
      ReadsFormats getByName message source d s := by
  intro h
  have hr := h some (Trace.offers [Trace.rtpmaps ["0 PCMU".toList]]).toMessage (.request 0)
    (Trace.sections [Trace.rtpmaps ["0 PCMU".toList]]) _ rfl
  exact absurd hr.audio (by decide)

end JaySip
