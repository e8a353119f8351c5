/-
  Codec negotiation: which codecs of an offer are kept, and which formats and lines they
  become.
-/
import JaySip.Proof.Handler

namespace JaySip

open Java

/-- The code is one of the local audio formats. -/
def LocalSipProfile.hasCodec (p : LocalSipProfile) (s : Str) : Bool :=
  match parseInt s with
  | .ok n => n ∈ p.audioFormats.map (·.format)
  | .error _ => false

theorem hasCodec_iff {p : LocalSipProfile} {s : Str} {n : ℤ} (h : parseInt s = .ok n) :
    p.hasCodec s = true ↔ n ∈ p.audioFormats.map (·.format) := by
  simp [LocalSipProfile.hasCodec, h]

/-! ## The codecs kept -/

/-- One turn of the loop of `getSipAudioFormatsBump`. -/
def bumpStep (p : LocalSipProfile) (m_temp : List Str) (s : Str) : Except JException (List Str) := do
  let temp ← parseInt s
  if temp ∈ p.audioFormats.map (·.format) then return m_temp
  else return m_temp.erase s

theorem getSipAudioFormatsBump_eq (p : LocalSipProfile) (callercodec : List Str) :
    getSipAudioFormatsBump p callercodec = callercodec.foldlM (bumpStep p) callercodec := rfl

theorem bumpStep_ok {p : LocalSipProfile} {kept cs : List Str} {s : Str} {n : ℤ}
    (hk : ∀ t ∈ kept, p.hasCodec t = true) (hn : parseInt s = .ok n) :
    bumpStep p (kept ++ s :: cs) s = .ok (kept ++ (if p.hasCodec s then [s] else []) ++ cs) := by
  have hb : bumpStep p (kept ++ s :: cs) s =
      if n ∈ p.audioFormats.map (·.format) then .ok (kept ++ s :: cs)
      else .ok ((kept ++ s :: cs).erase s) := by
    rw [bumpStep, hn, ok_bind]
    rfl
  rw [hb]
  by_cases hc : p.hasCodec s = true
  · rw [if_pos ((hasCodec_iff hn).1 hc), if_pos hc]
    simp
  · have hs : s ∉ kept := fun hs => hc (hk s hs)
    rw [if_neg (fun hm => hc ((hasCodec_iff hn).2 hm)), if_neg hc,
      List.erase_append_right _ hs, List.erase_cons_head]
    simp

/-- The loop has kept the local codecs of the part it has walked. -/
theorem bump_loop {p : LocalSipProfile} {kept cs r : List Str}
    (hk : ∀ t ∈ kept, p.hasCodec t = true) : cs.foldlM (bumpStep p) (kept ++ cs) = .ok r ↔
      (∀ s ∈ cs, ∃ n, parseInt s = .ok n) ∧ r = kept ++ cs.filter p.hasCodec := by
  induction cs generalizing kept with
  | nil => simp [pure, Except.pure, eq_comm]
  | cons s cs ih =>
    rw [List.foldlM_cons]
    cases hn : parseInt s with
    | error e =>
      have he : bumpStep p (kept ++ s :: cs) s = .error e := by
        rw [bumpStep, hn, error_bind]
      rw [he, error_bind]
      refine iff_of_false (by simp) ?_
      rintro ⟨h, -⟩
      obtain ⟨n, h⟩ := h s (by simp)
      simp [hn] at h
    | ok n =>
      rw [bumpStep_ok hk hn, ok_bind, ih]
      · simp only [List.forall_mem_cons, hn, List.filter_cons]
        by_cases hc : p.hasCodec s = true <;> simp [hc]
      · intro t ht
        rcases List.mem_append.1 ht with ht | ht
        · exact hk t ht
        · split_ifs at ht with hc
          · rw [List.mem_singleton.1 ht]
            exact hc
          · exact nomatch ht

/-- The codecs kept are the local ones, in the order of the offer. -/
theorem bump_iff {p : LocalSipProfile} {cs r : List Str} : getSipAudioFormatsBump p cs = .ok r ↔
    (∀ s ∈ cs, ∃ n, parseInt s = .ok n) ∧ r = cs.filter p.hasCodec := by
  rw [getSipAudioFormatsBump_eq]
  have hnil : ∀ t ∈ ([] : List Str), p.hasCodec t = true := by simp
  exact bump_loop hnil

/-! ## The vectors -/

/-- Turn `i` keeps the argument, and takes the copy through the step for the codec at `i`. -/
theorem wp_bumpTurn {p : LocalSipProfile} {i : ℕ} {v : BumpVectors} {s : Str}
    (hs : v.callercodec[i]? = some s) :
    wp (bumpTurn p i)
      (fun _ v' => v'.callercodec = v.callercodec ∧ bumpStep p v.m_temp s = .ok v'.m_temp)
      (fun e v' => v'.callercodec = v.callercodec ∧ bumpStep p v.m_temp s = .error e) v := by
  have hget : arrayGet v.callercodec (i : ℤ) = .ok s := by
    rw [arrayGet, if_neg (by omega), Int.toNat_natCast, hs]
  rw [bumpTurn, wp_bind, wp_get, wp_bind, hget, wp_lift_ok, wp_bind]
  cases hn : parseInt s with
  | error e =>
    refine (wp_lift _).2 ⟨by simp, ?_⟩
    rintro _ ⟨⟩
    exact ⟨rfl, by rw [bumpStep, hn, error_bind]⟩
  | ok n =>
    have hstep : bumpStep p v.m_temp s =
        if n ∈ p.audioFormats.map (·.format) then .ok v.m_temp else .ok (v.m_temp.erase s) := by
      rw [bumpStep, hn, ok_bind]
      rfl
    rw [wp_lift_ok, wp_ite, wp_bind, wp_get, wp_bind, hget, wp_lift_ok, wp_modify, hstep]
    exact ⟨fun hm => ⟨rfl, if_pos hm⟩, fun hm => ⟨rfl, if_neg hm⟩⟩

/-- The method on its vectors returns and throws what the fold does, and keeps its argument. -/
theorem wp_bumpVectors {p : LocalSipProfile} {v : BumpVectors} :
    wp (bumpVectors p)
      (fun r v' => v'.callercodec = v.callercodec ∧
        getSipAudioFormatsBump p v.callercodec = .ok r)
      (fun e v' => v'.callercodec = v.callercodec ∧
        getSipAudioFormatsBump p v.callercodec = .error e) v := by
  rw [bumpVectors, wp_bind, wp_get, wp_bind, wp_modify, wp_bind, getSipAudioFormatsBump_eq]
  -- before turn `i` the copy is the fold over the codecs before `i`
  refine wp_mono (E := fun e v' => v'.callercodec = v.callercodec ∧
      v.callercodec.foldlM (bumpStep p) v.callercodec = .error e)
    (wp_loop (fun i _ v' => v'.callercodec = v.callercodec ∧
      (v.callercodec.take i).foldlM (bumpStep p) v.callercodec = .ok v'.m_temp) ⟨rfl, rfl⟩ ?_)
    ?_ fun _ _ he => he
  · intro i hi _ v' ⟨hc, hf⟩
    have hs : v'.callercodec[i]? = some v.callercodec[i] := by
      rw [hc, List.getElem?_eq_getElem hi]
    have hcodecs : v.callercodec =
        v.callercodec.take i ++ v.callercodec[i] :: v.callercodec.drop (i + 1) := by
      rw [List.getElem_cons_drop, List.take_append_drop]
    refine wp_mono (wp_bumpTurn hs) ?_ ?_
    · rintro _ v'' ⟨hc', hb⟩
      refine ⟨hc'.trans hc, ?_⟩
      rw [List.take_succ_eq_append_getElem hi, List.foldlM_append, hf, ok_bind, List.foldlM_cons,
        hb, ok_bind, List.foldlM_nil]
      rfl
    · rintro e v'' ⟨hc', hb⟩
      refine ⟨hc'.trans hc, ?_⟩
      generalize v.callercodec[i] = s at hb hcodecs
      generalize v.callercodec.drop (i + 1) = rest at hcodecs
      generalize v.callercodec.take i = walked at hf hcodecs
      conv_lhs => rw [hcodecs]
      rw [List.foldlM_append, ← hcodecs, hf, ok_bind, List.foldlM_cons, hb, error_bind]
  · rintro _ v' ⟨hc, hf⟩
    rw [List.take_length] at hf
    exact ⟨hc, hf⟩

/-- **The codecs both sides have.**  Of codes that are all integers those with a local value are
    returned, in the order of the argument and as often as there; when one is no integer the
    method throws.  The argument stays as it is. -/
theorem bumpVectors_iff (p : LocalSipProfile) (v : BumpVectors) :
    (∀ r, (∃ v', bumpVectors p v = .ok r v') ↔
      (∀ s ∈ v.callercodec, ∃ n, parseInt s = .ok n) ∧ r = v.callercodec.filter p.hasCodec) ∧
    ((∃ e v', bumpVectors p v = .error e v') ↔ ∃ s ∈ v.callercodec, ∀ n, parseInt s ≠ .ok n) ∧
    (after (bumpVectors p) v).callercodec = v.callercodec := by
  have hw := @wp_bumpVectors p v
  rw [wp] at hw
  rw [after]
  cases hb : bumpVectors p v with
  | ok r v' =>
    rw [hb] at hw
    obtain ⟨hc, hr⟩ := hw
    obtain ⟨hp, rfl⟩ := bump_iff.1 hr
    refine ⟨fun r => ?_, iff_of_false (by simp) ?_, hc⟩
    · constructor
      · rintro ⟨_, ⟨⟩⟩
        exact ⟨hp, rfl⟩
      · rintro ⟨-, rfl⟩
        exact ⟨v', rfl⟩
    · rintro ⟨s, hs, hn⟩
      obtain ⟨n, h⟩ := hp s hs
      exact hn n h
  | error e v' =>
    rw [hb] at hw
    obtain ⟨hc, he⟩ := hw
    have hp : ¬ ∀ s ∈ v.callercodec, ∃ n, parseInt s = .ok n := by
      intro hp
      rw [bump_iff.2 ⟨hp, rfl⟩] at he
      cases he
    refine ⟨fun r => iff_of_false (by simp) fun h => hp h.1, iff_of_true ⟨e, v', rfl⟩ ?_, hc⟩
    simpa only [not_forall, not_exists, exists_prop] using hp

theorem negotiate_iff {p : LocalSipProfile} {sdp : SessionDescription} {r : List Str} :
    negotiate p sdp = .ok r ↔ ∃ m, sdp.mediaDescriptions.head? = some m ∧
      (∀ s ∈ m.formats, ∃ n, parseInt s = .ok n) ∧ r = m.formats.filter p.hasCodec := by
  rw [negotiate, getSipAudioFormats]
  cases sdp.mediaDescriptions with
  | nil => simp [arrayGet]
  | cons m ms =>
    have h0 : arrayGet (m :: ms) 0 = .ok m := rfl
    rw [h0, ok_bind, List.head?_cons]
    simpa using bump_iff

/-- Without local formats nothing is kept. -/
theorem negotiate_nonempty {p : LocalSipProfile} {sdp : SessionDescription} {r : List Str}
    (h : negotiate p sdp = .ok r) (hr : r ≠ []) : 0 < p.audioFormats.length := by
  obtain ⟨m, -, hp, rfl⟩ := negotiate_iff.1 h
  obtain ⟨s, hs⟩ := List.exists_mem_of_ne_nil _ hr
  obtain ⟨hm, hc⟩ := List.mem_filter.1 hs
  obtain ⟨n, hn⟩ := hp s hm
  have hl := (hasCodec_iff hn).1 hc
  rw [List.mem_map] at hl
  obtain ⟨f, hf, -⟩ := hl
  exact List.length_pos_of_mem hf

/-! ## The lines of a description -/

/-- The first section of the description is an audio section with these formats: the codes of
    its m= line are theirs, and its rtpmap lines are theirs. -/
def SessionDescription.Lists (d : SessionDescription) (fs : List SipAudioFormat) : Prop :=
  ∃ m ms, d.mediaDescriptions = m :: ms ∧ m.mediaType = "audio".toList ∧
    getSipAudioFormatsList m.formats = .ok fs ∧
    m.attributes.filter (·.name = "rtpmap".toList) = fs.map (rtpmap ·.getSdpField)

/-- The attributes of an audio section that are rtpmap lines. -/
theorem filter_rtpmap {lines : List Str} {port : ℤ} :
    (lines.map rtpmap ++ [sendReceive, rtcpAttribute port]).filter
      (·.name = "rtpmap".toList) = lines.map rtpmap := by
  rw [List.filter_append]
  have h₁ : (lines.map rtpmap).filter (·.name = "rtpmap".toList) = lines.map rtpmap := by
    rw [List.filter_eq_self]
    intro a ha
    obtain ⟨s, -, rfl⟩ := List.mem_map.1 ha
    rfl
  have h₂ : [sendReceive, rtcpAttribute port].filter (·.name = "rtpmap".toList) = [] := by
    rfl
  rw [h₁, h₂, List.append_nil]

theorem describe_sections {h : SipMessageHandler} {sessionId sessionVersion : ℤ}
    {sessionName : Str} {audioFormats : List Str} {rtpmaps : List Attribute}
    {d : SessionDescription}
    (hd : describe h sessionId sessionVersion sessionName audioFormats rtpmaps = .ok d) :
    d.mediaDescriptions =
      audioSection h.localSipProfile audioFormats rtpmaps ++ videoSection h.localSipProfile := by
  rw [describe] at hd
  split_ifs at hd
  cases hd
  rfl

theorem describe_iff {h : SipMessageHandler} {sessionId sessionVersion : ℤ} {sessionName : Str}
    {audioFormats : List Str} {rtpmaps : List Attribute} :
    (∃ d, describe h sessionId sessionVersion sessionName audioFormats rtpmaps = .ok d) ↔
      0 ≤ sessionId := by
  unfold describe
  by_cases hn : sessionId < 0
  · simp [hn]
  · rw [if_neg hn]
    exact iff_of_true ⟨_, rfl⟩ (by omega)

/-- When an answer is made: the offer can be read, codecs are kept, and they have formats. -/
theorem answer_eq_some {h : SipMessageHandler} {r : Request} {fs : List SipAudioFormat}
    {sdp : SessionDescription} : h.answer r = .ok (some (fs, sdp)) ↔ ∃ o codes,
      readOffer r = .ok o ∧ negotiate h.localSipProfile o.sdpSession = .ok codes ∧ codes ≠ [] ∧
        getSipAudioFormatsList codes = .ok fs ∧ h.answerWith o codes fs = .ok sdp := by
  constructor
  · intro ha
    obtain ⟨o, ho, ha⟩ := bind_eq_ok.1 ha
    obtain ⟨codes, hn, ha⟩ := bind_eq_ok.1 ha
    by_cases hc : codes = []
    · rw [if_pos hc] at ha
      cases ha
    rw [if_neg hc] at ha
    obtain ⟨formats, hl, ha⟩ := bind_eq_ok.1 ha
    obtain ⟨d, hw, ha⟩ := bind_eq_ok.1 ha
    cases ha
    exact ⟨o, codes, ho, hn, hc, hl, hw⟩
  · rintro ⟨o, codes, ho, hn, hc, hl, hw⟩
    rw [SipMessageHandler.answer, ho, ok_bind, hn, ok_bind, if_neg hc, hl, ok_bind, hw]
    rfl

/-- An answer lists the formats that were kept for it. -/
theorem answer_lists {h : SipMessageHandler} {r : Request} {fs : List SipAudioFormat}
    {sdp : SessionDescription} (ha : h.answer r = .ok (some (fs, sdp))) : sdp.Lists fs := by
  obtain ⟨o, codes, -, hn, hc, hl, hw⟩ := answer_eq_some.1 ha
  have hs := describe_sections hw
  rw [audioSection, if_pos (negotiate_nonempty hn hc)] at hs
  refine ⟨_, _, hs, rfl, hl, ?_⟩
  have hm : fs.map (rtpmap ·.getSdpField) = (fs.map (·.getSdpField)).map rtpmap := by
    rw [List.map_map]
    rfl
  dsimp only
  rw [hm, filter_rtpmap]

end JaySip
