/-
  The SDP field of a format, read back.
-/
import JaySip.Java.Exec
import JaySip.Java.Number
import JaySip.Java.Split
import JaySip.Proof.Agreement

namespace JaySip

open Java

/-- The format is read back from its SDP field, with and without the prefix. -/
structure ReadsBack {α : Type} (getSdpField : α → Str) (parse : Option Str → Option α) (f : α) :
    Prop where
  plain : parse (some (getSdpField f)) = some f
  prefixed : parse (some ("rtpmap:".toList ++ getSdpField f)) = some f

/-! ## The field -/

variable {format sampleRate n : ℤ} {formatName : Str}

theorem notMem_intText {c : Char} (hd : c.isDigit = false) (hm : c ≠ '-') : c ∉ intText n := by
  intro h
  rcases mem_intText h with h | h
  · rw [hd] at h
    cases h
  · exact hm h

theorem sdpField_eq :
    sdpField format formatName sampleRate =
      intText format ++ ' ' :: (formatName ++ '/' :: intText sampleRate) := by
  simp [sdpField]

/-- A field has the prefix only in the name. -/
theorem not_infix_sdpField (h : ¬ "rtpmap:".toList <:+: formatName) :
    ¬ "rtpmap:".toList <:+: sdpField format formatName sampleRate := by
  have hnum : ∀ n, ¬ "rtpmap:".toList <:+: intText n := fun n hi =>
    notMem_intText (c := ':') (by decide) (by decide) (hi.subset (by simp))
  rw [sdpField_eq, infix_append_cons (by decide), infix_append_cons (by decide)]
  rintro (hi | hi | hi)
  · exact hnum _ hi
  · exact h hi
  · exact hnum _ hi

/-- What is left of the field without the prefix. -/
theorem replace_sdpField (h : ¬ "rtpmap:".toList <:+: formatName) :
    replace (sdpField format formatName sampleRate) "rtpmap:".toList [] =
      sdpField format formatName sampleRate :=
  replace_of_not_infix _ (not_infix_sdpField h)

theorem code_sdpField :
    arrayGet (split (sdpField format formatName sampleRate) ' ') 0 = .ok (intText format) := by
  have hf : ' ' ∉ intText format := notMem_intText (by decide) (by decide)
  rw [arrayGet_split_zero, sdpField_eq, textBefore_append hf, if_neg]
  exact fun h => not_run (by simp) (by decide : '/' ≠ ' ') h.2

/-- The name and the rate stand behind the space. -/
theorem rest_sdpField (hs : ' ' ∉ formatName) :
    arrayGet (split (sdpField format formatName sampleRate) ' ') 1 =
      .ok (formatName ++ '/' :: intText sampleRate) := by
  have hf : ' ' ∉ intText format := notMem_intText (by decide) (by decide)
  have hr : ' ' ∉ formatName ++ '/' :: intText sampleRate := by
    rw [List.mem_append, List.mem_cons, not_or, not_or]
    exact ⟨hs, by decide, notMem_intText (by decide) (by decide)⟩
  rw [arrayGet_split_one, sdpField_eq, textAfter_append hf, textBefore_of_notMem hr,
    if_neg (not_run (by simp) (by decide : '/' ≠ ' '))]

theorem exists_ne_slash (n : ℤ) : ∃ c ∈ intText n, c ≠ '/' := by
  obtain ⟨c, hc⟩ := List.exists_mem_of_ne_nil _ (intText_ne_nil n)
  refine ⟨c, hc, ?_⟩
  rintro rfl
  exact notMem_intText (by decide) (by decide) hc

theorem name_rest (hd : '/' ∉ formatName) :
    arrayGet (split (formatName ++ '/' :: intText sampleRate) '/') 0 = .ok formatName := by
  obtain ⟨c, hc, hne⟩ := exists_ne_slash sampleRate
  rw [arrayGet_split_zero, textBefore_append hd, if_neg]
  exact fun h => not_run (by simp [hc]) hne h.2

/-- The rate is the second part, also behind an empty name. -/
theorem rate_rest (hd : '/' ∉ formatName) :
    arrayGet (split (formatName ++ '/' :: intText sampleRate) '/') 1 =
      .ok (intText sampleRate) := by
  have hr : '/' ∉ intText sampleRate := notMem_intText (by decide) (by decide)
  obtain ⟨c, hc, hne⟩ := exists_ne_slash sampleRate
  rw [arrayGet_split_one, textAfter_append hd, textBefore_of_notMem hr, if_neg (not_run hc hne)]

/-! ## Reading it -/

/-- A value whose text without the prefix is the field. -/
theorem readFormat_field {α : Type} (mk : ℤ → Str → ℤ → α) {value : Str} (hf : IsInt format)
    (hr : IsInt sampleRate) (hs : ' ' ∉ formatName) (hd : '/' ∉ formatName)
    (hv : replace value "rtpmap:".toList [] = sdpField format formatName sampleRate) :
    readFormat mk (some value) = .ok (mk format formatName sampleRate) := by
  simp only [readFormat, nonNull_some, ok_bind, hv, code_sdpField, rest_sdpField hs, name_rest hd,
    rate_rest hd, parseInt_intText hf.1 hf.2, parseInt_intText hr.1 hr.2]
  rfl

/-- **SDP fields.**  A format whose name has no space, no slash and no prefix is read back from
    its field, for audio and for video. -/
theorem sdpField_readsBack (hf : IsInt format) (hr : IsInt sampleRate) (hs : ' ' ∉ formatName)
    (hd : '/' ∉ formatName) (hp : ¬ "rtpmap:".toList <:+: formatName) :
    ReadsBack SipAudioFormat.getSdpField SipAudioFormat.parseAudioFormat
        ⟨format, formatName, sampleRate⟩ ∧
      ReadsBack SipVideoFormat.getSdpField SipVideoFormat.parseVideoFormat
        ⟨format, formatName, sampleRate⟩ := by
  have hplain : replace (sdpField format formatName sampleRate) "rtpmap:".toList [] =
      sdpField format formatName sampleRate := replace_sdpField hp
  have hpre : replace ("rtpmap:".toList ++ sdpField format formatName sampleRate)
      "rtpmap:".toList [] = sdpField format formatName sampleRate := by
    rw [replace_append _ (by decide), hplain]
    rfl
  refine ⟨⟨?_, ?_⟩, ?_, ?_⟩
  · exact congrArg Except.toOption (readFormat_field SipAudioFormat.mk hf hr hs hd hplain)
  · exact congrArg Except.toOption (readFormat_field SipAudioFormat.mk hf hr hs hd hpre)
  · exact congrArg Except.toOption (readFormat_field SipVideoFormat.mk hf hr hs hd hplain)
  · exact congrArg Except.toOption (readFormat_field SipVideoFormat.mk hf hr hs hd hpre)

/-- The empty name and a negative rate. -/
theorem sdpField_readsBack_empty :
    ReadsBack SipAudioFormat.getSdpField SipAudioFormat.parseAudioFormat ⟨-5, [], -8000⟩ ∧
      ReadsBack SipVideoFormat.getSdpField SipVideoFormat.parseVideoFormat ⟨-5, [], -8000⟩ :=
  sdpField_readsBack (by simp [IsInt]) (by simp [IsInt]) (by simp) (by simp) (by decide)

end JaySip
