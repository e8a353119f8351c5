/-
  The formats that the client makes of a description, and the formats of its profile.
-/
import JaySip.Proof.Agreement

namespace JaySip

open Java

variable {p : LocalSipProfile} {d : SessionDescription} {codes : List Str}
  {fs : List SipAudioFormat}

/-- `getSipAudioFormats`, `getSipAudioFormatsBump` and `getSipAudioFormatsList`, as `createSDP`
    and the branch of the 200 run them. -/
def LocalSipProfile.negotiated (p : LocalSipProfile) (d : SessionDescription) :
    Except JException (List SipAudioFormat) := do
  getSipAudioFormatsList (← negotiate p d)

/-- The static table gives the code a format, which the profile has. -/
def LocalSipProfile.Covers (p : LocalSipProfile) (n : ℤ) : Prop :=
  (0 ≤ n ∧ n ≤ 34) ∧ ∃ g ∈ p.audioFormats, (tableFormat n).equals g = true

/-- Every format that is negotiated is one of the profile, and formats that are integers make
    none of the methods throw. -/
structure LocalSipProfile.Negotiates (p : LocalSipProfile) (d : SessionDescription) : Prop where
  local_formats : ∀ fs, p.negotiated d = .ok fs →
    ∀ f ∈ fs, ∃ g ∈ p.audioFormats, f.equals g = true
  returns : (∀ m, d.mediaDescriptions.head? = some m → ∀ s ∈ m.formats, ∃ n, parseInt s = .ok n) →
    ∃ fs, p.negotiated d = .ok fs

/-! ## The table -/

/-- The table has the codes 0 to 34. -/
theorem arrayGet_table_iff {n : ℤ} :
    (∃ name, arrayGet avpTypeNames n = .ok name) ↔ 0 ≤ n ∧ n ≤ 34 := by
  constructor
  · rintro ⟨name, h⟩
    by_contra hn
    unfold arrayGet at h
    split_ifs at h with h₀
    have hlen : avpTypeNames.length ≤ n.toNat := by
      rw [show avpTypeNames.length = 35 from rfl]
      omega
    rw [List.getElem?_eq_none hlen] at h
    cases h
  · exact fun h => ⟨_, (arrayGet_table h).1⟩

/-- One turn of the loop of `getSipAudioFormatsList`. -/
def tableEntry (s : Str) : Except JException SipAudioFormat := do
  let format_type ← parseInt s
  return ⟨format_type, ← arrayGet avpTypeNames format_type, ← arrayGet avpClockRates format_type⟩

theorem getSipAudioFormatsList_eq (codes : List Str) :
    getSipAudioFormatsList codes = codes.mapM tableEntry := rfl

theorem tableEntry_iff {s : Str} {f : SipAudioFormat} : tableEntry s = .ok f ↔
    ∃ n, parseInt s = .ok n ∧ (0 ≤ n ∧ n ≤ 34) ∧ f = tableFormat n := by
  rw [tableEntry]
  cases hn : parseInt s with
  | error e => simp
  | ok n =>
    rw [ok_bind]
    by_cases ht : 0 ≤ n ∧ n ≤ 34
    · rw [(arrayGet_table ht).1, ok_bind, (arrayGet_table ht).2, ok_bind]
      constructor
      · intro h
        cases h
        exact ⟨n, rfl, ht, rfl⟩
      · rintro ⟨m, hm, -, rfl⟩
        cases hm
        rfl
    · cases ha : arrayGet avpTypeNames n with
      | ok name => exact absurd (arrayGet_table_iff.1 ⟨name, ha⟩) ht
      | error e =>
        rw [error_bind]
        refine iff_of_false (by simp) ?_
        rintro ⟨m, hm, hr, -⟩
        cases hm
        exact ht hr

/-! ## Negotiation -/

/-- A code that is kept is a local one. -/
theorem mem_kept {cs : List Str} {s : Str} {n : ℤ} (hn : parseInt s = .ok n) :
    s ∈ cs.filter p.hasCodec ↔ s ∈ cs ∧ n ∈ p.codes := by
  rw [List.mem_filter, hasCodec_iff hn]
  rfl

theorem negotiated_iff : p.negotiated d = .ok fs ↔ ∃ m, d.mediaDescriptions.head? = some m ∧
    (∀ s ∈ m.formats, ∃ n, parseInt s = .ok n) ∧
      getSipAudioFormatsList (m.formats.filter p.hasCodec) = .ok fs := by
  rw [LocalSipProfile.negotiated]
  cases hn : negotiate p d with
  | error e =>
    refine iff_of_false (by simp) ?_
    rintro ⟨m, hm, hp, -⟩
    exact absurd (hn.symm.trans (negotiate_iff.2 ⟨m, hm, hp, rfl⟩)) (by simp)
  | ok codes =>
    rw [ok_bind]
    obtain ⟨m, hm, hp, rfl⟩ := negotiate_iff.1 hn
    constructor
    · exact fun h => ⟨m, hm, hp, h⟩
    · rintro ⟨m', hm', -, h⟩
      obtain rfl : m = m' := Option.some.inj (hm.symm.trans hm')
      exact h

/-- The formats of a description are read from the codes that are kept. -/
theorem mem_negotiated {m : MediaDescription} {f : SipAudioFormat}
    (hm : d.mediaDescriptions.head? = some m) (h : p.negotiated d = .ok fs) :
    f ∈ fs ↔ ∃ s ∈ m.formats, ∃ n, parseInt s = .ok n ∧ n ∈ p.codes ∧ (0 ≤ n ∧ n ≤ 34) ∧
      f = tableFormat n := by
  obtain ⟨m', hm', -, hlist⟩ := negotiated_iff.1 h
  obtain rfl : m = m' := Option.some.inj (hm.symm.trans hm')
  rw [getSipAudioFormatsList_eq] at hlist
  rw [mem_mapM hlist]
  constructor
  · rintro ⟨s, hs, hf⟩
    obtain ⟨n, hn, ht, rfl⟩ := tableEntry_iff.1 hf
    obtain ⟨hs', hl⟩ := (mem_kept hn).1 hs
    exact ⟨s, hs', n, hn, hl, ht, rfl⟩
  · rintro ⟨s, hs, n, hn, hl, ht, rfl⟩
    exact ⟨s, (mem_kept hn).2 ⟨hs, hl⟩, tableEntry_iff.2 ⟨n, hn, ht, rfl⟩⟩

/-- The methods return when every code is an integer, and every local one in the table. -/
theorem negotiated_returns {m : MediaDescription} (hm : d.mediaDescriptions.head? = some m) :
    (∃ fs, p.negotiated d = .ok fs) ↔ ∀ s ∈ m.formats, ∃ n, parseInt s = .ok n ∧
      (n ∈ p.codes → 0 ≤ n ∧ n ≤ 34) := by
  constructor
  · rintro ⟨fs, hfs⟩ s hs
    obtain ⟨m', hm', hp, hlist⟩ := negotiated_iff.1 hfs
    obtain rfl : m = m' := Option.some.inj (hm.symm.trans hm')
    obtain ⟨n, hn⟩ := hp s hs
    refine ⟨n, hn, fun hl => ?_⟩
    obtain ⟨f, hf⟩ := mapM_returns.1 ⟨fs, hlist⟩ s ((mem_kept hn).2 ⟨hs, hl⟩)
    obtain ⟨n', hn', ht, -⟩ := tableEntry_iff.1 hf
    cases hn.symm.trans hn'
    exact ht
  · intro h
    have hret : ∀ s ∈ m.formats.filter p.hasCodec, ∃ f, tableEntry s = .ok f := by
      intro s hs
      obtain ⟨n, hn, ht⟩ := h s (List.mem_filter.1 hs).1
      exact ⟨_, tableEntry_iff.2 ⟨n, hn, ht ((mem_kept hn).1 hs).2, rfl⟩⟩
    obtain ⟨fs, hfs⟩ := mapM_returns.2 hret
    refine ⟨fs, negotiated_iff.2 ⟨m, hm, fun s hs => ?_, hfs⟩⟩
    obtain ⟨n, hn, -⟩ := h s hs
    exact ⟨n, hn⟩

/-- **Negotiated formats.**  They are the profile's, and offers of integers are negotiated,
    exactly for descriptions with a section whose codes are not all integers, or of whose
    codes those that the profile lists have a format in the table that the profile has. -/
theorem negotiates_iff : p.Negotiates d ↔ ∃ m, d.mediaDescriptions.head? = some m ∧
    ((∃ s ∈ m.formats, ∀ n, parseInt s ≠ .ok n) ∨
      ∀ s ∈ m.formats, ∀ n, parseInt s = .ok n → n ∈ p.codes → p.Covers n) := by
  constructor
  · rintro ⟨hlocal, hret⟩
    cases hm : d.mediaDescriptions.head? with
    | none =>
      obtain ⟨fs, hfs⟩ := hret (by simp [hm])
      obtain ⟨m, hm', -⟩ := negotiated_iff.1 hfs
      exact absurd (hm.symm.trans hm') (by simp)
    | some m =>
      refine ⟨m, rfl, ?_⟩
      by_cases hp : ∀ s ∈ m.formats, ∃ n, parseInt s = .ok n
      · right
        intro s hs n hn hl
        obtain ⟨fs, hfs⟩ := hret fun m' hm' => by
          obtain rfl : m = m' := Option.some.inj (hm.symm.trans hm')
          exact hp
        obtain ⟨n', hn', ht⟩ := (negotiated_returns hm).1 ⟨fs, hfs⟩ s hs
        cases hn.symm.trans hn'
        exact ⟨ht hl, hlocal fs hfs _ ((mem_negotiated hm hfs).2 ⟨s, hs, n, hn, hl, ht hl, rfl⟩)⟩
      · left
        push Not at hp
        exact hp
  · rintro ⟨m, hm, hc⟩
    -- once all codes are integers, the local ones are covered
    have hcov : (∀ s ∈ m.formats, ∃ n, parseInt s = .ok n) →
        ∀ s ∈ m.formats, ∀ n, parseInt s = .ok n → n ∈ p.codes → p.Covers n := by
      intro hp
      refine hc.resolve_left ?_
      rintro ⟨s, hs, hbad⟩
      obtain ⟨n, hn⟩ := hp s hs
      exact hbad n hn
    constructor
    · intro fs hfs f hf
      obtain ⟨s, hs, n, hn, hl, -, rfl⟩ := (mem_negotiated hm hfs).1 hf
      have hp : ∀ s ∈ m.formats, ∃ n, parseInt s = .ok n := fun s hs =>
        ((negotiated_returns hm).1 ⟨fs, hfs⟩ s hs).imp fun _ h => h.1
      exact (hcov hp s hs n hn hl).2
    · intro hp
      refine (negotiated_returns hm).2 fun s hs => ?_
      obtain ⟨n, hn⟩ := hp m hm s hs
      exact ⟨n, hn, fun hl => (hcov (hp m hm) s hs n hn hl).1⟩

namespace Trace

/-- Alice with the Speex payload type of `Codec`. -/
def speaker : LocalSipProfile := { alice with audioFormats := [⟨101, "speex".toList, 8000⟩] }

end Trace

/-- Speex is not negotiated, although it is offered and the profile has it. -/
theorem speex_not_negotiated : ¬ ∀ p d, LocalSipProfile.Negotiates p d := by
  intro h
  have hints : ∀ m, (Trace.description "101".toList).mediaDescriptions.head? = some m →
      ∀ s ∈ m.formats, ∃ n, parseInt s = .ok n := by
    rintro m ⟨⟩ s hs
    obtain rfl := List.mem_singleton.1 hs
    exact ⟨101, by decide⟩
  obtain ⟨fs, hfs⟩ := (h Trace.speaker (Trace.description "101".toList)).returns hints
  have hthrows : Trace.speaker.negotiated (Trace.description "101".toList) =
      .error .indexOutOfBounds := by
    decide
  rw [hthrows] at hfs
  cases hfs

end JaySip
