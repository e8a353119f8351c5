/-
  Reading a session description: what the text of a message has to be, which description it is,
  and that a description is read again from its own text.
-/
import JaySip.Proof.SdpAnnounce
import Mathlib.Data.List.Forall2

namespace JaySip.Sdp

open Java Blocks Lines

variable {F : Type} {g : Fields F}

/-! ## What is shown determines the description -/

section
variable {c : FieldClass} {sd sd' : SessionDescriptionImpl g}

theorem vals_inj {l l' : List (g.Of c)} (h : vals l = vals l') : l = l' :=
  List.map_injective_iff.2 Subtype.val_injective h

theorem vals_toList_inj {o o' : Option (g.Of c)} (h : vals o.toList = vals o'.toList) : o = o' := by
  rw [← Option.head?_toList (o := o), vals_inj h, Option.head?_toList]

theorem part_cls (m : MediaDescriptionImpl g) (c : FieldClass) : ∀ f ∈ m.part c, g.cls f = c := by
  intro f hf
  cases c <;> first
    | exact absurd hf List.not_mem_nil
    | obtain ⟨f, -, rfl⟩ := List.mem_map.1 hf
      exact f.property

theorem own_cls (sd : SessionDescriptionImpl g) (c : FieldClass) : ∀ f ∈ sd.own c, g.cls f = c := by
  intro f hf
  cases c <;> first
    | exact absurd hf List.not_mem_nil
    | obtain ⟨f, -, rfl⟩ := List.mem_map.1 hf
      exact f.property

theorem shown_of_none (h : c.opener = none) (ht : c ≠ .time) (hm : c ≠ .media) :
    sd.shown c = sd.own c := by
  obtain ⟨htime, hmedia⟩ := follows_of_none h ht hm
  rw [SessionDescriptionImpl.shown, htime, hmedia]
  simp only [Bool.false_eq_true, if_false, List.append_nil]

theorem shown_of_media (h : c.opener = some .media) :
    sd.shown c = sd.own c ++ join (·.mediaField.val) (·.part c) sd.mediaDescriptions := by
  obtain ⟨htime, hmedia⟩ := follows_of_media h
  rw [SessionDescriptionImpl.shown, htime, if_pos hmedia]
  simp only [Bool.false_eq_true, if_false, List.append_nil]

/-- The sections of a class of media descriptions. -/
theorem own_part_inj (hc : c.opener = some .media) (h : sd.shown c = sd'.shown c) :
    sd.own c = sd'.own c ∧
      sd.mediaDescriptions.map (fun m => (m.mediaField.val, m.part c)) =
        sd'.mediaDescriptions.map fun m => (m.mediaField.val, m.part c) := by
  have hne : c ≠ .media := by
    rintro rfl
    cases hc
  rw [shown_of_media hc, shown_of_media hc] at h
  refine join_inj (p := fun f => g.cls f = .media) (fun m => m.mediaField.property) ?_ ?_ ?_ h
  · intro m f hf hm
    exact hne ((part_cls m c f hf).symm.trans hm)
  · intro f hf hm
    exact hne ((own_cls sd c f hf).symm.trans hm)
  · intro f hf hm
    exact hne ((own_cls sd' c f hf).symm.trans hm)

theorem timeDescriptions_inj (h : sd.shown .repeat = sd'.shown .repeat) :
    sd.timeDescriptions = sd'.timeDescriptions := by
  have hshown (sd : SessionDescriptionImpl g) : sd.shown .repeat =
      [] ++ join (·.timeImpl.val) (fun t => vals t.repeatList) sd.timeDescriptions :=
    List.append_nil _
  have htail : ∀ t : TimeDescriptionImpl g, ∀ f ∈ vals t.repeatList, g.cls f ≠ .time := by
    intro t f hf
    obtain ⟨f, -, rfl⟩ := List.mem_map.1 hf
    rw [f.property]
    decide
  have hnil : ∀ f ∈ ([] : List F), g.cls f ≠ .time := fun _ hf => absurd hf List.not_mem_nil
  rw [hshown, hshown] at h
  obtain ⟨-, hmap⟩ := join_inj (fun t => t.timeImpl.property) htail hnil hnil h
  refine List.map_injective_iff.2 ?_ hmap
  intro t t' heq
  obtain ⟨htime, hrepeat⟩ := Prod.mk.inj heq
  exact TimeDescriptionImpl.ext (Subtype.ext htime) (vals_inj hrepeat)

theorem mediaDescriptions_inj
    (h : ∀ c : FieldClass, c.opener = some .media → sd.shown c = sd'.shown c) :
    sd.mediaDescriptions = sd'.mediaDescriptions := by
  have : Nonempty { c : FieldClass // c.opener = some .media } := ⟨⟨.key, rfl⟩⟩
  have hview (m m' : MediaDescriptionImpl g)
      (heq : ∀ c : { c : FieldClass // c.opener = some .media },
        (m.mediaField.val, m.part c.val) = (m'.mediaField.val, m'.part c.val)) : m = m' := by
    have hpart (c : FieldClass) (hc : c.opener = some .media) : m.part c = m'.part c :=
      (Prod.mk.inj (heq ⟨c, hc⟩)).2
    refine MediaDescriptionImpl.ext ?_ ?_ ?_ ?_ ?_ ?_
    · exact Subtype.ext (Prod.mk.inj (heq ⟨.key, rfl⟩)).1
    · exact vals_toList_inj (hpart .information rfl)
    · exact vals_toList_inj (hpart .connection rfl)
    · exact vals_inj (hpart .bandwidth rfl)
    · exact vals_toList_inj (hpart .key rfl)
    · exact vals_inj (hpart .attribute rfl)
  exact eq_of_map hview fun c => (own_part_inj c.2 (h _ c.2)).2

/-- A description is what it shows of each class. -/
theorem shown_inj (h : ∀ c, sd.shown c = sd'.shown c) : sd = sd' := by
  have hown (c : FieldClass) (ht : c ≠ .time) (hr : c ≠ .repeat) (hm : c ≠ .media) :
      sd.own c = sd'.own c := by
    rcases ho : c.opener with _ | d
    · rw [← shown_of_none ho ht hm, ← shown_of_none ho ht hm, h]
    · have hd : d = .media := by cases c <;> cases ho <;> first | rfl | exact absurd rfl hr
      exact (own_part_inj (hd ▸ ho) (h c)).1
  refine SessionDescriptionImpl.ext ?_ ?_ ?_ ?_ ?_ ?_ ?_ ?_ ?_ (timeDescriptions_inj (h _)) ?_ ?_
    ?_ (mediaDescriptions_inj fun c _ => h c)
  · exact vals_toList_inj (hown .protoVersion (by decide) (by decide) (by decide))
  · exact vals_toList_inj (hown .origin (by decide) (by decide) (by decide))
  · exact vals_toList_inj (hown .sessionName (by decide) (by decide) (by decide))
  · exact vals_toList_inj (hown .information (by decide) (by decide) (by decide))
  · exact vals_toList_inj (hown .uri (by decide) (by decide) (by decide))
  · exact vals_inj (hown .email (by decide) (by decide) (by decide))
  · exact vals_inj (hown .phone (by decide) (by decide) (by decide))
  · exact vals_toList_inj (hown .connection (by decide) (by decide) (by decide))
  · exact vals_inj (hown .bandwidth (by decide) (by decide) (by decide))
  · exact vals_inj (hown .zone (by decide) (by decide) (by decide))
  · exact vals_toList_inj (hown .key (by decide) (by decide) (by decide))
  · exact vals_inj (hown .attribute (by decide) (by decide) (by decide))

end

/-! ## Nothing that is shown is replaced -/

section
variable {c : FieldClass} {sd : SessionDescriptionImpl g}

theorem length_vals_toList (o : Option (g.Of c)) : (vals o.toList).length ≤ 1 := by
  cases o <;> simp [vals]

/-- A class of which a section has one field. -/
theorem length_own (hc : c.single = true) : (sd.own c).length ≤ 1 := by
  cases c <;> first | exact absurd hc Bool.false_ne_true | exact length_vals_toList _

theorem length_part (hc : c.single = true) (m : MediaDescriptionImpl g) :
    (m.part c).length ≤ 1 := by
  cases c <;> first
    | exact absurd hc Bool.false_ne_true
    | exact length_vals_toList _
    | exact Nat.zero_le 1

theorem settle_shown (c : FieldClass) : settle (g.replaces c) (sd.shown c) = sd.shown c := by
  by_cases hc : c.single = true
  · have hne : c ≠ .time ∧ c ≠ .repeat ∧ c ≠ .media := by
      refine ⟨?_, ?_, ?_⟩ <;> rintro rfl <;> cases hc
    have hown : settle (g.replaces c) (sd.own c) = sd.own c := settle_of_length (length_own hc)
    rcases ho : c.opener with _ | d
    · rwa [shown_of_none ho hne.1 hne.2.2]
    · have hd : d = .media := by
        cases c <;> cases ho <;> first | rfl | exact absurd rfl hne.2.1
      rw [shown_of_media (hd ▸ ho)]
      refine settle_join hown (fun m => ?_) (length_part hc)
      rw [Fields.replaces, m.mediaField.property, decide_eq_false hne.2.2.symm, Bool.and_false]
  · refine settle_of_false fun f _ => ?_
    rw [Fields.replaces, Bool.eq_false_of_not_eq_true hc, Bool.false_and]

/-- The repeat fields of a description are behind its time fields. -/
theorem timed_fields (sd : SessionDescriptionImpl g) : g.Timed sd.fields := by
  intro f hf
  rw [track_fields] at hf
  have hshown : sd.shown .repeat =
      join (·.timeImpl.val) (fun t => vals t.repeatList) sd.timeDescriptions := List.append_nil _
  rw [hshown] at hf
  rcases htimes : sd.timeDescriptions with _ | ⟨t, times⟩
  · rw [htimes] at hf
    cases hf
  · rw [htimes, join_cons, List.head?_cons, Option.mem_some_iff] at hf
    rw [← hf, t.timeImpl.property]

end

/-! ## Reading -/

section
variable {sd : SessionDescriptionImpl g} {fields : List F} {lines : List Str}

/-- The fields make this description. -/
def SessionDescriptionImpl.MadeOf (sd : SessionDescriptionImpl g) (fields : List F) : Prop :=
  g.Timed fields ∧ ∀ c, g.track c sd.fields = settle (g.replaces c) (g.track c fields)

theorem madeOf_iff :
    sd.MadeOf fields ↔ fields.foldlM SessionDescriptionImpl.addField {} = .ok sd := by
  have hempty (c : FieldClass) : ({} : SessionDescriptionImpl g).shown c = [] := by
    cases c <;> rfl
  have hshown {sd' : SessionDescriptionImpl g}
      (h : fields.foldlM SessionDescriptionImpl.addField {} = .ok sd') (c : FieldClass) :
      sd'.shown c = settle (g.replaces c) (g.track c fields) := by
    rw [shown_foldlM h, hempty, settle]
  constructor
  · rintro ⟨htimed, htrack⟩
    obtain ⟨sd', h⟩ := foldlM_ok_iff.2 (Or.inr htimed)
    have heq : sd = sd' := shown_inj fun c => by rw [← track_fields, htrack, hshown h]
    rwa [heq]
  · intro h
    have htimed := foldlM_ok_iff.1 ⟨sd, h⟩
    refine ⟨htimed.resolve_left (fun hne => hne rfl), fun c => ?_⟩
    rw [track_fields, hshown h]

/-- The fields of a description make it. -/
theorem madeOf_fields (sd : SessionDescriptionImpl g) : sd.MadeOf sd.fields := by
  refine ⟨timed_fields sd, fun c => ?_⟩
  rw [track_fields, settle_shown]

/-- The parser reads all lines, and makes the description of the fields. -/
theorem parse_ok_iff : parse g (lines.map some) = .ok sd ↔
    ∃ fields, List.Forall₂ (fun line f => g.parseField line = .ok f) lines fields ∧
      sd.MadeOf fields := by
  have hfold (sd₀ : SessionDescriptionImpl g) : (lines.map some).foldlM (fun retval field => do
        retval.addField (← g.parseField (← nonNull field))) sd₀ = .ok sd ↔
      ∃ fields, List.Forall₂ (fun line f => g.parseField line = .ok f) lines fields ∧
        fields.foldlM SessionDescriptionImpl.addField sd₀ = .ok sd := by
    induction lines generalizing sd₀ with
    | nil =>
      constructor
      · exact fun h => ⟨[], .nil, h⟩
      · rintro ⟨fields, hf, h⟩
        cases hf
        exact h
    | cons line lines ih =>
      rw [List.map_cons, List.foldlM_cons]
      constructor
      · intro h
        obtain ⟨sd₁, h₁, h₂⟩ := bind_eq_ok.1 h
        obtain ⟨line', hline, h₁⟩ := bind_eq_ok.1 h₁
        obtain ⟨f, hf, hadd⟩ := bind_eq_ok.1 h₁
        cases hline
        obtain ⟨fields, hfields, hrest⟩ := (ih sd₁).1 h₂
        refine ⟨f :: fields, .cons hf hfields, ?_⟩
        rw [List.foldlM_cons, hadd]
        exact hrest
      · rintro ⟨fields, hf, h⟩
        cases hf with
        | @cons _ f _ fields hf hfields =>
          rw [List.foldlM_cons] at h
          obtain ⟨sd₁, hadd, hrest⟩ := bind_eq_ok.1 h
          refine bind_eq_ok.2 ⟨sd₁, ?_, (ih sd₁).2 ⟨fields, hfields, hrest⟩⟩
          exact bind_eq_ok.2 ⟨line, rfl, bind_eq_ok.2 ⟨f, hf, hadd⟩⟩
  simp only [madeOf_iff]
  exact hfold {}

end

/-! ## Messages -/

/-- **Reading.**  A description is returned for a message exactly if all its lines are read, no
    repeat field is before all time fields, and the description is made of the fields. -/
theorem announce_ok_iff (g : Fields F) (message : Str) :
    ((∀ turns, announce g message turns = none) ↔ trim message = []) ∧
      ∀ sd, (∃ turns, announce g message turns = some (.ok sd)) ↔
        trim message ≠ [] ∧ ∃ lines fields,
          Split '\r' '\n' (trim message ++ ['\r', '\n']) lines ∧
          List.Forall₂ (fun line f => g.parseField line = .ok f) lines fields ∧
          sd.MadeOf fields := by
  obtain ⟨hforever, hlines⟩ := SDPAnnounceParser_lines message
  constructor
  · simp only [announce, Option.map_eq_none_iff, hforever]
  · intro sd
    constructor
    · rintro ⟨turns, h⟩
      obtain ⟨sdpMessage, hmessage, hparse⟩ := Option.map_eq_some_iff.1 h
      obtain ⟨hne, lines, rfl, hsplit⟩ := (hlines sdpMessage).1 ⟨turns, hmessage⟩
      obtain ⟨fields, hfields, hmade⟩ := parse_ok_iff.1 hparse
      exact ⟨hne, lines, fields, hsplit, hfields, hmade⟩
    · rintro ⟨hne, lines, fields, hsplit, hfields, hmade⟩
      obtain ⟨turns, hmessage⟩ := (hlines _).2 ⟨hne, lines, rfl, hsplit⟩
      refine ⟨turns, ?_⟩
      rw [announce, hmessage, Option.map_some, parse_ok_iff.2 ⟨fields, hfields, hmade⟩]

/-- A field whose text is a line that is read as this field. -/
structure Fields.Legible (g : Fields F) (f : F) (line : Str) : Prop where
  oneLine : Line '\r' '\n' line
  encode : g.encode f = line ++ ['\r', '\n']
  read : g.parseField line = .ok f

theorem equals_of_parseField {f : F} {line : Str} (h : g.parseField line = .ok f) : '=' ∈ line := by
  by_contra hnot
  have hname : getFieldName line = none := if_neg hnot
  rw [Fields.parseField, hname] at h
  cases h

theorem exists_lines {fields : List F} (h : ∀ f ∈ fields, ∃ line, g.Legible f line) :
    ∃ lines, List.Forall₂ (fun line f => g.Legible f line) lines fields := by
  induction fields with
  | nil => exact ⟨[], .nil⟩
  | cons f fields ih =>
    obtain ⟨⟨line, hline⟩, hrest⟩ := List.forall_mem_cons.1 h
    obtain ⟨lines, hlines⟩ := ih hrest
    exact ⟨line :: lines, .cons hline hlines⟩

/-- The text of legible fields is that of their lines. -/
theorem encode_lines {fields : List F} {lines : List Str}
    (h : List.Forall₂ (fun line f => g.Legible f line) lines fields) :
    fields.flatMap g.encode = lines.flatMap (· ++ ['\r', '\n']) := by
  induction h with
  | nil => rfl
  | cons hline _ ih => rw [List.flatMap_cons, List.flatMap_cons, hline.encode, ih]

/-- **Round trip.**  A description with legible fields is read again from its own text, if no blanks
    are lost at the ends of that. -/
theorem announce_toString {sd : SessionDescriptionImpl g}
    (hfields : ∀ f ∈ sd.fields, ∃ line, g.Legible f line)
    (hblank : trim sd.toString ++ ['\r', '\n'] = sd.toString) :
    ∃ turns, announce g sd.toString turns = some (.ok sd) := by
  obtain ⟨lines, hlines⟩ := exists_lines hfields
  obtain ⟨hall, hread⟩ :=
    (List.forall₂_and_left (p := fun line => Line '\r' '\n' line ∧ '=' ∈ line) lines sd.fields).1
      (hlines.imp fun line f h => ⟨⟨h.oneLine, equals_of_parseField h.read⟩, h.read⟩)
  have htext : sd.toString = lines.flatMap (· ++ ['\r', '\n']) := by
    rw [toString_eq, encode_lines hlines]
  have hsplit : Split '\r' '\n' (trim sd.toString ++ ['\r', '\n']) lines := by
    rw [hblank, htext]
    exact split_flatMap (by decide) fun line h => (hall line h).1
  have hne : trim sd.toString ≠ [] := by
    intro hnil
    rw [hnil, List.nil_append, htext] at hblank
    rcases lines with _ | ⟨line, lines⟩
    · cases hblank
    · have hmem : '=' ∈ ['\r', '\n'] := by
        rw [hblank, List.flatMap_cons, List.append_assoc]
        exact List.mem_append_left _ (hall line List.mem_cons_self).2
      exact absurd hmem (by decide)
  obtain ⟨turns, hmessage⟩ := ((SDPAnnounceParser_lines sd.toString).2 (lines.map some)).2
    ⟨hne, lines, rfl, hsplit⟩
  refine ⟨turns, ?_⟩
  rw [announce, hmessage, Option.map_some, parse_ok_iff.2 ⟨_, hread, madeOf_fields sd⟩]

/-! ## Fields that are the texts behind their names -/

def FieldClass.letter : FieldClass → Char
  | .protoVersion => 'v'
  | .origin => 'o'
  | .sessionName => 's'
  | .information => 'i'
  | .uri => 'u'
  | .email => 'e'
  | .phone => 'p'
  | .connection => 'c'
  | .bandwidth => 'b'
  | .time => 't'
  | .repeat => 'r'
  | .zone => 'z'
  | .key => 'k'
  | .attribute => 'a'
  | .media => 'm'

def texts : Fields (FieldClass × Str) where
  cls := Prod.fst
  encode f := f.1.letter :: '=' :: (f.2 ++ ['\r', '\n'])
  parse c line := .ok ⟨(c, line.drop 2), rfl⟩
  toLowerCase := List.map Char.toLower

theorem texts_legible {f : FieldClass × Str} (h : Line '\r' '\n' f.2) :
    texts.Legible f (f.1.letter :: '=' :: f.2) := by
  obtain ⟨c, text⟩ := f
  have hnot (d : Char) (hd : d ∉ text) (hc : d ≠ c.letter) (he : d ≠ '=') :
      d ∉ c.letter :: '=' :: text := by
    simp [hd, hc, he]
  refine ⟨⟨hnot _ h.left ?_ (by decide), hnot _ h.right ?_ (by decide)⟩, rfl, ?_⟩
  · cases c <;> decide
  · cases c <;> decide
  · have hname : getFieldName (c.letter :: '=' :: text) = some [c.letter] := by
      rw [getFieldName, if_pos (by simp), List.takeWhile_cons_of_pos (by cases c <;> decide)]
      rfl
    have htable : parserTable (texts.toLowerCase [c.letter]) = some c := by cases c <;> rfl
    refine bind_eq_ok.2 ⟨[c.letter], by rw [hname]; rfl, ?_⟩
    simp only [htable]
    rfl

/-- A description of one audio stream. -/
def audioDescription : SessionDescriptionImpl texts where
  versionImpl := some ⟨(.protoVersion, "0".toList), rfl⟩
  sessionNameImpl := some ⟨(.sessionName, "call".toList), rfl⟩
  timeDescriptions := [{ timeImpl := ⟨(.time, "0 0".toList), rfl⟩ }]
  mediaDescriptions := [{
    mediaField := ⟨(.media, "audio 5004 RTP/AVP 0".toList), rfl⟩
    attributeFields := [⟨(.attribute, "sendrecv".toList), rfl⟩] }]

theorem announce_toString_audio :
    ∃ turns, announce texts audioDescription.toString turns = some (.ok audioDescription) := by
  refine announce_toString (fun f hf => ⟨_, texts_legible ?_⟩) (by decide)
  have hends : ∀ f ∈ audioDescription.fields, '\r' ∉ f.2 ∧ '\n' ∉ f.2 := by decide
  exact ⟨(hends f hf).1, (hends f hf).2⟩

end JaySip.Sdp
