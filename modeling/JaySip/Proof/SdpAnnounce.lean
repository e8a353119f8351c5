/-
  A session description is the fields of its text, each kept in the order of the text and in the
  section where it was.
-/
import JaySip.Blocks
import JaySip.Java.Exec
import JaySip.Proof.SdpLines

namespace JaySip.Sdp

open Java Blocks Lines

variable {F : Type} {g : Fields F}

/-! ## The fields of a description -/

/-- The fields of a class, as fields. -/
def vals {c : FieldClass} (fields : List (g.Of c)) : List F := fields.map (·.val)

def TimeDescriptionImpl.fields (timeDescriptions : List (TimeDescriptionImpl g)) : List F :=
  join (·.timeImpl.val) (fun t => vals t.repeatList) timeDescriptions

/-- The fields of a media description, behind its media field. -/
def MediaDescriptionImpl.rest (m : MediaDescriptionImpl g) : List F :=
  vals m.informationField.toList ++ vals m.connectionField.toList ++ vals m.bandwidthFields ++
    vals m.keyField.toList ++ vals m.attributeFields

/-- The fields of a description, in the order of `toString`. -/
def SessionDescriptionImpl.fields (sd : SessionDescriptionImpl g) : List F :=
  vals sd.versionImpl.toList ++ vals sd.originImpl.toList ++ vals sd.sessionNameImpl.toList ++
    vals sd.infoImpl.toList ++ vals sd.uriImpl.toList ++ vals sd.emailList ++ vals sd.phoneList ++
    vals sd.connectionImpl.toList ++ vals sd.bandwidthList ++
    TimeDescriptionImpl.fields sd.timeDescriptions ++ vals sd.zoneAdjustments ++
    vals sd.keyImpl.toList ++ vals sd.attributesList ++
    join (·.mediaField.val) MediaDescriptionImpl.rest sd.mediaDescriptions

section
variable {c : FieldClass}

theorem encodeVector_eq (l : List (g.Of c)) : encodeVector l = (vals l).flatMap g.encode := by
  rw [encodeVector, vals, List.flatMap_map]

theorem encodeOption_eq (f : Option (g.Of c)) :
    encodeOption f = (vals f.toList).flatMap g.encode := by
  cases f with
  | none => rfl
  | some f => exact (List.append_nil _).symm

theorem toString_flatMap (l : List (TimeDescriptionImpl g)) :
    l.flatMap TimeDescriptionImpl.toString =
      (TimeDescriptionImpl.fields l).flatMap g.encode := by
  induction l with
  | nil => rfl
  | cons t l ih =>
    rw [List.flatMap_cons, ih, TimeDescriptionImpl.toString, encodeVector_eq,
      TimeDescriptionImpl.fields, TimeDescriptionImpl.fields, join_cons, List.flatMap_cons,
      List.flatMap_append, List.append_assoc]

theorem encode_flatMap (l : List (MediaDescriptionImpl g)) :
    l.flatMap MediaDescriptionImpl.encode =
      (join (·.mediaField.val) MediaDescriptionImpl.rest l).flatMap g.encode := by
  induction l with
  | nil => rfl
  | cons m l ih =>
    rw [List.flatMap_cons, ih, MediaDescriptionImpl.encode, join_cons, List.flatMap_cons,
      List.flatMap_append, MediaDescriptionImpl.rest]
    simp only [encodeOption_eq, encodeVector_eq, List.flatMap_append, List.append_assoc]

/-- The text of a description is that of its fields. -/
theorem toString_eq (sd : SessionDescriptionImpl g) :
    sd.toString = sd.fields.flatMap g.encode := by
  rw [SessionDescriptionImpl.toString, SessionDescriptionImpl.fields]
  simp only [List.flatMap_append, encodeOption_eq, encodeVector_eq, toString_flatMap,
    encode_flatMap]

end

/-! ## Sections -/

/-- The class of the fields that open the sections where a class is looked up. -/
def FieldClass.opener : FieldClass → Option FieldClass
  | .repeat => some .time
  | .information | .connection | .bandwidth | .key | .attribute => some .media
  | .protoVersion | .origin | .sessionName | .uri | .email | .phone | .time | .zone | .media => none

/-- A field of the class, or one that opens a section for it. -/
def FieldClass.follows (c d : FieldClass) : Bool := d = c || c.opener = some d

/-- A section has one field of the class. -/
def FieldClass.single : FieldClass → Bool
  | .protoVersion | .origin | .sessionName | .information | .uri | .connection | .key => true
  | .email | .phone | .bandwidth | .time | .repeat | .zone | .attribute | .media => false

/-- The fields of a class, between those that open the sections. -/
def Fields.track (g : Fields F) (c : FieldClass) (fields : List F) : List F :=
  fields.filter fun f => c.follows (g.cls f)

/-- A field that replaces another one of its section. -/
def Fields.replaces (g : Fields F) (c : FieldClass) (f : F) : Bool := c.single && g.cls f = c

/-- The fields of a class in no section of their own. -/
def SessionDescriptionImpl.own (sd : SessionDescriptionImpl g) : FieldClass → List F
  | .protoVersion => vals sd.versionImpl.toList
  | .origin => vals sd.originImpl.toList
  | .sessionName => vals sd.sessionNameImpl.toList
  | .information => vals sd.infoImpl.toList
  | .uri => vals sd.uriImpl.toList
  | .email => vals sd.emailList
  | .phone => vals sd.phoneList
  | .connection => vals sd.connectionImpl.toList
  | .bandwidth => vals sd.bandwidthList
  | .zone => vals sd.zoneAdjustments
  | .key => vals sd.keyImpl.toList
  | .attribute => vals sd.attributesList
  | .time | .repeat | .media => []

/-- The fields of a class in a time description. -/
def TimeDescriptionImpl.part (t : TimeDescriptionImpl g) : FieldClass → List F
  | .repeat => vals t.repeatList
  | _ => []

/-- The fields of a class in a media description. -/
def MediaDescriptionImpl.part (m : MediaDescriptionImpl g) : FieldClass → List F
  | .information => vals m.informationField.toList
  | .connection => vals m.connectionField.toList
  | .bandwidth => vals m.bandwidthFields
  | .key => vals m.keyField.toList
  | .attribute => vals m.attributeFields
  | _ => []

/-- The fields of a class, with those that open their sections. -/
def SessionDescriptionImpl.shown (sd : SessionDescriptionImpl g) (c : FieldClass) : List F :=
  sd.own c ++
    (if c.follows .time then join (·.timeImpl.val) (·.part c) sd.timeDescriptions else []) ++
    (if c.follows .media then join (·.mediaField.val) (·.part c) sd.mediaDescriptions else [])

section
variable {c d : FieldClass}

@[simp] theorem track_append (l l' : List F) : g.track c (l ++ l') = g.track c l ++ g.track c l' :=
  List.filter_append _ _

theorem track_cons_of_pos {f : F} (h : c.follows (g.cls f) = true) (l : List F) :
    g.track c (f :: l) = f :: g.track c l := List.filter_cons_of_pos h

theorem track_cons_of_neg {f : F} (h : ¬c.follows (g.cls f) = true) (l : List F) :
    g.track c (f :: l) = g.track c l := List.filter_cons_of_neg h

theorem track_vals (l : List (g.Of d)) :
    g.track c (vals l) = if c.follows d then vals l else [] := by
  have hcls : ∀ f ∈ vals l, g.cls f = d := by
    rintro f hf
    obtain ⟨f, -, rfl⟩ := List.mem_map.1 hf
    exact f.property
  split
  · next h => exact List.filter_eq_self.2 fun f hf => by rw [hcls f hf, h]
  · next h => exact List.filter_eq_nil_iff.2 fun f hf => by rwa [hcls f hf]

theorem track_join {β : Type} {head : β → F} {tail : β → List F}
    (hhead : ∀ b, g.cls (head b) = d)
    (htail : c.follows d = false → ∀ b, g.track c (tail b) = []) (l : List β) :
    g.track c (join head tail l) =
      if c.follows d then join head (fun b => g.track c (tail b)) l else [] := by
  split
  · next h => exact filter_join_of_pos (fun b => by rw [hhead, h]) l
  · next h =>
    rw [Bool.not_eq_true] at h
    exact filter_join_of_neg (fun b => by rw [hhead, h]) (htail h) l

theorem track_rest (m : MediaDescriptionImpl g) (c : FieldClass) :
    g.track c m.rest = m.part c := by
  rw [MediaDescriptionImpl.rest]
  simp only [track_append, track_vals]
  cases c <;> simp [FieldClass.follows, FieldClass.opener, MediaDescriptionImpl.part]

theorem track_repeats (t : TimeDescriptionImpl g) (c : FieldClass) :
    g.track c (vals t.repeatList) = t.part c := by
  rw [track_vals]
  cases c <;> rfl

/-- What `toString` shows of a class. -/
theorem track_fields (sd : SessionDescriptionImpl g) (c : FieldClass) :
    g.track c sd.fields = sd.shown c := by
  have htimes : g.track c (TimeDescriptionImpl.fields sd.timeDescriptions) =
      if c.follows .time then join (·.timeImpl.val) (·.part c) sd.timeDescriptions else [] := by
    rw [TimeDescriptionImpl.fields, track_join fun t => t.timeImpl.property]
    · simp only [track_repeats]
    · intro h t
      rw [track_repeats]
      cases c <;> first | rfl | cases h
  have hmedias : g.track c (join (·.mediaField.val) MediaDescriptionImpl.rest
      sd.mediaDescriptions) =
      if c.follows .media then join (·.mediaField.val) (·.part c) sd.mediaDescriptions
      else [] := by
    rw [track_join fun m => m.mediaField.property]
    · simp only [track_rest]
    · intro h m
      rw [track_rest]
      cases c <;> first | rfl | cases h
  rw [SessionDescriptionImpl.fields, SessionDescriptionImpl.shown]
  simp only [track_append, htimes, hmedias, track_vals]
  cases c <;> simp [FieldClass.follows, FieldClass.opener, SessionDescriptionImpl.own]

/-! ## Adding a field -/

/-- A field of the description itself that is there once. -/
theorem put_option {f : F} (h : g.cls f = c) (hc : c.single = true) (o : Option (g.Of c)) :
    vals (some ⟨f, h⟩ : Option (g.Of c)).toList = put (g.replaces c) (vals o.toList) f := by
  cases o with
  | none => exact put_nil.symm
  | some e =>
    have hf : g.replaces c f = true := by rw [Fields.replaces, hc, h]; simp
    have he : g.replaces c e.val = true := by rw [Fields.replaces, hc, e.property]; simp
    exact (put_concat (l := []) hf he).symm

/-- The same in a section. -/
theorem put_cons_option {f m : F} (h : g.cls f = c) (hc : c.single = true) (hm : g.cls m ≠ c)
    (o : Option (g.Of c)) :
    m :: vals (some ⟨f, h⟩ : Option (g.Of c)).toList =
      put (g.replaces c) (m :: vals o.toList) f := by
  have hm' : g.replaces c m = false := by rw [Fields.replaces]; simp [hm]
  cases o with
  | none => exact (put_concat_of_false (l := []) hm').symm
  | some e =>
    rw [put_option h hc (some e)]
    exact (put_append (l := [m]) (List.cons_ne_nil _ _)).symm

theorem put_of_not_single {f : F} (hf : (g.cls f).single = false) (l : List F) :
    put (g.replaces c) l f = l ++ [f] := by
  refine put_of_false ?_
  rw [Fields.replaces]
  by_cases hc : g.cls f = c
  · rw [← hc, hf, Bool.false_and]
  · rw [decide_eq_false hc, Bool.and_false]

theorem put_vals {f : F} (h : g.cls f = c) (hc : c.single = false) (l : List (g.Of c)) :
    vals (l ++ [⟨f, h⟩]) = put (g.replaces c) (vals l) f := by
  rw [put_of_not_single (h ▸ hc)]
  exact List.map_append

section
variable {f : F} {sd sd' : SessionDescriptionImpl g}

theorem follows_self (c : FieldClass) : c.follows c = true := by
  cases c <;> rfl

/-- A class without sections. -/
theorem follows_of_none (h : c.opener = none) (ht : c ≠ .time) (hm : c ≠ .media) :
    c.follows .time = false ∧ c.follows .media = false := by
  rw [FieldClass.follows, FieldClass.follows, h, decide_eq_false ht.symm, decide_eq_false hm.symm]
  exact ⟨rfl, rfl⟩

/-- A class that a media description can have. -/
theorem follows_of_media (h : c.opener = some .media) :
    c.follows .time = false ∧ c.follows .media = true := by
  cases c <;> first | exact ⟨rfl, rfl⟩ | cases h

/-- A field that opens no section. -/
theorem follows_iff (hd : d ≠ .time) (hd' : d ≠ .media) : c.follows d = true ↔ c = d := by
  cases c <;> cases d <;> first | decide | exact absurd rfl hd | exact absurd rfl hd'

/-- A field of the last media description. -/
theorem shown_inMedia {change : MediaDescriptionImpl g → MediaDescriptionImpl g}
    (hf : g.cls f = d) (hd : d.opener = some .media) (hne : sd.mediaDescriptions ≠ [])
    (hhead : ∀ m, (change m).mediaField = m.mediaField)
    (hpart : ∀ m c, c ≠ d → (change m).part c = m.part c)
    (hput : ∀ m : MediaDescriptionImpl g, m.mediaField.val :: (change m).part d =
      put (g.replaces d) (m.mediaField.val :: m.part d) f) (c : FieldClass) :
    (sd.inMedia change).shown c =
      if c.follows (g.cls f) then put (g.replaces c) (sd.shown c) f else sd.shown c := by
  rw [hf]
  by_cases hc : c = d
  · subst hc
    obtain ⟨htime, hmedia⟩ := follows_of_media hd
    rw [if_pos (follows_self c), SessionDescriptionImpl.shown, SessionDescriptionImpl.shown,
      if_pos hmedia, if_pos hmedia, htime]
    refine put_join hne fun m => ?_
    rw [hhead, hput]
  · have hfollows : c.follows d = false := by
      rw [← Bool.not_eq_true, follows_iff]
      · exact hc
      · rintro rfl
        cases hd
      · rintro rfl
        cases hd
    have hjoin : join (·.mediaField.val) (·.part c) (sd.mediaDescriptions.modifyLast change) =
        join (·.mediaField.val) (·.part c) sd.mediaDescriptions :=
      join_modifyLast_of_eq _ fun m => ⟨by rw [hhead], hpart m c hc⟩
    have hmedias : (sd.inMedia change).mediaDescriptions =
        sd.mediaDescriptions.modifyLast change := rfl
    rw [hfollows, if_neg Bool.false_ne_true, SessionDescriptionImpl.shown, hmedias, hjoin]
    rfl

/-- A field in no section. -/
theorem shown_own (hf : g.cls f = d) (hd : d ≠ .time) (hd' : d ≠ .media)
    (htimes : sd'.timeDescriptions = sd.timeDescriptions)
    (hmedias : sd'.mediaDescriptions = sd.mediaDescriptions)
    (hfree : d.opener = none ∨ d.opener = some .media ∧ sd.mediaDescriptions = [])
    (hrest : ∀ c, c ≠ d → sd'.own c = sd.own c)
    (hput : sd'.own d = put (g.replaces d) (sd.own d) f) (c : FieldClass) :
    sd'.shown c =
      if c.follows (g.cls f) then put (g.replaces c) (sd.shown c) f else sd.shown c := by
  rw [hf, SessionDescriptionImpl.shown, SessionDescriptionImpl.shown, htimes, hmedias]
  by_cases hc : c = d
  · subst hc
    have htime : c.follows .time = false := by
      rcases hfree with h | ⟨h, -⟩
      · exact (follows_of_none h hd hd').1
      · exact (follows_of_media h).1
    have hmedia : (if c.follows .media then
        join (·.mediaField.val) (·.part c) sd.mediaDescriptions else []) = [] := by
      rcases hfree with h | ⟨-, h⟩
      · rw [(follows_of_none h hd hd').2, if_neg Bool.false_ne_true]
      · rw [h, join_nil, ite_self]
    rw [hput, if_pos (follows_self c), hmedia, htime]
    simp only [Bool.false_eq_true, if_false, List.append_nil]
  · rw [hrest c hc, if_neg (mt (follows_iff hd hd').1 hc)]

/-- A new time description. -/
theorem shown_time (hf : g.cls f = .time) (c : FieldClass) :
    ({ sd with timeDescriptions := sd.timeDescriptions ++ [{ timeImpl := ⟨f, hf⟩ }] } :
      SessionDescriptionImpl g).shown c =
      if c.follows (g.cls f) then put (g.replaces c) (sd.shown c) f else sd.shown c := by
  rw [hf]
  split
  · next hc =>
    have hmedia : c.follows .media = false := by cases c <;> first | rfl | cases hc
    have hpart : ({ timeImpl := ⟨f, hf⟩ } : TimeDescriptionImpl g).part c = [] := by
      cases c <;> rfl
    rw [put_of_not_single (by rw [hf]; rfl), SessionDescriptionImpl.shown,
      SessionDescriptionImpl.shown, if_pos hc, if_pos hc, hmedia, join_append, join_cons, join_nil,
      hpart]
    simp only [Bool.false_eq_true, if_false, List.append_nil, List.append_assoc]
    rfl
  · next hc =>
    rw [SessionDescriptionImpl.shown, SessionDescriptionImpl.shown, if_neg hc, if_neg hc]
    rfl

/-- A new media description. -/
theorem shown_media (hf : g.cls f = .media) (c : FieldClass) :
    ({ sd with mediaDescriptions := sd.mediaDescriptions ++ [{ mediaField := ⟨f, hf⟩ }] } :
      SessionDescriptionImpl g).shown c =
      if c.follows (g.cls f) then put (g.replaces c) (sd.shown c) f else sd.shown c := by
  rw [hf]
  split
  · next hc =>
    have hpart : ({ mediaField := ⟨f, hf⟩ } : MediaDescriptionImpl g).part c = [] := by
      cases c <;> rfl
    rw [put_of_not_single (by rw [hf]; rfl), SessionDescriptionImpl.shown,
      SessionDescriptionImpl.shown, if_pos hc, if_pos hc, join_append, join_cons, join_nil, hpart]
    simp only [List.append_assoc]
    rfl
  · next hc =>
    rw [SessionDescriptionImpl.shown, SessionDescriptionImpl.shown, if_neg hc, if_neg hc]
    rfl

/-- A field of the last time description. -/
theorem shown_repeat (hf : g.cls f = .repeat) (hne : sd.timeDescriptions ≠ []) (c : FieldClass) :
    ({ sd with timeDescriptions := sd.timeDescriptions.modifyLast fun t =>
      { t with repeatList := t.repeatList ++ [⟨f, hf⟩] } } : SessionDescriptionImpl g).shown c =
      if c.follows (g.cls f) then put (g.replaces c) (sd.shown c) f else sd.shown c := by
  rw [hf]
  by_cases hc : c = .repeat
  · subst hc
    rw [if_pos (follows_self _)]
    refine (List.append_nil _).trans (Eq.trans ?_ (congrArg (put _ · f) (List.append_nil _).symm))
    refine put_join hne fun t => ?_
    rw [put_of_not_single (by rw [hf]; rfl)]
    exact congrArg (t.timeImpl.val :: ·) List.map_append
  · rw [if_neg (mt (follows_iff (by decide) (by decide)).1 hc), SessionDescriptionImpl.shown,
      SessionDescriptionImpl.shown]
    have hjoin : join (·.timeImpl.val) (·.part c) (sd.timeDescriptions.modifyLast fun t =>
        { t with repeatList := t.repeatList ++ [⟨f, hf⟩] }) =
        join (·.timeImpl.val) (·.part c) sd.timeDescriptions :=
      join_modifyLast_of_eq _ fun t => ⟨rfl, by cases c <;> first | rfl | exact absurd rfl hc⟩
    rw [hjoin]
    rfl

/-- What is shown of every class after a field was added. -/
theorem shown_addField (h : sd.addField f = .ok sd') (c : FieldClass) :
    sd'.shown c =
      if c.follows (g.cls f) then put (g.replaces c) (sd.shown c) f else sd.shown c := by
  rw [SessionDescriptionImpl.addField] at h
  split at h
  case h_1 | h_2 | h_3 | h_5 =>
    next hf =>
    cases h
    refine shown_own hf (by decide) (by decide) ?_ ?_ (Or.inl rfl) (fun c hc => ?_) ?_ c
    · rfl
    · rfl
    · cases c <;> first | rfl | exact absurd rfl hc
    · exact put_option hf rfl _
  case h_8 | h_9 | h_12 =>
    next hf =>
    cases h
    refine shown_own hf (by decide) (by decide) ?_ ?_ (Or.inl rfl) (fun c hc => ?_) ?_ c
    · rfl
    · rfl
    · cases c <;> first | rfl | exact absurd rfl hc
    · exact put_vals hf rfl _
  case h_4 | h_6 | h_7 =>
    next hf =>
    split at h
    · next hne =>
      cases h
      refine shown_inMedia hf rfl hne ?_ (fun m c hc => ?_) (fun m => ?_) c
      · exact fun m => rfl
      · cases c <;> first | rfl | exact absurd rfl hc
      · exact put_cons_option hf rfl (by rw [m.mediaField.property]; decide) _
    · next hnil =>
      cases h
      refine shown_own hf (by decide) (by decide) ?_ ?_ (Or.inr ⟨rfl, not_not.1 hnil⟩)
        (fun c hc => ?_) ?_ c
      · rfl
      · rfl
      · cases c <;> first | rfl | exact absurd rfl hc
      · exact put_option hf rfl _
  case h_13 | h_14 =>
    next hf =>
    split at h
    · next hne =>
      cases h
      refine shown_inMedia hf rfl hne ?_ (fun m c hc => ?_) (fun m => ?_) c
      · exact fun m => rfl
      · cases c <;> first | rfl | exact absurd rfl hc
      · rw [put_of_not_single (by rw [hf]; rfl)]
        exact congrArg (m.mediaField.val :: ·) List.map_append
    · next hnil =>
      cases h
      refine shown_own hf (by decide) (by decide) ?_ ?_ (Or.inr ⟨rfl, not_not.1 hnil⟩)
        (fun c hc => ?_) ?_ c
      · rfl
      · rfl
      · cases c <;> first | rfl | exact absurd rfl hc
      · exact put_vals hf rfl _
  case h_10 =>
    next hf =>
    cases h
    exact shown_time hf c
  case h_11 =>
    next hf =>
    split at h
    · cases h
    · next hne =>
      cases h
      exact shown_repeat hf hne c
  case h_15 =>
    next hf =>
    cases h
    exact shown_media hf c

end

end

/-! ## Adding many -/

/-- The first of the time and repeat fields is a time field. -/
def Fields.Timed (g : Fields F) (fields : List F) : Prop :=
  ∀ f ∈ (g.track .repeat fields).head?, g.cls f = .time

section
variable {f : F} {fields : List F} {sd sd' : SessionDescriptionImpl g}

theorem addField_ok_iff :
    (∃ sd', sd.addField f = .ok sd') ↔ (g.cls f = .repeat → sd.timeDescriptions ≠ []) := by
  rw [SessionDescriptionImpl.addField]
  split
  case h_11 =>
    next hf =>
    split
    · next h => simp [hf, h]
    · next h => simp [h]
  case h_4 | h_6 | h_7 | h_13 | h_14 =>
    next hf => split <;> simp [hf]
  all_goals
    next hf => simp [hf]

theorem times_addField (h : sd.addField f = .ok sd') :
    sd'.timeDescriptions ≠ [] ↔ sd.timeDescriptions ≠ [] ∨ g.cls f = .time := by
  have hnil (sd : SessionDescriptionImpl g) : sd.timeDescriptions = [] ↔ sd.shown .time = [] := by
    constructor
    · intro h
      rw [SessionDescriptionImpl.shown, h]
      rfl
    · intro h
      by_contra hne
      exact join_ne_nil hne (List.append_eq_nil_iff.1 (List.append_eq_nil_iff.1 h).1).2
  rw [ne_eq, ne_eq, hnil, hnil, shown_addField h]
  by_cases hf : g.cls f = .time
  · rw [hf, if_pos (follows_self _), put_of_not_single (by rw [hf]; rfl)]
    simp
  · have hfollows : FieldClass.time.follows (g.cls f) = false := by
      rw [FieldClass.follows, decide_eq_false hf]
      rfl
    rw [hfollows, if_neg Bool.false_ne_true]
    simp [hf]

theorem timed_cons :
    g.Timed (f :: fields) ↔ g.cls f = .time ∨ g.cls f ≠ .repeat ∧ g.Timed fields := by
  by_cases htime : g.cls f = .time
  · have hfollows : FieldClass.repeat.follows (g.cls f) = true := by rw [htime]; rfl
    rw [Fields.Timed, track_cons_of_pos hfollows, List.head?_cons]
    simp [htime]
  · by_cases hrepeat : g.cls f = .repeat
    · have hfollows : FieldClass.repeat.follows (g.cls f) = true := by rw [hrepeat]; rfl
      rw [Fields.Timed, track_cons_of_pos hfollows, List.head?_cons]
      simp [hrepeat]
    · have hfollows : FieldClass.repeat.follows (g.cls f) = false := by
        rw [FieldClass.follows, decide_eq_false hrepeat]
        exact decide_eq_false (by simp [FieldClass.opener, Ne.symm htime])
      rw [Fields.Timed, track_cons_of_neg (by rw [hfollows]; exact Bool.false_ne_true)]
      simp [htime, hrepeat, Fields.Timed]

/-- The only fields that are refused are repeat fields before any time field. -/
theorem foldlM_ok_iff :
    (∃ sd', fields.foldlM SessionDescriptionImpl.addField sd = .ok sd') ↔
      sd.timeDescriptions ≠ [] ∨ g.Timed fields := by
  induction fields generalizing sd with
  | nil =>
    refine ⟨fun _ => Or.inr fun f hf => ?_, fun _ => ⟨sd, rfl⟩⟩
    cases hf
  | cons f fields ih =>
    have hbind : (∃ sd', (f :: fields).foldlM SessionDescriptionImpl.addField sd = .ok sd') ↔
        ∃ sd₁, sd.addField f = .ok sd₁ ∧ (sd.timeDescriptions ≠ [] ∨ g.cls f = .time ∨
          g.Timed fields) := by
      constructor
      · rintro ⟨sd', h⟩
        obtain ⟨sd₁, h₁, h₂⟩ := bind_eq_ok.1 h
        refine ⟨sd₁, h₁, ?_⟩
        rw [← or_assoc, ← times_addField h₁, ← ih]
        exact ⟨sd', h₂⟩
      · rintro ⟨sd₁, h₁, h⟩
        rw [← or_assoc, ← times_addField h₁, ← ih] at h
        rw [List.foldlM_cons, h₁]
        exact h
    rw [hbind, exists_and_right, addField_ok_iff, timed_cons]
    by_cases htime : g.cls f = .time
    · simp [htime]
    · by_cases hrepeat : g.cls f = .repeat
      · simp +contextual [hrepeat]
      · simp [htime, hrepeat]

/-- What is shown of a class in the end. -/
theorem shown_foldlM (h : fields.foldlM SessionDescriptionImpl.addField sd = .ok sd')
    (c : FieldClass) :
    sd'.shown c = (g.track c fields).foldl (put (g.replaces c)) (sd.shown c) := by
  induction fields generalizing sd with
  | nil =>
    cases h
    rfl
  | cons f fields ih =>
    rw [List.foldlM_cons] at h
    obtain ⟨sd₁, h₁, h₂⟩ := bind_eq_ok.1 h
    rw [ih h₂, shown_addField h₁]
    by_cases hf : c.follows (g.cls f)
    · rw [if_pos hf, track_cons_of_pos hf, List.foldl_cons]
    · rw [if_neg hf, track_cons_of_neg hf]

end

end JaySip.Sdp
