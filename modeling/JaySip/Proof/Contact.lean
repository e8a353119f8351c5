/-
  The grammar of contacts, and what `SipContact.parse` makes of it.
-/
import JaySip.Java.Exec
import JaySip.Java.Split
import JaySip.Sip.Contact

namespace JaySip

open Java RegularExpression

/-! ## The grammar -/

/-- A phone number: a plus sign, a digit, and groups of a separator and a digit; the sign and
    the separators may be absent. -/
structure PhoneNumber where
  plus : Bool
  first : Char
  groups : List (Option Char × Char)
  first_digit : first.isDigit = true
  groups_ne : groups ≠ []
  separators : ∀ g ∈ groups, ∀ c ∈ g.1, c = '/' ∨ c = '-'
  digits : ∀ g ∈ groups, g.2.isDigit = true

/-- One group. -/
def groupText (g : Option Char × Char) : Str := g.1.toList ++ [g.2]

def PhoneNumber.text (n : PhoneNumber) : Str :=
  (if n.plus then ['+'] else []) ++ n.first :: n.groups.flatMap groupText

/-- The text writes a phone number. -/
def IsPhoneNumber (s : Str) : Prop := ∃ n : PhoneNumber, n.text = s

/-- The user of a text: what stands in front of the first '@'. -/
def userOf (s : Str) : Str := textBefore s '@'

/-- The domain of a text: what stands between the first '@' and the next, or the end. -/
def domainOf (s : Str) : Str := textBefore (textAfter s '@') '@'

/-- The text without its spaces. -/
def withoutSpaces (s : Str) : Str := s.filter (· ≠ ' ')

open Classical in
/-- The contact that a text without spaces denotes, for the domain of the local profile. -/
noncomputable def denoted (s localProfileDomain : Str) : Option SipContact :=
  if IsPhoneNumber s then some (.new s localProfileDomain false)
  else if '@' ∈ s ∧ userOf s ≠ [] ∧ domainOf s ≠ [] then some (.new (userOf s) (domainOf s) true)
  else none

/-! ## Phone numbers -/

theorem mem_separator {w : Str} :
    w ∈ (zeroOrOne (oneOf "/ -".toList)).matches' ↔
      ∃ o : Option Char, w = o.toList ∧ ∀ c ∈ o, c ∈ "/ -".toList := by
  rw [mem_zeroOrOne, mem_oneOf]
  constructor
  · rintro (rfl | ⟨c, hc, rfl⟩)
    · exact ⟨none, rfl, by simp⟩
    · exact ⟨some c, rfl, by simpa using hc⟩
  · rintro ⟨o, rfl, ho⟩
    cases o with
    | none => exact Or.inl rfl
    | some c => exact Or.inr ⟨c, ho c rfl, rfl⟩

/-- A group that the pattern accepts. -/
def GroupOK (g : Option Char × Char) : Prop := (∀ c ∈ g.1, c ∈ "/ -".toList) ∧ g.2.isDigit = true

theorem mem_group {w : Str} :
    w ∈ (zeroOrOne (oneOf "/ -".toList) * digits).matches' ↔
      ∃ g : Option Char × Char, w = groupText g ∧ GroupOK g := by
  rw [matches'_mul, Language.mem_mul]
  simp only [mem_separator, mem_digits]
  constructor
  · rintro ⟨_, ⟨o, rfl, ho⟩, _, ⟨c, hc, rfl⟩, rfl⟩
    exact ⟨(o, c), rfl, ho, hc⟩
  · rintro ⟨g, rfl, ho, hc⟩
    exact ⟨_, ⟨g.1, rfl, ho⟩, _, ⟨g.2, hc, rfl⟩, rfl⟩

/-- Words that are groups come from a list of groups. -/
theorem exists_groups {us : List Str}
    (h : ∀ v ∈ us, v ∈ (zeroOrOne (oneOf "/ -".toList) * digits).matches') :
    ∃ gs : List (Option Char × Char), us.flatten = gs.flatMap groupText ∧ ∀ g ∈ gs, GroupOK g := by
  induction us with
  | nil => exact ⟨[], rfl, by simp⟩
  | cons u us ih =>
    obtain ⟨gs, hus, hgs⟩ := ih fun v hv => h v (List.mem_cons_of_mem u hv)
    obtain ⟨g, rfl, hg⟩ := mem_group.1 (h u List.mem_cons_self)
    exact ⟨g :: gs, by rw [List.flatten_cons, hus, List.flatMap_cons],
      List.forall_mem_cons.2 ⟨hg, hgs⟩⟩

/-- The words of the pattern: an optional '+' or '0', a digit, and groups. -/
theorem mem_numberRegex {w : Str} : w ∈ numberRegex.matches' ↔
    ∃ p, (p = [] ∨ p = ['+'] ∨ p = ['0']) ∧
      ∃ (c : Char) (g : Option Char × Char) (gs : List (Option Char × Char)),
        w = p ++ c :: (g :: gs).flatMap groupText ∧ c.isDigit = true ∧
          ∀ h ∈ g :: gs, GroupOK h := by
  have hsign : ∀ p : Str, p ∈ (zeroOrOne (char '+' + char '0')).matches' ↔
      (p = [] ∨ p = ['+'] ∨ p = ['0']) := by
    intro p
    rw [mem_zeroOrOne, matches'_add, Language.mem_add, matches'_char, matches'_char]
    exact Iff.rfl
  rw [numberRegex, matches'_mul, Language.mem_mul]
  simp only [hsign, matches'_mul, Language.mem_mul (l := digits.matches'), mem_digits]
  constructor
  · rintro ⟨p, hp, _, ⟨_, ⟨c, hc, rfl⟩, v, hv, rfl⟩, rfl⟩
    obtain ⟨u, us, rfl, hu, hus⟩ := mem_oneOrMore.1 hv
    obtain ⟨g, rfl, hg⟩ := mem_group.1 hu
    obtain ⟨gs, hgs, hall⟩ := exists_groups hus
    exact ⟨p, hp, c, g, gs, by rw [hgs]; rfl, hc, List.forall_mem_cons.2 ⟨hg, hall⟩⟩
  · rintro ⟨p, hp, c, g, gs, rfl, hc, hall⟩
    refine ⟨p, hp, _, ⟨_, ⟨c, hc, rfl⟩, (g :: gs).flatMap groupText, ?_, rfl⟩, rfl⟩
    refine mem_oneOrMore.2 ⟨groupText g, gs.map groupText, ?_, ?_, ?_⟩
    · rw [List.flatMap_cons, List.flatMap_def]
    · exact mem_group.2 ⟨g, rfl, hall g List.mem_cons_self⟩
    · intro v hv
      obtain ⟨h, hh, rfl⟩ := List.mem_map.1 hv
      exact mem_group.2 ⟨h, rfl, hall h (List.mem_cons_of_mem g hh)⟩

/-- The characters of a group lie in its text. -/
theorem separator_mem {g : Option Char × Char} {gs : List (Option Char × Char)} {c : Char}
    (hg : g ∈ gs) (hc : c ∈ g.1) : c ∈ gs.flatMap groupText := by
  refine List.mem_flatMap.2 ⟨g, hg, ?_⟩
  rw [groupText, Option.mem_def.1 hc]
  exact List.mem_cons_self

/-- **Phone numbers.**  A text without spaces matches the pattern exactly if it writes a phone
    number: the digit 0 in front is a digit of the number. -/
theorem rmatch_numberRegex {s : Str} (hs : ' ' ∉ s) :
    numberRegex.rmatch s = true ↔ IsPhoneNumber s := by
  rw [rmatch_iff_matches', mem_numberRegex]
  constructor
  · rintro ⟨p, hp, c, g, gs, rfl, hc, hall⟩
    have hsep : ∀ h ∈ g :: gs, ∀ c ∈ h.1, c = '/' ∨ c = '-' := by
      intro h hh c hc
      have hmem : c ∈ "/ -".toList := (hall h hh).1 c hc
      have hne : c ≠ ' ' := by
        rintro rfl
        exact hs (List.mem_append_right _ (List.mem_cons_of_mem _ (separator_mem hh hc)))
      simp only [String.reduceToList, List.mem_cons, List.not_mem_nil, or_false] at hmem
      exact hmem.imp_right fun h => h.resolve_left hne
    have hdig : ∀ h ∈ g :: gs, h.2.isDigit = true := fun h hh => (hall h hh).2
    rcases hp with rfl | rfl | rfl
    · exact ⟨⟨false, c, g :: gs, hc, List.cons_ne_nil _ _, hsep, hdig⟩, rfl⟩
    · exact ⟨⟨true, c, g :: gs, hc, List.cons_ne_nil _ _, hsep, hdig⟩, rfl⟩
    · refine ⟨⟨false, '0', (none, c) :: g :: gs, rfl, List.cons_ne_nil _ _, ?_, ?_⟩, rfl⟩
      · exact List.forall_mem_cons.2 ⟨by simp, hsep⟩
      · exact List.forall_mem_cons.2 ⟨hc, hdig⟩
  · rintro ⟨n, rfl⟩
    obtain ⟨g, gs, hgs⟩ := List.exists_cons_of_ne_nil n.groups_ne
    refine ⟨if n.plus then ['+'] else [], ?_, n.first, g, gs, ?_, n.first_digit, ?_⟩
    · split_ifs
      · exact Or.inr (Or.inl rfl)
      · exact Or.inl rfl
    · rw [PhoneNumber.text, hgs]
    · intro h hh
      rw [← hgs] at hh
      refine ⟨fun c hc => ?_, n.digits h hh⟩
      rcases n.separators h hh c hc with rfl | rfl <;> decide

/-- A number has no other characters. -/
theorem PhoneNumber.mem_text {n : PhoneNumber} {c : Char} (h : c ∈ n.text) :
    c.isDigit = true ∨ c ∈ "+/-".toList := by
  rw [PhoneNumber.text, List.mem_append, List.mem_cons, List.mem_flatMap] at h
  rcases h with h | rfl | ⟨g, hg, hc⟩
  · split_ifs at h
    · obtain rfl := List.mem_singleton.1 h
      exact Or.inr (by decide)
    · cases h
  · exact Or.inl n.first_digit
  · rw [groupText, List.mem_append, List.mem_singleton, Option.mem_toList] at hc
    rcases hc with hc | rfl
    · rcases n.separators g hg c hc with rfl | rfl
      · exact Or.inr (by decide)
      · exact Or.inr (by decide)
    · exact Or.inl (n.digits g hg)

theorem IsPhoneNumber.notMem {s : Str} (h : IsPhoneNumber s) {c : Char}
    (hd : c.isDigit = false) (hc : c ∉ "+/-".toList) : c ∉ s := by
  obtain ⟨n, rfl⟩ := h
  intro hm
  rcases n.mem_text hm with hm | hm
  · rw [hd] at hm
    cases hm
  · exact hc hm

/-! ## What `parse` does -/

theorem notMem_withoutSpaces (s : Str) : ' ' ∉ withoutSpaces s := by
  intro h
  simp [withoutSpaces] at h

theorem withoutSpaces_of_notMem {s : Str} (h : ' ' ∉ s) : withoutSpaces s = s := by
  refine List.filter_eq_self.2 fun c hc => decide_eq_true ?_
  rintro rfl
  exact h hc

section
variable {contact domain : Str}

/-- `parse` after the spaces are removed. -/
theorem parse_eq : SipContact.parse contact domain =
    if numberRegex.rmatch (withoutSpaces contact) then
      .ok (some (.new (withoutSpaces contact) domain false))
    else if contains (withoutSpaces contact) "@".toList then do
      let user ← arrayGet (split (withoutSpaces contact) '@') 0
      let domain ← arrayGet (split (withoutSpaces contact) '@') 1
      return some (.new user domain true)
    else .ok none := by
  have hr : replace contact " ".toList [] = withoutSpaces contact := replace_singleton contact ' '
  simp only [SipContact.parse, hr]
  rfl

theorem parse_of_number (h : IsPhoneNumber (withoutSpaces contact)) :
    SipContact.parse contact domain = .ok (some (.new (withoutSpaces contact) domain false)) := by
  rw [parse_eq, if_pos ((rmatch_numberRegex (notMem_withoutSpaces contact)).2 h)]

/-- Without an '@' there is no contact. -/
theorem parse_of_notMem (h : ¬ IsPhoneNumber (withoutSpaces contact))
    (hat : '@' ∉ withoutSpaces contact) : SipContact.parse contact domain = .ok none := by
  have hc : ¬ contains (withoutSpaces contact) "@".toList = true := by
    rw [contains, decide_eq_true_iff]
    exact fun hi => hat (hi.subset (by simp))
  rw [parse_eq, if_neg (mt (rmatch_numberRegex (notMem_withoutSpaces contact)).1 h), if_neg hc]

/-- With an '@', a contact comes out if a character other than '@' stands behind it; otherwise
    `split` has dropped the domain. -/
theorem parse_of_mem (hat : '@' ∈ withoutSpaces contact) :
    SipContact.parse contact domain =
      if (textAfter (withoutSpaces contact) '@').all (· == '@') then .error .indexOutOfBounds
      else .ok (some
        (.new (userOf (withoutSpaces contact)) (domainOf (withoutSpaces contact)) true)) := by
  have hn : ¬ IsPhoneNumber (withoutSpaces contact) := fun h =>
    h.notMem (by decide) (by decide) hat
  have hc : contains (withoutSpaces contact) "@".toList = true := by
    rw [contains, decide_eq_true_iff]
    exact (List.singleton_infix_iff _ _).2 hat
  rw [parse_eq, if_neg (mt (rmatch_numberRegex (notMem_withoutSpaces contact)).1 hn), if_pos hc,
    arrayGet_split_zero, arrayGet_split_one]
  by_cases hrun : (textAfter (withoutSpaces contact) '@').all (· == '@') = true
  · rw [if_pos hrun, if_pos hrun]
    split_ifs <;> rfl
  · -- then the text is no run of '@' either
    have hno : ¬ ('@' ∈ withoutSpaces contact ∧ (withoutSpaces contact).all (· == '@') = true) := by
      rintro ⟨-, hall⟩
      rw [exists_eq_textBefore_textAfter hat, List.all_append, List.all_cons, Bool.and_eq_true,
        Bool.and_eq_true] at hall
      exact hrun hall.2.2
    rw [if_neg hno, if_neg hrun, if_neg hrun]
    rfl

/-- **Contacts accepted.**  `parse` returns what the text denotes exactly if the text has no
    '@', or neither its user nor its domain is empty. -/
theorem parse_denoted_iff :
    SipContact.parse contact domain = .ok (denoted (withoutSpaces contact) domain) ↔
      ('@' ∈ withoutSpaces contact →
        userOf (withoutSpaces contact) ≠ [] ∧ domainOf (withoutSpaces contact) ≠ []) := by
  rw [denoted]
  by_cases hat : '@' ∈ withoutSpaces contact
  · have hn : ¬ IsPhoneNumber (withoutSpaces contact) := fun h =>
      h.notMem (by decide) (by decide) hat
    rw [parse_of_mem hat, if_neg hn]
    by_cases hparts : userOf (withoutSpaces contact) ≠ [] ∧ domainOf (withoutSpaces contact) ≠ []
    · obtain ⟨c, hc⟩ := List.exists_mem_of_ne_nil _ hparts.2
      have hne : c ≠ '@' := by
        rintro rfl
        exact notMem_textBefore _ _ hc
      rw [if_neg (not_run ((List.takeWhile_sublist _).subset hc) hne), if_pos ⟨hat, hparts⟩]
      exact iff_of_true rfl fun _ => hparts
    · -- the text denotes nothing, but `parse` returns a contact or throws
      have hno : ¬ ('@' ∈ withoutSpaces contact ∧ userOf (withoutSpaces contact) ≠ [] ∧
          domainOf (withoutSpaces contact) ≠ []) := fun h => hparts h.2
      rw [if_neg hno]
      refine iff_of_false ?_ fun h => hparts (h hat)
      split_ifs <;> simp
  · refine iff_of_true ?_ fun h => absurd h hat
    by_cases hn : IsPhoneNumber (withoutSpaces contact)
    · rw [parse_of_number hn, if_pos hn]
    · rw [parse_of_notMem hn hat, if_neg hn, if_neg fun h => hat h.1]

end

/-- "bob@" makes `parse` throw. -/
theorem parse_not_denoted :
    ¬ ∀ contact domain,
      SipContact.parse contact domain = .ok (denoted (withoutSpaces contact) domain) := by
  intro h
  have hthrows : SipContact.parse "bob@".toList "d".toList = .error .indexOutOfBounds := by
    decide +kernel
  rw [h] at hthrows
  cases hthrows

/-! ## Printing and parsing -/

/-- The contact was built as a SIP contact from a user and a domain, or `parse` returned it for
    a phone number. -/
inductive Built (localDomain : Str) : SipContact → Prop
  | sip {c : SipContact} : c.isSipURI = true → c.sipUserName ≠ [] → c.sipDomain ≠ [] →
      (∀ x ∈ ['@', ' '], x ∉ c.sipUserName ∧ x ∉ c.sipDomain) → Built localDomain c
  | number {contact : Str} {c : SipContact} : IsPhoneNumber (withoutSpaces contact) →
      SipContact.parse contact localDomain = .ok (some c) → Built localDomain c

/-- Parsing the text of the contact gives its user, its domain and its text back. -/
def RoundTrips (localDomain : Str) (c : SipContact) : Prop :=
  ∃ c', SipContact.parse c.toString localDomain = .ok (some c') ∧ c'.sipUserName = c.sipUserName ∧
    c'.sipDomain = c.sipDomain ∧ c'.toString = c.toString

section
variable {localDomain : Str} {c : SipContact}

theorem toString_sip (hs : c.isSipURI = true) :
    c.toString = ("sip:".toList ++ c.sipUserName) ++ '@' :: c.sipDomain := by
  rw [SipContact.toString, if_pos hs]
  simp

/-- The scheme stays in front of the user. -/
theorem parse_toString_sip (hs : c.isSipURI = true) (hd : c.sipDomain ≠ [])
    (hfree : ∀ x ∈ ['@', ' '], x ∉ c.sipUserName ∧ x ∉ c.sipDomain) :
    SipContact.parse c.toString localDomain =
      .ok (some (.new ("sip:".toList ++ c.sipUserName) c.sipDomain true)) := by
  obtain ⟨hu, hdom⟩ := hfree '@' (by simp)
  obtain ⟨hu', hdom'⟩ := hfree ' ' (by simp)
  have hspace : withoutSpaces c.toString = c.toString := by
    refine withoutSpaces_of_notMem ?_
    rw [toString_sip hs]
    simp [hu', hdom']
  have hat : '@' ∉ "sip:".toList ++ c.sipUserName := by simp [hu]
  obtain ⟨x, hx⟩ := List.exists_mem_of_ne_nil _ hd
  have hne : x ≠ '@' := fun h => hdom (h ▸ hx)
  rw [parse_of_mem (by rw [hspace, toString_sip hs]; simp), hspace, userOf, domainOf,
    toString_sip hs, textAfter_append hat, textBefore_append hat, textBefore_of_notMem hdom,
    if_neg (not_run hx hne)]

/-- **Contacts round trip.**  Exactly the phone numbers do; the user of a SIP contact comes back
    with the scheme. -/
theorem roundTrips_iff (h : Built localDomain c) :
    RoundTrips localDomain c ↔ c.isSipURI = false := by
  cases h with
  | sip hs hu hd hfree =>
    rw [hs]
    refine iff_of_false ?_ (by simp)
    rintro ⟨c', hc', huser, -⟩
    rw [parse_toString_sip hs hd hfree] at hc'
    cases hc'
    have hlen : c.sipUserName.length + 4 = c.sipUserName.length := congrArg List.length huser
    omega
  | @number contact _ hn hp =>
    rw [parse_of_number hn] at hp
    cases hp
    refine iff_of_true ?_ rfl
    -- the text of the contact is the number, which has no spaces
    have hspace : withoutSpaces (withoutSpaces contact) = withoutSpaces contact :=
      withoutSpaces_of_notMem (notMem_withoutSpaces contact)
    have hagain : SipContact.parse (withoutSpaces contact) localDomain =
        .ok (some (.new (withoutSpaces (withoutSpaces contact)) localDomain false)) :=
      parse_of_number (by rwa [hspace])
    rw [hspace] at hagain
    exact ⟨_, hagain, rfl, rfl, rfl⟩

end

/-- A phone number that was parsed. -/
theorem roundTrips_number :
    RoundTrips "d".toList (.new "+4989".toList "d".toList false) ↔ false = false :=
  roundTrips_iff (@Built.number _ "+49 89".toList _
    ⟨⟨true, '4', [(none, '9'), (none, '8'), (none, '9')], rfl, by simp, by simp, by simp⟩,
      by decide⟩ (by decide +kernel))

/-- The contact of bob at company.com does not come back. -/
theorem bob_not_roundTrips : ¬ ∀ localDomain c, Built localDomain c → RoundTrips localDomain c := by
  intro h
  have hbuilt : Built [] (.new "bob".toList "company.com".toList true) :=
    .sip rfl (by decide) (by decide) (by simp [SipContact.new])
  obtain ⟨c', hc', huser, -⟩ := h _ _ hbuilt
  have hparse : SipContact.parse "sip:bob@company.com".toList [] =
      .ok (some (.new "sip:bob".toList "company.com".toList true)) := by
    decide +kernel
  cases hparse.symm.trans hc'
  cases huser

end JaySip
