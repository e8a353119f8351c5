/-
  The texts of contacts: `SipContact.parse` and `SipContact.toString`.
-/
import JaySip.Java.Regex
import JaySip.Sip.Profile

namespace JaySip

open Java

/-- `numberRegex` of `parse`, `(\+|0)?\d([/ -]?\d)+`.  It has no letters, so the flag
    `CASE_INSENSITIVE` changes nothing. -/
def numberRegex : RegularExpression Char :=
  zeroOrOne (.char '+' + .char '0') * (digits * oneOrMore (zeroOrOne (oneOf "/ -".toList) * digits))

namespace SipContact

/-- The constructor `SipContact(sipUserName, sipDomain, isSipURI)`. -/
def new (sipUserName sipDomain : Str) (isSipURI : Bool) : SipContact :=
  { sipUserName, sipDomain, isSipURI }

/-- `SipContact.parse`; `null` is `none`. -/
def parse (contact localProfileDomain : Str) : Except JException (Option SipContact) := do
  let contact := replace contact " ".toList []
  if numberRegex.rmatch contact then
    return some (new contact localProfileDomain false)
  else if contains contact "@".toList then
    let user ← arrayGet (split contact '@') 0
    let domain ← arrayGet (split contact '@') 1
    return some (new user domain true)
  else return none

/-- `SipContact.toString`. -/
def toString (c : SipContact) : Str :=
  if c.isSipURI then "sip:".toList ++ c.sipUserName ++ "@".toList ++ c.sipDomain
  else c.sipUserName

example : parse "+49 89/12-3".toList "d".toList =
    .ok (some (new "+4989/12-3".toList "d".toList false)) := by
  decide +kernel

end SipContact

end JaySip
