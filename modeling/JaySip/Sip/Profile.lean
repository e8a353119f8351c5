/-
  The two ends of a call: `LocalSipProfile`, `SipContact`, and the digest that
  authorises the local user (`AuthorizationDigest`).
-/
import JaySip.Sip.Formats

namespace JaySip

open Java

/-- `LocalSipProfile`.  `nonce` and `realm` are those of the last challenge. -/
structure LocalSipProfile where
  userName : Str
  displayName : Str
  sipDomain : Str
  sipPassword : Option Str
  localSipPort : ℤ
  localAudioRtpPort : ℤ
  localAudioRtcpPort : ℤ
  localVideoRtpPort : ℤ
  localVideoRtcpPort : ℤ
  audioFormats : List SipAudioFormat
  videoFormats : List SipVideoFormat
  tag : Str
  nonce : Option Str
  realm : Option Str
  deriving DecidableEq, Repr

/-- `SipContact`. -/
structure SipContact where
  sipUserName : Str
  sipDomain : Str
  sipPort : ℤ := 5060
  isLocalContact : Bool := false
  isSipURI : Bool := true
  deriving DecidableEq, Repr

/-! ## Digest -/

/-- MD5, as a function of bytes. -/
abbrev Digest := List UInt8 → List UInt8

/-- `String.getBytes()`, in UTF-8. -/
def getBytes (s : Str) : List UInt8 := (String.ofList s).toUTF8.toList

/-- A string that may be `null`, as string concatenation prints it. -/
def orNull (s : Option Str) : Str := s.getD "null".toList

namespace AuthorizationDigest

/-- `getHexString`: `Integer.toString((b & 0xff) + 0x100, 16).substring(1)` for each byte. -/
def getHexString (b : List UInt8) : Str :=
  b.flatMap fun x => (Nat.toDigits 16 (x.toNat + 0x100)).drop 1

/-- The text of the last hash of `getDigest`. -/
def digest3 (H : Digest) (user realm password method uri nonce : Str) : Str :=
  getHexString (H (getBytes (user ++ ":".toList ++ realm ++ ":".toList ++ password))) ++
    ":".toList ++ nonce ++ ":".toList ++ getHexString (H (getBytes (method ++ ":".toList ++ uri)))

/-- `getDigest` without qop. -/
def getDigest (H : Digest) (user realm password method uri nonce : Str) : Str :=
  getHexString (H (getBytes (digest3 H user realm password method uri nonce)))

end AuthorizationDigest

/-- The (proxy) authorization header of scheme `Digest`. -/
structure Authorization where
  algorithm : Str
  nonce : Str
  realm : Str
  username : Str
  uri : Str
  response : Str
  deriving DecidableEq, Repr

/-- The header that answers the last challenge for a request of the given method;
    `uri` is the text of the domain's URI.  The header's setters refuse `null`. -/
def LocalSipProfile.digestHeader (H : Digest) (uri : Str) (p : LocalSipProfile) (method : Str) :
    Except JException Authorization := do
  let response := AuthorizationDigest.getDigest H p.userName (orNull p.realm) (orNull p.sipPassword)
    method uri (orNull p.nonce)
  let nonce ← nonNull p.nonce
  let realm ← nonNull p.realm
  return ⟨"MD5".toList, nonce, realm, p.userName, uri, response⟩

/-- `getAuthorizationHeader`. -/
def LocalSipProfile.getAuthorizationHeader (H : Digest) (uri : Str) (p : LocalSipProfile) :
    Except JException Authorization :=
  p.digestHeader H uri "REGISTER".toList

/-- `getProxyAuthorizationHeader`. -/
def LocalSipProfile.getProxyAuthorizationHeader (H : Digest) (uri : Str) (p : LocalSipProfile) :
    Except JException Authorization :=
  p.digestHeader H uri "INVITE".toList

end JaySip
