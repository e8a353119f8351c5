/-
  STUN messages: `Utility`, `Address`, the attributes and `MessageHeader`.

  Bytes that are not there and exceptions are `Except.error`.  `length` and `offset` of
  `parseAttributes` go by what an attribute would take if it were written again.
-/
import JaySip.Iteration
import JaySip.Java.Text

namespace JaySip.Stun

open Java (Str JException)

/-! ## Exceptions -/

/-- `MessageAttributeInterface.MessageAttributeType`. -/
inductive MessageAttributeType where
  | MappedAddress | ResponseAddress | ChangeRequest | SourceAddress | ChangedAddress | Username
  | Password | MessageIntegrity | ErrorCode | UnknownAttribute | ReflectedFrom | Dummy
  deriving DecidableEq, Repr

/-- The exceptions that messages are refused with. -/
inductive Thrown where
  | java (e : JException)
  | utility (message : String)
  | attribute (message : String)
  | attributeParsing (message : String)
  | unknownAttribute (message : String) (type : Option MessageAttributeType)
  | headerParsing (message : String)
  deriving DecidableEq, Repr

/-- Dereferencing a reference that may be `null`. -/
def nonNull {α : Type} : Option α → Except Thrown α
  | some a => .ok a
  | none => .error (.java .nullPointer)

/-! ## Arrays -/

/-- `System.arraycopy(data, pos, result, 0, n)` into a new array of `n` bytes. -/
def slice (data : List UInt8) (pos n : ℕ) : Except Thrown { l : List UInt8 // l.length = n } :=
  if h : pos + n ≤ data.length then
    .ok ⟨(data.drop pos).take n, by rw [List.length_take, List.length_drop]; omega⟩
  else .error (.java .indexOutOfBounds)

/-- `System.arraycopy(bytes, 0, result, pos, bytes.length)`. -/
def put (result : List UInt8) (pos : ℕ) (bytes : List UInt8) : Except Thrown (List UInt8) :=
  if pos + bytes.length ≤ result.length then
    .ok (result.take pos ++ bytes ++ result.drop (pos + bytes.length))
  else .error (.java .indexOutOfBounds)

/-- `result[i] = b`. -/
def setByte (result : List UInt8) (i : ℕ) (b : UInt8) : Except Thrown (List UInt8) :=
  if i < result.length then .ok (result.set i b) else .error (.java .indexOutOfBounds)

/-- `data[i]`. -/
def byteAt (data : List UInt8) (i : ℕ) : Except Thrown UInt8 :=
  match data[i]? with
  | some b => .ok b
  | none => .error (.java .indexOutOfBounds)

/-! ## Utility -/

/-- The bytes of an `int`, from `value >>> 8 * i` down. -/
def byteOf (value : ℤ) (i : ℕ) : UInt8 := UInt8.ofNat (value.toNat >>> (8 * i) &&& 0xFF)

def integerToOneByte (value : ℤ) : Except Thrown UInt8 :=
  if value > 32768 ∨ value < 0 then
    .error (.utility ("Integer value " ++ toString value ++ " is larger than 2^15"))
  else .ok (byteOf value 0)

def integerToTwoBytes (value : ℤ) : Except Thrown (List UInt8) :=
  if value > 2147483648 ∨ value < 0 then
    .error (.utility ("Integer value " ++ toString value ++ " is larger than 2^31"))
  else .ok [byteOf value 1, byteOf value 0]

def oneByteToInteger (value : UInt8) : ℕ := value.toNat

def twoBytesToInteger (value : List UInt8) : Except Thrown ℕ :=
  match value with
  | b₀ :: b₁ :: _ => .ok (b₀.toNat <<< 8 + b₁.toNat)
  | _ => .error (.utility "Byte array too short!")

def fourBytesToLong (value : List UInt8) : Except Thrown ℕ :=
  match value with
  | b₀ :: b₁ :: b₂ :: b₃ :: _ =>
    .ok (b₀.toNat <<< 24 + b₁.toNat <<< 16 + b₂.toNat <<< 8 + b₃.toNat)
  | _ => .error (.utility "Byte array too short!")

/-! ## Addresses -/

/-- `Address`; the constructors refuse octets that are none. -/
structure Address where
  firstOctet : UInt8
  secondOctet : UInt8
  thirdOctet : UInt8
  fourthOctet : UInt8
  deriving DecidableEq, Repr

/-- An octet out of an `int`. -/
def octet (n : ℤ) (message : String) : Except Thrown UInt8 :=
  if n < 0 ∨ n > 255 then .error (.utility message) else .ok (UInt8.ofNat n.toNat)

/-- `Address(int, int, int, int)`. -/
def Address.ofInts (a b c d : ℤ) : Except Thrown Address := do
  return ⟨← octet a "Address is malformed.", ← octet b "Address is malformed.",
    ← octet c "Address is malformed.", ← octet d "Address is malformed."⟩

def Address.getBytes (a : Address) : Except Thrown (List UInt8) := do
  return [← integerToOneByte a.firstOctet.toNat, ← integerToOneByte a.secondOctet.toNat,
    ← integerToOneByte a.thirdOctet.toNat, ← integerToOneByte a.fourthOctet.toNat]

/-! ## Attributes -/

/-- The subclasses of `MappedResponseChangedSourceAddressReflectedFrom`. -/
inductive AddressKind where
  | MappedAddress | ResponseAddress | SourceAddress | ChangedAddress | ReflectedFrom
  deriving DecidableEq, Repr

def AddressKind.type : AddressKind → MessageAttributeType
  | MappedAddress => .MappedAddress
  | ResponseAddress => .ResponseAddress
  | SourceAddress => .SourceAddress
  | ChangedAddress => .ChangedAddress
  | ReflectedFrom => .ReflectedFrom

/-- `MessageAttribute`.  A reference that its constructor does not set is `none`; `setPort` and
    `setResponseCode` refuse all but the ports and codes below. -/
inductive MessageAttribute where
  | socketAddress (kind : AddressKind) (port : Fin 65537) (address : Option Address)
  | changeRequest (changeIP changePort : Bool)
  | username (username : Option Str)
  | password (password : Option Str)
  | messageIntegrity
  | errorCode (responseCode : ℤ) (reason : Option Str)
  | unknownAttribute (unkown : List (Option MessageAttributeType))
  | dummy (lengthValue : ℕ)
  deriving DecidableEq, Repr

def MessageAttribute.getType : MessageAttribute → MessageAttributeType
  | socketAddress kind _ _ => kind.type
  | changeRequest _ _ => .ChangeRequest
  | username _ => .Username
  | password _ => .Password
  | messageIntegrity => .MessageIntegrity
  | errorCode _ _ => .ErrorCode
  | unknownAttribute _ => .UnknownAttribute
  | dummy _ => .Dummy

def typeToInteger : Option MessageAttributeType → ℤ
  | some .MappedAddress => 0x0001
  | some .ResponseAddress => 0x0002
  | some .ChangeRequest => 0x0003
  | some .SourceAddress => 0x0004
  | some .ChangedAddress => 0x0005
  | some .Username => 0x0006
  | some .Password => 0x0007
  | some .MessageIntegrity => 0x0008
  | some .ErrorCode => 0x0009
  | some .UnknownAttribute => 0x000a
  | some .ReflectedFrom => 0x000b
  | some .Dummy => 0x0000
  | none => -1

def intToType (type : ℕ) : Option MessageAttributeType :=
  if type = 0x0001 then some .MappedAddress
  else if type = 0x0002 then some .ResponseAddress
  else if type = 0x0003 then some .ChangeRequest
  else if type = 0x0004 then some .SourceAddress
  else if type = 0x0005 then some .ChangedAddress
  else if type = 0x0006 then some .Username
  else if type = 0x0007 then some .Password
  else if type = 0x0008 then some .MessageIntegrity
  else if type = 0x0009 then some .ErrorCode
  else if type = 0x000a then some .UnknownAttribute
  else if type = 0x000b then some .ReflectedFrom
  else if type = 0x0000 then some .Dummy
  else none

/-- The platform's charset, of which only the ASCII characters are known. -/
structure Charset where
  decode : List UInt8 → Str
  encode : Str → List UInt8
  decode_ascii : ∀ data, (∀ b ∈ data, b.toNat < 128) →
    decode data = data.map fun b => Char.ofNat b.toNat
  encode_ascii : ∀ s, (∀ c ∈ s, c.toNat < 128) → encode s = s.map fun c => UInt8.ofNat c.toNat

/-- ISO-8859-1: what it lacks is written as a question mark. -/
def Charset.latin1 : Charset where
  decode data := data.map fun b => Char.ofNat b.toNat
  encode s := s.map fun c => if c.toNat < 256 then UInt8.ofNat c.toNat else 63
  decode_ascii _ _ := rfl
  encode_ascii s hs := List.map_congr_left fun c hc => if_pos ((hs c hc).trans (by decide))

/-- The attribute header in a new array of `n` bytes. -/
def header (n : ℕ) (type : MessageAttributeType) (length : ℤ) : Except Thrown (List UInt8) := do
  let result := List.replicate n 0
  let result ← put result 0 (← integerToTwoBytes (typeToInteger (some type)))
  put result 2 (← integerToTwoBytes length)

/-- A length, made a multiple of 4, with the attribute header. -/
def paddedLength (length : ℕ) : ℕ :=
  (if length % 4 ≠ 0 then length + (4 - length % 4) else length) + 4

/-- `Username.getBytes` and `Password.getBytes`. -/
def textBytes (cs : Charset) (type : MessageAttributeType) (text : Option Str) :
    Except Thrown (List UInt8) := do
  let text ← nonNull text
  let length := paddedLength text.length
  let result ← header length type (length - 4)
  put result 4 (cs.encode text)

/-- `getBytes` of each attribute. -/
def MessageAttribute.getBytes (cs : Charset) : MessageAttribute → Except Thrown (List UInt8)
  | socketAddress kind port address => do
    let result ← header 12 kind.type 8
    let result ← setByte result 5 (← integerToOneByte 0x01)
    let result ← put result 6 (← integerToTwoBytes port.val)
    put result 8 (← (← nonNull address).getBytes)
  | changeRequest changeIP changePort => do
    let result ← header 8 .ChangeRequest 4
    let result ← if changeIP then setByte result 7 (← integerToOneByte 4) else pure result
    let result ← if changePort then setByte result 7 (← integerToOneByte 2) else pure result
    if changeIP && changePort then setByte result 7 (← integerToOneByte 6) else return result
  | username text => textBytes cs .Username text
  | password text => textBytes cs .Password text
  | messageIntegrity => return []
  | errorCode responseCode reason => do
    let reason ← nonNull reason
    let length := paddedLength reason.length
    let result ← header length .ErrorCode (length - 4)
    let classHeader := responseCode / 100
    let result ← setByte result 6 (← integerToOneByte classHeader)
    let result ← setByte result 7 (← integerToOneByte (responseCode.tmod 100))
    put result 8 (cs.encode reason)
  | unknownAttribute unkown => do
    let length := if unkown.length % 2 = 1 then 2 * (unkown.length + 1) + 4
      else 2 * unkown.length + 4
    let result ← header length .UnknownAttribute (length - 4)
    -- every type is written to the same place
    let result ← unkown.foldlM (fun result attri => do
      put result 4 (← integerToTwoBytes (typeToInteger attri))) result
    if unkown.length % 2 = 1 then
      match unkown[1]? with
      | some attri => put result 4 (← integerToTwoBytes (typeToInteger attri))
      | none => .error (.java .indexOutOfBounds)
    else return result
  | dummy lengthValue => header (lengthValue + 4) .Dummy lengthValue

def MessageAttribute.getLength (cs : Charset) (ma : MessageAttribute) : Except Thrown ℕ := do
  return (← ma.getBytes cs).length

/-! ## Parsing attributes -/

/-- `setPort`. -/
def port (n : ℤ) : Except Thrown (Fin 65537) :=
  if h : n > 65536 ∨ n < 0 then
    .error (.attribute ("Port value " ++ toString n ++ " out of range."))
  else .ok ⟨n.toNat, by omega⟩

/-- `setResponseCode`. -/
def reasonOf (responseCode : ℤ) : Except Thrown Str :=
  if responseCode = 400 then .ok "Bad Request".toList
  else if responseCode = 401 then .ok "Unauthorized".toList
  else if responseCode = 420 then .ok "Unkown Attribute".toList
  else if responseCode = 430 then .ok "Stale Credentials".toList
  else if responseCode = 431 then .ok "Integrity Check Failure".toList
  else if responseCode = 432 then .ok "Missing Username".toList
  else if responseCode = 433 then .ok "Use TLS".toList
  else if responseCode = 500 then .ok "Server Error".toList
  else if responseCode = 600 then .ok "Global Failure".toList
  else .error (.attribute "Response Code is not valid")

/-- `catch (UtilityException ue)`. -/
def catchUtility {α : Type} : Except Thrown α → Except Thrown α
  | .error (.utility _) => .error (.attributeParsing "Parsing error")
  | r => r

/-- `catch (MessageAttributeException mae)`, of which the exceptions of parsing are a subclass. -/
def catchAttribute {α : Type} (message : String) : Except Thrown α → Except Thrown α
  | .error (.attribute _) => .error (.attributeParsing message)
  | .error (.attributeParsing _) => .error (.attributeParsing message)
  | r => r

/-- `MappedResponseChangedSourceAddressReflectedFrom.parse`. -/
def parseAddress (kind : AddressKind) (data : List UInt8) : Except Thrown MessageAttribute :=
  catchUtility <| catchAttribute "Port parsing error" do
    if data.length < 8 then throw (.attributeParsing "Data array too short")
    let family := oneByteToInteger (← byteAt data 1)
    if family ≠ 0x01 then
      throw (.attributeParsing ("Family " ++ toString family ++ " is not supported"))
    let port ← port (← twoBytesToInteger (← slice data 2 2).val)
    let firstOctet := oneByteToInteger (← byteAt data 4)
    let secondOctet := oneByteToInteger (← byteAt data 5)
    let thirdOctet := oneByteToInteger (← byteAt data 6)
    let fourthOctet := oneByteToInteger (← byteAt data 7)
    return .socketAddress kind port (← Address.ofInts firstOctet secondOctet thirdOctet fourthOctet)

/-- `ChangeRequest.parse`. -/
def parseChangeRequest (data : List UInt8) : Except Thrown MessageAttribute :=
  catchUtility do
    if data.length < 4 then throw (.attributeParsing "Data array too short")
    let status := oneByteToInteger (← byteAt data 3)
    if status = 0 then return .changeRequest false false
    else if status = 2 then return .changeRequest false true
    else if status = 4 then return .changeRequest true false
    else if status = 6 then return .changeRequest true true
    else throw (.attributeParsing "Status parsing error")

/-- `ErrorCode.parse`. -/
def parseErrorCode (data : List UInt8) : Except Thrown MessageAttribute :=
  catchUtility <| catchAttribute "Parsing error" do
    if data.length < 4 then throw (.attributeParsing "Data array too short")
    let classHeader := oneByteToInteger (← byteAt data 3)
    if classHeader < 1 ∨ classHeader > 6 then
      throw (.attributeParsing "Class parsing error")
    let number := oneByteToInteger (← byteAt data 4)
    if number > 99 then throw (.attributeParsing "Number parsing error")
    let responseCode := classHeader * 100 + number
    return .errorCode responseCode (some (← reasonOf responseCode))

/-- The loop of `UnknownAttribute.parse`: the types of the words of four bytes. -/
def wordTypes : List UInt8 → Except Thrown (List (Option MessageAttributeType))
  | b₀ :: b₁ :: b₂ :: b₃ :: data => do
    let attri ← fourBytesToLong [b₀, b₁, b₂, b₃]
    return intToType attri :: (← wordTypes data)
  | _ => return []

/-- `UnknownAttribute.parse`. -/
def parseUnknownAttribute (data : List UInt8) : Except Thrown MessageAttribute :=
  catchUtility do
    if data.length % 4 ≠ 0 then throw (.attributeParsing "Data array too short")
    return .unknownAttribute (← wordTypes data)

/-- The switch of `parseCommonHeader`. -/
def parseValue (cs : Charset) (type : ℕ) (valueArray : List UInt8) :
    Except Thrown MessageAttribute :=
  if type = 0x0001 then parseAddress .MappedAddress valueArray
  else if type = 0x0002 then parseAddress .ResponseAddress valueArray
  else if type = 0x0003 then parseChangeRequest valueArray
  else if type = 0x0004 then parseAddress .SourceAddress valueArray
  else if type = 0x0005 then parseAddress .ChangedAddress valueArray
  else if type = 0x0006 then .ok (.username (some (cs.decode valueArray)))
  else if type = 0x0007 then .ok (.password (some (cs.decode valueArray)))
  else if type = 0x0008 then .ok .messageIntegrity
  else if type = 0x0009 then parseErrorCode valueArray
  else if type = 0x000a then parseUnknownAttribute valueArray
  else if type = 0x000b then parseAddress .ReflectedFrom valueArray
  else if type ≤ 0x7fff then
    .error (.unknownAttribute "Unkown mandatory message attribute" (intToType type))
  else .ok (.dummy valueArray.length)

/-- `MessageAttribute.parseCommonHeader`. -/
def parseCommonHeader (cs : Charset) (data : List UInt8) : Except Thrown MessageAttribute :=
  catchUtility do
    let type ← twoBytesToInteger (← slice data 0 2).val
    let lengthValue ← twoBytesToInteger (← slice data 2 2).val
    let valueArray ← slice data 4 lengthValue
    parseValue cs type valueArray.val

/-! ## Headers -/

/-- `MessageHeaderInterface.MessageHeaderType`. -/
inductive MessageHeaderType where
  | BindingRequest | BindingResponse | BindingErrorResponse | SharedSecretRequest
  | SharedSecretResponse | SharedSecretErrorResponse
  deriving DecidableEq, Repr

/-- `MessageHeader`; `ma` is the `TreeMap`, whose keys are ordered as they are declared, and
    which holds each attribute under its type. -/
structure MessageHeader where
  type : Option MessageHeaderType
  id : { l : List UInt8 // l.length = 16 }
  ma : (type : MessageAttributeType) → Option { a : MessageAttribute // a.getType = type }

/-- `MessageHeader()` and `MessageHeader(type)`. -/
def MessageHeader.new (type : Option MessageHeaderType) : MessageHeader where
  type
  id := ⟨List.replicate 16 0, rfl⟩
  ma := fun _ => none

def MessageHeader.addMessageAttribute (mh : MessageHeader) (attri : MessageAttribute) :
    MessageHeader :=
  { mh with ma := Function.update mh.ma attri.getType (some ⟨attri, rfl⟩) }

def MessageHeader.getMessageAttribute (mh : MessageHeader) (type : MessageAttributeType) :
    Option MessageAttribute := (mh.ma type).map (·.val)

def MessageHeader.equalTransactionID (mh header : MessageHeader) : Bool :=
  header.id.val == mh.id.val

def headerTypeToInteger : Option MessageHeaderType → ℤ
  | some .BindingRequest => 0x0001
  | some .BindingResponse => 0x0101
  | some .BindingErrorResponse => 0x0111
  | some .SharedSecretRequest => 0x0002
  | some .SharedSecretResponse => 0x0102
  | some .SharedSecretErrorResponse => 0x0112
  | none => -1

/-- The keys of the `TreeMap` in their order. -/
def keys : List MessageAttributeType :=
  [.MappedAddress, .ResponseAddress, .ChangeRequest, .SourceAddress, .ChangedAddress, .Username,
    .Password, .MessageIntegrity, .ErrorCode, .UnknownAttribute, .ReflectedFrom, .Dummy]

/-- The attributes in the order of their keys. -/
def MessageHeader.attributes (mh : MessageHeader) : List MessageAttribute :=
  keys.filterMap mh.getMessageAttribute

/-- `MessageHeader.getBytes`. -/
def MessageHeader.getBytes (cs : Charset) (mh : MessageHeader) : Except Thrown (List UInt8) := do
  let length ← mh.attributes.foldlM (fun length attri => do
    return length + (← attri.getLength cs)) 20
  let result := List.replicate length 0
  let result ← put result 0 (← integerToTwoBytes (headerTypeToInteger mh.type))
  let result ← put result 2 (← integerToTwoBytes (length - 20))
  let result ← put result 4 mh.id.val
  let (result, _) ← mh.attributes.foldlM (fun (result, offset) attri => do
    let bytes ← attri.getBytes cs
    return (← put result offset bytes, offset + bytes.length)) (result, 20)
  return result

/-- The variables of `parseAttributes`. -/
structure Parsing where
  mh : MessageHeader
  length : ℤ
  offset : ℕ

/-- A turn of the loop of `parseAttributes`. -/
def parseTurn (cs : Charset) (data : List UInt8) (s : Parsing) :
    Parsing ⊕ Except Thrown MessageHeader :=
  if s.length > 0 then
    match (do
      let cuttedData ← slice data s.offset s.length.toNat
      let ma ← parseCommonHeader cs cuttedData.val
      let length ← ma.getLength cs
      return { mh := s.mh.addMessageAttribute ma, length := s.length - length
               offset := s.offset + length } : Except Thrown Parsing) with
    | .ok s' => .inl s'
    | .error e => .inr (catchUtility (.error e))
  else .inr (.ok s.mh)

/-- What `parseAttributes` reads before its loop. -/
def parseStart (mh : MessageHeader) (data : List UInt8) : Except Thrown Parsing :=
  catchUtility do
    let length ← twoBytesToInteger (← slice data 2 2).val
    let id ← slice data 4 16
    return { mh := { mh with id }, length, offset := 20 }

/-- `MessageHeader.parseAttributes`, if it ends within `turns` turns. -/
def MessageHeader.parseAttributes (cs : Charset) (mh : MessageHeader) (data : List UInt8)
    (turns : ℕ) : Option (Except Thrown MessageHeader) :=
  match parseStart mh data with
  | .ok s => Iteration.run (parseTurn cs data) turns s
  | .error e => some (.error e)

/-- `MessageHeader.parseHeader`. -/
def parseHeader (data : List UInt8) : Except Thrown MessageHeader :=
  match (do twoBytesToInteger (← slice data 0 2).val : Except Thrown ℕ) with
  | .error (.utility _) => .error (.headerParsing "Parsing error")
  | .error e => .error e
  | .ok type =>
    if type = 0x0001 then .ok (.new (some .BindingRequest))
    else if type = 0x0101 then .ok (.new (some .BindingResponse))
    else if type = 0x0111 then .ok (.new (some .BindingErrorResponse))
    else if type = 0x0002 then .ok (.new (some .SharedSecretRequest))
    else if type = 0x0102 then .ok (.new (some .SharedSecretResponse))
    else if type = 0x0112 then .ok (.new (some .SharedSecretErrorResponse))
    else .error (.headerParsing ("Message type " ++ toString type ++ "is not supported"))

end JaySip.Stun
