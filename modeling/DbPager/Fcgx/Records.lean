import Mathlib.Data.List.Basic
import Mathlib.Data.UInt

/-!
# FastCGI records

The web server and the server of scripts exchange records over a connection.
A record is a header of eight bytes, up to 65535 bytes of content, and
padding.  A stream of a request, such as its parameters or its body, is cut
into the contents of records and ended by a record without content.
-/

namespace DbPager.Fcgx

abbrev Bytes := List UInt8

/-! ## Headers -/

/-- `FCGI_Header`. -/
structure Header where
  version : UInt8
  type : UInt8
  requestIdB1 : UInt8
  requestIdB0 : UInt8
  contentLengthB1 : UInt8
  contentLengthB0 : UInt8
  paddingLength : UInt8
  reserved : UInt8
  deriving DecidableEq

/-- `FCGI_HEADER_LEN`. -/
def headerLen : Nat := 8

/-- `FCGI_MAX_LENGTH`. -/
def maxLength : Nat := 65535

/-- `FCGI_VERSION_1`. -/
def version1 : UInt8 := 1

namespace Header

/-- The header as it lies in memory. -/
def bytes (header : Header) : Bytes :=
  [header.version, header.type, header.requestIdB1, header.requestIdB0,
    header.contentLengthB1, header.contentLengthB0, header.paddingLength,
    header.reserved]

/-- `memcpy` into a header. -/
def ofBytes (bytes : Bytes) : Header where
  version := bytes.getD 0 0
  type := bytes.getD 1 0
  requestIdB1 := bytes.getD 2 0
  requestIdB0 := bytes.getD 3 0
  contentLengthB1 := bytes.getD 4 0
  contentLengthB0 := bytes.getD 5 0
  paddingLength := bytes.getD 6 0
  reserved := bytes.getD 7 0

@[simp] theorem ofBytes_bytes (header : Header) :
    ofBytes header.bytes = header := rfl

@[simp] theorem length_bytes (header : Header) :
    header.bytes.length = headerLen := rfl

def requestId (header : Header) : Nat :=
  header.requestIdB1.toNat * 256 + header.requestIdB0.toNat

def contentLength (header : Header) : Nat :=
  header.contentLengthB1.toNat * 256 + header.contentLengthB0.toNat

end Header

/-- `(unsigned char) ((number >> 8 * place) & 0xff)`. -/
def byteOf (number place : Nat) : UInt8 :=
  UInt8.ofNat (number / 256 ^ place)

/-- `MakeHeader`. -/
def makeHeader (type : UInt8) (requestId contentLength paddingLength : Nat) :
    Header where
  version := version1
  type
  requestIdB1 := byteOf requestId 1
  requestIdB0 := byteOf requestId 0
  contentLengthB1 := byteOf contentLength 1
  contentLengthB0 := byteOf contentLength 0
  paddingLength := UInt8.ofNat paddingLength
  reserved := 0

/-- Two bytes are enough for a number below 65536. -/
theorem two_bytes {number : Nat} (fits : number < 65536) :
    (byteOf number 1).toNat * 256 + (byteOf number 0).toNat = number := by
  simp only [byteOf, UInt8.toNat_ofNat']
  omega

@[simp] theorem makeHeader_version (type : UInt8)
    (requestId contentLength paddingLength : Nat) :
    (makeHeader type requestId contentLength paddingLength).version =
      version1 := rfl

@[simp] theorem makeHeader_type (type : UInt8)
    (requestId contentLength paddingLength : Nat) :
    (makeHeader type requestId contentLength paddingLength).type = type := rfl

theorem requestId_makeHeader (type : UInt8) {requestId : Nat}
    (contentLength paddingLength : Nat) (fits : requestId < 65536) :
    (makeHeader type requestId contentLength paddingLength).requestId =
      requestId :=
  two_bytes fits

theorem contentLength_makeHeader (type : UInt8) (requestId : Nat)
    {contentLength : Nat} (paddingLength : Nat)
    (fits : contentLength ≤ maxLength) :
    (makeHeader type requestId contentLength paddingLength).contentLength =
      contentLength :=
  two_bytes (Nat.lt_succ_of_le fits)

theorem paddingLength_makeHeader (type : UInt8) (requestId contentLength : Nat)
    {paddingLength : Nat} (fits : paddingLength ≤ 255) :
    (makeHeader type requestId contentLength paddingLength).paddingLength.toNat =
      paddingLength := by
  simp only [makeHeader, UInt8.toNat_ofNat']
  omega

/-! ## Types of records -/

namespace RecordType

def beginRequest : UInt8 := 1
def endRequest : UInt8 := 3
def params : UInt8 := 4
def stdin : UInt8 := 5
def stdout : UInt8 := 6
def stderr : UInt8 := 7
def data : UInt8 := 8
def getValues : UInt8 := 9
def getValuesResult : UInt8 := 10
def unknownType : UInt8 := 11

end RecordType

/-- `FCGI_NULL_REQUEST_ID`. -/
def nullRequestId : Nat := 0

/-- `FCGI_RESPONDER`, `FCGI_AUTHORIZER` and `FCGI_FILTER`. -/
def responder : Nat := 1
def authorizer : Nat := 2
def filter : Nat := 3

/-- `FCGI_REQUEST_COMPLETE` and `FCGI_CANT_MPX_CONN`. -/
def requestComplete : UInt8 := 0
def cantMpxConn : UInt8 := 1

/-- `AlignInt8`. -/
def alignInt8 (number : Nat) : Nat :=
  (number + 7) / 8 * 8

theorem le_alignInt8 (number : Nat) : number ≤ alignInt8 number := by
  unfold alignInt8
  omega

theorem alignInt8_lt (number : Nat) : alignInt8 number < number + 8 := by
  unfold alignInt8
  omega

theorem dvd_alignInt8 (number : Nat) : 8 ∣ alignInt8 number :=
  Dvd.intro_left _ rfl

/-! ## Records -/

/-- A record that can be written down. -/
structure Record where
  type : UInt8
  requestId : Nat
  content : Bytes
  padding : Bytes
  idFits : requestId < 65536
  contentFits : content.length ≤ maxLength
  paddingFits : padding.length ≤ 255

namespace Record

def header (record : Record) : Header :=
  makeHeader record.type record.requestId record.content.length
    record.padding.length

def bytes (record : Record) : Bytes :=
  record.header.bytes ++ record.content ++ record.padding

theorem header_requestId (record : Record) :
    record.header.requestId = record.requestId :=
  requestId_makeHeader _ _ _ record.idFits

theorem header_contentLength (record : Record) :
    record.header.contentLength = record.content.length :=
  contentLength_makeHeader _ _ _ record.contentFits

theorem header_paddingLength (record : Record) :
    record.header.paddingLength.toNat = record.padding.length :=
  paddingLength_makeHeader _ _ _ record.paddingFits

end Record

/-- `MakeEndRequestBody`. -/
def makeEndRequestBody (appStatus : Nat) (protocolStatus : UInt8) : Bytes :=
  [byteOf appStatus 3, byteOf appStatus 2, byteOf appStatus 1,
    byteOf appStatus 0, protocolStatus, 0, 0, 0]

/-- `FCGI_EndRequestRecord`. -/
def endRequestRecord (requestId appStatus : Nat) (protocolStatus : UInt8) :
    Bytes :=
  (makeHeader RecordType.endRequest requestId 8 0).bytes ++
    makeEndRequestBody appStatus protocolStatus

/-- `MakeUnknownTypeBody`. -/
def makeUnknownTypeBody (type : UInt8) : Bytes :=
  [type, 0, 0, 0, 0, 0, 0, 0]

end DbPager.Fcgx
