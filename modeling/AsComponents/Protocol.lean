import Mathlib

/-! Constants of the FastCGI protocol, request identifiers and the byte layout
of records (`fcgi_protocol_constants.h`, `fcgi_request_identifier.h` and the
`Populate` functions of `fcgi_utilities.cc`). -/

namespace AsComponents.Protocol

open Std

/-! ## Constants -/

def fcgiHeaderLen : Nat := 8
def fcgiVersion1 : UInt8 := 1
def fcgiNullRequestId : UInt16 := 0
def fcgiKeepConn : UInt8 := 1

def fcgiResponder : UInt16 := 1
def fcgiAuthorizer : UInt16 := 2
def fcgiRequestComplete : UInt8 := 0
def fcgiCantMpxConn : UInt8 := 1
def fcgiOverloaded : UInt8 := 2
def fcgiUnknownRole : UInt8 := 3

def kNameValuePairSingleByteLength : Nat := 2 ^ 7 - 1
def kNameValuePairFourByteLength : Nat := 2 ^ 31 - 1
def kMaxRecordContentByteLength : Nat := 2 ^ 16 - 1

def exitFailure : Int32 := 1

/-- `enum class FcgiType : std::uint8_t`: every byte is a value of the type,
and a header may carry any of them. -/
abbrev FcgiType := UInt8

abbrev kFcgiBeginRequest : FcgiType := 1
abbrev kFcgiAbortRequest : FcgiType := 2
abbrev kFcgiEndRequest : FcgiType := 3
abbrev kFcgiParams : FcgiType := 4
abbrev kFcgiStdin : FcgiType := 5
abbrev kFcgiStdout : FcgiType := 6
abbrev kFcgiStderr : FcgiType := 7
abbrev kFcgiData : FcgiType := 8
abbrev kFcgiGetValues : FcgiType := 9
abbrev kFcgiGetValuesResult : FcgiType := 10
abbrev kFcgiUnknownType : FcgiType := 11

/-- The bytes of a string of ASCII characters. -/
def ascii (s : String) : List UInt8 := s.toList.map fun c => UInt8.ofNat c.toNat

def fcgiMaxConns : List UInt8 := ascii "FCGI_MAX_CONNS"
def fcgiMaxReqs : List UInt8 := ascii "FCGI_MAX_REQS"
def fcgiMpxsConns : List UInt8 := ascii "FCGI_MPXS_CONNS"

/-! ## Request identifiers -/

/-- A request: the descriptor of its connection and its FastCGI id, ordered
lexically. -/
structure FcgiRequestIdentifier where
  descriptor : Nat
  fcgiId : UInt16
  deriving DecidableEq, Repr

instance : Ord FcgiRequestIdentifier :=
  ⟨compareLex (compareOn (·.descriptor)) (compareOn (·.fcgiId))⟩

instance : TransOrd FcgiRequestIdentifier :=
  inferInstanceAs (TransCmp (compareLex (compareOn FcgiRequestIdentifier.descriptor)
    (compareOn FcgiRequestIdentifier.fcgiId)))

instance : LawfulEqOrd FcgiRequestIdentifier where
  eq_of_compare {a b} h := by
    simp only [compare, compareLex_eq_eq, compareOn] at h
    obtain ⟨h₁, h₂⟩ := h
    cases a with
    | mk d i =>
      cases b with
      | mk d' i' =>
        congr
        · exact LawfulEqOrd.eq_of_compare (α := Nat) h₁
        · exact LawfulEqOrd.eq_of_compare (α := UInt16) h₂

/-! ## Headers and records -/

def populateHeader (type : FcgiType) (fcgiId : UInt16) (contentLength paddingLength : Nat) :
    List UInt8 :=
  [fcgiVersion1, type, UInt8.ofNat (fcgiId.toNat / 256), UInt8.ofNat fcgiId.toNat,
    UInt8.ofNat (contentLength / 256), UInt8.ofNat contentLength, UInt8.ofNat paddingLength, 0]

def populateBeginRequestRecord (fcgiId role : UInt16) (keepConn : Bool) : List UInt8 :=
  populateHeader kFcgiBeginRequest fcgiId fcgiHeaderLen 0 ++
    [UInt8.ofNat (role.toNat / 256), UInt8.ofNat role.toNat, if keepConn then 1 else 0,
      0, 0, 0, 0, 0]

/-- The bytes of an application status, most significant first. -/
def appStatusBytes (appStatus : Int32) : List UInt8 :=
  let bits := appStatus.toUInt32.toNat
  [UInt8.ofNat (bits / 2 ^ 24), UInt8.ofNat (bits / 2 ^ 16), UInt8.ofNat (bits / 2 ^ 8),
    UInt8.ofNat bits]

def endRequestBody (appStatus : Int32) (protocolStatus : UInt8) : List UInt8 :=
  appStatusBytes appStatus ++ [protocolStatus, 0, 0, 0]

def headerType (header : List UInt8) : FcgiType := header.getD 1 0

def headerRequestId (header : List UInt8) : UInt16 :=
  UInt16.ofNat ((header.getD 2 0).toNat * 256 + (header.getD 3 0).toNat)

def headerContentLength (header : List UInt8) : Nat :=
  (header.getD 4 0).toNat * 256 + (header.getD 5 0).toNat

def headerPaddingLength (header : List UInt8) : Nat := (header.getD 6 0).toNat

@[simp] theorem length_populateHeader (type : FcgiType) (fcgiId : UInt16) (n p : Nat) :
    (populateHeader type fcgiId n p).length = 8 := rfl

@[simp] theorem headerType_populateHeader (type : FcgiType) (fcgiId : UInt16) (n p : Nat) :
    headerType (populateHeader type fcgiId n p) = type := rfl

@[simp] theorem headerRequestId_populateHeader (type : FcgiType) (fcgiId : UInt16) (n p : Nat) :
    headerRequestId (populateHeader type fcgiId n p) = fcgiId := by
  have hlt : fcgiId.toNat < 65536 := fcgiId.toNat_lt
  have hv : fcgiId.toNat / 256 % 256 * 256 + fcgiId.toNat % 256 = fcgiId.toNat := by omega
  simp [headerRequestId, populateHeader, hv]

theorem headerContentLength_populateHeader (type : FcgiType) (fcgiId : UInt16) {n : Nat} (p : Nat)
    (hn : n ≤ kMaxRecordContentByteLength) :
    headerContentLength (populateHeader type fcgiId n p) = n := by
  simp only [kMaxRecordContentByteLength] at hn
  simp [headerContentLength, populateHeader]
  omega

theorem headerPaddingLength_populateHeader (type : FcgiType) (fcgiId : UInt16) (n : Nat) {p : Nat}
    (hp : p < 256) : headerPaddingLength (populateHeader type fcgiId n p) = p := by
  simp [headerPaddingLength, populateHeader]
  omega

/-- A record as its sender means it; `padding` bytes of any value. -/
structure Record where
  type : FcgiType
  fcgiId : UInt16
  content : List UInt8
  padding : List UInt8
  deriving DecidableEq, Repr

namespace Record

def header (r : Record) : List UInt8 :=
  populateHeader r.type r.fcgiId r.content.length r.padding.length

def encode (r : Record) : List UInt8 := r.header ++ r.content ++ r.padding

/-- The lengths fit in the header. -/
def Fits (r : Record) : Prop :=
  r.content.length ≤ kMaxRecordContentByteLength ∧ r.padding.length < 256

end Record

/-- A list of records laid end to end. -/
def encodeRecords (rs : List Record) : List UInt8 := rs.flatMap Record.encode

@[simp] theorem encodeRecords_nil : encodeRecords [] = [] := rfl

@[simp] theorem encodeRecords_cons (r : Record) (rs : List Record) :
    encodeRecords (r :: rs) = r.encode ++ encodeRecords rs := rfl

@[simp] theorem encodeRecords_append (rs rs' : List Record) :
    encodeRecords (rs ++ rs') = encodeRecords rs ++ encodeRecords rs' := List.flatMap_append

/-- The padding that aligns `n` bytes of content to eight bytes. -/
def paddingFor (n : Nat) : Nat := if n % 8 = 0 then 0 else 8 - n % 8

theorem paddingFor_lt (n : Nat) : paddingFor n < 8 := by
  unfold paddingFor
  split <;> omega

end AsComponents.Protocol
