import AsComponents.Buffers
import AsComponents.EncodingRecords

/-! `EncodeNameValuePairs` with its memory: headers, lengths and padding stand in
one vector which grows while the `iovec` list is built, so that pointers into it
are filled in at the end.  The list then describes the bytes that the call
produces. -/

namespace AsComponents.Encoding

open Protocol NameValue AsComponents.Partition Buffers

/-- `iov_base`: null, a byte of the name (index 1) or of the value (index 2) of a
pair of the range, or a byte of `local_buffers`. -/
inductive Base
  | null
  | data (pair index start : Nat)
  | buffer (offset : Nat)
  deriving DecidableEq, Repr

structure Iovec where
  base : Base
  length : Nat
  deriving DecidableEq, Repr

/-- The bytes at an entry of the list; `none` when it does not point to that many. -/
def Iovec.read (localBuffers : Bytes) (pairs : List ByteSeqPair) (v : Iovec) : Option Bytes :=
  match v.base with
  | .null => none
  | .data pair index start => do
      let p ← pairs[pair]?
      slice (if index = 1 then p.1 else p.2) start v.length
  | .buffer offset => slice localBuffers offset v.length

/-- The variables of the loops. -/
structure BufferState where
  remainingIovecCount : Nat
  remainingByteCount : Nat
  iovecList : List Iovec := []
  localBuffers : Bytes := []
  indexPairs : List (Nat × Nat) := []
  numberToWrite : Nat := 0
  previousContentLength : Nat := 0
  previousHeaderOffset : Nat := 0
  nvPairBytesPlaced : Nat := 0
  recordCount : Nat := 0
  incompleteNvWrite : Bool := false
  deriving DecidableEq, Repr

def kHeaderContentLengthB1Index : Nat := 4
def kHeaderPaddingLengthIndex : Nat := 6

/-- An entry for bytes of `local_buffers`, which are found at the end. -/
def BufferState.pushLocal (s : BufferState) (offset length : Nat) : BufferState :=
  { s with
    iovecList := s.iovecList ++ [⟨.null, length⟩]
    indexPairs := s.indexPairs ++ [(s.iovecList.length, offset)] }

section

variable (type : FcgiType) (fcgiId : UInt16)

/-- The entry of a round of the loop over the three byte sequences. -/
def BufferState.pushEntry (s : BufferState) (p : SizedPair) (pair nameValueBufferOffset index : Nat)
    (localRemaining localNumberToPlace : Nat) : BufferState :=
  if index = 0 then
    { s.pushLocal (nameValueBufferOffset + s.nvPairBytesPlaced) localNumberToPlace with
      remainingIovecCount := s.remainingIovecCount - 1 }
  else if localNumberToPlace ≠ 0 then
    { s with
      iovecList := s.iovecList ++
        [⟨.data pair index ((p.bytes index).length - localRemaining), localNumberToPlace⟩]
      remainingIovecCount := s.remainingIovecCount - 1 }
  else s

/-- A round of the loop over the three byte sequences up to its checks. -/
def pushBytes (p : SizedPair) (pair nameValueBufferOffset index : Nat) (s : BufferState) :
    BufferState :=
  let remainingContentCapacity := maxAlignedContentLength - s.previousContentLength
  let currentLimit := min s.remainingByteCount remainingContentCapacity
  let numberToPlace := min (p.totalLength - s.nvPairBytesPlaced) currentLimit
  let localRemaining := (p.bytes index).length - (s.nvPairBytesPlaced - p.sum index)
  let localNumberToPlace := min localRemaining numberToPlace
  let s := s.pushEntry p pair nameValueBufferOffset index localRemaining localNumberToPlace
  let previousContentLength := s.previousContentLength + localNumberToPlace
  { s with
    nvPairBytesPlaced := s.nvPairBytesPlaced + localNumberToPlace
    numberToWrite := s.numberToWrite + localNumberToPlace
    remainingByteCount := s.remainingByteCount - localNumberToPlace
    previousContentLength
    localBuffers := patch s.localBuffers (s.previousHeaderOffset + kHeaderContentLengthB1Index)
      [UInt8.ofNat (previousContentLength / 256), UInt8.ofNat previousContentLength] }

/-- The loop over the three byte sequences of a pair from an index on. -/
def pushLoop (p : SizedPair) (pair nameValueBufferOffset : Nat) :
    List Nat → BufferState → BufferState × Bool
  | [], s => (s, false)
  | index :: indices, s =>
      let s := pushBytes p pair nameValueBufferOffset index s
      if s.remainingIovecCount = 0 ∨ s.remainingByteCount = 0 then
        ({ s with incompleteNvWrite :=
            s.incompleteNvWrite || decide (s.nvPairBytesPlaced < p.totalLength) }, true)
      else if s.previousContentLength = maxAlignedContentLength then
        ({ s with previousContentLength := 0 }, false)
      else pushLoop p pair nameValueBufferOffset indices s

/-- The start of a record; `none` when there is no room for one. -/
def pushHeader (s : BufferState) : Option BufferState :=
  if s.previousContentLength = 0 then
    if s.remainingIovecCount ≥ 2 ∧ s.remainingByteCount ≥ fcgiHeaderLen + 1 then
      let s := { s with previousHeaderOffset := s.localBuffers.length }
      let s := s.pushLocal s.previousHeaderOffset fcgiHeaderLen
      some { s with
        localBuffers := patch (s.localBuffers ++ List.replicate fcgiHeaderLen 0) s.previousHeaderOffset
          (populateHeader type fcgiId 0 0)
        numberToWrite := s.numberToWrite + fcgiHeaderLen
        remainingByteCount := s.remainingByteCount - fcgiHeaderLen
        remainingIovecCount := s.remainingIovecCount - 1
        recordCount := s.recordCount + 1 }
    else none
  else some s

/-- The loop which produces records for one pair. -/
def pushRecords (p : SizedPair) (pair nameValueBufferOffset : Nat) : Nat → BufferState → BufferState
  | 0, s => s
  | fuel + 1, s =>
      if p.totalLength - s.nvPairBytesPlaced = 0 then s
      else
        match pushHeader type fcgiId s with
        | none => { s with incompleteNvWrite := true }
        | some s =>
            let (s, paddingLimitReached) := pushLoop p pair nameValueBufferOffset
              ((List.range 3).drop (p.determineIndex s.nvPairBytesPlaced)) s
            if paddingLimitReached then s else pushRecords p pair nameValueBufferOffset fuel s

/-- The lengths of a pair as they are appended to `local_buffers`, with
`name_or_value_too_big`: a value that is too big is found after the length of
the name was appended. -/
def pushLengths (name value : Bytes) : Bytes × Bool :=
  if name.length > kNameValuePairFourByteLength then ([], true)
  else if value.length > kNameValuePairFourByteLength then (encodeLength name.length, true)
  else (encodeLength name.length ++ encodeLength value.length, false)

/-- The loop over the pairs; `pair` counts them. -/
def pushPairs (sizeMax : Nat) :
    List ByteSeqPair → Nat → Nat → BufferState → BufferState × Bool × List ByteSeqPair
  | [], _, _, s => (s, false, [])
  | (name, value) :: pairs, pair, offset, s =>
      if s.remainingIovecCount = 0 ∨ s.remainingByteCount = 0 then
        (s, false, (name, value) :: pairs)
      else
        let nameValueBufferOffset := s.localBuffers.length
        let s := { s with nvPairBytesPlaced := offset }
        let (lengths, tooBig) := pushLengths name value
        let s := { s with localBuffers := s.localBuffers ++ lengths }
        let p : SizedPair := ⟨lengths, name, value⟩
        if tooBig ∨ name.length > sizeMax - p.sum 1 ∨ value.length > sizeMax - p.sum 2 then
          ({ s with localBuffers := s.localBuffers.take (s.localBuffers.length - lengths.length) },
            true, (name, value) :: pairs)
        else
          let s := pushRecords type fcgiId p pair nameValueBufferOffset (p.totalLength - offset) s
          if s.incompleteNvWrite then (s, false, (name, value) :: pairs)
          else pushPairs sizeMax pairs (pair + 1) 0 s

/-- The padding of the last record. -/
def pushPadding (s : BufferState) : BufferState :=
  let padMod := s.previousContentLength % fcgiHeaderLen
  if padMod = 0 then s
  else
    let complement := fcgiHeaderLen - padMod
    let s := s.pushLocal s.localBuffers.length complement
    { s with
      localBuffers := patch (s.localBuffers ++ List.replicate complement 0)
        (s.previousHeaderOffset + kHeaderPaddingLengthIndex) [UInt8.ofNat complement]
      numberToWrite := s.numberToWrite + complement }

/-- The pointers into `local_buffers` are filled in. -/
def fillBases (indexPairs : List (Nat × Nat)) (iovecList : List Iovec) : List Iovec :=
  indexPairs.foldl (fun iovecList q => iovecList.modify q.1 fun v => ⟨.buffer q.2, v.length⟩) iovecList

/-- What a call returns. -/
structure BufferReturn where
  ok : Bool
  numberToWrite : Nat
  iovecList : List Iovec
  recordCount : Nat
  localBuffers : Bytes
  offset : Nat
  rest : List ByteSeqPair
  deriving DecidableEq, Repr

/-- `EncodeNameValuePairs` with its memory. -/
def encodeBuffers (l : SystemLimits) (pairs : List ByteSeqPair) (offset : Nat) : BufferReturn :=
  if pairs = [] then ⟨true, 0, [], 0, [], 0, []⟩
  else
    let (s, rejected, rest) := pushPairs type fcgiId l.sizeMax pairs 0 offset
      { remainingIovecCount := min (l.iovMax.getD 1024) intMax - 1
        remainingByteCount := l.ssizeMax - 7 }
    let s := pushPadding s
    ⟨!rejected, s.numberToWrite, fillBases s.indexPairs s.iovecList, s.recordCount, s.localBuffers,
      if s.incompleteNvWrite then s.nvPairBytesPlaced else 0, rest⟩

end

end AsComponents.Encoding
