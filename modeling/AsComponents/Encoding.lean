import AsComponents.NameValue
import AsComponents.Partition

/-! `EncodeNameValuePairs` of `fcgi_utilities_templates.h`: the records which
carry name-value pairs, as the `iovec` list of one gathering write. -/

namespace AsComponents.Encoding

open Protocol NameValue AsComponents.Partition

/-- The variables of the loops.  `iovec` describes bytes by their values;
`headerIndex` is where the header of the last record stands in it. -/
structure EncodeState where
  remainingIovecCount : Nat
  remainingByteCount : Nat
  iovec : List Bytes := []
  numberToWrite : Nat := 0
  previousContentLength : Nat := 0
  headerIndex : Nat := 0
  nvPairBytesPlaced : Nat := 0
  recordCount : Nat := 0
  incompleteNvWrite : Bool := false
  deriving DecidableEq, Repr

/-- A pair with its length information, which is `lengths`. -/
structure SizedPair where
  lengths : Bytes
  name : Bytes
  value : Bytes

namespace SizedPair

/-- The three byte sequences of a pair, by their index. -/
def bytes (p : SizedPair) : Nat → Bytes
  | 0 => p.lengths
  | 1 => p.name
  | _ => p.value

/-- `sums`. -/
def sum (p : SizedPair) : Nat → Nat
  | 0 => 0
  | 1 => p.lengths.length
  | _ => p.name.length + p.lengths.length

def totalLength (p : SizedPair) : Nat := p.value.length + p.sum 2

/-- `determine_index`. -/
def determineIndex (p : SizedPair) (nvPairBytesPlaced : Nat) : Nat :=
  if nvPairBytesPlaced < p.sum 1 then 0 else if nvPairBytesPlaced < p.sum 2 then 1 else 2

end SizedPair

section

variable (type : FcgiType) (fcgiId : UInt16)

/-- The header of the last record with the content and padding lengths it has
now. -/
def EncodeState.setHeader (s : EncodeState) (contentLength padding : Nat) : EncodeState :=
  { s with iovec := s.iovec.set s.headerIndex (populateHeader type fcgiId contentLength padding) }

/-- A round of the loop over the three byte sequences up to its checks. -/
def placeBytes (p : SizedPair) (index : Nat) (s : EncodeState) : EncodeState :=
  let remainingContentCapacity := maxAlignedContentLength - s.previousContentLength
  let currentLimit := min s.remainingByteCount remainingContentCapacity
  let numberToPlace := min (p.totalLength - s.nvPairBytesPlaced) currentLimit
  let placed := s.nvPairBytesPlaced - p.sum index
  let localRemaining := (p.bytes index).length - placed
  let localNumberToPlace := min localRemaining numberToPlace
  let addsIovec := index = 0 ∨ localNumberToPlace ≠ 0
  { s with
    iovec :=
      if addsIovec then s.iovec ++ [((p.bytes index).drop placed).take localNumberToPlace]
      else s.iovec
    remainingIovecCount :=
      if addsIovec then s.remainingIovecCount - 1 else s.remainingIovecCount
    nvPairBytesPlaced := s.nvPairBytesPlaced + localNumberToPlace
    numberToWrite := s.numberToWrite + localNumberToPlace
    remainingByteCount := s.remainingByteCount - localNumberToPlace
    previousContentLength := s.previousContentLength + localNumberToPlace }.setHeader type fcgiId
    (s.previousContentLength + localNumberToPlace) 0

/-- The loop over the three byte sequences of a pair from an index on; the
Boolean is `padding_limit_reached`. -/
def placeLoop (p : SizedPair) : List Nat → EncodeState → EncodeState × Bool
  | [], s => (s, false)
  | index :: indices, s =>
      let s := placeBytes type fcgiId p index s
      if s.remainingIovecCount = 0 ∨ s.remainingByteCount = 0 then
        ({ s with incompleteNvWrite :=
            s.incompleteNvWrite || decide (s.nvPairBytesPlaced < p.totalLength) }, true)
      else if s.previousContentLength = maxAlignedContentLength then
        ({ s with previousContentLength := 0 }, false)
      else placeLoop p indices s

/-- The start of a record; `none` when there is no room for one. -/
def startRecord (s : EncodeState) : Option EncodeState :=
  if s.previousContentLength = 0 then
    if s.remainingIovecCount ≥ 2 ∧ s.remainingByteCount ≥ fcgiHeaderLen + 1 then
      some { s with
        headerIndex := s.iovec.length
        iovec := s.iovec ++ [populateHeader type fcgiId 0 0]
        numberToWrite := s.numberToWrite + fcgiHeaderLen
        remainingByteCount := s.remainingByteCount - fcgiHeaderLen
        remainingIovecCount := s.remainingIovecCount - 1
        recordCount := s.recordCount + 1 }
    else none
  else some s

/-- The loop which produces records for one pair.  A round places at least one
byte, so that as many rounds as there are bytes are enough. -/
def recordLoop (p : SizedPair) : Nat → EncodeState → EncodeState
  | 0, s => s
  | fuel + 1, s =>
      if p.totalLength - s.nvPairBytesPlaced = 0 then s
      else
        match startRecord type fcgiId s with
        | none => { s with incompleteNvWrite := true }
        | some s =>
            let (s, paddingLimitReached) :=
              placeLoop type fcgiId p ((List.range 3).drop (p.determineIndex s.nvPairBytesPlaced)) s
            if paddingLimitReached then s else recordLoop p fuel s

/-- The loop over the pairs; the Boolean says that a name or value is too big
or that the lengths of a pair overflow. -/
def pairLoop (sizeMax : Nat) :
    List ByteSeqPair → Nat → EncodeState → EncodeState × Bool × List ByteSeqPair
  | [], _, s => (s, false, [])
  | (name, value) :: pairs, offset, s =>
      if s.remainingIovecCount = 0 ∨ s.remainingByteCount = 0 then
        (s, false, (name, value) :: pairs)
      else
        let s := { s with nvPairBytesPlaced := offset }
        let p : SizedPair := ⟨encodeLength name.length ++ encodeLength value.length, name, value⟩
        if name.length > kNameValuePairFourByteLength ∨ value.length > kNameValuePairFourByteLength ∨
            p.totalLength > sizeMax then
          (s, true, (name, value) :: pairs)
        else
          let s := recordLoop type fcgiId p (p.totalLength - offset) s
          if s.incompleteNvWrite then (s, false, (name, value) :: pairs)
          else pairLoop sizeMax pairs 0 s

/-- What a call returns: whether no pair was rejected, the `iovec` list, the
bytes it describes, the number of records, the number of bytes of the first
remaining pair that it covers, and the remaining pairs. -/
structure EncodeReturn where
  ok : Bool
  numberToWrite : Nat
  iovec : List Bytes
  recordCount : Nat
  offset : Nat
  rest : List ByteSeqPair
  deriving DecidableEq, Repr

/-- The padding of the last record. -/
def addPadding (s : EncodeState) : EncodeState :=
  let padMod := s.previousContentLength % fcgiHeaderLen
  if padMod = 0 then s
  else
    let complement := fcgiHeaderLen - padMod
    let s := s.setHeader type fcgiId s.previousContentLength complement
    { s with
      iovec := s.iovec ++ [List.replicate complement 0]
      numberToWrite := s.numberToWrite + complement }

def encodeNameValuePairs (l : SystemLimits) (pairs : List ByteSeqPair) (offset : Nat) :
    EncodeReturn :=
  if pairs = [] then ⟨true, 0, [], 0, 0, []⟩
  else
    let (s, rejected, rest) := pairLoop type fcgiId l.sizeMax pairs offset
      { remainingIovecCount := min (l.iovMax.getD 1024) intMax - 1
        remainingByteCount := l.ssizeMax - 7 }
    let s := addPadding type fcgiId s
    ⟨!rejected, s.numberToWrite, s.iovec, s.recordCount,
      if s.incompleteNvWrite then s.nvPairBytesPlaced else 0, rest⟩

end

/-- `EncodeNVPairSingleRecordFailure`. -/
def EncodeReturn.singleRecordFailure (r : EncodeReturn) : Bool :=
  !r.ok || r.recordCount != 1 || r.offset != 0 || !r.rest.isEmpty

/-! ## The bytes that are described -/

/-- The bytes are counted, and every record has its header. -/
structure Counted (s : EncodeState) : Prop where
  numberToWrite : s.numberToWrite = s.iovec.flatten.length
  header : s.previousContentLength ≠ 0 → ∃ h, s.iovec[s.headerIndex]? = some h ∧ h.length = 8

theorem length_flatten_set {iovec : List Bytes} {i : Nat} {old : Bytes} (new : Bytes)
    (h : iovec[i]? = some old) (hlength : new.length = old.length) :
    (iovec.set i new).flatten.length = iovec.flatten.length := by
  induction iovec generalizing i with
  | nil => simp at h
  | cons v iovec ih =>
    cases i with
    | zero =>
      obtain rfl := Option.some.inj h
      simp [hlength]
    | succ i => simpa using ih (by simpa using h)

section

variable {type : FcgiType} {fcgiId : UInt16} {s : EncodeState} {p : SizedPair}

theorem getElem?_setHeader (type : FcgiType) (fcgiId : UInt16) (n padding : Nat) {h : Bytes} (hs : s.iovec[s.headerIndex]? = some h) :
    (s.setHeader type fcgiId n padding).iovec[s.headerIndex]? =
      some (populateHeader type fcgiId n padding) := by
  obtain ⟨hlt, -⟩ := List.getElem?_eq_some_iff.mp hs
  simp [EncodeState.setHeader, hlt]

theorem length_flatten_setHeader (type : FcgiType) (fcgiId : UInt16) (n padding : Nat)
    {h : Bytes}
    (hs : s.iovec[s.headerIndex]? = some h) (hlength : h.length = 8) :
    (s.setHeader type fcgiId n padding).iovec.flatten.length = s.iovec.flatten.length :=
  length_flatten_set _ hs (by simp [hlength])

theorem counted_placeBytes (type : FcgiType) (fcgiId : UInt16) (p : SizedPair) (index : Nat)
    (hc : Counted s) {h : Bytes}
    (hs : s.iovec[s.headerIndex]? = some h) (hlength : h.length = 8) :
    Counted (placeBytes type fcgiId p index s) ∧
      ∃ h, (placeBytes type fcgiId p index s).iovec[(placeBytes type fcgiId p index s).headerIndex]? =
        some h ∧ h.length = 8 := by
  unfold placeBytes
  extract_lets capacity limit number placed localRemaining place adds
  have hplace : (((p.bytes index).drop placed).take place).length = place := by
    rw [List.length_take, List.length_drop]
    exact Nat.min_eq_left (Nat.min_le_left _ _)
  obtain ⟨hlt, -⟩ := List.getElem?_eq_some_iff.mp hs
  have hkept : (if adds then s.iovec ++ [((p.bytes index).drop placed).take place]
      else s.iovec)[s.headerIndex]? = some h := by
    split
    · rw [List.getElem?_append_left hlt, hs]
    · exact hs
  have hheader := getElem?_setHeader type fcgiId (s.previousContentLength + place) 0
    (s := { s with
      iovec := if adds then s.iovec ++ [((p.bytes index).drop placed).take place] else s.iovec }) hkept
  refine ⟨⟨?_, fun _ => ⟨_, hheader, rfl⟩⟩, _, hheader, rfl⟩
  have hcount := length_flatten_set
    (populateHeader type fcgiId (s.previousContentLength + place) 0) hkept (by simp [hlength])
  simp only [EncodeState.setHeader, hcount, hc.numberToWrite]
  split
  · simp only [List.flatten_append, List.flatten_cons, List.flatten_nil, List.append_nil,
      List.length_append, hplace]
  · rename_i hnone
    have : place = 0 := by
      by_contra hne
      exact hnone (.inr hne)
    omega

theorem counted_placeLoop (type : FcgiType) (fcgiId : UInt16) (p : SizedPair)
    (indices : List Nat) (hc : Counted s) {h : Bytes}
    (hs : s.iovec[s.headerIndex]? = some h) (hlength : h.length = 8) :
    Counted (placeLoop type fcgiId p indices s).1 := by
  induction indices generalizing s h with
  | nil => exact hc
  | cons index indices ih =>
    obtain ⟨hc', h', hs', hlength'⟩ := counted_placeBytes type fcgiId p index hc hs hlength
    simp only [placeLoop]
    split_ifs
    · exact ⟨hc'.numberToWrite, hc'.header⟩
    · exact ⟨hc'.numberToWrite, fun hne => absurd rfl hne⟩
    · exact ih hc' hs' hlength'

theorem counted_recordLoop (type : FcgiType) (fcgiId : UInt16) (p : SizedPair) (fuel : Nat) (hc : Counted s) :
    Counted (recordLoop type fcgiId p fuel s) := by
  induction fuel generalizing s with
  | zero => exact hc
  | succ fuel ih =>
    rw [recordLoop]
    split
    · exact hc
    · split
      · exact ⟨hc.numberToWrite, hc.header⟩
      · rename_i s' hstart
        have hs' : Counted s' ∧ ∃ h, s'.iovec[s'.headerIndex]? = some h ∧ h.length = 8 := by
          unfold startRecord at hstart
          split_ifs at hstart with hzero <;> obtain rfl := Option.some.inj hstart
          · refine ⟨⟨?_, fun _ => ?_⟩, ?_⟩
            · simp [hc.numberToWrite, fcgiHeaderLen]
            · exact ⟨_, List.getElem?_concat_length .., rfl⟩
            · exact ⟨_, List.getElem?_concat_length .., rfl⟩
          · exact ⟨hc, hc.header hzero⟩
        obtain ⟨hc', h, hh, hlength⟩ := hs'
        have hplaced := counted_placeLoop type fcgiId p
          ((List.range 3).drop (p.determineIndex s'.nvPairBytesPlaced)) hc' hh hlength
        split
        rename_i t limit ht
        rw [ht] at hplaced
        split
        · exact hplaced
        · exact ih hplaced

theorem counted_pairLoop (type : FcgiType) (fcgiId : UInt16) (sizeMax : Nat) (pairs : List ByteSeqPair)
    (offset : Nat) (hc : Counted s) :
    Counted (pairLoop type fcgiId sizeMax pairs offset s).1 := by
  induction pairs generalizing s offset with
  | nil => exact hc
  | cons pair pairs ih =>
    obtain ⟨name, value⟩ := pair
    rw [pairLoop]
    split
    · exact hc
    · extract_lets start sized placed
      have hstart : Counted start := ⟨hc.numberToWrite, hc.header⟩
      split
      · exact hstart
      · have hplaced := counted_recordLoop type fcgiId sized (sized.totalLength - offset) hstart
        split
        · exact hplaced
        · exact ih 0 hplaced

/-- The number of bytes to write is the number of bytes described. -/
theorem numberToWrite_eq (l : SystemLimits) (pairs : List ByteSeqPair) (offset : Nat) :
    (encodeNameValuePairs type fcgiId l pairs offset).numberToWrite =
      (encodeNameValuePairs type fcgiId l pairs offset).iovec.flatten.length := by
  unfold encodeNameValuePairs
  split
  · rfl
  · have hc := counted_pairLoop type fcgiId l.sizeMax pairs offset
      (s := { remainingIovecCount := min (l.iovMax.getD 1024) intMax - 1
              remainingByteCount := l.ssizeMax - 7 }) ⟨rfl, fun hne => absurd rfl hne⟩
    split
    rename_i s rejected rest hs
    replace hc : Counted s := by
      rw [hs] at hc
      exact hc
    simp only [addPadding]
    split
    · exact hc.numberToWrite
    · rename_i hpad
      obtain ⟨h, hh, hlength⟩ := hc.header fun hzero => hpad (by rw [hzero]; rfl)
      have hcount := length_flatten_setHeader type fcgiId s.previousContentLength
        (fcgiHeaderLen - s.previousContentLength % fcgiHeaderLen) hh hlength
      simp only [List.flatten_append, List.length_append, hcount, ← hc.numberToWrite,
        List.flatten_cons, List.flatten_nil, List.append_nil, List.length_replicate]
      rfl

end

example : encodeNameValuePairs kFcgiParams 1 {} [([65], [66, 67])] 0 =
    ⟨true, 16, [[1, 4, 0, 1, 0, 5, 3, 0], [1, 2], [65], [66, 67], [0, 0, 0]], 1, 0, []⟩ := by
  decide

end AsComponents.Encoding
