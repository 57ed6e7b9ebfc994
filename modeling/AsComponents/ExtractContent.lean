import AsComponents.Protocol
import AsComponents.NameValue

/-! `ExtractContent` of `fcgi_si_testing_utilities.cc`, with which the tests read
the records of one stream from a file: a switch over the sections of a record
that may be left and entered again at every end of a buffer. -/

namespace AsComponents.ExtractContent

open Protocol NameValue

/-! ## The function -/

/-- What a call of `read` returned when it did not return zero. -/
inductive ReadResult
  | bytes (buffer : Bytes)
  | interrupted
  | failed
  deriving DecidableEq, Repr

/-- The values of `state`. -/
inductive Section
  | header
  | content
  | padding
  deriving DecidableEq, Repr

/-- The local variables; `localHeader` holds the bytes of the header that were
read. -/
structure State where
  localHeader : Bytes := []
  contentBytes : Bytes := []
  contentLength : Nat := 0
  contentBytesRead : Nat := 0
  paddingLength : Nat := 0
  paddingBytesRead : Nat := 0
  readError : Bool := false
  headerError : Bool := false
  sequenceTerminated : Bool := false
  aligned : Bool := true
  state : Section := .header
  headerCount : Nat := 0
  deriving DecidableEq, Repr

/-- The copy of bytes of a header that is not complete. -/
def copyHeader (s : State) (buffer : Bytes) : State × Bytes :=
  if s.localHeader.length < fcgiHeaderLen then
    let missing := fcgiHeaderLen - s.localHeader.length
    let header := s.localHeader ++ buffer.take missing
    let count := if header.length < fcgiHeaderLen then s.headerCount else s.headerCount + 1
    ({ s with localHeader := header, headerCount := count }, buffer.drop missing)
  else (s, buffer)

/-- `case 0` for a complete header; the last component says that the next case
follows. -/
def checkHeader (type : FcgiType) (id : UInt16) (s : State) (rest : Bytes) : State × Bytes × Bool :=
  let contentLength := headerContentLength s.localHeader
  let paddingLength := headerPaddingLength s.localHeader
  let s := { s with
    contentLength := contentLength
    paddingLength := paddingLength
    aligned := s.aligned && (contentLength + paddingLength) % 8 == 0 }
  if headerType s.localHeader ≠ type ∨ headerRequestId s.localHeader ≠ id then
    ({ s with headerError := true }, rest, false)
  else if contentLength = 0 then
    ({ s with sequenceTerminated := true }, rest, false)
  else ({ s with localHeader := [], state := .content }, rest, rest ≠ [])

def headerSection (type : FcgiType) (id : UInt16) (s : State) (buffer : Bytes) :
    State × Bytes × Bool :=
  let (s, rest) := copyHeader s buffer
  if s.localHeader.length < fcgiHeaderLen then (s, rest, false) else checkHeader type id s rest

def copyContent (s : State) (buffer : Bytes) : State × Bytes :=
  if s.contentBytesRead < s.contentLength then
    let missing := s.contentLength - s.contentBytesRead
    ({ s with
        contentBytes := s.contentBytes ++ buffer.take missing
        contentBytesRead := s.contentBytesRead + min missing buffer.length }, buffer.drop missing)
  else (s, buffer)

/-- `case 1`. -/
def contentSection (s : State) (buffer : Bytes) : State × Bytes × Bool :=
  let (s, rest) := copyContent s buffer
  if s.contentBytesRead < s.contentLength then (s, rest, false)
  else ({ s with contentBytesRead := 0, state := .padding }, rest, rest ≠ [])

def skipPadding (s : State) (buffer : Bytes) : State × Bytes :=
  if s.paddingBytesRead < s.paddingLength then
    let missing := s.paddingLength - s.paddingBytesRead
    ({ s with paddingBytesRead := s.paddingBytesRead + min missing buffer.length },
      buffer.drop missing)
  else (s, buffer)

/-- `case 2`. -/
def paddingSection (s : State) (buffer : Bytes) : State × Bytes :=
  let (s, rest) := skipPadding s buffer
  if s.paddingBytesRead < s.paddingLength then (s, rest)
  else ({ s with paddingBytesRead := 0, state := .header }, rest)

/-- `case 1` and the case after it. -/
def contentCase (s : State) (buffer : Bytes) : State × Bytes :=
  let (s, rest, through) := contentSection s buffer
  if through then paddingSection s rest else (s, rest)

/-- The `switch`, with the part of the buffer that is left. -/
def sections (type : FcgiType) (id : UInt16) (s : State) (buffer : Bytes) : State × Bytes :=
  match s.state with
  | .header =>
      let (s, rest, through) := headerSection type id s buffer
      if through then contentCase s rest else (s, rest)
  | .content => contentCase s buffer
  | .padding => paddingSection s buffer

/-- The loop over a buffer; every second run of the `switch` takes a byte. -/
def processBuffer (type : FcgiType) (id : UInt16) : Nat → State → Bytes → State
  | 0, s, _ => s
  | fuel + 1, s, buffer =>
      if buffer = [] then s
      else
        let (s, rest) := sections type id s buffer
        if s.readError || s.headerError || s.sequenceTerminated then s
        else processBuffer type id fuel s rest

/-- The loop over the calls of `read`; the file ends after the last one. -/
def readLoop (type : FcgiType) (id : UInt16) : List ReadResult → State → State
  | [], s => s
  | .interrupted :: reads, s => readLoop type id reads s
  | .failed :: _, s => { s with readError := true }
  | .bytes buffer :: reads, s =>
      if buffer = [] then s
      else
        let s := processBuffer type id (2 * buffer.length + 1) s buffer
        if s.readError || s.headerError || s.sequenceTerminated then s
        else readLoop type id reads s

/-- `section_error` of a content that has ended. -/
def sectionError (s : State) : Bool :=
  if s.readError || s.headerError || s.sequenceTerminated then false
  else
    match s.state with
    | .header => decide (0 < s.localHeader.length ∧ s.localHeader.length < fcgiHeaderLen)
    | .content => s.contentBytesRead != s.contentLength
    | .padding => s.paddingBytesRead != s.paddingLength

def result (s : State) : Bool × Bool × Bool × Bool × Nat × Bytes :=
  (!s.readError, !(s.headerError || sectionError s), s.sequenceTerminated,
    if s.headerError || sectionError s then false else s.aligned, s.headerCount, s.contentBytes)

def extractContent (type : FcgiType) (id : UInt16) (reads : List ReadResult) :
    Bool × Bool × Bool × Bool × Nat × Bytes :=
  result (readLoop type id reads {})

/-! ## The records of a content -/

/-- Why the extraction stops. -/
inductive Stop
  | mismatch
  | terminated
  | complete
  | incomplete
  deriving DecidableEq, Repr

/-- What was extracted so far. -/
structure Extracted where
  content : Bytes := []
  headerCount : Nat := 0
  aligned : Bool := true
  deriving DecidableEq, Repr

/-- One more header. -/
def Extracted.meet (e : Extracted) (header : Bytes) : Extracted :=
  { e with
    headerCount := e.headerCount + 1
    aligned := e.aligned && (headerContentLength header + headerPaddingLength header) % 8 == 0 }

/-- The records of a content, one after the other. -/
def records (type : FcgiType) (id : UInt16) (e : Extracted) (bytes : Bytes) : Stop × Extracted :=
  if _ : bytes.length < fcgiHeaderLen then
    (if bytes = [] then .complete else .incomplete, e)
  else
    let header := bytes.take fcgiHeaderLen
    let body := bytes.drop fcgiHeaderLen
    let n := headerContentLength header
    let p := headerPaddingLength header
    if headerType header ≠ type ∨ headerRequestId header ≠ id then (.mismatch, e.meet header)
    else if n = 0 then (.terminated, e.meet header)
    else
      let e := { e.meet header with content := e.content ++ body.take n }
      if body.length < n + p then (.incomplete, e)
      else records type id e (body.drop (n + p))
termination_by bytes.length
decreasing_by
  simp only [List.length_drop, fcgiHeaderLen] at *
  omega

/-- The values that are returned for what was extracted. -/
def Extracted.returned (e : Extracted) (stop : Stop) : Bool × Bool × Bool × Bool × Nat × Bytes :=
  let valid := decide (stop = .terminated ∨ stop = .complete)
  (true, valid, decide (stop = .terminated), valid && e.aligned, e.headerCount, e.content)

/-! ## A record that is read in parts -/

section

variable {type : FcgiType} {id : UInt16} {e : Extracted} {s : State} {n p : Nat}
  {buffer more x header : Bytes}

/-- What is left of a record, `n` bytes of content and `p` bytes of padding, and
the records behind it. -/
def body (type : FcgiType) (id : UInt16) (e : Extracted) (n p : Nat) (bytes : Bytes) :
    Stop × Extracted :=
  if bytes.length < n + p then (.incomplete, { e with content := e.content ++ bytes.take n })
  else records type id { e with content := e.content ++ bytes.take n } (bytes.drop (n + p))

theorem records_short (h : x.length < fcgiHeaderLen) :
    records type id e x = (if x = [] then .complete else .incomplete, e) := by
  rw [records, dif_pos h]

theorem records_header (h : header.length = fcgiHeaderLen) (bytes : Bytes) :
    records type id e (header ++ bytes) =
      if headerType header ≠ type ∨ headerRequestId header ≠ id then (.mismatch, e.meet header)
      else if headerContentLength header = 0 then (.terminated, e.meet header)
      else body type id (e.meet header) (headerContentLength header) (headerPaddingLength header)
        bytes := by
  have hlong : ¬ (header ++ bytes).length < fcgiHeaderLen := by
    rw [List.length_append]
    omega
  rw [records, dif_neg hlong, List.take_left' h, List.drop_left' h]
  rfl

theorem body_content (h : x.length ≤ n) : body type id e n p (x ++ more) =
    body type id { e with content := e.content ++ x } (n - x.length) p more := by
  have htake : (x ++ more).take n = x ++ more.take (n - x.length) := by
    rw [List.take_append, List.take_of_length_le h]
  have hdrop : (x ++ more).drop (n + p) = more.drop (n - x.length + p) := by
    rw [List.drop_append, List.drop_eq_nil_of_le (by omega), List.nil_append]
    congr 1
    omega
  have hlength : (x ++ more).length < n + p ↔ more.length < n - x.length + p := by
    rw [List.length_append]
    omega
  simp only [body, htake, hdrop, hlength, List.append_assoc]

theorem body_padding (h : x.length ≤ p) :
    body type id e 0 p (x ++ more) = body type id e 0 (p - x.length) more := by
  have hdrop : (x ++ more).drop (0 + p) = more.drop (0 + (p - x.length)) := by
    rw [List.drop_append, List.drop_eq_nil_of_le (by omega), List.nil_append]
    congr 1
    omega
  have hlength : (x ++ more).length < 0 + p ↔ more.length < 0 + (p - x.length) := by
    rw [List.length_append]
    omega
  simp only [body, List.take_zero, hdrop, hlength]

theorem body_nothing (bytes : Bytes) : body type id e 0 0 bytes = records type id e bytes := by
  rw [body, if_neg (Nat.not_lt_zero _), List.take_zero, List.append_nil]
  rfl

/-- What the local variables hold. -/
def extracted (s : State) : Extracted := ⟨s.contentBytes, s.headerCount, s.aligned⟩

/-- The extraction of what follows, from where the switch is entered. -/
def resume (type : FcgiType) (id : UInt16) (s : State) (bytes : Bytes) : Stop × Extracted :=
  match s.state with
  | .header => records type id (extracted s) (s.localHeader ++ bytes)
  | .content => body type id (extracted s) (s.contentLength - s.contentBytesRead) s.paddingLength bytes
  | .padding => body type id (extracted s) 0 (s.paddingLength - s.paddingBytesRead) bytes

/-- No flag that ends the loops is set. -/
structure Running (s : State) : Prop where
  readError : s.readError = false
  headerError : s.headerError = false
  sequenceTerminated : s.sequenceTerminated = false

/-- The switch may be entered. -/
structure Ready (s : State) : Prop extends Running s where
  header : s.state = .header → s.localHeader.length < fcgiHeaderLen ∧ s.contentBytesRead = 0 ∧
    s.paddingBytesRead = 0
  content : s.state = .content → s.localHeader = [] ∧ s.contentBytesRead < s.contentLength ∧
    s.paddingBytesRead = 0
  padding : s.state = .padding → s.localHeader = [] ∧ s.contentBytesRead = 0 ∧
    s.paddingBytesRead ≤ s.paddingLength

/-- A run of the switch lowers this: it takes a byte, or it leaves a section of
padding. -/
def weight (s : State) (buffer : Bytes) : Nat :=
  2 * buffer.length + if s.state = .padding then 1 else 0

/-- What a run of the switch has to do: it goes on with what is left of the
buffer, or it stops with a flag. -/
inductive Resumes (type : FcgiType) (id : UInt16) (more : Bytes) (expected : Stop × Extracted)
    (bound : Nat) : State × Bytes → Prop
  | goesOn {s : State} {rest : Bytes} (ready : Ready s) (progress : weight s rest < bound)
      (resumed : resume type id s (rest ++ more) = expected) :
      Resumes type id more expected bound (s, rest)
  | stops {s : State} {rest : Bytes} (readError : s.readError = false)
      (stopped : (s.headerError || s.sequenceTerminated) = true)
      (returned : result s = expected.2.returned expected.1) :
      Resumes type id more expected bound (s, rest)

theorem Resumes.mono {expected : Stop × Extracted} {k l : Nat} {r : State × Bytes}
    (h : Resumes type id more expected k r) (hkl : k ≤ l) : Resumes type id more expected l r := by
  cases h with
  | goesOn ready progress resumed => exact .goesOn ready (progress.trans_le hkl) resumed
  | stops readError stopped returned => exact .stops readError stopped returned

/-! ## The sections -/

theorem paddingSection_spec (h : Running s) (hheader : s.localHeader = [])
    (hcontent : s.contentBytesRead = 0) (hpadding : s.paddingBytesRead ≤ s.paddingLength)
    (hstate : s.state = .padding) (hbuffer : buffer ≠ []) (more : Bytes) :
    Resumes type id more (body type id (extracted s) 0 (s.paddingLength - s.paddingBytesRead)
      (buffer ++ more)) (2 * buffer.length + 1) (paddingSection s buffer) := by
  have hpos := List.length_pos_iff.mpr hbuffer
  -- the section that follows is a header
  have hnext : ∀ rest : Bytes, rest.length ≤ buffer.length →
      Resumes type id more (records type id (extracted s) (rest ++ more)) (2 * buffer.length + 1)
        ({ s with paddingBytesRead := 0, state := .header }, rest) := by
    intro rest hrest
    refine .goesOn ⟨⟨h.1, h.2, h.3⟩, fun _ => ⟨?_, hcontent, rfl⟩, by simp, by simp⟩ ?_ ?_
    · show s.localHeader.length < fcgiHeaderLen
      rw [hheader]
      decide
    · show 2 * rest.length + 0 < _
      omega
    · show records type id (extracted s) (s.localHeader ++ _) = _
      rw [hheader, List.nil_append]
  rw [paddingSection, skipPadding]
  by_cases hmissing : s.paddingBytesRead < s.paddingLength
  · rw [if_pos hmissing]
    dsimp only
    by_cases hshort : s.paddingBytesRead + min (s.paddingLength - s.paddingBytesRead) buffer.length <
        s.paddingLength
    · rw [if_pos hshort]
      have hlength : buffer.length ≤ s.paddingLength - s.paddingBytesRead := by omega
      have hmin : min (s.paddingLength - s.paddingBytesRead) buffer.length = buffer.length := by omega
      refine .goesOn ⟨⟨h.1, h.2, h.3⟩, ?_, ?_, fun _ => ⟨hheader, hcontent, hshort.le⟩⟩ ?_ ?_
      · exact fun hs => by cases hs.symm.trans hstate
      · exact fun hs => by cases hs.symm.trans hstate
      · rw [weight, List.drop_eq_nil_of_le hlength, List.length_nil]
        split
        · omega
        · omega
      · rw [body_padding hlength, List.drop_eq_nil_of_le hlength, List.nil_append, resume, hstate, hmin,
          Nat.sub_sub]
        rfl
    · rw [if_neg hshort]
      have hlength : s.paddingLength - s.paddingBytesRead ≤ buffer.length := by omega
      have hsplit := List.take_append_drop (s.paddingLength - s.paddingBytesRead) buffer
      have htake : (buffer.take (s.paddingLength - s.paddingBytesRead)).length =
          s.paddingLength - s.paddingBytesRead := List.length_take_of_le hlength
      have hbody : body type id (extracted s) 0 (s.paddingLength - s.paddingBytesRead)
          (buffer ++ more) = records type id (extracted s)
            (buffer.drop (s.paddingLength - s.paddingBytesRead) ++ more) := by
        conv_lhs => rw [← hsplit, List.append_assoc, body_padding htake.le, htake, Nat.sub_self,
          body_nothing]
      rw [hbody]
      exact hnext _ (by rw [List.length_drop]; omega)
  · have hnone : s.paddingLength - s.paddingBytesRead = 0 := by omega
    rw [if_neg hmissing]
    dsimp only
    rw [if_neg hmissing, hnone, body_nothing]
    exact hnext buffer le_rfl

theorem contentCase_spec (h : Running s) (hheader : s.localHeader = [])
    (hcontent : s.contentBytesRead < s.contentLength) (hpadding : s.paddingBytesRead = 0)
    (hstate : s.state = .content) (hbuffer : buffer ≠ []) (more : Bytes) :
    Resumes type id more (body type id (extracted s) (s.contentLength - s.contentBytesRead)
      s.paddingLength (buffer ++ more)) (2 * buffer.length) (contentCase s buffer) := by
  have hpos := List.length_pos_iff.mpr hbuffer
  set missing := s.contentLength - s.contentBytesRead with hmissing
  rw [contentCase, contentSection, copyContent, if_pos hcontent]
  dsimp only
  by_cases hshort : s.contentBytesRead + min missing buffer.length < s.contentLength
  · rw [if_pos hshort]
    have hlength : buffer.length ≤ missing := by omega
    have hmin : min missing buffer.length = buffer.length := by omega
    refine .goesOn ⟨⟨h.1, h.2, h.3⟩, ?_, fun _ => ⟨hheader, hshort, hpadding⟩, ?_⟩ ?_ ?_
    · exact fun hs => by cases hs.symm.trans hstate
    · exact fun hs => by cases hs.symm.trans hstate
    · rw [weight, List.drop_eq_nil_of_le hlength, List.length_nil, if_neg (by rw [hstate]; decide)]
      omega
    · rw [body_content hlength, ← hmissing, List.drop_eq_nil_of_le hlength, List.nil_append, resume,
        hstate, hmin, List.take_of_length_le hlength, Nat.sub_sub]
      rfl
  · rw [if_neg hshort]
    have hlength : missing ≤ buffer.length := by omega
    have hsplit := List.take_append_drop missing buffer
    have htake : (buffer.take missing).length = missing := List.length_take_of_le hlength
    set rest := buffer.drop missing with hrest
    have hrestLength : rest.length = buffer.length - missing := List.length_drop
    set t : State := { s with
      contentBytes := s.contentBytes ++ buffer.take missing
      contentBytesRead := 0
      state := .padding } with ht
    have hbody : body type id (extracted s) missing s.paddingLength (buffer ++ more) =
        body type id (extracted t) 0 (t.paddingLength - t.paddingBytesRead) (rest ++ more) := by
      conv_lhs => rw [← hsplit, List.append_assoc, body_content htake.le, htake, Nat.sub_self]
      show _ = body type id _ 0 (s.paddingLength - s.paddingBytesRead) _
      rw [hpadding, Nat.sub_zero]
      rfl
    have hle : t.paddingBytesRead ≤ t.paddingLength := by
      show s.paddingBytesRead ≤ s.paddingLength
      omega
    rw [hbody]
    by_cases hend : rest = []
    · rw [if_neg (by rw [hend]; exact Bool.false_ne_true)]
      refine .goesOn ⟨⟨h.1, h.2, h.3⟩, by simp, by simp, fun _ => ⟨hheader, rfl, hle⟩⟩ ?_ rfl
      show 2 * rest.length + 1 < _
      omega
    · rw [if_pos (by simpa using hend)]
      refine (paddingSection_spec (s := t) ⟨h.1, h.2, h.3⟩ hheader rfl hle rfl hend more).mono ?_
      omega

/-- The header of a record is complete. -/
theorem checkHeader_spec (h : Running s) (hcomplete : s.localHeader.length = fcgiHeaderLen)
    (hcontent : s.contentBytesRead = 0) (hpadding : s.paddingBytesRead = 0) {counted : Nat}
    (hcount : s.headerCount = counted + 1) (rest more : Bytes) :
    Resumes type id more (records type id ⟨s.contentBytes, counted, s.aligned⟩
        (s.localHeader ++ (rest ++ more))) (2 * rest.length + 1)
      (let (s, rest, through) := checkHeader type id s rest
       if through then contentCase s rest else (s, rest)) := by
  have hmeet : Extracted.meet ⟨s.contentBytes, counted, s.aligned⟩ s.localHeader =
      ⟨s.contentBytes, s.headerCount, s.aligned &&
        (headerContentLength s.localHeader + headerPaddingLength s.localHeader) % 8 == 0⟩ := by
    rw [hcount]
    rfl
  rw [records_header hcomplete, hmeet, checkHeader]
  dsimp only
  by_cases hmismatch : headerType s.localHeader ≠ type ∨ headerRequestId s.localHeader ≠ id
  · rw [if_pos hmismatch, if_pos hmismatch]
    dsimp only
    rw [if_neg Bool.false_ne_true]
    refine .stops h.readError rfl ?_
    rw [result, h.readError, h.sequenceTerminated]
    rfl
  · rw [if_neg hmismatch, if_neg hmismatch]
    by_cases hzero : headerContentLength s.localHeader = 0
    · rw [if_pos hzero, if_pos hzero]
      dsimp only
      rw [if_neg Bool.false_ne_true]
      refine .stops h.readError (Bool.or_true _) ?_
      rw [result, sectionError, h.readError, h.headerError]
      rfl
    · rw [if_neg hzero, if_neg hzero]
      dsimp only
      set t : State := { s with
        localHeader := []
        contentLength := headerContentLength s.localHeader
        paddingLength := headerPaddingLength s.localHeader
        aligned := s.aligned &&
          (headerContentLength s.localHeader + headerPaddingLength s.localHeader) % 8 == 0
        state := .content } with ht
      have hlt : t.contentBytesRead < t.contentLength := by
        show s.contentBytesRead < headerContentLength s.localHeader
        omega
      by_cases hend : rest = []
      · rw [if_neg (by rw [hend]; exact Bool.false_ne_true)]
        refine .goesOn ⟨⟨h.1, h.2, h.3⟩, by simp, fun _ => ⟨rfl, hlt, hpadding⟩, by simp⟩ ?_ ?_
        · show 2 * rest.length + 0 < _
          omega
        · show body type id _ (headerContentLength s.localHeader - s.contentBytesRead) _ _ = _
          rw [hcontent]
          rfl
      · rw [if_pos (by simpa using hend)]
        have hcase := (@contentCase_spec type id t rest ⟨h.1, h.2, h.3⟩ rfl hlt hpadding rfl hend
          more).mono (Nat.le_succ _)
        rw [show t.contentLength - t.contentBytesRead = headerContentLength s.localHeader by
          show headerContentLength s.localHeader - s.contentBytesRead = _
          rw [hcontent]
          rfl] at hcase
        exact hcase

theorem headerCase_spec (h : Running s) (hheader : s.localHeader.length < fcgiHeaderLen)
    (hcontent : s.contentBytesRead = 0) (hpadding : s.paddingBytesRead = 0)
    (hstate : s.state = .header) (hbuffer : buffer ≠ []) (more : Bytes) :
    Resumes type id more (records type id (extracted s) (s.localHeader ++ (buffer ++ more)))
      (2 * buffer.length)
      (let (s, rest, through) := headerSection type id s buffer
       if through then contentCase s rest else (s, rest)) := by
  have hpos := List.length_pos_iff.mpr hbuffer
  rw [headerSection, copyHeader, if_pos hheader]
  dsimp only
  set missing := fcgiHeaderLen - s.localHeader.length with hmissing
  have hlength : (s.localHeader ++ buffer.take missing).length =
      s.localHeader.length + min missing buffer.length := by
    rw [List.length_append, List.length_take]
  by_cases hshort : (s.localHeader ++ buffer.take missing).length < fcgiHeaderLen
  · rw [if_pos hshort]
    dsimp only
    rw [if_neg Bool.false_ne_true]
    have hall : buffer.length ≤ missing := by omega
    refine .goesOn ⟨⟨h.1, h.2, h.3⟩, fun _ => ⟨hshort, hcontent, hpadding⟩, ?_, ?_⟩ ?_ ?_
    · exact fun hs => by cases hs.symm.trans hstate
    · exact fun hs => by cases hs.symm.trans hstate
    · rw [weight, List.drop_eq_nil_of_le hall, List.length_nil, if_neg (by rw [hstate]; decide)]
      omega
    · rw [List.drop_eq_nil_of_le hall, List.nil_append, resume, hstate]
      dsimp only
      rw [if_pos hshort, List.take_of_length_le hall, List.append_assoc]
      rfl
  · rw [if_neg hshort]
    have hall : missing ≤ buffer.length := by omega
    have hsplit : s.localHeader ++ (buffer ++ more) =
        (s.localHeader ++ buffer.take missing) ++ (buffer.drop missing ++ more) := by
      rw [List.append_assoc, ← List.append_assoc (buffer.take missing), List.take_append_drop]
    rw [hsplit]
    set t : State := { s with
      localHeader := s.localHeader ++ buffer.take missing
      headerCount := if (s.localHeader ++ buffer.take missing).length < fcgiHeaderLen
        then s.headerCount else s.headerCount + 1 } with ht
    have hcount : t.headerCount = s.headerCount + 1 := if_neg hshort
    have hfull : t.localHeader.length = fcgiHeaderLen := by
      show (s.localHeader ++ buffer.take missing).length = fcgiHeaderLen
      omega
    refine (@checkHeader_spec type id t ⟨h.1, h.2, h.3⟩ hfull hcontent hpadding _ hcount _ more).mono ?_
    rw [List.length_drop]
    omega

/-- A run of the switch. -/
theorem sections_spec (h : Ready s) (hbuffer : buffer ≠ []) (more : Bytes) :
    Resumes type id more (resume type id s (buffer ++ more)) (weight s buffer)
      (sections type id s buffer) := by
  rw [sections, weight, resume]
  cases hstate : s.state with
  | header =>
    obtain ⟨hheader, hcontent, hpadding⟩ := h.header hstate
    exact headerCase_spec h.toRunning hheader hcontent hpadding hstate hbuffer more
  | content =>
    obtain ⟨hheader, hcontent, hpadding⟩ := h.content hstate
    exact contentCase_spec h.toRunning hheader hcontent hpadding hstate hbuffer more
  | padding =>
    obtain ⟨hheader, hcontent, hpadding⟩ := h.padding hstate
    exact paddingSection_spec h.toRunning hheader hcontent hpadding hstate hbuffer more

/-! ## The loops -/

theorem Ready.flags (h : Ready s) : ¬ (s.readError || s.headerError || s.sequenceTerminated) = true := by
  rw [h.readError, h.headerError, h.sequenceTerminated]
  decide

/-- The loop over a buffer takes all of it, or it stops with a flag. -/
theorem processBuffer_spec {fuel : Nat} (h : Ready s) (hfuel : weight s buffer ≤ fuel) (more : Bytes) :
    let t := processBuffer type id fuel s buffer
    Ready t ∧ resume type id t more = resume type id s (buffer ++ more) ∨
      t.readError = false ∧ (t.headerError || t.sequenceTerminated) = true ∧
        result t = (resume type id s (buffer ++ more)).2.returned
          (resume type id s (buffer ++ more)).1 := by
  induction fuel generalizing s buffer with
  | zero =>
    have hnil : buffer = [] := by
      rw [weight] at hfuel
      exact List.length_eq_zero_iff.mp (by omega)
    rw [hnil]
    exact .inl ⟨h, rfl⟩
  | succ fuel ih =>
    rw [processBuffer]
    by_cases hnil : buffer = []
    · rw [if_pos hnil, hnil]
      exact .inl ⟨h, rfl⟩
    · rw [if_neg hnil]
      have hspec := @sections_spec type id s buffer h hnil more
      generalize sections type id s buffer = r at hspec ⊢
      cases hspec with
      | @goesOn t rest ready progress resumed =>
        dsimp only
        rw [if_neg ready.flags, ← resumed]
        exact ih ready (by omega)
      | @stops t rest readError stopped returned =>
        dsimp only
        rw [if_pos (by rw [readError, Bool.false_or, stopped])]
        exact .inr ⟨readError, stopped, returned⟩

/-- The content has ended. -/
theorem result_of_ready (h : Ready s) :
    result s = (resume type id s []).2.returned (resume type id s []).1 := by
  have hresult : result s = (true, !sectionError s, false,
      if sectionError s then false else s.aligned, s.headerCount, s.contentBytes) := by
    rw [result, h.readError, h.headerError, h.sequenceTerminated, Bool.false_or]
    rfl
  rw [hresult, sectionError, if_neg h.flags, resume]
  cases hstate : s.state with
  | header =>
    dsimp only
    obtain ⟨hheader, -, -⟩ := h.header hstate
    rw [List.append_nil, records_short hheader]
    by_cases hnil : s.localHeader = []
    · rw [if_pos hnil, hnil]
      rfl
    · have hpos := List.length_pos_iff.mpr hnil
      rw [if_neg hnil, decide_eq_true ⟨hpos, hheader⟩]
      rfl
  | content =>
    dsimp only
    obtain ⟨-, hcontent, -⟩ := h.content hstate
    have hmissing : ([] : Bytes).length < s.contentLength - s.contentBytesRead + s.paddingLength := by
      rw [List.length_nil]
      omega
    rw [body, if_pos hmissing, bne_iff_ne.mpr (by omega), List.take_nil, List.append_nil]
    rfl
  | padding =>
    dsimp only
    obtain ⟨-, -, hpadding⟩ := h.padding hstate
    by_cases hdone : s.paddingBytesRead = s.paddingLength
    · rw [hdone, Nat.sub_self, body_nothing, records_short (by decide), if_pos rfl, bne_self_eq_false]
      rfl
    · have hmissing : ([] : Bytes).length < 0 + (s.paddingLength - s.paddingBytesRead) := by
        rw [List.length_nil]
        omega
      rw [body, if_pos hmissing, bne_iff_ne.mpr hdone, List.take_nil, List.append_nil]
      rfl

/-- What calls of `read` gave. -/
def contentOf (reads : List ReadResult) : Bytes :=
  reads.flatMap fun
    | .bytes buffer => buffer
    | _ => []

/-- Calls that read a content to its end, each at least one byte of it when it was
not interrupted. -/
def Splits (reads : List ReadResult) : Prop := ∀ r ∈ reads, r ≠ .failed ∧ r ≠ .bytes []

theorem readLoop_spec {reads : List ReadResult} (hreads : Splits reads) (h : Ready s) :
    result (readLoop type id reads s) = (resume type id s (contentOf reads)).2.returned
      (resume type id s (contentOf reads)).1 := by
  induction reads generalizing s with
  | nil => exact result_of_ready h
  | cons r reads ih =>
    obtain ⟨hfailed, hnonempty⟩ := hreads r List.mem_cons_self
    have hrest : Splits reads := fun r' hr' => hreads r' (List.mem_cons_of_mem _ hr')
    cases r with
    | interrupted => exact ih hrest h
    | failed => exact absurd rfl hfailed
    | bytes buffer =>
      have hne : buffer ≠ [] := by
        rintro rfl
        exact hnonempty rfl
      have hfuel : weight s buffer ≤ 2 * buffer.length + 1 := by
        rw [weight]
        split
        · omega
        · omega
      have hcontent : contentOf (.bytes buffer :: reads) = buffer ++ contentOf reads := rfl
      have hspec := @processBuffer_spec type id s buffer _ h hfuel (contentOf reads)
      rw [readLoop, if_neg hne, hcontent]
      rcases hspec with ⟨hready, hresumed⟩ | ⟨hread, hstopped, hreturned⟩
      · rw [← hresumed]
        dsimp only
        rw [if_neg hready.flags]
        exact ih hrest hready
      · dsimp only
        rw [if_pos (by rw [hread, Bool.false_or, hstopped])]
        exact hreturned

end

/-- **`ExtractContent`** returns what the records of the file are, one after the
other, however its content is read. -/
theorem extractContent_eq (type : FcgiType) (id : UInt16) {reads : List ReadResult}
    (hreads : Splits reads) : extractContent type id reads =
      (records type id {} (contentOf reads)).2.returned (records type id {} (contentOf reads)).1 := by
  refine readLoop_spec hreads ⟨⟨rfl, rfl, rfl⟩, fun _ => ⟨by decide, rfl, rfl⟩, by simp, by simp⟩

/-- Calls that end in a header and in a section of content and padding. -/
def parts : List ReadResult :=
  [.bytes [1, 6, 0], .interrupted, .bytes [1, 0, 2, 6, 0, 72], .bytes [105, 0, 0, 0],
    .bytes [0, 0, 0, 1, 6, 0, 1, 0, 0, 0, 0]]

theorem extractContent_eq_parts :
    (records kFcgiStdout 1 {} (contentOf parts)).2.returned
      (records kFcgiStdout 1 {} (contentOf parts)).1 = (true, true, true, true, 2, [72, 105]) := by
  have hsplits : Splits parts := by
    unfold Splits
    decide
  exact (extractContent_eq kFcgiStdout 1 hsplits).symm.trans (by decide +kernel)

end AsComponents.ExtractContent
