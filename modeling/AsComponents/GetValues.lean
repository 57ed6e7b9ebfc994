import AsComponents.Environment
import AsComponents.ServerInterface

/-! `SendGetValuesResult`: the record that answers an `FCGI_GET_VALUES` record.
Each of the known names is found by a binary search of the sorted list, and the
record is encoded apart from `EncodeNameValuePairs`. -/

namespace AsComponents.Server

open Protocol NameValue AsComponents.Partition Algorithms

def nameLessThanTypeMismatch (rhs : Bytes) (lhs : ByteSeqPair) : Bool := (compare lhs.1 rhs).isLT

/-- Whether `std::lower_bound` finds the name in a sorted list. -/
def findsName (pairs : List ByteSeqPair) (name : Bytes) : Bool :=
  match pairs[lowerBound (nameLessThanTypeMismatch name) pairs]? with
  | some p => p.1 == name
  | none => false

/-- `result_pairs`, with a sort. -/
def resultPairs (sort : List ByteSeqPair → List ByteSeqPair) (s : System) (content : Bytes) :
    List ByteSeqPair :=
  let pairs := sort (extractBinaryNameValuePairs content)
  (if findsName pairs fcgiMaxConns then
    [(fcgiMaxConns, toUnsignedCharacterVector s.maximumConnectionCount)] else []) ++
  (if findsName pairs fcgiMaxReqs then
    [(fcgiMaxReqs, toUnsignedCharacterVector s.maximumRequestCountPerConnection)] else []) ++
  (if findsName pairs fcgiMpxsConns then
    [(fcgiMpxsConns, ascii (if s.maximumRequestCountPerConnection > 1 then "1" else "0"))] else [])

/-- A round of the loop over `result_pairs`. -/
def appendPair (result : Bytes) (pair : ByteSeqPair) : Bytes :=
  let result := result ++ encodeLength pair.1.length
  let result := result ++ encodeLength pair.2.length
  let result := result ++ pair.1
  result ++ pair.2

/-- `result`, which is passed to `SendRecord`. -/
def getValuesResult (sort : List ByteSeqPair → List ByteSeqPair) (s : System) (content : Bytes) :
    Bytes :=
  let result := (resultPairs sort s content).foldl appendPair (List.replicate fcgiHeaderLen 0)
  let headerAndContentLength := result.length
  let contentLength := headerAndContentLength - fcgiHeaderLen
  let remainder := headerAndContentLength % fcgiHeaderLen
  let padLength := if remainder ≠ 0 then fcgiHeaderLen - remainder else 0
  let result := result ++ List.replicate padLength 0
  populateHeader kFcgiGetValuesResult fcgiNullRequestId contentLength padLength ++
    result.drop fcgiHeaderLen

/-! ## The search -/

theorem nameLessThanTypeMismatch_iff {name : Bytes} {p : ByteSeqPair} :
    nameLessThanTypeMismatch name p = true ↔ compare p.1 name = .lt := by
  rw [nameLessThanTypeMismatch, Ordering.isLT_iff_eq_lt]

theorem partitioned_of_sorted {pairs : List ByteSeqPair} (h : pairs.Pairwise NameLessEqual)
    (name : Bytes) : Partitioned (nameLessThanTypeMismatch name) pairs := by
  refine h.imp fun {p q} hle hless => ?_
  rw [nameLessThanTypeMismatch_iff] at hless ⊢
  exact Std.TransCmp.lt_of_isLE_of_lt hle hless

/-- The search finds a name that occurs, whatever else the list holds. -/
theorem findsName_iff {pairs : List ByteSeqPair} (h : pairs.Pairwise NameLessEqual) (name : Bytes) :
    findsName pairs name = true ↔ ∃ p ∈ pairs, p.1 = name := by
  rw [findsName, getElem?_lowerBound (partitioned_of_sorted h name)]
  cases hfind : pairs.find? fun p => !nameLessThanTypeMismatch name p with
  | none =>
    refine iff_of_false (by simp) ?_
    rintro ⟨p, hp, rfl⟩
    have hless := List.find?_eq_none.mp hfind p hp
    simp only [Bool.not_eq_true', Bool.not_eq_false, nameLessThanTypeMismatch_iff,
      Std.ReflCmp.compare_self] at hless
    cases hless
  | some p =>
    dsimp only
    rw [beq_iff_eq]
    refine ⟨fun hname => ⟨p, List.mem_of_find?_eq_some hfind, hname⟩, ?_⟩
    rintro ⟨q, hq, rfl⟩
    obtain ⟨hnot, front, back, rfl, hfront⟩ := List.find?_eq_some_iff_append.mp hfind
    -- `q` is not in front of `p`, and `p` is not less than the name of `q`.
    have hle : NameLessEqual p q := by
      rcases List.mem_append.mp hq with hq | hq
      · have hless := hfront q hq
        simp only [Bool.not_not, nameLessThanTypeMismatch_iff, Std.ReflCmp.compare_self] at hless
        cases hless
      · rcases List.mem_cons.mp hq with rfl | hq
        · exact Std.ReflCmp.isLE_rfl
        · exact (List.pairwise_cons.mp (List.pairwise_append.mp h).2.1).1 q hq
    have hge : ¬ compare p.1 q.1 = .lt := by
      rw [← nameLessThanTypeMismatch_iff]
      simpa using hnot
    unfold NameLessEqual at hle
    cases hcompare : compare p.1 q.1 with
    | lt => exact absurd hcompare hge
    | eq => exact Std.LawfulEqOrd.eq_of_compare hcompare
    | gt => rw [hcompare] at hle; cases hle

/-! ## The record -/

/-- The variables of the interface, with their values as the client reads them. -/
def interfaceVariables (s : System) : List ByteSeqPair :=
  [(fcgiMaxConns, ascii (toString s.maximumConnectionCount)),
    (fcgiMaxReqs, ascii (toString s.maximumRequestCountPerConnection)),
    (fcgiMpxsConns, ascii (if s.maximumRequestCountPerConnection > 1 then "1" else "0"))]

theorem toUnsignedCharacterVector_eq (c : Nat) : toUnsignedCharacterVector c = ascii (toString c) := by
  rw [toUnsignedCharacterVector, ascii, Nat.toString_eq_ofList_toDigits, String.toList_ofList]

/-- The pairs that answer are the variables whose names were sent. -/
theorem resultPairs_eq {sort : List ByteSeqPair → List ByteSeqPair}
    (hsort : Sorts NameLessEqual sort) (s : System) (content : Bytes) :
    resultPairs sort s content = (interfaceVariables s).filter fun answer =>
      (extractBinaryNameValuePairs content).any fun p => p.1 == answer.1 := by
  have hfinds : ∀ name, findsName (sort (extractBinaryNameValuePairs content)) name =
      (extractBinaryNameValuePairs content).any fun p => p.1 == name := by
    intro name
    rw [Bool.eq_iff_iff, findsName_iff (hsort.sorted _), List.any_eq_true]
    simp only [(hsort.perm _).mem_iff, beq_iff_eq]
  simp only [resultPairs, hfinds, toUnsignedCharacterVector_eq, interfaceVariables,
    List.filter_cons, List.filter_nil]
  split <;> split <;> split <;> rfl

theorem hasName_eq (pairs : List ByteSeqPair) (h : pairs.Pairwise NameLessEqual) (name : Bytes) :
    hasName pairs name = findsName pairs name := by
  rw [hasName, findsName, getElem?_lowerBound (partitioned_of_sorted h name)]
  rfl

theorem getValuesResultPairs_eq {sort : List ByteSeqPair → List ByteSeqPair}
    (hsort : Sorts NameLessEqual sort) (s : System) (content : Bytes) :
    getValuesResultPairs s content = resultPairs sort s content := by
  rw [resultPairs_eq hsort, ← resultPairs_eq sorts_insertionSort]
  unfold getValuesResultPairs resultPairs
  simp only [hasName_eq _ (sorts_insertionSort.sorted _)]

theorem foldl_appendPair (pairs : List ByteSeqPair) : ∀ result : Bytes,
    pairs.foldl appendPair result = result ++ encodePairs pairs := by
  induction pairs with
  | nil => simp [encodePairs]
  | cons p pairs ih =>
    intro result
    rw [List.foldl_cons, ih]
    simp [appendPair, encodePairs, encodePair]

/-- The bytes are those of the record that the interface sends. -/
theorem getValuesResult_eq {sort : List ByteSeqPair → List ByteSeqPair}
    (hsort : Sorts NameLessEqual sort) (s : System) (content : Bytes) :
    getValuesResult sort s content = (getValuesResultRecord s content).encode := by
  unfold getValuesResult getValuesResultRecord
  rw [getValuesResultPairs_eq hsort, foldl_appendPair]
  generalize encodePairs (resultPairs sort s content) = body
  have hlength : (List.replicate fcgiHeaderLen 0 ++ body : Bytes).length = 8 + body.length := by
    rw [List.length_append, List.length_replicate, fcgiHeaderLen]
  have hpadding : (if (8 + body.length) % fcgiHeaderLen ≠ 0 then
      fcgiHeaderLen - (8 + body.length) % fcgiHeaderLen else 0) = paddingFor body.length := by
    unfold paddingFor fcgiHeaderLen
    split <;> split <;> omega
  simp only [hlength, hpadding]
  simp [alignedRecord, Record.encode, Record.header, fcgiHeaderLen]

theorem length_ascii_toString {n : Nat} (h : n ≤ intMax) : (ascii (toString n)).length ≤ 10 := by
  rw [← toUnsignedCharacterVector_eq, toUnsignedCharacterVector, List.length_map,
    Nat.length_toDigits_le_iff (by decide) (by decide)]
  unfold intMax at h
  omega

theorem length_interfaceVariables {s : System} (hconnections : s.maximumConnectionCount ≤ intMax)
    (hrequests : s.maximumRequestCountPerConnection ≤ intMax) :
    (∀ p ∈ interfaceVariables s, PairFits p) ∧ (encodePairs (interfaceVariables s)).length ≤ 100 := by
  have h₁ := length_ascii_toString hconnections
  have h₂ := length_ascii_toString hrequests
  have h₃ : (ascii (if s.maximumRequestCountPerConnection > 1 then "1" else "0")).length = 1 := by
    split <;> rfl
  have hnames : fcgiMaxConns.length = 14 ∧ fcgiMaxReqs.length = 13 ∧ fcgiMpxsConns.length = 15 := by
    decide
  obtain ⟨hn₁, hn₂, hn₃⟩ := hnames
  constructor
  · intro p hp
    simp only [interfaceVariables, List.mem_cons, List.not_mem_nil, or_false] at hp
    unfold PairFits kNameValuePairFourByteLength
    rcases hp with rfl | rfl | rfl <;> dsimp only <;> omega
  · have hone : ∀ n, n ≤ 127 → (encodeLength n).length = 1 := by
      intro n hn
      rw [encodeLength, if_pos (show n ≤ kNameValuePairSingleByteLength from hn)]
      rfl
    simp only [interfaceVariables, encodePairs, encodePair, List.flatMap_cons, List.flatMap_nil,
      List.length_append, List.length_nil, hn₁, hn₂, hn₃, h₃, hone _ (h₁.trans (by decide)),
      hone _ (h₂.trans (by decide)), hone 14 (by decide), hone 13 (by decide), hone 15 (by decide),
      hone 1 (by decide)]
    omega

/-- **`SendGetValuesResult`**: the bytes are one aligned record, and its content
decodes to the variables that were asked for. -/
theorem getValuesResult_spec {sort : List ByteSeqPair → List ByteSeqPair}
    (hsort : Sorts NameLessEqual sort) {s : System} (hconnections : s.maximumConnectionCount ≤ intMax)
    (hrequests : s.maximumRequestCountPerConnection ≤ intMax) (content : Bytes) :
    getValuesResult sort s content = (getValuesResultRecord s content).encode ∧
    (getValuesResultRecord s content).type = kFcgiGetValuesResult ∧
    (getValuesResultRecord s content).fcgiId = 0 ∧
    8 ∣ (getValuesResultRecord s content).encode.length ∧
    headerContentLength (getValuesResultRecord s content).header =
      (getValuesResultRecord s content).content.length ∧
    headerPaddingLength (getValuesResultRecord s content).header =
      (getValuesResultRecord s content).padding.length ∧
    (∀ pairs, Parses content pairs →
      extractBinaryNameValuePairs (getValuesResultRecord s content).content =
        (interfaceVariables s).filter fun answer => pairs.any fun p => p.1 == answer.1) ∧
    ((content = [] ∨ ∀ pairs, ¬ Parses content pairs) →
      (getValuesResultRecord s content).content = []) := by
  obtain ⟨hfits, hlength⟩ := length_interfaceVariables hconnections hrequests
  have hcontent : (getValuesResultRecord s content).content =
      encodePairs ((interfaceVariables s).filter fun answer =>
        (extractBinaryNameValuePairs content).any fun p => p.1 == answer.1) := by
    rw [← resultPairs_eq hsort, ← getValuesResultPairs_eq hsort]
    rfl
  have hbound : (getValuesResultRecord s content).content.length ≤ kMaxRecordContentByteLength := by
    rw [hcontent]
    refine le_trans ?_ (hlength.trans (by decide))
    exact (List.filter_sublist.flatMap encodePair).length_le
  have hpadding : (getValuesResultRecord s content).padding.length =
      paddingFor (getValuesResultRecord s content).content.length := List.length_replicate
  have halign : 8 ∣ (getValuesResultRecord s content).encode.length := by
    rw [getValuesResultRecord, length_encode_alignedRecord, fcgiHeaderLen, paddingFor]
    split <;> omega
  refine ⟨getValuesResult_eq hsort s content, rfl, rfl, halign,
    headerContentLength_populateHeader _ _ _ hbound, headerPaddingLength_populateHeader _ _ _ ?_,
    fun pairs hpairs => ?_, fun hbad => ?_⟩
  · rw [hpadding]
    exact (paddingFor_lt _).trans (by decide)
  · rw [hcontent, hpairs.extractBinaryNameValuePairs]
    exact extract_encodePairs fun p hp => hfits p (List.mem_of_mem_filter hp)
  · have hnone : extractBinaryNameValuePairs content = [] := by
      rcases hbad with rfl | hbad
      · rfl
      · exact extractBinaryNameValuePairs_of_not_parses hbad
    rw [hcontent, hnone]
    rfl

/-- A name that was sent twice, with an unknown one between. -/
theorem getValuesResult_spec_repeated :
    Parses [13, 0, 70, 67, 71, 73, 95, 77, 65, 88, 95, 82, 69, 81, 83, 0, 0,
      13, 0, 70, 67, 71, 73, 95, 77, 65, 88, 95, 82, 69, 81, 83]
      [(fcgiMaxReqs, []), ([], []), (fcgiMaxReqs, [])] ∧
    extractBinaryNameValuePairs (getValuesResultRecord { maximumRequestCountPerConnection := 12 }
      [13, 0, 70, 67, 71, 73, 95, 77, 65, 88, 95, 82, 69, 81, 83, 0, 0,
        13, 0, 70, 67, 71, 73, 95, 77, 65, 88, 95, 82, 69, 81, 83]).content =
      [(fcgiMaxReqs, ascii "12")] := by
  have hparses : Parses [13, 0, 70, 67, 71, 73, 95, 77, 65, 88, 95, 82, 69, 81, 83, 0, 0,
      13, 0, 70, 67, 71, 73, 95, 77, 65, 88, 95, 82, 69, 81, 83]
      [(fcgiMaxReqs, []), ([], []), (fcgiMaxReqs, [])] := parses_iff.mpr (by decide +kernel)
  refine ⟨hparses, ?_⟩
  rw [(getValuesResult_spec sorts_insertionSort (s := { maximumRequestCountPerConnection := 12 })
    (by decide) (by decide) _).2.2.2.2.2.2.1 _ hparses]
  decide +kernel

end AsComponents.Server
