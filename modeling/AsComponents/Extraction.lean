import AsComponents.Buffers
import AsComponents.NameValue

/-! `ExtractBinaryNameValuePairs` as it reads memory: through a pointer into
the content, with the sums of `std::size_t` which test its bounds.  It never
reads outside of the content, and what it returns is the only way to read the
content as a concatenation of name-value pairs. -/

namespace AsComponents.NameValue

open Protocol Buffers

/-! ## Reading by pointer -/

/-- A sum in `std::size_t`. -/
def addSize (m n : Nat) : Nat := (m + n) % 2 ^ 64

/-- `bytes_processed`, and `content_ptr` as an index into the content. -/
structure Cursor where
  bytesProcessed : Nat := 0
  contentPtr : Nat := 0
  deriving DecidableEq, Repr

def Cursor.advance (c : Cursor) (n : Nat) : Cursor :=
  ⟨addSize c.bytesProcessed n, c.contentPtr + n⟩

/-- The loop of `ExtractFourByteLength` over the bytes after the first one;
`none` is a read outside of the content. -/
def readLengthBytes (content : Bytes) : Nat → Nat → Nat → Option Nat
  | 0, _, length => some length
  | n + 1, ptr, length => do
      let b ← content[ptr + 1]?
      readLengthBytes content n (ptr + 1) (length * 2 ^ 8 + b.toNat)

def readFourByteLength (content : Bytes) (ptr : Nat) : Option Nat := do
  let b ← content[ptr]?
  readLengthBytes content 3 ptr (b.toNat % 2 ^ 7)

/-- One length.  The outer `none` is a read outside of the content, the inner
one a return of `error_result`. -/
def readLength (content : Bytes) (c : Cursor) : Option (Option (Nat × Cursor)) :=
  if addSize c.bytesProcessed 1 > content.length then some none
  else do
    let b ← content[c.contentPtr]?
    if b.toNat ≥ 2 ^ 7 then
      if addSize c.bytesProcessed 4 > content.length then return none
      else
        let length ← readFourByteLength content c.contentPtr
        return some (length, c.advance 4)
    else return some (b.toNat, c.advance 1)

/-- A name and a value, once their lengths are known. -/
def readPair (content : Bytes) (c : Cursor) (nameLength valueLength : Nat) :
    Option (Option (ByteSeqPair × Cursor)) :=
  let lengthWithNv := addSize (addSize c.bytesProcessed nameLength) valueLength
  if lengthWithNv > content.length then some none
  else do
    let name ← slice content c.contentPtr nameLength
    let value ← slice content (c.contentPtr + nameLength) valueLength
    return some ((name, value), ⟨lengthWithNv, c.contentPtr + nameLength + valueLength⟩)

/-- A round of the loop of `ExtractBinaryNameValuePairs`. -/
def readItem (content : Bytes) (c : Cursor) : Option (Option (ByteSeqPair × Cursor)) := do
  match ← readLength content c with
  | none => return none
  | some (nameLength, c) =>
      match ← readLength content c with
      | none => return none
      | some (valueLength, c) => readPair content c nameLength valueLength

/-- The loop, with the pairs it has found; it ends before its fuel does. -/
def readLoop (content : Bytes) : Nat → Cursor → List ByteSeqPair → Option (List ByteSeqPair)
  | 0, _, _ => none
  | fuel + 1, c, result =>
      if c.bytesProcessed < content.length then do
        match ← readItem content c with
        | none => return []
        | some (pair, c) => readLoop content fuel c (result ++ [pair])
      else some result

/-- `ExtractBinaryNameValuePairs`; `none` is a read outside of the content. -/
def readNameValuePairs (content : Bytes) : Option (List ByteSeqPair) :=
  readLoop content (content.length + 1) {} []

/-! ## What is read -/

/-- A length as it stands in the content. -/
inductive IsLength : Bytes → Nat → Prop
  | one (b : UInt8) (h : b.toNat < 128) : IsLength [b] b.toNat
  | four (b₀ b₁ b₂ b₃ : UInt8) (h : 128 ≤ b₀.toNat) :
      IsLength [b₀, b₁, b₂, b₃] (extractFourByteLength b₀ b₁ b₂ b₃)

/-- The content is the concatenation of these pairs, each after its lengths. -/
inductive Parses : Bytes → List ByteSeqPair → Prop
  | nil : Parses [] []
  | cons {n v name value rest : Bytes} {pairs : List ByteSeqPair} (hn : IsLength n name.length)
      (hv : IsLength v value.length) (h : Parses rest pairs) :
      Parses (n ++ (v ++ (name ++ (value ++ rest)))) ((name, value) :: pairs)

theorem addSize_eq {m n : Nat} (h : m + n < 2 ^ 64) : addSize m n = m + n := Nat.mod_eq_of_lt h

theorem getElem?_of_drop {content rest : Bytes} {k : Nat} (h : content.drop k = rest) (i : Nat) :
    content[k + i]? = rest[i]? := by
  rw [← h, List.getElem?_drop]

theorem drop_of_drop {content rest : Bytes} {k n : Nat} (h : content.drop k = rest) :
    content.drop (k + n) = rest.drop n := by
  rw [← h, List.drop_drop]

theorem extractFourByteLength_lt (b₀ b₁ b₂ b₃ : UInt8) :
    extractFourByteLength b₀ b₁ b₂ b₃ < 2 ^ 31 := by
  have h₁ := b₁.toNat_lt
  have h₂ := b₂.toNat_lt
  have h₃ := b₃.toNat_lt
  unfold extractFourByteLength
  omega

theorem readFourByteLength_eq {content rest : Bytes} {k : Nat} {b₀ b₁ b₂ b₃ : UInt8}
    (h : content.drop k = b₀ :: b₁ :: b₂ :: b₃ :: rest) :
    readFourByteLength content k = some (extractFourByteLength b₀ b₁ b₂ b₃) := by
  have h₀ : content[k]? = some b₀ := getElem?_of_drop h 0
  have h₁ : content[k + 1]? = some b₁ := getElem?_of_drop h 1
  have h₂ : content[k + 1 + 1]? = some b₂ := getElem?_of_drop h 2
  have h₃ : content[k + 1 + 1 + 1]? = some b₃ := getElem?_of_drop h 3
  simp only [readFourByteLength, readLengthBytes, h₀, h₁, h₂, h₃, Option.bind_eq_bind,
    Option.bind_some]
  rfl

/-- A length is read as from the bytes that are left. -/
theorem readLength_spec {content : Bytes} (hsize : content.length < 2 ^ 63) {k : Nat}
    (hk : k ≤ content.length) :
    extractLength (content.drop k) = none ∧ readLength content ⟨k, k⟩ = some none ∨
      ∃ n k', extractLength (content.drop k) = some (n, content.drop k') ∧ k < k' ∧
        k' ≤ content.length ∧ n < 2 ^ 31 ∧ readLength content ⟨k, k⟩ = some (some (n, ⟨k', k'⟩)) := by
  have hone : addSize k 1 = k + 1 := addSize_eq (by omega)
  have hfour : addSize k 4 = k + 4 := addSize_eq (by omega)
  have hlength := List.length_drop (i := k) (l := content)
  unfold readLength
  dsimp only
  rw [hone, hfour]
  cases hrest : content.drop k with
  | nil =>
    rw [hrest, List.length_nil] at hlength
    rw [if_pos (by omega)]
    exact .inl ⟨rfl, rfl⟩
  | cons b rest =>
    rw [hrest, List.length_cons] at hlength
    have hbyte : content[k]? = some b := getElem?_of_drop hrest 0
    rw [if_neg (by omega), hbyte, Option.bind_eq_bind, Option.bind_some]
    unfold extractLength
    dsimp only
    by_cases hb : b.toNat < 128
    · rw [if_pos hb, if_neg (by omega)]
      refine .inr ⟨b.toNat, k + 1, ?_, by omega, by omega, by omega, ?_⟩
      · rw [drop_of_drop hrest]
        rfl
      · rw [Cursor.advance, hone]
        rfl
    · rw [if_neg hb, if_pos (by omega)]
      rcases rest with _ | ⟨b₁, _ | ⟨b₂, _ | ⟨b₃, rest⟩⟩⟩
      · rw [if_pos (by simp at hlength; omega)]
        exact .inl ⟨rfl, rfl⟩
      · rw [if_pos (by simp at hlength; omega)]
        exact .inl ⟨rfl, rfl⟩
      · rw [if_pos (by simp at hlength; omega)]
        exact .inl ⟨rfl, rfl⟩
      · simp only [List.length_cons] at hlength
        rw [if_neg (by omega), readFourByteLength_eq hrest]
        refine .inr ⟨_, k + 4, ?_, by omega, by omega, extractFourByteLength_lt b b₁ b₂ b₃, ?_⟩
        · rw [drop_of_drop hrest]
          rfl
        · rw [Cursor.advance, hfour]
          rfl

/-- The bytes of one pair, and the bytes after it. -/
def extractItem (content : Bytes) : Option (ByteSeqPair × Bytes) := do
  let (nameLength, rest) ← extractLength content
  let (valueLength, body) ← extractLength rest
  if body.length < nameLength + valueLength then none
  else
    some ((body.take nameLength, (body.drop nameLength).take valueLength),
      body.drop (nameLength + valueLength))

theorem extractLoop_cons (n : Nat) (b : UInt8) (bs : Bytes) :
    extractLoop (n + 1) (b :: bs) = (extractItem (b :: bs)).bind fun r =>
      (extractLoop n r.2).map (r.1 :: ·) := by
  rw [extractLoop, extractItem]
  cases extractLength (b :: bs) with
  | none => rfl
  | some r =>
    obtain ⟨nameLength, rest⟩ := r
    simp only [Option.bind_eq_bind, Option.bind_some]
    cases extractLength rest with
    | none => rfl
    | some r =>
      obtain ⟨valueLength, body⟩ := r
      simp only [Option.bind_some]
      split <;> rfl

/-- A round of the loop reads a pair as from the bytes that are left. -/
theorem readItem_spec {content : Bytes} (hsize : content.length < 2 ^ 63) {k : Nat}
    (hk : k ≤ content.length) :
    extractItem (content.drop k) = none ∧ readItem content ⟨k, k⟩ = some none ∨
      ∃ pair k', extractItem (content.drop k) = some (pair, content.drop k') ∧ k < k' ∧
        k' ≤ content.length ∧ readItem content ⟨k, k⟩ = some (some (pair, ⟨k', k'⟩)) := by
  unfold extractItem readItem
  rcases readLength_spec hsize hk with ⟨he, hr⟩ | ⟨n, k₁, he, hlt, hle, hn, hr⟩
  · rw [he, hr]
    exact .inl ⟨rfl, rfl⟩
  · rw [he, hr]
    simp only [Option.bind_eq_bind, Option.bind_some]
    rcases readLength_spec hsize hle with ⟨he', hr'⟩ | ⟨v, k₂, he', hlt', hle', hv, hr'⟩
    · rw [he', hr']
      exact .inl ⟨rfl, rfl⟩
    · rw [he', hr']
      simp only [Option.bind_some, readPair]
      -- Both lengths are below 2 ^ 31, so that the sum does not wrap.
      rw [addSize_eq (m := k₂) (n := n) (by omega), addSize_eq (by omega), List.length_drop]
      by_cases hshort : content.length - k₂ < n + v
      · rw [if_pos hshort, if_pos (by omega)]
        exact .inl ⟨rfl, rfl⟩
      · rw [if_neg hshort, if_neg (by omega), slice_eq (by omega), slice_eq (by omega)]
        refine .inr ⟨_, k₂ + n + v, ?_, by omega, by omega, rfl⟩
        rw [List.drop_drop, List.drop_drop, Nat.add_assoc]

theorem readLoop_spec {content : Bytes} (hsize : content.length < 2 ^ 63) (fuel : Nat) :
    ∀ (k n : Nat) (result : List ByteSeqPair), k ≤ content.length → content.length - k < fuel →
      content.length - k ≤ n →
      readLoop content fuel ⟨k, k⟩ result =
        some (((extractLoop n (content.drop k)).map (result ++ ·)).getD []) := by
  induction fuel with
  | zero => intro k n result _ hfuel _; omega
  | succ fuel ih =>
    intro k n result hk hfuel hn
    rw [readLoop]
    by_cases hmore : k < content.length
    · rw [if_pos hmore]
      obtain ⟨b, bs, hrest⟩ := List.exists_cons_of_ne_nil (l := content.drop k) (by
        intro hnil
        have := congrArg List.length hnil
        rw [List.length_drop, List.length_nil] at this
        omega)
      obtain ⟨m, rfl⟩ : ∃ m, n = m + 1 := ⟨n - 1, by omega⟩
      have hitem := readItem_spec hsize hk
      rw [hrest, extractLoop_cons]
      rw [hrest] at hitem
      rcases hitem with ⟨he, hr⟩ | ⟨pair, k', he, hlt, hle, hr⟩
      · rw [he, hr]
        rfl
      · rw [he, hr]
        simp only [Option.bind_eq_bind, Option.bind_some]
        rw [ih k' m (result ++ [pair]) hle (by omega) (by omega)]
        cases extractLoop m (content.drop k') with
        | none => rfl
        | some pairs => simp
    · rw [if_neg hmore, List.drop_of_length_le (by omega)]
      cases n <;> simp [extractLoop]

/-- No read is outside of the content, and the pairs are those of the content as
a list of bytes. -/
theorem readNameValuePairs_eq {content : Bytes} (hsize : content.length < 2 ^ 63) :
    readNameValuePairs content = some (extractBinaryNameValuePairs content) := by
  have h := readLoop_spec hsize (content.length + 1) 0 content.length [] (by omega) (by omega)
    (by omega)
  rw [readNameValuePairs, h, extractBinaryNameValuePairs, List.drop_zero]
  simp

/-! ## The only way to read the content -/

theorem IsLength.ne_nil {n : Bytes} {length : Nat} (h : IsLength n length) : n ≠ [] := by
  cases h <;> simp

theorem IsLength.extract {n : Bytes} {length : Nat} (h : IsLength n length) (rest : Bytes) :
    extractLength (n ++ rest) = some (length, rest) := by
  cases h with
  | one b h =>
    unfold extractLength
    exact if_pos h
  | four b₀ b₁ b₂ b₃ h =>
    simp only [List.cons_append, List.nil_append, extractLength]
    rw [if_neg (by omega)]

theorem isLength_of_extract {content rest : Bytes} {length : Nat}
    (h : extractLength content = some (length, rest)) :
    ∃ n, content = n ++ rest ∧ IsLength n length := by
  unfold extractLength at h
  split at h
  · cases h
  · rename_i b bs
    split at h
    · rename_i hb
      cases h
      exact ⟨[b], rfl, .one b hb⟩
    · rename_i hb
      split at h
      · rename_i b₁ b₂ b₃ rest'
        cases h
        exact ⟨[b, b₁, b₂, b₃], rfl, .four b b₁ b₂ b₃ (by omega)⟩
      · cases h

theorem extractItem_append {n v name value : Bytes} (hn : IsLength n name.length)
    (hv : IsLength v value.length) (rest : Bytes) :
    extractItem (n ++ (v ++ (name ++ (value ++ rest)))) = some ((name, value), rest) := by
  rw [extractItem, hn.extract]
  simp only [Option.bind_eq_bind, Option.bind_some]
  rw [hv.extract]
  simp only [Option.bind_some]
  rw [if_neg (by simp only [List.length_append]; omega)]
  have hdrop : (name ++ (value ++ rest)).drop (name.length + value.length) = rest := by
    rw [← List.append_assoc, ← List.length_append, List.drop_left]
  rw [hdrop]
  simp

theorem exists_of_extractItem {content rest : Bytes} {pair : ByteSeqPair}
    (h : extractItem content = some (pair, rest)) :
    ∃ n v, IsLength n pair.1.length ∧ IsLength v pair.2.length ∧
      content = n ++ (v ++ (pair.1 ++ (pair.2 ++ rest))) := by
  unfold extractItem at h
  simp only [Option.bind_eq_bind, Option.bind_eq_some_iff] at h
  obtain ⟨⟨nameLength, rest₁⟩, h₁, ⟨valueLength, body⟩, h₂, h⟩ := h
  dsimp only at h h₂
  split at h
  · cases h
  · rename_i hlong
    obtain ⟨n, rfl, hn⟩ := isLength_of_extract h₁
    obtain ⟨v, rfl, hv⟩ := isLength_of_extract h₂
    simp only [Option.some.injEq, Prod.mk.injEq] at h
    obtain ⟨rfl, rfl⟩ := h
    refine ⟨n, v, ?_, ?_, ?_⟩
    · rwa [List.length_take, Nat.min_eq_left (by omega)]
    · rwa [List.length_take, List.length_drop, Nat.min_eq_left (by omega)]
    · dsimp only
      rw [← List.drop_drop, List.take_append_drop, List.take_append_drop]

theorem Parses.extract {content : Bytes} {pairs : List ByteSeqPair} (h : Parses content pairs) :
    ∀ {n : Nat}, content.length ≤ n → extractLoop n content = some pairs := by
  induction h with
  | nil => intro n _; cases n <;> rfl
  | @cons n v name value rest pairs hn hv h ih =>
    intro fuel hfuel
    have hpos : 0 < n.length := List.length_pos_iff.mpr hn.ne_nil
    simp only [List.length_append] at hfuel
    obtain ⟨m, rfl⟩ : ∃ m, fuel = m + 1 := ⟨fuel - 1, by omega⟩
    have hitem := extractItem_append hn hv rest
    generalize hcontent : n ++ (v ++ (name ++ (value ++ rest))) = content at hitem ⊢
    cases content with
    | nil =>
      have := congrArg List.length hcontent
      simp only [List.length_append, List.length_nil] at this
      omega
    | cons b bs =>
      rw [extractLoop_cons, hitem, Option.bind_some, ih (by omega)]
      rfl

theorem parses_of_extract {n : Nat} : ∀ {content : Bytes} {pairs : List ByteSeqPair},
    extractLoop n content = some pairs → Parses content pairs := by
  induction n with
  | zero =>
    intro content pairs h
    cases content with
    | nil => cases h; exact .nil
    | cons b bs => cases h
  | succ n ih =>
    intro content pairs h
    cases content with
    | nil => cases h; exact .nil
    | cons b bs =>
      rw [extractLoop_cons] at h
      simp only [Option.bind_eq_some_iff, Option.map_eq_some_iff] at h
      obtain ⟨⟨pair, rest⟩, hitem, pairs', hloop, rfl⟩ := h
      obtain ⟨n, v, hn, hv, hcontent⟩ := exists_of_extractItem hitem
      rw [hcontent]
      exact .cons hn hv (ih hloop)

theorem parses_iff {content : Bytes} {pairs : List ByteSeqPair} :
    Parses content pairs ↔ extractLoop content.length content = some pairs :=
  ⟨fun h => h.extract le_rfl, parses_of_extract⟩

/-- The content can be read in one way only. -/
theorem Parses.unique {content : Bytes} {pairs pairs' : List ByteSeqPair} (h : Parses content pairs)
    (h' : Parses content pairs') : pairs = pairs' :=
  Option.some.inj ((parses_iff.mp h).symm.trans (parses_iff.mp h'))

theorem Parses.extractBinaryNameValuePairs {content : Bytes} {pairs : List ByteSeqPair}
    (h : Parses content pairs) : extractBinaryNameValuePairs content = pairs := by
  rw [NameValue.extractBinaryNameValuePairs, parses_iff.mp h, Option.getD_some]

theorem extractBinaryNameValuePairs_of_not_parses {content : Bytes}
    (h : ∀ pairs, ¬ Parses content pairs) : extractBinaryNameValuePairs content = [] := by
  rw [extractBinaryNameValuePairs]
  cases hloop : extractLoop content.length content with
  | none => rfl
  | some pairs => exact absurd (parses_iff.mpr hloop) (h pairs)

theorem Parses.eq_nil_iff {content : Bytes} {pairs : List ByteSeqPair} (h : Parses content pairs) :
    pairs = [] ↔ content = [] := by
  cases h with
  | nil => exact iff_of_true rfl rfl
  | cons hn hv h => simp [hn.ne_nil]

/-- **`ExtractBinaryNameValuePairs`**: every read is inside of the content; what
is returned is the list of its pairs, and empty when it is not a concatenation
of pairs. -/
theorem readNameValuePairs_spec {content : Bytes} (hsize : content.length < 2 ^ 63) :
    ∃ result, readNameValuePairs content = some result ∧
      (result ≠ [] ↔ content ≠ [] ∧ ∃ pairs, Parses content pairs) ∧
      (∀ pairs, Parses content pairs → result = pairs) ∧
      ((∀ pairs, ¬ Parses content pairs) → result = []) ∧
      ∀ pairs pairs', Parses content pairs → Parses content pairs' → pairs = pairs' := by
  refine ⟨_, readNameValuePairs_eq hsize, ⟨fun hne => ?_, ?_⟩,
    fun pairs h => h.extractBinaryNameValuePairs, extractBinaryNameValuePairs_of_not_parses,
    fun pairs pairs' => Parses.unique⟩
  · have hparses : ∃ pairs, Parses content pairs := by
      by_contra hnone
      exact hne (extractBinaryNameValuePairs_of_not_parses fun pairs h => hnone ⟨pairs, h⟩)
    obtain ⟨pairs, h⟩ := hparses
    refine ⟨fun hnil => hne ?_, pairs, h⟩
    rw [h.extractBinaryNameValuePairs]
    exact h.eq_nil_iff.mpr hnil
  · rintro ⟨hne, pairs, h⟩
    rw [h.extractBinaryNameValuePairs]
    exact fun hnil => hne (h.eq_nil_iff.mp hnil)

/-- A pair before a value that is cut short. -/
theorem readNameValuePairs_cut : ∃ result,
    readNameValuePairs [1, 1, 65, 66, 1, 128, 0, 0] = some result ∧
      ((∀ pairs, ¬ Parses [1, 1, 65, 66, 1, 128, 0, 0] pairs) → result = []) := by
  obtain ⟨result, hread, -, -, hnone, -⟩ :=
    @readNameValuePairs_spec [1, 1, 65, 66, 1, 128, 0, 0] (by decide)
  exact ⟨result, hread, hnone⟩

example : readNameValuePairs [1, 1, 65, 66, 1, 128, 0, 0] = some [] := by decide

end AsComponents.NameValue
