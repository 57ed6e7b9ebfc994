import AsComponents.Protocol

/-! The FastCGI name-value pair format: `EncodeFourByteLength` and
`ExtractFourByteLength` of `fcgi_utilities_templates.h` and
`ExtractBinaryNameValuePairs` of `fcgi_utilities.cc`. -/

namespace AsComponents.NameValue

open Protocol Std

abbrev Bytes := List UInt8
abbrev ByteSeqPair := Bytes × Bytes

/-- `std::map<std::vector<std::uint8_t>, std::vector<std::uint8_t>>`. -/
abbrev ParamsMap := ExtTreeMap Bytes Bytes

/-! ## Lengths -/

/-- The four bytes of a length, with the leading bit of the first one set. -/
def encodeFourByteLength (n : Nat) : Bytes :=
  [UInt8.ofNat (n / 2 ^ 24 % 128 + 128), UInt8.ofNat (n / 2 ^ 16), UInt8.ofNat (n / 2 ^ 8),
    UInt8.ofNat n]

def extractFourByteLength (b₀ b₁ b₂ b₃ : UInt8) : Nat :=
  ((b₀.toNat % 128 * 256 + b₁.toNat) * 256 + b₂.toNat) * 256 + b₃.toNat

def encodeLength (n : Nat) : Bytes :=
  if n ≤ kNameValuePairSingleByteLength then [UInt8.ofNat n] else encodeFourByteLength n

/-- Read one length; `none` when the content ends inside it. -/
def extractLength : Bytes → Option (Nat × Bytes)
  | [] => none
  | b :: rest =>
      if b.toNat < 128 then some (b.toNat, rest)
      else
        match rest with
        | b₁ :: b₂ :: b₃ :: rest' => some (extractFourByteLength b b₁ b₂ b₃, rest')
        | _ => none

def encodePair (p : ByteSeqPair) : Bytes :=
  encodeLength p.1.length ++ encodeLength p.2.length ++ p.1 ++ p.2

def encodePairs (ps : List ByteSeqPair) : Bytes := ps.flatMap encodePair

/-- The loop of `ExtractBinaryNameValuePairs`, one pair a round; `none` is the
return of `error_result`.  Every round consumes at least two bytes. -/
def extractLoop : Nat → Bytes → Option (List ByteSeqPair)
  | _, [] => some []
  | 0, _ :: _ => none
  | n + 1, b :: bs =>
      match extractLength (b :: bs) with
      | none => none
      | some (nameLength, rest) =>
          match extractLength rest with
          | none => none
          | some (valueLength, body) =>
              if body.length < nameLength + valueLength then none
              else
                (extractLoop n (body.drop (nameLength + valueLength))).map
                  ((body.take nameLength, (body.drop nameLength).take valueLength) :: ·)

def extractBinaryNameValuePairs (content : Bytes) : List ByteSeqPair :=
  (extractLoop content.length content).getD []

/-! ## Decoding what was encoded -/

/-- Both parts of a pair have a length that the format can express. -/
def PairFits (p : ByteSeqPair) : Prop :=
  p.1.length ≤ kNameValuePairFourByteLength ∧ p.2.length ≤ kNameValuePairFourByteLength

theorem extractLength_encodeLength {n : Nat} (hn : n ≤ kNameValuePairFourByteLength) (rest : Bytes) :
    extractLength (encodeLength n ++ rest) = some (n, rest) := by
  simp only [kNameValuePairFourByteLength] at hn
  unfold encodeLength
  split
  · rename_i hs
    simp only [kNameValuePairSingleByteLength] at hs
    have hv : (UInt8.ofNat n).toNat = n := by
      simp only [UInt8.toNat_ofNat']
      omega
    simp only [List.singleton_append, extractLength, hv]
    rw [if_pos (by omega)]
  · have hv : (UInt8.ofNat (n / 2 ^ 24 % 128 + 128)).toNat = n / 2 ^ 24 % 128 + 128 := by
      simp only [UInt8.toNat_ofNat']
      omega
    simp only [encodeFourByteLength, List.cons_append, List.nil_append, extractLength, hv]
    rw [if_neg (by omega)]
    simp only [extractFourByteLength, hv, UInt8.toNat_ofNat', Option.some.injEq, Prod.mk.injEq,
      and_true]
    omega

theorem two_le_length_encodePair (p : ByteSeqPair) : 2 ≤ (encodePair p).length := by
  have h : ∀ n, 1 ≤ (encodeLength n).length := by
    intro n
    unfold encodeLength
    split <;> simp [encodeFourByteLength]
  have h₁ := h p.1.length
  have h₂ := h p.2.length
  simp only [encodePair, List.length_append]
  omega

theorem encodePair_ne_nil (p : ByteSeqPair) : encodePair p ≠ [] := by
  intro h
  have := two_le_length_encodePair p
  simp [h] at this

theorem extractLoop_encodePairs {ps : List ByteSeqPair} (hps : ∀ p ∈ ps, PairFits p) {n : Nat}
    (hn : ps.length ≤ n) : extractLoop n (encodePairs ps) = some ps := by
  induction ps generalizing n with
  | nil => cases n <;> rfl
  | cons p ps ih =>
    cases n with
    | zero => simp at hn
    | succ n =>
      obtain ⟨h₁, h₂⟩ := hps p (by simp)
      have hne : encodePairs (p :: ps) ≠ [] := by
        simp [encodePairs, encodePair_ne_nil]
      obtain ⟨b, bs, hb⟩ := List.exists_cons_of_ne_nil hne
      have hform : encodePairs (p :: ps) =
          encodeLength p.1.length ++ (encodeLength p.2.length ++ (p.1 ++ (p.2 ++ encodePairs ps))) := by
        simp [encodePairs, encodePair, List.append_assoc]
      rw [hb, extractLoop, ← hb, hform]
      simp only [extractLength_encodeLength h₁, extractLength_encodeLength h₂]
      rw [if_neg (by simp only [List.length_append]; omega)]
      have hd : (p.1 ++ (p.2 ++ encodePairs ps)).drop (p.1.length + p.2.length) = encodePairs ps := by
        rw [← List.append_assoc, ← List.length_append, List.drop_left]
      rw [hd, ih (fun q hq => hps q (by simp [hq])) (by simpa using hn)]
      simp

theorem length_le_length_encodePairs (ps : List ByteSeqPair) :
    ps.length ≤ (encodePairs ps).length := by
  induction ps with
  | nil => simp
  | cons p ps ih =>
    have := two_le_length_encodePair p
    simp only [encodePairs, List.flatMap_cons, List.length_append, List.length_cons] at ih ⊢
    omega

/-- **Round trip** of the name-value pair format. -/
theorem extract_encodePairs {ps : List ByteSeqPair} (hps : ∀ p ∈ ps, PairFits p) :
    extractBinaryNameValuePairs (encodePairs ps) = ps := by
  simp [extractBinaryNameValuePairs,
    extractLoop_encodePairs hps (length_le_length_encodePairs ps)]

end AsComponents.NameValue
