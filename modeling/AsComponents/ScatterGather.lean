import AsComponents.SocketFunctions

/-! `ScatterGatherSocketWrite` over the array of `iovec` structures that it
modifies: whatever the results of `writev` are, the bytes that the system
accepts are a prefix of the bytes of the array.  The returned values describe
the rest while there is some; when there is none they are not updated. -/

namespace AsComponents.SocketFunctions

/-! ## The array -/

/-- `struct iovec`; `base` is an address. -/
structure Iovec where
  base : Nat
  length : Nat
  deriving DecidableEq, Repr

/-- The bytes at an entry of the array. -/
def Iovec.bytes (memory : Nat → UInt8) (v : Iovec) : List UInt8 :=
  (List.range v.length).map fun i => memory (v.base + i)

/-- `iovec_ptr`, as an index into the array, `iovec_count` and
`number_remaining`, with the bytes that the system has accepted. -/
structure WriteState where
  array : List Iovec
  ptr : Nat := 0
  count : Nat
  remaining : Nat
  accepted : List UInt8 := []
  deriving DecidableEq, Repr

/-- A call has not returned: it reads an entry outside of the array, the tape
of results has ended, or it holds a result that the system cannot give. -/
inductive Stuck
  | outside
  | unfinished
  | impossible
  deriving DecidableEq, Repr

/-- The loop of `ScatterGatherHelper`; `total` is `running_total`. -/
def skipWritten (array : List Iovec) (written : Nat) :
    Nat → Nat → Nat → Nat → Option (Nat × Nat × Nat)
  | 0, _, _, _ => none
  | fuel + 1, ptr, count, total =>
      if total ≤ written then do
        let v ← array[ptr + 1]?
        skipWritten array written fuel (ptr + 1) (count - 1) (total + v.length)
      else some (ptr, count, total)

/-- `ScatterGatherHelper`, with the array as it leaves it; `none` is a read
outside of the array. -/
def updateArray (written : Nat) (s : WriteState) : Option WriteState := do
  let first ← s.array[s.ptr]?
  let (ptr, count, total) ← skipWritten s.array written (s.array.length + 1) s.ptr s.count first.length
  let v ← s.array[ptr]?
  let newLength := total - written
  let offset := v.length - newLength
  return { s with array := s.array.set ptr ⟨v.base + offset, newLength⟩, ptr, count }

/-- The entries that a call of `writev` is given; `none` when some of them are
not in the array. -/
def WriteState.entries (s : WriteState) : Option (List Iovec) :=
  if s.ptr + s.count ≤ s.array.length then some ((s.array.drop s.ptr).take s.count) else none

/-- The result of a successful `writev` on entries with these bytes. -/
def WriteState.write (s : WriteState) (offered : List UInt8) (n : Nat) : WriteState :=
  { s with remaining := s.remaining - n, accepted := s.accepted ++ offered.take n }

/-- What a call returns. -/
structure WriteReturn where
  state : WriteState
  errno : Errno := .zero
  tape : List IoResult

/-- `ScatterGatherSocketWrite`; `selecting` marks the inner loop over `select`,
after which a time-out is not told from a socket that is ready. -/
def writeArray (memory : Nat → UInt8) (waitOnSelect : Bool) :
    List IoResult → Bool → WriteState → Except Stuck WriteReturn
  | [], _, s => if s.remaining = 0 then .ok ⟨s, .zero, []⟩ else .error .unfinished
  | r :: tape, selecting, s =>
      if s.remaining = 0 then .ok ⟨s, .zero, r :: tape⟩
      else if selecting then
        match r with
        | .ready | .timedOut => writeArray memory waitOnSelect tape false s
        | .selectFailed e =>
            if e = .eintr then writeArray memory waitOnSelect tape true s
            else .ok ⟨s, e, tape⟩
        | _ => .error .impossible
      else
        match s.entries with
        | none => .error .outside
        | some entries =>
            let offered := (entries.map (Iovec.bytes memory)).flatten
            match r with
            | .failed e =>
                if e = .eintr then writeArray memory waitOnSelect tape false s
                else if waitOnSelect ∧ e = .eagain then writeArray memory waitOnSelect tape true s
                else .ok ⟨s, e, tape⟩
            | .wrote n =>
                if 0 < n ∧ n ≤ offered.length then
                  let s := s.write offered n
                  if s.remaining > 0 then
                    match updateArray n s with
                    | none => .error .outside
                    | some s => writeArray memory waitOnSelect tape false s
                  else writeArray memory waitOnSelect tape false s
                else .error .impossible
            | _ => .error .impossible

/-- Calls one after the other, each with the values that the last one returned. -/
def writeCalls (memory : Nat → UInt8) :
    List (Bool × List IoResult) → WriteState → Except Stuck WriteState
  | [], s => .ok s
  | (waitOnSelect, tape) :: calls, s =>
      match writeArray memory waitOnSelect tape false s with
      | .error e => .error e
      | .ok r => writeCalls memory calls r.state

/-- The first call on an array. -/
def startWrite (array : List Iovec) : WriteState :=
  { array, count := array.length, remaining := (array.map Iovec.length).sum }

/-! ## What the returned values describe -/

section

variable {memory : Nat → UInt8} {s t : WriteState} {rest : List UInt8}

@[simp] theorem length_bytes (v : Iovec) : (v.bytes memory).length = v.length := by
  simp [Iovec.bytes]

/-- The bytes of an entry from an offset on. -/
theorem drop_bytes (base offset n : Nat) :
    (Iovec.bytes memory ⟨base, offset + n⟩).drop offset = Iovec.bytes memory ⟨base + offset, n⟩ := by
  apply List.ext_getElem
  · simp
  · intro i _ _
    simp [Iovec.bytes, Nat.add_assoc]

theorem length_flatten_bytes (vs : List Iovec) :
    (vs.map (Iovec.bytes memory)).flatten.length = (vs.map Iovec.length).sum := by
  induction vs with
  | nil => rfl
  | cons v vs ih => simp [ih]

/-- The entries from the pointer on. -/
def WriteState.left (s : WriteState) : List Iovec := (s.array.drop s.ptr).take s.count

/-- The first entry of a part of the array, and the part after it. -/
theorem of_take_drop {array : List Iovec} {ptr count : Nat} {v : Iovec} {vs : List Iovec}
    (h : (array.drop ptr).take count = v :: vs) :
    array[ptr]? = some v ∧ ∃ n, count = n + 1 ∧ (array.drop (ptr + 1)).take n = vs := by
  cases count with
  | zero =>
    rw [List.take_zero] at h
    cases h
  | succ n =>
    have hlt : ptr < array.length := by
      by_contra hout
      rw [List.drop_eq_nil_of_le (by omega), List.take_nil] at h
      cases h
    rw [List.drop_eq_getElem_cons hlt, List.take_succ_cons] at h
    obtain ⟨rfl, rfl⟩ := List.cons.inj h
    exact ⟨List.getElem?_eq_getElem hlt, n, rfl, rfl⟩

/-- The loop stops at the entry in which the written bytes end. -/
theorem skipWritten_spec {array : List Iovec} {written : Nat} (fuel : Nat) :
    ∀ (ptr count before : Nat) (v : Iovec) (vs : List Iovec), (array.drop ptr).take count = v :: vs →
      before ≤ written → written < before + ((v :: vs).map Iovec.length).sum → vs.length < fuel →
      ∃ ptr' count' before' v' vs', skipWritten array written fuel ptr count (before + v.length) =
          some (ptr', count', before' + v'.length) ∧ (array.drop ptr').take count' = v' :: vs' ∧
        before' ≤ written ∧ written < before' + v'.length ∧ ptr' + count' = ptr + count ∧
        scatterGatherHelper (written - before) ((v :: vs).map (Iovec.bytes memory)) =
          (v'.bytes memory).drop (written - before') :: vs'.map (Iovec.bytes memory) := by
  induction fuel with
  | zero => intro ptr count before v vs _ _ _ hfuel; omega
  | succ fuel ih =>
    intro ptr count before v vs hlist hbefore hlt hfuel
    rw [skipWritten, List.map_cons, scatterGatherHelper, length_bytes]
    by_cases hskip : before + v.length ≤ written
    · rw [if_pos hskip, if_pos (by omega)]
      obtain ⟨-, count, rfl, htail⟩ := of_take_drop hlist
      cases vs with
      | nil =>
        simp only [List.map_cons, List.map_nil, List.sum_cons, List.sum_nil] at hlt
        omega
      | cons w vs =>
        obtain ⟨hget, -⟩ := of_take_drop htail
        simp only [List.map_cons, List.sum_cons] at hlt
        simp only [List.length_cons] at hfuel
        rw [hget, Option.bind_eq_bind, Option.bind_some, Nat.add_sub_cancel]
        obtain ⟨ptr', count', before', v', vs', hskip', hlist', hle', hlt', hsum, hhelper⟩ :=
          ih (ptr + 1) count (before + v.length) w vs htail hskip
            (by simp only [List.map_cons, List.sum_cons]; omega) (by omega)
        refine ⟨ptr', count', before', v', vs', hskip', hlist', hle', hlt', by omega, ?_⟩
        rw [← hhelper, Nat.sub_sub]
    · rw [if_neg hskip, if_neg (by omega)]
      exact ⟨ptr, count, before, v, vs, rfl, hlist, hbefore, by omega, rfl, rfl⟩

/-- A short count: the entries from the new pointer on are those of the old one
past the bytes that were written. -/
theorem updateArray_spec {written : Nat} (hinside : s.ptr + s.count = s.array.length)
    (hlt : written < (s.left.map Iovec.length).sum) :
    ∃ t, updateArray written s = some t ∧ t.ptr + t.count = t.array.length ∧
      t.left.map (Iovec.bytes memory) =
        scatterGatherHelper written (s.left.map (Iovec.bytes memory)) ∧
      t.remaining = s.remaining ∧ t.accepted = s.accepted := by
  cases hlist : s.left with
  | nil =>
    rw [hlist] at hlt
    simp only [List.map_nil, List.sum_nil] at hlt
    omega
  | cons v vs =>
    rw [hlist] at hlt
    obtain ⟨hget, -⟩ := of_take_drop hlist
    have hshort : vs.length < s.array.length + 1 := by
      have := congrArg List.length hlist
      rw [WriteState.left, List.length_take, List.length_drop, List.length_cons] at this
      omega
    obtain ⟨ptr, count, before, w, ws, hskip, hlist', hle, hlt', hsum, hhelper⟩ :=
      @skipWritten_spec memory s.array written (s.array.length + 1) s.ptr s.count 0 v vs hlist
        (Nat.zero_le _) (by omega) hshort
    rw [Nat.zero_add] at hskip
    obtain ⟨hget', m, rfl, htail⟩ := of_take_drop hlist'
    have hin : ptr < s.array.length := (List.getElem?_eq_some_iff.mp hget').1
    obtain ⟨n, hn⟩ : ∃ n, w.length = (written - before) + n := ⟨before + w.length - written, by omega⟩
    have hnew : before + w.length - written = n := by omega
    have hoffset : w.length - n = written - before := by omega
    refine ⟨⟨s.array.set ptr ⟨w.base + (written - before), n⟩, ptr, m + 1, s.remaining, s.accepted⟩,
      ?_, ?_, ?_, rfl, rfl⟩
    · simp only [updateArray, hget, hskip, hget', hnew, hoffset, Option.bind_eq_bind, Option.bind_some]
      rfl
    · rw [List.length_set]
      exact hsum.trans hinside
    · have hw : w = ⟨w.base, (written - before) + n⟩ := by rw [← hn]
      rw [Nat.sub_zero] at hhelper
      rw [hhelper, WriteState.left]
      dsimp only
      rw [List.drop_eq_getElem_cons (by simpa using hin), List.take_succ_cons, List.getElem_set_self,
        List.drop_set_of_lt (by omega), htail, List.map_cons, ← drop_bytes, ← hw]

/-- The values describe the bytes that are left; when there are none the
pointer and the count are those of the last call of `writev`. -/
structure Leaves (memory : Nat → UInt8) (s : WriteState) (rest : List UInt8) : Prop where
  remaining : s.remaining = rest.length
  inside : s.ptr + s.count = s.array.length
  bytes : rest ≠ [] → (s.left.map (Iovec.bytes memory)).flatten = rest

theorem leaves_startWrite (memory : Nat → UInt8) (array : List Iovec) :
    Leaves memory (startWrite array) (array.map (Iovec.bytes memory)).flatten where
  remaining := (length_flatten_bytes array).symm
  inside := Nat.zero_add _
  bytes _ := by simp [startWrite, WriteState.left]

theorem left_eq (h : s.ptr + s.count = s.array.length) : s.left = s.array.drop s.ptr := by
  rw [WriteState.left, List.take_of_length_le]
  rw [List.length_drop]
  omega

theorem entries_eq (h : s.ptr + s.count = s.array.length) : s.entries = some s.left :=
  if_pos (Nat.le_of_eq h)

/-- A successful `writev` and the update after it. -/
theorem leaves_write (h : Leaves memory s rest) {n : Nat} (hlt : n < rest.length) :
    ∃ t, updateArray n (s.write rest n) = some t ∧ Leaves memory t (rest.drop n) ∧
      t.accepted = s.accepted ++ rest.take n ∧
      t.left.map (Iovec.bytes memory) =
        scatterGatherHelper n (s.left.map (Iovec.bytes memory)) := by
  have hbytes := h.bytes (List.length_pos_iff.mp (by omega))
  obtain ⟨t, ht, hinside, hleft, hremaining, haccepted⟩ := @updateArray_spec memory (s.write rest n) n
    h.inside (by rw [← @length_flatten_bytes memory]; exact hbytes ▸ hlt)
  refine ⟨t, ht, ⟨?_, hinside, fun _ => ?_⟩, haccepted, hleft⟩
  · rw [hremaining, List.length_drop, ← h.remaining]
    rfl
  · rw [hleft, flatten_scatterGatherHelper]
    exact congrArg _ hbytes

theorem leaves_all (h : Leaves memory s rest) {n : Nat} (hle : rest.length ≤ n) :
    Leaves memory (s.write rest n) [] where
  remaining := by
    show s.remaining - n = 0
    rw [h.remaining]
    omega
  inside := h.inside
  bytes hne := absurd rfl hne

/-- What a call did: no entry outside of the array was read, and the bytes
accepted and the bytes that are left make up those that were left before. -/
def Wrote (memory : Nat → UInt8) (accepted rest : List UInt8) (s : WriteState) : Prop :=
  ∃ written rest', rest = written ++ rest' ∧ s.accepted = accepted ++ written ∧ Leaves memory s rest'

theorem Wrote.none (h : Leaves memory s rest) : Wrote memory s.accepted rest s :=
  ⟨[], rest, rfl, (List.append_nil _).symm, h⟩

theorem Wrote.trans {n : Nat} {t u : WriteState} (haccepted : t.accepted = s.accepted ++ rest.take n)
    (h : Wrote memory t.accepted (rest.drop n) u) : Wrote memory s.accepted rest u := by
  obtain ⟨written, rest', hsplit, hu, hleaves⟩ := h
  refine ⟨rest.take n ++ written, rest', ?_, ?_, hleaves⟩
  · rw [List.append_assoc, ← hsplit, List.take_append_drop]
  · rw [hu, haccepted, List.append_assoc]

/-- What the result of a call says. -/
def CallSpec (memory : Nat → UInt8) (accepted rest : List UInt8) : Except Stuck WriteReturn → Prop
  | .ok r => Wrote memory accepted rest r.state
  | .error e => e ≠ .outside

theorem writeArray_spec {waitOnSelect : Bool} {tape : List IoResult} : ∀ {selecting : Bool}
    {s : WriteState} {rest : List UInt8}, Leaves memory s rest →
    CallSpec memory s.accepted rest (writeArray memory waitOnSelect tape selecting s) := by
  induction tape with
  | nil =>
    intro selecting s rest h
    unfold writeArray
    split
    · exact Wrote.none h
    · exact Stuck.noConfusion
  | cons c tape ih =>
    intro selecting s rest h
    unfold writeArray
    split
    · exact Wrote.none h
    · rename_i hmore
      split
      · -- `select` changes nothing.
        split
        · exact ih h
        · exact ih h
        · split
          · exact ih h
          · exact Wrote.none h
        · exact Stuck.noConfusion
      · have hne : rest ≠ [] := by
          rintro rfl
          exact hmore h.remaining
        rw [entries_eq h.inside]
        dsimp only
        rw [h.bytes hne]
        split
        · split
          · exact ih h
          · split
            · exact ih h
            · exact Wrote.none h
        · rename_i n
          split
          · split
            · rename_i hpositive
              have hlt : n < rest.length := by
                have hremaining : (s.write rest n).remaining = s.remaining - n := rfl
                have := h.remaining
                omega
              obtain ⟨t, ht, hleaves, haccepted, -⟩ := leaves_write h hlt
              rw [ht]
              dsimp only
              have hcall := @ih false t (rest.drop n) hleaves
              generalize writeArray memory waitOnSelect tape false t = result at hcall ⊢
              cases result with
              | ok r => exact hcall.trans haccepted
              | error e => exact hcall
            · rename_i hzero
              have hle : rest.length ≤ n := by
                have hremaining : (s.write rest n).remaining = s.remaining - n := rfl
                have := h.remaining
                omega
              have hcall := @ih false (s.write rest n) [] (leaves_all h hle)
              rw [← List.drop_eq_nil_of_le hle] at hcall
              generalize writeArray memory waitOnSelect tape false (s.write rest n) = result at hcall ⊢
              cases result with
              | ok r => exact hcall.trans rfl
              | error e => exact hcall
          · exact Stuck.noConfusion
        · exact Stuck.noConfusion

/-- What the results of calls say. -/
theorem writeCalls_spec (calls : List (Bool × List IoResult)) : ∀ {s : WriteState} {rest : List UInt8},
    Leaves memory s rest →
    match writeCalls memory calls s with
    | .ok t => Wrote memory s.accepted rest t
    | .error e => e ≠ .outside := by
  induction calls with
  | nil => exact fun h => Wrote.none h
  | cons call calls ih =>
    obtain ⟨waitOnSelect, tape⟩ := call
    intro s rest h
    rw [writeCalls]
    have hcall := @writeArray_spec memory waitOnSelect tape false s rest h
    generalize writeArray memory waitOnSelect tape false s = result at hcall ⊢
    cases result with
    | error e => exact hcall
    | ok r =>
      obtain ⟨written, rest', rfl, haccepted, hleaves⟩ := hcall
      have hcalls := ih hleaves
      dsimp only
      generalize writeCalls memory calls r.state = result at hcalls ⊢
      cases result with
      | error e => exact hcalls
      | ok t =>
        have hdrop : (written ++ rest').drop written.length = rest' := List.drop_left
        rw [← hdrop] at hcalls
        exact hcalls.trans (by rw [haccepted, List.take_left])

/-! ## The values after the results of the system calls -/

/-- The count that a successful call of `writev` returns. -/
def IoResult.count : IoResult → Option Nat
  | .wrote n => some n
  | _ => none

/-- The counts of the successful calls of `writev`. -/
def successes (tape : List IoResult) : List Nat := tape.filterMap IoResult.count

/-- The results that a call obtains from the system while it writes this many
bytes, up to the result after which it returns.  A success accepts between one
byte and the bytes offered; a failure has any `errno`. -/
inductive Obtains (waitOnSelect : Bool) : Bool → Nat → List IoResult → Prop
  | done : Obtains waitOnSelect false 0 []
  | wrote {remaining n : Nat} {tape : List IoResult} : 0 < n → n ≤ remaining →
      Obtains waitOnSelect false (remaining - n) tape →
      Obtains waitOnSelect false remaining (.wrote n :: tape)
  | interrupted {remaining : Nat} {tape : List IoResult} : 0 < remaining →
      Obtains waitOnSelect false remaining tape →
      Obtains waitOnSelect false remaining (.failed .eintr :: tape)
  | blocked {remaining : Nat} {tape : List IoResult} : 0 < remaining → waitOnSelect = true →
      Obtains waitOnSelect true remaining tape →
      Obtains waitOnSelect false remaining (.failed .eagain :: tape)
  | failed {remaining : Nat} {e : Errno} : 0 < remaining → e ≠ .eintr →
      ¬ (waitOnSelect = true ∧ e = .eagain) →
      Obtains waitOnSelect false remaining [.failed e]
  | ready {remaining : Nat} {tape : List IoResult} : 0 < remaining →
      Obtains waitOnSelect false remaining tape → Obtains waitOnSelect true remaining (.ready :: tape)
  | timedOut {remaining : Nat} {tape : List IoResult} : 0 < remaining →
      Obtains waitOnSelect false remaining tape → Obtains waitOnSelect true remaining (.timedOut :: tape)
  | selectInterrupted {remaining : Nat} {tape : List IoResult} : 0 < remaining →
      Obtains waitOnSelect true remaining tape →
      Obtains waitOnSelect true remaining (.selectFailed .eintr :: tape)
  | selectFailed {remaining : Nat} {e : Errno} : 0 < remaining → e ≠ .eintr →
      Obtains waitOnSelect true remaining [.selectFailed e]

/-- The same for calls one after the other. -/
def CallsObtain : Nat → List (Bool × List IoResult) → Prop
  | _, [] => True
  | remaining, (waitOnSelect, tape) :: calls =>
      Obtains waitOnSelect false remaining tape ∧
        CallsObtain (remaining - (successes tape).sum) calls

/-- The counts of the successful calls of `writev` of all the calls. -/
def written (calls : List (Bool × List IoResult)) : List Nat :=
  calls.flatMap fun call => successes call.2

/-- The values after successful calls with these counts.  When every byte is
accepted they are still those that the last call of `writev` was given. -/
structure After (memory : Nat → UInt8) (input : List UInt8) (counts : List Nat) (s : WriteState) :
    Prop where
  accepted : s.accepted = input.take counts.sum
  leaves : Leaves memory s (input.drop counts.sum)
  last : counts.sum = input.length →
    (s.left.map (Iovec.bytes memory)).flatten = input.drop counts.dropLast.sum
  le : counts.sum ≤ input.length
  pos : ∀ n ∈ counts, 0 < n

variable {input : List UInt8} {counts : List Nat}

theorem after_startWrite (memory : Nat → UInt8) (array : List Iovec) :
    After memory (array.map (Iovec.bytes memory)).flatten [] (startWrite array) where
  accepted := rfl
  leaves := leaves_startWrite memory array
  last _ := by simp [startWrite, WriteState.left]
  le := Nat.zero_le _
  pos _ hmem := absurd hmem List.not_mem_nil

theorem After.remaining (h : After memory input counts s) : s.remaining = input.length - counts.sum := by
  rw [h.leaves.remaining, List.length_drop]

theorem After.accepted_concat (h : After memory input counts s) (n : Nat) :
    s.accepted ++ (input.drop counts.sum).take n = input.take (counts ++ [n]).sum := by
  rw [h.accepted, List.sum_append, List.sum_singleton, List.take_add]

theorem After.pos_concat (h : After memory input counts s) {n : Nat} (hpos : 0 < n) :
    ∀ m ∈ counts ++ [n], 0 < m := by
  intro m hmem
  rcases List.mem_append.mp hmem with hmem | hmem
  · exact h.pos m hmem
  · exact List.mem_singleton.mp hmem ▸ hpos

/-- `writev` accepts some of the bytes. -/
theorem After.write (h : After memory input counts s) {n : Nat} (hpos : 0 < n) (hlt : n < s.remaining) :
    ∃ t, updateArray n (s.write (input.drop counts.sum) n) = some t ∧
      After memory input (counts ++ [n]) t := by
  have hlength := h.leaves.remaining
  obtain ⟨t, ht, hleaves, haccepted, -⟩ := leaves_write h.leaves (hlength ▸ hlt)
  have hsum : (counts ++ [n]).sum = counts.sum + n := by
    rw [List.sum_append, List.sum_singleton]
  rw [h.remaining] at hlt
  refine ⟨t, ht, ?_, ?_, fun hall => ?_, ?_, h.pos_concat hpos⟩
  · rw [haccepted, h.accepted_concat]
  · rw [hsum, ← List.drop_drop]
    exact hleaves
  · omega
  · omega

/-- `writev` accepts all of the bytes. -/
theorem After.write_all (h : After memory input counts s) (hmore : 0 < s.remaining) :
    After memory input (counts ++ [s.remaining]) (s.write (input.drop counts.sum) s.remaining) := by
  have hremaining := h.remaining
  have hsum : (counts ++ [s.remaining]).sum = input.length := by
    rw [List.sum_append, List.sum_singleton]
    omega
  have hne : input.drop counts.sum ≠ [] := by
    rw [← List.length_pos_iff, ← h.leaves.remaining]
    exact hmore
  refine ⟨h.accepted_concat _, ?_, fun _ => ?_, hsum.le, h.pos_concat hmore⟩
  · rw [hsum, List.drop_length]
    exact leaves_all h.leaves h.leaves.remaining.ge
  · rw [List.dropLast_concat]
    exact h.leaves.bytes hne

/-- A call returns with the results that it obtains. -/
theorem After.writeArray {waitOnSelect selecting : Bool} {remaining : Nat} {tape : List IoResult}
    (hobtains : Obtains waitOnSelect selecting remaining tape) : ∀ {s : WriteState} {counts : List Nat},
    After memory input counts s → s.remaining = remaining →
    ∃ r, SocketFunctions.writeArray memory waitOnSelect tape selecting s = .ok r ∧
      After memory input (counts ++ successes tape) r.state := by
  induction hobtains with
  | done =>
    intro s counts h hremaining
    exact ⟨_, if_pos hremaining, by rw [successes, List.filterMap_nil, List.append_nil]; exact h⟩
  | @wrote remaining n tape hpos hle _ ih =>
    intro s counts h hremaining
    have hmore : s.remaining ≠ 0 := by omega
    have hne : input.drop counts.sum ≠ [] := by
      rw [← List.length_pos_iff, ← h.leaves.remaining]
      omega
    have hlength := h.leaves.remaining
    have hwrite : (s.write (input.drop counts.sum) n).remaining = s.remaining - n := rfl
    have hcounts : counts ++ successes (.wrote n :: tape) = counts ++ [n] ++ successes tape :=
      (List.append_assoc counts [n] (successes tape)).symm
    unfold SocketFunctions.writeArray
    rw [if_neg hmore, if_neg Bool.false_ne_true, entries_eq h.leaves.inside]
    dsimp only
    rw [h.leaves.bytes hne, if_pos ⟨hpos, by omega⟩, hcounts]
    by_cases hlt : n < s.remaining
    · obtain ⟨t, ht, hafter⟩ := h.write hpos hlt
      have hremaining' := hafter.remaining
      rw [List.sum_append, List.sum_singleton] at hremaining'
      rw [if_pos (by omega), ht]
      exact ih hafter (by have := h.remaining; omega)
    · obtain rfl : n = s.remaining := by omega
      rw [if_neg (by omega)]
      exact ih (h.write_all hpos) (by omega)
  | interrupted hmore _ ih =>
    intro s counts h hremaining
    unfold SocketFunctions.writeArray
    rw [if_neg (by omega), if_neg Bool.false_ne_true, entries_eq h.leaves.inside]
    exact ih h hremaining
  | blocked hmore hwait _ ih =>
    intro s counts h hremaining
    unfold SocketFunctions.writeArray
    rw [if_neg (by omega), if_neg Bool.false_ne_true, entries_eq h.leaves.inside]
    dsimp only
    rw [if_neg (by decide), if_pos ⟨hwait, rfl⟩]
    exact ih h hremaining
  | failed hmore heintr hwait =>
    intro s counts h hremaining
    unfold SocketFunctions.writeArray
    rw [if_neg (by omega), if_neg Bool.false_ne_true, entries_eq h.leaves.inside]
    dsimp only
    rw [if_neg heintr, if_neg hwait]
    exact ⟨_, rfl, (List.append_nil counts).symm ▸ h⟩
  | ready hmore _ ih =>
    intro s counts h hremaining
    unfold SocketFunctions.writeArray
    rw [if_neg (by omega), if_pos rfl]
    exact ih h hremaining
  | timedOut hmore _ ih =>
    intro s counts h hremaining
    unfold SocketFunctions.writeArray
    rw [if_neg (by omega), if_pos rfl]
    exact ih h hremaining
  | selectInterrupted hmore _ ih =>
    intro s counts h hremaining
    unfold SocketFunctions.writeArray
    rw [if_neg (by omega), if_pos rfl]
    exact ih h hremaining
  | selectFailed hmore heintr =>
    intro s counts h hremaining
    unfold SocketFunctions.writeArray
    rw [if_neg (by omega), if_pos rfl]
    dsimp only
    rw [if_neg heintr]
    exact ⟨_, rfl, (List.append_nil counts).symm ▸ h⟩

/-- So do calls one after the other. -/
theorem After.writeCalls (calls : List (Bool × List IoResult)) : ∀ {s : WriteState} {counts : List Nat},
    After memory input counts s → CallsObtain s.remaining calls →
    ∃ t, SocketFunctions.writeCalls memory calls s = .ok t ∧
      After memory input (counts ++ written calls) t := by
  induction calls with
  | nil => exact fun {s counts} h _ => ⟨s, rfl, (List.append_nil counts).symm ▸ h⟩
  | cons call calls ih =>
    obtain ⟨waitOnSelect, tape⟩ := call
    rintro s counts h ⟨hobtains, hcalls⟩
    obtain ⟨r, hr, hafter⟩ := h.writeArray hobtains rfl
    have hremaining : r.state.remaining = s.remaining - (successes tape).sum := by
      rw [hafter.remaining, h.remaining, List.sum_append, Nat.sub_sub]
    obtain ⟨t, ht, hlast⟩ := ih hafter (hremaining ▸ hcalls)
    refine ⟨t, ?_, ?_⟩
    · rw [SocketFunctions.writeCalls, hr]
      exact ht
    · rw [written, List.flatMap_cons, ← List.append_assoc]
      exact hlast

/-- When every byte is accepted the entries from the pointer on are not empty,
but for an input without a byte. -/
theorem After.bytes_ne_nil (h : After memory input counts s) (hall : counts.sum = input.length)
    (hne : input ≠ []) : (s.left.map (Iovec.bytes memory)).flatten ≠ [] := by
  have hinput := List.length_pos_iff.mpr hne
  rw [h.last hall, ← List.length_pos_iff, List.length_drop]
  rcases List.eq_nil_or_concat' counts with rfl | ⟨before, n, rfl⟩
  · exact hinput
  · have hpos := h.pos n (List.mem_append_right _ List.mem_cons_self)
    rw [List.sum_append, List.sum_singleton] at hall
    rw [List.dropLast_concat]
    omega

/-- With the values that the last of the calls returned another call would
write exactly the bytes that are not accepted. -/
def DescribesRest (memory : Nat → UInt8) (array : List Iovec) (calls : List (Bool × List IoResult)) :
    Prop :=
  ∃ s rest, writeCalls memory calls (startWrite array) = .ok s ∧
    s.accepted ++ rest = (array.map (Iovec.bytes memory)).flatten ∧
    (((s.array.drop s.ptr).take s.count).map (Iovec.bytes memory)).flatten = rest ∧
    s.remaining = (((s.array.drop s.ptr).take s.count).map Iovec.length).sum

/-- **`ScatterGatherSocketWrite`**: no call reads an entry outside of the array.
The calls return with the results that they obtain, the bytes that the system
has accepted are a prefix of the bytes of the array, and the returned number is
that of the rest.  The pointer and the count describe the rest exactly when some
of it is left, or when there was nothing to write; otherwise they are those of
the last call of `writev`. -/
theorem describesRest_iff (memory : Nat → UInt8) (array : List Iovec) :
    (∀ calls, writeCalls memory calls (startWrite array) ≠ .error .outside) ∧
    ∀ calls, CallsObtain (array.map Iovec.length).sum calls →
      (DescribesRest memory array calls ↔
        (array.map Iovec.length).sum = 0 ∨ (written calls).sum < (array.map Iovec.length).sum) ∧
      ∃ s, writeCalls memory calls (startWrite array) = .ok s ∧
        s.accepted = ((array.map (Iovec.bytes memory)).flatten).take (written calls).sum ∧
        s.remaining = (array.map Iovec.length).sum - (written calls).sum ∧
        s.ptr + s.count = s.array.length ∧
        (s.remaining = 0 → ((s.array.drop s.ptr).map (Iovec.bytes memory)).flatten =
          ((array.map (Iovec.bytes memory)).flatten).drop (written calls).dropLast.sum) := by
  have hlength : (array.map (Iovec.bytes memory)).flatten.length = (array.map Iovec.length).sum :=
    length_flatten_bytes array
  refine ⟨fun calls houtside => ?_, fun calls hobtain => ?_⟩
  · have hspec := writeCalls_spec calls (leaves_startWrite memory array)
    rw [houtside] at hspec
    exact hspec rfl
  · obtain ⟨s, hs, h⟩ := (after_startWrite memory array).writeCalls calls hobtain
    rw [List.nil_append] at h
    have hnumber : (s.left.map Iovec.length).sum = (s.left.map (Iovec.bytes memory)).flatten.length :=
      (length_flatten_bytes s.left).symm
    refine ⟨⟨?_, fun hrest => ?_⟩, s, hs, h.accepted, ?_, h.leaves.inside, fun hzero => ?_⟩
    · rintro ⟨s', rest, hs', -, -, hremaining⟩
      obtain rfl : s = s' := Except.ok.inj (hs.symm.trans hs')
      by_contra hdone
      have hall : (written calls).sum = (array.map (Iovec.bytes memory)).flatten.length := by
        have := h.le
        omega
      have hne : (array.map (Iovec.bytes memory)).flatten ≠ [] := by
        rw [← List.length_pos_iff]
        omega
      refine h.bytes_ne_nil hall hne (List.eq_nil_of_length_eq_zero ?_)
      rw [← hnumber, WriteState.left, ← hremaining, h.remaining, hall, Nat.sub_self]
    · have hbytes : (s.left.map (Iovec.bytes memory)).flatten =
          (array.map (Iovec.bytes memory)).flatten.drop (written calls).sum := by
        rcases hrest with hempty | hmore
        · have hnil := List.eq_nil_of_length_eq_zero (hlength.trans hempty)
          rw [hnil] at h ⊢
          rw [h.last (Nat.le_zero.mp h.le), List.drop_nil, List.drop_nil]
        · refine h.leaves.bytes ?_
          rw [← List.length_pos_iff, List.length_drop]
          omega
      refine ⟨s, _, hs, ?_, hbytes, ?_⟩
      · rw [h.accepted, List.take_append_drop]
      · show s.remaining = (s.left.map Iovec.length).sum
        rw [hnumber, hbytes, h.leaves.remaining]
    · rw [h.remaining, hlength]
    · rw [← left_eq h.leaves.inside]
      refine h.last ?_
      have := h.remaining
      have := h.le
      omega

/-- Three entries, one of them empty: the first call ends in the third entry,
the second one writes the rest. -/
theorem describesRest_iff_blocked :
    DescribesRest UInt8.ofNat [⟨0, 3⟩, ⟨9, 0⟩, ⟨20, 3⟩]
      [(false, [.wrote 3, .failed .eintr, .wrote 1, .failed .eagain])] ∧
    ¬ DescribesRest UInt8.ofNat [⟨0, 3⟩, ⟨9, 0⟩, ⟨20, 3⟩]
      [(false, [.wrote 3, .failed .eintr, .wrote 1, .failed .eagain]),
        (true, [.failed .eagain, .timedOut, .wrote 2])] := by
  have hfirst : Obtains false false 6 [.wrote 3, .failed .eintr, .wrote 1, .failed .eagain] :=
    .wrote (by decide) (by decide) (.interrupted (by decide)
      (.wrote (by decide) (by decide) (.failed (by decide) (by decide) (by decide))))
  have hsecond : Obtains true false 2 [.failed .eagain, .timedOut, .wrote 2] :=
    .blocked (by decide) rfl (.timedOut (by decide) (.wrote (by decide) (by decide) .done))
  obtain ⟨-, hiff⟩ := describesRest_iff UInt8.ofNat [⟨0, 3⟩, ⟨9, 0⟩, ⟨20, 3⟩]
  refine ⟨(hiff [_] ⟨hfirst, trivial⟩).1.mpr (by decide), fun hrest => ?_⟩
  exact absurd ((hiff [_, _] ⟨hfirst, hsecond, trivial⟩).1.mp hrest) (by decide)

/-- When every byte was written, the pointer is still at entries with bytes. -/
theorem writeCalls_written : CallsObtain 1 [(false, [.wrote 1])] ∧
    ¬ DescribesRest (fun _ => 0) [⟨0, 1⟩] [(false, [.wrote 1])] := by
  refine ⟨⟨.wrote (by decide) (by decide) .done, trivial⟩, ?_⟩
  rintro ⟨s, rest, hs, -, -, hremaining⟩
  cases hs
  revert hremaining
  decide

/-! ## The write over sequences of bytes -/

/-- The two calls return the same. -/
structure SameReturn (memory : Nat → UInt8) (k : Socket) (accepted : List UInt8) (r : ScatterReturn)
    (r' : WriteReturn) : Prop where
  remaining : r'.state.remaining = r.numberRemaining
  errno : r'.errno = r.errno
  tape : r'.tape = r.tape
  left : r.numberRemaining ≠ 0 → r'.state.left.map (Iovec.bytes memory) = r.iovec
  accepted : ∃ written, r.socket.sent = k.sent ++ written ∧ r'.state.accepted = accepted ++ written

theorem SameReturn.trans {k k' : Socket} {accepted accepted' written : List UInt8} {r : ScatterReturn}
    {r' : WriteReturn} (h : SameReturn memory k' accepted' r r')
    (hsent : k'.sent = k.sent ++ written) (haccepted : accepted' = accepted ++ written) :
    SameReturn memory k accepted r r' := by
  obtain ⟨later, hsent', haccepted'⟩ := h.accepted
  refine ⟨h.remaining, h.errno, h.tape, h.left, written ++ later, ?_, ?_⟩
  · rw [hsent', hsent, List.append_assoc]
  · rw [haccepted', haccepted, List.append_assoc]

theorem writeArray_done {waitOnSelect selecting : Bool} {tape : List IoResult} (h : s.remaining = 0) :
    writeArray memory waitOnSelect tape selecting s = .ok ⟨s, .zero, tape⟩ := by
  cases tape <;> exact if_pos h

theorem of_write_failed {k k' : Socket} {offered : List UInt8} {e : Errno} {x : Except Errno Nat}
    (h : k.write offered (.failed e) = some (k', x)) : x = .error e ∧ k'.sent = k.sent ++ [] := by
  rw [List.append_nil]
  simp only [Socket.write] at h
  split at h
  · cases h
  · cases h
    exact ⟨rfl, rfl⟩

theorem of_write_wrote {k k' : Socket} {offered : List UInt8} {n : Nat} {x : Except Errno Nat}
    (h : k.write offered (.wrote n) = some (k', x)) :
    x = .ok n ∧ 0 < n ∧ n ≤ offered.length ∧ k'.sent = k.sent ++ offered.take n := by
  simp only [Socket.write] at h
  split at h
  · rename_i hfits
    cases h
    exact ⟨rfl, hfits.2.1, hfits.2.2, rfl⟩
  · cases h

/-- A call over an array does what the call over the bytes of its entries does. -/
theorem writeArray_refines {waitOnSelect : Bool} {tape : List IoResult} : ∀ {selecting : Bool}
    {k : Socket} {s : WriteState} {iovec : List (List UInt8)} {r : ScatterReturn},
    Leaves memory s iovec.flatten → s.left.map (Iovec.bytes memory) = iovec →
    scatterGatherSocketWrite waitOnSelect tape selecting k iovec s.remaining = some r →
    ∃ r', writeArray memory waitOnSelect tape selecting s = .ok r' ∧
      SameReturn memory k s.accepted r r' := by
  have hdone : ∀ {tape : List IoResult} {selecting : Bool} {k : Socket} {s : WriteState}
      {iovec : List (List UInt8)} {r : ScatterReturn}, s.remaining = 0 →
      scatterGatherSocketWrite waitOnSelect tape selecting k iovec s.remaining = some r →
      ∃ r', writeArray memory waitOnSelect tape selecting s = .ok r' ∧
        SameReturn memory k s.accepted r r' := by
    intro tape selecting k s iovec r hzero h
    rw [hzero] at h
    obtain rfl : ⟨k, iovec, 0, .zero, tape⟩ = r := by
      unfold scatterGatherSocketWrite at h
      exact Option.some.inj h
    exact ⟨_, writeArray_done hzero, hzero, rfl, rfl, fun hne => absurd rfl hne, [], by simp, by simp⟩
  induction tape with
  | nil =>
    intro selecting k s iovec r hleaves hiovec h
    by_cases hzero : s.remaining = 0
    · exact hdone hzero h
    · obtain ⟨m, hm⟩ := Nat.exists_eq_add_one_of_ne_zero hzero
      rw [hm] at h
      cases selecting <;> cases h
  | cons c tape ih =>
    intro selecting k s iovec r hleaves hiovec h
    by_cases hzero : s.remaining = 0
    · exact hdone hzero h
    · obtain ⟨m, hm⟩ := Nat.exists_eq_add_one_of_ne_zero hzero
      have hsame : ∀ e, SameReturn memory k s.accepted ⟨k, iovec, m + 1, e, tape⟩ ⟨s, e, tape⟩ := fun e =>
        ⟨hm, rfl, rfl, fun _ => hiovec, [], by simp, by simp⟩
      rw [hm] at h
      unfold writeArray
      rw [if_neg hzero]
      cases selecting with
      | true =>
        simp only [scatterGatherSocketWrite] at h
        rw [if_pos rfl]
        split at h
        · rw [← hm] at h
          exact ih hleaves hiovec h
        · rw [← hm] at h
          exact ih hleaves hiovec h
        · rename_i e hne
          obtain rfl := Option.some.inj h
          dsimp only
          rw [if_neg (fun he => hne (by rw [he]))]
          exact ⟨_, rfl, hsame e⟩
        · cases h
      | false =>
        simp only [scatterGatherSocketWrite] at h
        rw [if_neg (by simp), entries_eq hleaves.inside]
        dsimp only
        rw [hiovec]
        cases c with
        | failed e =>
          split at h
          · cases h
          · rename_i k' e' hwrite
            obtain ⟨he, hsent⟩ := of_write_failed hwrite
            obtain rfl : e' = e := Except.error.inj he
            have hnone : s.accepted = s.accepted ++ [] := (List.append_nil _).symm
            rw [← hm] at h
            dsimp only
            split at h
            · rename_i heintr
              rw [if_pos heintr]
              obtain ⟨r', hr', hsame'⟩ := ih hleaves hiovec h
              exact ⟨r', hr', hsame'.trans hsent hnone⟩
            · rename_i heintr
              rw [if_neg heintr]
              split at h
              · rename_i hwait
                rw [if_pos hwait]
                obtain ⟨r', hr', hsame'⟩ := ih hleaves hiovec h
                exact ⟨r', hr', hsame'.trans hsent hnone⟩
              · rename_i hwait
                rw [if_neg hwait]
                obtain rfl := Option.some.inj h
                exact ⟨_, rfl, rfl, rfl, rfl, fun _ => hiovec, [], hsent, hnone⟩
          · rename_i k' n hwrite
            cases (of_write_failed hwrite).1
        | wrote n =>
          split at h
          · cases h
          · rename_i k' e hwrite
            cases (of_write_wrote hwrite).1
          · rename_i k' n' hwrite
            obtain ⟨hn, hpos, hle, hsent⟩ := of_write_wrote hwrite
            obtain rfl : n' = n := Except.ok.inj hn
            have hremaining : (s.write iovec.flatten n').remaining = m + 1 - n' := by rw [← hm]; rfl
            have hlength := hleaves.remaining
            dsimp only
            rw [if_pos ⟨hpos, hle⟩, hremaining]
            split at h
            · rename_i hmore
              rw [if_pos hmore]
              obtain ⟨t, ht, hleaves', haccepted, hleft⟩ := leaves_write hleaves (n := n') (by omega)
              rw [hiovec] at hleft
              rw [ht]
              have htremaining : t.remaining = m + 1 - n' := by
                rw [hleaves'.remaining, List.length_drop]
                omega
              rw [← htremaining] at h
              rw [← flatten_scatterGatherHelper] at hleaves'
              obtain ⟨r', hr', hsame'⟩ := ih hleaves' hleft h
              exact ⟨r', hr', hsame'.trans hsent haccepted⟩
            · rename_i hnone
              rw [if_neg hnone]
              obtain rfl := Option.some.inj h
              have hzero' : (s.write iovec.flatten n').remaining = 0 := by omega
              exact ⟨_, writeArray_done hzero', hzero', rfl, rfl, fun hne => absurd rfl hne, _, hsent, rfl⟩
        | _ =>
          simp only [Socket.write] at h
          cases h

end

end AsComponents.SocketFunctions
