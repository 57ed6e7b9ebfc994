import AsComponents.ScatterGather

/-! `ScatterGatherSocketWrite` with a time-out.  `WriteOnSelect` returns when a
call of `select` reports that the time has elapsed; here the report is taken for
a socket that is ready. -/

namespace AsComponents.SocketFunctions

/-- The call makes all of these system calls. -/
def ReadsAll : Except Stuck WriteReturn → Prop
  | .ok r => r.tape = []
  | .error e => e = .unfinished

/-- The call returns with the report of `select` that comes last, and the
returned values describe what is not written. -/
def ReturnsAt (memory : Nat → UInt8) (array : List Iovec) (tape : List IoResult) : Prop :=
  ∃ r, writeArray memory true tape false (startWrite array) = .ok r ∧ r.tape = [] ∧
    Wrote memory [] (array.map (Iovec.bytes memory)).flatten r.state

/-- Whenever a call of `select` reports that the time has elapsed, the call
returns. -/
def ReturnsOnTimeout (memory : Nat → UInt8) (array : List Iovec) (tape : List IoResult) : Prop :=
  ∀ before after, tape = before ++ .timedOut :: after →
    ReadsAll (writeArray memory true (before ++ [.timedOut]) false (startWrite array)) →
    ReturnsAt memory array (before ++ [.timedOut])

/-- `n` times the peer reads nothing and the time elapses. -/
def stopped (n : Nat) : List IoResult := (List.replicate n [.failed .eagain, .timedOut]).flatten

section

variable {memory : Nat → UInt8} {s : WriteState} {selecting : Bool}

/-- A call makes its system calls one after the other. -/
theorem readsAll_of_append (tape after : List IoResult)
    (h : ReadsAll (writeArray memory true (tape ++ after) selecting s)) :
    ReadsAll (writeArray memory true tape selecting s) := by
  induction tape generalizing selecting s with
  | nil =>
    rw [writeArray]
    split
    · exact rfl
    · exact rfl
  | cons c tape ih =>
    rw [List.cons_append] at h
    unfold writeArray at h ⊢
    split at h
    · cases h
    · rename_i hmore
      rw [if_neg hmore]
      split at h
      · rename_i hselecting
        rw [if_pos hselecting]
        cases c with
        | ready => exact ih h
        | timedOut => exact ih h
        | selectFailed e =>
          dsimp only at h ⊢
          split at h
          · rename_i heintr
            rw [if_pos heintr]
            exact ih h
          · rename_i heintr
            rw [if_neg heintr]
            exact (List.append_eq_nil_iff.mp h).1
        | _ => cases h
      · rename_i hselecting
        rw [if_neg hselecting]
        cases hentries : s.entries with
        | none =>
          rw [hentries] at h
          cases h
        | some entries =>
          rw [hentries] at h
          cases c with
          | failed e =>
            dsimp only at h ⊢
            split at h
            · rename_i heintr
              rw [if_pos heintr]
              exact ih h
            · rename_i heintr
              rw [if_neg heintr]
              split at h
              · rename_i hwait
                rw [if_pos hwait]
                exact ih h
              · rename_i hwait
                rw [if_neg hwait]
                exact (List.append_eq_nil_iff.mp h).1
          | wrote n =>
            dsimp only at h ⊢
            split at h
            · rename_i hfits
              rw [if_pos hfits]
              split at h
              · rename_i hleft
                rw [if_pos hleft]
                split at h
                · cases h
                · exact ih h
              · rename_i hleft
                rw [if_neg hleft]
                exact ih h
            · cases h
          | _ => cases h

/-- No call returns with a report that the time has elapsed. -/
theorem tape_ne_nil_of_timedOut (tape : List IoResult) {r : WriteReturn}
    (h : writeArray memory true (tape ++ [.timedOut]) selecting s = .ok r) : r.tape ≠ [] := by
  induction tape generalizing selecting s with
  | nil =>
    rw [List.nil_append] at h
    unfold writeArray at h
    split at h
    · cases h
      exact List.cons_ne_nil _ _
    · rename_i hmore
      split at h
      · rw [writeArray, if_neg hmore] at h
        cases h
      · split at h
        · cases h
        · cases h
  | cons c tape ih =>
    have hnonempty : tape ++ [IoResult.timedOut] ≠ [] := List.append_ne_nil_of_right_ne_nil _ (by simp)
    rw [List.cons_append] at h
    unfold writeArray at h
    split at h
    · cases h
      exact List.cons_ne_nil _ _
    · split at h
      · split at h
        · exact ih h
        · exact ih h
        · split at h
          · exact ih h
          · cases h
            exact hnonempty
        · cases h
      · split at h
        · cases h
        · dsimp only at h
          split at h
          · split at h
            · exact ih h
            · split at h
              · exact ih h
              · cases h
                exact hnonempty
          · split at h
            · split at h
              · split at h
                · cases h
                · exact ih h
              · exact ih h
            · cases h
          · cases h

theorem stopped_succ (n : Nat) :
    stopped (n + 1) = .failed .eagain :: .timedOut :: stopped n := by
  rw [stopped, List.replicate_succ, List.flatten_cons]
  rfl

/-- The call goes on as long as the peer reads nothing. -/
theorem writeArray_stopped (hmore : s.remaining ≠ 0) (hinside : s.ptr + s.count ≤ s.array.length)
    (n : Nat) : writeArray memory true (stopped n) false s = .error .unfinished := by
  have hentries : s.entries = some s.left := if_pos hinside
  induction n with
  | zero => exact if_neg hmore
  | succ n ih =>
    rw [stopped_succ]
    unfold writeArray
    rw [if_neg hmore, if_neg Bool.false_ne_true, hentries]
    dsimp only
    rw [if_neg (by decide), if_pos ⟨rfl, rfl⟩]
    unfold writeArray
    rw [if_neg hmore, if_pos rfl]
    exact ih

end

/-- `ScatterGatherSocketWrite` meets a time-out as `WriteOnSelect` does exactly
when no call of `select` reports one: the report does not end the call.  A peer
that reads nothing lets it end only when there is nothing to write. -/
theorem returnsOnTimeout_iff (memory : Nat → UInt8) (array : List Iovec) {tape : List IoResult}
    (h : ReadsAll (writeArray memory true tape false (startWrite array))) :
    (ReturnsOnTimeout memory array tape ↔ .timedOut ∉ tape) ∧
    ((∃ n, writeArray memory true (stopped n) false (startWrite array) ≠ .error .unfinished) ↔
      (array.map (Iovec.bytes memory)).flatten = []) := by
  refine ⟨⟨fun hreturns hmem => ?_, fun hnone before after htape => ?_⟩, ?_⟩
  · obtain ⟨before, after, rfl⟩ := List.append_of_mem hmem
    have hreads : ReadsAll
        (writeArray memory true (before ++ [.timedOut]) false (startWrite array)) := by
      refine readsAll_of_append _ after ?_
      rw [List.append_assoc]
      exact h
    obtain ⟨r, hr, hlast, -⟩ := hreturns before after rfl hreads
    exact tape_ne_nil_of_timedOut before hr hlast
  · rw [htape] at hnone
    exact absurd (List.mem_append_right _ List.mem_cons_self) hnone
  · have hlength : (startWrite array).remaining = (array.map (Iovec.bytes memory)).flatten.length :=
      (length_flatten_bytes array).symm
    have hinside : (startWrite array).ptr + (startWrite array).count ≤ (startWrite array).array.length :=
      Nat.le_of_eq (Nat.zero_add array.length)
    constructor
    · rintro ⟨n, hn⟩
      by_contra hbytes
      have hmore : (startWrite array).remaining ≠ 0 := by
        rw [hlength]
        exact fun hzero => hbytes (List.length_eq_zero_iff.mp hzero)
      exact hn (writeArray_stopped hmore hinside n)
    · intro hbytes
      refine ⟨0, ?_⟩
      have hzero : (startWrite array).remaining = 0 := by rw [hlength, hbytes]; rfl
      rw [show stopped 0 = [] from rfl, writeArray, if_pos hzero]
      simp

/-- A byte that is written after the time has elapsed once. -/
theorem returnsOnTimeout_iff_late :
    ¬ ReturnsOnTimeout (fun _ => 7) [⟨0, 1⟩] [.failed .eagain, .timedOut, .wrote 1] := by
  have hreads : ReadsAll (writeArray (fun _ => 7) true [.failed .eagain, .timedOut, .wrote 1] false
      (startWrite [⟨0, 1⟩])) := rfl
  exact fun hreturns => (returnsOnTimeout_iff _ _ hreads).1.mp hreturns (by decide)

/-- One byte, for a peer that reads nothing: the call is not over after any
number of time-outs. -/
theorem writeArray_spins : (∀ n, writeArray (fun _ => 7) true (stopped n) false
    (startWrite [⟨0, 1⟩]) = .error .unfinished) ∧
    ¬ ReturnsOnTimeout (fun _ => 7) [⟨0, 1⟩] (stopped 1) := by
  refine ⟨fun n => writeArray_stopped (by decide) (by decide) n, fun hreturns => ?_⟩
  obtain ⟨r, hr, -⟩ := hreturns [.failed .eagain] [] rfl rfl
  cases hr

end AsComponents.SocketFunctions
