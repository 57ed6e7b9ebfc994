import AsComponents.FcgiRequest

/-! The rounds of the write loop of a request object. -/

namespace AsComponents.Server

open Protocol NameValue SocketFunctions AsComponents.Partition Std

theorem selectLoop_spec {k : Socket} {iovec : List Bytes} {working total : Nat}
    {tape : List IoResult} {r : WriteRound} (h : selectLoop k iovec working total tape = some r) :
    r.socket = k ∧ r.remaining = working ∧
      (r.outcome = .again iovec ∨
        (∃ force failure, r.outcome = .failed force failure) ∧ r.corrupt = decide (working < total)) := by
  induction tape with
  | nil => cases h
  | cons c tape ih =>
    cases c with
    | ready =>
      simp only [selectLoop, Option.some.injEq] at h
      subst h
      exact ⟨rfl, rfl, .inl rfl⟩
    | timedOut =>
      simp only [selectLoop, Option.some.injEq] at h
      subst h
      exact ⟨rfl, rfl, .inr ⟨⟨_, _, rfl⟩, rfl⟩⟩
    | selectFailed e =>
      simp only [selectLoop] at h
      split at h
      · exact ih h
      · simp only [Option.some.injEq] at h
        subst h
        exact ⟨rfl, rfl, .inr ⟨⟨_, _, rfl⟩, rfl⟩⟩
    | _ => cases h

/-- What a round leaves behind: the rest of the batch, and a mark on the
connection when a part of it was written and no more can be. -/
structure RoundSpec (k : Socket) (offered : Bytes) (total : Nat) (r : WriteRound)
    (unwritten : Bytes) : Prop where
  accepted : Accepted k r.socket offered unwritten
  length : unwritten.length = r.remaining
  done : r.outcome = .done → r.remaining = 0
  again : ∀ iovec, r.outcome = .again iovec → iovec.flatten = unwritten ∧ 0 < r.remaining
  failed : ∀ force failure, r.outcome = .failed force failure →
    r.remaining < total → r.corrupt = true ∨ r.socket.broken = true

theorem writeRound_spec {tape : List IoResult} {k : Socket} {iovec : List Bytes}
    {working total : Nat} {r : WriteRound} (hlen : iovec.flatten.length = working)
    (h : writeRound tape k iovec working total = some r) :
    ∃ unwritten, RoundSpec k iovec.flatten total r unwritten := by
  unfold writeRound at h
  split at h
  · cases h
  · rename_i w hw
    obtain ⟨ha, hl, hbroken⟩ := scatterGatherSocketWrite_accepted hlen hw
    split at h
    · rename_i hz
      simp only [Option.some.injEq] at h
      subst h
      refine ⟨w.unwritten, ha, hl.trans hz, fun _ => rfl, ?_, ?_⟩
      · intro _ he
        cases he
      · intro _ _ he
        cases he
    · rename_i hz
      have hflat : w.iovec.flatten = w.unwritten := by simp [ScatterReturn.unwritten, hz]
      split at h
      · obtain ⟨hs, hr, ho⟩ := selectLoop_spec h
        refine ⟨w.unwritten, ?_, hl.trans hr.symm, ?_, ?_, ?_⟩
        · rw [hs]
          exact ha
        · intro he
          rcases ho with ho | ⟨⟨_, _, ho⟩, -⟩
          · rw [ho] at he
            cases he
          · rw [ho] at he
            cases he
        · intro iovec' he
          rcases ho with ho | ⟨⟨_, _, ho⟩, -⟩
          · rw [ho] at he
            cases he
            exact ⟨hflat, by omega⟩
          · rw [ho] at he
            cases he
        · intro _ _ he hlt
          rcases ho with ho | ⟨-, hc⟩
          · rw [ho] at he
            cases he
          · left
            rw [hc]
            simpa [← hr] using hlt
      · split at h
        · rename_i hepipe
          simp only [Option.some.injEq] at h
          subst h
          refine ⟨w.unwritten, ha, hl, ?_, ?_, ?_⟩
          · intro he
            cases he
          · intro _ he
            cases he
          · intro _ _ _ _
            have := hbroken hz hepipe
            simpa using this
        · simp only [Option.some.injEq] at h
          subst h
          refine ⟨w.unwritten, ha, hl, ?_, ?_, ?_⟩
          · intro he
            cases he
          · intro _ he
            cases he
          · intro _ _ _ hlt
            left
            simpa using hlt

theorem writeRounds_spec {total fuel : Nat} {tape : List IoResult} {k : Socket} {iovec : List Bytes}
    {working : Nat} {r : WriteRound} (hlen : iovec.flatten.length = working)
    (h : writeRounds total fuel tape k iovec working = some r) :
    (∃ unwritten, RoundSpec k iovec.flatten total r unwritten) ∧
      ∀ iovec', r.outcome ≠ .again iovec' := by
  induction fuel generalizing tape k iovec working with
  | zero => cases h
  | succ fuel ih =>
    simp only [writeRounds] at h
    split at h
    · rename_i k' remaining corrupt iovec' tape' hround
      obtain ⟨unwritten, hu⟩ := writeRound_spec hlen hround
      obtain ⟨hflat, -⟩ := hu.again iovec' rfl
      have hl : iovec'.flatten.length = remaining := by
        rw [hflat]
        exact hu.length
      obtain ⟨⟨unwritten', hu'⟩, hagain⟩ := ih hl h
      refine ⟨⟨unwritten', ?_, hu'.length, hu'.done, hu'.again, hu'.failed⟩, hagain⟩
      have ha := hu.accepted
      rw [← hflat] at ha
      exact ha.trans hu'.accepted
    · rename_i hnot
      refine ⟨writeRound_spec hlen h, ?_⟩
      rintro iovec' he
      obtain ⟨k', remaining, corrupt, outcome, tape'⟩ := r
      simp only at he
      subst he
      exact hnot _ _ _ _ _ h

end AsComponents.Server
