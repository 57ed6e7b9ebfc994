import Mathlib

/-! The socket functions (`socket_functions.cc`) over the results of the system
calls they make.  A list of results is the tape of one call; a call whose tape
ends early has not returned yet. -/

namespace AsComponents.SocketFunctions

/-- The values of `errno` the program tells apart; `EWOULDBLOCK` is `EAGAIN`. -/
inductive Errno
  | zero
  | eintr
  | eagain
  | epipe
  | econnreset
  | ebadf
  | other (code : Nat)
  deriving DecidableEq, Repr

/-- What one call of `write`, `writev` or `select` returned. -/
inductive IoResult
  | wrote (n : Nat)
  | failed (e : Errno)
  | ready
  | timedOut
  | selectFailed (e : Errno)
  deriving DecidableEq, Repr

/-- The sending side of a connected socket: the bytes the system accepted, and
whether a write has failed with `EPIPE`. -/
structure Socket where
  sent : List UInt8 := []
  broken : Bool := false
  deriving DecidableEq, Repr

namespace Socket

/-- One `write` or `writev`.  A successful call accepts a non-empty prefix of
what it is offered, and no call succeeds once one has failed with `EPIPE`. -/
def write (k : Socket) (offered : List UInt8) : IoResult → Option (Socket × Except Errno Nat)
  | .wrote n =>
      if k.broken = false ∧ 0 < n ∧ n ≤ offered.length then
        some ({ k with sent := k.sent ++ offered.take n }, .ok n)
      else none
  | .failed e =>
      if e = .zero then none
      else some ({ k with broken := k.broken || e == .epipe }, .error e)
  | _ => none

theorem write_ok {k k' : Socket} {offered : List UInt8} {r : IoResult} {n : Nat}
    (h : k.write offered r = some (k', .ok n)) :
    k.broken = false ∧ 0 < n ∧ n ≤ offered.length ∧
      k' = { k with sent := k.sent ++ offered.take n } := by
  cases r with
  | wrote m =>
    simp only [write] at h
    split at h
    · rename_i hm
      simp only [Option.some.injEq, Prod.mk.injEq, Except.ok.injEq] at h
      obtain ⟨rfl, rfl⟩ := h
      exact ⟨hm.1, hm.2.1, hm.2.2, rfl⟩
    · cases h
  | failed e => simp [write] at h
  | _ => simp [write] at h

theorem write_error {k k' : Socket} {offered : List UInt8} {r : IoResult} {e : Errno}
    (h : k.write offered r = some (k', .error e)) :
    e ≠ .zero ∧ k' = { k with broken := k.broken || e == .epipe } := by
  cases r with
  | wrote m => simp [write] at h
  | failed e' =>
    simp only [write] at h
    split at h
    · cases h
    · rename_i he
      simp only [Option.some.injEq, Prod.mk.injEq, Except.error.injEq] at h
      obtain ⟨rfl, rfl⟩ := h
      exact ⟨he, rfl⟩
  | _ => simp [write] at h

end Socket

/-- Advance a sequence of `iovec` structures past `n` bytes. -/
def scatterGatherHelper : Nat → List (List UInt8) → List (List UInt8)
  | _, [] => []
  | n, v :: vs => if v.length ≤ n then scatterGatherHelper (n - v.length) vs else v.drop n :: vs

theorem flatten_scatterGatherHelper (n : Nat) (vs : List (List UInt8)) :
    (scatterGatherHelper n vs).flatten = vs.flatten.drop n := by
  induction vs generalizing n with
  | nil => simp [scatterGatherHelper]
  | cons v vs ih =>
    simp only [scatterGatherHelper, List.flatten_cons, List.drop_append]
    split
    · rename_i hv
      rw [ih, List.drop_eq_nil_of_le hv, List.nil_append]
    · rename_i hv
      rw [List.flatten_cons, Nat.sub_eq_zero_of_le (by omega), List.drop_zero]

/-- What `ScatterGatherSocketWrite` leaves behind; `errno` is meaningful when
bytes remain. -/
structure ScatterReturn where
  socket : Socket
  iovec : List (List UInt8)
  numberRemaining : Nat
  errno : Errno := .zero
  tape : List IoResult

/-- `ScatterGatherSocketWrite` without a time-out (`timeout_ptr` is null in
every call of the program).  `selecting` marks the inner loop over `select`. -/
def scatterGatherSocketWrite (waitOnSelect : Bool) :
    List IoResult → Bool → Socket → List (List UInt8) → Nat → Option ScatterReturn
  | tape, _, k, iovec, 0 => some ⟨k, iovec, 0, .zero, tape⟩
  | [], _, _, _, _ + 1 => none
  | r :: tape, true, k, iovec, m + 1 =>
      match r with
      | .ready => scatterGatherSocketWrite waitOnSelect tape false k iovec (m + 1)
      | .selectFailed .eintr => scatterGatherSocketWrite waitOnSelect tape true k iovec (m + 1)
      | .selectFailed e => some ⟨k, iovec, m + 1, e, tape⟩
      | _ => none
  | r :: tape, false, k, iovec, m + 1 =>
      match k.write iovec.flatten r with
      | none => none
      | some (k', .error e) =>
          if e = .eintr then scatterGatherSocketWrite waitOnSelect tape false k' iovec (m + 1)
          else if waitOnSelect ∧ e = .eagain then
            scatterGatherSocketWrite waitOnSelect tape true k' iovec (m + 1)
          else some ⟨k', iovec, m + 1, e, tape⟩
      | some (k', .ok n) =>
          if m + 1 - n > 0 then
            scatterGatherSocketWrite waitOnSelect tape false k' (scatterGatherHelper n iovec)
              (m + 1 - n)
          else some ⟨k', iovec, 0, .zero, tape⟩

/-- What `WriteOnSelect` leaves behind. -/
structure SelectReturn where
  socket : Socket
  unwritten : List UInt8
  errno : Errno := .zero
  tape : List IoResult

/-- `WriteOnSelect`; `timeout` says whether a time-out was given, `selected`
that `select` has just found the socket ready. -/
def writeOnSelect (timeout : Bool) :
    List IoResult → Bool → Socket → List UInt8 → Option SelectReturn
  | tape, _, k, [] => some ⟨k, [], .zero, tape⟩
  | [], _, _, _ :: _ => none
  | r :: tape, false, k, b :: bs =>
      match r with
      | .ready => writeOnSelect timeout tape true k (b :: bs)
      | .selectFailed .eintr => writeOnSelect timeout tape false k (b :: bs)
      | .selectFailed e => some ⟨k, b :: bs, e, tape⟩
      | .timedOut => if timeout then some ⟨k, b :: bs, .zero, tape⟩ else none
      | _ => none
  | r :: tape, true, k, b :: bs =>
      match k.write (b :: bs) r with
      | none => none
      | some (k', .error e) =>
          if e = .eintr ∨ e = .eagain then writeOnSelect timeout tape false k' (b :: bs)
          else some ⟨k', b :: bs, e, tape⟩
      | some (k', .ok n) => writeOnSelect timeout tape false k' ((b :: bs).drop n)

/-! ## What the two loops guarantee -/

/-- The socket after a call that was offered `offered` and left `unwritten`:
the bytes accepted are the rest of what was offered, and a broken socket
accepts nothing. -/
structure Accepted (k k' : Socket) (offered unwritten : List UInt8) : Prop where
  accepted : ∃ bs, bs ++ unwritten = offered ∧ k'.sent = k.sent ++ bs
  stays_broken : k.broken = true → k'.broken = true ∧ unwritten = offered

namespace Accepted

theorem refl (k : Socket) (offered : List UInt8) : Accepted k k offered offered :=
  ⟨⟨[], rfl, by simp⟩, fun h => ⟨h, rfl⟩⟩

theorem failed (k : Socket) (e : Errno) (offered : List UInt8) :
    Accepted k { k with broken := k.broken || e == .epipe } offered offered :=
  ⟨⟨[], rfl, by simp⟩, fun h => ⟨by simp [h], rfl⟩⟩

theorem wrote {k : Socket} (h : k.broken = false) (offered : List UInt8) (n : Nat) :
    Accepted k { k with sent := k.sent ++ offered.take n } offered (offered.drop n) :=
  ⟨⟨offered.take n, List.take_append_drop n offered, rfl⟩,
    fun hb => absurd hb (by simp [h])⟩

theorem trans {k k' k'' : Socket} {a b c : List UInt8} (h : Accepted k k' a b)
    (h' : Accepted k' k'' b c) : Accepted k k'' a c := by
  obtain ⟨bs, hbs, hs⟩ := h.accepted
  obtain ⟨bs', hbs', hs'⟩ := h'.accepted
  refine ⟨⟨bs ++ bs', by rw [List.append_assoc, hbs', hbs], by rw [hs', hs, List.append_assoc]⟩, ?_⟩
  intro hb
  obtain ⟨hb', e⟩ := h.stays_broken hb
  obtain ⟨hb'', e'⟩ := h'.stays_broken hb'
  exact ⟨hb'', e'.trans e⟩

theorem length_le {k k' : Socket} {a b : List UInt8} (h : Accepted k k' a b) :
    b.length ≤ a.length := by
  obtain ⟨bs, rfl, _⟩ := h.accepted
  simp

theorem sent_eq {k k' : Socket} {a b : List UInt8} (h : Accepted k k' a b) :
    k'.sent = k.sent ++ a.take (a.length - b.length) := by
  obtain ⟨bs, rfl, hs⟩ := h.accepted
  simp [hs]

theorem unwritten_eq {k k' : Socket} {a b : List UInt8} (h : Accepted k k' a b) :
    b = a.drop (a.length - b.length) := by
  obtain ⟨bs, rfl, _⟩ := h.accepted
  simp

end Accepted

/-- The bytes a call of `ScatterGatherSocketWrite` has left to write. -/
def ScatterReturn.unwritten (r : ScatterReturn) : List UInt8 :=
  if r.numberRemaining = 0 then [] else r.iovec.flatten

theorem scatterGatherSocketWrite_accepted {w : Bool} {tape : List IoResult} {selecting : Bool}
    {k : Socket} {iovec : List (List UInt8)} {m : Nat} {r : ScatterReturn}
    (hm : iovec.flatten.length = m)
    (h : scatterGatherSocketWrite w tape selecting k iovec m = some r) :
    Accepted k r.socket iovec.flatten r.unwritten ∧ r.unwritten.length = r.numberRemaining ∧
      (r.numberRemaining ≠ 0 → r.errno = .epipe → r.socket.broken = true ∨ selecting = true ∨ w = true) := by
  induction tape generalizing selecting k iovec m with
  | nil =>
    cases m with
    | zero =>
      cases selecting <;>
      · simp only [scatterGatherSocketWrite, Option.some.injEq] at h
        subst h
        have he : iovec.flatten = [] := List.length_eq_zero_iff.mp hm
        simpa [ScatterReturn.unwritten, he] using Accepted.refl k []
    | succ m => cases selecting <;> cases h
  | cons c tape ih =>
    cases m with
    | zero =>
      cases selecting <;>
      · simp only [scatterGatherSocketWrite, Option.some.injEq] at h
        subst h
        have he : iovec.flatten = [] := List.length_eq_zero_iff.mp hm
        simpa [ScatterReturn.unwritten, he] using Accepted.refl k []
    | succ m =>
      cases selecting with
      | true =>
        simp only [scatterGatherSocketWrite] at h
        split at h
        · obtain ⟨h₁, h₂, h₃⟩ := ih hm h
          exact ⟨h₁, h₂, fun a b => (h₃ a b).imp_right fun _ => .inl rfl⟩
        · exact ih hm h
        · simp only [Option.some.injEq] at h
          subst h
          exact ⟨Accepted.refl k _, hm, fun _ _ => .inr (.inl rfl)⟩
        · cases h
      | false =>
        simp only [scatterGatherSocketWrite] at h
        split at h
        · cases h
        · rename_i k' e hw
          obtain ⟨_, rfl⟩ := Socket.write_error hw
          split at h
          · obtain ⟨h₁, h₂, h₃⟩ := ih hm h
            exact ⟨(Accepted.failed k e _).trans h₁, h₂, h₃⟩
          · split at h
            · rename_i hs
              obtain ⟨h₁, h₂, h₃⟩ := ih hm h
              exact ⟨(Accepted.failed k e _).trans h₁, h₂, fun _ _ => .inr (.inr hs.1)⟩
            · simp only [Option.some.injEq] at h
              subst h
              refine ⟨Accepted.failed k e _, hm, fun _ he => .inl ?_⟩
              simp only at he
              simp [he]
        · rename_i k' n hw
          obtain ⟨hb, hn, hle, rfl⟩ := Socket.write_ok hw
          split at h
          · rename_i hlt
            obtain ⟨h₁, h₂, h₃⟩ := ih (by rw [flatten_scatterGatherHelper]; simp only [List.length_drop]; omega) h
            rw [flatten_scatterGatherHelper] at h₁
            exact ⟨(Accepted.wrote hb _ n).trans h₁, h₂, h₃⟩
          · rename_i hle'
            simp only [Option.some.injEq] at h
            subst h
            have hd : iovec.flatten.drop n = [] := List.drop_eq_nil_of_le (by omega)
            have ha := Accepted.wrote hb iovec.flatten n
            rw [hd] at ha
            simpa [ScatterReturn.unwritten] using ha

theorem writeOnSelect_accepted {t : Bool} {tape : List IoResult} {selected : Bool} {k : Socket}
    {bs : List UInt8} {r : SelectReturn} (h : writeOnSelect t tape selected k bs = some r) :
    Accepted k r.socket bs r.unwritten := by
  induction tape generalizing selected k bs with
  | nil =>
    cases bs with
    | nil =>
      cases selected <;>
      · simp only [writeOnSelect, Option.some.injEq] at h
        subst h
        exact Accepted.refl k []
    | cons b bs => cases selected <;> cases h
  | cons c tape ih =>
    cases bs with
    | nil =>
      cases selected <;>
      · simp only [writeOnSelect, Option.some.injEq] at h
        subst h
        exact Accepted.refl k []
    | cons b bs =>
      cases selected with
      | false =>
        simp only [writeOnSelect] at h
        split at h
        · exact ih h
        · exact ih h
        · simp only [Option.some.injEq] at h
          subst h
          exact Accepted.refl k _
        · split at h
          · simp only [Option.some.injEq] at h
            subst h
            exact Accepted.refl k _
          · cases h
        · cases h
      | true =>
        simp only [writeOnSelect] at h
        split at h
        · cases h
        · rename_i k' e hw
          obtain ⟨_, rfl⟩ := Socket.write_error hw
          split at h
          · exact (Accepted.failed k e _).trans (ih h)
          · simp only [Option.some.injEq] at h
            subst h
            exact Accepted.failed k e _
        · rename_i k' n hw
          obtain ⟨hb, _, _, rfl⟩ := Socket.write_ok hw
          exact (Accepted.wrote hb _ n).trans (ih h)

end AsComponents.SocketFunctions
