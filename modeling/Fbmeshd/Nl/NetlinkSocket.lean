import Mathlib.Data.Int.Notation
import Mathlib.Data.Nat.Notation
import Mathlib.Data.List.Basic

/-!
# Waiting for the answer to a request

`NetlinkSocket::receive` waits until one of its callbacks has set `ret` to a value that is not
positive. The finish and the ack callback set it to 0. The error callback sets it to the negated
`errno` of the kernel, and compares this with error numbers of libnl.

libnl is not part of the repository. What it does while `receive` waits is a list of events, one
after the other: it calls a callback, or `nl_recvmsgs` returns. The list is a parameter, and nothing
is assumed about it.
-/

namespace Fbmeshd.Nl.NetlinkSocket

/-! ### The interface of libnl -/

/-- The codes a callback returns. -/
def NL_OK : ℤ := 0

@[inherit_doc NL_OK]
def NL_SKIP : ℤ := 1

@[inherit_doc NL_OK]
def NL_STOP : ℤ := 2

/-- The error numbers of the library, which are not those of the kernel. -/
def NLE_INTR : ℤ := 2

@[inherit_doc NLE_INTR]
def NLE_MSG_OVERFLOW : ℤ := 17

@[inherit_doc NLE_INTR]
def NLE_DUMP_INTR : ℤ := 33

/-- An error reply: the negated `errno`, and the command and the sequence number of the request
it answers. The value 0 is an acknowledgement. -/
structure NlMsgErr where
  error : ℤ
  cmd : UInt8
  seq : UInt32
  deriving DecidableEq

variable {M : Type*}

/-- A call of one of the callbacks. -/
inductive Call (M : Type*) where
  | valid (msg : M)
  | finish
  | ack
  | error (err : NlMsgErr)

/-- What libnl does next, inside of `nl_recvmsgs`. -/
inductive Event (M : Type*) where
  | call (c : Call M)
  | returns (err : ℤ)

/-! ### The callbacks and the loops -/

/-- The variable `ret` of `receive`, and the calls of its callbacks so far, the last one first. -/
structure Locals (M : Type*) where
  ret : ℤ := 1
  calls : List (Call M) := []

/-- Record a call. -/
def Locals.call (s : Locals M) (c : Call M) : Locals M := { s with calls := c :: s.calls }

section Receive

variable (nl_geterror : ℤ → String) (cbValid : M → Except String ℤ)

/-- The text of the exception. -/
def errorText (err : NlMsgErr) : String :=
  "Netlink error (" ++ nl_geterror err.error ++ ")" ++ "command: " ++ toString err.cmd.toNat ++
    "; sequence: " ++ toString err.seq.toNat

/-- The error callback. -/
def errorCallback (err : NlMsgErr) (s : Locals M) : Except String (ℤ × Locals M) :=
  let s := { s with ret := err.error }
  if err.error = -NLE_INTR then .ok (NL_SKIP, s)
  else if err.error = -NLE_MSG_OVERFLOW then .ok (NL_SKIP, s)
  else .error (errorText nl_geterror err)

/-- The callbacks that `receive` sets. The one for valid messages is the caller's. -/
def callback (c : Call M) (s : Locals M) : Except String (ℤ × Locals M) :=
  match c with
  | .valid msg => (cbValid msg).map fun code => (code, s)
  | .finish => .ok (NL_SKIP, { s with ret := 0 })
  | .ack => .ok (NL_STOP, { s with ret := 0 })
  | .error err => errorCallback nl_geterror err s

/-- The result of a call of `nl_recvmsgs`: it waits for a datagram, it has returned, or an exception
has left it. -/
inductive Result (M : Type*) where
  | blocked (s : Locals M)
  | returned (err : ℤ) (rest : List (Event M)) (s : Locals M)
  | threw (what : String) (s : Locals M)

/-- `nl_recvmsgs` with these callbacks. What the code of a callback makes libnl do is what it does
next. -/
def nl_recvmsgs : List (Event M) → Locals M → Result M
  | [], s => .blocked s
  | .returns err :: rest, s => .returned err rest s
  | .call c :: rest, s =>
    match callback nl_geterror cbValid c (s.call c) with
    | .ok (_, s) => nl_recvmsgs rest s
    | .error what => .threw what (s.call c)

/-- A call that has returned has used up some events. -/
theorem length_lt_of_nl_recvmsgs {events rest : List (Event M)} {s s' : Locals M} {err : ℤ}
    (h : nl_recvmsgs nl_geterror cbValid events s = .returned err rest s') :
    rest.length < events.length := by
  induction events generalizing s with
  | nil => simp [nl_recvmsgs] at h
  | cons e events ih =>
    cases e with
    | returns err' =>
      simp only [nl_recvmsgs, Result.returned.injEq] at h
      rw [h.2.1]
      exact Nat.lt_succ_self _
    | call c =>
      rw [nl_recvmsgs] at h
      split at h
      · exact Nat.lt_succ_of_lt (ih h)
      · cases h

/-- `tryReceive`: a call that was interrupted is made again. -/
def tryReceive (events : List (Event M)) (s : Locals M) : Result M :=
  match _hresult : nl_recvmsgs nl_geterror cbValid events s with
  | .returned err rest s =>
    if err = -NLE_INTR ∨ err = -NLE_DUMP_INTR then tryReceive rest s else .returned err rest s
  | .blocked s => .blocked s
  | .threw what s => .threw what s
termination_by events.length
decreasing_by exact length_lt_of_nl_recvmsgs _ _ _hresult

/-- The definition of `tryReceive`, without its termination proof. -/
theorem tryReceive_eq (events : List (Event M)) (s : Locals M) :
    tryReceive nl_geterror cbValid events s =
      match nl_recvmsgs nl_geterror cbValid events s with
      | .returned err rest s =>
        if err = -NLE_INTR ∨ err = -NLE_DUMP_INTR then tryReceive nl_geterror cbValid rest s
        else .returned err rest s
      | .blocked s => .blocked s
      | .threw what s => .threw what s := by
  rw [tryReceive.eq_def]
  split <;> simp only [*]

/-- So has a call of `tryReceive`. -/
theorem length_lt_of_tryReceive {events rest : List (Event M)} {s s' : Locals M} {err : ℤ}
    (h : tryReceive nl_geterror cbValid events s = .returned err rest s') :
    rest.length < events.length := by
  induction events, s using tryReceive.induct nl_geterror cbValid with
  | case1 events s err' rest' s₁ hresult hagain ih =>
    simp only [tryReceive_eq _ _ events, hresult, if_pos hagain] at h
    exact Nat.lt_trans (ih h) (length_lt_of_nl_recvmsgs _ _ hresult)
  | case2 events s err' rest' s₁ hresult hreturned =>
    simp only [tryReceive_eq _ _ events, hresult, if_neg hreturned, Result.returned.injEq] at h
    obtain ⟨-, rfl, -⟩ := h
    exact length_lt_of_nl_recvmsgs _ _ hresult
  | case3 events s s₁ hresult => simp [tryReceive_eq _ _ events, hresult] at h
  | case4 events s what s₁ hresult => simp [tryReceive_eq _ _ events, hresult] at h

/-- How `receive` ends: it still waits for a datagram, it returns, the check of the result fails
and ends the process, or an exception leaves it. -/
inductive Outcome (M : Type*) where
  | blocked (s : Locals M)
  | returned (s : Locals M)
  | checkFailed (err : ℤ) (s : Locals M)
  | threw (what : String) (s : Locals M)

/-- The variables in the end. -/
def Outcome.locals : Outcome M → Locals M
  | .blocked s | .returned s | .checkFailed _ s | .threw _ s => s

/-- The loop of `receive`. -/
def receiveLoop (events : List (Event M)) (s : Locals M) : Outcome M :=
  if 0 < s.ret then
    match _hresult : tryReceive nl_geterror cbValid events s with
    | .returned err rest s => if err = 0 then receiveLoop rest s else .checkFailed err s
    | .blocked s => .blocked s
    | .threw what s => .threw what s
  else .returned s
termination_by events.length
decreasing_by exact length_lt_of_tryReceive _ _ _hresult

/-- `receive`, given all that libnl does. -/
def receive (events : List (Event M)) : Outcome M := receiveLoop nl_geterror cbValid events {}

/-- The definition of the loop, without its termination proof. -/
theorem receiveLoop_eq (events : List (Event M)) (s : Locals M) :
    receiveLoop nl_geterror cbValid events s =
      if 0 < s.ret then
        match tryReceive nl_geterror cbValid events s with
        | .returned err rest s =>
          if err = 0 then receiveLoop nl_geterror cbValid rest s else .checkFailed err s
        | .blocked s => .blocked s
        | .threw what s => .threw what s
      else .returned s := by
  rw [receiveLoop.eq_def]
  split
  next => split <;> simp only [*]
  next => rfl

end Receive

/-! ### One event after the other -/

variable (nl_geterror : ℤ → String) (cbValid : M → Except String ℤ)

/-- The rest of `receive`, from the inside of a call of `nl_recvmsgs`. -/
def resume (events : List (Event M)) (s : Locals M) : Outcome M :=
  match tryReceive nl_geterror cbValid events s with
  | .returned err rest s =>
    if err = 0 then receiveLoop nl_geterror cbValid rest s else .checkFailed err s
  | .blocked s => .blocked s
  | .threw what s => .threw what s

variable {nl_geterror cbValid} {events : List (Event M)} {s : Locals M}

/-- The loop is inside of a call as long as `ret` is positive. -/
theorem receiveLoop_of_pos (h : 0 < s.ret) :
    receiveLoop nl_geterror cbValid events s = resume nl_geterror cbValid events s := by
  rw [receiveLoop_eq, if_pos h, resume]

/-- `receive` starts with a call. -/
theorem receive_eq_resume :
    receive nl_geterror cbValid events = resume nl_geterror cbValid events {} :=
  receiveLoop_of_pos Int.one_pos

/-- Nothing more happens. -/
@[simp] theorem resume_nil : resume nl_geterror cbValid [] s = .blocked s := by
  simp only [resume, tryReceive_eq, nl_recvmsgs]

/-- A callback is called, and throws or not. -/
theorem resume_call (c : Call M) :
    resume nl_geterror cbValid (.call c :: events) s =
      match callback nl_geterror cbValid c (s.call c) with
      | .ok (_, s) => resume nl_geterror cbValid events s
      | .error what => .threw what (s.call c) := by
  cases h : callback nl_geterror cbValid c (s.call c) with
  | ok r => simp only [resume, tryReceive_eq _ _ (_ :: _), nl_recvmsgs, h, ← tryReceive_eq]
  | error what => simp only [resume, tryReceive_eq, nl_recvmsgs, h]

/-- `nl_recvmsgs` returns. -/
theorem resume_returns (err : ℤ) :
    resume nl_geterror cbValid (.returns err :: events) s =
      if err = -NLE_INTR ∨ err = -NLE_DUMP_INTR then resume nl_geterror cbValid events s
      else if err = 0 then
        if 0 < s.ret then resume nl_geterror cbValid events s else .returned s
      else .checkFailed err s := by
  by_cases hagain : err = -NLE_INTR ∨ err = -NLE_DUMP_INTR
  · simp only [resume, tryReceive_eq _ _ (_ :: _), nl_recvmsgs, if_pos hagain]
  · rw [resume, tryReceive_eq]
    simp only [nl_recvmsgs, if_neg hagain]
    by_cases hret : 0 < s.ret
    · simp only [hret, if_true, receiveLoop_of_pos]
    · simp only [hret, if_false, receiveLoop_eq _ _ events]

/-! ### What is heard -/

/-- An error reply that the error callback takes for an error of libnl. -/
def Absorbed (err : NlMsgErr) : Prop := err.error = -NLE_INTR ∨ err.error = -NLE_MSG_OVERFLOW

instance (err : NlMsgErr) : Decidable (Absorbed err) := instDecidableOr

/-- The request is answered: the event is a reply other than a message. -/
def Event.isReply : Event M → Bool
  | .call (.valid _) => false
  | .call _ => true
  | .returns _ => false

variable (cbValid) in
/-- The wait is over with this event: a callback throws, `nl_recvmsgs` fails, or it returns after a
reply. -/
def Event.isLast (answered : Bool) : Event M → Bool
  | .call (.valid msg) => !(cbValid msg).isOk
  | .call (.error err) => !decide (Absorbed err)
  | .call _ => false
  | .returns err =>
    if err = -NLE_INTR ∨ err = -NLE_DUMP_INTR then false else err ≠ 0 || answered

variable (cbValid) in
/-- The events until the wait is over. -/
def heard (answered : Bool) : List (Event M) → List (Event M)
  | [] => []
  | e :: events =>
    e :: if e.isLast cbValid answered then [] else heard (answered || e.isReply) events

/-- An error reply that is not absorbed throws. -/
theorem callback_of_not_absorbed {err : NlMsgErr} (h : ¬ Absorbed err) (s : Locals M) :
    callback nl_geterror cbValid (.error err) s = .error (errorText nl_geterror err) := by
  obtain ⟨hintr, hoverflow⟩ := not_or.mp h
  simp only [callback, errorCallback, if_neg hintr, if_neg hoverflow]

/-- One that is absorbed ends the wait. -/
theorem callback_of_absorbed {err : NlMsgErr} (h : Absorbed err) (s : Locals M) :
    callback nl_geterror cbValid (.error err) s = .ok (NL_SKIP, { s with ret := err.error }) := by
  rcases h with h | h <;> simp [callback, errorCallback, h]

/-- The callback that is called, if one is. -/
def Event.calls : Event M → List (Call M)
  | .call c => [c]
  | .returns _ => []

variable (nl_geterror cbValid) in
/-- What an event comes to: the wait is over, or it goes on. The flag says whether there was a
reply, which is whether `ret` is positive. -/
theorem resume_cons {answered : Bool} (h : answered = true ↔ s.ret ≤ 0) (e : Event M) :
    (e.isLast cbValid answered = true ∧ ∃ out : Outcome M,
      (∀ events, resume nl_geterror cbValid (e :: events) s = out) ∧
        out.locals.calls = e.calls ++ s.calls ∧ (∀ t, out = .returned t → answered = true) ∧
        (∀ what t, out = .threw what t → ∃ c, e = .call c) ∧
        ∀ err, e = .call (.error err) →
          ¬ Absorbed err ∧ ∃ t, out = .threw (errorText nl_geterror err) t) ∨
      e.isLast cbValid answered = false ∧ ∃ s' : Locals M, s'.calls = e.calls ++ s.calls ∧
        ((answered || e.isReply) = true ↔ s'.ret ≤ 0) ∧
        (∀ err, e = .call (.error err) → Absorbed err) ∧
        ∀ events, resume nl_geterror cbValid (e :: events) s =
          resume nl_geterror cbValid events s' := by
  cases e with
  | returns err =>
    simp only [resume_returns, Event.isLast, Event.calls, Event.isReply, Bool.or_false,
      List.nil_append]
    by_cases hagain : err = -NLE_INTR ∨ err = -NLE_DUMP_INTR
    · simp only [if_pos hagain]
      exact .inr ⟨trivial, s, rfl, h, nofun, fun _ => rfl⟩
    by_cases herr : err = 0
    · by_cases hret : 0 < s.ret
      · have hopen : answered = false := by
          rw [Bool.eq_false_iff, ne_eq, h]
          omega
        simp only [if_neg hagain, if_pos herr, if_pos hret]
        exact .inr ⟨by simp [herr, hopen], s, rfl, h, nofun, fun _ => rfl⟩
      · have hdone := h.mpr (Int.not_lt.mp hret)
        simp only [if_neg hagain, if_pos herr, if_neg hret]
        exact .inl ⟨by simp [hdone], _, fun _ => rfl, rfl, fun _ _ => hdone, nofun, nofun⟩
    · simp only [if_neg hagain, if_neg herr]
      exact .inl ⟨by simp [herr], _, fun _ => rfl, rfl, nofun, nofun, nofun⟩
  | call c =>
    simp only [resume_call]
    cases c with
    | valid msg =>
      cases hcode : cbValid msg with
      | error what =>
        have hthrows : callback nl_geterror cbValid (.valid msg) (s.call (.valid msg)) =
            .error what := by simp [callback, hcode, Except.map]
        simp only [hthrows]
        exact .inl ⟨by simp [Event.isLast, hcode, Except.isOk, Except.toBool], _, fun _ => rfl,
          rfl, nofun, fun _ _ _ => ⟨_, rfl⟩, nofun⟩
      | ok code =>
        have hreturns : callback nl_geterror cbValid (.valid msg) (s.call (.valid msg)) =
            .ok (code, s.call (.valid msg)) := by simp [callback, hcode, Except.map]
        simp only [hreturns]
        exact .inr ⟨by simp [Event.isLast, hcode, Except.isOk, Except.toBool], _, rfl,
          by simpa [Event.isReply, Locals.call] using h, nofun, fun _ => rfl⟩
    | finish =>
      exact .inr ⟨rfl, { s.call .finish with ret := 0 }, rfl, by simp [Event.isReply], nofun,
        fun _ => rfl⟩
    | ack =>
      exact .inr ⟨rfl, { s.call .ack with ret := 0 }, rfl, by simp [Event.isReply], nofun,
        fun _ => rfl⟩
    | error err =>
      by_cases habsorbed : Absorbed err
      · simp only [callback_of_absorbed habsorbed]
        refine .inr ⟨by simp [Event.isLast, habsorbed], _, rfl, ?_, ?_, fun _ => rfl⟩
        · rcases habsorbed with h | h <;> simp [Event.isReply, h, NLE_INTR, NLE_MSG_OVERFLOW]
        · rintro err' ⟨⟩
          exact habsorbed
      · simp only [callback_of_not_absorbed habsorbed]
        refine .inl ⟨by simp [Event.isLast, habsorbed], _, fun _ => rfl, rfl, nofun,
          fun _ _ _ => ⟨_, rfl⟩, ?_⟩
        rintro err' ⟨⟩
        exact ⟨habsorbed, _, rfl⟩

/-- The callbacks that are called are those that are heard. -/
theorem calls_resume {answered : Bool} (h : answered = true ↔ s.ret ≤ 0) :
    (resume nl_geterror cbValid events s).locals.calls =
      ((heard cbValid answered events).flatMap Event.calls).reverse ++ s.calls := by
  induction events generalizing s answered with
  | nil => simp [heard, Outcome.locals]
  | cons e events ih =>
    have hone : e.calls.reverse = e.calls := by cases e <;> rfl
    rcases resume_cons nl_geterror cbValid h e with
      ⟨hlast, out, hout, hcalls, -⟩ | ⟨hlast, s', hcalls, hflag, -, hnext⟩
    · simp [heard, hlast, hout, hcalls, hone]
    · simp [heard, hlast, hnext, ih hflag, hcalls, hone]

/-- A normal return comes after a reply. -/
theorem replied_of_returned {answered : Bool} (h : answered = true ↔ s.ret ≤ 0) {t : Locals M}
    (hreturned : resume nl_geterror cbValid events s = .returned t) :
    answered = true ∨ ∃ e ∈ heard cbValid answered events, e.isReply = true := by
  induction events generalizing s answered with
  | nil => simp at hreturned
  | cons e events ih =>
    rcases resume_cons nl_geterror cbValid h e with
      ⟨hlast, out, hout, -, hanswered, -⟩ | ⟨hlast, s', -, hflag, -, hnext⟩
    · exact .inl (hanswered t ((hout events).symm.trans hreturned))
    · simp only [heard, hlast, Bool.false_eq_true, if_false, List.mem_cons, exists_eq_or_imp]
      rcases ih hflag ((hnext events).symm.trans hreturned) with hflag | ⟨e', he', hreply⟩
      · rcases Bool.or_eq_true_iff.mp hflag with hanswered | hreply
        · exact .inl hanswered
        · exact .inr (.inl hreply)
      · exact .inr (.inr ⟨e', he', hreply⟩)

variable (nl_geterror) in
/-- An error reply that is heard and not absorbed throws, and is the last call. -/
theorem threw_of_heard {answered : Bool} (h : answered = true ↔ s.ret ≤ 0) {err : NlMsgErr}
    (hheard : .call (.error err) ∈ heard cbValid answered events) (hnot : ¬ Absorbed err) :
    ∃ t, resume nl_geterror cbValid events s = .threw (errorText nl_geterror err) t ∧
      t.calls.head? = some (.error err) := by
  induction events generalizing s answered with
  | nil => simp [heard] at hheard
  | cons e events ih =>
    rcases resume_cons nl_geterror cbValid h e with
      ⟨hlast, out, hout, hcalls, -, -, herror⟩ | ⟨hlast, s', -, hflag, habsorbed, hnext⟩
    · obtain rfl : .call (.error err) = e := by simpa [heard, hlast] using hheard
      obtain ⟨-, t, rfl⟩ := herror err rfl
      exact ⟨t, hout events, by rw [show t.calls = _ from hcalls]; rfl⟩
    · simp only [heard, hlast, Bool.false_eq_true, if_false, List.mem_cons] at hheard
      rcases hheard with rfl | hheard
      · exact absurd (habsorbed err rfl) hnot
      · rw [hnext]
        exact ih hflag hheard

/-- An exception is thrown by the last call, and not by an error reply that is absorbed. -/
theorem not_absorbed_of_threw {answered : Bool} (h : answered = true ↔ s.ret ≤ 0) {what : String}
    {t : Locals M} {err : NlMsgErr}
    (hthrew : resume nl_geterror cbValid events s = .threw what t)
    (hhead : t.calls.head? = some (.error err)) : ¬ Absorbed err := by
  induction events generalizing s answered with
  | nil => simp at hthrew
  | cons e events ih =>
    rcases resume_cons nl_geterror cbValid h e with
      ⟨hlast, out, hout, hcalls, -, hcall, herror⟩ | ⟨hlast, s', -, hflag, -, hnext⟩
    · obtain rfl := (hout events).symm.trans hthrew
      obtain ⟨c, rfl⟩ := hcall what t rfl
      rw [show t.calls = c :: s.calls from hcalls, List.head?_cons] at hhead
      exact (herror err (by rw [Option.some.inj hhead])).1
    · exact ih hflag ((hnext events).symm.trans hthrew)

/-- `nl_recvmsgs` returns after a reply. -/
theorem resume_of_replied (h : s.ret ≤ 0) :
    resume nl_geterror cbValid (.returns 0 :: events) s = .returned s := by
  have hagain : ¬ ((0 : ℤ) = -NLE_INTR ∨ (0 : ℤ) = -NLE_DUMP_INTR) := by decide
  rw [resume_returns, if_neg hagain, if_pos rfl, if_neg (Int.not_lt.mpr h)]

/-! ### When the answer is taken for what it is -/

/-- `receive` returns only after an acknowledgement or the end of a dump and each error reply makes
it throw, exactly if no error reply comes before the wait is over that has the number `NLE_INTR` or
`NLE_MSG_OVERFLOW`. -/
theorem receive_answered_iff (nl_geterror : ℤ → String) (cbValid : M → Except String ℤ)
    (events : List (Event M)) :
    ((∀ s, receive nl_geterror cbValid events = .returned s →
        .finish ∈ s.calls ∨ .ack ∈ s.calls) ∧
      ∀ err, .error err ∈ (receive nl_geterror cbValid events).locals.calls →
        ∃ s, receive nl_geterror cbValid events = .threw (errorText nl_geterror err) s ∧
          s.calls.head? = some (.error err)) ↔
    ∀ err, .call (.error err) ∈ heard cbValid false events → ¬ Absorbed err := by
  have hstart : false = true ↔ ({} : Locals M).ret ≤ 0 := by simp
  have hcalls (c : Call M) : c ∈ (receive nl_geterror cbValid events).locals.calls ↔
      .call c ∈ heard cbValid false events := by
    rw [receive_eq_resume, calls_resume hstart]
    simp only [List.append_nil, List.mem_reverse, List.mem_flatMap]
    constructor
    · rintro ⟨e, he, hc⟩
      cases e with
      | call c' => exact List.mem_singleton.mp hc ▸ he
      | returns err => cases hc
    · exact fun he => ⟨_, he, List.mem_singleton_self c⟩
  rw [receive_eq_resume] at hcalls ⊢
  constructor
  · rintro ⟨-, hthrows⟩ err herr
    obtain ⟨s, hs, hhead⟩ := hthrows err ((hcalls _).mpr herr)
    exact not_absorbed_of_threw hstart hs hhead
  · intro h
    have hthrows (err : NlMsgErr) (herr : .call (.error err) ∈ heard cbValid false events) :=
      threw_of_heard nl_geterror hstart herr (h err herr)
    refine ⟨fun s hs => ?_, fun err herr => hthrows err ((hcalls _).mp herr)⟩
    obtain ⟨e, he, hreply⟩ := (replied_of_returned hstart hs).resolve_left Bool.false_ne_true
    have hs' (c : Call M) : c ∈ s.calls ↔ .call c ∈ heard cbValid false events := by
      rw [← hcalls, hs]
      rfl
    -- a reply that is neither an end nor an acknowledgement would have thrown
    cases e with
    | returns err => cases hreply
    | call c =>
      cases c with
      | valid msg => cases hreply
      | finish => exact .inl ((hs' _).mpr he)
      | ack => exact .inr ((hs' _).mpr he)
      | error err =>
        obtain ⟨t, ht, -⟩ := hthrows err he
        cases hs.symm.trans ht

/-- A dump of one message is received to its end. -/
theorem dump_received_to_end :
    ∃ s, receive (fun _ => "") (fun _ : Unit => .ok NL_OK)
        [.call (.valid ()), .call .finish, .returns 0] = .returned s ∧
      (.finish ∈ s.calls ∨ .ack ∈ s.calls) := by
  have hreturned : receive (fun _ => "") (fun _ : Unit => .ok NL_OK)
      [.call (.valid ()), .call .finish, .returns 0] = .returned ⟨0, [.finish, .valid ()]⟩ := by
    rw [receive_eq_resume, resume_call]
    exact (resume_call _).trans (resume_of_replied (Int.le_refl 0))
  refine ⟨_, hreturned, ((receive_answered_iff _ _ _).mpr ?_).1 _ hreturned⟩
  simp [heard, Event.isLast, Except.isOk, Except.toBool]

/-- The kernel answers a request with `ENOENT`, which has the number of `NLE_INTR`, or with
`EEXIST`, which has that of `NLE_MSG_OVERFLOW`. In both cases `receive` returns. -/
theorem error_reply_taken_for_answer :
    (receive (fun _ => "") (fun _ : Unit => .ok NL_OK)
        [.call (.error ⟨-2, 1, 7⟩), .returns 0] = .returned ⟨-2, [.error ⟨-2, 1, 7⟩]⟩) ∧
      receive (fun _ => "") (fun _ : Unit => .ok NL_OK)
        [.call (.error ⟨-17, 1, 7⟩), .returns 0] = .returned ⟨-17, [.error ⟨-17, 1, 7⟩]⟩ := by
  rw [receive_eq_resume, receive_eq_resume, resume_call, resume_call]
  exact ⟨resume_of_replied (by decide), resume_of_replied (by decide)⟩

/-! ### One reply -/

/-- The reply to a request does not make `sendAndReceive` throw: it is an acknowledgement, or an
error that is absorbed. -/
def passes (error : ℤ) : Bool := error = 0 || error = -NLE_INTR || error = -NLE_MSG_OVERFLOW

/-- What libnl does for a request that gets one reply. -/
def oneReply (err : NlMsgErr) : List (Event M) :=
  [.call (if err.error = 0 then .ack else .error err), .returns 0]

/-- A request with one reply returns normally exactly if the reply passes. -/
theorem receive_oneReply (nl_geterror : ℤ → String) (cbValid : M → Except String ℤ)
    (err : NlMsgErr) :
    if passes err.error then ∃ s, receive nl_geterror cbValid (oneReply err) = .returned s
    else ∃ s, receive nl_geterror cbValid (oneReply err) =
      .threw (errorText nl_geterror err) s := by
  rw [receive_eq_resume, oneReply, resume_call]
  by_cases hack : err.error = 0
  · have hpasses : passes err.error = true := by simp [passes, hack]
    rw [if_pos hpasses, if_pos hack]
    exact ⟨_, resume_of_replied (Int.le_refl 0)⟩
  rw [if_neg hack]
  by_cases habsorbed : Absorbed err
  · have hpasses : passes err.error = true := by
      rcases habsorbed with h | h <;> simp [passes, h]
    rw [if_pos hpasses, callback_of_absorbed habsorbed]
    refine ⟨_, resume_of_replied ?_⟩
    rcases habsorbed with h | h <;> simp [h, NLE_INTR, NLE_MSG_OVERFLOW]
  · have hpasses : ¬ passes err.error = true := by
      obtain ⟨hintr, hoverflow⟩ := not_or.mp habsorbed
      simp [passes, hack, hintr, hoverflow]
    rw [if_neg hpasses, callback_of_not_absorbed habsorbed]
    exact ⟨_, rfl⟩

end Fbmeshd.Nl.NetlinkSocket
