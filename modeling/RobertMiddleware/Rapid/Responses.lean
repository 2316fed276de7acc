import RobertMiddleware.Rapid.Server

/-!
# Requests and responses on a connection

`HandleClient` answers a request while `parse_message` runs, on the connection that the request came
from. In a run in which nothing upsets the count of the responses, there is at most one for each
request, and none after the call of `parse_message` has failed.

What happens to a request that is on a connection is a matter of three stages: it is there and
nothing has been sent, it is in work, or there will be no more. The client finds out about the last
two from the bytes it gets, or does not.

## Main definitions

* `RapidServer.replied` — the responses sent, each with the request it was sent for
* `RapidServer.Orderly` — whole requests, and nothing that upsets the count
* `RapidServer.CountOk` — what was made of the requests so far
* `RapidServer.Quiet`, `RapidServer.InWork` — the stages

## Main results

* `RapidServer.CountOk.step` — at most one response for each request
* `RapidServer.Quiet.step`, `RapidServer.InWork.step` — how the stages follow each other
-/

namespace RobertMiddleware

namespace Rapid

open Effects

/-! ### Responses -/

/-- The response that a call sends. -/
def sentBytes (ev : Event RapidCalls) : Option Bytes :=
  match ev.1 with
  | .sendResponse msg => some (ascii msg)
  | .sendBinaryResponse raw => some raw
  | _ => none

/-- The responses among the calls. -/
def responsesOf (calls : Calls) : List Bytes := calls.filterMap sentBytes

theorem responsesOf_snoc (calls : Calls) (ev : Event RapidCalls) :
    responsesOf (calls ++ [ev]) = responsesOf calls ++ (sentBytes ev).toList := by
  rw [responsesOf, List.filterMap_append]
  cases h : sentBytes ev <;> simp [responsesOf, h]

theorem length_responsesOf (calls : Calls) : (responsesOf calls).length = replies calls := by
  rw [responsesOf, replies, List.length_filterMap_eq_countP]
  refine congrArg (List.countP · calls) (funext fun ev => ?_)
  obtain ⟨op, r⟩ := ev
  cases op <;> rfl

theorem sent_eq (op : RapidOp) (r : op.Ret) : op.sent = (sentBytes ⟨op, r⟩).getD [] := by
  cases op <;> rfl

/-- A request for an unknown zone fails before any call. -/
theorem ran_unknownZone {R : RapidSystem} {raw : Bytes} {res : Except Errno Unit} {tr : Calls}
    (hlen : 4 ≤ raw.length) (hzone : UnknownZone raw) (h : RapidServer.Ran R raw res tr) :
    res ≠ .ok () ∧ tr = [] := by
  obtain ⟨c, c', hrun⟩ := h
  have hends : Ends (parseMessage R raw raw.length)
      (fun res tr' => res ≠ .ok () ∧ tr' = []) [] := by
    have herror := (valueToZone_eq_error_iff (e := R.errFncNoRet)).mpr ⟨hzone.2, rfl⟩
    rw [parseMessage, parseMessageWith, if_neg (by omega)]
    have hstatus : commandToString (unpackUsint raw 1) ≠ "GETSTATUS" := by
      rw [hzone.1]
      decide
    simp only [if_neg hstatus, if_pos hzone.1, herror]
    exact ends_throw ⟨by simp, rfl⟩
  exact (hends c).exec hrun

theorem Undisturbed.of_append {R : RapidSystem} {tr tr' : Calls} (h : Undisturbed R (tr ++ tr')) :
    Undisturbed R tr ∧ Undisturbed R tr' :=
  ⟨fun ev hev => h ev (List.mem_append_left _ hev),
    fun ev hev => h ev (List.mem_append_right _ hev)⟩

namespace RapidServer

section Runs

variable {R : RapidSystem} {raw : Bytes} {tr : Calls}

/-- A run that returns has answered once. -/
theorem Ran.replies_ok {a : Unit} (hlen : 4 ≤ raw.length) (h : Ran R raw (.ok a) tr)
    (hcalm : Undisturbed R tr) : replies tr = 1 := by
  have hzone : ¬ UnknownZone raw := fun hzone => (ran_unknownZone hlen hzone h).1 rfl
  obtain ⟨c, c', hrun⟩ := h
  exact (((ends_parseMessage hlen c).exec hrun).mpr ⟨hzone, hcalm⟩).1

/-- A run fails for an unknown zone only. -/
theorem Ran.unknownZone {e : Errno} (hlen : 4 ≤ raw.length) (h : Ran R raw (.error e) tr)
    (hcalm : Undisturbed R tr) : UnknownZone raw := by
  obtain ⟨c, c', hrun⟩ := h
  by_contra hzone
  have hone := ((ends_parseMessage hlen c).exec hrun).mpr ⟨hzone, hcalm⟩
  cases hone.2

/-- A run that fails has not answered. -/
theorem Ran.replies_error {e : Errno} (hlen : 4 ≤ raw.length) (h : Ran R raw (.error e) tr)
    (hcalm : Undisturbed R tr) : replies tr = 0 := by
  rw [(ran_unknownZone hlen (h.unknownZone hlen hcalm) h).2]
  rfl

/-- A run that is not done yet has answered once at most. -/
theorem Running.replies_le {rest : Routine Unit} {vars : Controller} (hlen : 4 ≤ raw.length)
    (h : Running R raw rest vars tr) (hcalm : Undisturbed R tr) : replies tr ≤ 1 := by
  obtain ⟨res, ext, hext, hran⟩ := h.completes
  have hcalm' : Undisturbed R (tr ++ ext) := by
    intro ev hev
    rcases List.mem_append.mp hev with hold | hnew
    · exact hcalm ev hold
    · exact not_disturbing_of_raised_eq_none (hext ev hnew)
  have hle : replies tr ≤ replies (tr ++ ext) := by simp
  cases res with
  | ok a => exact hle.trans (hran.replies_ok hlen hcalm').le
  | error e => exact hle.trans ((hran.replies_error hlen hcalm').trans_le (Nat.zero_le 1))

/-- A run that fails has not made a call. -/
theorem Failures.eq_nil {errSockTimeout : Errno} (hlen : 4 ≤ raw.length)
    (h : Failures R errSockTimeout raw tr) (hcalm : Undisturbed R tr) : tr = [] := by
  obtain ⟨trs, rfl, hran⟩ := h
  refine List.flatten_eq_nil_iff.mpr fun tr htr => ?_
  have hzone : UnknownZone raw := (hran tr htr).unknownZone hlen
    fun ev hev => hcalm ev (List.mem_flatten_of_mem htr hev)
  exact (ran_unknownZone hlen hzone (hran tr htr)).2

end Runs

/-! ### The count -/

variable {R : RapidSystem} {errSockTimeout : Errno} {made : ℕ} {s s' : RapidServer}
  {ev : RapidEvent}

/-- The responses sent, in their order, each with the request it was sent for. -/
def replied (s : RapidServer) : List (Bytes × Bytes) :=
  s.taken.flatMap fun x => (responsesOf x.calls).map (Prod.mk x.raw)

/-- What the step sends. -/
def sends (s : RapidServer) (ev : RapidEvent) : List (Bytes × Bytes) :=
  match ev, s.pc with
  | .call answer _, .parsing _ raw _ (.call op _) =>
    (sentBytes ⟨op, answer op⟩).toList.map (Prod.mk raw)
  | _, _ => []

/-- A `SocketReceive` returns as many bytes as a request has, and no call upsets the count of the
responses. -/
def Orderly (R : RapidSystem) (s : RapidServer) : RapidEvent → Prop
  | .receive bytes => bytes.length = 188
  | .call answer _ =>
    match s.pc with
    | .parsing _ _ _ (.call op _) => ¬ Disturbing R ⟨op, answer op⟩
    | _ => True
  | _ => True

instance (ev : Event RapidCalls) : Decidable (Disturbing R ev) :=
  decidable_of_iff (∃ x ∈ raised ev, x.1 = .clearPath ∨ x.1.isCheck = false ∧ x.2 = R.errRobLimit)
    (by simp [Disturbing, Option.mem_def])

instance (s : RapidServer) : ∀ ev, Decidable (s.Orderly R ev)
  | .receive _ => inferInstanceAs (Decidable (_ = _))
  | .call answer _ =>
    match hpc : s.pc with
    | .parsing _ _ _ (.call op _) =>
      decidable_of_iff (¬ Disturbing R ⟨op, answer op⟩) (by simp [Orderly, hpc])
    | .parsing _ _ _ (.pure _) | .parsing _ _ _ (.throw _) | .accepting | .receiving _
    | .closing _ => .isTrue (by simp [Orderly, hpc])
  | .accept | .receiveError _ | .advance | .drift _ => .isTrue trivial

/-- What was made of the requests so far. -/
structure CountOk (R : RapidSystem) (errSockTimeout : Errno) (s : RapidServer) : Prop where
  executed : ExecutedOk R errSockTimeout s
  calm : ∀ x ∈ s.taken, x.raw.length = 188 ∧ Undisturbed R x.calls

theorem replied_step (h : s.step R errSockTimeout made ev = some s') :
    s'.replied = s.replied ++ s.sends ev := by
  cases step_move h with
  | receive => simp [replied, taken, sends, SocketPc.current, responsesOf, *]
  | _ => simp [replied, taken, sends, SocketPc.current, responsesOf_snoc, *]

/-- **Step lemma.** -/
theorem CountOk.step (hs : CountOk R errSockTimeout s) (horderly : s.Orderly R ev)
    (h : s.step R errSockTimeout made ev = some s') : CountOk R errSockTimeout s' := by
  refine ⟨hs.executed.step h, ?_⟩
  cases step_move h with
  | receive conn bytes hpc =>
    intro x hx
    rcases List.mem_append.mp hx with hold | hnew
    · exact hs.calm x (List.mem_append_left _ hold)
    · rw [List.mem_singleton.mp hnew]
      exact ⟨horderly, waiting_nil.2⟩
  | call conn raw calls op k answer vars hpc =>
    have hcurrent := hs.calm ⟨conn, raw, calls⟩
      (List.mem_append_right _ (by rw [hpc]; exact List.mem_singleton_self _))
    simp only [Orderly, hpc] at horderly
    intro x hx
    rcases List.mem_append.mp hx with hold | hnew
    · exact hs.calm x (List.mem_append_left _ hold)
    · rw [List.mem_singleton.mp hnew]
      exact ⟨hcurrent.1, undisturbed_append_singleton.mpr ⟨hcurrent.2, horderly⟩⟩
  | _ =>
    intro x hx
    refine hs.calm x ?_
    simpa [taken, SocketPc.current, *] using hx

section Current

variable {conn : ℕ} {raw : Bytes} {calls : Calls} {rest : Routine Unit}

/-- The request in work is in its first run. -/
theorem CountOk.current (hs : CountOk R errSockTimeout s)
    (hpc : s.pc = .parsing conn raw calls rest) :
    4 ≤ raw.length ∧ Running R raw rest s.vars calls ∧ Undisturbed R calls := by
  obtain ⟨failed, tr, rfl, hfailed, hrunning⟩ := hs.executed.current conn raw calls rest hpc
  obtain ⟨hlength, hcalm⟩ := hs.calm ⟨conn, raw, failed ++ tr⟩
    (List.mem_append_right _ (by rw [hpc]; exact List.mem_singleton_self _))
  have hlen : 4 ≤ raw.length := by
    rw [show raw.length = 188 from hlength]
    decide
  obtain rfl := hfailed.eq_nil hlen hcalm.of_append.1
  exact ⟨hlen, hrunning, hcalm⟩

/-- The requests that are not in work any more have had one run. -/
theorem CountOk.executed_once (hs : CountOk R errSockTimeout s) {x : Execution}
    (hx : x ∈ s.executions) :
    4 ≤ x.raw.length ∧ (∃ res, Ran R x.raw res x.calls) ∧ Undisturbed R x.calls := by
  obtain ⟨failed, tr, res, hcalls, hfailed, hran⟩ := hs.executed.executions x hx
  obtain ⟨hlength, hcalm⟩ := hs.calm x (List.mem_append_left _ hx)
  have hlen : 4 ≤ x.raw.length := by
    rw [hlength]
    decide
  rw [hcalls] at hcalm ⊢
  obtain rfl := hfailed.eq_nil hlen hcalm.of_append.1
  exact ⟨hlen, ⟨res, hran⟩, hcalm⟩

theorem CountOk.replies_le (hs : CountOk R errSockTimeout s)
    (hpc : s.pc = .parsing conn raw calls rest) : replies calls ≤ 1 := by
  obtain ⟨hlen, hrunning, hcalm⟩ := hs.current hpc
  exact hrunning.replies_le hlen hcalm

theorem CountOk.replies_pure {a : Unit} (hs : CountOk R errSockTimeout s)
    (hpc : s.pc = .parsing conn raw calls (.pure a)) : replies calls = 1 := by
  obtain ⟨hlen, hrunning, hcalm⟩ := hs.current hpc
  exact hrunning.pure.replies_ok hlen hcalm

/-- **At most one response for each request.** -/
theorem CountOk.responses_le (hs : CountOk R errSockTimeout s) :
    ∀ x ∈ s.taken, (responsesOf x.calls).length ≤ 1 := by
  intro x hx
  rw [length_responsesOf]
  rcases List.mem_append.mp hx with hdone | hcurrent
  · obtain ⟨hlen, ⟨res, hran⟩, hcalm⟩ := hs.executed_once hdone
    cases res with
    | ok a => exact (hran.replies_ok hlen hcalm).le
    | error e => exact (hran.replies_error hlen hcalm).trans_le (Nat.zero_le 1)
  · cases hpc : s.pc with
    | parsing conn raw calls rest =>
      rw [hpc] at hcurrent
      rw [List.mem_singleton.mp hcurrent]
      exact hs.replies_le hpc
    | _ =>
      rw [hpc] at hcurrent
      cases hcurrent

end Current

/-! ### The stages of a request -/

/-- What the controller has taken up on the connection is answered, or will not be. -/
structure Quiet (s : RapidServer) (fd : ℕ) (requests responses : Bytes) : Prop where
  requests : s.requests fd = requests
  responses : s.responses fd = responses
  settled : ∀ raw calls rest, s.pc = .parsing fd raw calls rest → replies calls = 1

/-- The request is in work, and not answered yet. -/
structure InWork (s : RapidServer) (fd : ℕ) (raw : Bytes) : Prop where
  requests : s.requests fd = []
  responses : s.responses fd = []
  current : ∃ calls rest, s.pc = .parsing fd raw calls rest ∧ replies calls = 0

theorem Quiet.congr {fd : ℕ} {requests responses : Bytes} (hs : s.Quiet fd requests responses)
    (hrequests : s'.requests fd = s.requests fd) (hresponses : s'.responses fd = s.responses fd)
    (hpc : ∀ raw calls rest, s'.pc = .parsing fd raw calls rest → replies calls = 1) :
    s'.Quiet fd requests responses :=
  ⟨hrequests.trans hs.requests, hresponses.trans hs.responses, hpc⟩

/-- A connection is left alone, or a request is taken from it. -/
theorem Quiet.step {fd : ℕ} {requests responses : Bytes} (hs : CountOk R errSockTimeout s)
    (hquiet : s.Quiet fd requests responses) (horderly : s.Orderly R ev)
    (h : s.step R errSockTimeout made ev = some s') :
    s'.Quiet fd requests responses ∨
      ∃ rest, requests.length = 188 + rest.length ∧ s'.requests fd = rest ∧
        s'.responses fd = responses ∧ ∃ raw, requests = raw ++ rest ∧
        s'.pc = .parsing fd raw [] (parseMessage R raw raw.length) := by
  have hs' := hs.step horderly h
  cases step_move h with
  | accept => exact .inl (hquiet.congr rfl rfl nofun)
  | receive conn bytes hpc _ hfront =>
    rcases eq_or_ne fd conn with rfl | hne
    · obtain ⟨rest, hrest⟩ := hfront
      have hrequests : requests = bytes ++ rest := hquiet.requests.symm.trans hrest.symm
      refine .inr ⟨rest, ?_, ?_, hquiet.responses, bytes, hrequests, rfl⟩
      · rw [hrequests, List.length_append, show bytes.length = 188 from horderly]
      · simp [← hrest]
    · refine .inl (hquiet.congr (Function.update_of_ne hne ..) rfl ?_)
      rintro _ _ _ ⟨⟩
      exact absurd rfl hne
  | idle => exact .inl hquiet
  | hangUp => exact .inl (hquiet.congr rfl rfl nofun)
  | call conn raw calls op k answer vars hpc =>
    rcases eq_or_ne fd conn with rfl | hne
    · -- one response was sent, and there is no other
      have hone := hquiet.settled raw calls _ hpc
      have hle := hs'.replies_le rfl
      rw [replies_append, hone, ← length_responsesOf, responsesOf, List.filterMap_cons] at hle
      have hnone : sentBytes ⟨op, answer op⟩ = none := by
        cases hsent : sentBytes ⟨op, answer op⟩ with
        | none => rfl
        | some bytes => simp [hsent] at hle
      refine .inl (hquiet.congr rfl ?_ ?_)
      · simp [sent_eq op (answer op), hnone]
      · rintro _ _ _ ⟨⟩
        rw [← length_responsesOf, responsesOf_snoc, hnone]
        simpa [length_responsesOf] using hone
    · refine .inl (hquiet.congr rfl (Function.update_of_ne hne ..) ?_)
      rintro _ _ _ ⟨⟩
      exact absurd rfl hne
  | finish => exact .inl (hquiet.congr rfl rfl nofun)
  | retry conn raw calls hpc =>
    refine .inl (hquiet.congr rfl rfl ?_)
    rintro _ _ _ ⟨⟩
    exact hquiet.settled raw calls _ hpc
  | abort => exact .inl (hquiet.congr rfl rfl nofun)
  | close => exact .inl (hquiet.congr rfl rfl nofun)
  | drift => exact .inl (hquiet.congr rfl rfl hquiet.settled)

/-- A request that is not there as a whole is not taken up. -/
theorem Quiet.step_lt {fd : ℕ} {requests responses : Bytes} (hs : CountOk R errSockTimeout s)
    (hquiet : s.Quiet fd requests responses) (hlt : requests.length < 188)
    (horderly : s.Orderly R ev) (h : s.step R errSockTimeout made ev = some s') :
    s'.Quiet fd requests responses := by
  rcases hquiet.step hs horderly h with hsame | ⟨rest, hlength, -⟩
  · exact hsame
  · omega

/-- A request is taken up as a whole. -/
theorem Quiet.step_eq {fd : ℕ} {raw : Bytes} (hs : CountOk R errSockTimeout s)
    (hquiet : s.Quiet fd raw []) (hraw : raw.length = 188) (horderly : s.Orderly R ev)
    (h : s.step R errSockTimeout made ev = some s') : s'.Quiet fd raw [] ∨ s'.InWork fd raw := by
  rcases hquiet.step hs horderly h with hsame | ⟨rest, hlength, hrest, hresponses, raw', rfl, hpc⟩
  · exact .inl hsame
  · obtain rfl : rest = [] := List.eq_nil_of_length_eq_zero (by omega)
    rw [List.append_nil]
    exact .inr ⟨hrest, hresponses, [], _, hpc, rfl⟩

/-- **The answer.** The request in work stays in work, or is answered, or will not be. -/
theorem InWork.step {fd : ℕ} {raw : Bytes} (hs : CountOk R errSockTimeout s)
    (hwork : s.InWork fd raw) (horderly : s.Orderly R ev)
    (h : s.step R errSockTimeout made ev = some s') :
    s'.InWork fd raw ∨ s'.Quiet fd [] [] ∨
      ∃ value, s'.Quiet fd [] value ∧ s'.replied = s.replied ++ [(raw, value)] := by
  have hs' := hs.step horderly h
  have hreplied := replied_step h
  obtain ⟨hrequests, hresponses, calls, rest, hwork, hzero⟩ := hwork
  cases step_move h with
  | accept hpc => rw [hwork] at hpc; cases hpc
  | receive conn bytes hpc => rw [hwork] at hpc; cases hpc
  | idle => exact .inl ⟨hrequests, hresponses, calls, rest, hwork, hzero⟩
  | hangUp e conn hpc => rw [hwork] at hpc; cases hpc
  | call conn raw' calls' op k answer vars hpc =>
    obtain ⟨rfl, rfl, rfl, rfl⟩ := SocketPc.parsing.inj (hwork.symm.trans hpc)
    cases hsent : sentBytes ⟨op, answer op⟩ with
    | none =>
      refine .inl ⟨hrequests, ?_, _, _, rfl, ?_⟩
      · simp [sent_eq op (answer op), hsent, hresponses]
      · rw [← length_responsesOf, responsesOf_snoc, hsent]
        simpa [length_responsesOf] using hzero
    | some value =>
      refine .inr (.inr ⟨value, ⟨hrequests, ?_, ?_⟩, ?_⟩)
      · simp [sent_eq op (answer op), hsent, hresponses]
      · rintro _ _ _ ⟨⟩
        rw [← length_responsesOf, responsesOf_snoc, hsent, List.length_append,
          length_responsesOf, hzero]
        rfl
      · simpa [sends, hpc, hsent] using hreplied
  | finish conn raw' calls' a hpc =>
    obtain ⟨rfl, rfl, rfl, rfl⟩ := SocketPc.parsing.inj (hwork.symm.trans hpc)
    have hone := hs.replies_pure hpc
    omega
  | retry conn raw' calls' hpc =>
    obtain ⟨rfl, rfl, rfl, rfl⟩ := SocketPc.parsing.inj (hwork.symm.trans hpc)
    exact .inl ⟨hrequests, hresponses, calls, _, rfl, hzero⟩
  | abort => exact .inr (.inl ⟨hrequests, hresponses, nofun⟩)
  | close conn hpc => rw [hwork] at hpc; cases hpc
  | drift => exact .inl ⟨hrequests, hresponses, calls, rest, hwork, hzero⟩

end RapidServer

end Rapid

end RobertMiddleware
