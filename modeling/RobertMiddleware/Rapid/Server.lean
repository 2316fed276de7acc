import Mathlib.Logic.Function.Basic
import RobertMiddleware.Rapid.Replies

/-!
# The controller's end of the connections

`ServerModule.mod`: `SocketServerTask` accepts one connection after the other, and `HandleClient`
receives from it and calls `parse_message` until the connection ends. A connection is named by its
number, in the order in which the connections are made, which is the order in which they are
accepted.

`HandleClient` receives up to 1024 bytes at a time and takes whatever it gets for one request. Its
`ERROR` clause repeats the instruction that failed with `ERR_SOCK_TIMEOUT`, which may be the call of
`parse_message`; every other error ends the connection. The sends of the responses succeed; what the
middleware does not read of them goes nowhere.

`executions` is a record: the requests that `parse_message` has done with, each with the calls that
were made for it.

## Main definitions

* `SocketPc`, `RapidServer` — where the controller stands, and what is on the connections
* `RapidServer.step` — one step of the controller

## Main results

* `RapidServer.step_move` — the kinds of step
-/

namespace RobertMiddleware

namespace Rapid

open Effects

/-- Where the controller stands in `SocketServerTask` and `HandleClient`. -/
inductive SocketPc
  /-- In `SocketAccept`. -/
  | accepting
  /-- In `SocketReceive`. -/
  | receiving (conn : ℕ)
  /-- In `parse_message`, with the calls made so far and what is left of it. -/
  | parsing (conn : ℕ) (raw : Bytes) (calls : Calls) (rest : Routine Unit)
  /-- `HandleClient` has returned; at `SocketClose`. -/
  | closing (conn : ℕ)

/-- A request that was received, and the calls made for it. -/
structure Execution where
  conn : ℕ
  raw : Bytes
  calls : Calls

/-- The bytes of a request, and the connection they came from. -/
def Execution.request (x : Execution) : ℕ × Bytes := (x.conn, x.raw)

namespace SocketPc

/-- The connection that the controller serves. -/
def conn : SocketPc → Option ℕ
  | .accepting => none
  | .receiving conn | .parsing conn .. | .closing conn => some conn

/-- The request in work, with the calls made so far. -/
def current : SocketPc → Option Execution
  | .parsing conn raw calls _ => some ⟨conn, raw, calls⟩
  | _ => none

end SocketPc

structure RapidServer where
  vars : Controller
  pc : SocketPc := .accepting
  /-- Connections accepted so far; the next one has this number. -/
  accepted : ℕ := 0
  /-- What a client has sent and `SocketReceive` has not returned. -/
  requests : ℕ → Bytes := fun _ => []
  /-- What the controller has sent and the client has not received. -/
  responses : ℕ → Bytes := fun _ => []
  executions : List Execution := []

/-- What happens to the controller in one step. -/
inductive RapidEvent
  | accept
  | receive (bytes : Bytes)
  | receiveError (e : Errno)
  /-- The next call of `parse_message` is answered, and leaves `vars`. -/
  | call (answer : (op : RapidOp) → op.Ret) (vars : Controller)
  /-- The next step, where nothing outside decides it. -/
  | advance
  /-- The robot moves, and time passes. -/
  | drift (vars : Controller)

/-- The bytes that a call puts on the connection. -/
def RapidOp.sent : RapidOp → Bytes
  | .sendResponse msg => ascii msg
  | .sendBinaryResponse raw => raw
  | _ => []

instance (c : Controller) : (p : Primitive) → (a : p.Answer) → Decidable (p.Reports c a)
  | .cRobT, a => inferInstanceAs (Decidable (a = c.robTarget))
  | .cJointT, a => inferInstanceAs (Decidable (a = c.jointTarget))
  | .cSpeedOverride, a => inferInstanceAs (Decidable (a = c.speedOverride))
  | .cTime, a => inferInstanceAs (Decidable (a = c.time))
  | .cDate, a => inferInstanceAs (Decidable (a = c.date))
  | .calcJointT _, _ | .calcRobT _, _ | .moveL .., _ | .moveJ .., _ | .moveAbsJ .., _
  | .moveC .., _ | .maxRobSpeed, _ | .clearPath, _ => .isTrue trivial

instance (c : Controller) (p : Primitive) :
    (r : Except Errno p.Answer) → Decidable (∀ a, r = .ok a → p.Reports c a)
  | .ok a => decidable_of_iff (p.Reports c a) (by simp)
  | .error _ => .isTrue nofun

/-- Where the robot ends up after a motion can be seen in the state. -/
instance (c c' : Controller) (p : Primitive) :
    Decidable (∃ t j, c' = if p.moves then { c with robTarget := t, jointTarget := j } else c) :=
  decidable_of_iff
    (c' = if p.moves then
      { c with robTarget := c'.robTarget, jointTarget := c'.jointTarget } else c)
    ⟨fun h => ⟨_, _, h⟩, fun ⟨t, j, h⟩ => by
      split at h <;> rename_i hmoves
      · rw [h, if_pos hmoves]
      · rw [h, if_neg hmoves]⟩

instance : (op : RapidOp) → (c : Controller) → (r : op.Ret) → (c' : Controller) →
    Decidable (rapidSem op c r c')
  | .sendResponse _, c, _, c' | .sendBinaryResponse _, c, _, c' =>
    inferInstanceAs (Decidable (c' = c))
  | .primitive _, _, _, _ => inferInstanceAs (Decidable (_ ∧ _))
  | .moveSpeed, _, _, _ | .moveZone, _, _, _ => inferInstanceAs (Decidable (_ ∧ _))
  | .setMoveSpeed v, c, _, c' => inferInstanceAs (Decidable (c' = { c with moveSpeed := v }))
  | .setMoveZone z, c, _, c' => inferInstanceAs (Decidable (c' = { c with moveZone := z }))

instance (c c' : Controller) : Decidable (c.Drift c') := inferInstanceAs (Decidable (_ ∧ _))

namespace RapidServer

/-- The size of what `SocketReceive` returns, at most. -/
def receiveLimit : ℕ := 1024

/-- One step of the controller, if the event is possible, when `made` connections were made. -/
def step (R : RapidSystem) (errSockTimeout : Errno) (made : ℕ) (s : RapidServer) :
    RapidEvent → Option RapidServer
  | .accept =>
    match s.pc with
    | .accepting =>
      if s.accepted < made then
        some { s with pc := .receiving s.accepted, accepted := s.accepted + 1 }
      else none
    | _ => none
  | .receive bytes =>
    match s.pc with
    | .receiving conn =>
      if 0 < bytes.length ∧ bytes.length ≤ receiveLimit ∧ bytes <+: s.requests conn then
        some { s with
          requests := Function.update s.requests conn ((s.requests conn).drop bytes.length)
          pc := .parsing conn bytes [] (parseMessage R bytes bytes.length) }
      else none
    | _ => none
  | .receiveError e =>
    match s.pc with
    -- without a request `HandleClient` is done, whether its clause ends in `TRYNEXT` or not
    | .receiving conn => some (if e = errSockTimeout then s else { s with pc := .closing conn })
    | _ => none
  | .call answer vars =>
    match s.pc with
    | .parsing conn raw calls (.call op k) =>
      if rapidSem op s.vars (answer op) vars then
        some { s with
          vars
          pc := .parsing conn raw (calls ++ [⟨op, answer op⟩]) (k (answer op))
          responses := Function.update s.responses conn (s.responses conn ++ op.sent) }
      else none
    | _ => none
  | .advance =>
    match s.pc with
    | .parsing conn raw calls (.pure _) =>
      some { s with executions := s.executions ++ [⟨conn, raw, calls⟩], pc := .receiving conn }
    | .parsing conn raw calls (.throw e) =>
      if e = errSockTimeout then
        some { s with pc := .parsing conn raw calls (parseMessage R raw raw.length) }
      else
        some { s with executions := s.executions ++ [⟨conn, raw, calls⟩], pc := .closing conn }
    | .closing _ => some { s with pc := .accepting }
    | _ => none
  | .drift vars => if s.vars.Drift vars then some { s with vars } else none

/-! ### What a step can do -/

/-- The steps, with what they need. -/
inductive Move (R : RapidSystem) (errSockTimeout : Errno) (made : ℕ) (s : RapidServer) :
    RapidEvent → RapidServer → Prop
  | accept (hpc : s.pc = .accepting) (hmade : s.accepted < made) :
      Move R errSockTimeout made s .accept
        { s with pc := .receiving s.accepted, accepted := s.accepted + 1 }
  | receive (conn : ℕ) (bytes : Bytes) (hpc : s.pc = .receiving conn) (hpos : 0 < bytes.length)
      (hfront : bytes <+: s.requests conn) :
      Move R errSockTimeout made s (.receive bytes) { s with
        requests := Function.update s.requests conn ((s.requests conn).drop bytes.length)
        pc := .parsing conn bytes [] (parseMessage R bytes bytes.length) }
  | idle (e : Errno) : Move R errSockTimeout made s (.receiveError e) s
  | hangUp (e : Errno) (conn : ℕ) (hpc : s.pc = .receiving conn) :
      Move R errSockTimeout made s (.receiveError e) { s with pc := .closing conn }
  | call (conn : ℕ) (raw : Bytes) (calls : Calls) (op : RapidOp) (k : op.Ret → Routine Unit)
      (answer : (op : RapidOp) → op.Ret) (vars : Controller)
      (hpc : s.pc = .parsing conn raw calls (.call op k))
      (hsem : rapidSem op s.vars (answer op) vars) :
      Move R errSockTimeout made s (.call answer vars) { s with
        vars
        pc := .parsing conn raw (calls ++ [⟨op, answer op⟩]) (k (answer op))
        responses := Function.update s.responses conn (s.responses conn ++ op.sent) }
  | finish (conn : ℕ) (raw : Bytes) (calls : Calls) (a : Unit)
      (hpc : s.pc = .parsing conn raw calls (.pure a)) :
      Move R errSockTimeout made s .advance
        { s with executions := s.executions ++ [⟨conn, raw, calls⟩], pc := .receiving conn }
  | retry (conn : ℕ) (raw : Bytes) (calls : Calls)
      (hpc : s.pc = .parsing conn raw calls (.throw errSockTimeout)) :
      Move R errSockTimeout made s .advance
        { s with pc := .parsing conn raw calls (parseMessage R raw raw.length) }
  | abort (conn : ℕ) (raw : Bytes) (calls : Calls) (e : Errno)
      (hpc : s.pc = .parsing conn raw calls (.throw e)) :
      Move R errSockTimeout made s .advance
        { s with executions := s.executions ++ [⟨conn, raw, calls⟩], pc := .closing conn }
  | close (conn : ℕ) (hpc : s.pc = .closing conn) :
      Move R errSockTimeout made s .advance { s with pc := .accepting }
  | drift (vars : Controller) (hdrift : s.vars.Drift vars) :
      Move R errSockTimeout made s (.drift vars) { s with vars }

variable {R : RapidSystem} {errSockTimeout : Errno} {made : ℕ} {s s' : RapidServer}
  {ev : RapidEvent}

theorem step_move (h : s.step R errSockTimeout made ev = some s') :
    s.Move R errSockTimeout made ev s' := by
  revert h
  fun_cases step R errSockTimeout made s ev
  all_goals intro h
  all_goals try contradiction
  all_goals obtain rfl := Option.some.inj h
  case case1 hpc hmade => exact .accept hpc hmade
  case case4 bytes conn hpc hbytes => exact .receive conn bytes hpc hbytes.1 hbytes.2.2
  case case7 e conn hpc =>
    split
    · exact .idle e
    · exact .hangUp e conn hpc
  case case9 answer vars conn raw calls op k hpc hsem =>
    exact .call conn raw calls op k answer vars hpc hsem
  case case12 conn raw calls a hpc => exact .finish conn raw calls a hpc
  case case13 conn raw calls hpc => exact .retry conn raw calls hpc
  case case14 conn raw calls e hpc _ => exact .abort conn raw calls e hpc
  case case15 conn hpc => exact .close conn hpc
  case case17 vars hdrift => exact .drift vars hdrift

/-! ### The requests taken up -/

/-- The requests that were received, oldest first, with the one in work. -/
def taken (s : RapidServer) : List Execution := s.executions ++ s.pc.current.toList

/-- What `SocketReceive` has returned. -/
def received (s : RapidServer) : List (ℕ × Bytes) := s.taken.map Execution.request

/-- What the step lets `SocketReceive` return. -/
def receives (s : RapidServer) (ev : RapidEvent) : List (ℕ × Bytes) :=
  match ev, s.pc with
  | .receive bytes, .receiving conn => [(conn, bytes)]
  | _, _ => []

theorem received_step (h : s.step R errSockTimeout made ev = some s') :
    s'.received = s.received ++ s.receives ev := by
  cases step_move h with
  | _ => simp [received, taken, receives, SocketPc.current, Execution.request, *]

theorem requests_step (h : s.step R errSockTimeout made ev = some s') (conn : ℕ) :
    s.requests conn = ((s.receives ev).filter (·.1 = conn)).flatMap Prod.snd ++
      s'.requests conn := by
  cases step_move h with
  | receive conn' bytes hpc _ hfront =>
    obtain ⟨rest, hrest⟩ := hfront
    rcases eq_or_ne conn conn' with rfl | hne
    · simp [receives, hpc, ← hrest]
    · simp [receives, hpc, hne, hne.symm]
  | _ => simp [receives]

/-! ### One connection after the other -/

/-- The connections are served in the order in which they are made. -/
structure ConnsOk (made : ℕ) (s : RapidServer) : Prop where
  made : s.accepted ≤ made
  conn : ∀ conn, s.pc.conn = some conn → conn + 1 = s.accepted
  below : ∀ x ∈ s.received, x.1 < s.accepted
  sorted : (s.received.map Prod.fst).Pairwise (· ≤ ·)

theorem ConnsOk.mono {made' : ℕ} (hs : ConnsOk made s) (hle : made ≤ made') : ConnsOk made' s :=
  ⟨hs.made.trans hle, hs.conn, hs.below, hs.sorted⟩

theorem ConnsOk.step (hs : ConnsOk made s) (h : s.step R errSockTimeout made ev = some s') :
    ConnsOk made s' := by
  have hreceived := received_step h
  cases step_move h with
  | accept hpc hmade =>
    replace hreceived := hreceived.trans (List.append_nil _)
    refine ⟨hmade, fun conn hconn => ?_, ?_, ?_⟩
    · rw [← Option.some.inj hconn]
    · rw [hreceived]
      exact fun x hx => (hs.below x hx).trans (Nat.lt_succ_self _)
    · rw [hreceived]
      exact hs.sorted
  | receive conn bytes hpc =>
    have haccepted := hs.conn conn (by rw [hpc]; rfl)
    simp only [receives, hpc] at hreceived
    refine ⟨hs.made, fun conn' hconn' => ?_, ?_, ?_⟩
    · rw [← Option.some.inj hconn', haccepted]
    · rw [hreceived]
      intro x hx
      rcases List.mem_append.mp hx with hold | hnew
      · exact hs.below x hold
      · rw [List.mem_singleton.mp hnew, ← haccepted]
        exact Nat.lt_succ_self _
    · rw [hreceived, List.map_append, List.pairwise_append]
      refine ⟨hs.sorted, List.pairwise_singleton _ _, fun a ha b hb => ?_⟩
      obtain ⟨x, hx, rfl⟩ := List.mem_map.mp ha
      rw [List.mem_singleton.mp hb]
      have hlt := hs.below x hx
      show x.1 ≤ conn
      omega
  | _ =>
    replace hreceived := hreceived.trans (List.append_nil _)
    refine ⟨hs.made, fun conn' hconn' => hs.conn conn' ?_, ?_, ?_⟩
    · simp_all [SocketPc.conn]
    · rw [hreceived]
      exact hs.below
    · rw [hreceived]
      exact hs.sorted

/-! ### The calls for a request -/

/-- A complete run of `parse_message` on the request, with its result and its calls. -/
def Ran (R : RapidSystem) (raw : Bytes) (res : Except Errno Unit) (tr : Calls) : Prop :=
  ∃ c c', (parseMessage R raw raw.length).Exec rapidSem.traced Between (c, []) res (c', tr)

/-- The calls of some runs, one after the other, all of which have failed with
`ERR_SOCK_TIMEOUT`. -/
def Failures (R : RapidSystem) (errSockTimeout : Errno) (raw : Bytes) (calls : Calls) : Prop :=
  ∃ trs : List Calls, calls = trs.flatten ∧ ∀ tr ∈ trs, Ran R raw (.error errSockTimeout) tr

/-- The calls for a request: those of one run of `parse_message`, after some that have failed with
`ERR_SOCK_TIMEOUT`. -/
def Attempts (R : RapidSystem) (errSockTimeout : Errno) (raw : Bytes) (calls : Calls) : Prop :=
  ∃ failed tr res, calls = failed ++ tr ∧ Failures R errSockTimeout raw failed ∧ Ran R raw res tr

/-- A run on the request has made the calls `tr`, with `rest` left of it. -/
def Running (R : RapidSystem) (raw : Bytes) (rest : Routine Unit) (vars : Controller)
    (tr : Calls) : Prop :=
  ∃ c vars₀, vars₀.Drift vars ∧ ∀ res c' tr',
    rest.Exec rapidSem.traced Between (vars₀, tr) res (c', tr') →
      (parseMessage R raw raw.length).Exec rapidSem.traced Between (c, []) res (c', tr')

/-- What the controller has done for the requests that it took up. -/
structure ExecutedOk (R : RapidSystem) (errSockTimeout : Errno) (s : RapidServer) : Prop where
  executions : ∀ x ∈ s.executions, Attempts R errSockTimeout x.raw x.calls
  current : ∀ conn raw calls rest, s.pc = .parsing conn raw calls rest →
    ∃ failed tr, calls = failed ++ tr ∧ Failures R errSockTimeout raw failed ∧
      Running R raw rest s.vars tr

section Running

variable {raw : Bytes} {tr : Calls} {rest : Routine Unit} {vars vars' : Controller}

theorem running_parseMessage (R : RapidSystem) (raw : Bytes) (vars : Controller) :
    Running R raw (parseMessage R raw raw.length) vars [] :=
  ⟨vars, vars, .refl vars, fun _ _ _ hrun => hrun⟩

theorem Running.pure {a : Unit} (h : Running R raw (.pure a) vars tr) : Ran R raw (.ok a) tr := by
  obtain ⟨c, vars₀, -, hlast⟩ := h
  exact ⟨c, vars₀, hlast _ _ _ (.pure a _)⟩

theorem Running.throw {e : Errno} (h : Running R raw (.throw e) vars tr) :
    Ran R raw (.error e) tr := by
  obtain ⟨c, vars₀, -, hlast⟩ := h
  exact ⟨c, vars₀, hlast _ _ _ (.throw e _)⟩

theorem Running.call {op : RapidOp} {k : op.Ret → Routine Unit} {r : op.Ret}
    (h : Running R raw (.call op k) vars tr) (hsem : rapidSem op vars r vars') :
    Running R raw (k r) vars' (tr ++ [⟨op, r⟩]) := by
  obtain ⟨c, vars₀, hdrift, hlast⟩ := h
  refine ⟨c, vars', .refl vars', fun res c' tr' hrun => ?_⟩
  exact hlast res c' tr' (Prog.exec_call_iff.mpr
    ⟨(vars, tr), r, (vars', tr ++ [⟨op, r⟩]), ⟨hdrift, rfl⟩, ⟨hsem, rfl⟩, hrun⟩)

theorem Running.drift (h : Running R raw rest vars tr) (hdrift : vars.Drift vars') :
    Running R raw rest vars' tr := by
  obtain ⟨c, vars₀, hbefore, hlast⟩ := h
  exact ⟨c, vars₀, ⟨hdrift.1.trans hbefore.1, hdrift.2.trans hbefore.2⟩, hlast⟩

/-- Whatever is left of a run can be done. -/
theorem Running.completes (h : Running R raw rest vars tr) :
    ∃ res ext, (∀ ev ∈ ext, raised ev = none) ∧ Ran R raw res (tr ++ ext) := by
  obtain ⟨c, vars₀, -, hlast⟩ := h
  have hquiet : ∀ op c, raised ⟨op, (rapidStep (fun _ => none) op c).1⟩ = none := by
    intro op c
    cases op <;> rfl
  exact ⟨_, _, Prog.forall_play (C := fun ev => raised ev = none) hquiet rest vars₀,
    c, _, hlast _ _ _ (Prog.exec_play (rapidSem_rapidStep _) (fun s => ⟨.refl s.1, rfl⟩) rest vars₀
      tr)⟩

end Running

theorem Failures.snoc {raw : Bytes} {calls tr : Calls}
    (h : Failures R errSockTimeout raw calls) (htr : Ran R raw (.error errSockTimeout) tr) :
    Failures R errSockTimeout raw (calls ++ tr) := by
  obtain ⟨trs, rfl, hran⟩ := h
  refine ⟨trs ++ [tr], by simp, fun tr' htr' => ?_⟩
  rcases List.mem_append.mp htr' with hold | hnew
  · exact hran tr' hold
  · rwa [List.mem_singleton.mp hnew]

/-- One more request is done with. -/
theorem ExecutedOk.done (hs : ExecutedOk R errSockTimeout s) {conn : ℕ} {raw : Bytes}
    {calls : Calls} {rest : Routine Unit} (hpc : s.pc = .parsing conn raw calls rest)
    (hend : ∀ tr, Running R raw rest s.vars tr → ∃ res, Ran R raw res tr) :
    ∀ x ∈ s.executions ++ [⟨conn, raw, calls⟩], Attempts R errSockTimeout x.raw x.calls := by
  intro x hx
  rcases List.mem_append.mp hx with hold | hnew
  · exact hs.executions x hold
  · obtain ⟨failed, tr, hcalls, hfailed, hrunning⟩ := hs.current conn raw calls rest hpc
    obtain ⟨res, hran⟩ := hend tr hrunning
    rw [List.mem_singleton.mp hnew]
    exact ⟨failed, tr, res, hcalls, hfailed, hran⟩

/-- **The steps of the controller are executions of `parse_message`.** -/
theorem ExecutedOk.step (hs : ExecutedOk R errSockTimeout s)
    (h : s.step R errSockTimeout made ev = some s') : ExecutedOk R errSockTimeout s' := by
  cases step_move h with
  | accept => exact ⟨hs.executions, nofun⟩
  | receive conn bytes =>
    refine ⟨hs.executions, ?_⟩
    rintro _ _ _ _ ⟨⟩
    exact ⟨[], [], rfl, ⟨[], rfl, nofun⟩, running_parseMessage R bytes s.vars⟩
  | idle => exact hs
  | hangUp => exact ⟨hs.executions, nofun⟩
  | call conn raw calls op k answer vars hpc hsem =>
    obtain ⟨failed, tr, rfl, hfailed, hrunning⟩ := hs.current conn raw calls _ hpc
    refine ⟨hs.executions, ?_⟩
    rintro _ _ _ _ ⟨⟩
    exact ⟨failed, _, List.append_assoc .., hfailed, hrunning.call hsem⟩
  | finish conn raw calls a hpc => exact ⟨hs.done hpc fun _ hrun => ⟨_, hrun.pure⟩, nofun⟩
  | retry conn raw calls hpc =>
    obtain ⟨failed, tr, rfl, hfailed, hrunning⟩ := hs.current conn raw calls _ hpc
    refine ⟨hs.executions, ?_⟩
    rintro _ _ _ _ ⟨⟩
    exact ⟨_, [], (List.append_nil _).symm, hfailed.snoc hrunning.throw,
      running_parseMessage R raw s.vars⟩
  | abort conn raw calls e hpc => exact ⟨hs.done hpc fun _ hrun => ⟨_, hrun.throw⟩, nofun⟩
  | close => exact ⟨hs.executions, nofun⟩
  | drift vars hdrift =>
    refine ⟨hs.executions, fun conn raw calls rest hpc => ?_⟩
    obtain ⟨failed, tr, hcalls, hfailed, hrunning⟩ := hs.current conn raw calls rest hpc
    exact ⟨failed, tr, hcalls, hfailed, hrunning.drift hdrift⟩

end RapidServer

end Rapid

end RobertMiddleware
