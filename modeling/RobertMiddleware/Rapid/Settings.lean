import RobertMiddleware.Internal.Transition
import RobertMiddleware.Rapid.Verdict

/-!
# The speed and the zone in effect

`move_speed` and `move_zone` outlive a request. A motion instruction reads both of them before it is
issued, and so does `HandleGetState` before it packs them. Only `SetSpeed` and `SetZone` write them.
So over any run of the controller, every motion and every status report has the speed and the zone
that were set last before it, whatever has failed in between and however often the client has come
back.

## Main definitions

* `Controller.settings` — the speed and the zone
* `settingsAfter` — what the assignments among some calls make of them
* `RapidOp.Uses` — a call has the speed and the zone in its operands
* `RapidServer.record` — all calls so far

## Main results

* `reads_parseMessage` — the operands are what was read
* `request_verdict` — what comes of a request, and with which settings
* `RapidServer.SettingsOk.step` — what was read is what is in effect
-/

namespace RobertMiddleware

namespace Rapid

open Effects

/-! ### Settings -/

/-- `move_speed.v_tcp` and `move_zone`. -/
def Controller.settings (c : Controller) : Single × Zone := (c.moveSpeed, c.moveZone)

/-- What an assignment makes of the settings. -/
def RapidOp.write (settings : Single × Zone) : RapidOp → Single × Zone
  | .setMoveSpeed v => (v, settings.2)
  | .setMoveZone zone => (settings.1, zone)
  | _ => settings

/-- The settings after the assignments among these calls. -/
def settingsAfter (settings : Single × Zone) (tr : Calls) : Single × Zone :=
  tr.foldl (fun settings ev => ev.1.write settings) settings

/-- A motion with these settings, or a status that reports them. -/
def RapidOp.Uses (settings : Single × Zone) : RapidOp → Prop
  | .primitive (.moveL _ speed zone) | .primitive (.moveJ _ speed zone)
  | .primitive (.moveAbsJ _ speed zone) | .primitive (.moveC _ _ speed zone) =>
    (speed, zone) = settings
  | .sendBinaryResponse raw => ∃ c : Controller, c.settings = settings ∧ raw = telemetryBuffer c
  | _ => True

theorem settings_of_sem {op : RapidOp} {c c' : Controller} {r : op.Ret} (h : rapidSem op c r c') :
    c'.settings = op.write c.settings := by
  cases op with
  | primitive p =>
    obtain ⟨-, t, j, rfl⟩ := h
    split <;> rfl
  | moveSpeed | moveZone =>
    obtain ⟨-, rfl⟩ := h
    rfl
  | _ =>
    obtain rfl := h
    rfl

theorem Controller.Drift.settings {c c' : Controller} (h : c.Drift c') :
    c'.settings = c.settings := Prod.ext h.1 h.2

/-! ### What was read -/

/-- What is known of the settings. -/
structure Known where
  speed : Option Single := none
  zone : Option Zone := none

namespace Known

/-- What is known after a call. -/
def note (g : Known) : (op : RapidOp) → op.Ret → Known
  | .moveSpeed, v => { g with speed := some v }
  | .moveZone, z => { g with zone := some z }
  | .setMoveSpeed _, _ => { g with speed := none }
  | .setMoveZone _, _ => { g with zone := none }
  | _, _ => g

/-- The settings may be these. -/
def Allows (g : Known) (settings : Single × Zone) : Prop :=
  (∀ v, g.speed = some v → v = settings.1) ∧ ∀ z, g.zone = some z → z = settings.2

/-- What is known is enough for the operands of the call. -/
def Suffices (g : Known) (op : RapidOp) : Prop := ∀ settings, g.Allows settings → op.Uses settings

theorem allows_of_sem {g : Known} {op : RapidOp} {c c' : Controller} {r : op.Ret}
    (hg : g.Allows c.settings) (h : rapidSem op c r c') : (g.note op r).Allows c'.settings := by
  have hwrite := settings_of_sem h
  cases op with
  | moveSpeed =>
    obtain ⟨rfl, rfl⟩ := h
    exact ⟨fun v hv => (Option.some.inj hv).symm, hg.2⟩
  | moveZone =>
    obtain ⟨rfl, rfl⟩ := h
    exact ⟨hg.1, fun z hz => (Option.some.inj hz).symm⟩
  | setMoveSpeed v =>
    rw [hwrite]
    exact ⟨nofun, hg.2⟩
  | setMoveZone z =>
    rw [hwrite]
    exact ⟨hg.1, nofun⟩
  | _ =>
    rw [hwrite]
    exact hg

end Known

/-- The routine has no operands but those it has read. -/
def Reads {α : Type} (p : Routine α) : Prop := ∀ g, p.Follows Known.note Known.Suffices g

/-- The call has no settings in its operands. -/
def RapidOp.Free (op : RapidOp) : Prop := ∀ settings, op.Uses settings

theorem RapidOp.Passive.free {op : RapidOp} (h : op.Passive) : op.Free := by
  intro settings
  cases op with
  | primitive p => cases p <;> trivial
  | sendBinaryResponse raw => exact h.elim
  | _ => trivial

section Routines

variable {α β : Type} {R : RapidSystem}

theorem reads_of_calls {p : Routine α} (h : p.Calls RapidOp.Free) : Reads p :=
  h.follows fun _ _ hop settings _ => hop settings

theorem reads_of_passive {p : Routine α} (h : p.Calls RapidOp.Passive) : Reads p :=
  h.follows fun _ _ hop settings _ => hop.free settings

theorem Reads.bind {p : Routine α} {f : α → Routine β} (hp : Reads p) (hf : ∀ a, Reads (f a)) :
    Reads (p.bind f) := fun g => (hp g).bind hf

theorem reads_sendResponse (msg : String) : Reads (sendResponse msg) :=
  reads_of_calls (calls_perform (show RapidOp.Free (.sendResponse msg) from fun _ => trivial))

/-- The settings are read, and used in the next call. -/
theorem reads_settings {f : Single → Zone → RapidOp}
    (hop : ∀ v z, (f v z).Uses (v, z)) {k : ∀ v z, (f v z).Ret → Routine α}
    (hk : ∀ v z r, Reads (k v z r)) :
    Reads (.call (S := RapidCalls) .moveSpeed fun v => .call (S := RapidCalls) .moveZone fun z =>
      .call (S := RapidCalls) (f v z) (k v z)) := by
  intro g
  refine ⟨fun _ _ => trivial, fun v => ⟨fun _ _ => trivial, fun z => ⟨?_, fun r => hk v z r _⟩⟩⟩
  rintro ⟨speed, zone⟩ ⟨hspeed, hzone⟩
  obtain rfl : v = speed := hspeed v rfl
  obtain rfl : z = zone := hzone z rfl
  exact hop v z

theorem reads_orRaise (r : Except Errno α) : Reads (orRaise r) := fun _ =>
  match r with
  | .ok _ => trivial
  | .error _ => trivial

theorem reads_moveL (t : RobTarget) : Reads (moveL t) :=
  reads_settings (f := fun v z => .primitive (.moveL t v z)) (fun _ _ => rfl)
    fun _ _ r => reads_orRaise r

theorem reads_moveJ (t : RobTarget) : Reads (moveJ t) :=
  reads_settings (f := fun v z => .primitive (.moveJ t v z)) (fun _ _ => rfl)
    fun _ _ r => reads_orRaise r

theorem reads_moveAbsJ (j : JointTarget) : Reads (moveAbsJ j) :=
  reads_settings (f := fun v z => .primitive (.moveAbsJ j v z)) (fun _ _ => rfl)
    fun _ _ r => reads_orRaise r

theorem reads_moveC (t2 t : RobTarget) : Reads (moveC t2 t) :=
  reads_settings (f := fun v z => .primitive (.moveC t2 t v z)) (fun _ _ => rfl)
    fun _ _ r => reads_orRaise r

theorem reads_guardedMove {check : Routine Bool} {move : Routine Unit} (ack : String)
    (hcheck : check.Calls RapidOp.Passive) (hmove : Reads move) :
    Reads (guardedMove check move ack) := by
  refine (reads_of_passive hcheck).bind fun safe => ?_
  split
  · exact hmove.bind fun _ => reads_sendResponse ack
  · exact reads_sendResponse _

theorem reads_offsetTarget (t : RobTarget) : Reads (offsetTarget R t) :=
  reads_of_passive ((calls_attempt (by rfl)).bind fun _ => trivial)

/-- Write a variable, and acknowledge. -/
theorem reads_assign {op : RapidOp} (hop : op.Free) (ack : String) :
    Reads ((Prog.perform (S := RapidCalls) op).bind fun _ => sendResponse ack) :=
  (reads_of_calls (calls_perform hop)).bind fun _ => reads_sendResponse ack

theorem reads_setSpeed (speed : ℕ) : Reads (setSpeed speed) := by
  refine (reads_of_passive (passive_speedOutOfRange speed)).bind fun outOfRange => ?_
  split
  · exact (reads_of_passive (calls_attempt (by rfl))).bind fun _ => reads_sendResponse _
  · exact reads_assign (show RapidOp.Free (.setMoveSpeed _) from fun _ => trivial) _

theorem reads_handleGetState : Reads handleGetState :=
  (reads_of_passive (calls_attempt (by rfl))).bind fun _ =>
    (reads_of_passive (calls_attempt (by rfl))).bind fun _ =>
    (reads_of_passive (calls_attempt (by rfl))).bind fun _ =>
    (reads_of_passive (calls_attempt (by rfl))).bind fun _ =>
    (reads_of_passive (calls_attempt (by rfl))).bind fun _ =>
    reads_settings (f := fun v z => .sendBinaryResponse _) (fun _ _ => ⟨_, rfl, rfl⟩)
      fun _ _ _ _ => trivial

theorem reads_performAction (args : ActionArgs) : Reads (performAction R args) := by
  fun_cases performAction R args
  case case3 t _ => exact reads_guardedMove _ (passive_isSafeTarget _ _) (reads_moveL t)
  case case5 t _ => exact reads_guardedMove _ (passive_isSafeTarget _ _) (reads_moveJ t)
  case case7 j _ => exact reads_guardedMove _ (passive_isSafeTarget _ _) (reads_moveAbsJ j)
  case case9 t t2 _ _ => exact reads_guardedMove _ (passive_areSafeTargets t t2) (reads_moveC t2 t)
  case case11 speed _ => exact reads_setSpeed speed
  case case13 zone _ => 
    exact reads_assign (show RapidOp.Free (.setMoveZone zone) from fun _ => trivial) _
  case case14 => exact fun _ => trivial
  case case15 => exact (reads_moveAbsJ zeroTarget).bind fun _ => reads_sendResponse _
  case case16 => exact reads_handleGetState
  case case17 t _ =>
    exact (reads_offsetTarget t).bind fun temp =>
      reads_guardedMove _ (passive_isSafeTarget _ _) (reads_moveL temp)
  case case19 t _ =>
    exact (reads_offsetTarget t).bind fun temp =>
      reads_guardedMove _ (passive_isSafeTarget _ _) (reads_moveJ temp)
  all_goals exact reads_sendResponse _

theorem reads_actionError (errno : Errno) : Reads (actionError R errno) := by
  have hresponse : Reads (errorResponse errno) :=
    (reads_of_passive (calls_attempt (by rfl))).bind fun _ => reads_sendResponse _
  refine Reads.bind ?_ fun _ => hresponse
  rw [limitResponse]
  split
  · exact reads_sendResponse _
  · exact fun _ => trivial

theorem reads_executeAction (args : ActionArgs) : Reads (executeAction R args) := fun g =>
  Prog.Follows.tryCatch (((reads_of_passive (calls_attempt (by rfl))).bind fun _ =>
    reads_performAction args) g) fun e => reads_actionError e

/-- **The operands are what was read.** -/
theorem reads_parseMessage (raw : Bytes) : Reads (parseMessage R raw raw.length) := by
  by_cases hlen : 4 ≤ raw.length
  · rcases passes_or_throws hlen with ⟨args, hpasses⟩ | ⟨e, hthrows⟩
    · rw [parseMessage, hpasses]
      exact reads_executeAction args
    · rw [parseMessage, hthrows]
      exact fun _ => trivial
  · rw [parseMessage, parseMessageWith, if_pos (by omega)]
    exact fun _ => trivial

end Routines

/-! ### One request -/

/-- A call without effect writes no variable; an effect is the call. -/
theorem effect?_cases (ev : Event RapidCalls) :
    effect? ev = some ev.1 ∨ effect? ev = none ∧ ∀ settings, ev.1.write settings = settings := by
  obtain ⟨op, r⟩ := ev
  cases op with
  | primitive p =>
    cases r with
    | error e => exact .inr ⟨rfl, fun _ => rfl⟩
    | ok a =>
      by_cases hmoves : p.moves = true
      · exact .inl (if_pos hmoves)
      · exact .inr ⟨if_neg hmoves, fun _ => rfl⟩
  | setMoveSpeed | setMoveZone => exact .inl rfl
  | _ => exact .inr ⟨rfl, fun _ => rfl⟩

theorem settingsAfter_eq_foldl (settings : Single × Zone) (tr : Calls) :
    settingsAfter settings tr = (effects tr).foldl RapidOp.write settings := by
  induction tr generalizing settings with
  | nil => rfl
  | cons ev tr ih =>
    rw [settingsAfter, List.foldl_cons, ← settingsAfter, ih, effects, effects]
    rcases effect?_cases ev with heffect | ⟨heffect, hwrite⟩
    · rw [List.filterMap_cons_some heffect, List.foldl_cons]
    · rw [List.filterMap_cons_none heffect, hwrite]

theorem settings_of_exec {α : Type} {p : Routine α} {a b : Controller × Calls}
    {res : Except Errno α} (hrun : p.Exec rapidSem.traced Between a res b) :
    ∃ es, b.2 = a.2 ++ es ∧ b.1.settings = settingsAfter a.1.settings es := by
  induction hrun with
  | pure a s => exact ⟨[], (List.append_nil _).symm, rfl⟩
  | throw e s => exact ⟨[], (List.append_nil _).symm, rfl⟩
  | @call op k s s₁ s₂ s' r res hrest hcall _ ih =>
    obtain ⟨es, hrecord, hsettings⟩ := ih
    refine ⟨⟨op, r⟩ :: es, ?_, ?_⟩
    · rw [hrecord, hcall.2, hrest.2, List.append_assoc]
      rfl
    · rw [hsettings, settings_of_sem hcall.1, hrest.1.settings]
      rfl

/-- **An answer says what was done.** For every request, every state of the controller and every
answer of the system to a motion or a function, with a client that stays connected so that the sends
succeed: either `ExecuteAction` has carried out what the request asks for, has written no variable
besides, and has then acknowledged it or sent the status, as its last call and only answer; or no
motion came to its end, the settings are as they were, and all answers are refusals. -/
theorem request_verdict {R : RapidSystem} {raw : Bytes} {c c' : Controller}
    {res : Except Errno Unit} {tr : Calls}
    (hrun : (parseMessage R raw raw.length).Exec rapidSem.traced Between (c, []) res (c', tr)) :
    ((∃ args, Passes R raw args ∧ Done R args tr) ∨ Refusal tr ∧ c'.settings = c.settings) ∧
      c'.settings = (effects tr).foldl RapidOp.write c.settings := by
  have hjudged : Judged R raw tr := RapidServer.Ran.judged ⟨c, c', hrun⟩
  obtain ⟨es, hrecord, hsettings⟩ := settings_of_exec hrun
  obtain rfl : tr = es := hrecord
  rw [settingsAfter_eq_foldl] at hsettings
  refine ⟨hjudged.imp_right fun hrefusal => ⟨hrefusal, ?_⟩, hsettings⟩
  rw [hsettings, hrefusal.effects]
  rfl

/-- A motion that hits the kinematic limit is refused, twice. -/
theorem request_verdict_limit :
    (responsesOf (benchRun limitOnMotion (plainRequest .zero)).2.2).length = 2 ∧
      (benchRun limitOnMotion (plainRequest .zero)).2.1.settings = (.ofNat 100, .fine) ∧
      (benchRun limitOnMotion (plainRequest .zero)).2.1.settings =
        (effects (benchRun limitOnMotion (plainRequest .zero)).2.2).foldl RapidOp.write
          Controller.bench.settings :=
  ⟨by decide +kernel, by decide +kernel,
    (request_verdict (exec_benchRun limitOnMotion (plainRequest .zero))).2⟩

/-! ### The settings of the controller -/

namespace RapidServer

/-- All calls so far. -/
def record (s : RapidServer) : Calls := s.taken.flatMap Execution.calls

/-- The call that the step makes. -/
def makes (s : RapidServer) (ev : RapidEvent) : Calls :=
  match ev, s.pc with
  | .call answer _, .parsing _ _ _ (.call op _) => [⟨op, answer op⟩]
  | _, _ => []

variable {R : RapidSystem} {errSockTimeout : Errno} {made : ℕ} {s s' : RapidServer}
  {ev : RapidEvent} {settings : Single × Zone}

theorem record_step (h : s.step R errSockTimeout made ev = some s') :
    s'.record = s.record ++ s.makes ev := by
  cases step_move h with
  | _ => simp [record, taken, makes, SocketPc.current, *]

/-- The settings are those that were set last, all calls have used what was set before them, and the
run in work has read no others. -/
structure SettingsOk (settings : Single × Zone) (s : RapidServer) : Prop where
  vars : s.vars.settings = settingsAfter settings s.record
  used : Transition.EachEntry (fun pre ev => RapidOp.Uses (settingsAfter settings pre) ev.1)
    s.record
  current : ∀ conn raw calls rest, s.pc = .parsing conn raw calls rest →
    ∃ g : Known, g.Allows s.vars.settings ∧ rest.Follows Known.note Known.Suffices g

theorem settingsOk_initial (vars : Controller) : SettingsOk vars.settings { vars } :=
  ⟨rfl, Transition.eachEntry_nil _, nofun⟩

theorem SettingsOk.congr (hs : s.SettingsOk settings) (hvars : s'.vars.settings = s.vars.settings)
    (hrecord : s'.record = s.record)
    (hcurrent : ∀ conn raw calls rest, s'.pc = .parsing conn raw calls rest →
      s.pc = s'.pc ∨ ∃ g : Known, g.Allows s.vars.settings ∧
        rest.Follows Known.note Known.Suffices g) : s'.SettingsOk settings := by
  refine ⟨by rw [hvars, hrecord, hs.vars], hrecord ▸ hs.used, fun conn raw calls rest hpc => ?_⟩
  rw [hvars]
  rcases hcurrent conn raw calls rest hpc with hsame | hnew
  · exact hs.current conn raw calls rest (hsame.trans hpc)
  · exact hnew

/-- **Step lemma.** -/
theorem SettingsOk.step (hs : s.SettingsOk settings)
    (h : s.step R errSockTimeout made ev = some s') : s'.SettingsOk settings := by
  have hrecord := record_step h
  -- a run that begins knows nothing
  have hbegin : ∀ raw : Bytes, ∃ g : Known, g.Allows s.vars.settings ∧
      (parseMessage R raw raw.length).Follows Known.note Known.Suffices g :=
    fun raw => ⟨{}, ⟨nofun, nofun⟩, reads_parseMessage raw _⟩
  cases step_move h with
  | call conn raw calls op k answer vars hpc hsem =>
    obtain ⟨g, hallows, hnow, hrest⟩ := hs.current conn raw calls _ hpc
    have hnew : s.makes (.call answer vars) = [⟨op, answer op⟩] := by simp [makes, hpc]
    rw [hnew] at hrecord
    refine ⟨?_, ?_, ?_⟩
    · rw [hrecord, settingsAfter, List.foldl_append]
      exact (settings_of_sem hsem).trans (congrArg op.write hs.vars)
    · rw [hrecord]
      exact hs.used.snoc (hs.vars ▸ hnow _ hallows)
    · rintro conn' raw' calls' rest' hpc'
      obtain ⟨-, -, -, rfl⟩ := SocketPc.parsing.inj hpc'
      exact ⟨_, Known.allows_of_sem hallows hsem, hrest _⟩
  | drift vars hdrift =>
    exact hs.congr hdrift.settings rfl fun _ _ _ _ _ => .inl rfl
  | receive conn bytes hpc =>
    refine hs.congr rfl (by simpa [makes, hpc] using hrecord) fun conn' raw calls rest hpc' => ?_
    obtain ⟨-, rfl, -, rfl⟩ := SocketPc.parsing.inj hpc'
    exact .inr (hbegin bytes)
  | retry conn raw calls hpc =>
    refine hs.congr rfl (by simpa [makes, hpc] using hrecord) fun conn' raw' calls' rest hpc' => ?_
    obtain ⟨-, rfl, -, rfl⟩ := SocketPc.parsing.inj hpc'
    exact .inr (hbegin raw)
  | idle => exact hs
  | _ =>
    refine hs.congr rfl (by simp [makes, *]) fun conn' raw' calls' rest hpc' => ?_
    cases hpc'

end RapidServer

end Rapid

end RobertMiddleware
