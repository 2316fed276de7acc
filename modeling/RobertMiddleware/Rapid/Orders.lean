import RobertMiddleware.Rapid.Settings

/-!
# Only what was asked for

`ExecuteAction` issues a motion, or writes a setting, only when the request it was called for asks
for that motion or that setting, and only then. This is so at every moment of a run: of a motion
that is still under way or has failed as well, and of a run that is repeated.

## Main definitions

* `RapidOp.acts` — the call issues a motion or writes a setting
* `AskedBy` — the request asks for the call

## Main results

* `follows_parseMessage` — every call that acts is asked for
* `RapidServer.ObeysOk.step` — along every run of the controller
-/

namespace RobertMiddleware

namespace Rapid

open Effects

/-! ### Calls that act -/

/-- The call issues a motion or writes a setting. -/
def RapidOp.acts : RapidOp → Bool
  | .primitive p => p.moves
  | .setMoveSpeed _ | .setMoveZone _ => true
  | _ => false

/-- The call is noted, with its answer. -/
def noteCall (tr : Calls) (op : RapidOp) (r : op.Ret) : Calls := tr ++ [⟨op, r⟩]

/-- The action asks for the call, if it acts. -/
def Obeys (R : RapidSystem) (args : ActionArgs) (tr : Calls) (op : RapidOp) : Prop :=
  op.acts = true → Asked R args tr [op]

/-- The request asks for the call. -/
def AskedBy (R : RapidSystem) (raw : Bytes) (tr : Calls) (op : RapidOp) : Prop :=
  ∃ args, Passes R raw args ∧ Asked R args tr [op]

theorem RapidOp.Passive.acts {op : RapidOp} (h : op.Passive) : op.acts = false := by
  cases op with
  | primitive p => exact h
  | moveSpeed | moveZone => rfl
  | _ => exact h.elim

theorem subset_noteCall {tr tr' : Calls} (op : RapidOp) (r : op.Ret) (h : tr ⊆ tr') :
    tr ⊆ noteCall tr' op r := fun _ hev => List.mem_append_left _ (h hev)

section Actions

variable {R : RapidSystem} {args : ActionArgs} {tr : Calls} {α : Type}

theorem follows_of_idle {p : Routine α} (h : p.Calls fun op : RapidOp => op.acts = false) :
    p.Follows noteCall (Obeys R args) tr :=
  h.follows (fun _ op (hop : op.acts = false) hacts => by rw [hop] at hacts; cases hacts) tr

theorem follows_of_passive {p : Routine α} (h : p.Calls RapidOp.Passive) :
    p.Follows noteCall (Obeys R args) tr :=
  follows_of_idle (h.mono fun _ => RapidOp.Passive.acts)

theorem follows_response (msg : String) :
    (sendResponse msg).Follows noteCall (Obeys R args) tr :=
  follows_of_idle (calls_perform (C := fun op => op.acts = false) rfl)

/-- The four motion instructions. -/
theorem follows_motion {p : Single → Zone → Primitive} (hmotion : Motion R args tr p)
    {k : ∀ v z, Except Errno (p v z).Answer → Routine Unit}
    (hk : ∀ v z r g, (k v z r).Follows noteCall (Obeys R args) g) :
    Prog.Follows noteCall (Obeys R args) tr
      (.call (S := RapidCalls) .moveSpeed fun v => .call (S := RapidCalls) .moveZone fun z =>
        .call (S := RapidCalls) (.primitive (p v z)) (k v z)) := by
  refine ⟨nofun, fun v => ⟨nofun, fun z => ⟨fun _ => ?_, fun r => hk v z r _⟩⟩⟩
  have hspeed : ⟨.moveSpeed, v⟩ ∈ noteCall tr .moveSpeed v :=
    List.mem_append_right _ (List.mem_singleton_self _)
  refine .motion p v z (hmotion.mono ?_) (List.mem_append_left _ hspeed)
    (List.mem_append_right _ (List.mem_singleton_self _))
  exact subset_noteCall _ _ (subset_noteCall _ _ fun _ => id)

theorem follows_orRaise (r : Except Errno α) : (orRaise r).Follows noteCall (Obeys R args) tr :=
  match r with
  | .ok _ => trivial
  | .error _ => trivial

theorem follows_moveL {t : RobTarget} (h : Motion R args tr (.moveL t)) :
    (moveL t).Follows noteCall (Obeys R args) tr :=
  follows_motion h fun _ _ r _ => follows_orRaise r

theorem follows_moveJ {t : RobTarget} (h : Motion R args tr (.moveJ t)) :
    (moveJ t).Follows noteCall (Obeys R args) tr :=
  follows_motion h fun _ _ r _ => follows_orRaise r

theorem follows_moveAbsJ {j : JointTarget} (h : Motion R args tr (.moveAbsJ j)) :
    (moveAbsJ j).Follows noteCall (Obeys R args) tr :=
  follows_motion h fun _ _ r _ => follows_orRaise r

theorem follows_moveC {t2 t : RobTarget} (h : Motion R args tr (.moveC t2 t)) :
    (moveC t2 t).Follows noteCall (Obeys R args) tr :=
  follows_motion h fun _ _ r _ => follows_orRaise r

/-- Check, move and acknowledge, or refuse. -/
theorem follows_guardedMove {check : Routine Bool} {move : Routine Unit} (ack : String)
    {p : Single → Zone → Primitive} (hcheck : check.Calls RapidOp.Passive)
    (hmotion : Motion R args tr p)
    (hmove : ∀ g, Motion R args g p → move.Follows noteCall (Obeys R args) g) :
    (guardedMove check move ack).Follows noteCall (Obeys R args) tr := by
  have hsafe : check.Follows noteCall (Obeys R args) tr := follows_of_passive hcheck
  refine hsafe.bind_of (I := fun g => tr ⊆ g) (fun _ op r hg => subset_noteCall op r hg)
    (List.Subset.refl tr) fun safe g hg => ?_
  split
  · exact (hmove g (hmotion.mono hg)).bind fun _ _ => follows_response ack
  · exact follows_response _

/-- A motion to the displaced position. -/
theorem follows_offsetMove {d : RobTarget} {move : RobTarget → Routine Unit} (ack : String)
    {p : RobTarget → Single → Zone → Primitive}
    (hmotion : ∀ g current, (∃ ev ∈ g, reported ev = some current) →
      Motion R args g (p (R.offs current d.trans.x d.trans.y d.trans.z)))
    (hmove : ∀ t g, Motion R args g (p t) → (move t).Follows noteCall (Obeys R args) g) :
    ((offsetTarget R d).bind fun temp =>
      guardedMove (isSafeTarget (some temp) none) (move temp) ack).Follows noteCall
        (Obeys R args) tr := by
  refine ⟨nofun, fun r => ?_⟩
  cases r with
  | error e => trivial
  | ok current =>
    refine follows_guardedMove ack (passive_isSafeTarget _ _) (hmotion _ current ?_) (hmove _)
    exact ⟨_, List.mem_append_right _ (List.mem_singleton_self _), rfl⟩

/-- Write a variable, and acknowledge. -/
theorem follows_assign {op : RapidOp} (hasked : Asked R args tr [op]) (ack : String) :
    ((Prog.perform (S := RapidCalls) op).bind fun _ => sendResponse ack).Follows noteCall
      (Obeys R args) tr := ⟨fun _ => hasked, fun _ => follows_response ack⟩

theorem follows_setSpeed {speed : ℕ} (hcmd : args.actionCmd = "SetSpeed")
    (hspeed : args.speed = some speed) :
    (setSpeed speed).Follows noteCall (Obeys R args) tr := by
  refine (follows_of_passive (passive_speedOutOfRange speed)).bind fun outOfRange g => ?_
  split
  · exact (follows_of_passive (calls_attempt (by rfl))).bind fun _ _ => follows_response _
  · exact follows_assign (.speed speed hcmd hspeed) _

theorem follows_handleGetState : handleGetState.Follows noteCall (Obeys R args) tr := by
  refine follows_of_idle ?_
  refine (calls_attempt (by rfl)).bind fun _ => (calls_attempt (by rfl)).bind fun _ =>
    (calls_attempt (by rfl)).bind fun _ => (calls_attempt (by rfl)).bind fun _ =>
    (calls_attempt (by rfl)).bind fun _ => ?_
  exact ⟨rfl, fun v => ⟨rfl, fun z => ⟨rfl, fun _ => trivial⟩⟩⟩

/-- **The commands.** What a command does, it is asked for. -/
theorem follows_performAction : (performAction R args).Follows noteCall (Obeys R args) tr := by
  fun_cases performAction R args
  case case3 hcmd t ht =>
    exact follows_guardedMove _ (passive_isSafeTarget _ _) (.moveL t hcmd ht)
      fun _ => follows_moveL
  case case5 hcmd t ht =>
    exact follows_guardedMove _ (passive_isSafeTarget _ _) (.moveJ t hcmd ht)
      fun _ => follows_moveJ
  case case7 hcmd j hj =>
    exact follows_guardedMove _ (passive_isSafeTarget _ _) (.moveAbsJ j hcmd hj)
      fun _ => follows_moveAbsJ
  case case9 hcmd t t2 ht2 ht =>
    exact follows_guardedMove _ (passive_areSafeTargets t t2) (.moveC t t2 hcmd ht ht2)
      fun _ => follows_moveC
  case case11 hcmd speed hspeed => exact follows_setSpeed hcmd hspeed
  case case13 hcmd zone hzone => exact follows_assign (.zone zone hcmd hzone) _
  case case14 => trivial
  case case15 hcmd =>
    exact (follows_moveAbsJ (.zero hcmd)).bind fun _ _ => follows_response _
  case case16 => exact follows_handleGetState
  case case17 hcmd d hd =>
    exact follows_offsetMove _ (p := Primitive.moveL)
      (fun _ current hcurrent => .moveLOffs d current hcmd hd hcurrent) fun _ _ => follows_moveL
  case case19 hcmd d hd =>
    exact follows_offsetMove _ (p := Primitive.moveJ)
      (fun _ current hcurrent => .moveJOffs d current hcmd hd hcurrent) fun _ _ => follows_moveJ
  all_goals exact follows_response _

theorem idle_actionError (errno : Errno) :
    (actionError R errno).Calls fun op : RapidOp => op.acts = false := by
  have hresponse : (errorResponse errno).Calls fun op : RapidOp => op.acts = false :=
    (calls_attempt (by rfl)).bind fun _ => calls_perform (by rfl)
  refine Prog.Calls.bind ?_ fun _ => hresponse
  rw [limitResponse]
  split
  · exact calls_perform (by rfl)
  · trivial

theorem follows_executeAction : (executeAction R args).Follows noteCall (Obeys R args) tr :=
  Prog.Follows.tryCatch ((follows_of_passive (calls_attempt (by rfl))).bind fun _ _ =>
    follows_performAction) fun e _ => follows_of_idle (idle_actionError e)

end Actions

/-! ### Every request -/

section Requests

variable {R : RapidSystem} {raw : Bytes}

/-- **Every call that acts is asked for by the request.** -/
theorem follows_parseMessage (tr : Calls) :
    (parseMessage R raw raw.length).Follows noteCall
      (fun tr (op : RapidOp) => op.acts = true → AskedBy R raw tr op) tr := by
  by_cases hlen : 4 ≤ raw.length
  · rcases passes_or_throws hlen with ⟨args, hpasses⟩ | ⟨e, hthrows⟩
    · rw [parseMessage, hpasses]
      exact follows_executeAction.mono fun tr op hobeys hacts => ⟨args, hpasses, hobeys hacts⟩
    · rw [parseMessage, hthrows]
      trivial
  · rw [parseMessage, parseMessageWith, if_pos (by omega)]
    trivial

end Requests

/-! ### Along runs -/

namespace RapidServer

/-- The requests taken up so far ask for what was done for them, and the one in work asks for what
is left of its run. -/
structure ObeysOk (R : RapidSystem) (s : RapidServer) : Prop where
  taken : ∀ x ∈ s.taken, Transition.EachEntry
    (fun pre ev => ev.1.acts = true → AskedBy R x.raw pre ev.1) x.calls
  current : ∀ conn raw calls rest, s.pc = .parsing conn raw calls rest →
    rest.Follows noteCall (fun tr (op : RapidOp) => op.acts = true → AskedBy R raw tr op) calls

variable {R : RapidSystem} {errSockTimeout : Errno} {made : ℕ} {s s' : RapidServer}
  {ev : RapidEvent}

theorem obeysOk_initial (R : RapidSystem) (vars : Controller) : ObeysOk R { vars } :=
  ⟨nofun, nofun⟩

/-- Nothing is taken up or done, and no request is in work after it. -/
theorem ObeysOk.between (hs : ObeysOk R s) (htaken : s'.taken = s.taken)
    (hpc : ∀ conn raw calls rest, s'.pc ≠ .parsing conn raw calls rest) : ObeysOk R s' :=
  ⟨htaken ▸ hs.taken, fun conn raw calls rest h => absurd h (hpc conn raw calls rest)⟩

/-- **Step lemma.** -/
theorem ObeysOk.step (hs : ObeysOk R s) (h : s.step R errSockTimeout made ev = some s') :
    ObeysOk R s' := by
  have hold : ∀ {x}, x ∈ s.executions → x ∈ s.taken := List.mem_append_left _
  have hinWork : ∀ {conn raw calls rest}, s.pc = .parsing conn raw calls rest →
      ⟨conn, raw, calls⟩ ∈ s.taken := fun hpc => by
    rw [RapidServer.taken, hpc]
    exact List.mem_append_right _ (List.mem_singleton_self _)
  cases step_move h with
  | receive conn bytes hpc =>
    refine ⟨fun x hx => ?_, ?_⟩
    · rcases List.mem_append.mp hx with hmem | hnew
      · exact hs.taken x (hold hmem)
      · rw [List.mem_singleton.mp hnew]
        exact Transition.eachEntry_nil _
    · rintro _ _ _ _ ⟨⟩
      exact follows_parseMessage []
  | call conn raw calls op k answer vars hpc =>
    obtain ⟨hop, hrest⟩ := hs.current conn raw calls _ hpc
    refine ⟨fun x hx => ?_, ?_⟩
    · rcases List.mem_append.mp hx with hmem | hnew
      · exact hs.taken x (hold hmem)
      · rw [List.mem_singleton.mp hnew]
        exact (hs.taken _ (hinWork hpc)).snoc hop
    · rintro _ _ _ _ ⟨⟩
      exact hrest _
  | retry conn raw calls hpc =>
    refine ⟨fun x hx => ?_, ?_⟩
    · rcases List.mem_append.mp hx with hmem | hnew
      · exact hs.taken x (hold hmem)
      · rw [List.mem_singleton.mp hnew]
        exact hs.taken _ (hinWork hpc)
    · rintro _ _ _ _ ⟨⟩
      exact follows_parseMessage calls
  | drift vars => exact ⟨hs.taken, hs.current⟩
  | idle => exact hs
  | _ => exact hs.between (by simp [RapidServer.taken, SocketPc.current, *]) (by simp)

end RapidServer

end Rapid

end RobertMiddleware
