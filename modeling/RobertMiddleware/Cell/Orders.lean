import RobertMiddleware.Cell.InOrder
import RobertMiddleware.Rapid.Orders
import RobertMiddleware.Rapid.StatusReport
import RobertMiddleware.Server.Origins

/-!
# Nothing without an order

The robot moves, and its settings change, only on the order of a client that held the lock. What
the controller does, the request that it has taken up asks for; that request is the one of a task;
and the task was made of a request of a client, which the handler had found to hold the lock. One
order is carried out for one request taken up, and orders are not passed by later ones.

## Main definitions

* `Rapid.Execution.acts` — a motion was issued for the request, or a setting written
* `Plant.clientObs` — what is seen of the clients

## Main results

* `Plant.ordered_reaches` — whatever the controller does was ordered by a client with the lock
-/

namespace RobertMiddleware

open Effects Transition
open Rapid (Controller Errno RapidServer RapidSystem)

namespace Rapid

/-- A motion was issued for the request, or a setting written. -/
def Execution.acts (x : Execution) : Bool := x.calls.any fun ev => ev.1.acts

section Pings

variable {R : RapidSystem} {raw : Bytes} {args : ActionArgs}

theorem Passes.ping (h : Passes R raw args) (hping : isPing raw = true) :
    args.actionCmd = "PINGR" := by
  have hhead : raw.head? = some 0x08 := of_decide_eq_true hping
  rw [h.actionCmd_eq]
  cases raw with
  | nil => cases hhead
  | cons b raw =>
    obtain rfl := Option.some.inj hhead
    rfl

theorem Motion.not_ping {tr : Calls} {p : Single → Zone → Primitive} (h : Motion R args tr p) :
    args.actionCmd ≠ "PINGR" := by
  cases h <;> simp [*]

/-- A ping asks for nothing. -/
theorem AskedBy.not_ping {tr : Calls} {op : RapidOp} (h : AskedBy R raw tr op) :
    isPing raw = false := by
  rw [← Bool.not_eq_true]
  intro hping
  obtain ⟨args, hpasses, hasked⟩ := h
  have hcmd := hpasses.ping hping
  cases hasked with
  | motion p v z hmotion => exact hmotion.not_ping hcmd
  | speed speed hcmd' => simp [hcmd] at hcmd'
  | zone zone hcmd' => simp [hcmd] at hcmd'

end Pings

end Rapid

namespace Plant

/-- What is seen of the clients. -/
def clientObs (s : Plant) : Label → List ClientEvent
  | .server l => clientObserver.obs s.system l
  | .controller _ => []

section Orders

variable {P : Platform} {R : RapidSystem} {errSockTimeout : Errno} {vars : Controller}
  {s s' : Plant} {l : Label} {log : List ClientEvent}

/-- The records of the clients, of the tasks and of the wire, and what the controller does. -/
structure OrdersOk (P : Platform) (R : RapidSystem) (errSockTimeout : Errno) (vars : Controller)
    (s : Plant) (log : List ClientEvent) (tasks : List TaskEvent) (wire : List WireEvent) :
    Prop where
  path : PathOk R errSockTimeout vars s tasks wire
  origins : s.system.OriginsOk P log tasks
  obeys : s.controller.ObeysOk R

theorem ordersOk_initial (P : Platform) (users : List UserInfo) (vars : Controller) :
    OrdersOk P R errSockTimeout vars (initial users vars) [] [] [] where
  path := pathOk_initial users vars
  origins := System.originsOk_initial P users
  obeys := RapidServer.obeysOk_initial R vars

/-- **Step lemma.** -/
theorem OrdersOk.step {tasks : List TaskEvent} {wire : List WireEvent}
    (hs : OrdersOk P R errSockTimeout vars s log tasks wire) (hwhole : s.WholeRequest l)
    (h : s.step P R errSockTimeout l = some s') :
    OrdersOk P R errSockTimeout vars s' (log ++ s.clientObs l) (tasks ++ s.taskObs l)
      (wire ++ s.wireObs l) := by
  have hpath := hs.path.step hwhole h
  cases step_move h with
  | server l system controller hmove hafter =>
    have hsame := afterServer_sameWork hafter
    refine ⟨hpath, hs.origins.step hmove, ?_⟩
    exact ⟨hsame.taken ▸ hs.obeys.taken, fun conn raw calls rest hpc =>
      hs.obeys.current conn raw calls rest (hsame.pc ▸ hpc)⟩
  | controller ev controller hmove =>
    refine ⟨hpath, ?_, hs.obeys.step hmove⟩
    simpa only [clientObs, taskObs, List.append_nil] using hs.origins

/-- The requests for which something was done are those of tasks, in their order. -/
theorem OrdersOk.acts_sublist {tasks : List TaskEvent} {wire : List WireEvent}
    (hs : OrdersOk P R errSockTimeout vars s log tasks wire) :
    ((s.controller.taken.filter Rapid.Execution.acts).map Rapid.Execution.raw).Sublist
      ((tasks.filterMap TaskEvent.accepted?).map fun task => task.2.image) := by
  have hping : ∀ x ∈ s.controller.taken, x.acts = true → isPing x.raw = false := by
    intro x hx hacts
    obtain ⟨ev, hev, hacts⟩ := List.any_eq_true.mp hacts
    obtain ⟨pre, post, hcalls⟩ := List.append_of_mem hev
    exact (hs.obeys.taken x hx pre ev post hcalls hacts).not_ping
  refine List.Sublist.trans ?_ hs.path.taken_sublist
  rw [List.filter_map]
  refine List.Sublist.map _ ?_
  have hfilter : s.controller.taken.filter Rapid.Execution.acts =
      (s.controller.taken.filter fun x => !isPing x.raw).filter Rapid.Execution.acts := by
    rw [List.filter_filter]
    refine List.filter_congr fun x hx => ?_
    cases hacts : x.acts with
    | false => rfl
    | true => simp [hping x hx hacts]
  rw [hfilter]
  exact List.filter_sublist

end Orders

/-- **Nothing without an order.** In every run in which a `SocketReceive` returns the bytes of a
request: every motion that the controller has issued for a request that it took up, and every
setting that it has written for it, the request asks for. And the requests for which it has done any
of this are those of tasks, at most once each and in their order, every one of which was added for a
client that made it, after the handler had found, since, that it holds the lock. -/
theorem ordered_reaches {P : Platform} {R : RapidSystem} {errSockTimeout : Errno} {s : Plant}
    {log : List ClientEvent} {users : List UserInfo} {vars : Controller}
    (h : Reaches (logged (step P R errSockTimeout) clientObs) (unlogged WholeRequest)
      (initial users vars, []) (s, log)) :
    (∀ x ∈ s.controller.taken, EachEntry
      (fun pre ev => ev.1.acts = true → Rapid.AskedBy R x.raw pre ev.1) x.calls) ∧
    ∃ tasks : List (TaskId × RapidRequest),
      (s.controller.taken.filter Rapid.Execution.acts).map Rapid.Execution.raw =
        tasks.map (fun task => task.2.image) ∧
      (tasks.Pairwise fun task task' => task.1 < task'.1) ∧
      ∀ task ∈ tasks, Ordered P log task.1 task.2 := by
  obtain ⟨tasks, wire, hs⟩ := h.logged_invariant
    (I := fun t tlog => ∃ tasks wire, OrdersOk P R errSockTimeout vars t tlog tasks wire)
    ⟨[], [], ordersOk_initial P users vars⟩
    fun _ _ _ _ ⟨_, _, ht⟩ hwhole hstep => ⟨_, _, ht.step hwhole hstep⟩
  obtain ⟨ordered, hordered, hraws⟩ := List.sublist_map_iff.mp hs.acts_sublist
  refine ⟨hs.obeys.taken, ordered, hraws, hs.path.link.order.accepted.sublist hordered, ?_⟩
  exact fun task htask => hs.origins.ordered task.1 task.2 (hordered.subset htask)

theorem ordered_reaches_zero :
    ∃ s log, Reaches (logged (step .linux .bench 0) clientObs) (unlogged WholeRequest)
      (initial SessionManager.aliceOnly .bench, []) (s, log) ∧
      (s.controller.taken.filter Rapid.Execution.acts).map Rapid.Execution.raw =
        [Rapid.zeroRequest.image] ∧
      ∃ task : TaskId × RapidRequest, task.2.image = Rapid.zeroRequest.image ∧
        Ordered .linux log task.1 task.2 := by
  have hrun : (runLabels (logged (step .linux .bench 0) clientObs) (unlogged WholeRequest)
      (initial SessionManager.aliceOnly .bench, []) zeroLabels).any fun s =>
        (s.1.controller.taken.filter Rapid.Execution.acts).map Rapid.Execution.raw =
          [Rapid.zeroRequest.image] := by
    decide +kernel
  obtain ⟨⟨s, log⟩, hs, hend⟩ := Option.any_eq_true .. |>.mp hrun
  have hacts := of_decide_eq_true hend
  obtain ⟨-, tasks, hraws, -, hordered⟩ := ordered_reaches (.of_runLabels hs)
  obtain ⟨task, rfl, himage⟩ := List.map_eq_singleton_iff.mp (hraws.symm.trans hacts)
  exact ⟨s, log, .of_runLabels hs, hacts, task, himage,
    hordered task (List.mem_singleton_self _)⟩

end Plant

end RobertMiddleware
