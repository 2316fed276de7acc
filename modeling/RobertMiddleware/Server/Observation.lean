import RobertMiddleware.Server.Moves

/-!
# Observing the server

A property of a whole run (which tasks were accepted, what was answered, who acquired the lock) is
a property of a record of the run. An `Observer` says what each step adds to the record:
receiving a request, a call of its handler, its answer, or a step of another thread.

A `Contract` is what the request in service relies on and guarantees, in terms of the shared
objects and the record. Whether a handler keeps it is a matter of that handler alone; that every
run of the server keeps it then follows once and for all.

## Main definitions

* `Observer.obs` — what a step of the server adds to the record
* `Contract.Keeps` — a handler's program keeps the contract
* `Contract.Serving` — so does what is left of the request in service

## Main results

* `Contract.keeps_call` — the rule of a call
* `Contract.Serving.step` — the contract is kept along runs
-/

namespace RobertMiddleware

open Effects Transition

/-! ### Observers -/

/-- What is recorded of the steps of the server. -/
structure Observer (ω : Type) where
  /-- A request is received. -/
  receive : DecodedRequest → List ω := fun _ => []
  /-- The handler of a request makes a call, which is answered. -/
  call : DecodedRequest → (op : ServerCall) → Shared → op.Ret → List ω := fun _ _ _ _ => []
  /-- A request is answered. -/
  reply : DecodedRequest → ServerResponse → List ω := fun _ _ => []
  /-- Another thread moves. -/
  other : System → Label → List ω := fun _ _ => []

/-- What a step from `s` adds to the record. -/
def Observer.obs {ω : Type} (O : Observer ω) (s : System) (l : Label) : List ω :=
  match l, s.server with
  | .server (.receive req), _ => O.receive req
  | .server (.call uuid), .serving req (.call op _) =>
    O.call req op s.shared (execCall uuid op s.shared).1
  | .server .advance, .serving req (.pure response) => O.reply req response
  | .server _, _ => []
  | l, _ => O.other s l

section Obs

variable {ω : Type} {O : Observer ω} {s : System}

theorem Observer.obs_call {uuid : Bytes} {req : DecodedRequest} {op : ServerCall}
    {k : op.Ret → Handler ServerResponse}
    (hpc : s.server = .serving req (.call (S := ServerCalls) op k)) :
    O.obs s (.server (.call uuid)) = O.call req op s.shared (execCall uuid op s.shared).1 := by
  simp only [obs, hpc]

theorem Observer.obs_reply {req : DecodedRequest} {response : ServerResponse}
    (hpc : s.server = .serving req (.pure response)) :
    O.obs s (.server .advance) = O.reply req response := by
  simp only [obs, hpc]

/-- An observer that does not look at answers. -/
theorem Observer.obs_advance (hreply : ∀ req response, O.reply req response = []) :
    O.obs s (.server .advance) = [] := by
  cases hpc : s.server with
  | serving req rest => cases rest <;> simp [obs, hpc, hreply]
  | _ => simp [obs, hpc]

theorem Observer.obs_other {l : Label} (hl : ∀ e, l ≠ .server e) : O.obs s l = O.other s l := by
  cases l with
  | server e => exact absurd rfl (hl e)
  | _ => rfl

end Obs

/-! ### Contracts -/

/-- What a request in service relies on and guarantees. -/
structure Contract (ω : Type) where
  observer : Observer ω
  /-- What the other threads may do between two calls. -/
  rely : Shared × List ω → Shared × List ω → Prop
  /-- What holds when a request makes a call. -/
  call : DecodedRequest → ServerCall → Shared × List ω → Prop := fun _ _ _ => True
  /-- What holds when a request is answered. -/
  reply : DecodedRequest → ServerResponse → Shared × List ω → Prop := fun _ _ _ => True

namespace Contract

variable {ω : Type} {C : Contract ω}

/-- The calls of a handler and what they add to the record. -/
def sem (C : Contract ω) (req : DecodedRequest) : Semantics ServerCalls (Shared × List ω) :=
  fun op a r b => ∃ uuid, a.1.FreshToken uuid ∧ (r, b.1) = execCall uuid op a.1 ∧
    b.2 = a.2 ++ C.observer.call req op a.1 r

/-- Run from `a` for the request `req`, `p` keeps the contract and ends with `Q`. -/
abbrev Keeps {α : Type} (C : Contract ω) (req : DecodedRequest) (p : Handler α)
    (Q : Except String α → Shared × List ω → Prop) (a : Shared × List ω) : Prop :=
  p.Wp (C.sem req) C.rely (C.call req) Q a

/-- An exception is answered by the loop, not by the handler. -/
def Answers (C : Contract ω) (req : DecodedRequest) :
    Except String ServerResponse → Shared × List ω → Prop
  | .ok response, a => C.reply req response a
  | .error _, _ => True

/-- What is left of the request in service keeps the contract. -/
def Serving (C : Contract ω) (pc : ServerPc) (a : Shared × List ω) : Prop :=
  match pc with
  | .serving req rest => C.Keeps req rest (C.Answers req) a
  | _ => True

section Rules

variable {α β : Type} {req : DecodedRequest} {a : Shared × List ω}

theorem keeps_pure {x : α} {Q : Except String α → Shared × List ω → Prop} (h : Q (.ok x) a) :
    C.Keeps req (.pure x) Q a := h

theorem keeps_throw {e : String} {Q : Except String α → Shared × List ω → Prop}
    (h : Q (.error e) a) : C.Keeps req (.throw e) Q a := h

theorem keeps_bind {p : Handler α} {f : α → Handler β}
    {Q : Except String β → Shared × List ω → Prop}
    (h : C.Keeps req p (fun res b => match res with
      | .ok x => C.Keeps req (f x) Q b
      | .error e => Q (.error e) b) a) : C.Keeps req (p.bind f) Q a := by
  refine Prog.wp_bind.mpr (Prog.Wp.mono h (fun _ _ => id) ?_)
  rintro (e | x) b hb
  · exact hb
  · exact hb

/-- **Rule of a call.** -/
theorem keeps_call {op : ServerCall} {k : op.Ret → Handler α}
    {Q : Except String α → Shared × List ω → Prop}
    (h : ∀ b, C.rely a b → C.call req op b ∧ ∀ uuid, b.1.FreshToken uuid →
      C.Keeps req (k (execCall uuid op b.1).1) Q ((execCall uuid op b.1).2,
        b.2 ++ C.observer.call req op b.1 (execCall uuid op b.1).1)) :
    C.Keeps req (Prog.call (S := ServerCalls) op k) Q a := by
  intro b hb
  refine ⟨(h b hb).1, ?_⟩
  rintro r ⟨c, log⟩ ⟨uuid, hfresh, heq, hlog⟩
  obtain ⟨rfl, rfl⟩ := Prod.mk.inj heq
  obtain rfl : log = b.2 ++ _ := hlog
  exact (h b hb).2 uuid hfresh

end Rules

theorem Serving.of_idle {pc : ServerPc} (h : pc.Idle) (a : Shared × List ω) : C.Serving pc a := by
  cases pc with
  | serving => exact h.elim
  | _ => trivial

/-- The call that the request in service makes is one of the contract. -/
theorem Serving.sound {pc : ServerPc} {a : Shared × List ω} (hs : C.Serving pc a)
    (hrefl : C.rely a a) {req : DecodedRequest} {op : ServerCall}
    {k : op.Ret → Handler ServerResponse}
    (hpc : pc = .serving req (.call (S := ServerCalls) op k)) : C.call req op a := by
  subst hpc
  exact (hs a hrefl).1

/-- So is its answer. -/
theorem Serving.answer {pc : ServerPc} {a : Shared × List ω} (hs : C.Serving pc a)
    {req : DecodedRequest} {response : ServerResponse}
    (hpc : pc = .serving req (.pure response)) : C.reply req response a := by
  subst hpc
  exact hs

/-- The relation that the request in service relies on is one that a waiting program does not
notice. -/
structure Stable (C : Contract ω) : Prop where
  trans : ∀ {a b c}, C.rely a b → C.rely b c → C.rely a c
  reply : ∀ {req response a b}, C.rely a b → C.reply req response a → C.reply req response b

theorem Serving.of_rely {pc : ServerPc} {a b : Shared × List ω} (hs : C.Serving pc a)
    (hC : C.Stable) (hab : C.rely a b) : C.Serving pc b := by
  cases pc with
  | serving req rest =>
    have hkeeps : C.Keeps req rest (C.Answers req) a := hs
    have hanswers : ∀ res b c, C.rely b c → C.Answers req res b → C.Answers req res c := by
      rintro (e | response) b c hbc hres
      · trivial
      · exact hC.reply hbc hres
    exact Prog.Wp.of_env @hC.trans hanswers hkeeps hab
  | _ => trivial

/-- **Contracts are kept.** When the steps of the other threads are what the contract relies on,
and the handler of every request that is received keeps it, it is kept by every step. -/
theorem Serving.step {P : Platform} {s s' : System} {log : List ω} {l : Label}
    (hs : C.Serving s.server (s.shared, log)) (hC : C.Stable)
    (hrefl : C.rely (s.shared, log) (s.shared, log))
    (hother : (∀ e, l ≠ .server e) →
      C.rely (s.shared, log) (s'.shared, log ++ C.observer.other s l))
    (hreceive : ∀ req, C.Keeps req (RequestHandler.handle P req) (C.Answers req)
      (s.shared, log ++ C.observer.receive req))
    (h : System.step P s l = some s') :
    C.Serving s'.server (s'.shared, log ++ C.observer.obs s l) := by
  by_cases hl : ∃ e, l = .server e
  · obtain ⟨e, rfl⟩ := hl
    cases System.step_effect h with
    | other hl => exact absurd rfl (hl e)
    | server hmove =>
      cases hmove with
      | between _ hidle => exact .of_idle hidle _
      | receive req => exact hreceive req
      | misread => trivial
      | call uuid req op k hpc hfresh =>
        rw [Observer.obs_call hpc]
        rw [hpc] at hs
        exact (hs _ hrefl).2 _ _ ⟨uuid, hfresh, rfl, rfl⟩
  · have hother' : ∀ e, l ≠ .server e := fun e he => hl ⟨e, he⟩
    rw [Observer.obs_other hother']
    rcases System.server_other h hother' with hpc | hpc <;> rw [hpc]
    · exact hs.of_rely hC (hother hother')
    · trivial

end Contract

end RobertMiddleware
