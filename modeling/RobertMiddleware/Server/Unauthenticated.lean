import RobertMiddleware.Server.LockOwnership
import RobertMiddleware.Server.SessionStore

/-!
# Requests without a session

A request whose token is not a live session is refused, with an answer that depends on the request
alone. Every handler tests the token before it looks at anything else of the server, but for two
questions: `handle` asks for the name behind the token, to log it, and `handle_robot_command` asks
first whether there is a robot. `LOGIN` and `PING` need no session.

## Main definitions

* `DecodedRequest.Unauthenticated` — the token of a request, if any, is not a live session
* `RequestHandler.refusal` — the answer to such a request

## Main results

* `RequestHandler.exec_handle` — the one execution of `handle` on such a request
* `System.unauthenticated_handle` — two servers cannot be told apart, and neither is changed
-/

namespace RobertMiddleware

open Effects Transition

/-- The token of the request, if it has one, is not a live session. -/
def DecodedRequest.Unauthenticated (req : DecodedRequest) (s : Shared) : Prop :=
  ∀ token, req.sessionToken = some token → token ∉ s.sessions.sessions

/-- A call that answers `r` whatever token would be drawn, and changes nothing. -/
theorem serverSem_query {op : ServerCall} {s : Shared} {r : op.Ret}
    (hquery : ∀ uuid, execCall uuid op s = (r, s)) (r' : op.Ret) (t : Shared) :
    serverSem op s r' t ↔ r' = r ∧ t = s := by
  constructor
  · rintro ⟨uuid, -, heq⟩
    rw [hquery uuid] at heq
    exact Prod.mk.inj heq
  · rintro ⟨rfl, rfl⟩
    obtain ⟨uuid, hfresh⟩ := SessionManager.exists_freshToken t
    exact ⟨uuid, hfresh, (hquery uuid).symm⟩

namespace RequestHandler

/-- What a request without a session is told. -/
def refusal (req : DecodedRequest) : ServerResponse :=
  match req.cmdType with
  | .unknown => errorResponse "Unknown command"
  | .logout =>
    if req.token = [] then errorResponse "No token provided" else errorResponse "Invalid token"
  | _ => errorResponse "Invalid token"

theorem refusal_status (req : DecodedRequest) : (refusal req).status = some .error := by
  rw [refusal]
  split
  · rfl
  · split <;> rfl
  · rfl

/-- The program has one execution from `s`, which returns `response` and changes nothing. -/
def Answers (p : Handler ServerResponse) (response : ServerResponse) (s : Shared) : Prop :=
  ∀ res a, p.Exec serverSem (· = ·) s res a ↔ res = .ok response ∧ a = s

variable {s : Shared} {req : DecodedRequest}

theorem answers_pure (response : ServerResponse) : Answers (.pure response) response s :=
  fun _ _ => Prog.exec_pure_iff

theorem answers_query {op : ServerCall} {k : op.Ret → Handler ServerResponse} {r : op.Ret}
    {response : ServerResponse} (hquery : ∀ uuid, execCall uuid op s = (r, s))
    (hrest : Answers (k r) response s) :
    Answers (.call (S := ServerCalls) op k) response s :=
  fun res a => (Prog.exec_query_iff (serverSem_query hquery)).trans (hrest res a)

/-- `validate_token` finds the token invalid and touches nothing. -/
theorem answers_validateToken (htoken : req.token ∉ s.sessions.sessions)
    {f : Bool → Handler ServerResponse} {response : ServerResponse}
    (hrest : Answers (f false) response s) : Answers ((validateToken req).bind f) response s := by
  have hinvalid : s.sessions.isValidToken req.token = false := by
    rw [SessionManager.isValidToken, Option.isSome_eq_false_iff, Option.isNone_iff_eq_none,
      AList.lookup_eq_none]
    exact htoken
  refine answers_query (r := false) (fun uuid => ?_) ?_
  · rw [execCall, hinvalid]
  · exact hrest

/-! ### The handlers -/

theorem answers_handleLogout (htoken : req.token ∉ s.sessions.sessions) :
    Answers (handleLogout req)
      (if req.token = [] then errorResponse "No token provided" else errorResponse "Invalid token")
      s := by
  rw [handleLogout]
  split
  · exact answers_pure _
  · exact answers_validateToken htoken (answers_pure _)

theorem answers_handleAcquire (htoken : req.token ∉ s.sessions.sessions) :
    Answers (handleAcquire req) (errorResponse "Invalid token") s :=
  answers_validateToken htoken (answers_pure _)

theorem answers_handleRelease (htoken : req.token ∉ s.sessions.sessions) :
    Answers (handleRelease req) (errorResponse "Invalid token") s :=
  answers_validateToken htoken (answers_pure _)

theorem answers_handleCheckTask (P : Platform) (htoken : req.token ∉ s.sessions.sessions) :
    Answers (handleCheckTask P req) (errorResponse "Invalid token") s :=
  answers_validateToken htoken (answers_pure _)

theorem answers_handleExit (htoken : req.token ∉ s.sessions.sessions) :
    Answers (handleExit req) (errorResponse "Invalid token") s :=
  answers_validateToken htoken (answers_pure _)

/-- Without a robot the answer would be another one, before the token is looked at. -/
theorem answers_handleRobotCommand (P : Platform) (hloaded : s.robotLoaded = true)
    (htoken : req.token ∉ s.sessions.sessions) :
    Answers (handleRobotCommand P req) (errorResponse "Invalid token") s := by
  refine answers_query (r := true) (fun uuid => ?_) ?_
  · rw [execCall, hloaded]
  · exact answers_validateToken htoken (answers_pure _)

theorem answers_dispatch (P : Platform) (hloaded : s.robotLoaded = true)
    (hlogin : req.cmdType ≠ .login) (hping : req.cmdType ≠ .ping)
    (htoken : req.token ∉ s.sessions.sessions) :
    Answers (dispatch P req) (refusal req) s := by
  rw [dispatch, refusal]
  cases hcmd : req.cmdType with
  | unknown => exact answers_pure _
  | login => exact absurd hcmd hlogin
  | logout => exact answers_handleLogout htoken
  | acquire => exact answers_handleAcquire htoken
  | release => exact answers_handleRelease htoken
  | checkTask => exact answers_handleCheckTask P htoken
  | exit => exact answers_handleExit htoken
  | ping => exact absurd hcmd hping
  | _ => exact answers_handleRobotCommand P hloaded htoken

/-- **The one execution** of `handle` on a request whose token is not a live session. -/
theorem exec_handle (P : Platform) (hloaded : s.robotLoaded = true)
    (hlogin : req.cmdType ≠ .login) (hping : req.cmdType ≠ .ping)
    (htoken : req.token ∉ s.sessions.sessions) :
    Answers (handle P req) (refusal req) s := by
  have hdispatch := answers_dispatch P hloaded hlogin hping htoken
  rw [handle]
  split
  · exact answers_query (fun _ => rfl) hdispatch
  · exact hdispatch

end RequestHandler

namespace System

/-- In a reachable state, no token is as good as an unknown one. -/
theorem token_not_mem_sessions {P : Platform} {users : List UserInfo} {s : System}
    (h : Reaches (step P) always (initial users) s) {req : DecodedRequest}
    (hno : req.Unauthenticated s.shared) : req.token ∉ s.shared.sessions.sessions := by
  cases htoken : req.sessionToken with
  | none =>
    rw [DecodedRequest.token, htoken]
    exact nil_not_mem_sessions h
  | some token =>
    rw [DecodedRequest.token, htoken]
    exact hno token htoken

/-- **Requests without a session reveal and change nothing.** On two servers with a robot, each in
a state that it can reach, such a request other than `LOGIN` and `PING` has one execution, which
throws nothing, gives the same refusal, and leaves the state as it was. -/
theorem unauthenticated_handle {P : Platform} {users₁ users₂ : List UserInfo} {s₁ s₂ : System}
    (h₁ : Reaches (step P) always (initial users₁) s₁)
    (h₂ : Reaches (step P) always (initial users₂) s₂)
    (hloaded₁ : s₁.shared.robotLoaded = true) (hloaded₂ : s₂.shared.robotLoaded = true)
    {req : DecodedRequest} (hlogin : req.cmdType ≠ .login) (hping : req.cmdType ≠ .ping)
    (hno₁ : req.Unauthenticated s₁.shared) (hno₂ : req.Unauthenticated s₂.shared) :
    ∃ response : ServerResponse, response.status ≠ some .success ∧
      (∀ res a, (RequestHandler.handle P req).Exec serverSem (· = ·) s₁.shared res a ↔
        res = .ok response ∧ a = s₁.shared) ∧
      ∀ res a, (RequestHandler.handle P req).Exec serverSem (· = ·) s₂.shared res a ↔
        res = .ok response ∧ a = s₂.shared := by
  refine ⟨RequestHandler.refusal req, ?_, ?_, ?_⟩
  · rw [RequestHandler.refusal_status]
    decide
  · exact RequestHandler.exec_handle P hloaded₁ hlogin hping (token_not_mem_sessions h₁ hno₁)
  · exact RequestHandler.exec_handle P hloaded₂ hlogin hping (token_not_mem_sessions h₂ hno₂)

/-- The lock is asked for with a forged token, where `alice` holds it and where nobody does. -/
theorem unauthenticated_handle_forged :
    ∃ s₁ s₂ : System, s₁.shared.sessions.currentLock = some (ascii "t") ∧
      s₂.shared.sessions.currentLock = none ∧
      ∃ response : ServerResponse, response.status ≠ some .success ∧
        (∀ res a, (RequestHandler.handle Platform.linux (acquireRequest "x")).Exec serverSem
          (· = ·) s₁.shared res a ↔ res = .ok response ∧ a = s₁.shared) ∧
        ∀ res a, (RequestHandler.handle Platform.linux (acquireRequest "x")).Exec serverSem
          (· = ·) s₂.shared res a ↔ res = .ok response ∧ a = s₂.shared := by
  have hrun : ∃ s, runLabels (step Platform.linux) always (initial SessionManager.aliceOnly)
      acquireLabels = some s ∧
      s.shared.sessions.currentLock = some (ascii "t") ∧ s.shared.robotLoaded = true ∧
      ascii "x" ∉ s.shared.sessions.sessions := ⟨_, rfl, by decide, by decide, by decide⟩
  obtain ⟨s, hs, hlock, hloaded, hnot⟩ := hrun
  have hforged : ∀ a : Shared, ascii "x" ∉ a.sessions.sessions →
      (acquireRequest "x").Unauthenticated a := by
    rintro a ha token htoken
    obtain rfl : ascii "x" = token := Option.some.inj htoken
    exact ha
  exact ⟨s, initial [], hlock, rfl,
    unauthenticated_handle (.of_runLabels hs) (.refl (initial [])) hloaded rfl (by decide)
      (by decide) (hforged _ hnot) (hforged _ (by decide))⟩

end System

end RobertMiddleware
