import Mathlib.Logic.Basic

/-!
# Objects protected by a non-recursive mutex

An object and the owner of its mutex. A member function takes the mutex for the length of its
body. A thread that asks for a mutex it already owns never gets it: `Fault.relock` is the error a
non-recursive mutex makes of it. A thread that asks for a mutex another thread owns has to wait,
so the call is not possible in that state (`Fault.busy`).

## Main results

* `Monitor.lockGuard_run_free` — on a free mutex a guarded body runs, and leaves the mutex free
* `Monitor.lockGuard_run_self` — under one's own mutex a guarded body is an error
-/

/-- An object of type `σ` and the thread that owns its mutex, if any. -/
structure Monitor (τ σ : Type) where
  /-- The object. -/
  data : σ
  /-- The owner of the mutex. -/
  owner : Option τ

namespace Monitor

/-- Why a lock attempt does not succeed. -/
inductive Fault (τ : Type)
  | relock
  | busy (owner : τ)

variable {τ σ α : Type}

/-- Computations on a monitored object that may fail to lock. -/
abbrev Guarded (τ σ : Type) := StateT (Monitor τ σ) (Except (Fault τ))

/-- Run `body` on the object, without touching the mutex. -/
def access (body : σ → α × σ) : Guarded τ σ α :=
  fun m => .ok ((body m.data).1, { m with data := (body m.data).2 })

variable [DecidableEq τ]

/-- Take the mutex, run `body`, release the mutex when the scope ends. -/
def lockGuard (me : τ) (body : Guarded τ σ α) : Guarded τ σ α := fun m =>
  match m.owner with
  | some t => .error (if t = me then .relock else .busy t)
  | none =>
    match body { m with owner := some me } with
    | .ok (a, m') => .ok (a, { m' with owner := none })
    | .error f => .error f

/-- The guarded body runs under the caller's ownership. -/
theorem lockGuard_run_free (me : τ) (body : Guarded τ σ α) (d : σ) :
    lockGuard me body ⟨d, none⟩ =
      match body ⟨d, some me⟩ with
      | .ok (a, m') => .ok (a, { m' with owner := none })
      | .error f => .error f := rfl

theorem lockGuard_run_self (me : τ) (body : Guarded τ σ α) (d : σ) :
    lockGuard me body ⟨d, some me⟩ = .error .relock := by
  simp [lockGuard]

end Monitor
