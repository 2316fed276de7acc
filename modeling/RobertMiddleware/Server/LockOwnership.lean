import RobertMiddleware.Server.SessionLaws

/-!
# Who holds the hardware lock

The lock is a token. It should be the token of a live session, since only the session's owner or
its expiry releases it. Nothing but `handle_acquire` can break this: it takes the lock some calls
after it saw that the token was valid, and the sweeper may have erased the session in between.

## Main definitions

* `SessionManager.LockLive` — the holder of the lock has a session
* `System.AcquiresLive` — a step takes the free lock only for a live session

## Main results

* `System.lockLive_reaches` — if every step does, the holder always has a session
* `System.lockLive_fails` — a run after which the lock belongs to nobody
-/

namespace RobertMiddleware

open Effects Transition

/-! ### The session manager -/

namespace SessionManager

/-- If there is a holder of the lock, its token is a live session. -/
def LockLive (s : SessionManager) : Prop :=
  ∀ token, s.currentLock = some token → token ∈ s.sessions

variable {s : SessionManager}

theorem LockLive.login (h : s.LockLive) (uuid username password : Bytes) :
    (s.login uuid username password).2.LockLive := by
  rw [SessionManager.login]
  split
  · exact h
  · split
    · exact fun token hlock => (AList.mem_insert _).mpr (.inr (h token hlock))
    · exact h

/-- Logging out is fine for everybody but the holder. -/
theorem LockLive.logout (h : s.LockLive) {leaver : Bytes} (hleaver : s.currentLock ≠ some leaver) :
    (s.logout leaver).LockLive := by
  intro token hlock
  have hne : token ≠ leaver := by
    rintro rfl
    exact hleaver hlock
  exact AList.mem_erase.mpr ⟨hne, h token hlock⟩

theorem LockLive.touchSession (h : s.LockLive) (now : ℤ) (touched : Bytes) :
    (s.touchSession now touched).LockLive := by
  rw [SessionManager.touchSession]
  split
  · exact fun token hlock => (AList.mem_insert _).mpr (.inr (h token hlock))
  · exact h

/-- Taking a free lock is fine for a live session. -/
theorem LockLive.acquireLock (h : s.LockLive) {taker : Bytes}
    (htaker : s.currentLock = none → taker ∈ s.sessions) : (s.acquireLock taker).2.LockLive := by
  rw [SessionManager.acquireLock]
  split
  · exact h
  · rename_i hfree
    rintro token ⟨⟩
    exact htaker hfree

theorem LockLive.releaseLock (h : s.LockLive) (giver : Bytes) :
    (s.releaseLock giver).2.LockLive := by
  rw [SessionManager.releaseLock]
  split
  · exact fun token htoken => absurd htoken (by simp)
  · exact h

end SessionManager

/-! ### The server -/

namespace System

/-- If the step is an `acquire_lock` that finds the lock free, the session of its token is still
live. -/
def AcquiresLive (s : System) (l : Label) : Prop :=
  match l, s.server with
  | .server (.call _), .serving _ (.call (.acquireLock token) _) =>
    s.shared.sessions.currentLock = none → token ∈ s.shared.sessions.sessions
  | _, _ => True

instance (s : System) (l : Label) : Decidable (AcquiresLive s l) :=
  decidable_of_iff
    ((match l, s.server with
      | .server (.call _), .serving _ (.call (.acquireLock token) _) =>
        decide (s.shared.sessions.currentLock = none → token ∈ s.shared.sessions.sessions)
      | _, _ => true) = true)
    (by
      unfold AcquiresLive
      split
      · exact decide_eq_true_iff
      · exact iff_of_true rfl trivial)

theorem lockLive_execCall {s : Shared} {op : ServerCall} (uuid : Bytes)
    (hs : s.sessions.LockLive) (hsound : SoundCall op s)
    (hacquire : ∀ token, op = .acquireLock token → s.sessions.currentLock = none →
      token ∈ s.sessions.sessions) : (execCall uuid op s).2.sessions.LockLive := by
  cases op with
  | login username password => exact hs.login uuid username password
  | logout leaver => exact hs.logout hsound
  | touchSession touched => exact hs.touchSession s.now touched
  | acquireLock taker => exact hs.acquireLock (hacquire taker rfl)
  | releaseLock giver => exact hs.releaseLock giver
  | _ => exact hs

/-- The sweeper takes the lock away with the session. -/
theorem lockLive_of_interference {a b : Shared} (h : a.sessions.LockLive)
    (hab : Interference a b) : b.sessions.LockLive :=
  fun token hlock => hab.holder token hlock (h token (hab.lock token hlock))

theorem lockLive_step {P : Platform} {s s' : System} {l : Label} (hs : s.shared.sessions.LockLive)
    (hhandler : HandlerOk s) (hlive : AcquiresLive s l) (h : step P s l = some s') :
    s'.shared.sessions.LockLive := by
  rcases shared_step h with ⟨uuid, req, op, k, rfl, hpc, hshared⟩ | ⟨-, hinter⟩
  · rw [hshared]
    refine lockLive_execCall uuid hs (hhandler.sound hpc) ?_
    rintro token rfl hfree
    simp only [AcquiresLive, hpc] at hlive
    exact hlive hfree
  · exact lockLive_of_interference hs hinter

/-- **The lock has an owner.** In every run in which a free lock is only taken for a session that
is live when it is taken, the holder of the lock has a live session in every state, so in
particular between two requests. -/
theorem lockLive_reaches {P : Platform} {users : List UserInfo} {s : System}
    (h : Reaches (step P) AcquiresLive (initial users) s) : s.shared.sessions.LockLive := by
  have hinv : s.shared.sessions.LockLive ∧ HandlerOk s :=
    h.invariant (I := fun t => t.shared.sessions.LockLive ∧ HandlerOk t)
      ⟨nofun, handlerOk_initial users⟩ fun _ _ _ ⟨hlive, hhandler⟩ hl hstep =>
        ⟨lockLive_step hlive hhandler hl hstep, hhandler.step hstep⟩
  exact hinv.1

/-! ### Two runs -/

def acquireRequest (token : String) : DecodedRequest where
  cmdType := .acquire
  sessionToken := some (ascii token)

/-- `alice` acquires the lock. -/
def acquireLabels : List Label :=
  SessionManager.loginLabels ++ SessionManager.serve (acquireRequest "t") "u" 5

theorem lockLive_reaches_acquire :
    ∃ s, Reaches (step Platform.linux) AcquiresLive (initial SessionManager.aliceOnly) s ∧
      s.shared.sessions.currentLock = some (ascii "t") ∧ s.shared.sessions.LockLive := by
  have hrun : ∃ s, runLabels (step Platform.linux) AcquiresLive
      (initial SessionManager.aliceOnly) acquireLabels = some s ∧
      s.shared.sessions.currentLock = some (ascii "t") := ⟨_, rfl, by decide⟩
  obtain ⟨s, hs, hlock⟩ := hrun
  exact ⟨s, .of_runLabels hs, hlock, lockLive_reaches (.of_runLabels hs)⟩

/-- A minute passes, `alice` asks for the lock, and the sweep runs after her token was found
valid. -/
def orphanLabels : List Label :=
  SessionManager.loginLabels ++
  [.tick 61000000000, .server .advance, .server (.receive (acquireRequest "t")),
    .server (.call (ascii "u")), .server (.call (ascii "u")), .sweeper, .sweeper, .sweeper,
    .server (.call (ascii "u")), .server (.call (ascii "u")), .server (.call (ascii "u")),
    .server .advance]

/-- **A lock that nobody can release.** No request is in service, and the holder of the lock is
not a session. -/
theorem lockLive_fails :
    ∃ s, Reaches (step Platform.linux) always (initial SessionManager.aliceOnly) s ∧
      s.server.Idle ∧ ¬ s.shared.sessions.LockLive := by
  have hrun : ∃ s, runLabels (step Platform.linux) always (initial SessionManager.aliceOnly)
      orphanLabels = some s ∧ s.server.Idle ∧ s.shared.sessions.currentLock = some (ascii "t") ∧
      ascii "t" ∉ s.shared.sessions.sessions := ⟨_, rfl, trivial, by decide, by decide⟩
  obtain ⟨s, hs, hidle, hlock, hgone⟩ := hrun
  exact ⟨s, .of_runLabels hs, hidle, fun hlive => hgone (hlive _ hlock)⟩

end System

end RobertMiddleware
