import RobertMiddleware.Core.ConfParser
import RobertMiddleware.Internal.EraseLoop
import RobertMiddleware.Internal.Monitor

/-!
# Sessions

`src/server/session.{hpp,cpp}`. The member functions of `SessionManager` are given twice: first
as what their bodies do to the object (`login`, `logout`, …), then as the source runs them, under
a `std::lock_guard` on the non-recursive `mutex_` (`Locked.login`, `Locked.logout`, …).

For every function but one the second is the first between lock and unlock. The exception is
`sweep_expired_sessions`, which calls the member function `release_lock` for every expired
session while it holds the mutex. `sweepExpiredSessions` is the sweep with that call taken as
executed under the mutex already held; `Locked.sweepExpiredSessions` is the source's.

Time points and durations are unbounded integers, time points in nanoseconds. A new session is
created from `{username}`, so its `last_seen` is the zero time point.

## Main results

* `SessionManager.lookup_sweepExpiredSessions`, `currentLock_sweepExpiredSessions` — the effect of
  the sweep
* `SessionManager.Locked.sweepLoop_held` — under the mutex already held, the loop has that effect
* `SessionManager.Locked.sweepExpiredSessions_run` — when the source's sweep runs to completion
-/

namespace RobertMiddleware

/-- `Session`. -/
structure Session where
  username : Bytes
  lastSeen : ℤ := 0
deriving DecidableEq

/-- `SessionManager`, without its mutex. -/
structure SessionManager where
  users : AList fun _ : Bytes => Bytes := ∅
  sessions : AList fun _ : Bytes => Session := ∅
  currentLock : Option Bytes := none

/-- Nanoseconds in a second. -/
def nsPerSec : ℤ := 1000000000

namespace SessionManager

/-! ### The bodies of the member functions -/

/-- `load_users`. -/
def loadUsers (users : List UserInfo) (s : SessionManager) : SessionManager :=
  { s with users := users.foldl (fun m u => m.insert u.username u.password) ∅ }

/-- `login`, with the token that `generate_uuid` returns if it is called. -/
def login (uuid username password : Bytes) (s : SessionManager) :
    Option Bytes × SessionManager :=
  match s.sessions.entries.find? fun e => e.2.username = username with
  | some e => (some e.1, s)
  | none =>
    if s.users.lookup username = some password then
      (some uuid, { s with sessions := s.sessions.insert uuid { username } })
    else (none, s)

/-- `logout`. -/
def logout (token : Bytes) (s : SessionManager) : SessionManager :=
  { s with sessions := s.sessions.erase token }

/-- `is_valid_token`. -/
def isValidToken (token : Bytes) (s : SessionManager) : Bool := (s.sessions.lookup token).isSome

/-- `touch_session` at time `now`. -/
def touchSession (now : ℤ) (token : Bytes) (s : SessionManager) : SessionManager :=
  match s.sessions.lookup token with
  | some session =>
    { s with sessions := s.sessions.insert token { session with lastSeen := now } }
  | none => s

/-- `acquire_lock`. -/
def acquireLock (token : Bytes) (s : SessionManager) : Bool × SessionManager :=
  match s.currentLock with
  | some _ => (false, s)
  | none => (true, { s with currentLock := some token })

/-- `release_lock`. -/
def releaseLock (token : Bytes) (s : SessionManager) : Bool × SessionManager :=
  if s.currentLock = some token then (true, { s with currentLock := none }) else (false, s)

/-- `has_lock`. -/
def hasLock (token : Bytes) (s : SessionManager) : Bool := s.currentLock = some token

/-- `token_to_username`. -/
def tokenToUsername (token : Bytes) (s : SessionManager) : Bytes :=
  match s.sessions.lookup token with
  | some session => session.username
  | none => []

/-- `now - last_seen > timeout`, for a timeout in seconds. -/
def expired (now timeout : ℤ) (session : Session) : Bool :=
  timeout * nsPerSec < now - session.lastSeen

/-- A sweep would come to an expired session. -/
def anyExpired (now timeout : ℤ) (s : SessionManager) : Bool :=
  s.sessions.entries.any fun e => expired now timeout e.2

/-- The erase-while-iterating loop of the sweep, over the entries still to visit. -/
def sweepEntries (now timeout : ℤ) :
    List (Sigma fun _ : Bytes => Session) → SessionManager → SessionManager
  | [], s => s
  | ⟨token, session⟩ :: rest, s =>
    if expired now timeout session then
      let s := (s.releaseLock token).2
      sweepEntries now timeout rest { s with sessions := s.sessions.erase token }
    else sweepEntries now timeout rest s

/-- `sweep_expired_sessions` at time `now`, the nested `release_lock` running under the mutex
already held. -/
def sweepExpiredSessions (now timeout : ℤ) (s : SessionManager) : SessionManager :=
  sweepEntries now timeout s.sessions.entries s

/-! ### The effect of the sweep -/

@[simp] theorem sessions_releaseLock (token : Bytes) (s : SessionManager) :
    (s.releaseLock token).2.sessions = s.sessions := by
  rw [releaseLock]; split <;> rfl

@[simp] theorem users_releaseLock (token : Bytes) (s : SessionManager) :
    (s.releaseLock token).2.users = s.users := by
  rw [releaseLock]; split <;> rfl

theorem currentLock_releaseLock (token : Bytes) (s : SessionManager) :
    (s.releaseLock token).2.currentLock =
      if s.currentLock = some token then none else s.currentLock := by
  rw [releaseLock]; split <;> rfl

theorem sessions_sweepEntries (now timeout : ℤ) (l : List (Sigma fun _ : Bytes => Session))
    (s : SessionManager) :
    (sweepEntries now timeout l s).sessions =
      AList.eraseLoop (fun _ => expired now timeout) l s.sessions := by
  induction l generalizing s with
  | nil => rfl
  | cons e rest ih =>
    obtain ⟨token, session⟩ := e
    rw [sweepEntries, AList.eraseLoop]
    split <;> simp [ih]

theorem users_sweepEntries (now timeout : ℤ) (l : List (Sigma fun _ : Bytes => Session))
    (s : SessionManager) : (sweepEntries now timeout l s).users = s.users := by
  induction l generalizing s with
  | nil => rfl
  | cons e rest ih =>
    rw [sweepEntries]
    split <;> simp [ih]

/-- The lock is cleared by the loop exactly when the entry of its holder is visited and expired.
An empty lock stays empty, so the order of the visits does not matter. -/
theorem currentLock_sweepEntries {now timeout : ℤ} {l : List (Sigma fun _ : Bytes => Session)}
    (hl : l.NodupKeys) (s : SessionManager) :
    (sweepEntries now timeout l s).currentLock =
      s.currentLock.filter fun t => !(l.dlookup t).any (expired now timeout) := by
  induction l generalizing s with
  | nil => cases h : s.currentLock <;> simp [sweepEntries, h, Option.filter]
  | cons e rest ih =>
    obtain ⟨token, session⟩ := e
    obtain ⟨hnew, hrest⟩ := List.nodupKeys_cons.mp hl
    have hnone : rest.dlookup token = none := List.dlookup_eq_none.mpr hnew
    rw [sweepEntries]
    cases hlock : s.currentLock with
    | none => split <;> simp [ih hrest, currentLock_releaseLock, hlock]
    | some t =>
      rcases eq_or_ne t token with rfl | hne
      · split <;> rename_i hexp <;>
          simp [ih hrest, currentLock_releaseLock, hlock, hexp, hnone, Option.filter]
      · have hskip : List.dlookup t (⟨token, session⟩ :: rest) = rest.dlookup t := by
          rw [List.dlookup_cons_ne _ _ hne]
        split <;> simp [ih hrest, currentLock_releaseLock, hlock, hne, hskip, Option.filter]

theorem lookup_sweepExpiredSessions (now timeout : ℤ) (s : SessionManager) (token : Bytes) :
    (s.sweepExpiredSessions now timeout).sessions.lookup token =
      (s.sessions.lookup token).filter fun session => !expired now timeout session := by
  rw [sweepExpiredSessions, sessions_sweepEntries]
  exact AList.lookup_eraseWhere _ _ _

@[simp] theorem users_sweepExpiredSessions (now timeout : ℤ) (s : SessionManager) :
    (s.sweepExpiredSessions now timeout).users = s.users := users_sweepEntries _ _ _ _

theorem currentLock_sweepExpiredSessions (now timeout : ℤ) (s : SessionManager) :
    (s.sweepExpiredSessions now timeout).currentLock =
      s.currentLock.filter fun t => !(s.sessions.lookup t).any (expired now timeout) :=
  currentLock_sweepEntries s.sessions.nodupKeys s

/-! ### Under the mutex -/

namespace Locked

open Monitor

variable {τ : Type} [DecidableEq τ]

def loadUsers (me : τ) (users : List UserInfo) : Guarded τ SessionManager Unit :=
  lockGuard me (access fun s => ((), s.loadUsers users))

def login (me : τ) (uuid username password : Bytes) : Guarded τ SessionManager (Option Bytes) :=
  lockGuard me (access (SessionManager.login uuid username password))

def logout (me : τ) (token : Bytes) : Guarded τ SessionManager Unit :=
  lockGuard me (access fun s => ((), s.logout token))

def isValidToken (me : τ) (token : Bytes) : Guarded τ SessionManager Bool :=
  lockGuard me (access fun s => (s.isValidToken token, s))

def touchSession (me : τ) (now : ℤ) (token : Bytes) : Guarded τ SessionManager Unit :=
  lockGuard me (access fun s => ((), s.touchSession now token))

def acquireLock (me : τ) (token : Bytes) : Guarded τ SessionManager Bool :=
  lockGuard me (access (SessionManager.acquireLock token))

def releaseLock (me : τ) (token : Bytes) : Guarded τ SessionManager Bool :=
  lockGuard me (access (SessionManager.releaseLock token))

def hasLock (me : τ) (token : Bytes) : Guarded τ SessionManager Bool :=
  lockGuard me (access fun s => (s.hasLock token, s))

/-- The loop of the sweep, with the function called on an expired token. -/
def sweepLoop (release : Bytes → Guarded τ SessionManager Bool) (now timeout : ℤ) :
    List (Sigma fun _ : Bytes => Session) → Guarded τ SessionManager Unit
  | [] => pure ()
  | ⟨token, session⟩ :: rest => do
    if expired now timeout session then
      let _ ← release token
      access fun s => ((), { s with sessions := s.sessions.erase token })
    sweepLoop release now timeout rest

/-- `sweep_expired_sessions` as the source runs it: the loop calls the member function
`release_lock`, which locks `mutex_` itself. -/
def sweepExpiredSessions (me : τ) (now timeout : ℤ) : Guarded τ SessionManager Unit :=
  lockGuard me fun m => sweepLoop (releaseLock me) now timeout m.data.sessions.entries m

omit [DecidableEq τ] in
/-- With the release executed under the mutex already held, the loop is `sweepEntries`. -/
theorem sweepLoop_held (now timeout : ℤ) (l : List (Sigma fun _ : Bytes => Session))
    (s : SessionManager) (o : Option τ) :
    sweepLoop (fun t => access (SessionManager.releaseLock t)) now timeout l ⟨s, o⟩ =
      .ok ((), ⟨sweepEntries now timeout l s, o⟩) := by
  induction l generalizing s with
  | nil => rfl
  | cons e rest ih =>
    rw [sweepLoop, sweepEntries]
    split
    · exact ih _
    · exact ih _

/-- The loop of the source changes nothing as long as nothing is expired, and stops at the first
expired entry. -/
theorem sweepLoop_releaseLock (me : τ) (now timeout : ℤ)
    (l : List (Sigma fun _ : Bytes => Session)) (s : SessionManager) :
    sweepLoop (releaseLock me) now timeout l ⟨s, some me⟩ =
      if ∀ e ∈ l, expired now timeout e.2 = false then .ok ((), ⟨s, some me⟩)
      else .error .relock := by
  induction l with
  | nil => rfl
  | cons e rest ih =>
    obtain ⟨token, session⟩ := e
    rw [sweepLoop]
    cases hexp : expired now timeout session with
    | false => simpa [hexp] using ih
    | true =>
      rw [if_pos rfl, if_neg fun h => by simpa [hexp] using h _ List.mem_cons_self]
      simp only [bind, StateT.bind, releaseLock, lockGuard_run_self, Except.bind]

/-- **When the sweep completes.** On a free mutex it runs to completion exactly when nothing is
expired, and then leaves everything as it was; otherwise it locks the mutex it holds. -/
theorem sweepExpiredSessions_run (me : τ) (now timeout : ℤ) (s : SessionManager) :
    sweepExpiredSessions me now timeout ⟨s, none⟩ =
      if ∀ e ∈ s.sessions.entries, expired now timeout e.2 = false then .ok ((), ⟨s, none⟩)
      else .error .relock := by
  rw [sweepExpiredSessions, lockGuard_run_free, sweepLoop_releaseLock]
  by_cases h : ∀ e ∈ s.sessions.entries, expired now timeout e.2 = false
  · rw [if_pos h, if_pos h]
  · rw [if_neg h, if_neg h]

end Locked

end SessionManager

end RobertMiddleware
