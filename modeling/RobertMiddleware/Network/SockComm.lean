import Mathlib.Data.Finset.Insert
import RobertMiddleware.Core.Data
import RobertMiddleware.Internal.Effects

/-!
# Sockets

`src/network/sock_comm.cpp` on a POSIX system. A descriptor is a number and `INVALID_SOCKET_FD` is
`none`. The system calls are calls of a program, and what the operating system has to say in them
is in their answers: a descriptor that `socket` returns is not open, and nothing else is known of
it.

## Main definitions

* `connectTcp`, `setTimeouts`, `closeSocket`
* `sockSem` — the descriptors that are open
* `OnOpen` — a call is made on an open descriptor

## Main results

* `connectTcp_wp` — the only descriptor that `connect_tcp` leaves open is the one it returns
-/

namespace RobertMiddleware

open Effects

/-! ### The calls -/

/-- `struct timeval`. -/
structure Timeval where
  tvSec : ℤ
  tvUsec : ℤ
deriving DecidableEq

/-- `SO_RCVTIMEO` and `SO_SNDTIMEO`. -/
inductive SockOpt
  | rcvTimeo
  | sndTimeo
deriving DecidableEq

/-- What `getaddrinfo` finds. -/
abbrev AddrInfo := ℕ

inductive SockCall
  | getaddrinfo (host port : Bytes)
  | freeaddrinfo (res : AddrInfo)
  | socket (res : AddrInfo)
  | setsockopt (fd : ℕ) (opt : SockOpt) (tv : Timeval)
  | connect (fd : ℕ) (res : AddrInfo)
  | send (fd : ℕ) (bytes : Bytes)
  | recv (fd : ℕ) (limit : ℕ)
  | close (fd : ℕ)

/-- What each call returns. Of `setsockopt` and `connect`, whether they succeed; of `recv` the bytes
in the buffer, unless it fails. -/
abbrev SockCall.Ret : SockCall → Type
  | .getaddrinfo _ _ => Option AddrInfo
  | .freeaddrinfo _ => Unit
  | .socket _ => Option ℕ
  | .setsockopt _ _ _ => Bool
  | .connect _ _ => Bool
  | .send _ _ => ℤ
  | .recv _ _ => Option Bytes
  | .close _ => Unit

/-- The signature of the socket calls. -/
abbrev SockCalls : Signature := ⟨SockCall, SockCall.Ret⟩

variable {ε : Type}

/-- The call `op`. -/
abbrev invokeSock (op : SockCall) : Prog SockCalls ε op.Ret := Prog.perform (S := SockCalls) op

/-! ### The functions -/

/-- `close_socket`. -/
def closeSocket : Option ℕ → Prog SockCalls ε Unit
  | none => .pure ()
  | some fd => invokeSock (.close fd)

/-- The `timeval` of a time in milliseconds. -/
def Timeval.ofMillis (timeoutMs : ℤ) : Timeval where
  tvSec := timeoutMs.tdiv 1000
  tvUsec := timeoutMs.tmod 1000 * 1000

/-- `set_timeouts`. -/
def setTimeouts (fd : Option ℕ) (timeoutMs : ℤ) : Prog SockCalls ε Bool :=
  match fd with
  | none => .pure false
  | some fd => do
    let rcv : Bool ← invokeSock (.setsockopt fd .rcvTimeo (.ofMillis timeoutMs))
    if rcv then invokeSock (.setsockopt fd .sndTimeo (.ofMillis timeoutMs)) else return false

/-- `connect_tcp`. What `set_timeouts` answers is dropped. -/
def connectTcp (host : Bytes) (port timeoutMs : ℤ) : Prog SockCalls ε (Option ℕ) := do
  let res : Option AddrInfo ← invokeSock (.getaddrinfo host (ascii (toString port)))
  match res with
  | none => return none
  | some res =>
    let fd : Option ℕ ← invokeSock (.socket res)
    match fd with
    | none =>
      invokeSock (.freeaddrinfo res)
      return none
    | some fd =>
      let _ ← setTimeouts (some fd) timeoutMs
      let ok : Bool ← invokeSock (.connect fd res)
      if ok then
        invokeSock (.freeaddrinfo res)
        return some fd
      else
        closeSocket (some fd)
        invokeSock (.freeaddrinfo res)
        return none

/-! ### Open descriptors -/

/-- What the operating system does, on the set of open descriptors. -/
def sockSem : Semantics SockCalls (Finset ℕ)
  | .socket _, fds, fd, fds' => (∀ n ∈ fd, n ∉ fds) ∧ fds' = fd.toFinset ∪ fds
  | .send _ bytes, fds, n, fds' => n ≤ bytes.length ∧ fds' = fds
  | .recv _ limit, fds, received, fds' =>
    (∀ bytes ∈ received, bytes.length ≤ limit) ∧ fds' = fds
  | .close fd, fds, _, fds' => fds' = fds.erase fd
  | _, fds, _, fds' => fds' = fds

/-- A call on a descriptor is made on one that is open. -/
def OnOpen : SockCall → Finset ℕ → Prop
  | .setsockopt fd _ _, fds | .connect fd _, fds | .send fd _, fds | .recv fd _, fds
  | .close fd, fds => fd ∈ fds
  | _, _ => True

section Specs

variable {α : Type} {fds : Finset ℕ} {fd : ℕ}

/-- The rule for the first call of a program that nobody disturbs. -/
theorem invokeSock_wp {op : SockCall} {k : op.Ret → Prog SockCalls ε α}
    {Q : Except ε α → Finset ℕ → Prop} (hopen : OnOpen op fds)
    (hrest : ∀ r fds', sockSem op fds r fds' → (k r).Wp sockSem (· = ·) OnOpen Q fds') :
    ((invokeSock op : Prog SockCalls ε op.Ret).bind k).Wp sockSem (· = ·) OnOpen Q fds := by
  rintro _ rfl
  exact ⟨hopen, hrest⟩

theorem closeSocket_wp (hfd : fd ∈ fds) :
    (closeSocket (some fd) : Prog SockCalls ε Unit).Wp sockSem (· = ·) OnOpen
      (fun res fds' => res = .ok () ∧ fds' = fds.erase fd) fds := by
  rintro _ rfl
  refine ⟨hfd, fun r fds' hclose => ⟨rfl, hclose⟩⟩

theorem setTimeouts_wp (timeoutMs : ℤ) (hfd : fd ∈ fds) :
    (setTimeouts (some fd) timeoutMs : Prog SockCalls ε Bool).Wp sockSem (· = ·) OnOpen
      (fun res fds' => (∃ ok, res = .ok ok) ∧ fds' = fds) fds := by
  refine invokeSock_wp hfd fun rcv fds' hset => ?_
  obtain rfl : fds' = fds := hset
  cases rcv with
  | false => exact ⟨⟨false, rfl⟩, rfl⟩
  | true =>
    rintro _ rfl
    exact ⟨hfd, fun ok fds' hset' => ⟨⟨ok, rfl⟩, hset'⟩⟩

/-- **`connect_tcp`.** It makes every call on an open descriptor, and the only descriptor that it
leaves open is the one it returns, which was not open before. -/
theorem connectTcp_wp (host : Bytes) (port timeoutMs : ℤ) :
    (connectTcp host port timeoutMs : Prog SockCalls ε (Option ℕ)).Wp sockSem (· = ·) OnOpen
      (fun res fds' => ∃ fd, res = .ok fd ∧ (∀ n ∈ fd, n ∉ fds) ∧ fds' = fd.toFinset ∪ fds)
      fds := by
  refine invokeSock_wp trivial fun res fds' hfound => ?_
  obtain rfl : fds' = fds := hfound
  cases res with
  | none => exact ⟨none, rfl, by simp, by simp⟩
  | some res =>
    refine invokeSock_wp trivial fun fd fds'' hsocket => ?_
    obtain ⟨hnew, rfl⟩ := hsocket
    cases fd with
    | none =>
      refine invokeSock_wp trivial fun _ fds'' hfree => ?_
      exact ⟨none, rfl, by simp, hfree⟩
    | some fd =>
      have hfd : fd ∈ (some fd).toFinset ∪ fds' := by simp
      refine Prog.wp_bind.mpr ((setTimeouts_wp timeoutMs hfd).mono (fun _ _ => id) ?_)
      rintro _ fds'' ⟨⟨ok, rfl⟩, rfl⟩
      refine invokeSock_wp hfd fun ok fds'' hconnect => ?_
      obtain rfl : fds'' = _ := hconnect
      cases ok with
      | true =>
        refine invokeSock_wp trivial fun _ fds'' hfree => ?_
        exact ⟨some fd, rfl, hnew, hfree⟩
      | false =>
        refine Prog.wp_bind.mpr ((closeSocket_wp hfd).mono (fun _ _ => id) ?_)
        rintro _ fds'' ⟨rfl, rfl⟩
        refine invokeSock_wp trivial fun _ fds'' hfree => ⟨none, rfl, by simp, ?_⟩
        -- what was opened has been closed
        have hnot : fd ∉ fds' := hnew fd rfl
        obtain rfl : fds'' = _ := hfree
        simp [hnot]

end Specs

end RobertMiddleware
