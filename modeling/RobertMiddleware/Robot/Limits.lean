import RobertMiddleware.Core.ConfParser
import RobertMiddleware.Robot.Sockets

/-!
# The configured limits

The port and the timeout of the robot go from the configuration to the constructor of `Robot`, and
from there to `connect_tcp` and `set_timeouts`, which splits the timeout into seconds and
microseconds. The split loses nothing. What loses something is the field of the configuration
between the two: it has sixteen bits, and the numbers before and after it are of type `int`.

## Main definitions

* `Timeval.Amounts` — a `timeval` is a time in milliseconds
* `RobotConf.Keeps` — the socket calls of the robot are made with a port and a timeout
* `LimitsLaw` — the limits of the file reach the socket

## Main results

* `RobotConf.keeps_iff` — the robot makes its calls with what its constructor was given
* `limitsLaw_iff` — the configurations whose limits reach the socket
-/

namespace RobertMiddleware

open Effects

/-! ### The timeout at the socket -/

/-- The time is `ms` milliseconds, and the microseconds are less than a second. -/
def Timeval.Amounts (tv : Timeval) (ms : ℤ) : Prop :=
  tv.tvSec * 1000000 + tv.tvUsec = 1000 * ms ∧ 0 ≤ tv.tvUsec ∧ tv.tvUsec < 1000000

/-- **The split is exact**, if the remainder is not negative. -/
theorem Timeval.amounts_ofMillis_iff {timeoutMs ms : ℤ} :
    (Timeval.ofMillis timeoutMs).Amounts ms ↔ timeoutMs = ms ∧ 0 ≤ timeoutMs.tmod 1000 := by
  have hsplit : 1000 * timeoutMs.tdiv 1000 + timeoutMs.tmod 1000 = timeoutMs :=
    Int.mul_tdiv_add_tmod timeoutMs 1000
  have hlt : timeoutMs.tmod 1000 < 1000 := Int.tmod_lt_of_pos timeoutMs (by norm_num)
  rw [Amounts, ofMillis]
  dsimp only
  omega

/-- The call is made with the port `port`, or sets the timeout `timeout`, or has no part in it. -/
def Carries (port timeout : ℤ) : SockCall → Prop
  | .getaddrinfo _ service => service = ascii (toString port)
  | .setsockopt _ _ tv => tv.Amounts timeout
  | _ => True

/-- The robot connects to the port `port`, and every timeout that it sets is `timeout`, whatever
the answers to its calls are. -/
structure RobotConf.Keeps (conf : RobotConf) (port timeout : ℤ) : Prop where
  /-- The argument of `connect_tcp`. -/
  connectTcp : conf.port = port
  attemptConnection : ∀ r : Robot,
    (r.attemptConnection conf : Prog SockCalls String (Bool × Robot)).Calls (Carries port timeout)
  sendAndReceive : ∀ (r : Robot) (request : RapidRequest),
    (r.sendAndReceive conf request).Calls (Carries port timeout)

section Calls

variable {ε : Type} {port timeout timeoutMs : ℤ} {conf : RobotConf}

theorem calls_setTimeouts (h : (Timeval.ofMillis timeoutMs).Amounts timeout) (fd : Option ℕ) :
    (setTimeouts fd timeoutMs : Prog SockCalls ε Bool).Calls (Carries port timeout) := by
  cases fd with
  | none => trivial
  | some fd =>
    refine ⟨h, fun rcv => ?_⟩
    cases rcv with
    | false => trivial
    | true => exact ⟨h, fun _ => trivial⟩

theorem calls_connectTcp (h : (Timeval.ofMillis timeoutMs).Amounts timeout) (host : Bytes) :
    (connectTcp host port timeoutMs : Prog SockCalls ε (Option ℕ)).Calls
      (Carries port timeout) := by
  refine ⟨rfl, fun res => ?_⟩
  cases res with
  | none => trivial
  | some res =>
    refine ⟨trivial, fun fd => ?_⟩
    cases fd with
    | none => exact ⟨trivial, fun _ => trivial⟩
    | some fd =>
      refine (calls_setTimeouts h (some fd)).bind fun _ => ⟨trivial, fun ok => ?_⟩
      cases ok with
      | true => exact ⟨trivial, fun _ => trivial⟩
      | false => exact ⟨trivial, fun _ => ⟨trivial, fun _ => trivial⟩⟩

theorem calls_sendLoop (fd : ℕ) (image : Bytes) (sent : ℕ) :
    (Robot.sendLoop fd image sent : Prog SockCalls ε Bool).Calls (Carries port timeout) := by
  induction hleft : image.length - sent using Nat.strong_induction_on generalizing sent with
  | _ left ih =>
    rw [Robot.sendLoop]
    by_cases hsent : sent < image.length
    · rw [dif_pos hsent]
      refine ⟨trivial, fun (n : ℤ) => ?_⟩
      show (if hn : 0 < n then _ else _ : Prog SockCalls ε Bool).Calls _
      by_cases hn : 0 < n
      · rw [dif_pos hn]
        exact ih _ (by omega) _ rfl
      · rw [dif_neg hn]
        trivial
    · rw [dif_neg hsent]
      trivial

theorem calls_attemptConnection (h : (Timeval.ofMillis conf.timeoutMs).Amounts timeout)
    (r : Robot) : (r.attemptConnection conf : Prog SockCalls ε (Bool × Robot)).Calls
      (Carries conf.port timeout) := by
  rw [Robot.attemptConnection, Prog.calls_ite]
  refine ⟨fun _ => trivial, fun _ => (calls_connectTcp h conf.host).bind fun fd => ?_⟩
  rw [Prog.calls_ite]
  exact ⟨fun _ => trivial, fun _ => trivial⟩

theorem calls_receiveBuffer (h : (Timeval.ofMillis conf.timeoutMs).Amounts timeout) (fd : ℕ) :
    (Robot.receiveBuffer conf fd).Calls (Carries port timeout) := by
  refine (calls_setTimeouts h (some fd)).bind fun _ => ⟨trivial, fun received => ?_⟩
  cases received with
  | none => trivial
  | some bytes =>
    show (if bytes.length ≤ 0 then _ else _ : Prog SockCalls String Bytes).Calls _
    rw [Prog.calls_ite]
    exact ⟨fun _ => trivial, fun _ => trivial⟩

theorem calls_sendAndReceive (h : (Timeval.ofMillis conf.timeoutMs).Amounts timeout) (r : Robot)
    (request : RapidRequest) : (r.sendAndReceive conf request).Calls (Carries port timeout) := by
  rw [Robot.sendAndReceive]
  split
  · trivial
  · rename_i fd hfd
    refine (calls_sendLoop fd request.image 0).bind fun ok => ?_
    rw [Prog.calls_ite]
    exact ⟨fun _ => trivial, fun _ => calls_receiveBuffer h fd⟩

/-- A robot that connects sets its timeout. -/
theorem amounts_of_attemptConnection
    (h : (Robot.attemptConnection conf {} : Prog SockCalls ε (Bool × Robot)).Calls
      (Carries port timeout)) : (Timeval.ofMillis conf.timeoutMs).Amounts timeout := by
  obtain ⟨-, hfound⟩ := h
  -- the address is found, and there is a socket
  obtain ⟨-, hsocket⟩ := hfound (some 0)
  exact (hsocket (some 0)).1

end Calls

/-- **The robot makes its calls with what its constructor was given.** -/
theorem RobotConf.keeps_iff {conf : RobotConf} {port timeout : ℤ} :
    conf.Keeps port timeout ↔
      conf.port = port ∧ conf.timeoutMs = timeout ∧ 0 ≤ conf.timeoutMs.tmod 1000 := by
  rw [← Timeval.amounts_ofMillis_iff]
  constructor
  · intro h
    exact ⟨h.connectTcp, amounts_of_attemptConnection (h.attemptConnection {})⟩
  · rintro ⟨rfl, h⟩
    exact ⟨rfl, calls_attemptConnection h, calls_sendAndReceive h⟩

/-! ### From the file to the socket -/

/-- What the constructor of `Server` gives to the constructor of `Robot`, which stores it. -/
def Conf.robotConf (conf : Conf) : RobotConf where
  host := conf.robot.ip
  port := conf.robot.port.toNat
  timeoutMs := conf.robot.timeout.toNat

/-- If the file is accepted, the robot connects to the port `port` and sets the timeout
`timeout`. -/
def LimitsLaw (Y : Yaml) (path : Bytes) (port timeout : Int32) : Prop :=
  ∀ conf : Conf, parseConf Y path = .ok conf → conf.robotConf.Keeps port.toInt timeout.toInt

section Law

variable {Y : Yaml} {path : Bytes} {conf : Conf} {port timeout : Int32}

/-- The limits of an accepted file. -/
theorem keeps_robotConf_iff (hport : Y.robotInt path "port" = .ok port)
    (htimeout : Y.robotInt path "timeout" = .ok timeout) (h : parseConf Y path = .ok conf) :
    conf.robotConf.Keeps port.toInt timeout.toInt ↔
      (0 ≤ port.toInt ∧ port.toInt < 2 ^ 16) ∧ 0 ≤ timeout.toInt ∧ timeout.toInt < 2 ^ 16 := by
  obtain ⟨hstored, hstored'⟩ := limits_of_parseConf hport htimeout h
  have hremainder : 0 ≤ conf.robotConf.timeoutMs.tmod 1000 :=
    Int.tmod_nonneg 1000 (Int.natCast_nonneg _)
  rw [RobotConf.keeps_iff, ← narrow_eq_iff, ← narrow_eq_iff, ← hstored, ← hstored']
  exact and_congr_right fun _ => and_iff_left hremainder

/-- **Which limits reach the socket.** Those of a file that is rejected for something else do so
vacuously. Else both numbers have to fit in sixteen bits, without a sign. -/
theorem limitsLaw_iff (hport : Y.robotInt path "port" = .ok port)
    (htimeout : Y.robotInt path "timeout" = .ok timeout) :
    LimitsLaw Y path port timeout ↔ ¬ Y.OthersRead path ∨
      (0 ≤ port.toInt ∧ port.toInt < 2 ^ 16) ∧ 0 ≤ timeout.toInt ∧ timeout.toInt < 2 ^ 16 := by
  rw [← parseConf_accepts_iff hport htimeout]
  constructor
  · intro hlaw
    rw [or_iff_not_imp_left, not_not]
    rintro ⟨conf, hconf⟩
    exact (keeps_robotConf_iff hport htimeout hconf).mp (hlaw conf hconf)
  · rintro (hrejected | hfits) conf hconf
    · exact absurd ⟨conf, hconf⟩ hrejected
    · exact (keeps_robotConf_iff hport htimeout hconf).mpr hfits

end Law

set_option maxRecDepth 2000 in
/-- The configuration that comes with the sources. -/
theorem limitsLaw_iff_shipped :
    LimitsLaw (.ofTree (confTree (ascii "5000") (ascii "30000"))) (ascii "config.yaml")
      5000 30000 :=
  (limitsLaw_iff rfl rfl).mpr (.inr (by decide))

set_option maxRecDepth 2000 in
/-- **A timeout of seventy seconds.** The file is accepted, and the timeout that is set is less than
five seconds. -/
theorem limitsLaw_fails :
    (∃ conf, parseConf (.ofTree (confTree (ascii "5000") (ascii "70000")))
        (ascii "config.yaml") = .ok conf ∧
      Timeval.ofMillis conf.robotConf.timeoutMs = ⟨4, 464000⟩) ∧
    ¬ LimitsLaw (.ofTree (confTree (ascii "5000") (ascii "70000"))) (ascii "config.yaml")
      5000 70000 := by
  have haccepted : ∃ conf, parseConf (.ofTree (confTree (ascii "5000") (ascii "70000")))
      (ascii "config.yaml") = .ok conf ∧ conf.robotConf.timeoutMs = 4464 := ⟨_, rfl, rfl⟩
  obtain ⟨conf, hconf, htimeout⟩ := haccepted
  refine ⟨⟨conf, hconf, by rw [htimeout]; rfl⟩, fun hlaw => ?_⟩
  have hset := (RobotConf.keeps_iff.mp (hlaw conf hconf)).2.1
  rw [htimeout] at hset
  revert hset
  decide

end RobertMiddleware
