import RobertMiddleware.Rapid.MotionRequest
import RobertMiddleware.Rapid.Replies

/-!
# The range of the speed

The client sends its speed as a `float`. `create_rapid_request` converts it to the two bytes of the
request, and the controller compares what arrives with its limits. The comparison comes after the
conversion. So a speed that two bytes do not hold is lost before it can be refused, and a speed
whose fraction alone is above the limit is accepted.

## Main definitions

* `Steady` — the run of a controller whose fastest speed is `maxSpeed` and where nothing fails
* `SpeedLaw` — a request to set the speed is answered as the client's number asks

## Main results

* `exec_setSpeed` — what the controller does with the number that arrives
* `speedLaw_iff` — the speeds that are answered so
-/

namespace RobertMiddleware

namespace Rapid

open ByteLayout Effects

/-! ### Runs where nothing fails -/

/-- `MaxRobSpeed` answers `maxSpeed`, and no function raises an error. -/
def SteadyAnswer (maxSpeed : Single) : Event RapidCalls → Prop
  | ⟨.primitive .maxRobSpeed, r⟩ => r = .ok maxSpeed
  | ⟨.primitive p, r⟩ => ∃ a : p.Answer, r = .ok a
  | _ => True

/-- Every answer in the run is so. -/
def Steady (maxSpeed : Single) (tr : Calls) : Prop := ∀ ev ∈ tr, SteadyAnswer maxSpeed ev

/-- The responses to the client, in order. -/
def responses (tr : Calls) : List RapidOp := (tr.filter isReply).map Sigma.fst

@[simp] theorem responses_append (tr tr' : Calls) :
    responses (tr ++ tr') = responses tr ++ responses tr' := by
  simp [responses]

/-- A controller at rest whose fastest speed is `maxSpeed`. -/
def steadyStep (maxSpeed : Single) : (op : RapidOp) → Controller → op.Ret × Controller
  | .primitive .maxRobSpeed, c => (.ok maxSpeed, c)
  | op, c => rapidStep (fun _ => none) op c

theorem rapidSem_steadyStep (maxSpeed : Single) (op : RapidOp) (c : Controller) :
    rapidSem op c (steadyStep maxSpeed op c).1 (steadyStep maxSpeed op c).2 := by
  cases op with
  | primitive p =>
    cases p with
    | maxRobSpeed => exact ⟨fun _ _ => trivial, c.robTarget, c.jointTarget, rfl⟩
    | _ => exact rapidSem_rapidStep (fun _ => none) _ c
  | _ => exact rapidSem_rapidStep (fun _ => none) _ c

theorem steadyAnswer_steadyStep (maxSpeed : Single) (op : RapidOp) (c : Controller) :
    SteadyAnswer maxSpeed ⟨op, (steadyStep maxSpeed op c).1⟩ := by
  cases op with
  | primitive p =>
    cases p with
    | maxRobSpeed => rfl
    | _ => exact ⟨_, rfl⟩
  | _ => trivial

/-- Every request has such a run. -/
theorem exists_steady (R : RapidSystem) (maxSpeed : Single) (c : Controller) (raw : Bytes) :
    ∃ (res : Except Errno Unit) (c' : Controller) (tr : Calls),
      (parseMessage R raw raw.length).Exec rapidSem.traced Between (c, []) res (c', tr) ∧
        Steady maxSpeed tr :=
  ⟨_, _, _, Prog.exec_play (rapidSem_steadyStep maxSpeed) (fun s => ⟨.refl s.1, rfl⟩) _ c [],
    Prog.forall_play (steadyAnswer_steadyStep maxSpeed) _ c⟩

/-! ### What the controller does -/

/-- The record and the speed, after a response and possibly a new speed. -/
def SpeedAnswered (speed : Single) (response : String) (s : Controller × Calls) : Prop :=
  responses s.2 = [.sendResponse response] ∧ s.1.moveSpeed = speed

section Rules

variable {maxSpeed : Single} {c : Controller} {tr : Calls}

/-- The semantics of the runs where nothing fails. -/
abbrev steadySem (maxSpeed : Single) : Semantics RapidCalls (Controller × Calls) :=
  (rapidSem.restrict (SteadyAnswer maxSpeed)).traced

/-- No response so far, and the speed is `speed`. -/
def NotAnswered (speed : Single) (s : Controller × Calls) : Prop :=
  responses s.2 = [] ∧ s.1.moveSpeed = speed

/-- A function of the system that does not fail. -/
theorem wp_attempt_steady {α : Type} {p : Primitive} {f : p.Answer → Routine α} {speed : Single}
    {Q : Except Errno α → Controller × Calls → Prop} (hmoves : p.moves = false)
    {s : Controller × Calls} (hs : NotAnswered speed s)
    (hf : ∀ (a : p.Answer) (s' : Controller × Calls), SteadyAnswer maxSpeed ⟨.primitive p, .ok a⟩ →
      NotAnswered speed s' → (f a).Wp (steadySem maxSpeed) Between (fun _ _ => True) Q s') :
    ((attempt p).bind f).Wp (steadySem maxSpeed) Between (fun _ _ => True) Q s := by
  rintro s₁ ⟨hdrift, htr⟩
  refine ⟨trivial, ?_⟩
  rintro r s₂ ⟨⟨⟨-, t, j, hc⟩, hsteady⟩, htrace⟩
  obtain ⟨a, rfl⟩ : ∃ a : p.Answer, r = .ok a := by
    cases p with
    | maxRobSpeed => exact ⟨maxSpeed, hsteady⟩
    | _ => exact hsteady
  refine hf a s₂ hsteady ⟨?_, ?_⟩
  · rw [htrace, responses_append, htr, hs.1]
    rfl
  · rw [hc, hmoves]
    exact hdrift.1.trans hs.2

/-- The response. -/
theorem wp_sendResponse_steady {speed : Single} {response : String} {s : Controller × Calls}
    (hs : NotAnswered speed s) :
    (sendResponse response).Wp (steadySem maxSpeed) Between (fun _ _ => True)
      (fun res s' => res = .ok () ∧ SpeedAnswered speed response s') s := by
  rintro s₁ ⟨hdrift, htr⟩
  refine ⟨trivial, ?_⟩
  rintro r s₂ ⟨⟨hc, -⟩, htrace⟩
  refine ⟨rfl, ?_, ?_⟩
  · rw [htrace, responses_append, htr, hs.1]
    rfl
  · rw [show s₂.1 = s₁.1 from hc]
    exact hdrift.1.trans hs.2

/-- What the controller answers to the number `speed`, and the speed that it sets. -/
def speedAnswer (maxSpeed : Single) (speed : ℕ) (old : Single) : Single × String :=
  if speed < 5 ∨ maxSpeed.ltRat speed = true then (old, "NACK|SPEED_OUT_OF_RANGE")
  else (Single.ofNat speed, "ACK|SetSpeed")

/-- The case `"SetSpeed"`. -/
theorem wp_setSpeed {speed : ℕ} {old : Single} {s : Controller × Calls}
    (hs : NotAnswered old s) :
    (setSpeed speed).Wp (steadySem maxSpeed) Between (fun _ _ => True)
      (fun res s' => res = .ok () ∧ SpeedAnswered (speedAnswer maxSpeed speed old).1
        (speedAnswer maxSpeed speed old).2 s') s := by
  -- a refusal asks for the fastest speed once more, for the operator
  have hrefuse : (speed < 5 ∨ maxSpeed.ltRat speed = true) → ∀ s' : Controller × Calls,
      NotAnswered old s' → ((attempt .maxRobSpeed).bind fun _ =>
        sendResponse "NACK|SPEED_OUT_OF_RANGE").Wp (steadySem maxSpeed) Between (fun _ _ => True)
          (fun res s' => res = .ok () ∧ SpeedAnswered (speedAnswer maxSpeed speed old).1
            (speedAnswer maxSpeed speed old).2 s') s' := by
    intro hout s' hs'
    rw [speedAnswer, if_pos hout]
    exact wp_attempt_steady rfl hs' fun _ s'' _ hs'' => wp_sendResponse_steady hs''
  rw [setSpeed, speedOutOfRange, Prog.bind_eq]
  by_cases hslow : speed < 5
  · rw [if_pos hslow]
    exact hrefuse (.inl hslow) s hs
  rw [if_neg hslow, Prog.bind_eq, Prog.bind_assoc]
  refine wp_attempt_steady rfl hs fun limit s' hlimit hs' => ?_
  obtain rfl : limit = maxSpeed := Except.ok.inj hlimit
  rw [Prog.pure_eq, Prog.pure_bind]
  by_cases hfast : limit.ltRat speed = true
  · rw [if_pos hfast]
    exact hrefuse (.inr hfast) s' hs'
  · rw [if_neg hfast, speedAnswer, if_neg (not_or.mpr ⟨hslow, hfast⟩)]
    rintro s₁ ⟨hdrift, htr⟩
    refine ⟨trivial, ?_⟩
    rintro r s₂ ⟨⟨hc, -⟩, htrace⟩
    refine wp_sendResponse_steady ⟨?_, ?_⟩
    · rw [htrace, responses_append, htr, hs'.1]
      rfl
    · rw [show s₂.1 = { s₁.1 with moveSpeed := Single.ofNat speed } from hc]

end Rules

/-! ### Requests to set the speed -/

theorem unpackUint_speed (msg : RapidRequest) : unpackUint msg.image 3 = msg.speed.toNat := by
  rw [unpackUint, rawBytes_eq_slice (by rw [RapidRequest.length_image]; omega)]
  show ofLeBytes (leBytes 2 msg.speed.toNat) = msg.speed.toNat
  exact ofLeBytes_leBytes_of_lt msg.speed.toNat_lt

/-- The request to set the speed to `speed`. -/
def setSpeedRequest (speed : UInt16) : RapidRequest :=
  { RapidRequest.zero with commandId := RapidCommandType.setSpeed.toUInt8, speed }

theorem createRapidRequest_setSpeed {P : Platform} {req : DecodedRequest}
    (h : req.cmdType = .setSpeed) :
    createRapidRequest P req = .ok (setSpeedRequest (P.toUint16 req.speed)) := by
  rw [createRapidRequest, h]
  rfl

/-- The request goes to the case `"SetSpeed"` with the number in bytes three and four. -/
theorem parseMessage_setSpeed (R : RapidSystem) {msg : RapidRequest}
    (h : msg.commandId = RapidCommandType.setSpeed.toUInt8) :
    parseMessage R msg.image msg.image.length =
      executeAction R { actionCmd := "SetSpeed", speed := some msg.speed.toNat } := by
  have hcmd : commandToString (unpackUsint msg.image 1) = "SetSpeed" := by
    rw [unpackUsint_image, h]
    decide
  rw [parseMessage, parseMessageWith, hcmd, unpackUint_speed, RapidRequest.length_image]
  rfl

/-- **What the controller does.** When nothing fails, it answers a request to set the speed once,
as its comparison of the number that arrived says. -/
theorem exec_setSpeed {R : RapidSystem} {maxSpeed : Single} {msg : RapidRequest}
    (h : msg.commandId = RapidCommandType.setSpeed.toUInt8) {c c' : Controller}
    {res : Except Errno Unit} {tr : Calls}
    (hrun : (parseMessage R msg.image msg.image.length).Exec rapidSem.traced Between (c, []) res
      (c', tr)) (hsteady : Steady maxSpeed tr) :
    SpeedAnswered (speedAnswer maxSpeed msg.speed.toNat c.moveSpeed).1
      (speedAnswer maxSpeed msg.speed.toNat c.moveSpeed).2 (c', tr) := by
  have hrun' := hrun.restrict (fun _ _ hbetween => hbetween.2) hsteady
  rw [parseMessage_setSpeed R h] at hrun'
  have hwp : (executeAction R { actionCmd := "SetSpeed", speed := some msg.speed.toNat }).Wp
      (steadySem maxSpeed) Between (fun _ _ => True)
      (fun _ s' => SpeedAnswered (speedAnswer maxSpeed msg.speed.toNat c.moveSpeed).1
        (speedAnswer maxSpeed msg.speed.toNat c.moveSpeed).2 s') (c, []) := by
    rw [executeAction, Prog.wp_tryCatch]
    refine wp_attempt_steady rfl ⟨rfl, rfl⟩ fun _ s' _ hs' => ?_
    refine (wp_setSpeed hs').mono (fun _ _ h => h) ?_
    rintro _ s'' ⟨rfl, hs''⟩
    exact hs''
  exact hwp.exec hrun'

/-- The answer to the client's number `speed`. If it is below five or above the fastest speed, it is
refused and the speed stays; if not, it is acknowledged, and the speed is its integer part. -/
def AnsweredAs (maxSpeed speed : Single) (c c' : Controller) (tr : Calls) : Prop :=
  if speed.toRat < 5 ∨ maxSpeed.toRat < speed.toRat then
    responses tr = [.sendResponse "NACK|SPEED_OUT_OF_RANGE"] ∧ c'.moveSpeed = c.moveSpeed
  else responses tr = [.sendResponse "ACK|SetSpeed"] ∧ c'.moveSpeed.toRat = speed.trunc

/-- The law of a request to set the speed: its number is converted within the range of two bytes,
and whenever the controller carries it out it is answered so. -/
def SpeedLaw (P : Platform) (R : RapidSystem) (maxSpeed : Single) (c : Controller)
    (req : DecodedRequest) : Prop :=
  (0 ≤ req.speed.trunc ∧ req.speed.trunc < 2 ^ 16) ∧
    ∃ msg : RapidRequest, createRapidRequest P req = .ok msg ∧
      ∀ (res : Except Errno Unit) (c' : Controller) (tr : Calls),
        (parseMessage R msg.image msg.image.length).Exec rapidSem.traced Between (c, []) res
          (c', tr) → Steady maxSpeed tr → AnsweredAs maxSpeed req.speed c c' tr

/-- The number is above the fastest speed by its fraction only. -/
def FastByFraction (maxSpeed speed : Single) : Prop :=
  5 ≤ speed.toRat ∧ maxSpeed.toRat < speed.toRat ∧ (speed.trunc : ℚ) ≤ maxSpeed.toRat

instance (maxSpeed speed : Single) : Decidable (FastByFraction maxSpeed speed) :=
  inferInstanceAs (Decidable (_ ∧ _))

section Law

variable {P : Platform} {R : RapidSystem} {maxSpeed : Single} {c c' : Controller}

/-- A number in the range is converted to its integer part. -/
theorem toUint16_eq {s : Single} {n : ℕ} (hn : s.trunc = n) (hlt : n < 2 ^ 16) :
    (P.toUint16 s).toNat = n := by
  have hrange : 0 ≤ s.trunc ∧ s.trunc < 2 ^ 16 := by
    rw [hn]
    exact ⟨n.cast_nonneg, by exact_mod_cast hlt⟩
  rw [Platform.toUint16, if_pos hrange, hn, Int.toNat_natCast, UInt16.toNat_ofNat']
  exact Nat.mod_eq_of_lt hlt

theorem range_iff (s : Single) :
    (0 ≤ s.trunc ∧ s.trunc < 2 ^ 16) ↔ -1 < s.toRat ∧ s.toRat < 65536 := by
  rw [s.trunc_nonneg_iff, s.trunc_lt_iff (by norm_num)]
  norm_num

/-- What the controller answers to the integer part is what the number asks, unless it is above the
fastest speed by its fraction only. -/
theorem answeredAs_iff (hmax : maxSpeed.Finite) {s : Single} {n : ℕ} (hn : s.trunc = n)
    (hlt : n < 2 ^ 16) {tr : Calls}
    (hanswer : SpeedAnswered (speedAnswer maxSpeed n c.moveSpeed).1
      (speedAnswer maxSpeed n c.moveSpeed).2 (c', tr)) :
    AnsweredAs maxSpeed s c c' tr ↔ ¬ FastByFraction maxSpeed s := by
  have hslow : n < 5 ↔ s.toRat < 5 := by
    have hfive := s.trunc_lt_iff (n := 5) (by norm_num)
    rw [hn] at hfive
    exact_mod_cast hfive
  obtain ⟨hresponse, hspeed⟩ := hanswer
  rw [AnsweredAs, FastByFraction, hn, Int.cast_natCast]
  by_cases hs : s.toRat < 5
  · rw [speedAnswer, if_pos (.inl (hslow.mpr hs))] at hresponse hspeed
    rw [if_pos (.inl hs)]
    refine iff_of_true ⟨hresponse, hspeed⟩ ?_
    intro hfast
    exact absurd hs (not_lt.mpr hfast.1)
  have hle : (n : ℚ) ≤ s.toRat := by
    have htrunc := (Single.trunc_le_toRat (s := s) (by linarith)).1
    rw [hn] at htrunc
    exact_mod_cast htrunc
  by_cases hfast : maxSpeed.toRat < n
  · have hlimit : maxSpeed.ltRat n = true := (hmax.ltRat_iff n).mpr hfast
    rw [speedAnswer, if_pos (.inr hlimit)] at hresponse hspeed
    rw [if_pos (.inr (hfast.trans_le hle))]
    refine iff_of_true ⟨hresponse, hspeed⟩ ?_
    intro hfraction
    exact absurd hfast (not_lt.mpr hfraction.2.2)
  -- the integer part is acknowledged
  have hlimit : ¬ (n < 5 ∨ maxSpeed.ltRat n = true) := by
    rintro (hn5 | hn')
    · exact hs (hslow.mp hn5)
    · exact hfast ((hmax.ltRat_iff n).mp hn')
  rw [speedAnswer, if_neg hlimit] at hresponse hspeed
  by_cases habove : maxSpeed.toRat < s.toRat
  · rw [if_pos (.inr habove)]
    refine iff_of_false ?_ ?_
    · rintro ⟨hrefused, -⟩
      rw [hresponse] at hrefused
      simp at hrefused
    · intro hnot
      exact hnot ⟨not_lt.mp hs, habove, not_lt.mp hfast⟩
  · rw [if_neg (not_or.mpr ⟨hs, habove⟩)]
    refine iff_of_true ⟨hresponse, ?_⟩ ?_
    · rw [show c'.moveSpeed = Single.ofNat n from hspeed, Single.toRat_ofNat (by omega)]
    · intro hfraction
      exact habove hfraction.2.1

/-- **Which speeds are answered so.** Those above `-1` and below `65536`, without the ones that are
above the fastest speed by their fraction only. -/
theorem speedLaw_iff {req : DecodedRequest} (hcmd : req.cmdType = .setSpeed)
    (hmax : maxSpeed.Finite) :
    SpeedLaw P R maxSpeed c req ↔ -1 < req.speed.toRat ∧ req.speed.toRat < 65536 ∧
      ¬ FastByFraction maxSpeed req.speed := by
  rw [SpeedLaw, range_iff, ← and_assoc]
  refine and_congr_right fun hin => ?_
  obtain ⟨h0, h16⟩ := (range_iff req.speed).mpr hin
  obtain ⟨n, hn⟩ := Int.eq_ofNat_of_zero_le h0
  have hlt : n < 2 ^ 16 := by
    rw [hn] at h16
    exact_mod_cast h16
  have hanswer : ∀ {res : Except Errno Unit} {c' : Controller} {tr : Calls},
      (parseMessage R (setSpeedRequest (P.toUint16 req.speed)).image
        (setSpeedRequest (P.toUint16 req.speed)).image.length).Exec rapidSem.traced Between (c, [])
          res (c', tr) → Steady maxSpeed tr →
      (AnsweredAs maxSpeed req.speed c c' tr ↔ ¬ FastByFraction maxSpeed req.speed) := by
    intro res c' tr hrun hsteady
    have hexec := exec_setSpeed rfl hrun hsteady
    rw [show (setSpeedRequest (P.toUint16 req.speed)).speed.toNat = n from toUint16_eq hn hlt]
      at hexec
    exact answeredAs_iff hmax hn hlt hexec
  constructor
  · rintro ⟨msg, hmsg, hall⟩
    obtain rfl := Except.ok.inj ((createRapidRequest_setSpeed hcmd).symm.trans hmsg)
    obtain ⟨res, c', tr, hrun, hsteady⟩ := exists_steady R maxSpeed c
      (setSpeedRequest (P.toUint16 req.speed)).image
    exact (hanswer hrun hsteady).mp (hall res c' tr hrun hsteady)
  · intro hfast
    refine ⟨_, createRapidRequest_setSpeed hcmd, ?_⟩
    intro res c' tr hrun hsteady
    exact (hanswer hrun hsteady).mpr hfast

end Law

/-- A request for the number `speed`. -/
def speedRequest (speed : ℕ) : DecodedRequest :=
  { cmdType := .setSpeed, speed := Single.ofNat speed }

/-- A speed of 250 on a robot whose fastest is 7000. -/
theorem speedLaw_iff_250 :
    SpeedLaw .linux .bench (Single.ofNat 7000) .bench (speedRequest 250) :=
  (speedLaw_iff rfl (by decide)).mpr ⟨by decide +kernel, by decide +kernel, by decide +kernel⟩

/-- **A speed of 65636**, which is `2 ^ 16 + 100`. Its conversion leaves the range of two bytes,
whatever the platform makes of it. Where two bytes wrap around, the controller acknowledges it and
sets the speed to 100. -/
theorem speedLaw_fails :
    (∀ (P : Platform) (R : RapidSystem) (c : Controller),
      ¬ SpeedLaw P R (Single.ofNat 7000) c (speedRequest 65636)) ∧
    ∃ (P : Platform) (msg : RapidRequest),
      createRapidRequest P (speedRequest 65636) = .ok msg ∧
      ∃ (res : Except Errno Unit) (c' : Controller) (tr : Calls),
        (parseMessage .bench msg.image msg.image.length).Exec rapidSem.traced Between (.bench, [])
          res (c', tr) ∧ Steady (Single.ofNat 7000) tr ∧
        responses tr = [.sendResponse "ACK|SetSpeed"] ∧ c'.moveSpeed = Single.ofNat 100 := by
  have hlarge : (65536 : ℚ) ≤ (Single.ofNat 65636).toRat := by decide +kernel
  refine ⟨fun P R c hlaw => ?_, ?_⟩
  · have hrange := (range_iff _).mp hlaw.1
    exact absurd hrange.2 (not_lt.mpr hlarge)
  · let wraps : Platform := { Platform.linux with
      uint16OfFloat := fun s => UInt16.ofNat s.trunc.toNat }
    refine ⟨wraps, setSpeedRequest 100, ?_, ?_⟩
    · rw [createRapidRequest_setSpeed rfl]
      decide +kernel
    · obtain ⟨res, c', tr, hrun, hsteady⟩ := exists_steady .bench (Single.ofNat 7000) .bench
        (setSpeedRequest 100).image
      have hanswer := exec_setSpeed rfl hrun hsteady
      have hspeed : speedAnswer (Single.ofNat 7000) (setSpeedRequest 100).speed.toNat
          Controller.bench.moveSpeed = (Single.ofNat 100, "ACK|SetSpeed") := by decide +kernel
      rw [hspeed] at hanswer
      exact ⟨res, c', tr, hrun, hsteady, hanswer.1, hanswer.2⟩

end Rapid

end RobertMiddleware
