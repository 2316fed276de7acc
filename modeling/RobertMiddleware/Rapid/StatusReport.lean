import RobertMiddleware.Rapid.TelemetryStatus
import RobertMiddleware.Rapid.Verdict

/-!
# Reporting the status

A run of `parse_message` for `"GETSTATUS"` asks for the state of the controller piece by piece, and
while it does the state may change, or a call may fail. When it sends the status, the status is made
of what the calls have answered, each of them once.

## Main results

* `Passes.actionCmd_eq` — the command of an action is the command byte of its request
* `ran_status` — the calls of a status request
* `RapidServer.CountOk.status` — what was sent is what was answered
-/

namespace RobertMiddleware

namespace Rapid

open Effects

section Status

variable {R : RapidSystem} {raw : Bytes} {tr tr' : Calls}

/-- The command is that of the first byte. -/
theorem Passes.actionCmd_eq {args : ActionArgs} (h : Passes R raw args) :
    args.actionCmd = commandToString (unpackUsint raw 1) := by
  by_contra hne
  -- a routine that tells the command from others, and one that does not
  have hpassed := h fun args =>
    if args.actionCmd = commandToString (unpackUsint raw 1) then .pure () else .throw 0
  have hsilent := h fun _ => .pure ()
  rw [if_neg hne] at hpassed
  rw [parseMessageWith] at hpassed hsilent
  by_cases hlen : raw.length < 4
  · rw [if_pos hlen] at hpassed
    cases hpassed
  · simp only [if_neg hlen, if_true] at hpassed hsilent
    split_ifs at hpassed hsilent
    -- the error of `value_to_zone` would be raised in both cases
    cases hzone : valueToZone R.errFncNoRet (unpackUsint raw 2) with
    | ok zone =>
      rw [hzone] at hpassed
      cases hpassed
    | error e =>
      rw [hzone] at hsilent
      cases hsilent

theorem untouched_answer {p : Primitive} (hp : p.moves = false) (r : Except Errno p.Answer) :
    Untouched [⟨.primitive p, r⟩] :=
  untouched_of_passive fun ev hev => by
    rw [List.mem_singleton.mp hev]
    exact hp

/-- What is still to come after an answer. -/
theorem untouched_cons {p : Primitive} (hp : p.moves = false) (r : Except Errno p.Answer)
    (h : Untouched tr) : Untouched (⟨.primitive p, r⟩ :: tr) :=
  (untouched_answer hp r).append h

/-- The status is made of the answers. -/
theorem emits_handleGetState_status : handleGetState.Emits fun res es => match res with
    | .ok () => ∃ c, es = statusTrace c
    | .error _ => Untouched es := by
  intro target
  cases target with
  | error e => exact untouched_answer rfl _
  | ok target =>
    intro joints
    cases joints with
    | error e => exact untouched_cons rfl _ (untouched_answer rfl _)
    | ok joints =>
      intro speedOverride
      cases speedOverride with
      | error e => exact untouched_cons rfl _ (untouched_cons rfl _ (untouched_answer rfl _))
      | ok speedOverride =>
        intro time
        cases time with
        | error e =>
          exact untouched_cons rfl _ (untouched_cons rfl _ (untouched_cons rfl _
            (untouched_answer rfl _)))
        | ok time =>
          intro date
          cases date with
          | error e =>
            exact untouched_cons rfl _ (untouched_cons rfl _ (untouched_cons rfl _
              (untouched_cons rfl _ (untouched_answer rfl _))))
          | ok date =>
            intro v z r
            let c : Controller :=
              { moveSpeed := v
                moveZone := z
                speedOverride
                robTarget := target
                jointTarget := joints
                time
                date }
            exact ⟨c, rfl⟩

/-- The calls of a run that reports the status `c`. -/
def reportTrace (t : Vector UInt8 8) (c : Controller) : Calls :=
  ⟨.primitive .cTime, Except.ok t⟩ :: statusTrace c

theorem responsesOf_reportTrace (t : Vector UInt8 8) (c : Controller) :
    responsesOf (reportTrace t c) = [telemetryBuffer c] := rfl

theorem emits_executeAction_status :
    (executeAction R { actionCmd := "GETSTATUS" }).Emits fun _ es =>
      (∃ t c, es = reportTrace t c) ∨ Refusal es := by
  refine Prog.emits_tryCatch.mpr ?_
  have herror : ∀ {es : Calls} (e : Errno), Untouched es → (actionError R e).Emits fun _ es' =>
      (∃ t c, es ++ es' = reportTrace t c) ∨ Refusal (es ++ es') := fun e hes =>
    (emits_actionError_verdict e).mono fun _ es' hes' => .inr (hes.refusal.append hes')
  intro t
  cases t with
  | error e => exact herror e (untouched_answer rfl _)
  | ok t =>
    refine (show handleGetState.Emits _ from emits_handleGetState_status).mono ?_
    rintro (e | a) es hes
    · exact herror e (untouched_cons rfl _ hes)
    · obtain ⟨c, rfl⟩ := hes
      exact .inl ⟨t, c, rfl⟩

theorem ran_status {res : Except Errno Unit} (h : RapidServer.Ran R raw res tr)
    (hcmd : commandToString (unpackUsint raw 1) = "GETSTATUS") :
    (∃ t c, tr = reportTrace t c) ∨ Refusal tr := by
  have hemits : (parseMessage R raw raw.length).Emits fun _ es =>
      (∃ t c, es = reportTrace t c) ∨ Refusal es := by
    rw [parseMessage, parseMessageWith]
    split
    · exact .inr untouched_nil.refusal
    · rw [hcmd]
      exact emits_executeAction_status
  obtain ⟨c, c', hrun⟩ := h
  obtain ⟨es, heq, hes⟩ := hemits.exec (fun _ _ henv => henv.2) hrun
  obtain rfl : tr = es := heq
  exact hes

/-- The response is the last call of such a run. -/
theorem eq_of_append_reportTrace {t : Vector UInt8 8} {c : Controller}
    (h : tr ++ tr' = reportTrace t c) (hsome : responsesOf tr ≠ []) : tr = reportTrace t c := by
  rcases List.eq_nil_or_concat tr' with rfl | ⟨front, last, rfl⟩
  · rwa [List.append_nil] at h
  · have hsplit : reportTrace t c = (⟨.primitive .cTime, Except.ok t⟩ ::
        (statusTrace c).dropLast) ++ [⟨.sendBinaryResponse (telemetryBuffer c), ()⟩] := rfl
    rw [List.concat_eq_append, ← List.append_assoc, hsplit] at h
    obtain ⟨hfront, -⟩ := List.append_inj' h rfl
    have hnone : responsesOf (tr ++ front) = [] := by
      rw [hfront]
      rfl
    rw [responsesOf_append] at hnone
    exact absurd (List.append_eq_nil_iff.mp hnone).1 hsome

end Status

namespace RapidServer

variable {R : RapidSystem} {errSockTimeout : Errno} {s : RapidServer}

/-- **The status sent is the status answered**, also while the run is not over. -/
theorem CountOk.status (hs : CountOk R errSockTimeout s) {x : Execution} (hx : x ∈ s.taken)
    {value : Bytes} (hone : responsesOf x.calls = [value])
    (hcmd : commandToString (unpackUsint x.raw 1) = "GETSTATUS")
    (hvalue : ¬ ascii "NACK|" <+: value) :
    ∃ t c, x.calls = reportTrace t c ∧ value = telemetryBuffer c := by
  have hcalls : ∃ t c, x.calls = reportTrace t c := by
    have hran : ∃ res ext, Ran R x.raw res (x.calls ++ ext) := by
      rcases List.mem_append.mp hx with hdone | hcurrent
      · obtain ⟨-, ⟨res, hran⟩, -⟩ := hs.executed_once hdone
        exact ⟨res, [], by rwa [List.append_nil]⟩
      · cases hpc : s.pc with
        | parsing conn raw calls rest =>
          rw [hpc] at hcurrent
          obtain rfl := List.mem_singleton.mp hcurrent
          obtain ⟨-, hrunning, -⟩ := hs.current hpc
          obtain ⟨res, ext, -, hran⟩ := hrunning.completes
          exact ⟨res, ext, hran⟩
        | _ =>
          rw [hpc] at hcurrent
          cases hcurrent
    obtain ⟨res, ext, hran⟩ := hran
    rcases ran_status hran hcmd with ⟨t, c, heq⟩ | hrefusal
    · exact ⟨t, c, eq_of_append_reportTrace heq (by rw [hone]; exact List.cons_ne_nil _ _)⟩
    · refine absurd (hrefusal.nack value ?_) hvalue
      rw [responsesOf_append, hone]
      exact List.mem_append_left _ (List.mem_singleton_self _)
  obtain ⟨t, c, heq⟩ := hcalls
  rw [heq, responsesOf_reportTrace] at hone
  exact ⟨t, c, heq, (List.singleton_inj.mp hone).symm⟩

end RapidServer

end Rapid

end RobertMiddleware
