import Mathlib.Data.Prod.Basic
import Mathlib.Tactic.Basic

/-!
# Programs that call an environment

A sequential program of a concurrent system is, for everybody else, the sequence of atomic calls
it makes on shared objects. `Prog S ε α` is such a program: it returns a value of type `α`, throws
an exception of type `ε`, or performs one call of the signature `S` and goes on with the answer.

What a call does is not part of the program. A `Semantics S σ` says which answers and which new
states a call may give in a state, and a relation `env` on states says what the rest of the system
may do before each call. Both are relations, so nothing is assumed about who chooses.

## Main definitions

* `Effects.Prog`, with its monad structure and `Prog.tryCatch`
* `Effects.Prog.Exec` — the complete executions of a program, interference included
* `Effects.Prog.play` — one execution, computed from the answers to the calls
* `Effects.Prog.Wp` — the postcondition rule, with a condition on every call made
* `Effects.Semantics.traced` — the same semantics, keeping the calls and their answers
* `Effects.Prog.Follows` — calls that depend on the answers before them
* `Effects.Prog.Emits` — what calls a program makes, however they are answered
* `Effects.Semantics.restrict` — the same semantics, for some of the answers

## Main results

* `Effects.Prog.Wp.exec` — the rule is sound for executions
* `Effects.Prog.wp_bind`, `wp_tryCatch` — the rule is compositional
* `Effects.Prog.Calls.wp` — what holds of every call of a program needs no more
* `Effects.Prog.Calls.sites_bind` — the places where a sequence calls
* `Effects.Prog.Follows.bind`, `Follows.tryCatch` — calls that depend on the answers before them
* `Effects.Prog.emits_bind`, `Emits.exec` — the calls of a sequence, and of an execution
* `Effects.Prog.Wp.of_env` — it survives interference, which is what a step of another thread
  needs
-/

namespace Effects

/-- The calls a program can make, each with the type of its answer. -/
structure Signature where
  /-- The calls. -/
  Op : Type
  /-- What a call answers. -/
  Ret : Op → Type

/-- Programs over the calls of `S` that return an `α` or throw an `ε`. -/
inductive Prog (S : Signature) (ε α : Type) : Type
  | pure (a : α) : Prog S ε α
  | throw (e : ε) : Prog S ε α
  | call (op : S.Op) (k : S.Ret op → Prog S ε α) : Prog S ε α

/-- What a call may answer in a state, and the state it leaves. -/
abbrev Semantics (S : Signature) (σ : Type) := (op : S.Op) → σ → S.Ret op → σ → Prop

variable {S : Signature} {ε ε' α β γ σ : Type}

namespace Prog

/-- Sequencing. -/
def bind : Prog S ε α → (α → Prog S ε β) → Prog S ε β
  | .pure a, f => f a
  | .throw e, _ => .throw e
  | .call op k, f => .call op fun r => (k r).bind f

instance : Monad (Prog S ε) where
  pure := Prog.pure
  bind := Prog.bind

/-- Run `p`, and the handler on the exception `p` throws. -/
def tryCatch : Prog S ε α → (ε → Prog S ε' α) → Prog S ε' α
  | .pure a, _ => .pure a
  | .throw e, h => h e
  | .call op k, h => .call op fun r => (k r).tryCatch h

/-- A single call. -/
def perform (op : S.Op) : Prog S ε (S.Ret op) := .call op .pure

@[simp] theorem pure_eq (a : α) : (Pure.pure a : Prog S ε α) = .pure a := rfl

@[simp] theorem bind_eq (p : Prog S ε α) (f : α → Prog S ε β) : p >>= f = p.bind f := rfl

@[simp] theorem pure_bind (a : α) (f : α → Prog S ε β) : (Prog.pure a).bind f = f a := rfl

@[simp] theorem throw_bind (e : ε) (f : α → Prog S ε β) : (Prog.throw e).bind f = .throw e := rfl

theorem bind_assoc (p : Prog S ε α) (f : α → Prog S ε β) (g : β → Prog S ε γ) :
    (p.bind f).bind g = p.bind fun a => (f a).bind g := by
  induction p with
  | pure a => rfl
  | throw e => rfl
  | call op k ih => simp only [bind, ih]

theorem bind_pure (p : Prog S ε α) : p.bind .pure = p := by
  induction p with
  | pure a => rfl
  | throw e => rfl
  | call op k ih => simp only [bind, ih]

instance : LawfulMonad (Prog S ε) :=
  LawfulMonad.mk' _ bind_pure (fun _ _ => rfl) bind_assoc

/-- The result of a program that does not throw, when every call is answered by `answer`. -/
def run (answer : (op : S.Op) → S.Ret op) : Prog S Empty α → α
  | .pure a => a
  | .throw e => e.elim
  | .call op k => (k (answer op)).run answer

/-! ### Executions -/

/-- `p.Exec sem env s res s'`: the program may run from `s` to the result `res` in `s'`, the rest
of the system taking an `env` step before each call. -/
inductive Exec (sem : Semantics S σ) (env : σ → σ → Prop) :
    Prog S ε α → σ → Except ε α → σ → Prop
  | pure (a : α) (s : σ) : Exec sem env (.pure a) s (.ok a) s
  | throw (e : ε) (s : σ) : Exec sem env (.throw e) s (.error e) s
  | call {op : S.Op} {k : S.Ret op → Prog S ε α} {s s₁ s₂ s' : σ} {r : S.Ret op}
      {res : Except ε α} (henv : env s s₁) (hcall : sem op s₁ r s₂)
      (hrest : Exec sem env (k r) s₂ res s') : Exec sem env (.call op k) s res s'

variable {sem : Semantics S σ} {env : σ → σ → Prop}

theorem exec_pure_iff {a : α} {s s' : σ} {res : Except ε α} :
    Exec sem env (.pure a) s res s' ↔ res = .ok a ∧ s' = s := by
  constructor
  · rintro ⟨⟩; exact ⟨rfl, rfl⟩
  · rintro ⟨rfl, rfl⟩; exact .pure a _

theorem exec_throw_iff {e : ε} {s s' : σ} {res : Except ε α} :
    Exec sem env (.throw e) s res s' ↔ res = .error e ∧ s' = s := by
  constructor
  · rintro ⟨⟩; exact ⟨rfl, rfl⟩
  · rintro ⟨rfl, rfl⟩; exact .throw e _

theorem exec_call_iff {op : S.Op} {k : S.Ret op → Prog S ε α} {s s' : σ} {res : Except ε α} :
    Exec sem env (.call op k) s res s' ↔
      ∃ s₁ r s₂, env s s₁ ∧ sem op s₁ r s₂ ∧ Exec sem env (k r) s₂ res s' := by
  constructor
  · rintro ⟨⟩; exact ⟨_, _, _, ‹_›, ‹_›, ‹_›⟩
  · rintro ⟨s₁, r, s₂, henv, hcall, hrest⟩; exact .call henv hcall hrest

/-- A call that has one answer and changes nothing can be left out. -/
theorem exec_query_iff {op : S.Op} {k : S.Ret op → Prog S ε α} {s s' : σ} {res : Except ε α}
    {r : S.Ret op} (hquery : ∀ r' t, sem op s r' t ↔ r' = r ∧ t = s) :
    Exec sem (· = ·) (.call op k) s res s' ↔ Exec sem (· = ·) (k r) s res s' := by
  rw [exec_call_iff]
  constructor
  · rintro ⟨_, r', t, rfl, hcall, hrest⟩
    obtain ⟨rfl, rfl⟩ := (hquery r' t).mp hcall
    exact hrest
  · intro hrest
    exact ⟨s, r, s, rfl, (hquery r s).mpr ⟨rfl, rfl⟩, hrest⟩

/-! ### The postcondition rule -/

/-- `p.Wp sem env ok Q s`: run from `s`, whatever the rest of the system does before each call,
every call `p` makes is made in a state satisfying `ok`, and every end of the program satisfies
`Q`. -/
def Wp (sem : Semantics S σ) (env : σ → σ → Prop) (ok : S.Op → σ → Prop) :
    Prog S ε α → (Except ε α → σ → Prop) → σ → Prop
  | .pure a, Q, s => Q (.ok a) s
  | .throw e, Q, s => Q (.error e) s
  | .call op k, Q, s =>
      ∀ s₁, env s s₁ → ok op s₁ ∧ ∀ r s₂, sem op s₁ r s₂ → (k r).Wp sem env ok Q s₂

variable {ok ok' : S.Op → σ → Prop} {Q Q' : Except ε α → σ → Prop}

theorem wp_call (op : S.Op) (k : S.Ret op → Prog S ε α) (Q : Except ε α → σ → Prop) (s : σ) :
    (Prog.call op k).Wp sem env ok Q s ↔
      ∀ s₁, env s s₁ → ok op s₁ ∧ ∀ r s₂, sem op s₁ r s₂ → (k r).Wp sem env ok Q s₂ := Iff.rfl

@[simp] theorem wp_ite (c : Prop) [Decidable c] (p q : Prog S ε α)
    (Q : Except ε α → σ → Prop) (s : σ) :
    (if c then p else q).Wp sem env ok Q s ↔
      (c → p.Wp sem env ok Q s) ∧ (¬ c → q.Wp sem env ok Q s) := by
  split <;> simp [*]

theorem Wp.mono {p : Prog S ε α} {s : σ} (h : p.Wp sem env ok Q s)
    (hok : ∀ op s, ok op s → ok' op s) (hQ : ∀ res s, Q res s → Q' res s) :
    p.Wp sem env ok' Q' s := by
  induction p generalizing s with
  | pure a => exact hQ _ _ h
  | throw e => exact hQ _ _ h
  | call op k ih =>
    intro s₁ henv
    exact ⟨hok _ _ (h s₁ henv).1, fun r s₂ hcall => ih r ((h s₁ henv).2 r s₂ hcall)⟩

/-- **Sequencing rule.** -/
theorem wp_bind {p : Prog S ε α} {f : α → Prog S ε β} {Q : Except ε β → σ → Prop} {s : σ} :
    (p.bind f).Wp sem env ok Q s ↔
      p.Wp sem env ok (fun res s' => match res with
        | .ok a => (f a).Wp sem env ok Q s'
        | .error e => Q (.error e) s') s := by
  induction p generalizing s with
  | pure a => rfl
  | throw e => rfl
  | call op k ih => simp only [bind, wp_call, ih]

/-- **Exception rule.** -/
theorem wp_tryCatch {p : Prog S ε α} {h : ε → Prog S ε' α} {Q : Except ε' α → σ → Prop} {s : σ} :
    (p.tryCatch h).Wp sem env ok Q s ↔
      p.Wp sem env ok (fun res s' => match res with
        | .ok a => Q (.ok a) s'
        | .error e => (h e).Wp sem env ok Q s') s := by
  induction p generalizing s with
  | pure a => rfl
  | throw e => rfl
  | call op k ih => simp only [tryCatch, wp_call, ih]

/-- **Soundness for executions.** -/
theorem Wp.exec {p : Prog S ε α} {s s' : σ} {res : Except ε α} (h : p.Wp sem env ok Q s)
    (hrun : p.Exec sem env s res s') : Q res s' := by
  induction hrun with
  | pure a s => exact h
  | throw e s => exact h
  | call henv hcall _ ih => exact ih ((h _ henv).2 _ _ hcall)

/-- Every call `p` may make satisfies `C`. -/
def Calls (C : S.Op → Prop) : Prog S ε α → Prop
  | .pure _ => True
  | .throw _ => True
  | .call op k => C op ∧ ∀ r, (k r).Calls C

@[simp] theorem calls_ite {C : S.Op → Prop} (c : Prop) [Decidable c] (p q : Prog S ε α) :
    (if c then p else q).Calls C ↔ (c → p.Calls C) ∧ (¬ c → q.Calls C) := by
  split <;> simp [*]

theorem calls_true (p : Prog S ε α) : p.Calls fun _ => True := by
  induction p with
  | pure a => trivial
  | throw e => trivial
  | call op k ih => exact ⟨trivial, ih⟩

theorem Calls.mono {C D : S.Op → Prop} {p : Prog S ε α} (h : p.Calls C) (hC : ∀ op, C op → D op) :
    p.Calls D := by
  induction p with
  | pure a => trivial
  | throw e => trivial
  | call op k ih => exact ⟨hC op h.1, fun r => ih r (h.2 r)⟩

theorem Calls.bind {C : S.Op → Prop} {p : Prog S ε α} {f : α → Prog S ε β} (hp : p.Calls C)
    (hf : ∀ a, (f a).Calls C) : (p.bind f).Calls C := by
  induction p with
  | pure a => exact hf a
  | throw e => trivial
  | call op k ih => exact ⟨hp.1, fun r => ih r (hp.2 r)⟩

theorem Calls.tryCatch {C : S.Op → Prop} {p : Prog S ε α} {h : ε → Prog S ε' α}
    (hp : p.Calls C) (hh : ∀ e, (h e).Calls C) : (p.tryCatch h).Calls C := by
  induction p with
  | pure a => trivial
  | throw e => exact hh e
  | call op k ih => exact ⟨hp.1, fun r => ih r (hp.2 r)⟩

/-- Every place where `p` may make a call satisfies `C`, which sees what comes after it. -/
def Sites (C : (op : S.Op) → (S.Ret op → Prog S ε α) → Prop) : Prog S ε α → Prop
  | .pure _ => True
  | .throw _ => True
  | .call op k => C op k ∧ ∀ r, (k r).Sites C

/-- The places in a sequence, when those in its first part are told by their calls. -/
theorem Calls.sites_bind {D : S.Op → Prop}
    {C : (op : S.Op) → (S.Ret op → Prog S ε β) → Prop} (hC : ∀ op k, D op → C op k)
    {p : Prog S ε α} (hp : p.Calls D) {f : α → Prog S ε β} (hf : ∀ a, (f a).Sites C) :
    (p.bind f).Sites C := by
  induction p with
  | pure a => exact hf a
  | throw e => trivial
  | call op k ih => exact ⟨hC op _ hp.1, fun r => ih r (hp.2 r)⟩

/-- A note on the answers is kept along the calls of `p`, and every call satisfies `C` with the note
as it is then. -/
def Follows {γ : Type} (note : γ → (op : S.Op) → S.Ret op → γ) (C : γ → S.Op → Prop) :
    γ → Prog S ε α → Prop
  | _, .pure _ => True
  | _, .throw _ => True
  | g, .call op k => C g op ∧ ∀ r, Follows note C (note g op r) (k r)

section Follows

variable {γ : Type} {note : γ → (op : S.Op) → S.Ret op → γ} {C : γ → S.Op → Prop}

theorem Follows.mono {D : γ → S.Op → Prop} {p : Prog S ε α} {g : γ} (hp : p.Follows note C g)
    (hC : ∀ g op, C g op → D g op) : p.Follows note D g := by
  induction p generalizing g with
  | pure a => trivial
  | throw e => trivial
  | call op k ih => exact ⟨hC g op hp.1, fun r => ih r (hp.2 r)⟩

/-- What is known before `p` and is not forgotten is known after it. -/
theorem Follows.bind_of {I : γ → Prop} (hI : ∀ g op r, I g → I (note g op r)) {p : Prog S ε α}
    {f : α → Prog S ε β} {g : γ} (hp : p.Follows note C g) (hg : I g)
    (hf : ∀ a g, I g → (f a).Follows note C g) : (p.bind f).Follows note C g := by
  induction p generalizing g with
  | pure a => exact hf a g hg
  | throw e => trivial
  | call op k ih => exact ⟨hp.1, fun r => ih r (hp.2 r) (hI g op r hg)⟩

theorem Follows.bind {p : Prog S ε α} {f : α → Prog S ε β} {g : γ} (hp : p.Follows note C g)
    (hf : ∀ a g, (f a).Follows note C g) : (p.bind f).Follows note C g :=
  hp.bind_of (I := fun _ => True) (fun _ _ _ => id) trivial fun a g _ => hf a g

theorem Follows.tryCatch {p : Prog S ε α} {h : ε → Prog S ε' α} {g : γ}
    (hp : p.Follows note C g) (hh : ∀ e g, (h e).Follows note C g) :
    (p.tryCatch h).Follows note C g := by
  induction p generalizing g with
  | pure a => trivial
  | throw e => exact hh e g
  | call op k ih => exact ⟨hp.1, fun r => ih r (hp.2 r)⟩

/-- Calls that need no note. -/
theorem Calls.follows {D : S.Op → Prop} {p : Prog S ε α} (h : p.Calls D)
    (hC : ∀ g op, D op → C g op) (g : γ) : p.Follows note C g := by
  induction p generalizing g with
  | pure a => trivial
  | throw e => trivial
  | call op k ih => exact ⟨hC g op h.1, fun r => ih r (h.2 r) _⟩

end Follows

/-- A postcondition that always holds is a matter of the calls. -/
theorem Calls.wp {C : S.Op → Prop} {p : Prog S ε α} (h : p.Calls C)
    (hok : ∀ op s, C op → ok op s) (hQ : ∀ res s, Q res s) (s : σ) : p.Wp sem env ok Q s := by
  induction p generalizing s with
  | pure a => exact hQ _ _
  | throw e => exact hQ _ _
  | call op k ih => exact fun s₁ _ => ⟨hok op s₁ h.1, fun r s₂ _ => ih r (h.2 r) s₂⟩

/-- **Stability.** A program about to make a call does not notice an `env` step, so a step of
another thread keeps the rule; at the end of the program the postcondition itself has to be
stable. -/
theorem Wp.of_env (htrans : ∀ {a b c}, env a b → env b c → env a c)
    (hQ : ∀ res a b, env a b → Q res a → Q res b) {p : Prog S ε α} {s s' : σ}
    (h : p.Wp sem env ok Q s) (henv : env s s') : p.Wp sem env ok Q s' := by
  cases p with
  | pure a => exact hQ _ _ _ henv h
  | throw e => exact hQ _ _ _ henv h
  | call op k => exact fun s₁ h₁ => h s₁ (htrans henv h₁)

end Prog

/-! ### Traces -/

/-- One call and its answer. -/
abbrev Event (S : Signature) := (op : S.Op) × S.Ret op

/-- `sem`, with a record of the calls made and their answers, oldest first. -/
def Semantics.traced (sem : Semantics S σ) : Semantics S (σ × List (Event S)) :=
  fun op s r s' => sem op s.1 r s'.1 ∧ s'.2 = s.2 ++ [⟨op, r⟩]

/-- `sem`, for the calls whose answers satisfy `C`. -/
def Semantics.restrict (sem : Semantics S σ) (C : Event S → Prop) : Semantics S σ :=
  fun op s r s' => sem op s r s' ∧ C ⟨op, r⟩

namespace Prog

/-- However its calls are answered, `p` ends with a result and a list of calls satisfying `Q`. -/
def Emits : Prog S ε α → (Except ε α → List (Event S) → Prop) → Prop
  | .pure a, Q => Q (.ok a) []
  | .throw e, Q => Q (.error e) []
  | .call op k, Q => ∀ r, (k r).Emits fun res es => Q res (⟨op, r⟩ :: es)

theorem Emits.mono {p : Prog S ε α} {Q Q' : Except ε α → List (Event S) → Prop}
    (h : p.Emits Q) (hQ : ∀ res es, Q res es → Q' res es) : p.Emits Q' := by
  induction p generalizing Q Q' with
  | pure a => exact hQ _ _ h
  | throw e => exact hQ _ _ h
  | call op k ih => exact fun r => ih r (h r) fun res es => hQ res _

theorem Emits.and {p : Prog S ε α} {Q Q' : Except ε α → List (Event S) → Prop} (h : p.Emits Q)
    (h' : p.Emits Q') : p.Emits fun res es => Q res es ∧ Q' res es := by
  induction p generalizing Q Q' with
  | pure a => exact ⟨h, h'⟩
  | throw e => exact ⟨h, h'⟩
  | call op k ih => exact fun r => ih r (h r) (h' r)

/-- What holds of every call holds of the calls made. -/
theorem Calls.emits {C : S.Op → Prop} {p : Prog S ε α} (h : p.Calls C) :
    p.Emits fun _ es => ∀ ev ∈ es, C ev.1 := by
  induction p with
  | pure a => exact nofun
  | throw e => exact nofun
  | call op k ih =>
    exact fun r => (ih r (h.2 r)).mono fun _ es hes => List.forall_mem_cons.mpr ⟨h.1, hes⟩

/-- The calls of a sequence. -/
theorem emits_bind {p : Prog S ε α} {f : α → Prog S ε β}
    {Q : Except ε β → List (Event S) → Prop} :
    (p.bind f).Emits Q ↔ p.Emits fun res es => match res with
      | .ok a => (f a).Emits fun res' es' => Q res' (es ++ es')
      | .error e => Q (.error e) es := by
  induction p generalizing Q with
  | pure a => rfl
  | throw e => rfl
  | call op k ih => exact forall_congr' fun r => ih r

/-- The calls of a program with a handler. -/
theorem emits_tryCatch {p : Prog S ε α} {h : ε → Prog S ε' α}
    {Q : Except ε' α → List (Event S) → Prop} :
    (p.tryCatch h).Emits Q ↔ p.Emits fun res es => match res with
      | .ok a => Q (.ok a) es
      | .error e => (h e).Emits fun res' es' => Q res' (es ++ es') := by
  induction p generalizing Q with
  | pure a => rfl
  | throw e => rfl
  | call op k ih => exact forall_congr' fun r => ih r

/-- What an execution adds to the record, when the rest of the system leaves the record alone. -/
theorem Emits.exec {p : Prog S ε α} {Q : Except ε α → List (Event S) → Prop}
    {sem : Semantics S σ} {env : σ × List (Event S) → σ × List (Event S) → Prop}
    (henv : ∀ a b, env a b → b.2 = a.2) (h : p.Emits Q) {a b : σ × List (Event S)}
    {res : Except ε α} (hrun : p.Exec sem.traced env a res b) :
    ∃ es, b.2 = a.2 ++ es ∧ Q res es := by
  induction hrun generalizing Q with
  | pure a s => exact ⟨[], (List.append_nil _).symm, h⟩
  | throw e s => exact ⟨[], (List.append_nil _).symm, h⟩
  | call hrest hcall _ ih =>
    obtain ⟨es, heq, hQ⟩ := ih (h _)
    refine ⟨_, ?_, hQ⟩
    rw [heq, hcall.2, henv _ _ hrest, List.append_assoc]
    rfl

/-- An execution whose record satisfies `C` is one of the semantics that answers so. -/
theorem Exec.restrict {p : Prog S ε α} {C : Event S → Prop} {sem : Semantics S σ}
    {env : σ × List (Event S) → σ × List (Event S) → Prop}
    (henv : ∀ a b, env a b → b.2 = a.2) {a b : σ × List (Event S)} {res : Except ε α}
    (hrun : p.Exec sem.traced env a res b) (hC : ∀ ev ∈ b.2, C ev) :
    p.Exec (sem.restrict C).traced env a res b := by
  induction hrun with
  | pure a s => exact .pure a s
  | throw e s => exact .throw e s
  | @call op k s s₁ s₂ s' r res hs hcall hrest ih =>
    obtain ⟨es, hes, -⟩ := ((k r).calls_true.emits).exec henv hrest
    have hmem : ⟨op, r⟩ ∈ s'.2 := by
      rw [hes, hcall.2]
      simp
    exact .call hs ⟨⟨hcall.1, hC _ hmem⟩, hcall.2⟩ (ih hC)

/-- Run `p` with `step` answering the calls: the result, the last state and the calls made. -/
def play (step : (op : S.Op) → σ → S.Ret op × σ) :
    Prog S ε α → σ → Except ε α × σ × List (Event S)
  | .pure a, s => (.ok a, s, [])
  | .throw e, s => (.error e, s, [])
  | .call op k, s =>
    let (res, s', tr) := (k (step op s).1).play step (step op s).2
    (res, s', ⟨op, (step op s).1⟩ :: tr)

theorem forall_play {step : (op : S.Op) → σ → S.Ret op × σ} {C : Event S → Prop}
    (hC : ∀ op s, C ⟨op, (step op s).1⟩) (p : Prog S ε α) (s : σ) :
    ∀ ev ∈ (p.play step s).2.2, C ev := by
  induction p generalizing s with
  | pure a => simp [play]
  | throw e => simp [play]
  | call op k ih => exact List.forall_mem_cons.mpr ⟨hC op s, ih _ _⟩

/-- A run with permitted answers is an execution. -/
theorem exec_play {step : (op : S.Op) → σ → S.Ret op × σ} {sem : Semantics S σ}
    {env : σ × List (Event S) → σ × List (Event S) → Prop}
    (hstep : ∀ op s, sem op s (step op s).1 (step op s).2) (henv : ∀ s, env s s)
    (p : Prog S ε α) (s : σ) (tr : List (Event S)) :
    p.Exec sem.traced env (s, tr) (p.play step s).1
      ((p.play step s).2.1, tr ++ (p.play step s).2.2) := by
  induction p generalizing s tr with
  | pure a =>
    rw [play, List.append_nil]
    exact .pure a _
  | throw e =>
    rw [play, List.append_nil]
    exact .throw e _
  | call op k ih =>
    have hrest := ih (step op s).1 (step op s).2 (tr ++ [⟨op, (step op s).1⟩])
    rw [List.append_assoc] at hrest
    exact .call (henv _) ⟨hstep op s, rfl⟩ hrest

end Prog

end Effects
