import RobertMiddleware.Server.SessionLaws

/-!
# The session store

The sessions are a map from tokens to usernames that grows by logins and shrinks by logouts and
sweeps. The key of the map is the token; that a user has one session is a matter of `login`, which
looks for a session of the username before it makes one. So it is an invariant of every sequence
of operations, and with it the answer of `login` does not depend on the order of the entries.

The store is taken by itself, under every sequence of operations; the server is one of its users.

## Main definitions

* `SessionManager.userOf` — the store, as a map from tokens to usernames
* `SessionStore.step` — the operations of the handlers and the sweeper
* `SessionStore.Ok` — the invariant

## Main results

* `SessionStore.step_effect` — an operation makes one session, or drops some
* `SessionStore.sessions_reaches` — what holds of every sequence of operations
* `System.store_reaches` — a run of the server is a sequence of operations
-/

namespace RobertMiddleware

open Effects Transition

namespace SessionManager

/-- The username behind a token. -/
def userOf (token : Bytes) (s : SessionManager) : Option Bytes :=
  (s.sessions.lookup token).map Session.username

variable {s : SessionManager}

theorem userOf_eq_some_iff {token username : Bytes} :
    s.userOf token = some username ↔
      ∃ session, s.sessions.lookup token = some session ∧ session.username = username :=
  Option.map_eq_some_iff

theorem userOf_ne_none_iff {token : Bytes} : s.userOf token ≠ none ↔ token ∈ s.sessions := by
  rw [← AList.lookup_isSome, userOf, Ne, Option.map_eq_none_iff, ← Ne, Option.ne_none_iff_isSome]

theorem noSessionOf_iff {username : Bytes} :
    s.NoSessionOf username ↔ ∀ token, s.userOf token ≠ some username := by
  constructor
  · intro h token huser
    obtain ⟨session, hlookup, hname⟩ := userOf_eq_some_iff.mp huser
    exact h token session hlookup hname
  · intro h token session hlookup hname
    exact h token (userOf_eq_some_iff.mpr ⟨session, hlookup, hname⟩)

theorem userOf_insert (token token' : Bytes) (session : Session) :
    ({ s with sessions := s.sessions.insert token session } : SessionManager).userOf token' =
      if token' = token then some session.username else s.userOf token' := by
  rw [userOf, userOf]
  rcases eq_or_ne token' token with rfl | hne
  · rw [AList.lookup_insert, if_pos rfl]
    rfl
  · rw [AList.lookup_insert_ne hne, if_neg hne]

theorem userOf_logout (token token' : Bytes) :
    (s.logout token).userOf token' = if token' = token then none else s.userOf token' := by
  rw [userOf, userOf, logout]
  rcases eq_or_ne token' token with rfl | hne
  · rw [AList.lookup_erase, if_pos rfl]
    rfl
  · rw [AList.lookup_erase_ne hne, if_neg hne]

/-- Touching a session does not change whose it is. -/
theorem userOf_touchSession (now : ℤ) (token token' : Bytes) :
    (s.touchSession now token).userOf token' = s.userOf token' := by
  rw [touchSession]
  split
  · rename_i session hlookup
    rw [userOf_insert]
    split
    · rename_i heq
      rw [heq, userOf, hlookup]
      rfl
    · rfl
  · rfl

theorem userOf_sweepExpiredSessions (now timeout : ℤ) (token : Bytes) :
    (s.sweepExpiredSessions now timeout).userOf token = s.userOf token ∨
      (s.sweepExpiredSessions now timeout).userOf token = none := by
  rw [userOf, userOf, lookup_sweepExpiredSessions]
  cases hkept : (s.sessions.lookup token).filter fun session => !expired now timeout session with
  | none => exact .inr rfl
  | some session =>
    rw [(Option.filter_eq_some_iff.mp hkept).1]
    exact .inl rfl

end SessionManager

/-! ### Sequences of operations -/

/-- The session manager, and the tokens issued so far. -/
structure SessionStore where
  manager : SessionManager
  issued : List Bytes

/-- The member functions of `SessionManager` that handlers and the sweeper call. -/
inductive SessionOp
  /-- `uuid` is the token that `generate_uuid` would return. -/
  | login (uuid username password : Bytes)
  | logout (token : Bytes)
  | isValidToken (token : Bytes)
  | touchSession (now : ℤ) (token : Bytes)
  | acquireLock (token : Bytes)
  | releaseLock (token : Bytes)
  | hasLock (token : Bytes)
  | tokenToUsername (token : Bytes)
  | sweepExpiredSessions (now timeout : ℤ)

namespace SessionStore

/-- One operation. A new token was never issued before. -/
def step (s : SessionStore) : SessionOp → Option SessionStore
  | .login uuid username password =>
    if uuid ≠ [] ∧ uuid ∉ s.issued then
      some ⟨(s.manager.login uuid username password).2, s.issued ++ [uuid]⟩
    else none
  | .logout token => some { s with manager := s.manager.logout token }
  | .isValidToken _ => some s
  | .touchSession now token => some { s with manager := s.manager.touchSession now token }
  | .acquireLock token => some { s with manager := (s.manager.acquireLock token).2 }
  | .releaseLock token => some { s with manager := (s.manager.releaseLock token).2 }
  | .hasLock _ => some s
  | .tokenToUsername _ => some s
  | .sweepExpiredSessions now timeout =>
    some { s with manager := s.manager.sweepExpiredSessions now timeout }

/-- After `load_users`. -/
def initial (users : List UserInfo) : SessionStore := ⟨SessionManager.loadUsers users {}, []⟩

/-- What an operation does to the map from tokens to usernames. -/
inductive Effect (s s' : SessionStore) : Prop
  /-- A user without a session gets one. -/
  | create (uuid username : Bytes) (hne : uuid ≠ []) (hfresh : uuid ∉ s.issued)
      (hno : ∀ token, s.manager.userOf token ≠ some username)
      (hknown : username ∈ s.manager.users)
      (huser : ∀ token, s'.manager.userOf token =
        if token = uuid then some username else s.manager.userOf token)
      (hissued : s'.issued = s.issued ++ [uuid])
  /-- Sessions stay what they are, or are gone. -/
  | keep (huser : ∀ token, s'.manager.userOf token = s.manager.userOf token ∨
        s'.manager.userOf token = none)
      (hissued : ∀ token ∈ s.issued, token ∈ s'.issued)

variable {s s' : SessionStore}

theorem users_step {op : SessionOp} (h : s.step op = some s') :
    s'.manager.users = s.manager.users := by
  cases op with
  | login uuid username password =>
    rw [step, Option.ite_none_right_eq_some] at h
    obtain ⟨-, h⟩ := h
    obtain rfl := Option.some.inj h
    simp only [SessionManager.login]
    split
    · rfl
    · split <;> rfl
  | touchSession now token =>
    obtain rfl := Option.some.inj h
    simp only [SessionManager.touchSession]
    split <;> rfl
  | acquireLock token =>
    obtain rfl := Option.some.inj h
    simp only [SessionManager.acquireLock]
    split <;> rfl
  | releaseLock token =>
    obtain rfl := Option.some.inj h
    exact SessionManager.users_releaseLock token s.manager
  | sweepExpiredSessions now timeout =>
    obtain rfl := Option.some.inj h
    exact SessionManager.users_sweepExpiredSessions now timeout s.manager
  | _ =>
    obtain rfl := Option.some.inj h
    rfl

/-- **What an operation can do.** -/
theorem step_effect {op : SessionOp} (h : s.step op = some s') : Effect s s' := by
  cases op with
  | login uuid username password =>
    rw [step, Option.ite_none_right_eq_some] at h
    obtain ⟨⟨hne, hfresh⟩, h⟩ := h
    obtain rfl := Option.some.inj h
    have hissued : ∀ token ∈ s.issued, token ∈ s.issued ++ [uuid] := fun token htoken =>
      List.mem_append_left _ htoken
    by_cases hno : s.manager.NoSessionOf username
    · by_cases hright : s.manager.users.lookup username = some password
      · refine .create uuid username hne hfresh (SessionManager.noSessionOf_iff.mp hno) ?_ ?_ rfl
        · rw [← AList.lookup_isSome, hright]
          rfl
        · intro token
          rw [SessionManager.login_of_noSession hno, if_pos hright]
          exact SessionManager.userOf_insert ..
      · refine .keep (fun token => .inl ?_) hissued
        rw [SessionManager.login_of_noSession hno, if_neg hright]
    · obtain ⟨token, session, -, -, hlogin⟩ := SessionManager.login_of_session uuid password hno
      refine .keep (fun token => .inl ?_) hissued
      rw [hlogin]
  | logout left =>
    obtain rfl := Option.some.inj h
    refine .keep (fun token => ?_) fun _ => id
    rw [SessionManager.userOf_logout]
    split
    · exact .inr rfl
    · exact .inl rfl
  | touchSession now touched =>
    obtain rfl := Option.some.inj h
    exact .keep (fun token => .inl (SessionManager.userOf_touchSession ..)) fun _ => id
  | acquireLock taker =>
    obtain rfl := Option.some.inj h
    refine .keep (fun token => .inl ?_) fun _ => id
    simp only [SessionManager.acquireLock]
    split <;> rfl
  | releaseLock giver =>
    obtain rfl := Option.some.inj h
    refine .keep (fun token => .inl ?_) fun _ => id
    rw [SessionManager.userOf, SessionManager.sessions_releaseLock]
    rfl
  | sweepExpiredSessions now timeout =>
    obtain rfl := Option.some.inj h
    exact .keep (fun token => SessionManager.userOf_sweepExpiredSessions ..) fun _ => id
  | _ =>
    obtain rfl := Option.some.inj h
    exact .keep (fun _ => .inl rfl) fun _ => id

/-! ### The invariant -/

structure Ok (s : SessionStore) : Prop where
  /-- A user has one session. -/
  unique : ∀ token token' username, s.manager.userOf token = some username →
    s.manager.userOf token' = some username → token = token'
  known : ∀ token username, s.manager.userOf token = some username →
    username ∈ s.manager.users
  issued : ∀ token username, s.manager.userOf token = some username →
    token ≠ [] ∧ token ∈ s.issued

theorem ok_initial (users : List UserInfo) : (initial users).Ok :=
  ⟨nofun, nofun, nofun⟩

theorem Ok.step {op : SessionOp} (hs : s.Ok) (h : s.step op = some s') : s'.Ok := by
  have husers := users_step h
  cases step_effect h with
  | create uuid username hne hfresh hno hknown huser hissued =>
    -- the user of a token that is not the new one
    have hold : ∀ {token name}, s'.manager.userOf token = some name → token ≠ uuid →
        s.manager.userOf token = some name := by
      intro token name hname hnot
      rw [huser, if_neg hnot] at hname
      exact hname
    have hnew : ∀ {name}, s'.manager.userOf uuid = some name → name = username := by
      intro name hname
      rw [huser, if_pos rfl] at hname
      exact (Option.some.inj hname).symm
    refine ⟨fun token token' name h h' => ?_, fun token name h => ?_, fun token name h => ?_⟩
    · by_cases ht : token = uuid
      · by_cases ht' : token' = uuid
        · rw [ht, ht']
        · subst ht
          rw [hnew h] at h'
          exact absurd (hold h' ht') (hno token')
      · by_cases ht' : token' = uuid
        · subst ht'
          rw [hnew h'] at h
          exact absurd (hold h ht) (hno token)
        · exact hs.unique token token' name (hold h ht) (hold h' ht')
    · rw [husers]
      by_cases ht : token = uuid
      · subst ht
        rw [hnew h]
        exact hknown
      · exact hs.known token name (hold h ht)
    · rw [hissued]
      by_cases ht : token = uuid
      · rw [ht]
        exact ⟨hne, List.mem_append_right _ (List.mem_singleton_self _)⟩
      · obtain ⟨hnot, hmem⟩ := hs.issued token name (hold h ht)
        exact ⟨hnot, List.mem_append_left _ hmem⟩
  | keep huser hissued =>
    have hold : ∀ {token name}, s'.manager.userOf token = some name →
        s.manager.userOf token = some name := by
      intro token name hname
      rcases huser token with hsame | hgone
      · exact hsame ▸ hname
      · rw [hgone] at hname
        cases hname
    refine ⟨fun token token' name h h' => hs.unique token token' name (hold h) (hold h'),
      fun token name h => ?_, fun token name h => ?_⟩
    · rw [husers]
      exact hs.known token name (hold h)
    · obtain ⟨hne, hmem⟩ := hs.issued token name (hold h)
      exact ⟨hne, hissued token hmem⟩

theorem ok_reaches {users : List UserInfo}
    (h : Reaches step always (initial users) s) : s.Ok :=
  h.invariant (ok_initial users) fun _ _ _ hs _ hstep => hs.step hstep

theorem issued_step {op : SessionOp} (h : s.step op = some s') {token : Bytes}
    (htoken : token ∈ s.issued) : token ∈ s'.issued := by
  cases step_effect h with
  | create uuid username _ _ _ _ _ hissued =>
    rw [hissued]
    exact List.mem_append_left _ htoken
  | keep _ hissued => exact hissued token htoken

/-- A token that was issued belongs to nobody else later. -/
theorem userOf_reaches (h : Reaches step always s s') {token : Bytes} (htoken : token ∈ s.issued) :
    token ∈ s'.issued ∧
      (s'.manager.userOf token = s.manager.userOf token ∨ s'.manager.userOf token = none) := by
  refine h.invariant (I := fun t => token ∈ t.issued ∧
    (t.manager.userOf token = s.manager.userOf token ∨ t.manager.userOf token = none))
    ⟨htoken, .inl rfl⟩ ?_
  rintro t op t' ⟨hmem, huser⟩ - hstep
  refine ⟨issued_step hstep hmem, ?_⟩
  cases step_effect hstep with
  | create uuid username _ hfresh _ _ huser' _ =>
    have hne : token ≠ uuid := by
      rintro rfl
      exact hfresh hmem
    rw [huser', if_neg hne]
    exact huser
  | keep huser' _ =>
    rcases huser' token with hsame | hgone
    · rw [hsame]
      exact huser
    · exact .inr hgone

/-- A login names a session of its user. -/
theorem userOf_login {uuid username password token : Bytes} {s : SessionManager}
    (h : (s.login uuid username password).1 = some token) :
    (s.login uuid username password).2.userOf token = some username :=
  SessionManager.userOf_eq_some_iff.mpr (SessionManager.login_live h)

/-- **The session store.** After every sequence of operations, a user has one session at most; the
user of a session is configured; the token that a login returns belongs to the user who logged in,
and to nobody else at any time after that; and as long as its session was not erased, a login of
the same user returns the same token. -/
theorem sessions_reaches {users : List UserInfo} (h : Reaches step always (initial users) s) :
    (∀ token token' username, s.manager.userOf token = some username →
      s.manager.userOf token' = some username → token = token') ∧
    (∀ token username, s.manager.userOf token = some username → username ∈ s.manager.users) ∧
    ∀ uuid username password token s₁, s.step (.login uuid username password) = some s₁ →
      (s.manager.login uuid username password).1 = some token →
      s₁.manager.userOf token = some username ∧
      ∀ s₂, Reaches step always s₁ s₂ →
        (s₂.manager.userOf token = some username ∨ s₂.manager.userOf token = none) ∧
        (s₂.manager.userOf token = none → ∀ s₃, Reaches step always s₂ s₃ →
          s₃.manager.userOf token = none) ∧
        (s₂.manager.userOf token ≠ none → ∀ uuid' password' token',
          (s₂.manager.login uuid' username password').1 = some token' → token' = token) := by
  have hs := ok_reaches h
  refine ⟨hs.unique, hs.known, fun uuid username password token s₁ hlogin hanswer => ?_⟩
  have huser : s₁.manager.userOf token = some username := by
    rw [step, Option.ite_none_right_eq_some] at hlogin
    rw [← Option.some.inj hlogin.2]
    exact userOf_login hanswer
  have hissued : token ∈ s₁.issued := ((hs.step hlogin).issued token username huser).2
  refine ⟨huser, fun s₂ hrun => ?_⟩
  obtain ⟨hissued₂, hstays⟩ := userOf_reaches hrun hissued
  rw [huser] at hstays
  have hs₂ : s₂.Ok := hrun.invariant (hs.step hlogin) fun _ _ _ hs _ hstep => hs.step hstep
  refine ⟨hstays, fun hgone s₃ hrun' => ?_, fun hlive uuid' password' token' hanswer' => ?_⟩
  · rcases (userOf_reaches hrun' hissued₂).2 with hsame | hgone'
    · exact hsame.trans hgone
    · exact hgone'
  · have huser₂ := hstays.resolve_right hlive
    have hsession : ¬ s₂.manager.NoSessionOf username := fun hno =>
      SessionManager.noSessionOf_iff.mp hno token huser₂
    obtain ⟨token₂, session, hlookup, hname, hlogin₂⟩ :=
      SessionManager.login_of_session uuid' password' hsession
    rw [hlogin₂] at hanswer'
    obtain rfl : token₂ = token' := Option.some.inj hanswer'
    exact hs₂.unique token₂ token username
      (SessionManager.userOf_eq_some_iff.mpr ⟨session, hlookup, hname⟩) huser₂

/-- `alice` logs in, and again after her session was touched and a sweep passed. -/
theorem sessions_reaches_alice :
    ∃ s₁ s₂, step (initial SessionManager.aliceOnly)
        (.login (ascii "t") (ascii "alice") (ascii "secret")) = some s₁ ∧
      Reaches step always s₁ s₂ ∧
      (s₂.manager.login (ascii "u") (ascii "alice") (ascii "secret")).1 = some (ascii "t") ∧
      s₂.manager.userOf (ascii "t") = some (ascii "alice") := by
  have hrun : ∃ s₁ s₂, step (initial SessionManager.aliceOnly)
      (.login (ascii "t") (ascii "alice") (ascii "secret")) = some s₁ ∧
      runLabels step always s₁ [.touchSession 5 (ascii "t"), .acquireLock (ascii "t"),
        .sweepExpiredSessions 9 60, .tokenToUsername (ascii "t")] = some s₂ ∧
      (s₂.manager.login (ascii "u") (ascii "alice") (ascii "secret")).1 = some (ascii "t") ∧
      s₂.manager.userOf (ascii "t") ≠ none := ⟨_, _, rfl, rfl, rfl, by decide⟩
  obtain ⟨s₁, s₂, hlogin, hruns, hagain, hlive⟩ := hrun
  have hlaw := (sessions_reaches (.refl (initial SessionManager.aliceOnly))).2.2 _ _ _ _ s₁ hlogin
    (show _ = some (ascii "t") from rfl)
  exact ⟨s₁, s₂, hlogin, .of_runLabels hruns, hagain,
    (hlaw.2 s₂ (.of_runLabels hruns)).1.resolve_right hlive⟩

end SessionStore

/-! ### The store of the server -/

namespace System

/-- The store that the server uses. -/
def store (s : System) : SessionStore := ⟨s.shared.sessions, s.shared.history.issued⟩

/-- What a call of a handler does to the store. -/
theorem store_execCall {uuid : Bytes} {op : ServerCall} {a : Shared} (hfresh : a.FreshToken uuid) :
    (⟨(execCall uuid op a).2.sessions, (execCall uuid op a).2.history.issued⟩ : SessionStore) =
        ⟨a.sessions, a.history.issued⟩ ∨
      ∃ op', SessionStore.step ⟨a.sessions, a.history.issued⟩ op' =
        some ⟨(execCall uuid op a).2.sessions, (execCall uuid op a).2.history.issued⟩ := by
  cases op with
  | login username password => exact .inr ⟨.login uuid username password, if_pos hfresh⟩
  | logout token => exact .inr ⟨.logout token, rfl⟩
  | touchSession token => exact .inr ⟨.touchSession a.now token, rfl⟩
  | acquireLock token => exact .inr ⟨.acquireLock token, rfl⟩
  | releaseLock token => exact .inr ⟨.releaseLock token, rfl⟩
  | _ => exact .inl rfl

/-- For the store, a step of the server is an operation, or nothing. -/
theorem store_step {P : Platform} {s s' : System} {l : Label} (h : step P s l = some s') :
    s'.store = s.store ∨ ∃ op, s.store.step op = some s'.store := by
  by_cases hl : ∃ e, l = .server e
  · obtain ⟨e, rfl⟩ := hl
    cases step_effect h with
    | other hl => exact absurd rfl (hl e)
    | server hmove =>
      cases hmove with
      | call uuid req op k _ hfresh => exact store_execCall hfresh
      | _ => exact .inl rfl
  · have hother : ∀ e, l ≠ .server e := fun e he => hl ⟨e, he⟩
    have hissued := (interference_step h hother).issued
    rcases sessions_other h hother with hsame | ⟨-, -, hswept⟩
    · exact .inl (by rw [store, store, hsame, hissued])
    · have hstore : s'.store =
          ⟨s.shared.sessions.sweepExpiredSessions s.shared.now 60, s.shared.history.issued⟩ := by
        rw [store, hswept, hissued]
      exact .inr ⟨.sweepExpiredSessions s.shared.now 60, by rw [hstore]; rfl⟩

/-- **A run of the server is a sequence of operations on the store.** -/
theorem store_reaches {P : Platform} {s s' : System} (h : Reaches (step P) always s s') :
    Reaches SessionStore.step always s.store s'.store := by
  refine h.invariant (I := fun t => Reaches SessionStore.step always s.store t.store)
    (.refl _) fun t l t' ht _ hstep => ?_
  rcases store_step hstep with hsame | ⟨op, hop⟩
  · exact hsame ▸ ht
  · exact ht.tail trivial hop

theorem store_ok {P : Platform} {users : List UserInfo} {s : System}
    (h : Reaches (step P) always (initial users) s) : s.store.Ok :=
  SessionStore.ok_reaches (store_reaches h)

/-- No session has the empty token. -/
theorem nil_not_mem_sessions {P : Platform} {users : List UserInfo} {s : System}
    (h : Reaches (step P) always (initial users) s) : [] ∉ s.shared.sessions.sessions := by
  intro hmem
  obtain ⟨username, huser⟩ := Option.ne_none_iff_exists'.mp
    (SessionManager.userOf_ne_none_iff.mpr hmem)
  exact ((store_ok h).issued [] username huser).1 rfl

end System

end RobertMiddleware
