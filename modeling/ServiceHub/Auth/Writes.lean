import ServiceHub.Auth.SignIn

/-! # What the authentication calls write

A call passes on, or commits one of the writes below. An invariant of the sessions and of the
reset tokens is proved once per write.
-/

namespace ServiceHub

open Guard

/-- The password hash in force. -/
def AuthTables.passwordHash (t : AuthTables) : Option PasswordHash :=
  t.user.map (·.passwordHash)

inductive AuthWrite (t : AuthTables) : AuthCall → AuthTables → Option AuthCall → Prop where
  | passed {call next}
      (read : ∀ p hash, next = some (.issue p hash) → t.passwordHash = some hash)
      (last : ∀ p hash, call = .issue p hash → next = none) :
      AuthWrite t call t next
  | created {call password state subject} (new : t.user = none)
      (opens : (∃ password, call = .register password) ∨ ∃ subject byEmail, call = .google subject byEmail) :
      AuthWrite t call (t.createUser password state subject)
        (some (.issue false ⟨password, t.nextSalt⟩))
  | linked {subject u} (found : t.user = some u) :
      AuthWrite t (.googleLink subject) (t.updateUser ({ · with googleSubject := some subject }))
        (some (.issue false u.passwordHash))
  | issued {p u} {g : AuthAccount → AuthAccount} (found : t.user = some u)
      (keeps : ∀ u, (g u).passwordHash = u.passwordHash) :
      AuthWrite t (.issue p u.passwordHash) { t.updateUser g with
        refreshTokens := t.refreshTokens ++ [{
          id := t.nextSession, token := ⟨t.nextSession, t.nextJti⟩
          expiresAt := t.now + AuthTables.refreshTokenTtlMs }]
        nextSession := t.nextSession + 1, nextJti := t.nextJti + 1 } none
  | rotated {token sid} (one : t.refreshTokens.countP (t.rotatable token sid) = 1) :
      AuthWrite t (.rotate token sid) { t with
        refreshTokens := t.refreshTokens.map fun row =>
          if t.rotatable token sid row then
            { row with token := ⟨sid, t.nextJti⟩, expiresAt := t.now + AuthTables.refreshTokenTtlMs }
          else row
        nextJti := t.nextJti + 1 } none
  | invalidated :
      AuthWrite t .forgotInvalidate { t with passwordResetTokens := [] } (some .forgotCreate)
  | mailed : AuthWrite t .forgotCreate t.createResetToken none
  | reset {token newPassword u} (found : t.user = some u)
      (claimed : t.passwordResetTokens.countP (fun row => row.token == token && row.live t.now) = 1) :
      AuthWrite t (.resetCommit token newPassword) { t.storePassword newPassword with
        passwordResetTokens := t.passwordResetTokens.map fun row =>
          if row.token == token && row.live t.now then { row with used := true } else row
        refreshTokens := [] } none
  | changed {newPassword sid u} (found : t.user = some u) :
      AuthWrite t (.changeCommit u.passwordHash newPassword sid)
        { t.storePassword newPassword with passwordResetTokens := [], refreshTokens := [] } none
  | verified {sid subject sameEmail linkedElsewhere grant} :
      AuthWrite t (.verifySetup sid subject sameEmail linkedElsewhere)
        { t.updateUser ({ · with googleSubject := some subject }) with grants := t.grants ++ [grant] } none
  | chosen {grant newPassword u} (found : t.user = some u) :
      AuthWrite t (.setPassword grant newPassword) { t.storePassword newPassword with
        passwordResetTokens := []
        refreshTokens := t.refreshTokens.filter (·.id == grant.sid) } none

section Inversion

variable {t t' : AuthTables} {call : AuthCall} {next : Option AuthCall}

theorem AuthWrite.of_pass (same : t' = t) (quiet : ∀ p hash, next ≠ some (.issue p hash))
    (last : ∀ p hash, call = .issue p hash → next = none := by simp) : AuthWrite t call t' next := by
  subst same
  exact .passed (fun p hash goes => absurd goes (quiet p hash)) last

/-- A transaction that fails leaves the tables as they are. -/
theorem AuthWrite.of_commit {run : Except HttpError (AuthTables × Option AuthCall)}
    (ok : ∀ t' next, run = .ok (t', next) → AuthWrite t call t' next) :
    AuthWrite t call (t.commit run).1 (t.commit run).2 := by
  cases ran : run with
  | error => exact .of_pass rfl (fun p hash goes => by cases goes) fun _ _ _ => rfl
  | ok done => exact ok _ _ ran

theorem AuthTables.activeSession_ok {sid : Nat} {u : AuthAccount} (h : t.activeSession sid = .ok u) :
    t.user = some u ∧ t.hasSession sid = true := by
  simp only [AuthTables.activeSession, orThrow_bind_ok, check_bind_ok, rejectIf_ok, not_or, pure_ok] at h
  obtain ⟨u', found, ⟨-, -, -, live⟩, rfl⟩ := h
  exact ⟨found, by simpa using live⟩

theorem AuthTables.resume_write (t : AuthTables) (call : AuthCall) :
    AuthWrite t call (t.resume call).1 (t.resume call).2 := by
  cases call with
  | register password =>
      refine .of_commit fun t' next run => ?_
      simp only [AuthTables.registerUser, bind_ok, rejectIf_ok, pure_ok, Prod.exists, Prod.mk.injEq] at run
      obtain ⟨_, _, ⟨_, new, rfl, rfl⟩, rfl, rfl⟩ := run
      exact .created (by simpa using new) (.inl ⟨password, rfl⟩)
  | login password =>
      refine .of_commit fun t' next run => ?_
      simp only [AuthTables.loginUser, bind_ok, orThrow_ok, rejectIf_ok, pure_ok, Prod.mk.injEq] at run
      obtain ⟨_, ⟨u, found, _, -, _, -, rfl⟩, rfl, rfl⟩ := run
      refine .passed (fun p hash goes => ?_) fun p hash signing => by cases signing
      simp only [Option.some.injEq, AuthCall.issue.injEq] at goes
      simp [AuthTables.passwordHash, found, goes]
  | google subject byEmail =>
      refine .of_commit fun t' next run => ?_
      obtain ⟨⟨after, going⟩, linked, last⟩ := bind_ok.mp run
      obtain ⟨rfl, rfl⟩ := Prod.mk.inj (pure_ok.mp last)
      cases found : t.user with
      | none =>
          simp only [AuthTables.googleLoginUser, found, pure_ok, Prod.mk.injEq] at linked
          obtain ⟨rfl, rfl⟩ := linked
          exact .created found (.inr ⟨subject, byEmail, rfl⟩)
      | some u =>
          simp only [AuthTables.googleLoginUser, found, check_bind_ok, pure_ok, Prod.mk.injEq] at linked
          obtain ⟨-, -, -, rfl, rfl⟩ := linked
          exact .of_pass rfl fun p hash goes => by cases goes
  | googleLink subject =>
      refine .of_commit fun t' next run => ?_
      obtain ⟨⟨after, going⟩, linked, last⟩ := bind_ok.mp run
      obtain ⟨rfl, rfl⟩ := Prod.mk.inj (pure_ok.mp last)
      simp only [AuthTables.linkGoogle, orThrow_bind_ok, check_bind_ok, pure_ok, Prod.mk.injEq] at linked
      obtain ⟨u, found, -, -, rfl, rfl⟩ := linked
      exact .linked found
  | issue p expected =>
      refine .of_commit fun t' next run => ?_
      simp only [AuthTables.issueTokens, bind_ok, orThrow_ok, rejectIf_ok, pure_ok, Prod.mk.injEq, not_or,
        ne_eq, not_not] at run
      obtain ⟨_, ⟨u, found, _, ⟨-, rfl⟩, _, -, rfl⟩, rfl, rfl⟩ := run
      split
      · exact .issued found fun _ => rfl
      · have same : t.updateUser id = t := by simp [AuthTables.updateUser]
        have written : AuthWrite t (.issue p u.passwordHash) { t.updateUser id with
            refreshTokens := t.refreshTokens ++ [{
              id := t.nextSession, token := ⟨t.nextSession, t.nextJti⟩
              expiresAt := t.now + AuthTables.refreshTokenTtlMs }]
            nextSession := t.nextSession + 1, nextJti := t.nextJti + 1 } none :=
          .issued found fun _ => rfl
        rw [same] at written
        exact written
  | refresh token =>
      refine .of_commit fun t' next run => ?_
      simp only [AuthTables.resolveToken, bind_ok, orThrow_ok, rejectIf_ok, pure_ok, Prod.mk.injEq] at run
      obtain ⟨_, ⟨_, -, _, -, rfl⟩, rfl, rfl⟩ := run
      exact .of_pass rfl fun p hash goes => by cases goes
  | refreshAccount token sid =>
      refine .of_commit fun t' next run => ?_
      simp only [AuthTables.resolveTokenUser, bind_ok, orThrow_ok, rejectIf_ok, pure_ok, Prod.mk.injEq] at run
      obtain ⟨_, ⟨_, -, _, -, rfl⟩, rfl, rfl⟩ := run
      exact .of_pass rfl fun p hash goes => by cases goes
  | rotate token sid =>
      refine .of_commit fun t' next run => ?_
      simp only [AuthTables.rotateToken, bind_ok, rejectIf_ok, pure_ok, Prod.mk.injEq, not_not, ne_eq] at run
      obtain ⟨_, ⟨_, one, rfl⟩, rfl, rfl⟩ := run
      exact .rotated one
  | forgot =>
      refine .of_pass rfl fun p hash goes => ?_
      simp only [AuthTables.resume] at goes
      split at goes <;> cases goes
  | forgotInvalidate => exact .invalidated
  | forgotCreate => exact .mailed
  | reset token newPassword =>
      refine .of_commit fun t' next run => ?_
      simp only [AuthTables.readResetToken, bind_ok, orThrow_ok, rejectIf_ok, pure_ok, Prod.mk.injEq] at run
      obtain ⟨_, ⟨_, -, _, -, rfl⟩, rfl, rfl⟩ := run
      exact .of_pass rfl fun p hash goes => by cases goes
  | resetCommit token newPassword =>
      refine .of_commit fun t' next run => ?_
      simp only [AuthTables.resetPassword, bind_ok, orThrow_ok, rejectIf_ok, pure_ok, Prod.mk.injEq, not_not,
        ne_eq] at run
      obtain ⟨_, ⟨u, found, _, -, _, claimed, rfl⟩, rfl, rfl⟩ := run
      exact .reset found claimed
  | change currentPassword newPassword sid =>
      refine .of_commit fun t' next run => ?_
      simp only [AuthTables.readCurrentPassword, bind_ok, orThrow_ok, rejectIf_ok, pure_ok,
        Prod.mk.injEq] at run
      obtain ⟨_, ⟨_, -, _, -, _, -, rfl⟩, rfl, rfl⟩ := run
      exact .of_pass rfl fun p hash goes => by cases goes
  | changeCommit read newPassword sid =>
      refine .of_commit fun t' next run => ?_
      simp only [AuthTables.changeUserPassword, bind_ok, orThrow_ok, rejectIf_ok, pure_ok, Prod.mk.injEq,
        ne_eq, not_not] at run
      obtain ⟨_, ⟨u, found, _, -, _, -, _, rfl, rfl⟩, rfl, rfl⟩ := run
      exact .changed found
  | verifySetup sid subject sameEmail linkedElsewhere =>
      refine .of_commit fun t' next run => ?_
      simp only [AuthTables.verifyPasswordSetup, bind_ok, rejectIf_ok, pure_ok, Prod.mk.injEq] at run
      obtain ⟨_, ⟨u, -, _, -, _, -, _, -, _, -, rfl⟩, rfl, rfl⟩ := run
      exact .verified
  | setPassword grant newPassword =>
      refine .of_commit fun t' next run => ?_
      simp only [AuthTables.setUserPassword, bind_ok, rejectIf_ok, pure_ok, Prod.mk.injEq] at run
      obtain ⟨_, ⟨u, session, _, -, _, -, _, -, rfl⟩, rfl, rfl⟩ := run
      exact .chosen (AuthTables.activeSession_ok session).1

end Inversion

/-- What a step does to the tables and to the calls in flight. -/
inductive AuthEvent (s : AuthSystem) : AuthAction → AuthSystem → Prop where
  | called {entry : AuthEntry} : AuthEvent s (.call entry) { s with
      calls := s.calls ++ [⟨s.nextRequest, entry.first⟩], nextRequest := s.nextRequest + 1 }
  | resumed {k q t next} (found : s.calls[k]? = some q) (write : AuthWrite s.tables q.call t next) :
      AuthEvent s (.resume k) { s with
        tables := t, calls := Threads.proceed s.calls k (next.map ({ q with call := · })) }
  | crashed {k} : AuthEvent s (.crash k) { s with calls := Threads.proceed s.calls k none }
  | signedOut {sid} : AuthEvent s (.signOut sid) { s with tables := { s.tables with
      refreshTokens := s.tables.refreshTokens.filter (·.id != sid) } }
  | moderated {isActive deactivatedAt moderationStatus} :
      AuthEvent s (.moderate isActive deactivatedAt moderationStatus) { s with
        tables := s.tables.updateUser ({ · with isActive, deactivatedAt, moderationStatus }) }
  | waited {time} :
      AuthEvent s (.wait time) { s with tables := { s.tables with now := s.tables.now + time } }

theorem AuthSystem.step_event {s s' : AuthSystem} {a : AuthAction} (h : s.step a = some s') :
    AuthEvent s a s' := by
  cases a with
  | resume k =>
      simp only [AuthSystem.step, Option.map_eq_some_iff] at h
      obtain ⟨q, found, rfl⟩ := h
      exact .resumed found (s.tables.resume_write q.call)
  | crash k =>
      simp only [AuthSystem.step] at h
      split at h
      · obtain rfl := Option.some.inj h
        exact .crashed
      · cases h
  | call =>
      obtain rfl := Option.some.inj h
      exact .called
  | signOut =>
      obtain rfl := Option.some.inj h
      exact .signedOut
  | moderate =>
      obtain rfl := Option.some.inj h
      exact .moderated
  | wait =>
      obtain rfl := Option.some.inj h
      exact .waited

section Hashes

variable {t t' : AuthTables} {call : AuthCall} {next : Option AuthCall} {s s' : AuthSystem}
  {a : AuthAction}

/-- A password is stored under a hash that nobody has seen. -/
def AuthTables.StoresHash (t t' : AuthTables) : Prop :=
  (∃ password, t'.passwordHash = some ⟨password, t.nextSalt⟩) ∧ t'.nextSalt = t.nextSalt + 1

theorem AuthTables.updateUser_passwordHash {g : AuthAccount → AuthAccount}
    (keeps : ∀ u, (g u).passwordHash = u.passwordHash) :
    (t.updateUser g).passwordHash = t.passwordHash := by
  cases found : t.user <;> simp [AuthTables.updateUser, AuthTables.passwordHash, found, keeps]

theorem AuthTables.storePassword_stores {newPassword : String} {u : AuthAccount} (found : t.user = some u) :
    t.StoresHash (t.storePassword newPassword) := by
  refine ⟨⟨some newPassword, ?_⟩, rfl⟩
  simp [AuthTables.storePassword, AuthTables.updateUser, AuthTables.passwordHash, found]

theorem AuthWrite.hash (h : AuthWrite t call t' next) :
    (t'.passwordHash = t.passwordHash ∧ t'.nextSalt = t.nextSalt) ∨ t.StoresHash t' := by
  cases h with
  | passed | rotated | invalidated | mailed => exact .inl ⟨rfl, rfl⟩
  | created => exact .inr ⟨⟨_, rfl⟩, rfl⟩
  | linked => exact .inl ⟨AuthTables.updateUser_passwordHash fun _ => rfl, rfl⟩
  | issued _ keeps => exact .inl ⟨AuthTables.updateUser_passwordHash keeps, rfl⟩
  | verified => exact .inl ⟨AuthTables.updateUser_passwordHash fun _ => rfl, rfl⟩
  | @reset _ newPassword _ found | @changed newPassword _ _ found | @chosen _ newPassword _ found =>
      have stores : t.StoresHash (t.storePassword newPassword) := AuthTables.storePassword_stores found
      obtain ⟨⟨password, stored⟩, drawn⟩ := stores
      exact .inr ⟨⟨password, stored⟩, drawn⟩

theorem AuthEvent.hash (h : AuthEvent s a s') :
    (s'.tables.passwordHash = s.tables.passwordHash ∧ s'.tables.nextSalt = s.tables.nextSalt)
      ∨ s.tables.StoresHash s'.tables := by
  cases h with
  | called | crashed | signedOut | waited => exact .inl ⟨rfl, rfl⟩
  | moderated => exact .inl ⟨AuthTables.updateUser_passwordHash fun _ => rfl, rfl⟩
  | resumed _ write => exact write.hash

theorem AuthEvent.nextSalt_le (h : AuthEvent s a s') : s.tables.nextSalt ≤ s'.tables.nextSalt := by
  obtain ⟨-, same⟩ | ⟨-, drawn⟩ := h.hash <;> omega

/-- A sign-in goes on to its transaction with the hash in force. -/
theorem AuthWrite.snapshot {p : Bool} {hash : PasswordHash}
    (h : AuthWrite t call t' (some (.issue p hash))) : t'.passwordHash = some hash := by
  cases h with
  | passed read => exact read p hash rfl
  | created => rfl
  | linked found => simp [AuthTables.updateUser, AuthTables.passwordHash, found]

theorem AuthWrite.issue_ends {p : Bool} {hash : PasswordHash} (h : AuthWrite t (.issue p hash) t' next) :
    next = none := by
  cases h with
  | passed _ last => exact last p hash rfl
  | issued => rfl
  | created _ opens => simp at opens

end Hashes

end ServiceHub
