import Mathlib.Data.List.Nodup
import ServiceHub.Auth.Writes

/-! # A new password revokes the sessions

A sign-in creates its session only while the hash that it has read is in force. Every stored hash
is new, so a sign-in that has read an earlier one is turned away for good.
-/

namespace ServiceHub

/-- The sessions on record. -/
def AuthTables.sessionIds (t : AuthTables) : List Nat :=
  t.refreshTokens.map (·.id)

/-- The password hash that a sign-in has read. -/
def AuthCall.snapshot : AuthCall → Option PasswordHash
  | .issue _ hash => some hash
  | _ => none

/-- The step replaces the password hash of an account that has one. -/
def AuthSystem.ReplacesPassword (s s' : AuthSystem) : Prop :=
  s.tables.passwordHash.isSome = true ∧ s'.tables.passwordHash ≠ s.tables.passwordHash

/-- The Google-verified session that `setUserPassword` keeps. -/
def AuthSystem.keptSession (s : AuthSystem) : AuthAction → Option Nat
  | .resume k => (s.calls[k]?).bind fun q => match q.call with
    | .setPassword grant _ => some grant.sid
    | _ => none
  | _ => none

/-- The session was created since `s₁`, by a sign-in with the hash in force whose call had not read
    the account in `s₁`. -/
def SignedInSince (s₁ s₂ : AuthSystem) (sid : Nat) : Prop :=
  ∃ u u' k q p hash, authMachine.RunUnder (fun _ _ => True) s₁ u
    ∧ u.calls[k]? = some q ∧ q.call = .issue p hash ∧ u.tables.passwordHash = some hash
    ∧ (∀ r ∈ s₁.calls, r.number = q.number → r.call.snapshot = none)
    ∧ authMachine.next u (.resume k) = some u'
    ∧ sid ∉ u.tables.sessionIds ∧ sid ∈ u'.tables.sessionIds
    ∧ authMachine.RunUnder (fun _ _ => True) u' s₂

/-- The step exchanges the refresh token for a new one. -/
def Exchanged (s : AuthSystem) (a : AuthAction) (s' : AuthSystem) (token : RefreshTokenString) : Prop :=
  ∃ k q sid, a = .resume k ∧ s.calls[k]? = some q ∧ q.call = .rotate token sid
    ∧ authMachine.next s a = some s' ∧ s'.tables ≠ s.tables

section Numbers

variable {s s' : AuthSystem} {a : AuthAction} {t t' : AuthTables} {call : AuthCall}
  {next : Option AuthCall}

/-- Sessions and their tokens are numbered. -/
structure AuthTables.SessionsNumbered (t : AuthTables) : Prop where
  unique : t.sessionIds.Nodup
  below : ∀ x ∈ t.refreshTokens, x.id < t.nextSession
  own : ∀ x ∈ t.refreshTokens, x.token.sid = x.id
  drawn : ∀ x ∈ t.refreshTokens, x.token.jti < t.nextJti

/-- The hashes on record and in the hands of sign-ins have been drawn. -/
structure AuthSystem.HashesDrawn (s : AuthSystem) : Prop where
  current : ∀ hash, s.tables.passwordHash = some hash → hash.salt < s.tables.nextSalt
  calls : ∀ q ∈ s.calls, ∀ p hash, q.call = .issue p hash → hash.salt < s.tables.nextSalt
  numbers : ∀ q ∈ s.calls, q.number < s.nextRequest

theorem AuthTables.SessionsNumbered.sublist (h : t.SessionsNumbered)
    (rows : t'.refreshTokens.Sublist t.refreshTokens) (ids : t'.nextSession = t.nextSession)
    (jtis : t'.nextJti = t.nextJti) : t'.SessionsNumbered where
  unique := h.unique.sublist (rows.map _)
  below x listed := ids ▸ h.below x (rows.subset listed)
  own x listed := h.own x (rows.subset listed)
  drawn x listed := jtis ▸ h.drawn x (rows.subset listed)

/-- The rotation writes rows under their ids. -/
theorem AuthTables.SessionsNumbered.rotated (h : t.SessionsNumbered) {token : RefreshTokenString} {sid : Nat}
    {expiresAt : Millis} (rows : t'.refreshTokens = t.refreshTokens.map fun row =>
      if t.rotatable token sid row then { row with token := ⟨sid, t.nextJti⟩, expiresAt } else row)
    (ids : t'.nextSession = t.nextSession) (jtis : t'.nextJti = t.nextJti + 1) : t'.SessionsNumbered := by
  have written : ∀ x ∈ t'.refreshTokens, ∃ y ∈ t.refreshTokens, x.id = y.id
      ∧ (x.token = y.token ∨ x.token = ⟨y.id, t.nextJti⟩) := by
    intro x listed
    rw [rows] at listed
    obtain ⟨y, old, rfl⟩ := List.mem_map.mp listed
    refine ⟨y, old, ?_⟩
    split
    · rename_i matched
      simp only [AuthTables.rotatable, Bool.and_eq_true, beq_iff_eq] at matched
      exact ⟨rfl, .inr (by rw [matched.1.1])⟩
    · exact ⟨rfl, .inl rfl⟩
  have same : t'.sessionIds = t.sessionIds := by
    simp only [AuthTables.sessionIds, rows, List.map_map]
    refine List.map_congr_left fun y _ => ?_
    simp only [Function.comp_apply]
    split <;> rfl
  refine ⟨same ▸ h.unique, fun x listed => ?_, fun x listed => ?_, fun x listed => ?_⟩ <;>
    obtain ⟨y, listed, id, token⟩ := written x listed
  · rw [id, ids]
    exact h.below y listed
  · rw [id]
    rcases token with token | token <;> rw [token]
    exact h.own y listed
  · rw [jtis]
    rcases token with token | token <;> rw [token]
    · have := h.drawn y listed
      omega
    · exact Nat.lt_succ_self _

theorem AuthTables.SessionsNumbered.issued (h : t.SessionsNumbered) {expiresAt : Millis}
    (rows : t'.refreshTokens = t.refreshTokens ++ [⟨t.nextSession, ⟨t.nextSession, t.nextJti⟩, expiresAt⟩])
    (ids : t'.nextSession = t.nextSession + 1) (jtis : t'.nextJti = t.nextJti + 1) :
    t'.SessionsNumbered := by
  refine ⟨?_, fun x listed => ?_, fun x listed => ?_, fun x listed => ?_⟩
  · simp only [AuthTables.sessionIds, rows, List.map_append, List.map_cons, List.map_nil]
    refine List.nodup_append.mpr ⟨h.unique, List.nodup_singleton _, ?_⟩
    intro id old id' new same
    obtain ⟨y, listed, rfl⟩ := List.mem_map.mp old
    have bound := h.below y listed
    simp only [List.mem_singleton] at new
    omega
  all_goals
    rw [rows] at listed
    rcases List.mem_append.mp listed with old | new
  · have := h.below x old
    omega
  · obtain rfl := List.mem_singleton.mp new
    simp [ids]
  · exact h.own x old
  · obtain rfl := List.mem_singleton.mp new
    rfl
  · have := h.drawn x old
    omega
  · obtain rfl := List.mem_singleton.mp new
    simp [jtis]

theorem AuthWrite.numbered (h : AuthWrite t call t' next) (known : t.SessionsNumbered) :
    t'.SessionsNumbered := by
  cases h with
  | passed | created | linked | invalidated | mailed | verified =>
      exact known.sublist (.refl _) rfl rfl
  | issued => exact known.issued rfl rfl rfl
  | rotated => exact known.rotated rfl rfl rfl
  | reset | changed => exact known.sublist (List.nil_sublist _) rfl rfl
  | chosen => exact known.sublist List.filter_sublist rfl rfl

theorem sessions_numbered (h : authMachine.Reachable s) : s.tables.SessionsNumbered := by
  refine h.invariant (I := fun s => s.tables.SessionsNumbered) ?_ ?_
  · rintro s ⟨empty, -⟩
    constructor <;> simp [AuthTables.sessionIds, empty]
  · intro s a s' known stepped
    cases AuthSystem.step_event stepped with
    | called | crashed | moderated | waited => exact known.sublist (.refl _) rfl rfl
    | signedOut => exact known.sublist List.filter_sublist rfl rfl
    | resumed _ write => exact write.numbered known

/-- A call in flight is an old one, the one that goes on, or a new one. -/
theorem AuthEvent.calls (h : AuthEvent s a s') : ∀ q ∈ s'.calls, q ∈ s.calls
    ∨ (∃ entry, q = ⟨s.nextRequest, AuthEntry.first entry⟩ ∧ s'.nextRequest = s.nextRequest + 1)
    ∨ ∃ (k : Nat) (r : AuthRequest), s.calls[k]? = some r ∧ q.number = r.number
      ∧ AuthWrite s.tables r.call s'.tables (some q.call) := by
  intro q listed
  cases h with
  | @called entry =>
      rcases List.mem_append.mp listed with old | new
      · exact .inl old
      · exact .inr (.inl ⟨entry, List.mem_singleton.mp new, rfl⟩)
  | @resumed k r t next found write =>
      rcases Threads.mem_proceed listed with old | going
      · exact .inl old
      · obtain ⟨call, goes, rfl⟩ := Option.map_eq_some_iff.mp going
        subst goes
        exact .inr (.inr ⟨k, r, found, rfl, write⟩)
  | @crashed k =>
      exact .inl (List.mem_of_mem_eraseIdx listed)
  | signedOut | moderated | waited => exact .inl listed

theorem AuthEvent.nextRequest_le (h : AuthEvent s a s') : s.nextRequest ≤ s'.nextRequest := by
  cases h with
  | called => exact Nat.le_succ _
  | _ => exact Nat.le_refl _

theorem hashes_drawn (h : authMachine.Reachable s) : s.HashesDrawn := by
  refine h.invariant (I := AuthSystem.HashesDrawn) ?_ ?_
  · rintro s ⟨-, -, -, empty, known⟩
    refine ⟨fun hash current => ?_, by simp [empty], by simp [empty]⟩
    obtain ⟨u, found, rfl⟩ := Option.map_eq_some_iff.mp current
    exact known u found
  · intro s a s' known stepped
    have event := AuthSystem.step_event stepped
    have current : ∀ hash, s'.tables.passwordHash = some hash → hash.salt < s'.tables.nextSalt := by
      intro hash now
      obtain ⟨same, kept⟩ | ⟨⟨password, stored⟩, drawn⟩ := event.hash
      · rw [kept]
        exact known.current hash (same ▸ now)
      · obtain rfl := Option.some.inj (stored.symm.trans now)
        rw [drawn]
        exact Nat.lt_succ_self _
    refine ⟨current, fun q listed p hash issuing => ?_, fun q listed => ?_⟩
    · obtain old | ⟨entry, rfl, -⟩ | ⟨k, r, -, -, write⟩ := event.calls q listed
      · exact Nat.lt_of_lt_of_le (known.calls q old p hash issuing) event.nextSalt_le
      · cases entry <;> cases issuing
      · exact current hash (AuthWrite.snapshot (issuing ▸ write))
    · obtain old | ⟨entry, rfl, next⟩ | ⟨k, r, found, number, -⟩ := event.calls q listed
      · exact Nat.lt_of_lt_of_le (known.numbers q old) event.nextRequest_le
      · rw [next]
        exact Nat.lt_succ_self _
      · rw [number]
        exact Nat.lt_of_lt_of_le (known.numbers r (List.mem_of_getElem? found)) event.nextRequest_le

/-- No two calls in flight have the same number. -/
theorem requests_unique (h : authMachine.Reachable s) : (s.calls.map (·.number)).Nodup := by
  refine h.invariant_with (J := authMachine.Reachable)
    (I := fun s => (s.calls.map (·.number)).Nodup) (fun _ h => h) ?_ ?_
  · rintro s ⟨-, -, -, empty, -⟩
    simp [empty]
  · intro s a s' reached unique _ stepped
    cases AuthSystem.step_event stepped with
    | signedOut | moderated | waited => exact unique
    | crashed => exact unique.sublist ((List.eraseIdx_sublist _ _).map _)
    | called =>
        simp only [List.map_append, List.map_cons, List.map_nil]
        refine List.nodup_append.mpr ⟨unique, List.nodup_singleton _, ?_⟩
        intro number old number' new same
        obtain ⟨q, listed, rfl⟩ := List.mem_map.mp old
        have bound := (hashes_drawn reached).numbers q listed
        simp only [List.mem_singleton] at new
        omega
    | @resumed k q t next found write =>
        cases next with
        | none => exact unique.sublist ((List.eraseIdx_sublist _ _).map _)
        | some call =>
            have same : (s.calls.set k { q with call }).map (·.number) = s.calls.map (·.number) :=
              Threads.map_set_same found rfl
            exact same ▸ unique

end Numbers

section Replaced

variable {s s₁ s₂ u u' : AuthSystem} {a b : AuthAction} {n : Nat}

/-- What holds after the hash with salt `n` was stored and led to `s₁`. -/
structure SinceReplaced (n : Nat) (kept : Nat → Prop) (s₁ u : AuthSystem) : Prop where
  run : authMachine.RunUnder (fun _ _ => True) s₁ u
  hash : ∀ hash, u.tables.passwordHash = some hash → n ≤ hash.salt
  drawn : n ≤ u.tables.nextSalt
  numbers : s₁.nextRequest ≤ u.nextRequest
  /-- A sign-in that had read the account in `s₁` has not got any further. -/
  waiting : ∀ q ∈ u.calls, ∀ r ∈ s₁.calls, r.number = q.number → ∀ p hash, r.call = .issue p hash →
    q.call = .issue p hash
  rows : ∀ x ∈ u.tables.refreshTokens, kept x.id ∨ SignedInSince s₁ u x.id

theorem SignedInSince.trans {sid : Nat} (h : SignedInSince s₁ u sid)
    (run : authMachine.RunUnder (fun _ _ => True) u u') : SignedInSince s₁ u' sid := by
  obtain ⟨v, v', k, q, p, hash, before, found, issuing, current, unread, next, absent, present, after⟩ := h
  exact ⟨v, v', k, q, p, hash, before, found, issuing, current, unread, next, absent, present,
    after.trans run⟩

/-- Every session after the step is an earlier one, or the one that a sign-in has created. -/
theorem AuthEvent.sessions (h : AuthEvent u b u') : ∀ x ∈ u'.tables.refreshTokens,
    (∃ y ∈ u.tables.refreshTokens, y.id = x.id)
      ∨ ∃ (k : Nat) (q : AuthRequest) (p : Bool) (hash : PasswordHash), b = .resume k
        ∧ u.calls[k]? = some q ∧ q.call = .issue p hash ∧ u.tables.passwordHash = some hash
        ∧ x.id = u.tables.nextSession := by
  intro x listed
  cases h with
  | called | crashed | moderated | waited => exact .inl ⟨x, listed, rfl⟩
  | signedOut => exact .inl ⟨x, (List.mem_filter.mp listed).1, rfl⟩
  | @resumed k q t next found write =>
      obtain ⟨number, call⟩ := q
      cases write with
      | passed | created | linked | invalidated | mailed | verified => exact .inl ⟨x, listed, rfl⟩
      | chosen => exact .inl ⟨x, (List.mem_filter.mp listed).1, rfl⟩
      | reset | changed => cases listed
      | rotated =>
          obtain ⟨y, old, rfl⟩ := List.mem_map.mp listed
          refine .inl ⟨y, old, ?_⟩
          split <;> rfl
      | @issued p account g present keeps =>
          rcases List.mem_append.mp listed with old | new
          · exact .inl ⟨x, old, rfl⟩
          · obtain rfl := List.mem_singleton.mp new
            exact .inr ⟨k, _, p, _, rfl, found, rfl, by simp [AuthTables.passwordHash, present], rfl⟩

theorem SinceReplaced.step {kept : Nat → Prop} (h : SinceReplaced n kept s₁ u)
    (earlier : ∀ r ∈ s₁.calls, ∀ hash, r.call.snapshot = some hash → hash.salt < n)
    (numbered : ∀ r ∈ s₁.calls, r.number < s₁.nextRequest) (reached : authMachine.Reachable u)
    (stepped : authMachine.next u b = some u') : SinceReplaced n kept s₁ u' := by
  have event := AuthSystem.step_event stepped
  have run : authMachine.RunUnder (fun _ _ => True) s₁ u' := .step h.run trivial stepped
  have one : authMachine.RunUnder (fun _ _ => True) u u' := .step .refl trivial stepped
  refine ⟨run, ?_, Nat.le_trans h.drawn event.nextSalt_le,
    Nat.le_trans h.numbers event.nextRequest_le, ?_, ?_⟩
  · intro hash now
    obtain ⟨same, -⟩ | ⟨⟨password, stored⟩, -⟩ := event.hash
    · exact h.hash hash (same ▸ now)
    · obtain rfl := Option.some.inj (stored.symm.trans now)
      exact h.drawn
  · intro q listed r old same p hash issuing
    obtain kept | ⟨entry, rfl, -⟩ | ⟨k, r', found, number, write⟩ := event.calls q listed
    · exact h.waiting q kept r old same p hash issuing
    · -- a new request has a number of its own
      have bound := numbered r old
      have := h.numbers
      simp only at same
      omega
    · have stays := h.waiting r' (List.mem_of_getElem? found) r old (same.trans number) p hash issuing
      exact absurd (AuthWrite.issue_ends (stays ▸ write)) (by simp)
  · intro x listed
    obtain ⟨y, old, same⟩ | ⟨k, q, p, hash, rfl, found, issuing, current, id⟩ := event.sessions x listed
    · have earlier := h.rows y old
      rw [same] at earlier
      exact earlier.imp_right fun since => since.trans one
    · refine .inr ⟨u, u', k, q, p, hash, h.run, found, issuing, current, fun r old same => ?_, stepped, ?_,
        List.mem_map_of_mem listed, .refl⟩
      · cases holds : r.call with
        | issue p' hash' =>
            -- it would still hold the hash that it had read, which is out of force
            have stays := h.waiting q (List.mem_of_getElem? found) r old same p' hash' holds
            obtain ⟨rfl, rfl⟩ := AuthCall.issue.inj (stays.symm.trans issuing)
            have below := earlier r old hash' (by rw [holds]; rfl)
            have above := h.hash hash' current
            omega
        | _ => rfl
      · rw [id]
        intro taken
        obtain ⟨y, old, same⟩ := List.mem_map.mp taken
        have bound := (sessions_numbered reached).below y old
        omega

/-- The password is replaced by the last transaction of a call, which deletes the sessions. -/
theorem AuthEvent.replaced (h : AuthEvent s a s₁) (replaced : s.ReplacesPassword s₁) :
    s.tables.StoresHash s₁.tables ∧ (∀ q ∈ s₁.calls, q ∈ s.calls)
      ∧ ∀ x ∈ s₁.tables.refreshTokens, s.keptSession a = some x.id := by
  obtain ⟨existing, changed⟩ := replaced
  have stores : s.tables.StoresHash s₁.tables := by
    obtain ⟨same, -⟩ | stores := h.hash
    · exact absurd same changed
    · exact stores
  refine ⟨stores, ?_⟩
  cases h with
  | called | crashed | signedOut | waited => exact absurd rfl changed
  | moderated => exact (changed (AuthTables.updateUser_passwordHash fun _ => rfl)).elim
  | @resumed k q t next found write =>
      obtain ⟨number, call⟩ := q
      cases write with
      | passed | rotated | invalidated | mailed => exact absurd rfl changed
      | created new => simp [AuthTables.passwordHash, new] at existing
      | linked | verified => exact (changed (AuthTables.updateUser_passwordHash fun _ => rfl)).elim
      | issued _ keeps => exact (changed (AuthTables.updateUser_passwordHash keeps)).elim
      | reset | changed => exact ⟨fun q listed => List.mem_of_mem_eraseIdx listed, fun x listed => by cases listed⟩
      | chosen =>
          refine ⟨fun q listed => List.mem_of_mem_eraseIdx listed, fun x listed => ?_⟩
          have own := (List.mem_filter.mp listed).2
          simp only [beq_iff_eq] at own
          simp [AuthSystem.keptSession, found, own]

theorem SinceReplaced.start (reached : authMachine.Reachable s) (stepped : authMachine.next s a = some s₁)
    (replaced : s.ReplacesPassword s₁) :
    SinceReplaced s.tables.nextSalt (fun id => s.keptSession a = some id) s₁ s₁ := by
  obtain ⟨⟨⟨password, stored⟩, drawn⟩, -, rows⟩ := (AuthSystem.step_event stepped).replaced replaced
  refine ⟨.refl, fun hash current => ?_, by omega, Nat.le_refl _, ?_, fun x listed => .inl (rows x listed)⟩
  · obtain rfl := Option.some.inj (stored.symm.trans current)
    exact Nat.le_refl _
  · intro q listed r old same p hash issuing
    have unique := requests_unique (reached.next trivial stepped)
    rw [← List.inj_on_of_nodup_map unique old listed same]
    exact issuing

theorem sinceReplaced_run (reached : authMachine.Reachable s) (stepped : authMachine.next s a = some s₁)
    (replaced : s.ReplacesPassword s₁) (run : authMachine.RunUnder (fun _ _ => True) s₁ s₂) :
    SinceReplaced s.tables.nextSalt (fun id => s.keptSession a = some id) s₁ s₂ := by
  have reached₁ := reached.next trivial stepped
  obtain ⟨-, calls, -⟩ := (AuthSystem.step_event stepped).replaced replaced
  have earlier : ∀ r ∈ s₁.calls, ∀ hash, r.call.snapshot = some hash → hash.salt < s.tables.nextSalt := by
    intro r listed hash read
    cases holds : r.call with
    | issue p hash' =>
        rw [holds] at read
        obtain rfl := Option.some.inj read
        exact (hashes_drawn reached).calls r (calls r listed) p hash' holds
    | _ =>
        rw [holds] at read
        cases read
  have both : authMachine.Reachable s₂
      ∧ SinceReplaced s.tables.nextSalt (fun id => s.keptSession a = some id) s₁ s₂ := by
    induction run with
    | refl => exact ⟨reached₁, .start reached stepped replaced⟩
    | step _ _ next ih =>
        exact ⟨ih.1.next trivial next, ih.2.step earlier (hashes_drawn reached₁).numbers ih.1 next⟩
  exact both.2

end Replaced

section Exchange

variable {s s' t t' : AuthSystem} {a b : AuthAction} {token : RefreshTokenString}

/-- The token is used up. -/
def AuthTables.UsedUp (token : RefreshTokenString) (t : AuthTables) : Prop :=
  token.jti < t.nextJti ∧ ∀ x ∈ t.refreshTokens, x.token ≠ token

/-- An exchange needs the row of the token. -/
theorem Exchanged.row (h : Exchanged s a s' token) : ∃ (k : Nat) (q : AuthRequest) (sid : Nat)
    (x : RefreshToken), s.calls[k]? = some q ∧ x ∈ s.tables.refreshTokens
      ∧ s.tables.rotatable token sid x = true ∧ s'.tables.nextJti = s.tables.nextJti + 1
      ∧ s'.tables.refreshTokens = s.tables.refreshTokens.map fun row =>
          if s.tables.rotatable token sid row then
            { row with token := ⟨sid, s.tables.nextJti⟩
                       expiresAt := s.tables.now + AuthTables.refreshTokenTtlMs }
          else row := by
  obtain ⟨k, q, sid, rfl, found, rotating, next, written⟩ := h
  cases AuthSystem.step_event (s := s) (a := .resume k) next with
  | @resumed _ r t next found' write =>
      obtain rfl := Option.some.inj (found.symm.trans found')
      rw [rotating] at write
      cases write with
      | passed => exact absurd rfl written
      | created _ opens => simp at opens
      | rotated one =>
          obtain ⟨x, listed, matched⟩ := List.countP_pos_iff.mp (one ▸ Nat.one_pos)
          exact ⟨k, q, sid, x, found, listed, matched, rfl, rfl⟩

theorem AuthTables.rotatable_iff {t : AuthTables} {sid : Nat} {x : RefreshToken} :
    t.rotatable token sid x = true ↔ (x.id = sid ∧ x.token = token) ∧ t.now < x.expiresAt := by
  simp [AuthTables.rotatable]

theorem Exchanged.usedUp (reached : authMachine.Reachable s) (h : Exchanged s a s' token) :
    s'.tables.UsedUp token := by
  have numbered := sessions_numbered reached
  obtain ⟨-, -, sid, x, -, listed, matched, drawn, rows⟩ := h.row
  obtain ⟨⟨rfl, rfl⟩, -⟩ := AuthTables.rotatable_iff.mp matched
  have bound := numbered.drawn x listed
  refine ⟨by omega, fun y written same => ?_⟩
  rw [rows] at written
  obtain ⟨z, old, rfl⟩ := List.mem_map.mp written
  split at same
  · have jti : s.tables.nextJti = x.token.jti := congrArg RefreshTokenString.jti same
    omega
  · rename_i unmatched
    have ids : z.id = x.id := by rw [← numbered.own z old, ← numbered.own x listed, same]
    obtain rfl := List.inj_on_of_nodup_map numbered.unique old listed ids
    exact unmatched matched

/-- A refresh token after the step is an earlier one, or is drawn anew. -/
theorem AuthEvent.tokens (h : AuthEvent s a s') : s.tables.nextJti ≤ s'.tables.nextJti
    ∧ ∀ x ∈ s'.tables.refreshTokens,
      (∃ y ∈ s.tables.refreshTokens, y.token = x.token) ∨ x.token.jti = s.tables.nextJti := by
  cases h with
  | called | crashed | moderated | waited => exact ⟨Nat.le_refl _, fun x listed => .inl ⟨x, listed, rfl⟩⟩
  | signedOut =>
      exact ⟨Nat.le_refl _, fun x listed => .inl ⟨x, (List.mem_filter.mp listed).1, rfl⟩⟩
  | @resumed k q t next found write =>
      obtain ⟨number, call⟩ := q
      cases write with
      | passed | created | linked | invalidated | mailed | verified =>
          exact ⟨Nat.le_refl _, fun x listed => .inl ⟨x, listed, rfl⟩⟩
      | chosen => exact ⟨Nat.le_refl _, fun x listed => .inl ⟨x, (List.mem_filter.mp listed).1, rfl⟩⟩
      | reset | changed => exact ⟨Nat.le_refl _, fun x listed => by cases listed⟩
      | issued =>
          refine ⟨Nat.le_succ _, fun x listed => ?_⟩
          rcases List.mem_append.mp listed with old | new
          · exact .inl ⟨x, old, rfl⟩
          · obtain rfl := List.mem_singleton.mp new
            exact .inr rfl
      | rotated =>
          refine ⟨Nat.le_succ _, fun x listed => ?_⟩
          obtain ⟨y, old, rfl⟩ := List.mem_map.mp listed
          split
          · exact .inr rfl
          · exact .inl ⟨y, old, rfl⟩

theorem usedUp_run (run : authMachine.RunUnder (fun _ _ => True) s t) (h : s.tables.UsedUp token) :
    t.tables.UsedUp token := by
  refine run.invariant (I := fun s => s.tables.UsedUp token) ?_ h
  rintro u b u' ⟨bound, absent⟩ - stepped
  obtain ⟨monotone, tokens⟩ := (AuthSystem.step_event stepped).tokens
  refine ⟨Nat.lt_of_lt_of_le bound monotone, fun x listed same => ?_⟩
  obtain ⟨y, old, kept⟩ | new := tokens x listed
  · exact absent y old (kept.trans same)
  · rw [same] at new
    omega

end Exchange

theorem replaced_password_sessions {s s₁ s₂ : AuthSystem} {a : AuthAction} (reached : authMachine.Reachable s)
    (stepped : authMachine.next s a = some s₁) (replaced : s.ReplacesPassword s₁)
    (run : authMachine.RunUnder (fun _ _ => True) s₁ s₂) :
    ∀ row ∈ s₂.tables.refreshTokens, s.keptSession a = some row.id ∨ SignedInSince s₁ s₂ row.id :=
  (sinceReplaced_run reached stepped replaced run).rows

theorem exchanged_once {x x₁ x₂ x₃ : AuthSystem} {b c : AuthAction} {token : RefreshTokenString}
    (reached : authMachine.Reachable x) (exchanged : Exchanged x b x₁ token)
    (run : authMachine.RunUnder (fun _ _ => True) x₁ x₂) : ¬ Exchanged x₂ c x₃ token := by
  intro again
  obtain ⟨-, absent⟩ := usedUp_run run (exchanged.usedUp reached)
  obtain ⟨-, -, sid, row, -, listed, matched, -⟩ := again.row
  exact absent row listed (AuthTables.rotatable_iff.mp matched).1.2

/-- Once the password has been replaced, the sessions are those of sign-ins that have read the account
    afterwards, and the Google-verified one that `setUserPassword` keeps. A refresh token is exchanged
    at most once. -/
theorem new_password_revokes_sessions {s s₁ s₂ x x₁ x₂ x₃ : AuthSystem} {a b c : AuthAction}
    {token : RefreshTokenString}
    (reached : authMachine.Reachable s) (stepped : authMachine.next s a = some s₁)
    (replaced : s.ReplacesPassword s₁) (run : authMachine.RunUnder (fun _ _ => True) s₁ s₂)
    (reached' : authMachine.Reachable x) (exchanged : Exchanged x b x₁ token)
    (run' : authMachine.RunUnder (fun _ _ => True) x₁ x₂) :
    (∀ row ∈ s₂.tables.refreshTokens, s.keptSession a = some row.id ∨ SignedInSince s₁ s₂ row.id)
      ∧ ¬ Exchanged x₂ c x₃ token :=
  ⟨replaced_password_sessions reached stepped replaced run, exchanged_once reached' exchanged run'⟩

/-- An account without sessions. -/
def sampleAuth : AuthSystem where
  tables := { now := 0, user := some { passwordHash := ⟨some "Old-pass1", 0⟩, passwordState := .set }
              nextSalt := 1 }

theorem sampleAuth_initial : authMachine.initial sampleAuth := by
  refine ⟨rfl, rfl, rfl, rfl, fun u found => ?_⟩
  obtain rfl := Option.some.inj found
  exact Nat.one_pos

/-- Two sign-ins; the second one has read the account when the first one's session changes the
    password. -/
def sampleOvertaken : List AuthAction :=
  [.call (.loginUser "Old-pass1"), .resume 0, .resume 0, .call (.loginUser "Old-pass1"), .resume 0,
    .call (.changeUserPassword "Old-pass1" "New-pass1" (some 0)), .resume 1]

/-- The overtaken sign-in ends, and a new one follows whose session is refreshed. -/
def sampleSignInAgain : List AuthAction :=
  [.resume 0, .call (.loginUser "New-pass1"), .resume 0, .resume 0,
    .call (.refreshAccessToken ⟨1, 1⟩), .resume 0, .resume 0]

theorem new_password_revokes_sessions_overtaken : ∃ s s₁ x x₁,
    authMachine.exec sampleAuth sampleOvertaken = some s ∧ authMachine.next s (.resume 1) = some s₁
    ∧ authMachine.exec s₁ sampleSignInAgain = some x ∧ authMachine.next x (.resume 0) = some x₁
    ∧ (∀ row ∈ x₁.tables.refreshTokens, s.keptSession (.resume 1) = some row.id ∨ SignedInSince s₁ x₁ row.id)
    ∧ x₁.tables.sessionIds = [1] ∧ ∀ c x₃, ¬ Exchanged x₁ c x₃ ⟨1, 1⟩ := by
  obtain ⟨s, run, ends⟩ := (Option.any_eq_true _ _).mp (by decide :
    (authMachine.exec sampleAuth sampleOvertaken).any (fun s => (authMachine.next s (.resume 1)).any fun s₁ =>
      s.tables.passwordHash.isSome && s₁.tables.passwordHash != s.tables.passwordHash
        && (authMachine.exec s₁ sampleSignInAgain).any fun x =>
          x.calls[0]?.any (·.call == .rotate ⟨1, 1⟩ 1) && (authMachine.next x (.resume 0)).any fun x₁ =>
            x₁.tables != x.tables && x₁.tables.sessionIds == [1]) = true)
  obtain ⟨s₁, stepped, ends⟩ := (Option.any_eq_true _ _).mp ends
  simp only [Bool.and_eq_true, bne_iff_ne] at ends
  obtain ⟨replaced, ends⟩ := ends
  obtain ⟨x, again, ends⟩ := (Option.any_eq_true _ _).mp ends
  obtain ⟨rotating, ends⟩ := Bool.and_eq_true_iff.mp ends
  obtain ⟨q, found, rotates⟩ := (Option.any_eq_true _ _).mp rotating
  obtain ⟨x₁, exchanging, ends⟩ := (Option.any_eq_true _ _).mp ends
  simp only [Bool.and_eq_true, bne_iff_ne, beq_iff_eq] at ends rotates
  have reached : authMachine.Reachable s := .of_exec sampleAuth_initial run
  have after : authMachine.RunUnder (fun _ _ => True) s₁ x := .of_exec again
  have exchanged : Exchanged x (.resume 0) x₁ ⟨1, 1⟩ := ⟨0, q, 1, rfl, found, rotates, exchanging, ends.1⟩
  have next : authMachine.RunUnder (fun _ _ => True) s₁ x₁ := after.step trivial exchanging
  have reached' : authMachine.Reachable x := by
    obtain ⟨s₀, initial, before⟩ := reached.next trivial stepped
    exact ⟨s₀, initial, before.trans after⟩
  have revoked : ∀ c x₃, _ ∧ ¬ Exchanged x₁ c x₃ ⟨1, 1⟩ := fun _ _ =>
    new_password_revokes_sessions reached stepped replaced next reached' exchanged .refl
  exact ⟨s, s₁, x, x₁, run, stepped, again, exchanging, (revoked (.wait 0) x₁).1, ends.2,
    fun c x₃ => (revoked c x₃).2⟩

end ServiceHub
