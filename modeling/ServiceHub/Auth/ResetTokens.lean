import ServiceHub.Auth.Sessions

/-! # Links to a new password

`resetPassword` claims the row of its own link. The other links of the account end with it as long as
none of them is live, which `forgotPassword` sees to only when its calls do not overlap.
-/

namespace ServiceHub

open Guard

/-- The row of the link is claimed by the transaction of `resetPassword`. -/
def AuthTables.claims (token : Nat) (t : AuthTables) (row : PasswordResetToken) : Bool :=
  row.token == token && row.live t.now

/-- The transaction of `resetPassword` goes through. -/
def AuthTables.resets (token : Nat) (t : AuthTables) : Bool :=
  t.user.any (fun user => user.deactivatedAt.isNone && user.isActive && user.resettable)
    && t.passwordResetTokens.countP (t.claims token) == 1

/-- A `resetPassword` that goes through finds no other unused and unexpired link. -/
def AuthSystem.lastLink (s : AuthSystem) : AuthAction → Bool
  | .resume k => (s.calls[k]?).all fun q => match q.call with
      | .resetCommit token _ => !s.tables.resets token
          || s.tables.passwordResetTokens.all fun row => !row.live s.tables.now || row.token == token
      | _ => true
  | _ => true

def AuthSystem.LastLink (s : AuthSystem) (a : AuthAction) : Prop :=
  s.lastLink a = true

/-- The step sets the password by the link. -/
def SetByLink (s : AuthSystem) (a : AuthAction) (s' : AuthSystem) (token : Nat) : Prop :=
  ∃ k q newPassword, a = .resume k ∧ s.calls[k]? = some q ∧ q.call = .resetCommit token newPassword
    ∧ authMachine.next s a = some s' ∧ s.ReplacesPassword s'

section Links

variable {s s' s₁ s₂ s₃ u : AuthSystem} {a b : AuthAction} {t t' : AuthTables} {token n : Nat}
  {C : AuthSystem → AuthAction → Prop}

theorem AuthTables.resetPassword_ok {newPassword : String}
    (h : t.resetPassword token newPassword = .ok t') : t.resets token = true := by
  simp only [AuthTables.resetPassword, bind_ok, orThrow_ok, rejectIf_ok, not_or, not_not, ne_eq] at h
  obtain ⟨user, found, -, ⟨closed, inactive, confirmed⟩, -, claimed, -⟩ := h
  simp only [AuthTables.resets, found, Option.any_some, Bool.and_eq_true, Option.isNone_iff_eq_none,
    beq_iff_eq]
  refine ⟨⟨⟨?_, by simpa using inactive⟩, by simpa using confirmed⟩, claimed⟩
  simpa using closed

theorem SetByLink.resets (h : SetByLink s a s' token) : s.tables.resets token = true := by
  obtain ⟨k, q, newPassword, rfl, found, resetting, next, -, changed⟩ := h
  simp only [authMachine, AuthSystem.step, found, Option.map_some, Option.some.injEq, resetting] at next
  cases run : s.tables.resetPassword token newPassword with
  | ok after => exact AuthTables.resetPassword_ok run
  | error =>
      have same : s'.tables = s.tables := by
        rw [← next]
        simp [AuthTables.resume, AuthTables.commit, run]
      rw [same] at changed
      exact absurd rfl changed

theorem SetByLink.alone (h : SetByLink s a s' token) (last : s.LastLink a) :
    ∀ row ∈ s.tables.passwordResetTokens, row.live s.tables.now = true → row.token = token := by
  have resets := h.resets
  obtain ⟨k, q, newPassword, rfl, found, resetting, -⟩ := h
  intro row listed lives
  simp only [AuthSystem.LastLink, AuthSystem.lastLink, found, Option.all_some, resetting, resets,
    Bool.not_true, Bool.false_or, List.all_eq_true, Bool.or_eq_true, beq_iff_eq] at last
  rcases last row listed with dead | same
  · simp [lives] at dead
  · exact same

/-- The link needs a live row. -/
theorem SetByLink.live (h : SetByLink s a s' token) :
    ∃ row ∈ s.tables.passwordResetTokens, row.token = token ∧ row.live s.tables.now = true := by
  have resets := h.resets
  simp only [AuthTables.resets, Bool.and_eq_true, beq_iff_eq] at resets
  obtain ⟨row, listed, claimed⟩ := List.countP_pos_iff.mp (by omega :
    0 < s.tables.passwordResetTokens.countP (s.tables.claims token))
  simp only [AuthTables.claims, Bool.and_eq_true, beq_iff_eq] at claimed
  exact ⟨row, listed, claimed⟩

/-- A row after the step is an earlier one, which is not unused again, or the one that a mail carries. -/
theorem AuthEvent.links (h : AuthEvent s a s') : s.tables.now ≤ s'.tables.now
    ∧ s.tables.nextReset ≤ s'.tables.nextReset
    ∧ ∀ row ∈ s'.tables.passwordResetTokens,
      (∃ old ∈ s.tables.passwordResetTokens, old.token = row.token ∧ old.expiresAt = row.expiresAt
        ∧ (old.used = true → row.used = true))
      ∨ row.token = s.tables.nextReset ∧ s'.tables.nextReset = s.tables.nextReset + 1 := by
  cases h with
  | called | crashed | signedOut | moderated =>
      exact ⟨Nat.le_refl _, Nat.le_refl _, fun row listed => .inl ⟨row, listed, rfl, rfl, id⟩⟩
  | waited =>
      exact ⟨Nat.le_add_right _ _, Nat.le_refl _, fun row listed => .inl ⟨row, listed, rfl, rfl, id⟩⟩
  | @resumed k q t next found write =>
      obtain ⟨number, call⟩ := q
      cases write with
      | passed | created | linked | issued | rotated | verified =>
          exact ⟨Nat.le_refl _, Nat.le_refl _, fun row listed => .inl ⟨row, listed, rfl, rfl, id⟩⟩
      | invalidated | changed | chosen =>
          exact ⟨Nat.le_refl _, Nat.le_refl _, fun row listed => by cases listed⟩
      | mailed =>
          refine ⟨Nat.le_refl _, Nat.le_succ _, fun row listed => ?_⟩
          rcases List.mem_append.mp listed with old | new
          · exact .inl ⟨row, old, rfl, rfl, id⟩
          · obtain rfl := List.mem_singleton.mp new
            exact .inr ⟨rfl, rfl⟩
      | reset =>
          refine ⟨Nat.le_refl _, Nat.le_refl _, fun row listed => ?_⟩
          obtain ⟨old, earlier, rfl⟩ := List.mem_map.mp listed
          refine .inl ⟨old, earlier, ?_⟩
          split
          · exact ⟨rfl, rfl, fun _ => rfl⟩
          · exact ⟨rfl, rfl, id⟩

theorem links_numbered (h : authMachine.ReachableUnder C s) :
    ∀ row ∈ s.tables.passwordResetTokens, row.token < s.tables.nextReset := by
  refine h.invariant (I := fun s => ∀ row ∈ s.tables.passwordResetTokens, row.token < s.tables.nextReset)
    ?_ ?_
  · rintro s ⟨-, empty, -⟩
    simp [empty]
  · intro s a s' known _ stepped row listed
    obtain ⟨-, monotone, rows⟩ := (AuthSystem.step_event stepped).links
    obtain ⟨old, earlier, same, -⟩ | ⟨drawn, next⟩ := rows row listed
    · have := known old earlier
      omega
    · omega

/-- The links below the number have ended. -/
def AuthTables.LinksEnded (n : Nat) (t : AuthTables) : Prop :=
  n ≤ t.nextReset ∧ ∀ row ∈ t.passwordResetTokens, row.token < n → row.live t.now = false

theorem AuthEvent.linksEnded (h : AuthEvent s a s') (ended : s.tables.LinksEnded n) :
    s'.tables.LinksEnded n := by
  obtain ⟨later, monotone, rows⟩ := h.links
  obtain ⟨bound, ended⟩ := ended
  refine ⟨Nat.le_trans bound monotone, fun row listed below => ?_⟩
  obtain ⟨old, earlier, same, expires, used⟩ | ⟨drawn, -⟩ := rows row listed
  · have dead := ended old earlier (by omega)
    simp only [PasswordResetToken.live, Bool.and_eq_false_iff, Bool.not_eq_false',
      decide_eq_false_iff_not] at dead ⊢
    rcases dead with spent | expired
    · exact .inl (used spent)
    · exact .inr (expires ▸ fun lives => expired (Nat.lt_of_le_of_lt later lives))
  · omega

theorem linksEnded_run (run : authMachine.RunUnder C s s') (ended : s.tables.LinksEnded n) :
    s'.tables.LinksEnded n :=
  run.invariant (I := fun s => s.tables.LinksEnded n)
    (fun _ _ _ known _ stepped => (AuthSystem.step_event stepped).linksEnded known) ended

theorem nextReset_run (run : authMachine.RunUnder C s s') : s.tables.nextReset ≤ s'.tables.nextReset := by
  induction run with
  | refl => exact Nat.le_refl _
  | step _ _ stepped ih => exact Nat.le_trans ih (AuthSystem.step_event stepped).links.2.1

/-- A password set by a link ends the other links when none of them is live; the other ways to set a
    password delete the rows. -/
theorem AuthEvent.endsLinks (h : AuthEvent s a s₁) (stepped : authMachine.next s a = some s₁)
    (replaced : s.ReplacesPassword s₁) (last : s.LastLink a) :
    ∀ row ∈ s₁.tables.passwordResetTokens, row.live s₁.tables.now = false := by
  obtain ⟨existing, changed⟩ := replaced
  cases h with
  | called | crashed | signedOut | waited => exact absurd rfl changed
  | moderated => exact (changed (AuthTables.updateUser_passwordHash fun _ => rfl)).elim
  | @resumed k q t next found write =>
      obtain ⟨number, call⟩ := q
      cases write with
      | passed | rotated | invalidated | mailed => exact absurd rfl changed
      | created new => simp [AuthTables.passwordHash, new] at existing
      | linked | verified => exact (changed (AuthTables.updateUser_passwordHash fun _ => rfl)).elim
      | issued _ keeps => exact (changed (AuthTables.updateUser_passwordHash keeps)).elim
      | changed | chosen =>
          intro row listed
          cases listed
      | @reset token newPassword u present claimed =>
          have byLink : SetByLink s (.resume k) _ token :=
            ⟨k, _, newPassword, rfl, found, rfl, stepped, existing, changed⟩
          intro row listed
          obtain ⟨old, earlier, rfl⟩ := List.mem_map.mp listed
          split
          · simp [PasswordResetToken.live]
          · rename_i unclaimed
            cases lives : old.live s.tables.now with
            | false => exact lives
            | true =>
                have same := byLink.alone last old earlier lives
                simp [same, lives] at unclaimed

end Links

/-- Once a call has set the password, no link that was created before sets it again. -/
theorem reset_links_end {s₀ s s₁ s₂ s₃ : AuthSystem} {a b : AuthAction} {row : PasswordResetToken}
    (reached : authMachine.ReachableUnder AuthSystem.LastLink s₀)
    (created : row ∈ s₀.tables.passwordResetTokens) (before : authMachine.RunUnder AuthSystem.LastLink s₀ s)
    (last : s.LastLink a) (stepped : authMachine.next s a = some s₁) (replaced : s.ReplacesPassword s₁)
    (run : authMachine.RunUnder AuthSystem.LastLink s₁ s₂) : ¬ SetByLink s₂ b s₃ row.token := by
  intro again
  have numbered := links_numbered reached row created
  have event := AuthSystem.step_event stepped
  have ended : s₁.tables.LinksEnded (row.token + 1) := by
    refine ⟨?_, fun row' listed _ => event.endsLinks stepped replaced last row' listed⟩
    have := nextReset_run before
    have := event.links.2.1
    omega
  obtain ⟨old, listed, same, lives⟩ := again.live
  have dead := (linksEnded_run run ended).2 old listed (by omega)
  rw [lives] at dead
  cases dead

/-- Two links are mailed by calls that overlap. -/
def sampleMailed : List AuthAction :=
  [.call .forgotPassword, .call .forgotPassword, .resume 0, .resume 1, .resume 0, .resume 1, .resume 0, .resume 0]

def sampleChange : List AuthAction := [.call (.changeUserPassword "Old-pass1" "New-pass1" none), .resume 0]

/-- The first link is opened: the reset is refused. -/
def sampleReopened : List AuthAction := [.call (.resetPassword 0 "Last-pass1"), .resume 0]

theorem reset_links_end_changed : ∃ s₀ s s₁ s₂, authMachine.execUnder AuthSystem.lastLink sampleAuth sampleMailed = some s₀
    ∧ s₀.tables.passwordResetTokens.map (·.token) = [0, 1]
    ∧ authMachine.execUnder AuthSystem.lastLink s₀ sampleChange = some s ∧ authMachine.next s (.resume 0) = some s₁
    ∧ authMachine.execUnder AuthSystem.lastLink s₁ sampleReopened = some s₂
    ∧ ∀ token ∈ [0, 1], ∀ b s₃, ¬ SetByLink s₂ b s₃ token := by
  obtain ⟨s₀, mailed, ends⟩ := (Option.any_eq_true _ _).mp (by decide :
    (authMachine.execUnder AuthSystem.lastLink sampleAuth sampleMailed).any (fun s₀ =>
      s₀.tables.passwordResetTokens.map (·.token) == [0, 1]
        && (authMachine.execUnder AuthSystem.lastLink s₀ sampleChange).any fun s =>
          s.lastLink (.resume 0) && s.tables.passwordHash.isSome && (authMachine.next s (.resume 0)).any fun s₁ =>
            s₁.tables.passwordHash != s.tables.passwordHash
              && (authMachine.execUnder AuthSystem.lastLink s₁ sampleReopened).isSome) = true)
  obtain ⟨tokens, ends⟩ := Bool.and_eq_true_iff.mp ends
  obtain ⟨s, read, ends⟩ := (Option.any_eq_true _ _).mp ends
  simp only [Bool.and_eq_true] at ends
  obtain ⟨⟨last, existing⟩, ends⟩ := ends
  obtain ⟨s₁, stepped, ends⟩ := (Option.any_eq_true _ _).mp ends
  obtain ⟨changed, ends⟩ := Bool.and_eq_true_iff.mp ends
  obtain ⟨s₂, reopened⟩ := Option.isSome_iff_exists.mp ends
  simp only [beq_iff_eq, bne_iff_ne] at tokens changed
  have reached : authMachine.ReachableUnder AuthSystem.LastLink s₀ :=
    ⟨sampleAuth, sampleAuth_initial, .of_execUnder (fun _ _ h => h) mailed⟩
  refine ⟨s₀, s, s₁, s₂, mailed, tokens, read, stepped, reopened, fun token listed b s₃ => ?_⟩
  rw [← tokens] at listed
  obtain ⟨row, created, rfl⟩ := List.mem_map.mp listed
  exact reset_links_end reached created (.of_execUnder (fun _ _ h => h) read) last stepped ⟨existing, changed⟩
    (.of_execUnder (fun _ _ h => h) reopened)

/-- Two requests for a link overlap, and both links are opened. -/
def sampleTwoLinks : List AuthAction :=
  [.call .forgotPassword, .call .forgotPassword, .resume 0, .resume 1, .resume 0, .resume 1, .resume 0, .resume 0,
    .call (.resetPassword 0 "First-pass1"), .call (.resetPassword 1 "Second-pass1"), .resume 0, .resume 1]

theorem two_links_set_password : ∃ s s₁ s₂, authMachine.exec sampleAuth sampleTwoLinks = some s
    ∧ s.tables.passwordResetTokens.map (·.token) = [0, 1]
    ∧ SetByLink s (.resume 0) s₁ 0 ∧ SetByLink s₁ (.resume 0) s₂ 1 := by
  obtain ⟨s, run, ends⟩ := (Option.any_eq_true _ _).mp (by decide :
    (authMachine.exec sampleAuth sampleTwoLinks).any (fun s =>
      s.tables.passwordResetTokens.map (·.token) == [0, 1]
        && s.calls[0]?.any (·.call == .resetCommit 0 "First-pass1")
        && s.tables.passwordHash.isSome && (authMachine.next s (.resume 0)).any fun s₁ =>
          s₁.tables.passwordHash != s.tables.passwordHash
          && s₁.calls[0]?.any (·.call == .resetCommit 1 "Second-pass1")
          && s₁.tables.passwordHash.isSome && (authMachine.next s₁ (.resume 0)).any fun s₂ =>
            s₂.tables.passwordHash != s₁.tables.passwordHash) = true)
  simp only [Bool.and_eq_true, beq_iff_eq] at ends
  obtain ⟨⟨⟨mailed, opened⟩, existing⟩, ends⟩ := ends
  obtain ⟨q, found, resetting⟩ := (Option.any_eq_true _ _).mp opened
  obtain ⟨s₁, stepped, ends⟩ := (Option.any_eq_true _ _).mp ends
  simp only [Bool.and_eq_true, bne_iff_ne] at ends
  obtain ⟨⟨⟨changed, opened'⟩, existing'⟩, ends⟩ := ends
  obtain ⟨q', found', resetting'⟩ := (Option.any_eq_true _ _).mp opened'
  obtain ⟨s₂, stepped', changed'⟩ := (Option.any_eq_true _ _).mp ends
  simp only [beq_iff_eq, bne_iff_ne] at resetting resetting' changed'
  exact ⟨s, s₁, s₂, run, mailed,
    ⟨0, q, "First-pass1", rfl, found, resetting, stepped, existing, changed⟩,
    ⟨0, q', "Second-pass1", rfl, found', resetting', stepped', existing', changed'⟩⟩

end ServiceHub
