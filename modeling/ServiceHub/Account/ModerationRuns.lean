import ServiceHub.Account.Moderation
import ServiceHub.Booking.Coupling

/-! # Runs of the account moderation

The audit log tells who is banned: as long as no request lifts a suspension that has been replaced since it was read, an
account is banned exactly when its last access row is a ban, and only a restoration or an approved appeal lifts it.
-/

namespace ServiceHub

open Guard

/-- The actions that open or close an account. -/
def ModerationAuditAction.access : ModerationAuditAction → Bool
  | .userBanned | .userRestored | .banAppealApproved => true
  | .userSuspended | .banAppealRejected | .contentOwnerWarned => false

/-- The columns of the moderation agree. -/
structure ModeratedAccount.InOrder (a : ModeratedAccount) : Prop where
  active : a.moderationStatus = .active → a.suspendedUntil = none ∧ a.moderationReason = none
  suspended : a.moderationStatus = .suspended → a.suspendedUntil.isSome = true ∧ a.moderationReason.isSome = true
  banned : a.moderationStatus = .banned → a.suspendedUntil = none ∧ a.moderationReason.isSome = true

/-- An appeal that waits has no decision, and a decided one has its administrator, reason and time. -/
structure BanAppeal.InOrder (x : BanAppeal) : Prop where
  pending : x.status = .pending → x.decidedById = none ∧ x.decidedAt = none ∧ x.decisionReason = none
  decided : x.status ≠ .pending → x.decidedById.isSome = true ∧ x.decidedAt.isSome = true ∧ x.decisionReason.isSome = true

/-- The audit row of the decision, in its columns. -/
def BanAppeal.decisionAudit (x : BanAppeal) : List (UserId × UserId × ModerationAuditAction) :=
  x.decidedById.toList.map fun admin =>
    (admin, x.userId, if x.status = .approved then .banAppealApproved else .banAppealRejected)

/-- The same appeal, or its decision. -/
def BanAppeal.Decides (x x' : BanAppeal) : Prop :=
  x' = x ∨ x.status = .pending ∧ ∃ now status reason admin, status ≠ .pending ∧ x' = x.decide now status reason admin

/-- An account, and what the audit log says about its access, in order. -/
structure AccountView where
  account : Option ModeratedAccount
  access : List ModerationAuditAction

structure AccountView.InOrder (v : AccountView) : Prop where
  unknown : v.account = none → v.access = []
  columns : ∀ a, v.account = some a → a.InOrder
  audited : ∀ a, v.account = some a → a.moderationStatus = .banned → v.access.getLast? = some .userBanned

/-- An account is banned exactly when its last access row is a ban. -/
def AccountView.Told (v : AccountView) : Prop :=
  ∀ a, v.account = some a → (a.moderationStatus = .banned ↔ v.access.getLast? = some .userBanned)

/-- What a transaction may do to an account; in a fresh one, a suspension that is lifted still stands. -/
inductive AccountEvent (fresh : Prop) (v : AccountView) : AccountView → Prop where
  | kept : AccountEvent fresh v v
  | created {a : ModeratedAccount} (new : v.account = none) (untouched : a.untouched = true) :
      AccountEvent fresh v { v with account := some a }
  | suspended {a b : ModeratedAccount} (account : v.account = some a) (active : a.moderationStatus = .active)
      (suspends : b.moderationStatus = .suspended ∧ b.suspendedUntil.isSome = true ∧ b.moderationReason.isSome = true) :
      AccountEvent fresh v { v with account := some b }
  | banned {a b : ModeratedAccount} (account : v.account = some a) (unbanned : a.moderationStatus ≠ .banned)
      (bans : b.moderationStatus = .banned ∧ b.suspendedUntil = none ∧ b.moderationReason.isSome = true) :
      AccountEvent fresh v { v with account := some b, access := v.access ++ [.userBanned] }
  | restored {a : ModeratedAccount} {rows : List ModerationAuditAction} {last : ModerationAuditAction}
      (account : v.account = some a) (opens : last ≠ .userBanned) :
      AccountEvent fresh v { v with account := some a.restore, access := v.access ++ (rows ++ [last]) }
  | lifted {a : ModeratedAccount} (account : v.account = some a) (stands : fresh → a.moderationStatus = .suspended) :
      AccountEvent fresh v { v with account := some a.restore }

/-- An appeal, and the audit rows of its decision, in their columns. -/
structure AppealView where
  appeal : Option BanAppeal
  audit : List (UserId × UserId × ModerationAuditAction)

structure AppealView.InOrder (v : AppealView) : Prop where
  unknown : v.appeal = none → v.audit = []
  columns : ∀ x, v.appeal = some x → x.InOrder
  audited : ∀ x, v.appeal = some x → v.audit = x.decisionAudit

/-- What a transaction may do to an appeal. -/
inductive AppealEvent (v : AppealView) : AppealView → Prop where
  | kept : AppealEvent v v
  | submitted {userId : UserId} {ban : BanReference} {message : String} {now : Millis} (new : v.appeal = none) :
      AppealEvent v { v with appeal := some { userId, banAuditLogId := ban, message, createdAt := now } }
  | decided {x : BanAppeal} {now : Millis} {status : BanAppealStatus} {reason : String} {admin : UserId}
      (appeal : v.appeal = some x) (pending : x.status = .pending) (decides : status ≠ .pending) :
      AppealEvent v {
        appeal := some (x.decide now status reason admin)
        audit := v.audit ++ [(admin, x.userId, if status = .approved then .banAppealApproved else .banAppealRejected)] }

section Views

variable {fresh : Prop} {v v' : AccountView} {w w' : AppealView}

theorem ModeratedAccount.InOrder.of_untouched {a : ModeratedAccount} (untouched : a.untouched = true) : a.InOrder := by
  simp only [ModeratedAccount.untouched, Bool.and_eq_true, beq_iff_eq, Option.isNone_iff_eq_none] at untouched
  obtain ⟨⟨active, lasting⟩, unexplained⟩ := untouched
  constructor <;> simp [active, lasting, unexplained]

theorem ModeratedAccount.restore_inOrder (a : ModeratedAccount) : a.restore.InOrder := by
  constructor <;> simp [ModeratedAccount.restore]

theorem AccountView.InOrder.event (h : v.InOrder) (event : AccountEvent fresh v v') : v'.InOrder := by
  cases event with
  | kept => exact h
  | created new untouched =>
      refine ⟨by simp, fun a same => ?_, fun a same banned => ?_⟩
      · obtain rfl := Option.some.inj same
        exact .of_untouched untouched
      · obtain rfl := Option.some.inj same
        simp [ModeratedAccount.untouched, banned] at untouched
  | suspended account active suspends =>
      refine ⟨by simp, fun a same => ?_, fun a same banned => ?_⟩
      · obtain rfl := Option.some.inj same
        constructor <;> simp [suspends]
      · obtain rfl := Option.some.inj same
        simp [suspends.1] at banned
  | banned account unbanned bans =>
      refine ⟨by simp, fun a same => ?_, fun a same banned => List.getLast?_concat⟩
      obtain rfl := Option.some.inj same
      constructor <;> simp [bans]
  | restored account opens =>
      refine ⟨by simp, fun a same => ?_, fun a same banned => ?_⟩
      · obtain rfl := Option.some.inj same
        exact ModeratedAccount.restore_inOrder _
      · obtain rfl := Option.some.inj same
        cases banned
  | lifted account stands =>
      refine ⟨by simp, fun a same => ?_, fun a same banned => ?_⟩
      · obtain rfl := Option.some.inj same
        exact ModeratedAccount.restore_inOrder _
      · obtain rfl := Option.some.inj same
        cases banned

/-- As long as every lifted suspension stands, the audit log tells who is banned. -/
theorem AccountView.Told.event (h : v.Told) (known : v.InOrder) (event : AccountEvent fresh v v') (now : fresh) :
    v'.Told := by
  cases event with
  | kept => exact h
  | created new untouched =>
      intro a same
      obtain rfl := Option.some.inj same
      simp only [ModeratedAccount.untouched, Bool.and_eq_true, beq_iff_eq] at untouched
      simp [untouched.1.1, known.unknown new]
  | @suspended a b account active suspends =>
      intro c same
      obtain rfl := Option.some.inj same
      have before := h a account
      simp only [active, reduceCtorEq, false_iff] at before
      simp [suspends.1, before]
  | banned account unbanned bans =>
      intro c same
      obtain rfl := Option.some.inj same
      simp [bans.1]
  | restored account opens =>
      intro c same
      obtain rfl := Option.some.inj same
      simp [ModeratedAccount.restore, ← List.append_assoc, opens]
  | @lifted a account stands =>
      intro c same
      obtain rfl := Option.some.inj same
      have before := h a account
      simp only [stands now, reduceCtorEq, false_iff] at before
      simp [ModeratedAccount.restore, before]

theorem AppealView.InOrder.event (h : w.InOrder) (event : AppealEvent w w') : w'.InOrder := by
  cases event with
  | kept => exact h
  | submitted new =>
      refine ⟨by simp, fun x same => ?_, fun x same => ?_⟩
      · obtain rfl := Option.some.inj same
        constructor <;> simp
      · obtain rfl := Option.some.inj same
        exact h.unknown new
  | @decided x now status reason admin appeal pending decides =>
      refine ⟨by simp, fun y same => ?_, fun y same => ?_⟩
      · obtain rfl := Option.some.inj same
        exact ⟨fun waits => absurd waits decides, fun _ => ⟨rfl, rfl, rfl⟩⟩
      · obtain rfl := Option.some.inj same
        have undecided := ((h.columns x appeal).pending pending).1
        rw [h.audited x appeal, BanAppeal.decisionAudit, undecided]
        rfl

theorem AppealEvent.decides (event : AppealEvent w w') {x : BanAppeal} (before : w.appeal = some x) :
    ∃ x', w'.appeal = some x' ∧ x.Decides x' := by
  cases event with
  | kept => exact ⟨x, before, .inl rfl⟩
  | submitted new =>
      rw [new] at before
      cases before
  | decided appeal pending decides =>
      obtain rfl := Option.some.inj (before.symm.trans appeal)
      exact ⟨_, rfl, .inr ⟨pending, _, _, _, _, decides, rfl⟩⟩

end Views

namespace ModerationTables

def accountView (t : ModerationTables) (u : UserId) : AccountView where
  account := t.user u
  access := (t.audit.filter fun e => e.targetUserId == u && e.action.access).map (·.action)

def appealView (t : ModerationTables) (i : Nat) : AppealView where
  appeal := t.appeals[i]?
  audit := (t.audit.filter (·.appealId == some i)).map fun e => (e.actorId, e.targetUserId, e.action)

/-- The tables after any run. -/
structure InOrder (t : ModerationTables) : Prop where
  accounts : ∀ u, (t.accountView u).InOrder
  appeals : ∀ i, (t.appealView i).InOrder
  bans : ∀ x ∈ t.appeals, ∃ (i : Nat) (e : ModerationAudit), x.banAuditLogId = .log i ∧ t.audit[i]? = some e
    ∧ e.bans x.userId = true
  once : (t.appeals.map (·.banAuditLogId)).Nodup

/-- The audit log tells who is banned, and an appeal that waits is about the ban of now. -/
structure BansStand (t : ModerationTables) : Prop where
  told : ∀ u, (t.accountView u).Told
  pending : ∀ x ∈ t.appeals, x.status = .pending → x.banAuditLogId = t.latestBan x.userId
    ∧ ∃ a, t.user x.userId = some a ∧ a.moderationStatus = .banned

/-- The write of a request that meets another account than it has read: the suspension was replaced or lifted. -/
def stale (t : ModerationTables) (now : Millis) : ModerationAction → Bool
  | .liftExpired lapse => !((t.lapses[lapse]?.bind t.user).any (·.expired now))
  | _ => false

end ModerationTables

/-- What a transaction may do to the tables; in a fresh one, a suspension that is lifted still stands. -/
inductive ModerationEvent (fresh : Prop) (t : ModerationTables) : ModerationTables → Prop where
  | read {lapses : List UserId} : ModerationEvent fresh t { t with lapses }
  | created {u : UserId} {a : ModeratedAccount} (new : t.user u = none) (untouched : a.untouched = true) :
      ModerationEvent fresh t { t with user := Function.update t.user u (some a) }
  | warned {e : ModerationAudit} (target : (t.user e.targetUserId).isSome = true) (action : e.action.access = false)
      (resource : e.appealId = none) : ModerationEvent fresh t (t.log [e])
  | suspended {u : UserId} {a : ModeratedAccount} {g : ModeratedAccount → ModeratedAccount} {rows : List ModerationAudit}
      (account : t.user u = some a) (active : a.moderationStatus = .active)
      (suspends : (g a).moderationStatus = .suspended ∧ (g a).suspendedUntil.isSome = true
        ∧ (g a).moderationReason.isSome = true)
      (logged : ∀ e ∈ rows, e.targetUserId = u ∧ e.action.access = false ∧ e.appealId = none) :
      ModerationEvent fresh t ((t.updateUser u g).log rows)
  | banned {u : UserId} {a : ModeratedAccount} {g : ModeratedAccount → ModeratedAccount} {e : ModerationAudit}
      (account : t.user u = some a) (unbanned : a.moderationStatus ≠ .banned)
      (bans : (g a).moderationStatus = .banned ∧ (g a).suspendedUntil = none ∧ (g a).moderationReason.isSome = true)
      (logged : e.targetUserId = u ∧ e.action = .userBanned ∧ e.appealId = none) :
      ModerationEvent fresh t ((t.updateUser u g).log [e])
  | restored {now : Millis} {admin u : UserId} {a : ModeratedAccount} {reason : String} (account : t.user u = some a) :
      ModerationEvent fresh t ((({ t.updateUser u (·.restore) with
          appeals := Rows.updateWhere (·.pendingOf u) (·.decide now .approved reason admin) t.appeals }).log
        ((t.pendingAppeals u).map fun i => {
          actorId := admin, targetUserId := u, action := .banAppealApproved, appealId := some i, reason
          createdAt := now })).log
        [{ actorId := admin, targetUserId := u, action := .userRestored, reason, createdAt := now }])
  | lifted {u : UserId} {lapses : List UserId}
      (stands : fresh → ∀ a, t.user u = some a → a.moderationStatus = .suspended) :
      ModerationEvent fresh t { t.updateUser u (·.restore) with lapses }
  | appealed {now : Millis} {u : UserId} {a : ModeratedAccount} {message : String} (account : t.user u = some a)
      (banned : a.moderationStatus = .banned) (new : ∀ x ∈ t.appeals, x.banAuditLogId ≠ t.latestBan u) :
      ModerationEvent fresh t { t with
        appeals := t.appeals ++ [{ userId := u, banAuditLogId := t.latestBan u, message, createdAt := now }] }
  | decided {now : Millis} {admin : UserId} {i : Nat} {x : BanAppeal} {a : ModeratedAccount} {reason : String}
      {status : BanAppealStatus} {action : ModerationAuditAction} {g : ModeratedAccount → ModeratedAccount}
      (found : t.appeals[i]? = some x) (account : t.user x.userId = some a) (pending : x.status = .pending)
      (banned : a.moderationStatus = .banned)
      (outcome : status = .rejected ∧ action = .banAppealRejected ∧ g = id
        ∨ status = .approved ∧ action = .banAppealApproved ∧ g = (·.restore)) :
      ModerationEvent fresh t ((({ t with appeals := t.appeals.modify i (·.decide now status reason admin) }).updateUser
          x.userId g).log
        [{ actorId := admin, targetUserId := x.userId, action, appealId := some i, reason, createdAt := now }])

section Events

variable {t t' : ModerationTables} {now : Millis} {u admin : UserId} {reason : String} {fresh : Prop}

theorem allowed_account {account : Option ModeratedAccount} {own : Bool} {penalty : ReportPenalty}
    (allowed : penalty ∈ allowedReportPenalties (account.map (·.toUser)) own) (restricts : penalty = .suspend ∨ penalty = .ban) :
    ∃ a, account = some a ∧ (penalty = .suspend → a.moderationStatus = .active)
      ∧ (penalty = .ban → a.moderationStatus ≠ .banned) := by
  cases account with
  | none => rcases restricts with rfl | rfl <;> simp [allowedReportPenalties] at allowed
  | some a =>
      refine ⟨a, rfl, ?_, ?_⟩
      · rintro rfl
        simp only [allowedReportPenalties, Option.map_some, ModeratedAccount.toUser] at allowed
        split at allowed
        · simp at allowed
        · by_contra inactive
          split at allowed <;> simp_all
      · rintro rfl banned
        simp only [allowedReportPenalties, Option.map_some, ModeratedAccount.toUser, banned] at allowed
        split at allowed <;> simp at allowed

theorem applyReportPenalty_event {penalty : ReportPenalty} {notes : String} {blockers : Nat}
    (h : t.applyReportPenalty now admin u penalty notes blockers = .ok t') : ModerationEvent fresh t t' := by
  simp only [ModerationTables.applyReportPenalty, ite_ok, pure_ok] at h
  obtain ⟨-, rfl⟩ | ⟨allowed, h⟩ := h
  · exact .read
  rw [not_not] at allowed
  cases penalty with
  | none | warn | trustDeduct =>
      obtain rfl := pure_ok.mp h
      exact .read
  | suspend =>
      simp only [check_bind_ok, pure_ok] at h
      obtain ⟨-, rfl⟩ := h
      obtain ⟨a, account, active, -⟩ := allowed_account allowed (.inl rfl)
      have event : ModerationEvent fresh t ((t.updateUser u
          (·.suspend (now + 7 * 24 * 60 * 60 * 1000) notes)).log []) :=
        .suspended account (active rfl) ⟨rfl, rfl, rfl⟩ (by simp)
      simpa [ModerationTables.log] using event
  | ban =>
      obtain rfl := pure_ok.mp h
      obtain ⟨a, account, -, unbanned⟩ := allowed_account allowed (.inr rfl)
      exact .banned account (unbanned rfl) ⟨rfl, rfl, rfl⟩ ⟨rfl, rfl, rfl⟩

theorem penalizeContentOwner_event {penalty : ModerationTables.ContentPenalty} {days blockers : Nat}
    {expected : AccountModerationStatus}
    (h : t.penalizeContentOwner now admin u penalty reason days blockers expected = .ok t') :
    ModerationEvent fresh t t' := by
  simp only [ModerationTables.penalizeContentOwner, check_bind_ok, orThrow_bind_ok] at h
  obtain ⟨a, account, -, -, h⟩ := h
  cases penalty with
  | warn =>
      obtain rfl := pure_ok.mp h
      exact .warned (by simp [account]) rfl rfl
  | suspend =>
      simp only [check_bind_ok, rejectIf_ok, not_not, pure_ok] at h
      obtain ⟨active, -, rfl⟩ := h
      exact .suspended account active ⟨rfl, rfl, rfl⟩ (by simp [ModerationAuditAction.access])
  | ban =>
      simp only [check_bind_ok, rejectIf_ok, pure_ok] at h
      obtain ⟨unbanned, rfl⟩ := h
      exact .banned account unbanned ⟨rfl, rfl, rfl⟩ ⟨rfl, rfl, rfl⟩

/-- Every transaction is one of the events. -/
theorem moderation_event {a : Millis × ModerationAction} (h : moderationMachine.next t a = some t') :
    ModerationEvent (t.stale a.1 a.2 = false) t t' := by
  obtain ⟨now, action⟩ := a
  simp only [moderationMachine, toOption_some] at h
  cases action with
  | createAccount u account =>
      simp only [ModerationTables.run, check_bind_ok, rejectIf_ok, pure_ok, not_or, Bool.not_eq_true,
        Option.isSome_eq_false_iff, Option.isNone_iff_eq_none, Bool.not_eq_false] at h
      obtain ⟨⟨new, untouched⟩, rfl⟩ := h
      exact .created new untouched
  | suspendUser admin u reason days =>
      simp only [ModerationTables.run, ModerationTables.suspendUser, check_bind_ok, orThrow_bind_ok, rejectIf_ok, not_not,
        pure_ok] at h
      obtain ⟨-, a, account, active, rfl⟩ := h
      exact .suspended account active ⟨rfl, rfl, rfl⟩ (by simp [ModerationAuditAction.access])
  | banUser admin u reason =>
      simp only [ModerationTables.run, ModerationTables.banUser, check_bind_ok, orThrow_bind_ok, rejectIf_ok, pure_ok] at h
      obtain ⟨-, a, account, unbanned, rfl⟩ := h
      exact .banned account unbanned ⟨rfl, rfl, rfl⟩ ⟨rfl, rfl, rfl⟩
  | restoreUser admin u reason =>
      simp only [ModerationTables.run, ModerationTables.restoreUser, check_bind_ok, orThrow_bind_ok, pure_ok] at h
      obtain ⟨-, a, account, -, rfl⟩ := h
      exact .restored account
  | applyReportPenalty => exact applyReportPenalty_event h
  | penalizeContentOwner => exact penalizeContentOwner_event h
  | submitBanAppeal u message =>
      simp only [ModerationTables.run, ModerationTables.submitBanAppeal, check_bind_ok, orThrow_bind_ok, rejectIf_ok,
        not_not, pure_ok] at h
      obtain ⟨a, account, banned, new, rfl⟩ := h
      refine .appealed account banned fun x listed same => new ?_
      exact List.any_eq_true.mpr ⟨x, listed, by simpa using same⟩
  | decideBanAppeal admin i approve reason =>
      simp only [ModerationTables.run, ModerationTables.decideBanAppeal, check_bind_ok, orThrow_bind_ok, rejectIf_ok, not_or,
        not_not, pure_ok] at h
      obtain ⟨x, found, a, account, ⟨pending, banned⟩, rfl⟩ := h
      cases approve with
      | true => exact .decided found account pending banned (.inr ⟨rfl, rfl, rfl⟩)
      | false =>
          have same : ∀ s : ModerationTables, s.updateUser x.userId id = s := by
            simp [ModerationTables.updateUser]
          rw [if_neg Bool.false_ne_true, if_neg Bool.false_ne_true, if_neg Bool.false_ne_true, ← same { t with appeals := _ }]
          exact .decided found account pending banned (.inl ⟨rfl, rfl, rfl⟩)
  | authenticate u =>
      simp only [ModerationTables.run, ModerationTables.authenticate, orThrow_bind_ok, pure_ok] at h
      obtain ⟨a, account, rfl⟩ := h
      split
      · exact .read
      · exact .read
  | liftExpired lapse =>
      simp only [ModerationTables.run, ModerationTables.liftExpired, orThrow_bind_ok, pure_ok] at h
      obtain ⟨u, listed, rfl⟩ := h
      refine .lifted fun standing a account => ?_
      simp only [ModerationTables.stale, listed, Option.bind_some, account, Option.any_some, Bool.not_eq_false',
        ModeratedAccount.expired, Bool.and_eq_true, beq_iff_eq] at standing
      exact standing.1

end Events

section Frames

variable {t : ModerationTables} {u : UserId} {i : Nat} {rows : List ModerationAudit} {e : ModerationAudit}
  {g : ModeratedAccount → ModeratedAccount}

theorem accountView_log : (t.log rows).accountView u = { t.accountView u with
    access := (t.accountView u).access
      ++ (rows.filter fun e => e.targetUserId == u && e.action.access).map (·.action) } := by
  simp [ModerationTables.accountView, ModerationTables.log]

theorem accountView_log_silent (silent : ∀ e ∈ rows, e.targetUserId = u → e.action.access = false) :
    (t.log rows).accountView u = t.accountView u := by
  have unlisted : rows.filter (fun e => e.targetUserId == u && e.action.access) = [] := by
    refine List.filter_eq_nil_iff.mpr fun e listed both => ?_
    simp only [Bool.and_eq_true, beq_iff_eq] at both
    rw [silent e listed both.1] at both
    cases both.2
  rw [accountView_log, unlisted, List.map_nil, List.append_nil]

theorem accountView_update_other {w : UserId} (other : w ≠ u) : (t.updateUser u g).accountView w = t.accountView w := by
  simp [ModerationTables.accountView, ModerationTables.updateUser, Function.update_of_ne other]

theorem accountView_update_self {a : ModeratedAccount} (account : t.user u = some a) :
    (t.updateUser u g).accountView u = { t.accountView u with account := some (g a) } := by
  simp [ModerationTables.accountView, ModerationTables.updateUser, account]

theorem appealView_log_silent (silent : ∀ e ∈ rows, e.appealId ≠ some i) :
    (t.log rows).appealView i = t.appealView i := by
  have unlisted : rows.filter (·.appealId == some i) = [] :=
    List.filter_eq_nil_iff.mpr fun e listed same => silent e listed (by simpa using same)
  simp [ModerationTables.appealView, ModerationTables.log, List.filter_append, unlisted]

theorem appealView_log_one (resource : e.appealId = some i) : (t.log [e]).appealView i = { t.appealView i with
    audit := (t.appealView i).audit ++ [(e.actorId, e.targetUserId, e.action)] } := by
  simp [ModerationTables.appealView, ModerationTables.log, List.filter_append, resource]

theorem appealView_append {x : BanAppeal} : ({ t with appeals := t.appeals ++ [x] } : ModerationTables).appealView i
    = if i = t.appeals.length then { t.appealView i with appeal := some x } else t.appealView i := by
  simp only [ModerationTables.appealView]
  rcases Nat.lt_trichotomy i t.appeals.length with before | rfl | after
  · rw [List.getElem?_append_left before, if_neg (Nat.ne_of_lt before)]
  · simp
  · have short : (t.appeals ++ [x]).length ≤ i := by simpa using Nat.succ_le_of_lt after
    rw [List.getElem?_eq_none short, List.getElem?_eq_none (Nat.le_of_lt after), if_neg (Nat.ne_of_gt after)]

/-- The latest ban changes with a ban only. -/
theorem latestBan_log (silent : ∀ e ∈ rows, e.bans u = false) : (t.log rows).latestBan u = t.latestBan u := by
  have unlisted : (rows.zipIdx t.audit.length).filter (fun row => row.1.bans u) = [] := by
    refine List.filter_eq_nil_iff.mpr fun row listed bans => ?_
    rw [silent row.1 (List.fst_mem_of_mem_zipIdx listed)] at bans
    cases bans
  have same : ((t.log rows).audit.zipIdx.filter fun row => row.1.bans u)
      = t.audit.zipIdx.filter fun row => row.1.bans u := by
    simp [ModerationTables.log, List.zipIdx_append, List.filter_append, unlisted]
  rw [ModerationTables.latestBan, same, ModerationTables.latestBan]

/-- An account with a ban in the log has a latest one. -/
theorem latestBan_listed (known : .userBanned ∈ (t.accountView u).access) :
    ∃ (i : Nat) (e : ModerationAudit), t.latestBan u = .log i ∧ t.audit[i]? = some e ∧ e.bans u = true := by
  obtain ⟨e, listed, action⟩ := List.mem_map.mp known
  obtain ⟨member, target⟩ := List.mem_filter.mp listed
  simp only [Bool.and_eq_true, beq_iff_eq] at target
  obtain ⟨j, found⟩ := List.mem_iff_getElem?.mp member
  have numbered : (e, j) ∈ t.audit.zipIdx.filter fun row => row.1.bans u :=
    List.mem_filter.mpr ⟨List.mem_zipIdx_iff_getElem?.mpr found, by simp [ModerationAudit.bans, target.1, action]⟩
  have sorted := (List.mem_insertionSort ModerationAudit.newer).mpr numbered
  cases first : ((t.audit.zipIdx.filter fun row => row.1.bans u).insertionSort ModerationAudit.newer).head? with
  | none =>
      rw [List.head?_eq_none_iff.mp first] at sorted
      cases sorted
  | some row =>
      have chosen := (List.mem_insertionSort _).mp (List.mem_of_head? first)
      obtain ⟨numbered', bans⟩ := List.mem_filter.mp chosen
      exact ⟨row.2, row.1, by rw [ModerationTables.latestBan, first], List.mem_zipIdx_iff_getElem?.mp numbered', bans⟩

end Frames

section Projections

variable {t t' : ModerationTables} {u : UserId} {i : Nat} {fresh : Prop}

/-- The appeals of an account that wait. -/
theorem mem_pendingAppeals : i ∈ t.pendingAppeals u ↔ ∃ x, t.appeals[i]? = some x ∧ x.pendingOf u = true := by
  simp only [ModerationTables.pendingAppeals, List.mem_map, List.mem_filter]
  constructor
  · rintro ⟨row, ⟨numbered, waits⟩, rfl⟩
    exact ⟨row.1, List.mem_zipIdx_iff_getElem?.mp numbered, waits⟩
  · rintro ⟨x, found, waits⟩
    exact ⟨(x, i), ⟨List.mem_zipIdx_iff_getElem?.mpr found, waits⟩, rfl⟩

theorem pendingAppeals_nodup : (t.pendingAppeals u).Nodup := by
  refine List.Nodup.sublist (List.Sublist.map _ List.filter_sublist) ?_
  rw [List.zipIdx_map_snd]
  exact List.nodup_range'

/-- Every account sees at most one event. -/
theorem ModerationEvent.account (event : ModerationEvent fresh t t') (w : UserId) :
    AccountEvent fresh (t.accountView w) (t'.accountView w) := by
  cases event with
  | read => exact .kept
  | @created u a new untouched =>
      by_cases own : w = u
      · subst own
        have view : ({ t with user := Function.update t.user w (some a) } : ModerationTables).accountView w
            = { t.accountView w with account := some a } := by
          simp [ModerationTables.accountView]
        rw [view]
        exact .created new untouched
      · have view : ({ t with user := Function.update t.user u (some a) } : ModerationTables).accountView w
            = t.accountView w := by
          simp [ModerationTables.accountView, Function.update_of_ne own]
        rw [view]
        exact .kept
  | warned target action resource =>
      rw [accountView_log_silent (by simpa using fun _ => action)]
      exact .kept
  | @suspended u a g rows account active suspends logged =>
      rw [accountView_log_silent fun e listed _ => (logged e listed).2.1]
      by_cases own : w = u
      · subst own
        rw [accountView_update_self account]
        exact .suspended account active suspends
      · rw [accountView_update_other own]
        exact .kept
  | @banned u a g e account unbanned bans logged =>
      obtain ⟨target, action, -⟩ := logged
      by_cases own : w = u
      · subst own
        rw [accountView_log, accountView_update_self account]
        simp only [target, action, ModerationAuditAction.access, beq_self_eq_true, Bool.and_self, List.filter_cons_of_pos,
          List.filter_nil, List.map_cons, List.map_nil]
        exact .banned account unbanned bans
      · rw [accountView_log_silent (by simpa [target] using fun same => absurd same.symm own), accountView_update_other own]
        exact .kept
  | @restored now admin u a reason account =>
      by_cases own : w = u
      · subst own
        have base : ({ t.updateUser w (·.restore) with
            appeals := Rows.updateWhere (·.pendingOf w) (·.decide now .approved reason admin) t.appeals } :
              ModerationTables).accountView w = { t.accountView w with account := some a.restore } :=
          accountView_update_self account
        rw [accountView_log, accountView_log, base]
        simp only [ModerationAuditAction.access, beq_self_eq_true, Bool.and_self, List.filter_cons_of_pos, List.filter_nil,
          List.map_cons, List.map_nil, List.append_assoc]
        exact .restored account (by simp)
      · have base : ({ t.updateUser u (·.restore) with
            appeals := Rows.updateWhere (·.pendingOf u) (·.decide now .approved reason admin) t.appeals } :
              ModerationTables).accountView w = t.accountView w := accountView_update_other own
        rw [accountView_log_silent, accountView_log_silent, base]
        · exact .kept
        · intro e listed target
          obtain ⟨j, -, rfl⟩ := List.mem_map.mp listed
          exact absurd target.symm own
        · intro e listed target
          obtain rfl := List.mem_singleton.mp listed
          exact absurd target.symm own
  | @lifted u lapses stands =>
      by_cases own : w = u
      · subst own
        cases account : t.user w with
        | none =>
            have view : ({ t.updateUser w (·.restore) with lapses } : ModerationTables).accountView w = t.accountView w := by
              simp [ModerationTables.accountView, ModerationTables.updateUser, account]
            rw [view]
            exact .kept
        | some a =>
            have view : ({ t.updateUser w (·.restore) with lapses } : ModerationTables).accountView w
                = { t.accountView w with account := some a.restore } := accountView_update_self account
            rw [view]
            exact .lifted account fun now => stands now a account
      · have view : ({ t.updateUser u (·.restore) with lapses } : ModerationTables).accountView w = t.accountView w :=
          accountView_update_other own
        rw [view]
        exact .kept
  | appealed => exact .kept
  | @decided now admin i x a reason status action g found account pending banned outcome =>
      by_cases own : w = x.userId
      · subst own
        have base : (({ t with appeals := t.appeals.modify i (·.decide now status reason admin) } :
            ModerationTables).updateUser x.userId g).accountView x.userId
              = { t.accountView x.userId with account := some (g a) } := accountView_update_self account
        obtain ⟨-, rfl, rfl⟩ | ⟨-, rfl, rfl⟩ := outcome
        · have same : ({ t.accountView x.userId with account := some (id a) } : AccountView) = t.accountView x.userId := by
            rw [id, ← account]
            rfl
          rw [accountView_log_silent (by simp [ModerationAuditAction.access]), base, same]
          exact .kept
        · rw [accountView_log, base]
          simp only [ModerationAuditAction.access, beq_self_eq_true, Bool.and_self, List.filter_cons_of_pos,
            List.filter_nil, List.map_cons, List.map_nil]
          rw [← List.nil_append [_]]
          exact .restored account (by simp)
      · have base : (({ t with appeals := t.appeals.modify i (·.decide now status reason admin) } :
            ModerationTables).updateUser x.userId g).accountView w = t.accountView w := accountView_update_other own
        rw [accountView_log_silent, base]
        · exact .kept
        · intro e listed target
          obtain rfl := List.mem_singleton.mp listed
          exact absurd target.symm own

/-- The rows that a restoration logs about one appeal. -/
theorem restoration_rows {ids : List Nat} (distinct : ids.Nodup) (f : Nat → ModerationAudit)
    (resource : ∀ i, (f i).appealId = some i) (j : Nat) :
    (ids.map f).filter (·.appealId == some j) = if j ∈ ids then [f j] else [] := by
  have same : ((·.appealId == some j) ∘ f) = (· == j) := by
    funext i
    simp [resource]
  rw [List.filter_map, same, List.filter_beq, distinct.count]
  split <;> rfl

/-- Every appeal sees at most one event. -/
theorem ModerationEvent.appeal (event : ModerationEvent fresh t t') (j : Nat) :
    AppealEvent (t.appealView j) (t'.appealView j) := by
  cases event with
  | read | created | lifted => exact .kept
  | warned target action resource =>
      rw [appealView_log_silent (by simp [resource])]
      exact .kept
  | suspended account active suspends logged =>
      rw [appealView_log_silent fun e listed => by simp [(logged e listed).2.2]]
      exact .kept
  | banned account unbanned bans logged =>
      rw [appealView_log_silent (by simp [logged.2.2])]
      exact .kept
  | @restored now admin u a reason account =>
      rw [appealView_log_silent (by simp)]
      have logged := restoration_rows (pendingAppeals_nodup (t := t) (u := u)) (fun i : Nat => {
        actorId := admin, targetUserId := u, action := .banAppealApproved, appealId := some i, reason
        createdAt := now }) (fun _ => rfl) j
      by_cases waits : j ∈ t.pendingAppeals u
      · obtain ⟨x, found, pending⟩ := mem_pendingAppeals.mp waits
        obtain ⟨own, undecided⟩ : x.userId = u ∧ x.status = .pending := by simpa [BanAppeal.pendingOf] using pending
        subst own
        have decided : AppealEvent (t.appealView j) {
            appeal := some (x.decide now .approved reason admin)
            audit := (t.appealView j).audit ++ [(admin, x.userId, .banAppealApproved)] } :=
          .decided found undecided (by simp)
        rw [if_pos waits] at logged
        simp only [ModerationTables.appealView, ModerationTables.log, ModerationTables.updateUser, List.filter_append, logged,
          List.map_append, List.map_cons, List.map_nil, Rows.updateWhere, List.getElem?_map, found, Option.map_some, pending,
          if_true]
        simpa [ModerationTables.appealView, found] using decided
      · rw [if_neg waits] at logged
        have unwritten : (Rows.updateWhere (·.pendingOf u) (·.decide now .approved reason admin) t.appeals)[j]?
            = t.appeals[j]? := by
          rw [Rows.updateWhere, List.getElem?_map]
          cases found : t.appeals[j]? with
          | none => rfl
          | some x =>
              have settled : x.pendingOf u = false := by
                by_contra pending
                exact waits (mem_pendingAppeals.mpr ⟨x, found, by simpa using pending⟩)
              simp [settled]
        simp only [ModerationTables.appealView, ModerationTables.log, ModerationTables.updateUser, List.filter_append, logged,
          List.append_nil, unwritten]
        exact .kept
  | @appealed now u a message account banned new =>
      rw [appealView_append]
      split
      · rename_i last
        exact .submitted (List.getElem?_eq_none (Nat.le_of_eq last.symm))
      · exact .kept
  | @decided now admin i x a reason status action g found account pending banned outcome =>
      by_cases own : j = i
      · subst own
        have base : (({ t with appeals := t.appeals.modify j (·.decide now status reason admin) } :
            ModerationTables).updateUser x.userId g).appealView j
              = { t.appealView j with appeal := some (x.decide now status reason admin) } := by
          simp [ModerationTables.appealView, ModerationTables.updateUser, found]
        rw [appealView_log_one rfl, base]
        obtain ⟨rfl, rfl, rfl⟩ | ⟨rfl, rfl, rfl⟩ := outcome
        · exact AppealEvent.decided (v := t.appealView j) found pending (by simp : BanAppealStatus.rejected ≠ .pending)
        · exact AppealEvent.decided (v := t.appealView j) found pending (by simp : BanAppealStatus.approved ≠ .pending)
      · have base : (({ t with appeals := t.appeals.modify i (·.decide now status reason admin) } :
            ModerationTables).updateUser x.userId g).appealView j = t.appealView j := by
          simp [ModerationTables.appealView, ModerationTables.updateUser, Ne.symm own]
        rw [appealView_log_silent (by simpa using Ne.symm own), base]
        exact .kept

end Projections

section Appeals

variable {t t' : ModerationTables} {u : UserId} {j : Nat} {x x' : BanAppeal} {fresh : Prop}

theorem BanAppeal.Decides.same (h : x.Decides x') : x'.banAuditLogId = x.banAuditLogId ∧ x'.userId = x.userId := by
  rcases h with rfl | ⟨-, now, status, reason, admin, -, rfl⟩ <;> exact ⟨rfl, rfl⟩

theorem BanAppeal.Decides.trans {x'' : BanAppeal} (h : x.Decides x') (h' : x'.Decides x'') : x.Decides x'' := by
  rcases h' with rfl | ⟨pending, decision⟩
  · exact h
  · rcases h with rfl | ⟨-, now, status, reason, admin, decided, rfl⟩
    · exact .inr ⟨pending, decision⟩
    · exact absurd pending decided

/-- An appeal that waits has waited. -/
theorem BanAppeal.Decides.pending (h : x.Decides x') (pending : x'.status = .pending) : x' = x := by
  rcases h with rfl | ⟨-, now, status, reason, admin, decided, rfl⟩
  · rfl
  · exact absurd pending decided

theorem ModerationEvent.audit (event : ModerationEvent fresh t t') : t.audit <+: t'.audit := by
  cases event with
  | read | created | lifted | appealed => exact List.prefix_refl _
  | warned | suspended | banned | decided => exact List.prefix_append _ _
  | restored => exact (List.prefix_append _ _).trans (List.prefix_append _ _)

/-- The number of appeals grows with a new one only. -/
theorem ModerationEvent.length (event : ModerationEvent fresh t t') : t'.appeals.length = t.appeals.length
    ∨ t'.audit = t.audit ∧ t'.user = t.user ∧ ∃ now u a message, t.user u = some a ∧ a.moderationStatus = .banned
      ∧ (∀ y ∈ t.appeals, y.banAuditLogId ≠ t.latestBan u)
      ∧ t'.appeals = t.appeals ++ [{ userId := u, banAuditLogId := t.latestBan u, message, createdAt := now }] := by
  cases event with
  | read | created | lifted | warned | suspended | banned => exact .inl rfl
  | restored => exact .inl (by simp [ModerationTables.log])
  | decided => exact .inl (by simp [ModerationTables.log, ModerationTables.updateUser])
  | appealed account banned new => exact .inr ⟨rfl, rfl, _, _, _, _, account, banned, new, rfl⟩

/-- An appeal was there, or has just been submitted. -/
theorem ModerationEvent.origin (event : ModerationEvent fresh t t') (found : t'.appeals[j]? = some x') :
    (∃ x, t.appeals[j]? = some x ∧ x.Decides x') ∨ t'.audit = t.audit ∧ t'.user = t.user ∧ x'.banAuditLogId = t.latestBan x'.userId
      ∧ ∃ a, t.user x'.userId = some a ∧ a.moderationStatus = .banned := by
  cases before : t.appeals[j]? with
  | some x =>
      obtain ⟨y, after, decides⟩ := (event.appeal j).decides before
      obtain rfl := Option.some.inj (after.symm.trans found)
      exact .inl ⟨x, rfl, decides⟩
  | none =>
      have new := List.getElem?_eq_none_iff.mp before
      have bound := (List.getElem?_eq_some_iff.mp found).1
      obtain same | ⟨audit, user, now, u, a, message, account, banned, -, appeals⟩ := event.length
      · omega
      · rw [appeals, List.getElem?_append_right new, List.getElem?_singleton] at found
        split at found
        · obtain rfl := Option.some.inj found
          exact .inr ⟨audit, user, rfl, a, account, banned⟩
        · cases found

theorem ModerationEvent.bans (event : ModerationEvent fresh t t') (known : t.InOrder) :
    ∀ x ∈ t'.appeals, ∃ (i : Nat) (e : ModerationAudit), x.banAuditLogId = .log i ∧ t'.audit[i]? = some e
      ∧ e.bans x.userId = true := by
  intro x' listed
  obtain ⟨j, found⟩ := List.mem_iff_getElem?.mp listed
  have later : ∀ {i : Nat} {e : ModerationAudit}, t.audit[i]? = some e → t'.audit[i]? = some e := by
    intro i e logged
    obtain ⟨more, same⟩ := event.audit
    rw [← same, List.getElem?_append_left (List.getElem?_eq_some_iff.mp logged).1]
    exact logged
  obtain ⟨x, before, decides⟩ | ⟨audit, -, ban, a, account, banned⟩ := event.origin found
  · obtain ⟨i, e, ban, logged, bans⟩ := known.bans x (List.mem_of_getElem? before)
    obtain ⟨same, own⟩ := decides.same
    exact ⟨i, e, same.trans ban, later logged, own ▸ bans⟩
  · have last := (known.accounts x'.userId).audited a account banned
    obtain ⟨i, e, latest, logged, bans⟩ := latestBan_listed (List.mem_of_getLast? last)
    exact ⟨i, e, ban.trans latest, later logged, bans⟩

theorem ModerationEvent.once (event : ModerationEvent fresh t t') (known : t.InOrder) :
    (t'.appeals.map (·.banAuditLogId)).Nodup := by
  obtain same | ⟨-, -, now, u, a, message, -, -, new, appeals⟩ := event.length
  · have refs : t'.appeals.map (·.banAuditLogId) = t.appeals.map (·.banAuditLogId) := by
      refine List.ext_getElem? fun j => ?_
      rw [List.getElem?_map, List.getElem?_map]
      cases before : t.appeals[j]? with
      | none =>
          rw [List.getElem?_eq_none_iff, ← same] at before
          rw [List.getElem?_eq_none before]
      | some x =>
          obtain ⟨x', after, decides⟩ := (event.appeal j).decides before
          have found : t'.appeals[j]? = some x' := after
          rw [found, Option.map_some, Option.map_some, decides.same.1]
    exact refs ▸ known.once
  · rw [appeals, List.map_append, List.map_singleton]
    refine List.nodup_append.mpr ⟨known.once, List.nodup_singleton _, fun ref listed last final => ?_⟩
    obtain ⟨y, member, rfl⟩ := List.mem_map.mp listed
    rw [List.mem_singleton.mp final]
    exact new y member

theorem ModerationEvent.inOrder (event : ModerationEvent fresh t t') (known : t.InOrder) : t'.InOrder where
  accounts u := (known.accounts u).event (event.account u)
  appeals i := (known.appeals i).event (event.appeal i)
  bans := event.bans known
  once := event.once known

end Appeals

section Bans

variable {t t' : ModerationTables} {u : UserId} {j : Nat} {x : BanAppeal} {fresh : Prop}

/-- Two appeals that wait for one account are one. -/
theorem ModerationTables.BansStand.only (stand : t.BansStand) (known : t.InOrder) {i : Nat} {y : BanAppeal}
    (found : t.appeals[i]? = some x) (found' : t.appeals[j]? = some y) (pending : x.status = .pending)
    (pending' : y.status = .pending) (same : x.userId = y.userId) : i = j := by
  have ref := (stand.pending x (List.mem_of_getElem? found) pending).1
  have ref' := (stand.pending y (List.mem_of_getElem? found') pending').1
  have refs : (t.appeals.map (·.banAuditLogId))[i]? = (t.appeals.map (·.banAuditLogId))[j]? := by
    rw [List.getElem?_map, List.getElem?_map, found, found', Option.map_some, Option.map_some, ref, ref', same]
  refine (List.getElem?_inj ?_ known.once).mp refs
  rw [List.length_map]
  exact (List.getElem?_eq_some_iff.mp found).1

/-- While an appeal waits, its account stays banned for the same reason. -/
theorem ModerationEvent.waits (event : ModerationEvent fresh t t') (now : fresh) (known : t.InOrder) (stand : t.BansStand)
    (found : t.appeals[j]? = some x) (found' : t'.appeals[j]? = some x) (pending : x.status = .pending) :
    t'.latestBan x.userId = t.latestBan x.userId ∧ t'.user x.userId = t.user x.userId := by
  obtain ⟨-, a, account, banned⟩ := stand.pending x (List.mem_of_getElem? found) pending
  cases event with
  | read | appealed => exact ⟨rfl, rfl⟩
  | @created u b new untouched =>
      have other : x.userId ≠ u := by
        rintro rfl
        rw [new] at account
        cases account
      exact ⟨rfl, Function.update_of_ne other _ _⟩
  | @warned e target action resource =>
      refine ⟨latestBan_log fun e' listed => ?_, rfl⟩
      obtain rfl := List.mem_singleton.mp listed
      cases silent : e'.action <;> simp_all [ModerationAudit.bans, ModerationAuditAction.access]
  | @suspended u b g rows account' active suspends logged =>
      have other : x.userId ≠ u := by
        rintro rfl
        obtain rfl := Option.some.inj (account.symm.trans account')
        rw [active] at banned
        cases banned
      refine ⟨(latestBan_log fun e listed => ?_).trans rfl, Function.update_of_ne other _ _⟩
      simp [ModerationAudit.bans, (logged e listed).1, Ne.symm other]
  | @banned u b g e account' unbanned bans logged =>
      have other : x.userId ≠ u := by
        rintro rfl
        obtain rfl := Option.some.inj (account.symm.trans account')
        exact unbanned banned
      refine ⟨(latestBan_log fun e' listed => ?_).trans rfl, Function.update_of_ne other _ _⟩
      obtain rfl := List.mem_singleton.mp listed
      simp [ModerationAudit.bans, logged.1, Ne.symm other]
  | @restored time admin u b reason account' =>
      have other : x.userId ≠ u := by
        rintro rfl
        -- the restoration decides every appeal of the account
        simp only [ModerationTables.log, Rows.updateWhere, List.getElem?_map, found, Option.map_some, BanAppeal.pendingOf,
          pending, beq_self_eq_true, Bool.and_self, if_true, Option.some.injEq] at found'
        rw [← found'] at pending
        cases pending
      refine ⟨((latestBan_log ?_).trans (latestBan_log ?_)).trans rfl, Function.update_of_ne other _ _⟩
      · simp [ModerationAudit.bans]
      · intro e listed
        obtain ⟨i, -, rfl⟩ := List.mem_map.mp listed
        simp [ModerationAudit.bans]
  | @lifted u lapses stands =>
      have other : x.userId ≠ u := by
        rintro rfl
        rw [stands now a account] at banned
        cases banned
      exact ⟨rfl, Function.update_of_ne other _ _⟩
  | @decided time admin i y b reason status action g found₂ account' pending' banned' outcome =>
      have undecided : j ≠ i := by
        rintro rfl
        obtain rfl := Option.some.inj (found.symm.trans found₂)
        have written : (t.appeals.modify j (·.decide time status reason admin))[j]? = some x := found'
        simp only [List.getElem?_modify_eq, found, Option.map_eq_map, Option.map_some, Option.some.injEq] at written
        rw [← written] at pending
        obtain ⟨rfl, -⟩ | ⟨rfl, -⟩ := outcome <;> cases pending
      have other : x.userId ≠ y.userId := fun same => undecided (stand.only known found found₂ pending pending' same)
      refine ⟨(latestBan_log fun e listed => ?_).trans rfl, Function.update_of_ne other _ _⟩
      obtain rfl := List.mem_singleton.mp listed
      simp [ModerationAudit.bans, Ne.symm other]

theorem ModerationEvent.bansStand (event : ModerationEvent fresh t t') (now : fresh) (known : t.InOrder)
    (stand : t.BansStand) : t'.BansStand := by
  refine ⟨fun u => (stand.told u).event (known.accounts u) (event.account u) now, fun x' listed pending => ?_⟩
  obtain ⟨j, found'⟩ := List.mem_iff_getElem?.mp listed
  obtain ⟨x, found, decides⟩ | ⟨audit, user, ban, banned⟩ := event.origin found'
  · obtain rfl := decides.pending pending
    obtain ⟨latest, account⟩ := event.waits now known stand found found' pending
    rw [latest, account]
    exact stand.pending x' (List.mem_of_getElem? found) pending
  · rw [user]
    refine ⟨?_, banned⟩
    rw [ban, ModerationTables.latestBan, ModerationTables.latestBan, audit]

end Bans

section Runs

variable {s t : ModerationTables} {u : UserId}

/-- Every write of an expired suspension still meets it. -/
def liftsFresh (t : ModerationTables) (a : Millis × ModerationAction) : Prop := t.stale a.1 a.2 = false

/-- What a run leaves of the earlier tables. -/
structure ModerationTables.Evolves (t t' : ModerationTables) : Prop where
  audit : t.audit <+: t'.audit
  appeals : ∀ (i : Nat) x, t.appeals[i]? = some x → ∃ x', t'.appeals[i]? = some x' ∧ x.Decides x'

theorem initial_inOrder (start : moderationMachine.initial t) : t.InOrder ∧ t.BansStand := by
  obtain ⟨users, appeals, audit, -⟩ := start
  refine ⟨⟨fun u => ?_, fun i => ?_, by simp [appeals], by simp [appeals]⟩, ⟨fun u a account => ?_, by simp [appeals]⟩⟩
  · constructor <;> simp [ModerationTables.accountView, users, audit]
  · constructor <;> simp [ModerationTables.appealView, appeals, audit]
  · simp [ModerationTables.accountView, users] at account

theorem moderation_evolves (h : moderationMachine.Reachable s)
    (run : moderationMachine.RunUnder (fun _ _ => True) s t) : s.Evolves t := by
  refine h.related (fun t _ => ⟨List.prefix_refl _, fun i x found => ⟨x, found, .inl rfl⟩⟩)
    (fun t t' t'' first second => ⟨first.audit.trans second.audit, fun i x found => ?_⟩) (fun t a t' _ _ next => ?_) run
  · obtain ⟨x', found', decides⟩ := first.appeals i x found
    obtain ⟨x'', found'', decides'⟩ := second.appeals i x' found'
    exact ⟨x'', found'', decides.trans decides'⟩
  · have event := moderation_event next
    exact ⟨event.audit, fun i x found => (event.appeal i).decides found⟩

theorem bans_stand_invariant (h : moderationMachine.ReachableUnder liftsFresh s) : s.InOrder ∧ s.BansStand :=
  h.invariant (I := fun t => t.InOrder ∧ t.BansStand) (fun _ start => initial_inOrder start) fun _ _ _ known fresh next =>
    have event := moderation_event next
    ⟨event.inOrder known.1, event.bansStand fresh known.1 known.2⟩

/-- In every reachable state the moderation columns agree, a ban is in the audit log, a ban has at most one appeal, and a
    decided appeal has its one audit row; and no run changes a decided appeal or an audit row. -/
theorem moderation_in_order (h : moderationMachine.Reachable s) : s.InOrder
    ∧ ∀ t, moderationMachine.RunUnder (fun _ _ => True) s t → s.Evolves t :=
  ⟨h.invariant (fun _ start => (initial_inOrder start).1) fun _ _ _ known next => (moderation_event next).inOrder known,
    fun _ run => moderation_evolves h run⟩

/-- A member is banned, appeals, is restored, and is banned again. -/
def sampleModeration : List (Millis × ModerationAction) :=
  [(0, .createAccount 1 {}), (1, .banUser 9 1 "Fraud"), (2, .submitBanAppeal 1 "This was a misunderstanding."),
    (3, .decideBanAppeal 9 0 true "Accepted"), (4, .applyReportPenalty 9 1 .ban "Fraud" 0)]

theorem sampleModeration_initial : moderationMachine.initial { user := fun _ => none } := ⟨fun _ => rfl, rfl, rfl, rfl⟩

theorem moderation_in_order_appealed : ∃ s, moderationMachine.exec { user := fun _ => none } sampleModeration = some s
    ∧ s.audit.map (·.action) = [.userBanned, .banAppealApproved, .userBanned] ∧ s.InOrder := by
  obtain ⟨s, run, audit⟩ := sample_any (o := moderationMachine.exec { user := fun _ => none } sampleModeration)
    (p := fun s => s.audit.map (·.action) = [.userBanned, .banAppealApproved, .userBanned]) (by decide)
  exact ⟨s, run, audit, (moderation_in_order (.of_exec sampleModeration_initial run)).1⟩

/-- As long as every write of an expired suspension still meets it: an account is banned exactly when its last access row
    is a ban, an appeal that waits is about the ban of now, and only a restoration or an approved appeal lifts a ban. -/
theorem bans_stand (h : moderationMachine.ReachableUnder liftsFresh s) : s.BansStand
    ∧ ∀ t, moderationMachine.RunUnder liftsFresh s t → ∀ u a b, s.user u = some a → a.moderationStatus = .banned →
      t.user u = some b → b.moderationStatus ≠ .banned →
      ∃ e ∈ t.audit.drop s.audit.length, e.targetUserId = u ∧ (e.action = .userRestored ∨ e.action = .banAppealApproved) := by
  refine ⟨(bans_stand_invariant h).2, fun t run u a b before banned after lifted => ?_⟩
  have reached : moderationMachine.ReachableUnder liftsFresh t := by
    obtain ⟨s₀, start, first⟩ := h
    exact ⟨s₀, start, first.trans run⟩
  obtain ⟨more, same⟩ := (moderation_evolves h.reachable (run.weaken fun _ _ _ => trivial)).audit
  have last := ((bans_stand_invariant h).2.told u a before).mp banned
  have last' := fun closed => lifted (((bans_stand_invariant reached).2.told u b after).mpr closed)
  have grown : (t.accountView u).access = (s.accountView u).access
      ++ (more.filter fun e => e.targetUserId == u && e.action.access).map (·.action) := by
    simp [ModerationTables.accountView, ← same]
  rw [grown] at last'
  cases opened : (more.filter fun e => e.targetUserId == u && e.action.access).getLast? with
  | none =>
      rw [List.getLast?_eq_none_iff.mp opened, List.map_nil, List.append_nil] at last'
      exact absurd last last'
  | some e =>
      obtain ⟨listed, access⟩ := List.mem_filter.mp (List.mem_of_getLast? opened)
      rw [List.getLast?_append, List.getLast?_map, opened] at last'
      simp only [Bool.and_eq_true, beq_iff_eq] at access
      refine ⟨e, by simpa [← same] using listed, access.1, ?_⟩
      cases action : e.action <;> simp_all [ModerationAuditAction.access]

/-- A request lifts an expired suspension, then the account is banned. -/
def sampleLapsed : List (Millis × ModerationAction) :=
  [(0, .createAccount 1 {}), (0, .suspendUser 9 1 "Spam" 1), (86400000, .authenticate 1), (86400001, .liftExpired 0),
    (86400002, .banUser 9 1 "Fraud")]

/-- Its appeal is approved. -/
def sampleAppealed : List (Millis × ModerationAction) :=
  [(86400003, .submitBanAppeal 1 "This was a misunderstanding."), (86400004, .decideBanAppeal 9 0 true "Accepted")]

theorem bans_stand_appealed : ∃ s t, moderationMachine.exec { user := fun _ => none } sampleLapsed = some s
    ∧ moderationMachine.exec s sampleAppealed = some t ∧ s.BansStand
    ∧ ∃ e ∈ t.audit.drop s.audit.length, e.targetUserId = 1
      ∧ (e.action = .userRestored ∨ e.action = .banAppealApproved) := by
  obtain ⟨s, run, banned, open_⟩ := sample_any
    (o := moderationMachine.execUnder (fun t a => !t.stale a.1 a.2) { user := fun _ => none } sampleLapsed)
    (p := fun s => (s.user 1).any (·.moderationStatus = .banned) = true
      ∧ (moderationMachine.execUnder (fun t a => !t.stale a.1 a.2) s sampleAppealed).any (fun t =>
        (t.user 1).any (·.moderationStatus ≠ .banned)) = true) (by decide)
  obtain ⟨t, appealed, restored⟩ := (Option.any_eq_true _ _).mp open_
  obtain ⟨a, before, banned⟩ := (Option.any_eq_true _ _).mp banned
  obtain ⟨b, after, lifted⟩ := (Option.any_eq_true _ _).mp restored
  have fresh : ∀ (t : ModerationTables) a, (!t.stale a.1 a.2) = true → liftsFresh t a := fun _ _ fresh =>
    (Bool.not_eq_true' _).mp fresh
  obtain ⟨stand, opens⟩ := bans_stand ⟨_, sampleModeration_initial, .of_execUnder fresh run⟩
  exact ⟨s, t, Machine.exec_of_execUnder run, Machine.exec_of_execUnder appealed, stand,
    opens t (.of_execUnder fresh appealed) 1 a b before (of_decide_eq_true banned) after (of_decide_eq_true lifted)⟩

/-- Without it a request that has read an expired suspension lifts the ban that came since. -/
theorem stale_lift_ends_ban : ∃ s, moderationMachine.exec { user := fun _ => none } [(0, .createAccount 1 {}),
    (0, .suspendUser 9 1 "Spam" 1), (86400000, .authenticate 1), (86400001, .banUser 9 1 "Fraud"),
    (86400002, .liftExpired 0)] = some s
    ∧ (s.user 1).any (·.moderationStatus = .active) = true ∧ (s.accountView 1).access = [.userBanned] := by
  exact sample_any (by decide)

end Runs

end ServiceHub
