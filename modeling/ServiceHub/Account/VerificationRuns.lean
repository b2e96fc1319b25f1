import ServiceHub.Account.Verification
import ServiceHub.Lib.Joins

/-! # Runs of the residency verification

A member has one undecided submission at a time and is verified once: the column of the account is the status of the
member's last submission, every earlier one was rejected, and the account follows the small life cycle below.
-/

namespace ServiceHub

open Guard

/-- What a verification is for. -/
inductive ResidencyStep : VerificationStatus → VerificationStatus → Prop where
  | submit : ResidencyStep .unverified .pendingReview
  | resubmit : ResidencyStep .rejected .pendingReview
  | approve : ResidencyStep .pendingReview .approved
  | reject : ResidencyStep .pendingReview .rejected

section Approvals

variable {l l' : TrustLedger} {ctx : TrustContext} {now : Millis} {u admin : UserId} {input : TrustEventInput} {applied : Bool}

/-- The trust events of the approved verification of an account. -/
def TrustLedger.approvals (l : TrustLedger) (u : UserId) : List TrustScoreEvent :=
  l.events.filter (·.eventKey == .verificationApproval u)

theorem approvals_apply (other : input.eventKey ≠ .verificationApproval u)
    (h : applyTrustEventInTransaction now input l = .ok (l', applied)) : l'.approvals u = l.approvals u := by
  obtain rfl | ⟨before, -, -, rfl⟩ := applyTrustEventInTransaction_ok h
  · rfl
  · have key : (input.event now before).eventKey = input.eventKey := rfl
    simp [TrustLedger.approvals, TrustLedger.record, List.filter_append, key, other]

theorem approvals_createAccount {v : UserId} (h : createAccount now v l = .ok l') : l'.approvals u = l.approvals u := by
  obtain ⟨-, -, rfl⟩ := createAccount_ok h
  simp [TrustLedger.approvals, TrustLedger.record, baselineEvent, List.filter_append]

theorem approvals_award {b : BookingId} {booking : Booking} {v : UserId} (h : awardParticipant ctx b booking l v = .ok l') :
    l'.approvals u = l.approvals u := by
  obtain rfl | rewarded := awardParticipant_ok h
  · rfl
  · obtain ⟨applied, run⟩ := rewarded.run
    exact approvals_apply (by simp) run

theorem approvals_penalty {penalty : TrustPenalty} (other : penalty.eventKey ≠ .verificationApproval u)
    (h : applyBookingTrustPenalty ctx penalty l = .ok l') : l'.approvals u = l.approvals u := by
  simp only [applyBookingTrustPenalty, check_bind_ok, orThrow_bind_ok, ite_ok, pure_ok] at h
  obtain ⟨-, f, -, -, -, -, ⟨-, rfl⟩ | ⟨-, h⟩⟩ := h
  · rfl
  · simp only [bind_ok, pure_ok, Prod.exists] at h
    obtain ⟨after, applied, run, rfl⟩ := h
    exact approvals_apply other run

/-- No other trust transaction writes the event of an approved verification. -/
theorem approvals_separate {a : TrustAction} (separate : a.separate = true) (h : l.run ctx a = .ok l') :
    l'.approvals u = l.approvals u := by
  cases a with
  | createAccount => cases separate
  | approveVerification => cases separate
  | applyTrustEvent =>
      simp only [TrustLedger.run, applyTrustEvent, bind_ok, pure_ok, Prod.exists] at h
      obtain ⟨after, applied, run, rfl⟩ := h
      exact approvals_apply (by simp) run
  | awardCompletion =>
      obtain rfl | ⟨f, l₁, -, -, -, first, second⟩ := awardBookingCompletionTrust_ok h
      · rfl
      · exact (approvals_award second).trans (approvals_award first)
  | penalizeReport => exact approvals_penalty (by simp) h
  | penalizeCancellation => exact approvals_penalty (by simp) h
  | adjust =>
      simp only [TrustLedger.run, applyManualTrustAdjustment, check_bind_ok, orThrow_bind_ok] at h
      obtain ⟨-, original, -, -, -, h⟩ := h
      simp only [bind_ok, pure_ok, Prod.exists] at h
      obtain ⟨after, applied, run, rfl⟩ := h
      exact approvals_apply (by simp) run
  | submitCase =>
      simp only [TrustLedger.run, submitTrustCase, orThrow_bind_ok, check_bind_ok, pure_ok] at h
      obtain ⟨event, -, -, -, rfl⟩ := h
      rfl
  | decideCase =>
      simp only [TrustLedger.run, decideTrustCase, check_bind_ok, orThrow_bind_ok] at h
      obtain ⟨item, -, -, -, original, -, -, h⟩ := h
      simp only [bind_ok, ite_ok, pure_ok, Prod.exists] at h
      obtain ⟨-, corrected, applied, run, _, rfl, rfl⟩ | ⟨-, _, rfl, rfl⟩ := h
      · have same : corrected.approvals u = l.approvals u := approvals_apply (by simp) run
        exact same
      · rfl

/-- The event of an approved verification. -/
def approvalInput (u admin : UserId) : TrustEventInput where
  userId := u
  delta := 5
  reason := "Residency & Identity Verification Approved by ServiceHub Admin"
  actorAdminId := some admin
  eventKey := .verificationApproval u

/-- The first approval of an account is applied. -/
theorem approveVerificationTrust_first {before : Int} (score : l.trustScore u = some before) (first : l.approvals u = []) :
    approveVerificationTrust now u admin l = .ok (l.record ((approvalInput u admin).event now before)) := by
  have unused : l.findKey (.verificationApproval u) = none := by
    refine List.find?_eq_none.mpr fun e listed same => ?_
    exact List.filter_eq_nil_iff.mp first e listed same
  have created : ∀ e : TrustScoreEvent, e.penaltyKey = none → e.reversesEventId = none →
      l.createEvent e = .ok { l with events := l.events ++ [e] } := by
    intro e penalty reverses
    have first : l.events.any (fun x => x.penaltyKey.isSome && x.penaltyKey == e.penaltyKey) = false := by
      rw [List.any_eq_false, penalty]
      intro x _
      cases x.penaltyKey <;> simp
    have second : l.events.any (fun x => x.reversesEventId.isSome && x.reversesEventId == e.reversesEventId) = false := by
      rw [List.any_eq_false, reverses]
      intro x _
      cases x.reversesEventId <;> simp
    simp [TrustLedger.createEvent, first, second, rejectIf, bind, Except.bind, pure, Except.pure]
  simp only [approveVerificationTrust, applyTrustEventInTransaction, score, unused, orThrow, bind, Except.bind]
  rw [created _ rfl rfl]
  rfl

theorem approvals_record_self {e : TrustScoreEvent} (key : e.eventKey = .verificationApproval u) :
    (l.record e).approvals u = l.approvals u ++ [e] := by
  simp [TrustLedger.approvals, TrustLedger.record, List.filter_append, key]

theorem approvals_record_other {e : TrustScoreEvent} (key : e.eventKey ≠ .verificationApproval u) :
    (l.record e).approvals u = l.approvals u := by
  simp [TrustLedger.approvals, TrustLedger.record, List.filter_append, key]

/-- An account keeps having a score. -/
theorem LedgerSteps.scored (h : LedgerSteps l l') (known : (l.trustScore u).isSome = true) :
    (l'.trustScore u).isSome = true := by
  induction h with
  | refl => exact known
  | tail _ step ih =>
      cases step with
      | opened =>
          simp only [TrustLedger.record, Function.update_apply]
          split <;> simp [ih]
      | applied =>
          simp only [TrustLedger.record, Function.update_apply]
          split <;> simp [ih]

end Approvals

/-- Where the submissions of an account leave it. -/
def standing (rows : List ServiceVerification) : VerificationStatus := (rows.getLast?.map (·.status)).getD .unverified

theorem standing_append {rows : List ServiceVerification} {v : ServiceVerification} : standing (rows ++ [v]) = v.status := by
  simp [standing]

/-- What the tables hold about an account. -/
structure Member where
  account : Option VerifiedAccount
  rows : List ServiceVerification
  scored : Bool
  approvals : List TrustScoreEvent

/-- The account, its submissions and its trust events tell the same story. -/
structure Member.Coherent (u : UserId) (m : Member) : Prop where
  settled : Histories.Settled (·.status = .rejected) m.rows
  submitted : ∀ v ∈ m.rows, v.status ≠ .unverified
  account : ∀ a, m.account = some a → a.verificationStatus = standing m.rows
  owned : m.rows ≠ [] → m.account.isSome = true
  scored : m.account.isSome = true → m.scored = true
  unapproved : standing m.rows ≠ .approved → m.approvals = []
  approved : ∀ v, m.rows.getLast? = some v → v.status = .approved →
    ∃ e, m.approvals = [e] ∧ e.userId = u ∧ e.requestedDelta = some 5 ∧ e.actorAdminId = v.adminId

/-- What a transaction may do to an account. -/
inductive MemberEvent (u : UserId) (m : Member) : Member → Prop where
  | kept {scored} (more : m.scored = true → scored = true) : MemberEvent u m { m with scored }
  | opened {emailVerified} (new : m.account = none) :
      MemberEvent u m { m with account := some { emailVerified }, scored := true }
  | email {a} (account : m.account = some a) : MemberEvent u m { m with account := some { a with emailVerified := true } }
  | submitted {a v} (account : m.account = some a) (unapproved : a.verificationStatus ≠ .approved)
      (free : ∀ w ∈ m.rows, w.status ≠ .pendingReview) (pending : v.status = .pendingReview) :
      MemberEvent u m { m with
        account := some { a with verificationStatus := .pendingReview }, rows := m.rows ++ [v] }
  | decided {a v w approvals} (account : m.account = some a) (last : m.rows.getLast? = some v)
      (pending : v.status = .pendingReview)
      (decision : w.status = .rejected ∧ approvals = m.approvals ∨ w.status = .approved
        ∧ ∃ e, approvals = m.approvals ++ [e] ∧ e.userId = u ∧ e.requestedDelta = some 5 ∧ e.actorAdminId = w.adminId) :
      MemberEvent u m { m with
        account := some { a with verificationStatus := w.status }, rows := m.rows.dropLast ++ [w], approvals }

section Members

variable {u : UserId} {m m' : Member}

theorem Member.Coherent.event (h : m.Coherent u) (event : MemberEvent u m m') : m'.Coherent u := by
  cases event with
  | kept more => exact { h with scored := fun known => more (h.scored known) }
  | opened new =>
      have empty : m.rows = [] := by
        by_contra some_
        have known := h.owned some_
        simp [new] at known
      refine { h with account := fun a same => ?_, owned := fun _ => rfl, scored := fun _ => rfl }
      obtain rfl := Option.some.inj same
      simp [empty, standing]
  | @email a account =>
      refine { h with account := fun b same => ?_, owned := fun _ => rfl, scored := fun _ => h.scored (by simp [account]) }
      obtain rfl := Option.some.inj same
      exact h.account a account
  | @submitted a v account unapproved free pending =>
      have none_applied := h.unapproved (h.account a account ▸ unapproved)
      refine ⟨Histories.Settled.append ?_, fun w listed => ?_, fun b same => ?_, fun _ => rfl, fun _ => h.scored (by simp [account]),
        fun _ => none_applied, fun w last approved => ?_⟩
      · refine h.settled.all fun w last => ?_
        have stands := h.account a account
        simp only [standing, last, Option.map_some, Option.getD_some] at stands
        have listed := List.mem_of_getLast? last
        have undecided := free w listed
        have submitted := h.submitted w listed
        rw [stands] at unapproved
        cases status : w.status <;> simp_all
      · rcases List.mem_append.mp listed with old | new
        · exact h.submitted w old
        · simp [List.mem_singleton.mp new, pending]
      · obtain rfl := Option.some.inj same
        rw [standing_append, pending]
      · rw [List.getLast?_concat] at last
        obtain rfl := Option.some.inj last
        rw [pending] at approved
        cases approved
  | @decided a v w approvals account last pending decision =>
      have none_applied : m.approvals = [] := h.unapproved (by simp [standing, last, pending])
      refine ⟨Histories.Settled.append h.settled, fun x listed => ?_, fun b same => ?_, fun _ => rfl,
        fun _ => h.scored (by simp [account]), fun unapproved => ?_, fun x final approved => ?_⟩
      · rcases List.mem_append.mp listed with old | new
        · exact h.submitted x (List.dropLast_subset _ old)
        · obtain rfl := List.mem_singleton.mp new
          rcases decision with ⟨rejected, -⟩ | ⟨approved, -⟩ <;> simp [*]
      · obtain rfl := Option.some.inj same
        rw [standing_append]
      · rw [standing_append] at unapproved
        rcases decision with ⟨-, same⟩ | ⟨approved, -⟩
        · exact same.trans none_applied
        · exact absurd approved unapproved
      · rw [List.getLast?_concat] at final
        obtain rfl := Option.some.inj final
        rcases decision with ⟨rejected, -⟩ | ⟨-, e, applied, rest⟩
        · rw [rejected] at approved
          cases approved
        · exact ⟨e, by rw [applied, none_applied, List.nil_append], rest⟩

/-- An account stays and follows the life cycle. -/
theorem MemberEvent.residency (event : MemberEvent u m m') (h : m.Coherent u) {a : VerifiedAccount}
    (before : m.account = some a) : ∃ a', m'.account = some a'
      ∧ Relation.ReflTransGen ResidencyStep a.verificationStatus a'.verificationStatus := by
  cases event with
  | kept => exact ⟨a, before, .refl⟩
  | opened new =>
      rw [new] at before
      cases before
  | email account =>
      obtain rfl := Option.some.inj (before.symm.trans account)
      exact ⟨_, rfl, .refl⟩
  | submitted account unapproved free pending =>
      obtain rfl := Option.some.inj (before.symm.trans account)
      refine ⟨_, rfl, .single ?_⟩
      cases status : a.verificationStatus with
      | unverified => exact .submit
      | rejected => exact .resubmit
      | approved => exact absurd status unapproved
      | pendingReview =>
          have stands := h.account a before
          rw [status, standing] at stands
          cases last : m.rows.getLast? with
          | none => simp [last] at stands
          | some w =>
              have undecided := free w (List.mem_of_getLast? last)
              simp only [last, Option.map_some, Option.getD_some] at stands
              exact absurd stands.symm undecided
  | @decided b v w approvals account last pending decision =>
      obtain rfl := Option.some.inj (before.symm.trans account)
      have stands := h.account _ before
      simp only [standing, last, Option.map_some, Option.getD_some, pending] at stands
      refine ⟨_, rfl, .single ?_⟩
      rw [stands]
      rcases decision with ⟨rejected, -⟩ | ⟨approved, -⟩
      · exact rejected ▸ .reject
      · exact approved ▸ .approve

end Members

namespace VerificationTables

/-- The submissions of an account. -/
def rowsOf (t : VerificationTables) (u : UserId) : List ServiceVerification :=
  Histories.ofOwner ServiceVerification.userId u t.verifications

def member (t : VerificationTables) (u : UserId) : Member where
  account := t.user u
  rows := t.rowsOf u
  scored := (t.ledger.trustScore u).isSome
  approvals := t.ledger.approvals u

def Coherent (t : VerificationTables) : Prop := ∀ u, (t.member u).Coherent u

end VerificationTables

/-- What a transaction may do to the tables. -/
inductive VerificationEvent (t : VerificationTables) : VerificationTables → Prop where
  | kept : VerificationEvent t t
  | opened {u emailVerified ledger} (new : t.user u = none) (score : (ledger.trustScore u).isSome = true)
      (scores : ∀ v, (t.ledger.trustScore v).isSome = true → (ledger.trustScore v).isSome = true)
      (approvals : ∀ v, ledger.approvals v = t.ledger.approvals v) :
      VerificationEvent t { t with ledger, user := Function.update t.user u (some { emailVerified }) }
  | email {u} : VerificationEvent t
      { t with user := Function.update t.user u ((t.user u).map ({ · with emailVerified := true })) }
  | submitted {now acknowledgedAt u a proofs} (account : t.user u = some a) (confirmed : a.emailVerified = true)
      (unapproved : a.verificationStatus ≠ .approved) (free : ∀ v ∈ t.verifications, v.pendingOf u = false)
      (some_ : proofs ≠ []) (documents : ∀ p ∈ proofs, p.storageKey.folder = some u) :
      VerificationEvent t { t with
        verifications := t.verifications ++ [.submitted now acknowledgedAt u verificationPrivacyNoticeVersion proofs]
        user := Function.update t.user u (some { a with verificationStatus := .pendingReview }) }
  | decided {now i v a admin} {approve : Bool} {message reason ledger} (found : t.verifications[i]? = some v)
      (pending : v.status = .pendingReview) (account : t.user v.userId = some a)
      (trust : ledger = t.ledger ∧ approve = false ∨ approve = true ∧ ∃ before,
        ledger = t.ledger.record ((approvalInput v.userId admin).event now before)) :
      VerificationEvent t { t with
        verifications := Rows.updateWhere (·.pendingOf v.userId)
          (·.decide now (if approve then .approved else .rejected) admin message) t.verifications
        user := Function.update t.user v.userId
          (some { a with verificationStatus := if approve then .approved else .rejected })
        ledger
        audit := t.audit ++ [{
          actorId := admin, targetUserId := v.userId, action := if approve then .approved else .rejected
          verificationId := i, reason }] }
  | accessed {entry v} (found : t.verifications[entry.verificationId]? = some v) (target : entry.targetUserId = v.userId)
      (document : entry.proofId.isSome = true) : VerificationEvent t { t with audit := t.audit ++ [entry] }
  | trust {ledger} (scores : ∀ v, (t.ledger.trustScore v).isSome = true → (ledger.trustScore v).isSome = true)
      (approvals : ∀ v, ledger.approvals v = t.ledger.approvals v) : VerificationEvent t { t with ledger }

section Events

variable {t t' : VerificationTables} {u admin : UserId} {i : Nat} {v : ServiceVerification} {now : Millis} {approve : Bool}
  {notes : Option String}

theorem pendingOf_iff : v.pendingOf u = true ↔ v.userId = u ∧ v.status = .pendingReview := by
  simp [ServiceVerification.pendingOf]

theorem latestPending_some (h : t.latestPending u = some i) :
    ∃ v, t.verifications[i]? = some v ∧ v.pendingOf u = true := by
  obtain ⟨row, first, rfl⟩ := Option.map_eq_some_iff.mp h
  have listed := (List.mem_insertionSort _).mp (List.mem_of_head? first)
  obtain ⟨numbered, pending⟩ := List.mem_filter.mp listed
  exact ⟨row.1, List.mem_zipIdx_iff_getElem?.mp numbered, pending⟩

theorem latestPending_none (h : t.latestPending u = none) : ∀ v ∈ t.verifications, v.pendingOf u = false := by
  intro v listed
  obtain ⟨i, found⟩ := List.mem_iff_getElem?.mp listed
  have empty := List.head?_eq_none_iff.mp (Option.map_eq_none_iff.mp h)
  have missing : (v, i) ∉ t.verifications.zipIdx.filter fun row => row.1.pendingOf u := by
    intro member
    have sorted := (List.mem_insertionSort ServiceVerification.later).mpr member
    rw [empty] at sorted
    cases sorted
  by_contra pending
  exact missing (List.mem_filter.mpr ⟨List.mem_zipIdx_iff_getElem?.mpr found, by simpa using pending⟩)

/-- The only undecided submission is the latest. -/
theorem latestPending_only (found : t.verifications[i]? = some v) (pending : v.pendingOf u = true)
    (only : ∀ (j : Nat) w, t.verifications[j]? = some w → w.pendingOf u = true → j = i) : t.latestPending u = some i := by
  cases latest : t.latestPending u with
  | none =>
      have decided := latestPending_none latest v (List.mem_of_getElem? found)
      rw [pending] at decided
      cases decided
  | some j =>
      obtain ⟨w, found', pending'⟩ := latestPending_some latest
      rw [only j w found' pending']

theorem submitVerification_event {acknowledgedAt : Millis} {proofs : List VerificationProofInput} {version : String}
    {acknowledged : Bool} {answer : ServiceVerification}
    (h : submitVerification now acknowledgedAt u proofs version acknowledged t = .ok (t', answer)) :
    VerificationEvent t t' := by
  simp only [submitVerification, check_bind_ok, orThrow_bind_ok, rejectIf_ok, not_or, not_not] at h
  obtain ⟨⟨-, rfl⟩, some_, documents, a, account, confirmed, unapproved, h⟩ := h
  split at h
  · obtain ⟨rfl, -⟩ := Prod.mk.inj (pure_ok.mp h)
    exact .kept
  · rename_i free
    have none_pending : ∀ v ∈ t.verifications, v.pendingOf u = false := by
      refine latestPending_none ?_
      cases latest : t.latestPending u with
      | none => rfl
      | some i =>
          obtain ⟨v, found, -⟩ := latestPending_some latest
          simp [latest, found] at free
    simp only [VerificationTables.updateStatus, bind_ok, orThrow_ok, pure_ok, Prod.mk.injEq] at h
    obtain ⟨_, ⟨b, account', rfl⟩, rfl, -⟩ := h
    obtain rfl := Option.some.inj (account.symm.trans account')
    refine .submitted account (by simpa using confirmed) unapproved none_pending some_ fun p listed => ?_
    by_contra other
    exact List.any_eq_false.mp (Bool.not_eq_true _ ▸ documents) p listed (by simpa using other)

/-- The only undecided submission of its member. -/
theorem VerificationTables.Coherent.only (known : t.Coherent) (found : t.verifications[i]? = some v)
    (pending : v.status = .pendingReview) :
    ∀ (j : Nat) w, t.verifications[j]? = some w → w.pendingOf v.userId = true → j = i := by
  intro j w found' pending'
  obtain ⟨own, undecided⟩ := pendingOf_iff.mp pending'
  refine (known v.userId).settled.only found' found own rfl ?_ ?_
  · simp [undecided]
  · simp [pending]

/-- The claim and the superseding of a decision rewrite the one undecided submission. -/
theorem decide_updates (found : t.verifications[i]? = some v)
    (only : ∀ (j : Nat) w, t.verifications[j]? = some w → w.pendingOf v.userId = true → j = i)
    {g : ServiceVerification → ServiceVerification} {g' : ServiceVerification → ServiceVerification}
    (decides : ∀ w, (g w).status ≠ .pendingReview) :
    Rows.updateMany (fun j w => j != i && w.pendingOf v.userId) g'
        (Rows.updateMany (fun j w => j == i && w.status == .pendingReview) g t.verifications)
      = Rows.updateWhere (·.pendingOf v.userId) g t.verifications := by
  have claimed : Rows.updateMany (fun j w => j == i && w.status == .pendingReview) g t.verifications
      = Rows.updateWhere (·.pendingOf v.userId) g t.verifications := by
    refine Rows.updateMany_eq_updateWhere fun j w found' => ?_
    rw [Bool.eq_iff_iff]
    simp only [Bool.and_eq_true, beq_iff_eq]
    constructor
    · rintro ⟨rfl, undecided⟩
      obtain rfl := Option.some.inj (found.symm.trans found')
      exact pendingOf_iff.mpr ⟨rfl, undecided⟩
    · intro undecided
      exact ⟨only j w found' undecided, (pendingOf_iff.mp undecided).2⟩
  rw [Rows.updateMany_eq_self, claimed]
  intro j w found'
  rw [Rows.getElem?_updateMany, Option.map_eq_some_iff] at found'
  obtain ⟨w', before, rfl⟩ := found'
  by_cases chosen : (j == i && w'.status == .pendingReview) = true
  · simp only [chosen, if_true, ServiceVerification.pendingOf, Bool.and_eq_false_iff, beq_eq_false_iff_ne]
    exact .inr (.inr (decides w'))
  · rw [if_neg chosen]
    by_contra later
    simp only [Bool.not_eq_false, Bool.and_eq_true, bne_iff_ne] at later
    exact later.1 (only j w' before later.2)

theorem reviewVerification_event (known : t.Coherent)
    (h : reviewVerification now u i admin approve notes t = .ok t') : VerificationEvent t t' := by
  simp only [reviewVerification, check_bind_ok, orThrow_bind_ok, rejectIf_ok, not_or, not_not] at h
  obtain ⟨v, found, rfl, a, account, ⟨latest, unapproved⟩, -, h⟩ := h
  obtain ⟨v', found', undecided⟩ := latestPending_some latest
  obtain rfl := Option.some.inj (found.symm.trans found')
  have pending := (pendingOf_iff.mp undecided).2
  simp only [VerificationTables.updateStatus, bind_ok, orThrow_ok, ite_ok, pure_ok] at h
  obtain ⟨_, ⟨b, account', rfl⟩, h⟩ := h
  obtain rfl := Option.some.inj (account.symm.trans account')
  rw [decide_updates found (known.only found pending) fun w => by cases approve <;> simp [ServiceVerification.decide]] at h
  rcases h with ⟨approved, ledger, trust, rfl⟩ | ⟨rejected, ledger, rfl, rfl⟩
  · have member := known v.userId
    obtain ⟨before, score⟩ := Option.isSome_iff_exists.mp (member.scored (Option.isSome_iff_exists.mpr ⟨a, account⟩))
    have first := member.unapproved (member.account a account ▸ unapproved)
    refine .decided found pending account (.inr ⟨approved, before, ?_⟩)
    exact (Except.ok.inj ((approveVerificationTrust_first score first).symm.trans trust)).symm
  · exact .decided found pending account (.inl ⟨rfl, by simpa using rejected⟩)

/-- What a transaction does to the ledger is a trust transaction. -/
theorem run_ledger {a : VerificationAction} (h : t.run a = .ok t') :
    t'.ledger = t.ledger ∨ ∃ ctx b, t.ledger.run ctx b = .ok t'.ledger := by
  cases a with
  | openAccount now u =>
      simp only [VerificationTables.run, openAccount, bind_ok, pure_ok] at h
      obtain ⟨-, -, ledger, created, rfl⟩ := h
      exact .inr ⟨{ now, user := fun _ => none, booking := fun _ => none }, .createAccount u, created⟩
  | verifyEmail =>
      obtain rfl := pure_ok.mp h
      exact .inl rfl
  | submit =>
      simp only [VerificationTables.run, bind_ok, pure_ok, Prod.exists] at h
      obtain ⟨after, answer, run, rfl⟩ := h
      simp only [submitVerification, check_bind_ok, orThrow_bind_ok] at run
      obtain ⟨-, -, -, a, -, -, -, run⟩ := run
      split at run
      · obtain ⟨rfl, -⟩ := Prod.mk.inj (pure_ok.mp run)
        exact .inl rfl
      · simp only [VerificationTables.updateStatus, bind_ok, orThrow_ok, pure_ok, Prod.mk.injEq] at run
        obtain ⟨_, ⟨b, -, rfl⟩, rfl, -⟩ := run
        exact .inl rfl
  | review now u i admin approve notes =>
      simp only [VerificationTables.run, reviewVerification, check_bind_ok, orThrow_bind_ok] at h
      obtain ⟨v, -, -, a, -, -, -, h⟩ := h
      simp only [VerificationTables.updateStatus, bind_ok, orThrow_ok, ite_ok, pure_ok] at h
      obtain ⟨_, ⟨b, -, rfl⟩, ⟨-, ledger, trust, rfl⟩ | ⟨-, ledger, rfl, rfl⟩⟩ := h
      · exact .inr ⟨{ now, user := fun _ => none, booking := fun _ => none }, .approveVerification v.userId admin, trust⟩
      · exact .inl rfl
  | accessProof =>
      simp only [VerificationTables.run, accessVerificationProof, bind_ok, orThrow_ok, pure_ok, Prod.exists,
        Prod.mk.injEq] at h
      obtain ⟨after, key, ⟨v, -, proof, -, key', -, rfl, -⟩, rfl⟩ := h
      exact .inl rfl
  | trust ctx b =>
      simp only [VerificationTables.run, bind_ok, pure_ok] at h
      obtain ⟨ledger, run, rfl⟩ := h
      exact .inr ⟨ctx, b, run⟩

theorem ledger_reachable (h : verificationMachine.Reachable t) : trustMachine.Reachable t.ledger := by
  refine h.invariant (I := fun t => trustMachine.Reachable t.ledger) (fun t start => ?_) fun t a t' reached next => ?_
  · exact .start start.2.2.1
  · simp only [verificationMachine, Option.ite_none_right_eq_some, toOption_some] at next
    obtain same | ⟨ctx, b, run⟩ := run_ledger next.2
    · exact same ▸ reached
    · exact reached.next (a := (ctx, b)) trivial (toOption_some.mpr run)

/-- Every transaction is one of the events. -/
theorem step_event (reached : trustMachine.Reachable t.ledger) (known : t.Coherent) {a : VerificationAction}
    (h : verificationMachine.next t a = some t') : VerificationEvent t t' := by
  simp only [verificationMachine, Option.ite_none_right_eq_some, toOption_some] at h
  obtain ⟨separate, h⟩ := h
  cases a with
  | openAccount now u emailVerified =>
      simp only [VerificationTables.run, openAccount, rejectIf_ok, bind_ok, pure_ok, Bool.not_eq_true,
        Option.isSome_eq_false_iff, Option.isNone_iff_eq_none] at h
      obtain ⟨_, new, ledger, created, rfl⟩ := h
      obtain ⟨unscored, fresh, rfl⟩ := createAccount_ok created
      refine .opened new ?_ (fun v => ?_) fun v => approvals_createAccount created
      · simp [TrustLedger.record, baselineEvent]
      · exact LedgerSteps.scored (.single (.opened unscored fresh))
  | verifyEmail =>
      obtain rfl := pure_ok.mp h
      exact .email
  | submit =>
      simp only [VerificationTables.run, bind_ok, pure_ok, Prod.exists] at h
      obtain ⟨after, answer, run, rfl⟩ := h
      exact submitVerification_event run
  | review => exact reviewVerification_event known h
  | accessProof verificationId proofId adminId download =>
      simp only [VerificationTables.run, accessVerificationProof, bind_ok, orThrow_ok, pure_ok, Prod.exists,
        Prod.mk.injEq] at h
      obtain ⟨after, key, ⟨v, found, proof, -, key', -, rfl, -⟩, rfl⟩ := h
      exact .accessed found rfl rfl
  | trust ctx b =>
      simp only [VerificationTables.run, bind_ok, pure_ok] at h
      obtain ⟨ledger, run, rfl⟩ := h
      obtain ⟨consistent, filed⟩ := ledger_consistent_filed reached
      obtain ⟨after, steps, same, -⟩ := run_steps consistent filed run
      refine .trust (fun v known => ?_) fun v => approvals_separate separate run
      rw [same]
      exact steps.scored known

end Events

section Coherence

variable {t t' : VerificationTables} {u : UserId} {v : ServiceVerification} {i : Nat}
  {g : ServiceVerification → ServiceVerification}

/-- A decision rewrites the last submission of its member. -/
theorem rowsOf_decided (known : t.Coherent) (found : t.verifications[i]? = some v) (pending : v.status = .pendingReview)
    (keeps : ∀ w, (g w).userId = w.userId) :
    Histories.ofOwner ServiceVerification.userId u (Rows.updateWhere (·.pendingOf v.userId) g t.verifications)
      = if v.userId = u then (t.rowsOf u).dropLast ++ [g v] else t.rowsOf u := by
  rw [Histories.ofOwner_updateWhere keeps]
  split
  · rename_i own
    subst own
    refine (known v.userId).settled.updateWhere ?_ (by simp [pending]) (pendingOf_iff.mpr ⟨rfl, pending⟩) ?_
    · exact Histories.mem_ofOwner.mpr ⟨List.mem_of_getElem? found, rfl⟩
    · intro w _ rejected
      simp [ServiceVerification.pendingOf, rejected]
  · rename_i other
    refine (List.map_congr_left fun w listed => ?_).trans (List.map_id _)
    obtain ⟨-, own⟩ := Histories.mem_ofOwner.mp listed
    have unwritten : w.pendingOf v.userId = false := by
      simp [ServiceVerification.pendingOf, own, Ne.symm other]
    simp [unwritten]

/-- The last submission of a member, when it is undecided. -/
theorem rowsOf_last (known : t.Coherent) (found : t.verifications[i]? = some v) (pending : v.status = .pendingReview) :
    (t.rowsOf v.userId).getLast? = some v := by
  have listed : v ∈ t.rowsOf v.userId := Histories.mem_ofOwner.mpr ⟨List.mem_of_getElem? found, rfl⟩
  have ends : t.rowsOf v.userId = (t.rowsOf v.userId).dropLast ++ [v] :=
    (known v.userId).settled.last listed (by simp [pending])
  rw [ends, List.getLast?_concat]

/-- Every account sees at most one event. -/
theorem VerificationEvent.member (event : VerificationEvent t t') (known : t.Coherent) (w : UserId) :
    MemberEvent w (t.member w) (t'.member w) := by
  cases event with
  | kept => exact .kept id
  | @opened u emailVerified ledger new score scores approvals =>
      by_cases own : w = u
      · subst own
        simp only [VerificationTables.member, Function.update_self, score, approvals]
        exact .opened new
      · simp only [VerificationTables.member, Function.update_of_ne own, approvals]
        exact .kept (scores w)
  | @email u =>
      by_cases own : w = u
      · subst own
        simp only [VerificationTables.member, Function.update_self]
        cases account : t.user w with
        | none =>
            rw [Option.map_none, ← account]
            exact .kept id
        | some a => exact .email (m := { account := some a, .. }) rfl
      · simp only [VerificationTables.member, Function.update_of_ne own]
        exact .kept id
  | @submitted now acknowledgedAt u a proofs account confirmed unapproved free some_ documents =>
      by_cases own : w = u
      · subst own
        have grown : Histories.ofOwner ServiceVerification.userId w (t.verifications
            ++ [.submitted now acknowledgedAt w verificationPrivacyNoticeVersion proofs])
            = t.rowsOf w ++ [.submitted now acknowledgedAt w verificationPrivacyNoticeVersion proofs] :=
          Histories.ofOwner_append_own rfl
        simp only [VerificationTables.member, VerificationTables.rowsOf, Function.update_self, grown]
        refine .submitted account unapproved (fun v listed pending => ?_) rfl
        obtain ⟨member, mine⟩ := Histories.mem_ofOwner.mp listed
        have undecided := free v member
        rw [pendingOf_iff.mpr ⟨mine, pending⟩] at undecided
        cases undecided
      · have same : Histories.ofOwner ServiceVerification.userId w (t.verifications
            ++ [.submitted now acknowledgedAt u verificationPrivacyNoticeVersion proofs]) = t.rowsOf w :=
          Histories.ofOwner_append_other (Ne.symm own)
        simp only [VerificationTables.member, VerificationTables.rowsOf, Function.update_of_ne own, same]
        exact .kept id
  | @decided now i v a admin approve message reason ledger found pending account trust =>
      have rows := rowsOf_decided (u := w) known found pending
        (g := (·.decide now (if approve then .approved else .rejected) admin message)) fun _ => rfl
      by_cases own : w = v.userId
      · subst own
        rw [if_pos rfl] at rows
        have scored := (known v.userId).scored (Option.isSome_iff_exists.mpr ⟨a, account⟩)
        have last := rowsOf_last known found pending
        obtain ⟨rfl, rfl⟩ | ⟨rfl, before, rfl⟩ := trust
        · simp only [VerificationTables.member, VerificationTables.rowsOf, Function.update_self, rows]
          exact .decided (m := t.member v.userId) (w := v.decide now .rejected admin message) account last pending
            (.inl ⟨rfl, rfl⟩)
        · have same : ((t.ledger.record ((approvalInput v.userId admin).event now before)).trustScore v.userId).isSome
              = (t.member v.userId).scored := by
            rw [scored]
            simp [TrustLedger.record, TrustEventInput.event, approvalInput]
          simp only [VerificationTables.member, VerificationTables.rowsOf, Function.update_self, reduceIte] at rows same ⊢
          rw [rows, same]
          refine .decided (m := t.member v.userId) (w := v.decide now .approved admin message) account last pending
            (.inr ⟨rfl, (approvalInput v.userId admin).event now before, approvals_record_self rfl, rfl, rfl, rfl⟩)
      · rw [if_neg (Ne.symm own)] at rows
        simp only [VerificationTables.member, VerificationTables.rowsOf, Function.update_of_ne own, rows]
        obtain ⟨rfl, rfl⟩ | ⟨rfl, before, rfl⟩ := trust
        · exact .kept id
        · rw [approvals_record_other fun same => own (EventKey.verificationApproval.inj same).symm]
          refine .kept (m := t.member w) fun known => ?_
          have same : (t.ledger.record ((approvalInput v.userId admin).event now before)).trustScore w = t.ledger.trustScore w :=
            Function.update_of_ne own _ _
          rw [same]
          exact known
  | accessed => exact .kept id
  | trust scores approvals =>
      simp only [VerificationTables.member, approvals]
      exact .kept (scores w)

end Coherence

/-- A verification that is in order: what it was submitted with, and who decided it when. -/
structure ServiceVerification.WellFormed (v : ServiceVerification) : Prop where
  consent : v.privacyNoticeVersion = verificationPrivacyNoticeVersion ∧ v.privacyAcknowledgedBy = v.userId
  documents : v.proofs ≠ [] ∧ ∀ p ∈ v.proofs, ∃ key, p.storageKey = some key ∧ key.folder = some v.userId
  undecided : v.status = .pendingReview →
    v.reviewedAt = none ∧ v.adminId = none ∧ v.retentionUntil = verificationRetentionDeadline v.privacyAcknowledgedAt
  decided : v.status ≠ .pendingReview →
    ∃ now admin, v.reviewedAt = some now ∧ v.adminId = some admin ∧ v.retentionUntil = verificationRetentionDeadline now

/-- The audit row of the decision, in its columns. -/
def ServiceVerification.decisionAudit (v : ServiceVerification) : List (UserId × UserId × VerificationAuditAction) :=
  v.adminId.toList.map fun admin => (admin, v.userId, if v.status = .approved then .approved else .rejected)

/-- The audit rows of the decisions on a verification. -/
def VerificationTables.decisionAudits (t : VerificationTables) (i : Nat) :
    List (UserId × UserId × VerificationAuditAction) :=
  (t.audit.filter fun e => e.verificationId == i && e.proofId.isNone).map fun e => (e.actorId, e.targetUserId, e.action)

/-- Every decision has its one audit row, and every audit row is about a verification and its member. -/
structure VerificationTables.Audited (t : VerificationTables) : Prop where
  decisions : ∀ (i : Nat) v, t.verifications[i]? = some v → t.decisionAudits i = v.decisionAudit
  targets : ∀ e ∈ t.audit, ∃ v, t.verifications[e.verificationId]? = some v ∧ e.targetUserId = v.userId

/-- The same verification, or its decision. -/
def ServiceVerification.Decides (v v' : ServiceVerification) : Prop :=
  v' = v ∨ v.status = .pendingReview ∧ ∃ now status admin notes, status ≠ .pendingReview
    ∧ v' = v.decide now status admin notes

section Records

variable {t t' : VerificationTables} {u : UserId} {v v' v'' : ServiceVerification} {i j : Nat}
  {g : ServiceVerification → ServiceVerification}

theorem ServiceVerification.Decides.trans (h : v.Decides v') (h' : v'.Decides v'') : v.Decides v'' := by
  rcases h' with rfl | ⟨pending, decision⟩
  · exact h
  · rcases h with rfl | ⟨-, now, status, admin, notes, decided, rfl⟩
    · exact .inr ⟨pending, decision⟩
    · exact absurd pending decided

theorem ServiceVerification.Decides.userId (h : v.Decides v') : v'.userId = v.userId := by
  rcases h with rfl | ⟨-, now, status, admin, notes, -, rfl⟩ <;> rfl

theorem ServiceVerification.Decides.decided (h : v.Decides v') (decided : v.status ≠ .pendingReview) : v' = v := by
  rcases h with rfl | ⟨pending, -⟩
  · rfl
  · exact absurd pending decided

theorem ServiceVerification.WellFormed.decide {now : Millis} {status : VerificationStatus} {admin : UserId}
    {notes : Option String} (h : v.WellFormed) (decided : status ≠ .pendingReview) :
    (v.decide now status admin notes).WellFormed where
  consent := h.consent
  documents := h.documents
  undecided pending := absurd pending decided
  decided _ := ⟨now, admin, rfl, rfl, rfl⟩

/-- A decision rewrites one row. -/
theorem getElem?_decided (known : t.Coherent) (found : t.verifications[i]? = some v) (pending : v.status = .pendingReview)
    (j : Nat) : (Rows.updateWhere (·.pendingOf v.userId) g t.verifications)[j]?
      = if j = i then some (g v) else t.verifications[j]? := by
  rw [Rows.updateWhere, List.getElem?_map]
  split
  · rename_i same
    subst same
    simp [found, pendingOf_iff.mpr ⟨rfl, pending⟩]
  · rename_i other
    cases found' : t.verifications[j]? with
    | none => rfl
    | some w =>
        have unwritten : w.pendingOf v.userId = false := by
          by_contra undecided
          exact other (known.only found pending j w found' (by simpa using undecided))
        simp [unwritten]

/-- Every verification stays, as it was or decided. -/
theorem VerificationEvent.decides (event : VerificationEvent t t') (known : t.Coherent) (found : t.verifications[j]? = some v) :
    ∃ v', t'.verifications[j]? = some v' ∧ v.Decides v' := by
  cases event with
  | kept | opened | email | accessed | trust => exact ⟨v, found, .inl rfl⟩
  | submitted =>
      refine ⟨v, ?_, .inl rfl⟩
      rw [List.getElem?_append_left (List.getElem?_eq_some_iff.mp found).1]
      exact found
  | @decided now i w a admin approve message reason ledger found' pending account trust =>
      rw [getElem?_decided known found' pending]
      by_cases same : j = i
      · subst same
        obtain rfl := Option.some.inj (found.symm.trans found')
        rw [if_pos rfl]
        refine ⟨_, rfl, .inr ⟨pending, now, _, admin, message, ?_, rfl⟩⟩
        cases approve <;> simp
      · rw [if_neg same]
        exact ⟨v, found, .inl rfl⟩

/-- A verification of the new tables was there, or has just been submitted. -/
theorem VerificationEvent.origin (event : VerificationEvent t t') (known : t.Coherent) (found : t'.verifications[j]? = some v') :
    (∃ v, t.verifications[j]? = some v ∧ v.Decides v') ∨ t.verifications.length = j
      ∧ ∃ now acknowledgedAt u proofs, v' = .submitted now acknowledgedAt u verificationPrivacyNoticeVersion proofs
        ∧ proofs ≠ [] ∧ ∀ p ∈ proofs, p.storageKey.folder = some u := by
  rcases Nat.lt_or_ge j t.verifications.length with old | new
  · obtain ⟨v, before⟩ : ∃ v, t.verifications[j]? = some v := ⟨_, List.getElem?_eq_getElem old⟩
    obtain ⟨v'', after, decides⟩ := event.decides known before
    obtain rfl := Option.some.inj (after.symm.trans found)
    exact .inl ⟨v, before, decides⟩
  · cases event with
    | kept | opened | email | accessed | trust =>
        rw [List.getElem?_eq_none new] at found
        cases found
    | @submitted now acknowledgedAt u a proofs account confirmed unapproved free some_ documents =>
        rw [List.getElem?_append_right new, List.getElem?_singleton] at found
        split at found
        · obtain rfl := Option.some.inj found
          exact .inr ⟨by omega, now, acknowledgedAt, u, proofs, rfl, some_, documents⟩
        · cases found
    | decided =>
        rw [List.getElem?_eq_none (by simpa using new)] at found
        cases found

theorem ServiceVerification.submitted_wellFormed {now acknowledgedAt : Millis} {proofs : List VerificationProofInput} (some_ : proofs ≠ [])
    (documents : ∀ p ∈ proofs, p.storageKey.folder = some u) :
    (ServiceVerification.submitted now acknowledgedAt u verificationPrivacyNoticeVersion proofs).WellFormed where
  consent := ⟨rfl, rfl⟩
  documents := by
    refine ⟨by simpa [ServiceVerification.submitted] using some_, fun p listed => ?_⟩
    obtain ⟨input, given, rfl⟩ := List.mem_map.mp listed
    exact ⟨input.storageKey, rfl, documents input given⟩
  undecided _ := ⟨rfl, rfl, rfl⟩
  decided reviewed := absurd rfl reviewed

theorem VerificationEvent.wellFormed (event : VerificationEvent t t') (known : t.Coherent)
    (h : ∀ v ∈ t.verifications, v.WellFormed) : ∀ v ∈ t'.verifications, v.WellFormed := by
  intro v' listed
  obtain ⟨j, found⟩ := List.mem_iff_getElem?.mp listed
  obtain ⟨v, before, decides⟩ | ⟨-, now, acknowledgedAt, u, proofs, rfl, some_, documents⟩ := event.origin known found
  · have formed := h v (List.mem_of_getElem? before)
    rcases decides with rfl | ⟨-, now, status, admin, notes, decided, rfl⟩
    · exact formed
    · exact formed.decide decided
  · exact ServiceVerification.submitted_wellFormed some_ documents

theorem decisionAudits_append_other {e : VerificationAudit} (audit : t'.audit = t.audit ++ [e])
    (other : e.verificationId ≠ i ∨ e.proofId.isSome = true) : t'.decisionAudits i = t.decisionAudits i := by
  have unlisted : (e.verificationId == i && e.proofId.isNone) = false := by
    rw [Bool.and_eq_false_iff, beq_eq_false_iff_ne, Option.isNone_eq_false_iff]
    exact other
  rw [VerificationTables.decisionAudits, audit, List.filter_append, List.filter_singleton, unlisted]
  simp [VerificationTables.decisionAudits]

theorem VerificationEvent.audited (event : VerificationEvent t t') (known : t.Coherent)
    (formed : ∀ v ∈ t.verifications, v.WellFormed) (h : t.Audited) : t'.Audited := by
  have targets : ∀ e ∈ t.audit, ∃ v', t'.verifications[e.verificationId]? = some v' ∧ e.targetUserId = v'.userId := by
    intro e listed
    obtain ⟨v, found, target⟩ := h.targets e listed
    obtain ⟨v', found', decides⟩ := event.decides known found
    exact ⟨v', found', target.trans decides.userId.symm⟩
  cases event with
  | kept | opened | email | trust => exact ⟨h.decisions, targets⟩
  | @submitted now acknowledgedAt u a proofs account confirmed unapproved free some_ documents =>
      refine ⟨fun j v found => ?_, targets⟩
      rcases Nat.lt_or_ge j t.verifications.length with old | new
      · rw [List.getElem?_append_left old] at found
        exact h.decisions j v found
      · -- nothing was audited about a verification that did not exist
        rw [List.getElem?_append_right new, List.getElem?_singleton] at found
        split at found
        · obtain rfl := Option.some.inj found
          refine List.map_eq_nil_iff.mpr (List.filter_eq_nil_iff.mpr fun e listed both => ?_)
          obtain ⟨w, before, -⟩ := h.targets e listed
          rw [Bool.and_eq_true, beq_iff_eq] at both
          rw [both.1, List.getElem?_eq_none new] at before
          cases before
        · cases found
  | @decided now i w a admin approve message reason ledger found' pending account trust =>
      refine ⟨fun j v found => ?_, fun e listed => ?_⟩
      · rw [getElem?_decided known found' pending] at found
        by_cases same : j = i
        · subst same
          rw [if_pos rfl] at found
          obtain rfl := Option.some.inj found
          have undecided := h.decisions j w found'
          have unassigned := ((formed w (List.mem_of_getElem? found')).undecided pending).2.1
          simp only [VerificationTables.decisionAudits, ServiceVerification.decisionAudit, unassigned] at undecided
          rw [VerificationTables.decisionAudits, List.filter_append, List.map_append, undecided]
          cases approve <;> simp [ServiceVerification.decisionAudit, ServiceVerification.decide]
        · rw [if_neg same] at found
          exact (decisionAudits_append_other rfl (.inl (Ne.symm same))).trans (h.decisions j v found)
      · rcases List.mem_append.mp listed with old | new
        · exact targets e old
        · obtain rfl := List.mem_singleton.mp new
          refine ⟨_, (getElem?_decided known found' pending i).trans (if_pos rfl), rfl⟩
  | @accessed entry w found target document =>
      refine ⟨fun j v found => ?_, fun e listed => ?_⟩
      · exact (decisionAudits_append_other rfl (.inr document)).trans (h.decisions j v found)
      · rcases List.mem_append.mp listed with old | new
        · exact targets e old
        · obtain rfl := List.mem_singleton.mp new
          exact ⟨w, found, target⟩

end Records

/-- A member whose first submission is rejected and whose second one is approved. -/
def sampleResidency : List VerificationAction :=
  let proofs : List VerificationProofInput := [⟨⟨some 1, "barangay-clearance.png"⟩, "Barangay clearance"⟩]
  [.openAccount 0 1 false, .verifyEmail 1,
    .submit 10 9 1 proofs verificationPrivacyNoticeVersion true, .review 20 1 0 9 false none,
    .submit 30 29 1 proofs verificationPrivacyNoticeVersion true, .review 40 1 1 9 true none]

def sampleTables : VerificationTables where
  user _ := none
  ledger := { trustScore := fun _ => none }

theorem sampleTables_initial : verificationMachine.initial sampleTables :=
  ⟨fun _ => rfl, rfl, ⟨fun _ => rfl, rfl, rfl⟩, rfl⟩

section Runs

variable {t t' : VerificationTables} {u : UserId} {v : ServiceVerification} {i : Nat}

/-- The tables after any run. -/
structure VerificationTables.InOrder (t : VerificationTables) : Prop where
  coherent : t.Coherent
  wellFormed : ∀ v ∈ t.verifications, v.WellFormed
  audited : t.Audited

theorem inOrder_reachable (h : verificationMachine.Reachable t) : t.InOrder := by
  refine Machine.ReachableUnder.invariant_with (fun t reached => ledger_reachable reached) (fun t start => ?_)
    (fun t a t' reached known _ next => ?_) h
  · obtain ⟨users, rows, ⟨scores, events, -⟩, audit⟩ := start
    refine ⟨fun u => ?_, by simp [rows], ⟨by simp [rows], by simp [audit]⟩⟩
    have empty : t.rowsOf u = [] := by simp [VerificationTables.rowsOf, Histories.ofOwner, rows]
    have unapproved : t.ledger.approvals u = [] := by simp [TrustLedger.approvals, events]
    simp only [VerificationTables.member, users, empty, unapproved]
    constructor <;> simp [Histories.Settled]
  · have event := step_event reached known.coherent next
    exact ⟨fun u => (known.coherent u).event (event.member known.coherent u),
      event.wellFormed known.coherent known.wellFormed, event.audited known.coherent known.wellFormed known.audited⟩

/-- In every reachable state an account stands where its last submission leaves it, every earlier submission was
    rejected, an approval has its one trust event, and a decision has its one audit row. -/
theorem verification_in_order (h : verificationMachine.Reachable t) : t.InOrder := inOrder_reachable h

theorem verification_in_order_approved : ∃ t, verificationMachine.exec sampleTables sampleResidency = some t
    ∧ (t.verifications.map (·.status) = [.rejected, .approved] ∧ t.ledger.trustScore 1 = some 55) ∧ t.InOrder := by
  obtain ⟨t, run, ends⟩ := sample_any (o := verificationMachine.exec sampleTables sampleResidency)
    (p := fun t => t.verifications.map (·.status) = [.rejected, .approved] ∧ t.ledger.trustScore 1 = some 55) (by decide)
  exact ⟨t, run, ends, verification_in_order (.of_exec sampleTables_initial run)⟩

/-- What a run leaves of the earlier tables. -/
structure VerificationTables.Evolves (t t' : VerificationTables) : Prop where
  accounts : ∀ u a, t.user u = some a → ∃ a', t'.user u = some a'
    ∧ Relation.ReflTransGen ResidencyStep a.verificationStatus a'.verificationStatus
  verifications : ∀ (i : Nat) v, t.verifications[i]? = some v → ∃ v', t'.verifications[i]? = some v' ∧ v.Decides v'

theorem evolves_run (h : verificationMachine.Reachable t)
    (run : verificationMachine.RunUnder (fun _ _ => True) t t') : t.Evolves t' := by
  refine h.related (fun t _ => ⟨fun u a account => ⟨a, account, .refl⟩, fun i v found => ⟨v, found, .inl rfl⟩⟩)
    (fun s t u first second => ⟨fun w a account => ?_, fun i v found => ?_⟩) (fun t a t' reached _ next => ?_) run
  · obtain ⟨b, account', path⟩ := first.accounts w a account
    obtain ⟨c, account'', path'⟩ := second.accounts w b account'
    exact ⟨c, account'', path.trans path'⟩
  · obtain ⟨v', found', decides⟩ := first.verifications i v found
    obtain ⟨v'', found'', decides'⟩ := second.verifications i v' found'
    exact ⟨v'', found'', decides.trans decides'⟩
  · have known := (inOrder_reachable reached).coherent
    have event := step_event (ledger_reachable reached) known next
    exact ⟨fun u a account => (event.member known u).residency (known u) account, fun i v found =>
      event.decides known found⟩

/-- Along every run every account follows the life cycle, and every verification stays and is decided at most once. -/
theorem verification_evolves (h : verificationMachine.Reachable t)
    (run : verificationMachine.RunUnder (fun _ _ => True) t t') : t.Evolves t' := evolves_run h run

theorem verification_evolves_approved : ∃ s t, verificationMachine.exec sampleTables (sampleResidency.take 4) = some s
    ∧ verificationMachine.exec s (sampleResidency.drop 4) = some t ∧ t.verifications.length = 2 ∧ s.Evolves t := by
  obtain ⟨s, run, ends⟩ := sample_any (o := verificationMachine.exec sampleTables (sampleResidency.take 4))
    (p := fun s => (verificationMachine.exec s (sampleResidency.drop 4)).any (fun t =>
      decide (t.verifications.length = 2)) = true) (by decide)
  obtain ⟨t, run', two⟩ := sample_any ends
  exact ⟨s, t, run, run', two, verification_evolves (.of_exec sampleTables_initial run) (.of_exec run')⟩

/-- An undecided submission can be decided. -/
theorem reviewVerification_pending (known : t.Coherent) (found : t.verifications[i]? = some v)
    (pending : v.status = .pendingReview) (now : Millis) (admin : UserId) (approve : Bool) (notes : Option String) :
    ∃ t', reviewVerification now v.userId i admin approve notes t = .ok t' := by
  have member := known v.userId
  have last := rowsOf_last known found pending
  obtain ⟨a, account⟩ := Option.isSome_iff_exists.mp (member.owned (List.ne_nil_of_mem (List.mem_of_getLast? last)))
  have stands := member.account a account
  simp only [VerificationTables.member, standing, last, Option.map_some, Option.getD_some, pending] at stands account
  have latest := latestPending_only found (pendingOf_iff.mpr ⟨rfl, pending⟩) (known.only found pending)
  have one : (t.verifications.zipIdx.countP fun row => row.2 == i && row.1.status == .pendingReview) = 1 := by
    have chosen : t.verifications.zipIdx.countP (fun row => row.2 == i && row.1.status == .pendingReview)
        = ((t.verifications.zipIdx.filter fun row => row.2 == i).filter fun row =>
          row.1.status == VerificationStatus.pendingReview).length := by
      rw [List.countP_eq_length_filter, List.filter_filter]
      congr 2
      funext row
      exact Bool.and_comm _ _
    rw [chosen, Joins.filter_zipIdx, found]
    simp [pending]
  obtain ⟨before, score⟩ := Option.isSome_iff_exists.mp (member.scored (Option.isSome_iff_exists.mpr ⟨a, account⟩))
  have first := member.unapproved (by simp [VerificationTables.member, standing, last, pending])
  simp only [reviewVerification, found, account, latest, one, VerificationTables.updateStatus, orThrow, rejectIf, stands,
    ne_eq, not_true_eq_false, reduceCtorEq, or_self, if_false, bind, Except.bind]
  cases approve with
  | false => exact ⟨_, rfl⟩
  | true =>
      simp only [if_true, pure, Except.pure]
      rw [approveVerificationTrust_first score first]
      exact ⟨_, rfl⟩

def staleVerification : HttpError :=
  httpError "A newer verification decision superseded this submission" 409 (some "STALE_VERIFICATION")

/-- A decided submission is not decided again. -/
theorem reviewVerification_stale (known : t.Coherent) (found : t.verifications[i]? = some v)
    (decided : v.status ≠ .pendingReview) (now : Millis) (admin : UserId) (approve : Bool) (notes : Option String) :
    reviewVerification now v.userId i admin approve notes t = .error staleVerification := by
  have owned : t.rowsOf v.userId ≠ [] :=
    List.ne_nil_of_mem (Histories.mem_ofOwner.mpr ⟨List.mem_of_getElem? found, rfl⟩)
  obtain ⟨a, account⟩ := Option.isSome_iff_exists.mp ((known v.userId).owned owned)
  have account' : t.user v.userId = some a := account
  have superseded : t.latestPending v.userId ≠ some i := by
    intro latest
    obtain ⟨w, found', pending⟩ := latestPending_some latest
    obtain rfl := Option.some.inj (found.symm.trans found')
    exact decided (pendingOf_iff.mp pending).2
  simp only [reviewVerification, found, account', orThrow, rejectIf, ne_eq, not_true_eq_false, if_false, superseded,
    not_false_eq_true, true_or, if_true, bind, Except.bind, staleVerification]

/-- A review of a verification commits exactly when it is undecided, whatever the reviews before it. -/
theorem verification_reviewed_once (h : verificationMachine.Reachable t) (found : t.verifications[i]? = some v)
    (now : Millis) (admin : UserId) (approve : Bool) (notes : Option String) :
    ((∃ t', reviewVerification now v.userId i admin approve notes t = .ok t') ↔ v.status = .pendingReview)
      ∧ (v.status ≠ .pendingReview → reviewVerification now v.userId i admin approve notes t = .error staleVerification
        ∧ ∀ t', verificationMachine.RunUnder (fun _ _ => True) t t' → t'.verifications[i]? = some v) := by
  have known := (inOrder_reachable h).coherent
  refine ⟨⟨?_, fun pending => reviewVerification_pending known found pending now admin approve notes⟩, fun decided =>
    ⟨reviewVerification_stale known found decided now admin approve notes, fun t' run => ?_⟩⟩
  · rintro ⟨t', run⟩
    by_contra decided
    rw [reviewVerification_stale known found decided] at run
    cases run
  · obtain ⟨v', found', decides⟩ := (evolves_run h run).verifications i v found
    rw [found', decides.decided decided]

theorem verification_reviewed_once_approved : ∃ t v, verificationMachine.exec sampleTables sampleResidency = some t
    ∧ t.verifications[0]? = some v ∧ reviewVerification 50 v.userId 0 8 true none t = .error staleVerification := by
  obtain ⟨t, run, ends⟩ := sample_any (o := verificationMachine.exec sampleTables sampleResidency)
    (p := fun t => (t.verifications[0]?).any (fun v =>
      decide (ServiceVerification.status v = .rejected)) = true) (by decide)
  obtain ⟨v, found, rejected⟩ := sample_any ends
  have reviewed := verification_reviewed_once (.of_exec sampleTables_initial run) found 50 8 true none
  exact ⟨t, v, run, found, (reviewed.2 (by simp [rejected])).1⟩

end Runs

end ServiceHub
