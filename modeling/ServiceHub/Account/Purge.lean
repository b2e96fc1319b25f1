import ServiceHub.Account.Tables

/-! # The purge of an account

`purgeAccountData` reads the ids in its scope first and then deletes table by table. No foreign key
stops it, whatever the tables hold.
-/

namespace ServiceHub

open Relational

/-- The ids that the purge of `userId` has found. -/
structure PurgeScope where
  userId : Nat
  services : List Nat
  requests : List Nat
  offers : List Nat
  direct : List Nat
  bookings : List Nat
  completed : List Nat
  reviews : List Nat
  reviewed : List Nat
  attempts : List Nat
  reports : List Nat
  cases : List Nat
  verifications : List Nat
  extraResources : List Nat

namespace PurgeScope

def participant (userId : Nat) : List (Column × List Nat) := [(.seekerId, [userId]), (.providerId, [userId])]

variable (s : PurgeScope)

def queueScope : Where Column where
  columns := participant s.userId
    ++ ([(.bookingId, s.bookings), (.serviceId, s.services), (.offerId, s.offers)] : List (Column × List Nat))

def contentScope : Where Column where
  columns := [(.submitterId, [s.userId]), (.contentOwnerId, [s.userId]), (.adminId, [s.userId]),
    (.resourceId, s.services ++ s.requests)]

/-- `relatedIds` before the extra resources. -/
def related : List Nat :=
  s.userId :: s.services ++ s.requests ++ s.offers ++ s.direct ++ s.bookings ++ s.completed ++ s.reviews ++ s.attempts
    ++ s.reports ++ s.cases ++ s.verifications

def relatedIds : List Nat := s.related ++ s.extraResources

def readExtraResources (db : Tables) : List Nat :=
  let find (table : Table) (columns : List (Column × List Nat)) := db.find table { columns }
  find .queue [(.seekerId, [s.userId]), (.providerId, [s.userId]), (.bookingId, s.related)]
    ++ find .cancellationRequest [(.requestedBy, [s.userId]), (.responderId, [s.userId]), (.bookingId, s.related),
      (.reportId, s.related)]
    ++ find .completionEscalation [(.requestedBy, [s.userId]), (.bookingId, s.related)]
    ++ find .paymentRefund [(.requestedById, [s.userId]), (.bookingId, s.related), (.paymentAttemptId, s.related)]
    ++ find .message [(.senderId, [s.userId]), (.receiverId, [s.userId]), (.bookingId, s.related)]
    ++ find .banAppeal [(.userId, [s.userId])]
    ++ find .announcement [(.authorId, [s.userId])]

/-- The reads of `purgeAccountData`. -/
def read (userId : Nat) (db : Tables) : PurgeScope :=
  let find (table : Table) (columns : List (Column × List Nat)) := db.find table { columns }
  let services := find .service [(.providerId, [userId])]
  let requests := find .serviceRequest [(.seekerId, [userId]), (.targetProviderId, [userId]), (.targetServiceId, services)]
  let offers := find .offer [(.providerId, [userId]), (.requestId, requests), (.serviceId, services)]
  let direct := find .directRequest (participant userId ++ ([(.serviceId, services)] : List (Column × List Nat)))
  let bookings := find .booking
    (participant userId
      ++ ([(.serviceId, services), (.offerId, offers), (.directRequestId, direct)] : List (Column × List Nat)))
  let queue := find .queue (participant userId
    ++ ([(.bookingId, bookings), (.serviceId, services), (.offerId, offers)] : List (Column × List Nat)))
  let completed := find .completedService
    (participant userId ++ ([(.bookingId, bookings), (.offerId, offers), (.directRequestId, direct),
      (.queueId, queue)] : List (Column × List Nat)))
  let reviews := find .review [(.authorId, [userId]), (.targetId, [userId]), (.completedServiceId, completed)]
  let verifications := find .serviceVerification [(.userId, [userId])]
  let cases := find .contentModerationCase [(.submitterId, [userId]), (.contentOwnerId, [userId]), (.adminId, [userId]),
    (.resourceId, services ++ requests)]
  let scope : PurgeScope := {
    userId, services, requests, offers, direct, bookings, completed, reviews
    reviewed := (db.rows.filter fun r => reviews.contains r.id).flatMap (·.ids .targetId)
    attempts := find .paymentAttempt
      (participant userId ++ ([(.serviceId, services), (.offerId, offers)] : List (Column × List Nat)))
    reports := find .report [(.reporterId, [userId]), (.reportedUserId, [userId]), (.bookingId, bookings)]
    cases
    verifications := verifications ++ find .verificationProof [(.verificationId, verifications)]
    extraResources := [] }
  { scope with extraResources := scope.readExtraResources db }

/-- The deletes of `purgeAccountData`, in order. -/
def statements : List (Statement Table Column) :=
  let u := [s.userId]
  [ ⟨.adminResolutionOperation, { columns := [(.requestedByAdminId, u), (.bookingId, s.bookings), (.caseId, s.relatedIds)] }⟩,
    ⟨.paymentRefund, { columns := [(.requestedById, u), (.bookingId, s.bookings), (.paymentAttemptId, s.attempts)] }⟩,
    ⟨.review, { id := s.reviews }⟩,
    ⟨.completedService, { id := s.completed }⟩,
    ⟨.queue, s.queueScope⟩,
    ⟨.message, { columns := [(.senderId, u), (.receiverId, u), (.bookingId, s.bookings)] }⟩,
    ⟨.cancellationRequest, { columns := [(.requestedBy, u), (.responderId, u), (.adminId, u), (.bookingId, s.bookings),
      (.reportId, s.reports)] }⟩,
    ⟨.completionEscalation, { columns := [(.requestedBy, u), (.adminId, u), (.bookingId, s.bookings)] }⟩,
    ⟨.report, { id := s.reports }⟩,
    ⟨.booking, { id := s.bookings }⟩,
    ⟨.directRequest, { id := s.direct }⟩,
    ⟨.offer, { id := s.offers }⟩,
    ⟨.paymentAttempt, { id := s.attempts }⟩,
    ⟨.subscriptionPayment, { columns := [(.providerId, u)] }⟩,
    ⟨.contentModerationCase, s.contentScope⟩,
    ⟨.contentModerationEvent, { columns := [(.actorId, u), (.resourceId, s.relatedIds)] }⟩,
    ⟨.serviceRequest, { id := s.requests }⟩,
    ⟨.service, { id := s.services }⟩,
    ⟨.banAppeal, { columns := [(.userId, u)] }⟩,
    ⟨.accountDeletionRequest, { columns := [(.userId, u)] }⟩,
    ⟨.notification, { columns := [(.userId, u), (.link, s.relatedIds)] }⟩,
    ⟨.transaction, { columns := [(.walletOwnerId, u), (.relatedBookingId, s.bookings ++ s.completed ++ u)] }⟩,
    ⟨.trustScoreEvent, { columns := [(.userId, u), (.actorAdminId, u), (.eventKey, s.relatedIds)] }⟩,
    ⟨.adminAuditLog, { columns := [(.actorId, u), (.targetUserId, u), (.resourceId, s.relatedIds), (.metadata, u)] }⟩,
    ⟨.aiReviewSummary, { columns := [(.providerId, s.userId :: s.reviewed)] }⟩,
    ⟨.user, { id := u }⟩ ]

end PurgeScope

structure Purged where
  tables : Tables
  removedBookings : Nat
  removedReviews : Nat

/-- `purgeAccountData`; nothing when a foreign key is violated. -/
def purgeAccountData (userId : Nat) (db : Tables) : Option Purged :=
  let scope := PurgeScope.read userId db
  (db.run foreignKeys scope.statements).map fun tables =>
    { tables, removedBookings := scope.bookings.length, removedReviews := scope.reviews.length }

/-- The tables that a restricting key points to. -/
def Table.restricted : Table → Bool
  | .user | .service | .booking | .category => true
  | _ => false

/-- Only an account cascades to rows that a restricting key points to. -/
theorem cascades_to_restricted : ∀ k ∈ foreignKeys, k.onDelete = .cascade → k.table.restricted = true →
    k.target = .user ∧ (k.table = .service ∧ k.column = .providerId
      ∨ k.table = .booking ∧ (k.column = .seekerId ∨ k.column = .providerId)) := by
  decide

theorem restricts_target : ∀ k ∈ foreignKeys, k.onDelete = .restrict → k.target.restricted = true := by
  decide

/-- The restricting keys to an account. -/
def accountKeys : List (Table × Column) := [
  (.subscriptionPayment, .providerId), (.completedService, .seekerId), (.completedService, .providerId),
  (.review, .authorId), (.review, .targetId), (.report, .reporterId), (.report, .reportedUserId), (.message, .senderId),
  (.message, .receiverId), (.adminAuditLog, .actorId), (.banAppeal, .userId), (.accountDeletionRequest, .userId),
  (.paymentRefund, .requestedById)]

section Completion

variable {db mid : Tables} {s : PurgeScope} {st : Statement Table Column} {r p : Record} {userId : Nat}

/-- A statement deletes no row that a restricting key points to, besides the ones it names. -/
theorem gone_restricted (notUser : st.table ≠ .user) :
    ∀ p ∈ db.rows, p.id ∈ db.gone foreignKeys st → p.table.restricted = true →
      p.table = st.table ∧ st.scope.holds p = true := by
  refine db.gone_induction (fun r _ p _ refers named restricted => ?_) fun r _ table holds _ => ⟨table, holds⟩
  obtain ⟨k, key, cascade, table, target, -⟩ := references_iff.mp refers
  obtain ⟨user, -⟩ := cascades_to_restricted k key cascade (table ▸ restricted)
  have parent : p.table = .user := target.symm.trans user
  exact absurd ((named (by rw [parent]; rfl)).1.symm.trans parent) notUser

theorem delete_unrestricted (free : st.table.restricted = false) : (mid.delete foreignKeys st).isSome = true := by
  refine Database.delete_isSome fun r _ p listed dead => ?_
  rw [Bool.eq_false_iff]
  intro refers
  obtain ⟨k, key, restrict, -, target, -⟩ := references_iff.mp refers
  have restricted : p.table.restricted = true := target ▸ restricts_target k key restrict
  have notUser : st.table ≠ .user := fun user => by simp [user, Table.restricted] at free
  have same := (gone_restricted notUser p listed dead restricted).1
  rw [← same, restricted] at free
  cases free

theorem restricts_user : ∀ k ∈ foreignKeys, k.onDelete = .restrict → k.target = .user → (k.table, k.column) ∈ accountKeys := by
  decide

theorem restricts_other : ∀ k ∈ foreignKeys, k.onDelete = .restrict →
    (k.target = .service → k.table = .directRequest ∧ k.column = .serviceId)
      ∧ (k.target = .booking → k.table = .paymentRefund ∧ k.column = .bookingId) := by
  decide

/-- A statement before the account covers each of them. -/
theorem user_covered (db : Tables) (userId : Nat) {table : Table} {column : Column} (key : (table, column) ∈ accountKeys) :
    ∃ st ∈ (PurgeScope.read userId db).statements.take 25, st.table = table ∧ st.Covers db column userId := by
  -- the statement names the column, or the ids that were found by it
  have direct : ∀ (i j : Nat) {st : Statement Table Column}, ((PurgeScope.read userId db).statements.take 25)[i]? = some st →
      st.table = table → st.scope.columns[j]? = some (column, [userId]) →
      ∃ st ∈ (PurgeScope.read userId db).statements.take 25, st.table = table ∧ st.Covers db column userId :=
    fun i j st found same named =>
      ⟨st, List.mem_of_getElem? found, same, .inl ⟨_, List.mem_of_getElem? named, List.mem_singleton_self _⟩⟩
  have byId : ∀ (i j : Nat) {st : Statement Table Column} (w : Where Column),
      ((PurgeScope.read userId db).statements.take 25)[i]? = some st → st.table = table → st.scope.id = db.find st.table w →
      w.columns[j]? = some (column, [userId]) →
      ∃ st ∈ (PurgeScope.read userId db).statements.take 25, st.table = table ∧ st.Covers db column userId :=
    fun i j st w found same ids named =>
      ⟨st, List.mem_of_getElem? found, same, .inr ⟨w, _, ids, List.mem_of_getElem? named, List.mem_singleton_self _⟩⟩
  simp only [accountKeys, List.mem_cons, Prod.mk.injEq, List.not_mem_nil, or_false] at key
  rcases key with ⟨rfl, rfl⟩ | ⟨rfl, rfl⟩ | ⟨rfl, rfl⟩ | ⟨rfl, rfl⟩ | ⟨rfl, rfl⟩ | ⟨rfl, rfl⟩ | ⟨rfl, rfl⟩ | ⟨rfl, rfl⟩
    | ⟨rfl, rfl⟩ | ⟨rfl, rfl⟩ | ⟨rfl, rfl⟩ | ⟨rfl, rfl⟩ | ⟨rfl, rfl⟩
  · exact direct 13 0 rfl rfl rfl
  · exact byId 3 0 _ rfl rfl rfl rfl
  · exact byId 3 1 _ rfl rfl rfl rfl
  · exact byId 2 0 _ rfl rfl rfl rfl
  · exact byId 2 1 _ rfl rfl rfl rfl
  · exact byId 8 0 _ rfl rfl rfl rfl
  · exact byId 8 1 _ rfl rfl rfl rfl
  · exact direct 5 0 rfl rfl rfl
  · exact direct 5 1 rfl rfl rfl
  · exact direct 23 0 rfl rfl rfl
  · exact direct 18 0 rfl rfl rfl
  · exact direct 19 0 rfl rfl rfl
  · exact direct 1 0 rfl rfl rfl

/-- The statements that name a table which a restricting key points to. -/
theorem restricted_statement {i : Nat} (found : s.statements[i]? = some st) (restricted : st.table.restricted = true) :
    i = 9 ∧ st = ⟨.booking, { id := s.bookings }⟩ ∨ i = 17 ∧ st = ⟨.service, { id := s.services }⟩
      ∨ i = 25 ∧ st = ⟨.user, { id := [s.userId] }⟩ := by
  have tables : (s.statements.map (·.table))[i]? = some st.table := by
    rw [List.getElem?_map, found, Option.map_some]
  have bound : i < 26 := (List.getElem?_eq_some_iff.mp found).1
  have places : ∀ i < 26, ((s.statements.map (·.table))[i]?.any Table.restricted) = true → i = 9 ∨ i = 17 ∨ i = 25 := by
    change ∀ i < 26, (([.adminResolutionOperation, .paymentRefund, .review, .completedService, .queue, .message,
      .cancellationRequest, .completionEscalation, .report, .booking, .directRequest, .offer, .paymentAttempt,
      .subscriptionPayment, .contentModerationCase, .contentModerationEvent, .serviceRequest, .service, .banAppeal,
      .accountDeletionRequest, .notification, .transaction, .trustScoreEvent, .adminAuditLog, .aiReviewSummary,
      .user] : List Table)[i]?.any Table.restricted) = true → i = 9 ∨ i = 17 ∨ i = 25
    decide
  rcases places i bound (by rw [tables]; exact restricted) with rfl | rfl | rfl
  · exact .inl ⟨rfl, (Option.some.inj found).symm⟩
  · exact .inr (.inl ⟨rfl, (Option.some.inj found).symm⟩)
  · exact .inr (.inr ⟨rfl, (Option.some.inj found).symm⟩)

/-- A statement by ids is executed when the statements before it cover the restricting keys to its table. -/
theorem delete_covered {sts : List (Statement Table Column)} {table : Table} {ids : List Nat}
    (before : Database.run foreignKeys sts db = some mid)
    (own : ∀ p ∈ mid.rows, p.id ∈ mid.gone foreignKeys ⟨table, { id := ids }⟩ → p.table.restricted = true →
      p.table = table ∧ p.id ∈ ids)
    (covered : ∀ k ∈ foreignKeys, k.onDelete = .restrict → k.target = table → ∀ x ∈ ids,
      ∃ st ∈ sts, st.table = k.table ∧ st.Covers db k.column x) :
    (mid.delete foreignKeys ⟨table, { id := ids }⟩).isSome = true := by
  refine Database.delete_isSome fun r listed p parent dead => ?_
  rw [Bool.eq_false_iff]
  intro refers
  obtain ⟨k, key, restrict, child, target, here⟩ := references_iff.mp refers
  obtain ⟨same, named⟩ := own p parent dead (target ▸ restricts_target k key restrict)
  obtain ⟨st, earlier, names, covers⟩ := covered k key restrict (target.trans same) p.id named
  exact Database.run_uncovered before earlier covers listed (child.symm.trans names.symm) here

theorem own_of_named {table : Table} {ids : List Nat} (notUser : table ≠ .user) : ∀ p ∈ mid.rows,
    p.id ∈ mid.gone foreignKeys ⟨table, { id := ids }⟩ → p.table.restricted = true → p.table = table ∧ p.id ∈ ids := by
  intro p parent dead restricted
  obtain ⟨same, holds⟩ := gone_restricted (by simpa using notUser) p parent dead restricted
  exact ⟨same, by simpa [Where.holds] using holds⟩

/-- The bookings go after their refunds. -/
theorem delete_bookings (before : Database.run foreignKeys ((PurgeScope.read userId db).statements.take 9) db = some mid) :
    (mid.delete foreignKeys ⟨.booking, { id := (PurgeScope.read userId db).bookings }⟩).isSome = true := by
  refine delete_covered before (own_of_named (by simp)) fun k key restrict target x named => ?_
  obtain ⟨refund, column⟩ := (restricts_other k key restrict).2 target
  exact ⟨_, List.mem_of_getElem? (i := 1) rfl, refund.symm,
    column ▸ .inl ⟨_, List.mem_of_getElem? (i := 1) rfl, named⟩⟩

/-- The listings go after the direct requests on them. -/
theorem delete_services (before : Database.run foreignKeys ((PurgeScope.read userId db).statements.take 17) db = some mid) :
    (mid.delete foreignKeys ⟨.service, { id := (PurgeScope.read userId db).services }⟩).isSome = true := by
  refine delete_covered before (own_of_named (by simp)) fun k key restrict target x named => ?_
  obtain ⟨direct, column⟩ := (restricts_other k key restrict).1 target
  exact ⟨_, List.mem_of_getElem? (i := 10) rfl, direct.symm,
    column ▸ .inr ⟨_, _, rfl, List.mem_of_getElem? (i := 2) rfl, named⟩⟩

/-- The account goes last: its listings and bookings are gone, and so is every row that restricts it. -/
theorem delete_user (before : Database.run foreignKeys ((PurgeScope.read userId db).statements.take 25) db = some mid) :
    (mid.delete foreignKeys ⟨.user, { id := [userId] }⟩).isSome = true := by
  have own : ∀ p ∈ mid.rows, p.id ∈ mid.gone foreignKeys ⟨.user, { id := [userId] }⟩ → p.table.restricted = true →
      p.table = .user ∧ p.id = userId := by
    refine mid.gone_induction (fun r listed p _ refers parent restricted => ?_) fun r _ table holds _ => ⟨table, ?_⟩
    · obtain ⟨k, key, cascade, table, target, here⟩ := references_iff.mp refers
      obtain ⟨user, columns⟩ := cascades_to_restricted k key cascade (table ▸ restricted)
      have same : p.id = userId := (parent (by rw [← target, user]; rfl)).2
      rw [same] at here
      rcases columns with ⟨service, column⟩ | ⟨booking, column | column⟩
      · rw [column] at here
        exact absurd here (Database.run_uncovered before (List.mem_of_getElem? (i := 17) rfl)
          (.inr ⟨_, _, rfl, List.mem_of_getElem? (i := 0) rfl, List.mem_singleton_self _⟩) listed (table.symm.trans service))
      · rw [column] at here
        exact absurd here (Database.run_uncovered before (List.mem_of_getElem? (i := 9) rfl)
          (.inr ⟨_, _, rfl, List.mem_of_getElem? (i := 0) rfl, List.mem_singleton_self _⟩) listed (table.symm.trans booking))
      · rw [column] at here
        exact absurd here (Database.run_uncovered before (List.mem_of_getElem? (i := 9) rfl)
          (.inr ⟨_, _, rfl, List.mem_of_getElem? (i := 1) rfl, List.mem_singleton_self _⟩) listed (table.symm.trans booking))
    · simpa [Where.holds] using holds
  refine delete_covered before (fun p parent dead restricted => ?_) fun k key restrict target x named => ?_
  · obtain ⟨user, same⟩ := own p parent dead restricted
    exact ⟨user, List.mem_singleton.mpr same⟩
  · rw [List.mem_singleton.mp named]
    exact user_covered db userId (restricts_user k key restrict target)

/-- Each statement is executed after the ones before it. -/
theorem purge_completes (userId : Nat) (db : Tables) :
    ∃ t, Database.run foreignKeys (PurgeScope.read userId db).statements db = some t := by
  refine Option.isSome_iff_exists.mp (Database.run_isSome fun i st found mid before => ?_)
  cases free : st.table.restricted with
  | false => exact delete_unrestricted free
  | true =>
      obtain ⟨rfl, rfl⟩ | ⟨rfl, rfl⟩ | ⟨rfl, rfl⟩ := restricted_statement found free
      · exact delete_bookings before
      · exact delete_services before
      · exact delete_user before

end Completion

/-- The rows that the purge names, and what cascades from them. -/
inductive PurgeScope.Reached (s : PurgeScope) (db : Tables) : Record → Prop where
  | named {st r} (statement : st ∈ s.statements) (listed : r ∈ db.rows) (table : r.table = st.table)
      (holds : st.scope.holds r = true) : Reached s db r
  | cascades {r p} (listed : r ∈ db.rows) (refers : references foreignKeys .cascade r p = true) (parent : Reached s db p) :
      Reached s db r

section Purges

variable {db : Tables} {userId : Nat} {p : Purged} {r : Record}

theorem purgeAccountData_run (h : purgeAccountData userId db = some p) :
    db.run foreignKeys (PurgeScope.read userId db).statements = some p.tables := by
  obtain ⟨t, run, rfl⟩ := Option.map_eq_some_iff.mp h
  exact run

theorem purgeAccountData_below (h : purgeAccountData userId db = some p) :
    ∀ r' ∈ p.tables.rows, ∃ r ∈ db.rows, r'.Below r :=
  fun _ listed => Database.run_below (purgeAccountData_run h) listed

theorem purgeAccountData_some (userId : Nat) (db : Tables) : ∃ p, purgeAccountData userId db = some p := by
  obtain ⟨t, completes⟩ := purge_completes userId db
  rw [purgeAccountData, completes]
  exact ⟨_, rfl⟩

/-- A row that the purge does not reach stays. -/
theorem purgeAccountData_frame (h : purgeAccountData userId db = some p) (listed : r ∈ db.rows)
    (outside : ¬ (PurgeScope.read userId db).Reached db r) : (∃ r' ∈ p.tables.rows, r'.Below r)
      ∧ ((∀ p ∈ db.rows, (PurgeScope.read userId db).Reached db p → references foreignKeys .setNull r p = false) →
        r ∈ p.tables.rows) :=
  Database.run_frame (purgeAccountData_run h)
    (fun _ statement _ listed table holds => .named statement listed table holds)
    (fun _ listed _ _ refers parent => .cascades listed refers parent) listed outside

end Purges

/-- Whatever the tables hold, no foreign key stops the purge; it leaves no row that it names and no restricting reference to
    the account; and a row that it does not reach stays, as it is unless it has referred to a row that is gone. -/
theorem account_purge (userId : Nat) (db : Tables) : ∃ purged, purgeAccountData userId db = some purged
    ∧ (∀ st ∈ (PurgeScope.read userId db).statements, ∀ r ∈ purged.tables.rows, r.table = st.table →
      st.scope.holds r = false)
    ∧ (∀ k ∈ foreignKeys, k.onDelete = .restrict → k.target = .user → ∀ r ∈ purged.tables.rows, r.table = k.table →
      userId ∉ r.ids k.column)
    ∧ (∀ r' ∈ purged.tables.rows, ∃ r ∈ db.rows, r'.Below r)
    ∧ ∀ r ∈ db.rows, ¬ (PurgeScope.read userId db).Reached db r → (∃ r' ∈ purged.tables.rows, r'.Below r)
      ∧ ((∀ p ∈ db.rows, (PurgeScope.read userId db).Reached db p → references foreignKeys .setNull r p = false) →
        r ∈ purged.tables.rows) := by
  obtain ⟨p, purged⟩ := purgeAccountData_some userId db
  have run := purgeAccountData_run purged
  refine ⟨p, purged, fun st statement r listed table => Database.run_absent run statement listed table,
    fun k key restrict target r listed table => ?_, purgeAccountData_below purged,
    fun r listed outside => purgeAccountData_frame purged listed outside⟩
  obtain ⟨st, earlier, names, covers⟩ := user_covered db userId (restricts_user k key restrict target)
  exact Database.run_uncovered run (List.mem_of_mem_take earlier) covers listed (table.trans names.symm)

end ServiceHub
