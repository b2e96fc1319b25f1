import ServiceHub.Market.EarningTotals

/-! # The payment records of a provider

The query of `providerPaymentRecordsSql`: one record for each booking of the provider that has ended. What the
provider earned online is what the ledger has paid into the provider's wallet, and the providers and the platform
together have what was captured for the completed bookings.
-/

namespace ServiceHub

open Guard

inductive RecordOutcome where
  | completed | refunded | cancelled
  deriving Repr, DecidableEq

/-- `ProviderPaymentRecordsQuery`; no status means `all`. -/
structure ProviderPaymentRecordsQuery where
  page : Nat := 1
  limit : Nat := 8
  date : Option Int := none
  status : Option RecordOutcome := none
  booking : Option BookingId := none
  page_bounds : 1 ≤ page ∧ page ≤ 10000 := by decide
  limit_bounds : 1 ≤ limit ∧ limit ≤ 50 := by decide

structure ProviderPaymentRecord where
  bookingId : BookingId
  paymentMethod : PaymentMethod
  bookingStatus : BookingStatus
  paymentStatus : PaymentStatus
  amount : Centavos
  earnedAmount : Centavos
  platformFeeAmount : Centavos
  commissionRateBps : Nat
  recordedAt : Millis
  deriving Repr, DecidableEq

/-- `b.status IN ('COMPLETED', 'CANCELED', 'DECLINED', 'REMOVED')`. -/
def BookingStatus.ended (status : BookingStatus) : Bool :=
  status == .completed || status == .canceled || status == .declined || status == .removed

/-- `WHERE b."providerId" = ... AND b."seekerId" <> ... AND b.status IN (...)`. -/
def Booking.recordedFor (providerId : UserId) (b : Booking) : Bool :=
  b.providerId == providerId && b.seekerId != providerId && b.status.ended

/-- `CASE WHEN b.status = 'COMPLETED' AND cs.id IS NOT NULL ...`. -/
def BookingFile.earnedAmount (f : BookingFile) : Centavos :=
  match f.completedService with
  | none => 0
  | some c =>
      if f.booking.status = .completed ∧ (c.paymentStatus = .released ∨ c.paymentStatus = .cashConfirmed)
          ∧ f.booking.paymentStatus = c.paymentStatus then c.providerNetAmount
      else 0

/-- The record of a booking; `progressAt` is when it was cancelled or declined, or last written. -/
def paymentRecord (times : ReportTimes) (progressAt : BookingId → Millis) (row : BookingSystem × Nat) :
    ProviderPaymentRecord :=
  let f := row.1.file
  { bookingId := row.2
    paymentMethod := f.booking.paymentMethod
    bookingStatus := f.booking.status
    paymentStatus := (f.completedService.map (·.paymentStatus)).getD f.booking.paymentStatus
    amount := if f.booking.paymentStatus = .refunded then
        ((f.refund.map (·.amount)).or f.booking.agreedAmount).getD 0
      else ((f.completedService.map (·.finalPrice)).or f.booking.agreedAmount).getD 0
    earnedAmount := f.earnedAmount
    platformFeeAmount := (f.completedService.map (·.platformFeeAmount)).getD 0
    commissionRateBps := (f.completedService.map (·.commissionRateBps)).getD 0
    recordedAt := if f.completedService.isSome then times.completedAt row.2 else progressAt row.2 }

def ProviderPaymentRecord.outcome (r : ProviderPaymentRecord) : RecordOutcome :=
  if r.paymentStatus = .refunded then .refunded
  else if r.bookingStatus = .completed then .completed
  else .cancelled

/-- The `classified` records of the query. -/
def Market.paymentRecords (m : Market) (times : ReportTimes) (progressAt : BookingId → Millis) (providerId : UserId) :
    List ProviderPaymentRecord :=
  (m.bookings.zipIdx.filter (·.1.file.booking.recordedFor providerId)).map (paymentRecord times progressAt)

/-- `ORDER BY "recordedAt" DESC, id DESC`. -/
def ProviderPaymentRecord.newer (r r' : ProviderPaymentRecord) : Prop :=
  r'.recordedAt < r.recordedAt ∨ (r.recordedAt = r'.recordedAt ∧ r'.bookingId ≤ r.bookingId)

instance : DecidableRel ProviderPaymentRecord.newer := fun _ _ => inferInstanceAs (Decidable (_ ∨ _))

structure RecordsSummary where
  earnedTotal : Centavos
  cashTotal : Centavos
  onlineTotal : Centavos
  completedCount : Nat
  deriving Repr, DecidableEq

structure ProviderPaymentRecordsResult where
  items : List ProviderPaymentRecord
  summary : RecordsSummary
  page : Nat
  limit : Nat
  total : Nat
  totalPages : Nat
  linkedRecordFound : Bool
  deriving Repr, DecidableEq

/-- The record has the outcome and the day that are asked for. -/
def ProviderPaymentRecordsQuery.selects (query : ProviderPaymentRecordsQuery) (r : ProviderPaymentRecord) : Bool :=
  query.status.all (· == r.outcome) && query.date.all (· == manilaDay r.recordedAt)

/-- `SUM("earnedAmount")`. -/
def earnedAmounts (rows : List ProviderPaymentRecord) : Centavos := (rows.map (·.earnedAmount)).sum

/-- The selected rows, the newest first. -/
def recordRows (query : ProviderPaymentRecordsQuery) (records : List ProviderPaymentRecord) : List ProviderPaymentRecord :=
  (records.filter query.selects).insertionSort ProviderPaymentRecord.newer

/-- The page of the linked booking, or the page that is asked for. -/
def recordsPage (query : ProviderPaymentRecordsQuery) (rows : List ProviderPaymentRecord) : Nat :=
  match rows.findIdx? fun r => query.booking == some r.bookingId with
  | some ordinal => (ordinal + 1 + query.limit - 1) / query.limit
  | none => min query.page (max 1 (Pages.count query.limit rows.length))

/-- `getProviderPaymentRecords` on the tables. -/
def getProviderPaymentRecords (query : ProviderPaymentRecordsQuery) (times : ReportTimes)
    (progressAt : BookingId → Millis) (providerId : UserId) (m : Market) : ProviderPaymentRecordsResult :=
  let records := m.paymentRecords times progressAt providerId
  let rows := recordRows query records
  let page := recordsPage query rows
  { items := Pages.slice query.limit page rows
    summary := {
      earnedTotal := earnedAmounts records
      cashTotal := earnedAmounts (records.filter (·.paymentStatus == .cashConfirmed))
      onlineTotal := earnedAmounts (records.filter (·.paymentStatus == .released))
      completedCount := records.countP fun r => decide (0 < r.earnedAmount) }
    page, limit := query.limit, total := rows.length
    totalPages := max 1 (Pages.count query.limit rows.length)
    linkedRecordFound := rows.any fun r => query.booking == some r.bookingId }

section Wallets

variable {s : MarketSystem} {m : Market} {C : MarketSystem → MarketAction → Prop} {times : ReportTimes}
  {progressAt : BookingId → Millis} {p : UserId} {y : BookingSystem} {f : BookingFile} {l : Lifecycle}

/-- What the ledger has paid into the wallet for the booking. -/
def BookingFile.walletEarnings (f : BookingFile) (p : UserId) : Centavos :=
  ((f.transactions.filter fun e => e.type == .earning && e.walletOwnerId == p).map (·.amount)).sum

def Market.walletEarnings (m : Market) (p : UserId) : Centavos :=
  (m.bookings.map (·.file.walletEarnings p)).sum

/-- The agreed amounts of the completed bookings that the provider was paid for in cash. -/
def Market.cashCompleted (m : Market) (p : UserId) : Centavos :=
  ((m.bookings.filter fun y => y.file.booking.paymentMethod == .onsiteCash && y.file.booking.status == .completed
    && y.file.booking.providerId == p).map fun y => y.file.booking.agreedAmount.getD 0).sum

theorem walletEarnings_eq (named : f.BooksNamed) :
    f.walletEarnings p = if f.booking.providerId = p then f.earningsPaid else 0 := by
  have same : (f.transactions.filter fun e => e.type == .earning && e.walletOwnerId == p)
      = if f.booking.providerId = p then f.transactions.filter (·.type == .earning) else [] := by
    split
    · rename_i own
      refine List.filter_congr fun e listed => ?_
      cases earning : e.type == TransactionType.earning with
      | false => rfl
      | true =>
          have wallet := named.wallet e listed (by simpa using earning)
          simp [wallet, own]
    · rename_i other
      refine List.filter_eq_nil_iff.mpr fun e listed both => ?_
      simp only [Bool.and_eq_true, beq_iff_eq] at both
      exact other ((named.wallet e listed both.1).symm.trans both.2)
  rw [BookingFile.walletEarnings, same]
  split <;> rfl

/-- What an online booking has earned is what the ledger has paid out for it. -/
theorem earnedAmount_online (h : marketMachine.ReachableUnder C s) {b : Nat} (found : s.market.bookings[b]? = some y)
    (paid : y.file.booking.paymentMethod = .gcash) : y.file.earnedAmount = y.file.earningsPaid := by
  have reached := booking_reachable h found
  obtain ⟨l, e⟩ := (reachable_encodes (bookingMachine_reachableUnder reached)).file
  obtain ⟨q, -, columns⟩ := e.paidColumns paid
  obtain ⟨a, x, -, -, settled⟩ := (market_settled h).shared.2 b y found paid
  cases service : y.file.completedService with
  | none =>
      have unreleased : y.file.booking.paymentStatus ≠ .released := by
        intro released
        have served := columns.completedService.mpr (columns.completed.mpr released)
        simp [service] at served
      have none : y.file.earningsPaid = 0 := earningsPaid_of_count (by rw [columns.earning, if_neg unreleased])
      simp [BookingFile.earnedAmount, service, none]
  | some c =>
      have completed := columns.completedService.mp (by simp [service])
      obtain ⟨earning, earned⟩ := one_earning reached paid (by simp [service])
      have member : earning ∈ y.file.transactions.filter (·.type == .earning) := by simp [earned]
      rw [List.mem_filter] at member
      have net := settled.earnings earning member.1 (by simpa using member.2)
      obtain ⟨-, -, -, same⟩ := settled.service c service
      have amount : c.providerNetAmount = earning.amount := Option.some.inj (same.symm.trans net)
      have status := (books_named reached).service c service
      rw [paid] at status
      have settledStatus : c.paymentStatus = .released := status
      simp [BookingFile.earnedAmount, BookingFile.earningsPaid, service, completed, settledStatus, earned, amount,
        columns.completed.mp completed]

/-- What a cash booking has earned is its agreed amount, once it is completed. -/
theorem earnedAmount_cash (named : f.BooksNamed) (e : Encodes f l) (cash : f.booking.paymentMethod = .onsiteCash) :
    f.earnedAmount = if f.booking.status = .completed then f.booking.agreedAmount.getD 0 else 0 := by
  have served := e.completedService
  have payment := e.payment
  have status := e.status
  rw [cash] at payment
  cases service : f.completedService with
  | none =>
      have unfinished : f.booking.status ≠ .completed := by
        intro completed
        obtain rfl := e.of_completed completed
        simp [service, Lifecycle.isCompleted] at served
      simp [BookingFile.earnedAmount, service, unfinished]
  | some c =>
      have settled := named.service c service
      rw [cash] at settled
      have settledStatus : c.paymentStatus = .cashConfirmed := settled
      have completed : l = .completed := by
        cases l <;> simp_all [Lifecycle.isCompleted]
      subst completed
      have finished : f.booking.status = .completed := status
      have confirmed : f.booking.paymentStatus = .cashConfirmed := payment
      simp [BookingFile.earnedAmount, service, finished, settledStatus, confirmed, named.cash c service cash]

end Wallets

section Totals

variable {s : MarketSystem} {m : Market} {C : MarketSystem → MarketAction → Prop} {times : ReportTimes}
  {progressAt : BookingId → Millis} {p : UserId} {y : BookingSystem} {query : ProviderPaymentRecordsQuery}

theorem earnedAmounts_records (q : ProviderPaymentRecord → Bool) :
    earnedAmounts ((m.paymentRecords times progressAt p).filter q) = (m.bookings.zipIdx.map fun row =>
      if row.1.file.booking.recordedFor p && q (paymentRecord times progressAt row) then row.1.file.earnedAmount
      else 0).sum := by
  rw [earnedAmounts, Market.paymentRecords, List.filter_map, List.filter_filter, List.map_map, Joins.sum_filter]
  congr 1
  refine List.map_congr_left fun row _ => ?_
  simp only [Function.comp_apply, Bool.and_comm]
  rfl

theorem recordedFor_iff (named : y.file.BooksNamed) (completed : y.file.booking.status = .completed) :
    y.file.booking.recordedFor p = true ↔ y.file.booking.providerId = p := by
  simp only [Booking.recordedFor, BookingStatus.ended, completed, Bool.and_eq_true, beq_iff_eq, bne_iff_ne,
    beq_self_eq_true, Bool.true_or, and_true, and_iff_left_iff_imp]
  rintro rfl
  exact named.distinct

theorem recordedFor_provider (recorded : y.file.booking.recordedFor p = true) : y.file.booking.providerId = p := by
  simp only [Booking.recordedFor, Bool.and_eq_true, beq_iff_eq] at recorded
  exact recorded.1.1

/-- The online record of a booking is worth what the ledger has paid into the wallet. -/
theorem record_online (h : marketMachine.ReachableUnder C s) {b : Nat} (found : s.market.bookings[b]? = some y) :
    (if y.file.booking.recordedFor p && (paymentRecord times progressAt (y, b)).paymentStatus == .released
      then y.file.earnedAmount else 0) = y.file.walletEarnings p := by
  have reached := booking_reachable h found
  have named := books_named reached
  obtain ⟨l, e⟩ := (reachable_encodes (bookingMachine_reachableUnder reached)).file
  rw [walletEarnings_eq named]
  cases method : y.file.booking.paymentMethod with
  | onsiteCash =>
      have payment := e.payment
      rw [method] at payment
      have unreleased : (paymentRecord times progressAt (y, b)).paymentStatus ≠ .released := by
        simp only [paymentRecord]
        cases service : y.file.completedService with
        | none =>
            simp only [Option.map_none, Option.getD_none, payment]
            cases l with
            | underReview w frozen => cases frozen <;> simp [Lifecycle.payment, PaymentMethod.paid]
            | _ => simp [Lifecycle.payment, PaymentMethod.paid]
        | some c =>
            have settled := named.service c service
            rw [method] at settled
            simp [settled, PaymentMethod.settledStatus]
      simp [unreleased, cash_unearned e method]
  | gcash =>
      rw [earnedAmount_online h found method]
      by_cases own : y.file.booking.providerId = p
      · rw [if_pos own]
        obtain ⟨q, -, columns⟩ := e.paidColumns method
        by_cases completed : y.file.booking.status = .completed
        · obtain ⟨c, service⟩ := Option.isSome_iff_exists.mp (columns.completedService.mpr completed)
          have settled := named.service c service
          rw [method] at settled
          have released : (paymentRecord times progressAt (y, b)).paymentStatus = .released := by
            simp [paymentRecord, service, settled, PaymentMethod.settledStatus]
          simp [released, (recordedFor_iff named completed).mpr own]
        · have none : y.file.earningsPaid = 0 := by
            refine earningsPaid_of_count ?_
            rw [columns.earning, if_neg fun released => completed (columns.completed.mpr released)]
          simp [none]
      · have unrecorded : y.file.booking.recordedFor p = false :=
          Bool.eq_false_iff.mpr fun recorded => own (recordedFor_provider recorded)
        simp [own, unrecorded]

/-- The cash record of a booking is worth its agreed amount. -/
theorem record_cash (h : marketMachine.ReachableUnder C s) {b : Nat} (found : s.market.bookings[b]? = some y) :
    (if y.file.booking.recordedFor p && (paymentRecord times progressAt (y, b)).paymentStatus == .cashConfirmed
      then y.file.earnedAmount else 0)
      = if y.file.booking.paymentMethod == .onsiteCash && y.file.booking.status == .completed
        && y.file.booking.providerId == p then y.file.booking.agreedAmount.getD 0 else 0 := by
  have reached := booking_reachable h found
  have named := books_named reached
  obtain ⟨l, e⟩ := (reachable_encodes (bookingMachine_reachableUnder reached)).file
  cases method : y.file.booking.paymentMethod with
  | onsiteCash =>
      rw [earnedAmount_cash named e method]
      by_cases completed : y.file.booking.status = .completed
      · have served := e.completedService
        obtain rfl := e.of_completed completed
        obtain ⟨c, service⟩ := Option.isSome_iff_exists.mp (served.trans rfl)
        have settled := named.service c service
        rw [method] at settled
        have confirmed : (paymentRecord times progressAt (y, b)).paymentStatus = .cashConfirmed := by
          simp [paymentRecord, service, settled, PaymentMethod.settledStatus]
        have recorded : y.file.booking.recordedFor p = (y.file.booking.providerId == p) := by
          rw [Bool.eq_iff_iff, recordedFor_iff named completed, beq_iff_eq]
        simp [confirmed, completed, recorded]
      · simp [completed]
  | gcash =>
      have unconfirmed : (paymentRecord times progressAt (y, b)).paymentStatus ≠ .cashConfirmed := by
        simp only [paymentRecord]
        cases service : y.file.completedService with
        | none => obtain payment | payment | payment | payment := e.paid_payment method <;> simp [payment]
        | some c =>
            have settled := named.service c service
            rw [method] at settled
            simp [settled, PaymentMethod.settledStatus]
      simp [unconfirmed]

theorem sum_zipIdx {l : List BookingSystem} (g : BookingSystem → Centavos) :
    (l.zipIdx.map fun row => g row.1).sum = (l.map g).sum := by
  conv_rhs => rw [← List.zipIdx_map_fst 0 l, List.map_map]
  rfl

theorem onlineTotal_eq (h : marketMachine.ReachableUnder C s) :
    (getProviderPaymentRecords query times progressAt p s.market).summary.onlineTotal = s.market.walletEarnings p := by
  simp only [getProviderPaymentRecords]
  rw [earnedAmounts_records, Market.walletEarnings, ← sum_zipIdx]
  congr 1
  exact List.map_congr_left fun row listed => record_online h (List.mem_zipIdx_iff_getElem?.mp listed)

theorem cashTotal_eq (h : marketMachine.ReachableUnder C s) :
    (getProviderPaymentRecords query times progressAt p s.market).summary.cashTotal = s.market.cashCompleted p := by
  simp only [getProviderPaymentRecords]
  rw [earnedAmounts_records, Market.cashCompleted, Joins.sum_filter, ← sum_zipIdx]
  congr 1
  exact List.map_congr_left fun row listed => record_cash h (List.mem_zipIdx_iff_getElem?.mp listed)

/-- What is earned is earned online or in cash. -/
theorem earnedTotal_eq : (getProviderPaymentRecords query times progressAt p m).summary.earnedTotal
    = (getProviderPaymentRecords query times progressAt p m).summary.cashTotal
      + (getProviderPaymentRecords query times progressAt p m).summary.onlineTotal := by
  have all : earnedAmounts (m.paymentRecords times progressAt p)
      = earnedAmounts ((m.paymentRecords times progressAt p).filter fun _ => true) := by
    rw [List.filter_eq_self.mpr fun _ _ => rfl]
  simp only [getProviderPaymentRecords]
  rw [all, earnedAmounts_records, earnedAmounts_records, earnedAmounts_records, ← List.sum_map_add]
  congr 1
  refine List.map_congr_left fun row _ => ?_
  obtain ⟨y, b⟩ := row
  cases recorded : y.file.booking.recordedFor p with
  | false => rfl
  | true =>
      simp only [paymentRecord, BookingFile.earnedAmount, Bool.true_and]
      cases y.file.completedService with
      | none => simp
      | some c => cases status : c.paymentStatus <;> simp [status]

/-- Every earning is paid into the wallet of one provider. -/
theorem walletEarnings_sum (h : marketMachine.ReachableUnder C s) {providers : List UserId} (distinct : providers.Nodup)
    (covers : ∀ y ∈ s.market.bookings, y.file.booking.providerId ∈ providers) :
    (providers.map s.market.walletEarnings).sum = s.market.earningsPaid := by
  have wallet : ∀ p, s.market.walletEarnings p = ((s.market.bookings.filter fun y =>
      y.file.booking.providerId == p).map fun y => y.file.earningsPaid).sum := by
    intro p
    rw [Market.walletEarnings, Joins.sum_filter]
    congr 1
    refine List.map_congr_left fun y listed => ?_
    obtain ⟨b, found⟩ := List.mem_iff_getElem?.mp listed
    rw [walletEarnings_eq (books_named (booking_reachable h found))]
    simp
  have each : (providers.map s.market.walletEarnings).sum = (s.market.bookings.map fun y =>
      ((providers.filter fun p => y.file.booking.providerId == p).map fun _ => y.file.earningsPaid).sum).sum := by
    rw [← Joins.sum_exchange (fun p (y : BookingSystem) => y.file.booking.providerId == p) fun _ y => y.file.earningsPaid]
    congr 1
    exact List.map_congr_left fun p _ => wallet p
  rw [each, Market.earningsPaid]
  congr 1
  refine List.map_congr_left fun y listed => ?_
  have flipped : (fun p => y.file.booking.providerId == p) = (· == y.file.booking.providerId) := by
    funext p
    exact BEq.comm
  rw [flipped, List.filter_beq, distinct.count, if_pos (covers y listed)]
  simp

theorem records_ids : ((m.paymentRecords times progressAt p).map (·.bookingId)).Nodup := by
  rw [Market.paymentRecords, List.map_map]
  have ids : ((fun r : ProviderPaymentRecord => r.bookingId) ∘ paymentRecord times progressAt) = Prod.snd := rfl
  rw [ids]
  refine List.Nodup.sublist (List.Sublist.map _ List.filter_sublist) ?_
  rw [List.zipIdx_map_snd]
  exact List.nodup_range'

/-- The bookings with a record are those of the provider that have ended. -/
theorem mem_records_iff (h : marketMachine.ReachableUnder C s) {b : BookingId} :
    b ∈ (s.market.paymentRecords times progressAt p).map (·.bookingId) ↔ ∃ y, s.market.bookings[b]? = some y
      ∧ y.file.booking.providerId = p ∧ y.file.booking.status.ended = true := by
  have named : ∀ y, s.market.bookings[b]? = some y → y.file.booking.providerId = p → y.file.booking.seekerId ≠ p := by
    rintro y found rfl
    exact (books_named (booking_reachable h found)).distinct
  simp only [Market.paymentRecords, List.mem_map, List.mem_filter, List.mem_zipIdx_iff_getElem?, Prod.exists]
  constructor
  · rintro ⟨_, ⟨y, b, ⟨found, recorded⟩, rfl⟩, rfl⟩
    simp only [Booking.recordedFor, Bool.and_eq_true, beq_iff_eq] at recorded
    exact ⟨y, found, recorded.1.1, recorded.2⟩
  · rintro ⟨y, found, own, ended⟩
    refine ⟨_, ⟨y, b, ⟨found, ?_⟩, rfl⟩, rfl⟩
    simp only [Booking.recordedFor, Bool.and_eq_true, beq_iff_eq, bne_iff_ne]
    exact ⟨⟨own, named y found own⟩, ended⟩

end Totals

section Pages

variable {query : ProviderPaymentRecordsQuery} {rows : List ProviderPaymentRecord}

theorem recordsPage_bounds : 1 ≤ recordsPage query rows
    ∧ recordsPage query rows ≤ max 1 (Pages.count query.limit rows.length) := by
  have positive : 0 < query.limit := query.limit_bounds.1
  rw [recordsPage]
  split
  · rename_i ordinal found
    obtain ⟨below, -⟩ := List.findIdx?_eq_some_iff_findIdx_eq.mp found
    refine ⟨?_, Nat.le_trans (Pages.count_mono below) (Nat.le_max_right _ _)⟩
    exact (Pages.lt_count_iff positive).mpr (by omega)
  · exact ⟨Nat.le_min.mpr ⟨query.page_bounds.1, Nat.le_max_left _ _⟩, Nat.min_le_right _ _⟩

theorem mem_recordRows {records : List ProviderPaymentRecord} {r : ProviderPaymentRecord} :
    r ∈ recordRows query records ↔ r ∈ records ∧ query.selects r = true := by
  rw [recordRows, List.mem_insertionSort, List.mem_filter]

/-- A linked row is on the page that is shown. -/
theorem linked_on_page (linked : rows.any (fun r => query.booking == some r.bookingId) = true) :
    ∃ r ∈ Pages.slice query.limit (recordsPage query rows) rows, query.booking = some r.bookingId := by
  have positive : 0 < query.limit := query.limit_bounds.1
  cases found : rows.findIdx? fun r => query.booking == some r.bookingId with
  | none =>
      obtain ⟨r, listed, named⟩ := List.any_eq_true.mp linked
      have missed := List.findIdx?_eq_none_iff.mp found r listed
      simp [named] at missed
  | some ordinal =>
      obtain ⟨below, named, -⟩ := List.findIdx?_eq_some_iff_getElem.mp found
      refine ⟨rows[ordinal], ?_, by simpa using named⟩
      rw [recordsPage, found]
      exact Pages.mem_slice_of_getElem? positive (List.getElem?_eq_getElem below)

/-- The record of a linked booking is on the page that is shown, once it is selected. -/
theorem linked_record_on_page {records : List ProviderPaymentRecord} (once : (records.map (·.bookingId)).Nodup)
    {r : ProviderPaymentRecord} (listed : r ∈ records) (linked : query.booking = some r.bookingId)
    (selected : query.selects r = true) :
    (recordRows query records).any (fun r => query.booking == some r.bookingId) = true
      ∧ r ∈ Pages.slice query.limit (recordsPage query (recordRows query records)) (recordRows query records) := by
  have found : (recordRows query records).any (fun r => query.booking == some r.bookingId) = true :=
    List.any_eq_true.mpr ⟨r, mem_recordRows.mpr ⟨listed, selected⟩, by simp [linked]⟩
  refine ⟨found, ?_⟩
  obtain ⟨r', shown, linked'⟩ := linked_on_page found
  have listed' := (mem_recordRows.mp (Pages.mem_of_mem_slice shown)).1
  have same : r.bookingId = r'.bookingId := Option.some.inj (linked.symm.trans linked')
  rwa [List.inj_on_of_nodup_map once listed listed' same]

end Pages

section Result

variable {s : MarketSystem} {C : MarketSystem → MarketAction → Prop} {p : UserId} {providers : List UserId}

/-- The answer shows the ledger: the online total is what it has paid into the provider's wallet, every booking that has
    ended has one record, and the record of a linked booking that is selected is on the page that is shown. -/
structure ProviderPaymentRecordsResult.Shows (result : ProviderPaymentRecordsResult)
    (query : ProviderPaymentRecordsQuery) (m : Market) (records : List ProviderPaymentRecord) (p : UserId) : Prop where
  online : result.summary.onlineTotal = m.walletEarnings p
  cash : result.summary.cashTotal = m.cashCompleted p
  earned : result.summary.earnedTotal = result.summary.cashTotal + result.summary.onlineTotal
  ended : ∀ b, b ∈ records.map (·.bookingId) ↔ ∃ y, m.bookings[b]? = some y
    ∧ y.file.booking.providerId = p ∧ y.file.booking.status.ended = true
  once : (records.map (·.bookingId)).Nodup
  linked : ∀ r ∈ records, query.booking = some r.bookingId → query.selects r = true →
    result.linkedRecordFound = true ∧ r ∈ result.items
  found : result.linkedRecordFound = true → ∃ r ∈ result.items, query.booking = some r.bookingId
  page : 1 ≤ result.page ∧ result.page ≤ result.totalPages

/-- In every reachable state the payment records of a provider agree with the wallet ledger. -/
theorem provider_records_ledger (h : marketMachine.ReachableUnder C s) (query : ProviderPaymentRecordsQuery)
    (times : ReportTimes) (progressAt : BookingId → Millis) (p : UserId) :
    (getProviderPaymentRecords query times progressAt p s.market).Shows query s.market
      (s.market.paymentRecords times progressAt p) p where
  online := onlineTotal_eq h
  cash := cashTotal_eq h
  earned := earnedTotal_eq
  ended _ := mem_records_iff h
  once := records_ids
  linked _ listed linked selected := linked_record_on_page records_ids listed linked selected
  found := linked_on_page
  page := recordsPage_bounds

/-- The settled booking is linked among the completed ones. -/
theorem provider_records_ledger_settlement : ∃ t r, marketMachine.exec sampleMarket sampleSettlement = some t
    ∧ t.market.walletEarnings 2 = 47500 ∧ r.bookingId = 0
    ∧ (getProviderPaymentRecords { status := some .completed, booking := some 0 } ⟨fun _ => 0, fun _ => 0⟩
        (fun _ => 0) 2 t.market).summary.onlineTotal = 47500
    ∧ r ∈ (getProviderPaymentRecords { status := some .completed, booking := some 0 } ⟨fun _ => 0, fun _ => 0⟩
        (fun _ => 0) 2 t.market).items := by
  let query : ProviderPaymentRecordsQuery := { status := some .completed, booking := some 0 }
  let times : ReportTimes := ⟨fun _ => 0, fun _ => 0⟩
  obtain ⟨t, run, wallet, booking, outcomes⟩ := sample_any (o := marketMachine.exec sampleMarket sampleSettlement)
    (p := fun t => t.market.walletEarnings 2 = 47500
      ∧ (t.market.bookings[0]?).any (fun y => y.file.booking.providerId == 2 && y.file.booking.status.ended) = true
      ∧ ∀ r ∈ t.market.paymentRecords times (fun _ => 0) 2, query.selects r = true) (by decide)
  have reached : marketMachine.ReachableUnder (fun _ _ => True) t :=
    ⟨sampleMarket, sampleMarket_initial, .of_exec run⟩
  have shows := provider_records_ledger reached query times (fun _ => 0) 2
  obtain ⟨y, found, ended⟩ := (Option.any_eq_true _ _).mp booking
  simp only [Bool.and_eq_true, beq_iff_eq] at ended
  obtain ⟨r, listed, same⟩ := List.mem_map.mp ((shows.ended 0).mpr ⟨y, found, ended⟩)
  exact ⟨t, r, run, wallet, same, shows.online.trans wallet,
    (shows.linked r listed (congrArg some same.symm) (outcomes r listed)).2⟩

/-- The two reports share out what was captured: the online totals of the providers and the fees of the platform are
    what was captured for the completed bookings. -/
theorem provider_records_reconcile (h : marketMachine.ReachableUnder (fun s act => s.overwrites act = false) s)
    (query : ProviderPaymentRecordsQuery) (earnings : PlatformEarningsQuery) (now : Millis) (times : ReportTimes)
    (progressAt : BookingId → Millis) (distinct : providers.Nodup)
    (covers : ∀ y ∈ s.market.bookings, y.file.booking.providerId ∈ providers) :
    (providers.map fun p => (getProviderPaymentRecords query times progressAt p s.market).summary.onlineTotal).sum
        + (platformEarnings earnings now times s.market).summary.earnedTotal
      = s.market.completedCaptures := by
  have online : (providers.map fun p =>
      (getProviderPaymentRecords query times progressAt p s.market).summary.onlineTotal).sum
      = s.market.earningsPaid := by
    rw [← walletEarnings_sum h distinct covers]
    congr 1
    exact List.map_congr_left fun p _ => onlineTotal_eq h
  rw [online, Nat.add_comm]
  exact earnedFees_reconcile h

theorem provider_records_reconcile_settlement : ∃ t, marketMachine.exec sampleMarket sampleSettlement = some t
    ∧ (getProviderPaymentRecords {} ⟨fun _ => 0, fun _ => 0⟩ (fun _ => 0) 2 t.market).summary.onlineTotal
        + (platformEarnings {} 0 ⟨fun _ => 0, fun _ => 0⟩ t.market).summary.earnedTotal = 50000 := by
  obtain ⟨t, run, captured, covers⟩ := sample_any
    (o := marketMachine.execUnder (fun s act => !s.overwrites act) sampleMarket sampleSettlement)
    (p := fun t => t.market.completedCaptures = 50000 ∧ ∀ y ∈ t.market.bookings, y.file.booking.providerId ∈ [2])
    (by decide)
  have right : marketMachine.ReachableUnder (fun s act => s.overwrites act = false) t :=
    ⟨sampleMarket, sampleMarket_initial, .of_execUnder (fun _ _ safe => (Bool.not_eq_true' _).mp safe) run⟩
  have sum := provider_records_reconcile right {} {} 0 ⟨fun _ => 0, fun _ => 0⟩ (fun _ => 0)
    (List.nodup_singleton 2) covers
  refine ⟨t, Machine.exec_of_execUnder run, ?_⟩
  rw [← captured, ← sum, List.map_singleton, List.sum_singleton]

end Result

end ServiceHub
