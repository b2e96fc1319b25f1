import Mathlib.Algebra.GroupWithZero.Nat
import ServiceHub.Lib.Calendar
import ServiceHub.Lib.Joins
import ServiceHub.Lib.Pages
import ServiceHub.Market.Capture

/-! # The report of the platform's earnings

The query of `platformEarningsSql`: one record for each payment attempt, joined with the booking that it paid for
and the service that was completed. Every figure of the report is a sum over these records.
-/

namespace ServiceHub

open Guard

/-- Columns that no transaction decides by: when a service was completed and when an attempt was created. -/
structure ReportTimes where
  completedAt : BookingId → Millis
  createdAt : AttemptId → Millis

/-- The day in Manila, counted from 1970-01-01. -/
def manilaDay (t : Millis) : Int := ((t + 8 * 3600000) / 86400000 : Nat)

inductive EarningStatus where
  | earned | held | pending | failed | refunded | review
  deriving Repr, DecidableEq

/-- A custom range of days. -/
structure DayRange where
  first : Int
  last : Int
  ordered : first ≤ last
  year : last - first ≤ 366

inductive EarningsPeriod where
  | today | week | month
  | custom (range : DayRange)

/-- `PlatformEarningsQuery`; no status means `all`. -/
structure PlatformEarningsQuery where
  page : Nat := 1
  limit : Nat := 12
  period : EarningsPeriod := .month
  status : Option EarningStatus := none
  page_bounds : 1 ≤ page ∧ page ≤ 10000 := by decide
  limit_bounds : 1 ≤ limit ∧ limit ≤ 50 := by decide

structure EarningsDates where
  today : Int
  week : Int
  month : Int
  first : Int
  last : Int
  deriving Repr, DecidableEq

/-- `getUTCDay`, Sunday being 0. -/
def utcDay (day : Int) : Int := (day + 4) % 7

def earningsDates (period : EarningsPeriod) (now : Millis) : EarningsDates :=
  let today := manilaDay now
  let week := today - (utcDay today + 6) % 7
  let month := today - ((Calendar.dateOfDay today.toNat).day - 1 : Nat)
  { today, week, month
    first := match period with
      | .custom range => range.first
      | .today => today
      | .week => week
      | .month => month
    last := match period with
      | .custom range => range.last
      | _ => today }

structure EarningRecord where
  id : AttemptId
  bookingId : Option BookingId
  reference : Option GatewayId
  amount : Centavos
  platformFeeAmount : Centavos
  providerNetAmount : Centavos
  commissionRateBps : Nat
  paidAt : Option Millis
  recordedAt : Millis
  status : EarningStatus
  earnedFee : Centavos
  deriving Repr, DecidableEq

/-- The attempt was paid and its booking is completed and released. -/
def earnedService (attempt : PaymentAttempt) (f : BookingFile) : Option CompletedService :=
  f.completedService.filter fun c => attempt.status == .succeeded && f.booking.status == .completed
    && f.booking.paymentStatus == .released && c.paymentStatus == .released

def earningStatus (attempt : PaymentAttempt) (f : Option BookingFile) : EarningStatus :=
  let payment := f.map (·.booking.paymentStatus)
  if attempt.status = .refunded ∨ payment = some .refunded then .refunded
  else if attempt.status = .refundRequired ∨ payment = some .frozenHeld then .review
  else if attempt.status = .failed ∨ attempt.status = .expired then .failed
  else if (f.bind (earnedService attempt)).isSome then .earned
  else if attempt.status = .succeeded then .held
  else .pending

/-- `b."paymentAttemptId" = a.id AND b."paymentMethod" = 'GCash'`. -/
def paysFor (a : AttemptSystem × Nat) (b : BookingSystem × Nat) : Bool :=
  b.1.file.booking.paymentAttemptId == some a.2 && b.1.file.booking.paymentMethod == .gcash

def earningRecord (times : ReportTimes) (row : (AttemptSystem × Nat) × Option (BookingSystem × Nat)) :
    EarningRecord :=
  let attempt := row.1.1.file.attempt
  let f := row.2.map (·.1.file)
  let completed := row.2.filter fun b => b.1.file.completedService.isSome
  { id := row.1.2
    bookingId := row.2.map (·.2)
    reference := attempt.providerIntentId
    amount := attempt.amount
    platformFeeAmount := attempt.platformFeeAmount
    providerNetAmount := attempt.providerNetAmount.getD attempt.amount
    commissionRateBps := attempt.commissionRateBps
    paidAt := attempt.paidAt
    recordedAt := ((completed.map fun b => times.completedAt b.2).or attempt.paidAt).getD (times.createdAt row.1.2)
    status := earningStatus attempt f
    earnedFee := ((f.bind (earnedService attempt)).map (·.platformFeeAmount)).getD 0 }

/-- The `records` of the query. -/
def Market.earningRecords (m : Market) (times : ReportTimes) : List EarningRecord :=
  (Joins.leftJoin paysFor m.attempts.zipIdx m.bookings.zipIdx).map (earningRecord times)

def EarningRecord.day (r : EarningRecord) : Int := manilaDay r.recordedAt

/-- `SUM("earnedFee")`. -/
def earnedFees (rows : List EarningRecord) : Centavos := (rows.map (·.earnedFee)).sum

structure EarningsSummary where
  earnedTotal : Centavos
  today : Centavos
  week : Centavos
  month : Centavos
  pendingFees : Centavos
  deriving Repr, DecidableEq

structure PeriodTotals where
  transactions : Nat
  paidTransactions : Nat
  earnedFees : Centavos
  /-- The sum and the number that `averageFee` is the quotient of. -/
  averaged : Centavos × Nat
  deriving Repr, DecidableEq

structure EarningsReport where
  summary : EarningsSummary
  period : PeriodTotals
  range : Int × Int
  page : Nat
  limit : Nat
  total : Nat
  totalPages : Nat
  trend : List (Int × Centavos)
  items : List EarningRecord
  deriving Repr, DecidableEq

/-- `generate_series`. -/
def days (first last : Int) : List Int := (List.range (last + 1 - first).toNat).map fun (i : Nat) => first + i

/-- `ORDER BY "recordedAt" DESC, id DESC`. -/
def EarningRecord.newer (r r' : EarningRecord) : Prop :=
  r'.recordedAt < r.recordedAt ∨ (r.recordedAt = r'.recordedAt ∧ r'.id ≤ r.id)

instance : DecidableRel EarningRecord.newer := fun _ _ => inferInstanceAs (Decidable (_ ∨ _))

/-- The rows of the range with the status that is asked for, the newest first. -/
def earningRows (query : PlatformEarningsQuery) (now : Millis) (records : List EarningRecord) : List EarningRecord :=
  let dates := earningsDates query.period now
  let ranged := records.filter fun r => dates.first ≤ r.day && r.day ≤ dates.last
  (ranged.filter fun r => query.status.all (· == r.status)).insertionSort EarningRecord.newer

/-- `platformEarningsSql` on the tables. -/
def platformEarnings (query : PlatformEarningsQuery) (now : Millis) (times : ReportTimes) (m : Market) :
    EarningsReport :=
  let dates := earningsDates query.period now
  let records := m.earningRecords times
  let ranged := records.filter fun r => dates.first ≤ r.day && r.day ≤ dates.last
  let rows := earningRows query now records
  let totalPages := max 1 (Pages.count query.limit rows.length)
  let page := min query.page totalPages
  let averaged := ranged.filter (·.status == .earned)
  { summary := {
      earnedTotal := earnedFees records
      today := earnedFees (records.filter (·.day == dates.today))
      week := earnedFees (records.filter fun r => dates.week ≤ r.day && r.day ≤ dates.today)
      month := earnedFees (records.filter fun r => dates.month ≤ r.day && r.day ≤ dates.today)
      pendingFees := ((records.filter fun r => r.status == .held || r.status == .review).map
        (·.platformFeeAmount)).sum }
    period := {
      transactions := ranged.length
      paidTransactions := ranged.countP fun r => r.status == .earned || r.status == .held || r.status == .review
      earnedFees := earnedFees ranged
      averaged := (earnedFees averaged, averaged.length) }
    range := (dates.first, dates.last)
    page, limit := query.limit, total := rows.length, totalPages
    trend := (days dates.first dates.last).map fun day => (day, earnedFees (ranged.filter (·.day == day)))
    items := Pages.slice query.limit page rows }

end ServiceHub
