import ServiceHub.Market.Earnings

/-! # The figures of the earnings report

The figures agree with each other and with the ledger: what was captured for the completed bookings is the fees that
the report calls earned and the earnings that the ledger has paid out.
-/

namespace ServiceHub

open Guard

/-- The status that a completed service is settled with. -/
def PaymentMethod.settledStatus : PaymentMethod → PaymentStatus
  | .onsiteCash => .cashConfirmed
  | .gcash => .released

/-- The completed service and the earnings of a booking name its payment and its provider. -/
structure BookingFile.BooksNamed (f : BookingFile) : Prop where
  service : ∀ c, f.completedService = some c → c.paymentStatus = f.booking.paymentMethod.settledStatus
  cash : ∀ c, f.completedService = some c → f.booking.paymentMethod = .onsiteCash →
    c.providerNetAmount = f.booking.agreedAmount.getD 0
  wallet : ∀ e ∈ f.transactions, e.type = .earning → e.walletOwnerId = f.booking.providerId
  attempt : f.booking.paymentMethod = .onsiteCash → f.booking.paymentAttemptId = none
  distinct : f.booking.seekerId ≠ f.booking.providerId

section Bookings

variable {ctx : Context} {f f' : BookingFile}

theorem BookingFile.BooksNamed.same_books (h : f.BooksNamed) (terms : SameTerms f f') (books : f'.books = f.books) :
    f'.BooksNamed := by
  obtain ⟨service, transactions⟩ := Prod.mk.inj books
  have agreed : f'.booking.agreedAmount = f.booking.agreedAmount := terms.column _ fun _ => rfl
  have provider : f'.booking.providerId = f.booking.providerId := terms.column _ fun _ => rfl
  have seeker : f'.booking.seekerId = f.booking.seekerId := terms.column _ fun _ => rfl
  have attempt : f'.booking.paymentAttemptId = f.booking.paymentAttemptId := terms.column _ fun _ => rfl
  refine ⟨?_, ?_, ?_, ?_, ?_⟩
  · rw [service, terms.paymentMethod]
    exact h.service
  · rw [service, terms.paymentMethod, agreed]
    exact h.cash
  · rw [transactions, provider]
    exact h.wallet
  · rw [terms.paymentMethod, attempt]
    exact h.attempt
  · rw [seeker, provider]
    exact h.distinct

theorem settlementRecord_cash {b : Booking} {amount : Centavos} (cash : b.paymentMethod = .onsiteCash) :
    (settlementRecord ctx b amount).providerNetAmount = amount := by
  simp [settlementRecord, cash]

theorem settlementRecord_status {b : Booking} {amount : Centavos} :
    (settlementRecord ctx b amount).paymentStatus = b.paymentMethod.settledStatus := by
  cases method : b.paymentMethod <;> simp [settlementRecord, method, PaymentMethod.settledStatus]

theorem BookingFile.BooksNamed.written (h : f.BooksNamed) (terms : SameTerms f f') (books : BooksWritten ctx f f') :
    f'.BooksNamed := by
  have agreed : f'.booking.agreedAmount = f.booking.agreedAmount := terms.column _ fun _ => rfl
  have provider : f'.booking.providerId = f.booking.providerId := terms.column _ fun _ => rfl
  have attempt : f'.booking.paymentMethod = .onsiteCash → f'.booking.paymentAttemptId = none := by
    have same : f'.booking.paymentAttemptId = f.booking.paymentAttemptId := terms.column _ fun _ => rfl
    rw [terms.paymentMethod, same]
    exact h.attempt
  have distinct : f'.booking.seekerId ≠ f'.booking.providerId := by
    have seeker : f'.booking.seekerId = f.booking.seekerId := terms.column _ fun _ => rfl
    rw [seeker, provider]
    exact h.distinct
  cases books with
  | kept same => exact h.same_books terms same.books
  | started _ _ _ same => exact h.same_books terms same
  | refunded same =>
      obtain ⟨service, transactions⟩ := Prod.mk.inj same
      refine ⟨?_, ?_, fun e listed earning => ?_, attempt, distinct⟩
      · rw [service, terms.paymentMethod]
        exact h.service
      · rw [service, terms.paymentMethod, agreed]
        exact h.cash
      · rw [transactions] at listed
        rcases List.mem_append.mp listed with old | refund
        · exact (h.wallet e old earning).trans provider.symm
        · rw [refundLedger_type refund] at earning
          cases earning
  | settled run same =>
      obtain ⟨-, -, ⟨-, rfl⟩ | ⟨-, -, -, -, completed, record, rfl⟩⟩ := settleCompletedBooking_ok run
      · exact same ▸ h
      subst same
      refine ⟨fun c service => ?_, fun c service cash => ?_, fun e listed earning => ?_, h.attempt, h.distinct⟩
      · obtain rfl := Option.some.inj service
        rw [record]
        exact settlementRecord_status
      · obtain rfl := Option.some.inj service
        rw [record]
        exact settlementRecord_cash cash
      · rcases List.mem_append.mp listed with old | paid_out
        · exact h.wallet e old earning
        · cases method : f.booking.paymentMethod with
          | onsiteCash => simp [BookingFile.earnings, method] at paid_out
          | gcash =>
              simp only [BookingFile.earnings, method, List.mem_singleton] at paid_out
              subst paid_out
              rfl

theorem books_named {s : BookingSystem} (h : bookingMachine.Reachable s) : s.file.BooksNamed := by
  refine (Coupled.reachableUnder (I := fun f _ => f.BooksNamed) (P := fun _ _ _ => True) (fun f new => ?_) ?_
    (bookingMachine_reachableUnder h)).file
  · cases new with
    | cashRequest t => constructor <;> simp [Terms.cashRequest, t.distinct]
    | cashOffer t => constructor <;> simp [Terms.cashOffer, t.distinct]
    | paidCapture t => constructor <;> simp [Terms.paidCapture, t.distinct]
  · intro s a f' g' next _ hs _ event
    refine ⟨?_, fun _ _ _ => trivial, fun _ _ => trivial⟩
    cases a with
    | step ctx st => exact hs.file.written event.sameTerms event.books
    | renumber position estimatedWait waiting =>
        cases event
        exact hs.file.same_books (Event.sameTerms .renumbered) rfl

end Bookings

section Joined

variable {m : Market} {times : ReportTimes} {a : Nat} {x : AttemptSystem} {y : BookingSystem}

theorem paysFor_single (once : ∀ a : Nat, m.bookedAttempts.count (some a) ≤ 1) :
    Joins.Single paysFor m.attempts.zipIdx m.bookings.zipIdx := by
  intro row _
  have named : m.bookings.zipIdx.countP (fun b => b.1.file.booking.paymentAttemptId == some row.2) ≤ 1 := by
    have bound := once row.2
    rw [Market.bookedAttempts, List.count, List.countP_map] at bound
    rw [← List.zipIdx_map_fst 0 m.bookings, List.countP_map] at bound
    exact bound
  refine Nat.le_trans (List.countP_mono_left fun b _ pays => ?_) named
  simp only [paysFor, Bool.and_eq_true] at pays
  exact pays.1

/-- One record for each attempt, with its booking. -/
theorem earningRecords_eq (once : ∀ a : Nat, m.bookedAttempts.count (some a) ≤ 1) :
    m.earningRecords times
      = m.attempts.zipIdx.map fun row => earningRecord times (row, m.bookings.zipIdx.find? (paysFor row)) := by
  rw [Market.earningRecords, Joins.leftJoin_single (paysFor_single once), List.map_map]
  rfl

theorem earningRecords_ids (once : ∀ a : Nat, m.bookedAttempts.count (some a) ≤ 1) :
    (m.earningRecords times).map (·.id) = List.range m.attempts.length := by
  rw [earningRecords_eq once, List.map_map]
  have ids : (fun row => (earningRecord times (row, m.bookings.zipIdx.find? (paysFor row))).id) = Prod.snd := rfl
  rw [Function.comp_def, ids, List.zipIdx_map_snd, List.range_eq_range']

/-- The fee that a booking has earned for its attempt. -/
def bookedFee (row : AttemptSystem × Nat) (b : BookingSystem × Nat) : Centavos :=
  ((earnedService row.1.file.attempt b.1.file).map (·.platformFeeAmount)).getD 0

/-- The fees are summed over the attempts or over the bookings. -/
theorem earnedFees_eq : earnedFees (m.earningRecords times)
    = (m.bookings.zipIdx.map fun b => ((m.attempts.zipIdx.filter (paysFor · b)).map (bookedFee · b)).sum).sum := by
  rw [← Joins.sum_leftJoin, earnedFees, Market.earningRecords, List.map_map]
  congr 2
  funext row
  obtain ⟨a, b⟩ := row
  cases b <;> rfl

/-- An online booking is joined with the attempt that it names. -/
theorem partners_eq (paid : y.file.booking.paymentMethod = .gcash) (named : y.file.booking.paymentAttemptId = some a)
    (found : m.attempts[a]? = some x) (i : Nat) : m.attempts.zipIdx.filter (paysFor · (y, i)) = [(x, a)] := by
  have same : (fun row : AttemptSystem × Nat => paysFor row (y, i)) = fun row => row.2 == a := by
    funext row
    simp [paysFor, paid, named, eq_comm]
  rw [same, Joins.filter_zipIdx, found]
  rfl

theorem partners_cash (cash : y.file.booking.paymentMethod = .onsiteCash) (i : Nat) :
    m.attempts.zipIdx.filter (paysFor · (y, i)) = [] :=
  List.filter_eq_nil_iff.mpr fun row _ => by simp [paysFor, cash]

end Joined

section Ledger

variable {s : MarketSystem} {m : Market} {times : ReportTimes} {y : BookingSystem} {f : BookingFile}

/-- What was captured for the booking. -/
def Market.capturedFor (m : Market) (y : BookingSystem) : Centavos :=
  ((y.file.booking.paymentAttemptId.bind (m.attempts[·]?)).bind (·.intent)).elim 0 (·.amount)

/-- What was captured for the completed bookings. -/
def Market.completedCaptures (m : Market) : Centavos :=
  ((m.bookings.filter fun y => y.file.booking.paymentMethod == .gcash && y.file.booking.status == .completed).map
    m.capturedFor).sum

/-- The earnings of the booking in the ledger. -/
def BookingFile.earningsPaid (f : BookingFile) : Centavos := ((f.transactions.filter (·.type == .earning)).map (·.amount)).sum

def Market.earningsPaid (m : Market) : Centavos := (m.bookings.map (·.file.earningsPaid)).sum

theorem earningsPaid_of_count (none : f.countTransactions .earning = 0) : f.earningsPaid = 0 := by
  have empty : f.transactions.filter (·.type == .earning) = [] := by
    refine List.filter_eq_nil_iff.mpr fun e listed earning => ?_
    refine List.count_eq_zero.mp none (List.mem_map.mpr ⟨e, listed, ?_⟩)
    simpa using earning
  simp [BookingFile.earningsPaid, empty]

theorem cash_unearned {l : Lifecycle} (e : Encodes f l) (cash : f.booking.paymentMethod = .onsiteCash) :
    f.earningsPaid = 0 := by
  refine earningsPaid_of_count ?_
  rw [BookingFile.countTransactions, e.ledger, cash]
  rfl

/-- A booking earns its fee and its earnings when it is completed, and they add up to what was captured. -/
theorem booking_reconciles (h : marketMachine.ReachableUnder (fun s act => s.overwrites act = false) s) {b : Nat}
    (found : s.market.bookings[b]? = some y) :
    ((s.market.attempts.zipIdx.filter (paysFor · (y, b))).map (bookedFee · (y, b))).sum + y.file.earningsPaid
      = if y.file.booking.paymentMethod == .gcash && y.file.booking.status == .completed then s.market.capturedFor y
        else 0 := by
  have reached := booking_reachable h found
  obtain ⟨l, e⟩ := (reachable_encodes (bookingMachine_reachableUnder reached)).file
  cases method : y.file.booking.paymentMethod with
  | onsiteCash =>
      rw [partners_cash method, cash_unearned e method]
      rfl
  | gcash =>
      have known := (market_settled h).shared
      obtain ⟨a, x, named, listed, settled⟩ := known.2 b y found method
      rw [partners_eq method named listed]
      obtain ⟨q, -, columns⟩ := e.paidColumns method
      have succeeded : x.file.attempt.status = .succeeded := by
        have booked : some a ∈ s.market.bookedAttempts := List.mem_map.mpr ⟨y, List.mem_of_getElem? found, named⟩
        obtain ⟨x', found', status⟩ := ((outcomes_agree h).shared.booked a).mp booked
        obtain rfl := Option.some.inj (listed.symm.trans found')
        exact status
      by_cases completed : y.file.booking.status = .completed
      · obtain ⟨c, service⟩ := Option.isSome_iff_exists.mp (columns.completedService.mpr completed)
        obtain ⟨earning, earned⟩ := one_earning reached method (by simp [service])
        obtain ⟨i, stored, -, captured⟩ := settled.captured
        obtain ⟨-, -, fee, net⟩ := settled.service c service
        have member : earning ∈ y.file.transactions.filter (·.type == .earning) := by simp [earned]
        rw [List.mem_filter] at member
        have paid_net := settled.earnings earning member.1 (by simpa using member.2)
        obtain ⟨net', same, split⟩ := (known.1 a x listed).priced.split
        obtain rfl := Option.some.inj (same.symm.trans paid_net)
        have sum := paymentCommission_sum split
        have status := (books_named reached).service c service
        rw [method] at status
        have earnedFee : bookedFee (x, a) (y, b) = c.platformFeeAmount := by
          have settledStatus : c.paymentStatus = .released := status
          simp [bookedFee, earnedService, service, succeeded, completed, columns.completed.mp completed, settledStatus,
            Option.filter_some]
        have amount : s.market.capturedFor y = x.file.attempt.amount := by
          simp [Market.capturedFor, named, listed, stored, captured]
        simp only [List.map_cons, List.map_nil, List.sum_cons, List.sum_nil, earnedFee, BookingFile.earningsPaid, earned,
          completed, amount, beq_self_eq_true, Bool.and_self, if_true]
        rw [← sum, fee]
        rfl
      · have unserved : y.file.completedService = none := by
          rw [← Option.not_isSome_iff_eq_none, columns.completedService]
          exact completed
        have unpaid : y.file.earningsPaid = 0 := by
          refine earningsPaid_of_count ?_
          rw [columns.earning, if_neg fun released => completed (columns.completed.mpr released)]
        simp [unpaid, bookedFee, earnedService, unserved, completed]

/-- The fees that the report calls earned and the earnings in the ledger are what was captured for the completed
    bookings. -/
theorem earnedFees_reconcile (h : marketMachine.ReachableUnder (fun s act => s.overwrites act = false) s) :
    earnedFees (s.market.earningRecords times) + s.market.earningsPaid = s.market.completedCaptures := by
  have paid : s.market.earningsPaid = (s.market.bookings.zipIdx.map fun b => b.1.file.earningsPaid).sum := by
    rw [Market.earningsPaid, ← List.zipIdx_map_fst 0 s.market.bookings, List.map_map]
    simp [Function.comp_def]
  have captured : s.market.completedCaptures = (s.market.bookings.zipIdx.map fun b =>
      if b.1.file.booking.paymentMethod == .gcash && b.1.file.booking.status == .completed
      then s.market.capturedFor b.1 else 0).sum := by
    rw [Market.completedCaptures, Joins.sum_filter]
    conv_lhs => rw [← List.zipIdx_map_fst 0 s.market.bookings, List.map_map]
    rfl
  rw [earnedFees_eq, paid, captured, ← List.sum_map_add]
  congr 1
  refine List.map_congr_left fun b listed => ?_
  exact booking_reconciles h (List.mem_zipIdx_iff_getElem?.mp listed)

end Ledger

section Accounts

variable {s : MarketSystem} {m : Market} {times : ReportTimes} {r : EarningRecord} {a : Nat} {f : BookingFile}
  {q : Queue} {l : Lifecycle} {attempt : PaymentAttempt}

/-- The status of a record says where the money of its attempt is. -/
structure Market.Accounts (m : Market) (r : EarningRecord) : Prop where
  earned : r.status = .earned ↔ ∃ y ∈ m.bookings, y.file.booking.paymentAttemptId = some r.id
    ∧ y.file.booking.status = .completed
  held : r.status = .held ↔ ∃ y ∈ m.bookings, y.file.booking.paymentAttemptId = some r.id
    ∧ y.file.booking.paymentStatus = .paidHeld
  review : r.status = .review ↔ (∃ y ∈ m.bookings, y.file.booking.paymentAttemptId = some r.id
    ∧ y.file.booking.paymentStatus = .frozenHeld) ∨ (m.findAttempt r.id).map (·.status) = some .refundRequired
  refunded : r.status = .refunded ↔ (∃ y ∈ m.bookings, y.file.booking.paymentAttemptId = some r.id
    ∧ y.file.booking.status = .canceled) ∨ (m.findAttempt r.id).map (·.status) = some .refunded
  unbooked : r.status = .pending ∨ r.status = .failed → some r.id ∉ m.bookedAttempts

theorem Encodes.paid_payment (e : Encodes f l) (paid : f.booking.paymentMethod = .gcash) :
    f.booking.paymentStatus = .paidHeld ∨ f.booking.paymentStatus = .frozenHeld
      ∨ f.booking.paymentStatus = .released ∨ f.booking.paymentStatus = .refunded := by
  have payment := e.payment
  rw [paid] at payment
  cases l with
  | underReview w frozen => cases frozen <;> simp [payment, Lifecycle.payment, PaymentMethod.paid]
  | _ => simp [payment, Lifecycle.payment, PaymentMethod.paid]

/-- Only the booking of the attempt names it. -/
theorem named_once (once : ∀ a : Nat, m.bookedAttempts.count (some a) ≤ 1) {y y' : BookingSystem}
    (first : y ∈ m.bookings) (second : y' ∈ m.bookings) (named : y.file.booking.paymentAttemptId = some a)
    (named' : y'.file.booking.paymentAttemptId = some a) : y = y' := by
  have bound := once a
  rw [Market.bookedAttempts, List.count, List.countP_map, List.countP_eq_length_filter] at bound
  have mem : y ∈ m.bookings.filter ((· == some a) ∘ (·.file.booking.paymentAttemptId)) :=
    List.mem_filter.mpr ⟨first, by simp [named]⟩
  have mem' : y' ∈ m.bookings.filter ((· == some a) ∘ (·.file.booking.paymentAttemptId)) :=
    List.mem_filter.mpr ⟨second, by simp [named']⟩
  obtain ⟨b, alone⟩ := List.length_eq_one_iff.mp (Nat.le_antisymm bound (List.length_pos_of_mem mem))
  rw [alone] at mem mem'
  exact (List.mem_singleton.mp mem).trans (List.mem_singleton.mp mem').symm

theorem record_accounts (h : marketMachine.ReachableUnder (fun s act => s.overwrites act = false) s)
    (listed : r ∈ s.market.earningRecords times) : s.market.Accounts r := by
  have agree := (outcomes_agree h).shared
  rw [earningRecords_eq agree.once] at listed
  obtain ⟨⟨x, a⟩, row, rfl⟩ := List.mem_map.mp listed
  have found : s.market.attempts[a]? = some x := List.mem_zipIdx_iff_getElem?.mp row
  have attempt : s.market.findAttempt a = some x.file.attempt := Market.findAttempt_eq_some.mpr ⟨x, found, rfl⟩
  have id : ∀ b, (earningRecord times ((x, a), b)).id = a := fun _ => rfl
  cases partner : s.market.bookings.zipIdx.find? (paysFor (x, a)) with
  | none =>
      -- every booking that names the attempt is paid online
      have unbooked : ∀ y ∈ s.market.bookings, y.file.booking.paymentAttemptId ≠ some a := by
        intro y booked named
        obtain ⟨b, position⟩ := List.mem_iff_getElem?.mp booked
        have online : y.file.booking.paymentMethod = .gcash := by
          cases method : y.file.booking.paymentMethod with
          | gcash => rfl
          | onsiteCash =>
              have unnamed := (books_named (booking_reachable h position)).attempt method
              rw [unnamed] at named
              cases named
        have alone := List.find?_eq_none.mp partner (y, b) (List.mem_zipIdx_iff_getElem?.mpr position)
        simp [paysFor, named, online] at alone
      have free : some a ∉ s.market.bookedAttempts := by
        intro booked
        obtain ⟨y, booked, named⟩ := List.mem_map.mp booked
        exact unbooked y booked named
      have unsucceeded : x.file.attempt.status ≠ .succeeded := fun status => free ((agree.booked a).mpr ⟨x, found, status⟩)
      have nowhere : ∀ p : BookingSystem → Prop, ¬ ∃ y ∈ s.market.bookings,
          y.file.booking.paymentAttemptId = some a ∧ p y := by
        rintro p ⟨y, booked, named, -⟩
        exact unbooked y booked named
      constructor <;> simp only [id, nowhere, attempt, Option.map_some, Option.some.injEq, false_or, iff_false]
      all_goals
        simp only [earningRecord, earningStatus, Option.map_none, Option.bind_none]
        cases status : x.file.attempt.status <;> simp_all
  | some partner' =>
      obtain ⟨y, b⟩ := partner'
      have pays := List.find?_some partner
      simp only [paysFor, Bool.and_eq_true, beq_iff_eq] at pays
      obtain ⟨named, paid⟩ := pays
      have position : s.market.bookings[b]? = some y := List.mem_zipIdx_iff_getElem?.mp (List.mem_of_find?_eq_some partner)
      have booked := List.mem_of_getElem? position
      have reached := booking_reachable h position
      obtain ⟨l, e⟩ := (reachable_encodes (bookingMachine_reachableUnder reached)).file
      obtain ⟨q, -, columns⟩ := e.paidColumns paid
      have covered : some a ∈ s.market.bookedAttempts := List.mem_map.mpr ⟨y, booked, named⟩
      have succeeded : x.file.attempt.status = .succeeded := by
        obtain ⟨x', found', status⟩ := (agree.booked a).mp covered
        obtain rfl := Option.some.inj (found.symm.trans found')
        exact status
      have only : ∀ p : BookingSystem → Prop, (∃ y ∈ s.market.bookings,
          y.file.booking.paymentAttemptId = some a ∧ p y) ↔ p y := by
        intro p
        constructor
        · rintro ⟨y', booked', named', holds⟩
          exact named_once agree.once booked' booked named' named ▸ holds
        · exact fun holds => ⟨y, booked, named, holds⟩
      have served : (earnedService x.file.attempt y.file).isSome = true ↔ y.file.booking.status = .completed := by
        constructor
        · intro served
          obtain ⟨c, service⟩ := Option.isSome_iff_exists.mp served
          exact columns.completedService.mp (Option.isSome_iff_exists.mpr ⟨c, (Option.filter_eq_some_iff.mp service).1⟩)
        · intro completed
          obtain ⟨c, service⟩ := Option.isSome_iff_exists.mp (columns.completedService.mpr completed)
          have status := (books_named reached).service c service
          rw [paid] at status
          have settledStatus : c.paymentStatus = .released := status
          simp [earnedService, service, succeeded, completed, columns.completed.mp completed, settledStatus,
            Option.filter_some]
      have status : (earningRecord times ((x, a), some (y, b))).status
          = if y.file.booking.paymentStatus = .refunded then .refunded
            else if y.file.booking.paymentStatus = .frozenHeld then .review
            else if y.file.booking.status = .completed then .earned else .held := by
        simp [earningRecord, earningStatus, succeeded, served]
      constructor <;> simp only [id, only, attempt, Option.map_some, Option.some.injEq, succeeded, reduceCtorEq, or_false,
        status, columns.completed, columns.canceled, covered, not_true_eq_false, imp_false]
      all_goals
        obtain payment | payment | payment | payment := e.paid_payment paid <;> simp [payment]

end Accounts

section Views

variable {query : PlatformEarningsQuery} {now : Millis} {times : ReportTimes} {m : Market}
  {rows records : List EarningRecord} {p q : EarningRecord → Bool} {r : EarningRecord}

theorem days_nodup (first last : Int) : (days first last).Nodup := by
  refine List.Nodup.map (fun i j same => ?_) List.nodup_range
  have sum : first + (i : Int) = first + j := same
  omega

theorem mem_days {first last day : Int} : day ∈ days first last ↔ first ≤ day ∧ day ≤ last := by
  simp only [days, List.mem_map, List.mem_range]
  constructor
  · rintro ⟨i, below, rfl⟩
    omega
  · rintro ⟨after, before⟩
    exact ⟨(day - first).toNat, by omega, by omega⟩

/-- The days of a range share its records out. -/
theorem trend_sum {first last : Int} (inside : ∀ r ∈ rows, first ≤ r.day ∧ r.day ≤ last) :
    ((days first last).map fun day => earnedFees (rows.filter (·.day == day))).sum = earnedFees rows := by
  unfold earnedFees
  rw [Joins.sum_exchange (fun day (r : EarningRecord) => r.day == day) fun _ r => r.earnedFee]
  congr 1
  refine List.map_congr_left fun r listed => ?_
  have one : (days first last).filter (r.day == ·) = [r.day] := by
    have flipped : (fun day => r.day == day) = (· == r.day) := by
      funext day
      exact BEq.comm
    rw [flipped, List.filter_beq, (days_nodup first last).count, if_pos (mem_days.mpr (inside r listed))]
    rfl
  rw [one]
  simp

/-- More records earn more. -/
theorem earnedFees_mono (more : ∀ r, p r = true → q r = true) :
    earnedFees (records.filter p) ≤ earnedFees (records.filter q) := by
  induction records with
  | nil => exact Nat.le_refl _
  | cons r records ih =>
      simp only [earnedFees] at ih ⊢
      by_cases first : p r = true
      · simpa [first, more r first] using ih
      · by_cases second : q r = true
        · rw [List.filter_cons_of_neg first, List.filter_cons_of_pos second, List.map_cons, List.sum_cons]
          exact Nat.le_trans ih (Nat.le_add_left _ _)
        · simpa [first, second] using ih

theorem earnedFees_all : earnedFees (records.filter fun _ => true) = earnedFees records := by
  rw [List.filter_eq_self.mpr fun _ _ => rfl]

/-- A fee is earned by a record that says so. -/
theorem unearned_fee (row : (AttemptSystem × Nat) × Option (BookingSystem × Nat))
    (unearned : (earningRecord times row).status ≠ .earned) : (earningRecord times row).earnedFee = 0 := by
  obtain ⟨⟨x, a⟩, partner⟩ := row
  simp only [earningRecord] at unearned ⊢
  cases served : (partner.map (·.1.file)).bind (earnedService x.file.attempt) with
  | none => rfl
  | some c =>
      refine absurd ?_ unearned
      obtain ⟨f, paired, service⟩ := Option.bind_eq_some_iff.mp served
      have completed := (Option.filter_eq_some_iff.mp service).2
      simp only [Bool.and_eq_true, beq_iff_eq] at completed
      obtain ⟨⟨⟨succeeded, -⟩, released⟩, -⟩ := completed
      simp [earningStatus, paired, service, succeeded, released]

theorem earnedFees_earned (known : ∀ r ∈ records, r.status ≠ .earned → r.earnedFee = 0) :
    earnedFees (records.filter (·.status == .earned)) = earnedFees records := by
  induction records with
  | nil => rfl
  | cons r records ih =>
      obtain ⟨first, rest⟩ := List.forall_mem_cons.mp known
      have others := ih rest
      simp only [earnedFees] at others ⊢
      by_cases earned : r.status = .earned
      · simp [earned, others]
      · simp [earned, others, first earned]

/-- The calendar of the report: the week starts on a Monday and the month on its first. -/
structure EarningsDates.OnCalendar (dates : EarningsDates) : Prop where
  week : utcDay dates.week = 1 ∧ dates.week ≤ dates.today ∧ dates.today < dates.week + 7
  month : dates.month ≤ dates.today ∧ 0 ≤ dates.month
    ∧ Calendar.dateOfDay dates.month.toNat = { Calendar.dateOfDay dates.today.toNat with day := 1 }

theorem earningsDates_onCalendar (period : EarningsPeriod) (now : Millis) : (earningsDates period now).OnCalendar := by
  obtain ⟨day, known⟩ : ∃ day : Nat, manilaDay now = day := ⟨_, rfl⟩
  obtain ⟨least, most, first⟩ := Calendar.dateOfDay_first day
  refine ⟨?_, ?_⟩
  · simp only [earningsDates, utcDay]
    omega
  · simp only [earningsDates, known, Int.toNat_natCast]
    have back : (day : Int) - ((Calendar.dateOfDay day).day - 1 : Nat) = ((day + 1 - (Calendar.dateOfDay day).day : Nat) : Int) := by
      omega
    rw [back, Int.toNat_natCast]
    exact ⟨by omega, by omega, first⟩

/-- The figures of a report agree with each other. -/
structure EarningsReport.Agrees (r : EarningsReport) (query : PlatformEarningsQuery) : Prop where
  trend : (r.trend.map (·.2)).sum = r.period.earnedFees
  days : r.trend.map (·.1) = ServiceHub.days r.range.1 r.range.2
  average : r.period.averaged.1 = r.period.earnedFees
  period : match query.period with
    | .today => r.period.earnedFees = r.summary.today
    | .week => r.period.earnedFees = r.summary.week
    | .month => r.period.earnedFees = r.summary.month
    | .custom _ => r.period.earnedFees ≤ r.summary.earnedTotal
  nested : r.summary.today ≤ r.summary.week ∧ r.summary.today ≤ r.summary.month
    ∧ r.summary.week ≤ r.summary.earnedTotal ∧ r.summary.month ≤ r.summary.earnedTotal

theorem platformEarnings_agrees : (platformEarnings query now times m).Agrees query := by
  have calendar := earningsDates_onCalendar query.period now
  have known : ∀ r ∈ m.earningRecords times, r.status ≠ .earned → r.earnedFee = 0 := by
    intro r listed unearned
    obtain ⟨row, -, rfl⟩ := List.mem_map.mp listed
    exact unearned_fee row unearned
  refine ⟨?_, ?_, ?_, ?_, ?_⟩
  · simp only [platformEarnings, List.map_map, Function.comp_def]
    refine trend_sum fun r listed => ?_
    simpa using (List.mem_filter.mp listed).2
  · simp only [platformEarnings, List.map_map, Function.comp_def, List.map_id']
  · exact earnedFees_earned fun r listed => known r (List.mem_filter.mp listed).1
  · simp only [platformEarnings]
    cases period : query.period with
    | today =>
        simp only [earningsDates]
        congr 1
        refine List.filter_congr fun r _ => ?_
        rw [Bool.eq_iff_iff]
        simp only [Bool.and_eq_true, beq_iff_eq]
        constructor
        · rintro ⟨after, before⟩
          exact Int.le_antisymm (of_decide_eq_true before) (of_decide_eq_true after)
        · intro same
          exact ⟨decide_eq_true (Int.le_of_eq same.symm), decide_eq_true (Int.le_of_eq same)⟩
    | week => rfl
    | month => rfl
    | custom range =>
        rw [← @earnedFees_all (m.earningRecords times)]
        exact earnedFees_mono fun _ _ => rfl
  · obtain ⟨⟨-, weekStart, -⟩, monthStart, -⟩ := calendar
    simp only [platformEarnings]
    refine ⟨earnedFees_mono fun r today => ?_, earnedFees_mono fun r today => ?_, ?_, ?_⟩
    · simp only [beq_iff_eq] at today
      simp [today, weekStart]
    · simp only [beq_iff_eq] at today
      simp [today, monthStart]
    · rw [← @earnedFees_all (m.earningRecords times)]
      exact earnedFees_mono fun _ _ => rfl
    · rw [← @earnedFees_all (m.earningRecords times)]
      exact earnedFees_mono fun _ _ => rfl

end Views

section Report

variable {s : MarketSystem}

instance : Std.Total EarningRecord.newer where
  total r r' := by
    obtain earlier | same | later := Nat.lt_trichotomy r.recordedAt r'.recordedAt
    · exact .inr (.inl earlier)
    · obtain le | ge := Nat.le_total r'.id r.id
      · exact .inl (.inr ⟨same, le⟩)
      · exact .inr (.inr ⟨same.symm, ge⟩)
    · exact .inl (.inl later)

instance : IsTrans EarningRecord EarningRecord.newer where
  trans r r' r'' := by
    rintro (later | ⟨same, le⟩) (later' | ⟨same', le'⟩)
    · exact .inl (Nat.lt_trans later' later)
    · exact .inl (same' ▸ later)
    · exact .inl (same ▸ later')
    · exact .inr ⟨same.trans same', Nat.le_trans le' le⟩

/-- The pages of a report. -/
structure EarningsReport.Paged (r : EarningsReport) (query : PlatformEarningsQuery) (rows selected : List EarningRecord) :
    Prop where
  sorted : rows.Perm selected ∧ rows.Pairwise EarningRecord.newer
  pages : ((List.range' 1 r.totalPages).flatMap fun page => Pages.slice query.limit page rows) = rows
  page : r.items = Pages.slice query.limit r.page rows ∧ 1 ≤ r.page ∧ r.page ≤ r.totalPages
    ∧ (query.page ≤ r.totalPages → r.page = query.page)
  full : r.items.length ≤ query.limit ∧ (r.page < r.totalPages → r.items.length = query.limit)

/-- The figures of every report agree, and its pages are the records that were asked for, the newest first. -/
theorem platform_earnings_views (query : PlatformEarningsQuery) (now : Millis) (times : ReportTimes) (m : Market) :
    (platformEarnings query now times m).Agrees query
      ∧ (earningsDates query.period now).OnCalendar
      ∧ (platformEarnings query now times m).Paged query (earningRows query now (m.earningRecords times))
        ((m.earningRecords times).filter fun r => (earningsDates query.period now).first ≤ r.day
          && r.day ≤ (earningsDates query.period now).last && query.status.all (· == r.status)) := by
  refine ⟨platformEarnings_agrees, earningsDates_onCalendar query.period now, ?_⟩
  generalize records : m.earningRecords times = all
  have positive : 0 < query.limit := query.limit_bounds.1
  have sorted : (earningRows query now all).Pairwise EarningRecord.newer := List.pairwise_insertionSort _ _
  have covered : (earningRows query now all).length ≤
      max 1 (Pages.count query.limit (earningRows query now all).length) * query.limit :=
    Nat.le_trans (Pages.le_count_mul positive _) (Nat.mul_le_mul_right _ (Nat.le_max_right _ _))
  simp only [platformEarnings, records]
  refine ⟨⟨?_, sorted⟩, ?_, ⟨rfl, ?_, Nat.min_le_right _ _, Nat.min_eq_left⟩, ?_, fun more => ?_⟩
  · refine (List.perm_insertionSort _ _).trans (List.Perm.of_eq ?_)
    rw [List.filter_filter]
    exact List.filter_congr fun r _ => Bool.and_comm _ _
  · rw [Pages.slices_flatten]
    exact List.take_of_length_le covered
  · exact Nat.le_min.mpr ⟨query.page_bounds.1, Nat.le_max_left _ _⟩
  · rw [Pages.slice_length]
    generalize min query.page _ = page
    cases page with
    | zero => simp
    | succ before =>
        have next : (before + 1) * query.limit = before * query.limit + query.limit := Nat.succ_mul before query.limit
        rw [Nat.add_sub_cancel]
        omega
  · refine Pages.slice_full positive ?_ ?_
    · exact Nat.lt_of_lt_of_le Nat.one_pos (Nat.le_min.mpr ⟨query.page_bounds.1, Nat.le_max_left _ _⟩)
    · have below : min query.page (max 1 (Pages.count query.limit (earningRows query now all).length))
          < max 1 (Pages.count query.limit (earningRows query now all).length) := more
      have first : 1 ≤ query.page := query.page_bounds.1
      omega

/-- While the error path of an initiation meets no attempt that has ended: what was captured for the completed
    bookings is what the report calls earned and what the ledger has paid out, every attempt has one record, and its
    status says where the money is. -/
theorem platform_earnings_ledger (h : marketMachine.ReachableUnder (fun s act => s.overwrites act = false) s)
    (query : PlatformEarningsQuery) (now : Millis) (times : ReportTimes) :
    (platformEarnings query now times s.market).summary.earnedTotal + s.market.earningsPaid = s.market.completedCaptures
      ∧ (s.market.earningRecords times).map (·.id) = List.range s.market.attempts.length
      ∧ ∀ r ∈ s.market.earningRecords times, s.market.Accounts r :=
  ⟨earnedFees_reconcile h, earningRecords_ids (outcomes_agree h).shared.once, fun _ => record_accounts h⟩

theorem platform_earnings_ledger_settlement : ∃ t, marketMachine.exec sampleMarket sampleSettlement = some t
    ∧ t.market.completedCaptures = 50000
    ∧ (platformEarnings {} 0 ⟨fun _ => 0, fun _ => 0⟩ t.market).summary.earnedTotal + t.market.earningsPaid = 50000 := by
  obtain ⟨t, run, captured⟩ := sample_any
    (o := marketMachine.execUnder (fun s act => !s.overwrites act) sampleMarket sampleSettlement)
    (p := fun t => t.market.completedCaptures = 50000) (by decide)
  have right : marketMachine.ReachableUnder (fun s act => s.overwrites act = false) t :=
    ⟨sampleMarket, sampleMarket_initial, .of_execUnder (fun _ _ safe => (Bool.not_eq_true' _).mp safe) run⟩
  obtain ⟨sum, -⟩ := platform_earnings_ledger right {} 0 ⟨fun _ => 0, fun _ => 0⟩
  exact ⟨t, Machine.exec_of_execUnder run, captured, sum.trans captured⟩

end Report

end ServiceHub
