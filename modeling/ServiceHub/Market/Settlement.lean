import ServiceHub.Booking.Books
import ServiceHub.Booking.Coupling
import ServiceHub.Market.Attempts

/-! # What a settlement pays

The fee and the net amount that `paymentCommission` splits an amount into, the split
that the attempt of a booking keeps, and the books of the booking against it.
-/

namespace ServiceHub

open Guard

section Commission

variable {amount amount' rate rate' : Nat}

/-- The fee, rounded half up to a centavo. -/
def platformFee (amount rateBps : Nat) : Nat := (amount * rateBps + 5000) / 10000

theorem platformFee_le (bounded : rate ≤ 10000) : platformFee amount rate ≤ amount := by
  have scaled : amount * rate ≤ amount * 10000 := Nat.mul_le_mul_left amount bounded
  unfold platformFee
  omega

theorem platformFee_mono (more : amount ≤ amount') (higher : rate ≤ rate') :
    platformFee amount rate ≤ platformFee amount' rate' := by
  have scaled : amount * rate ≤ amount' * rate' := Nat.mul_le_mul more higher
  exact Nat.div_le_div_right (Nat.add_le_add_right scaled 5000)

theorem paymentCommission_ok {fee net : Nat} : paymentCommission amount rate = .ok (fee, net) ↔
    (0 < amount ∧ rate ≤ 10000) ∧ fee = platformFee amount rate ∧ net = amount - platformFee amount rate := by
  simp only [paymentCommission, rejectIf_bind_ok, pure_ok, platformFee, Prod.mk.injEq, not_or, not_lt,
    Nat.pos_iff_ne_zero]
  constructor
  · rintro ⟨valid, same⟩
    exact ⟨valid, same.1.symm, same.2.symm⟩
  · rintro ⟨valid, same⟩
    exact ⟨valid, same.1.symm, same.2.symm⟩

theorem paymentCommission_sum {fee net : Nat} (h : paymentCommission amount rate = .ok (fee, net)) :
    fee + net = amount := by
  obtain ⟨⟨-, bounded⟩, rfl, rfl⟩ := paymentCommission_ok.mp h
  have least : platformFee amount rate ≤ amount := platformFee_le bounded
  omega

end Commission

/-- The booking of a captured payment, with its books against the terms of the attempt. -/
structure SettledFor (x : AttemptSystem) (f : BookingFile) : Prop where
  captured : ∃ i, x.intent = some i ∧ i.status = .succeeded ∧ i.amount = x.file.attempt.amount
  agreed : f.booking.agreedAmount = some x.file.attempt.amount
  service : ∀ c, f.completedService = some c → c.finalPrice = x.file.attempt.amount
    ∧ c.commissionRateBps = x.file.attempt.commissionRateBps
    ∧ c.platformFeeAmount = x.file.attempt.platformFeeAmount
    ∧ x.file.attempt.providerNetAmount = some c.providerNetAmount
  earnings : ∀ e ∈ f.transactions, e.type = .earning → x.file.attempt.providerNetAmount = some e.amount

/-- A paid booking belongs to the attempt that it names. -/
def Market.PaidBookingsSettled (m : Market) : Prop :=
  ∀ (b : Nat) (y : BookingSystem), m.bookings[b]? = some y → y.file.booking.paymentMethod = .gcash →
    ∃ (a : Nat) (x : AttemptSystem), y.file.booking.paymentAttemptId = some a ∧ m.attempts[a]? = some x
      ∧ SettledFor x y.file

/-- A payment is finalized with what the gateway stores for the intent. -/
def PaymentCall.Genuine (m : Market) : PaymentCall → Prop
  | .finalize _ payment => ∃ (x : AttemptSystem) (i : PaymentIntent),
      m.attempts[payment.paymentIntentId]? = some x ∧ x.intent = some i ∧ i.status = .succeeded
        ∧ payment.paymentId = i.paymentId ∧ payment.metadata = i.metadata
  | _ => True

section Books

variable {x x' : AttemptSystem} {f f' : BookingFile}

theorem SettledFor.extended (h : SettledFor x f) (more : x.Extends x') : SettledFor x' f := by
  have amount := more.column PaymentAttempt.amount fun _ => rfl
  have rate := more.column PaymentAttempt.commissionRateBps fun _ => rfl
  have fee := more.column PaymentAttempt.platformFeeAmount fun _ => rfl
  have net := more.column PaymentAttempt.providerNetAmount fun _ => rfl
  refine ⟨?_, amount ▸ h.agreed, ?_, net ▸ h.earnings⟩
  · obtain ⟨i, stored, paid, same⟩ := h.captured
    exact ⟨i, more.captured i stored paid, paid, same.trans amount.symm⟩
  · rw [amount, rate, fee, net]
    exact h.service

theorem SettledFor.same_books (h : SettledFor x f)
    (agreed : f'.booking.agreedAmount = f.booking.agreedAmount) (books : f'.books = f.books) :
    SettledFor x f' := by
  obtain ⟨service, transactions⟩ := Prod.mk.inj books
  exact ⟨h.captured, agreed.trans h.agreed, service ▸ h.service, transactions ▸ h.earnings⟩

theorem refundLedger_type {refundId : GatewayId} {amount : Centavos} {e : Transaction}
    (h : e ∈ f.refundLedger refundId amount) : e.type = .refund := by
  unfold BookingFile.refundLedger at h
  split at h
  · cases h
  · obtain rfl := List.mem_singleton.mp h
    rfl

/-- A settlement pays what the attempt of the booking says, and nothing else writes the books of a
    paid booking but the refund of the payment. -/
theorem SettledFor.written {ctx : Context} (h : SettledFor x f) (terms : SameTerms f f')
    (books : BooksWritten ctx f f') (paid : f.booking.paymentMethod = .gcash)
    (attempt : f.booking.paymentAttemptId.isSome = true) (priced : x.file.attempt.Priced)
    (read : ctx.paymentTerms = some (x.file.attempt.commissionRateBps,
      x.file.attempt.platformFeeAmount, x.file.attempt.providerNetAmount)) : SettledFor x f' := by
  have agreed : f'.booking.agreedAmount = f.booking.agreedAmount := terms.column _ fun _ => rfl
  cases books with
  | kept same => exact h.same_books agreed same.books
  | started _ _ _ same => exact h.same_books agreed same
  | refunded same =>
      obtain ⟨service, transactions⟩ := Prod.mk.inj same
      refine ⟨h.captured, agreed.trans h.agreed, service ▸ h.service, fun e listed earning => ?_⟩
      rw [transactions] at listed
      rcases List.mem_append.mp listed with old | refund
      · exact h.earnings e old earning
      · rw [refundLedger_type refund] at earning
        cases earning
  | settled run same =>
      obtain ⟨-, -, ⟨-, rfl⟩ | ⟨-, -, -, -, completed, record, rfl⟩⟩ := settleCompletedBooking_ok run
      · exact same ▸ h
      obtain ⟨net, split, -⟩ := priced.split
      have recorded : completed = {
          finalPrice := x.file.attempt.amount, commissionRateBps := x.file.attempt.commissionRateBps
          platformFeeAmount := x.file.attempt.platformFeeAmount, providerNetAmount := net
          paymentStatus := .released } := by
        simp [record, settlementRecord, paid, attempt, read, h.agreed, split]
      refine ⟨h.captured, agreed.trans h.agreed, fun c service => ?_, fun e listed earning => ?_⟩
      · obtain rfl : completed = c := by simpa [same] using service
        simp [recorded, split]
      · simp only [same, List.mem_append] at listed
        rcases listed with old | paid_out
        · exact h.earnings e old earning
        · simp only [BookingFile.earnings, paid, List.mem_singleton] at paid_out
          simp [paid_out, recorded, split]

theorem Renumbered.books {y y' : BookingSystem} (h : Renumbered y y') : y'.file.books = y.file.books :=
  h.column (·.file.books) fun _ _ _ _ => rfl

theorem SettledFor.renumbered {y y' : BookingSystem} (h : SettledFor x y.file) (run : Renumbered y y') :
    SettledFor x y'.file :=
  h.same_books (run.column (·.file.booking.agreedAmount) fun _ _ _ _ => rfl) run.books

end Books

section Runs

variable {s : MarketSystem} {t : Market} {act : MarketAction} {next : Option PaymentCall}

theorem PaymentCall.Genuine.stays {call : PaymentCall} (h : MarketEvent s act t next)
    (known : call.Genuine s.market) : call.Genuine t := by
  cases call with
  | finalize origin payment =>
      obtain ⟨x, i, found, stored, paid, same⟩ := known
      obtain ⟨x', found', move⟩ := h.attempt_move found
      exact ⟨x', i, found', move.extends_.captured i stored paid, paid, same⟩
  | _ => trivial

theorem MarketEvent.genuine (h : MarketEvent s act t next) {call : PaymentCall} (goes : next = some call) :
    call.Genuine t := by
  cases call with
  | finalize origin payment =>
      cases h with
      | passed _ flow =>
          obtain rfl := Option.some.inj goes
          cases flow with
          | @captured _ i x intent row stored paid => exact ⟨x, intent, row, stored, paid, rfl, rfl⟩
      | @called entry => cases entry <;> cases goes
      | @prepared _ _ params _ _ prepared =>
          unfold Prepared.next at goes
          split at goes <;> cases goes
      | intentStored _ creating => obtain rfl | ⟨_, rfl⟩ := creating <;> cases goes
      | finalized =>
          unfold Finalized.next at goes
          split at goes
          · cases goes
          · cases Origin.after_eq goes
      | refunded _ _ _ continues => obtain ⟨_, -, same⟩ | same := continues _ goes <;> cases same
      | markedFailed => cases Origin.after_eq goes
      | stopped | intentSaved | initiationFailed | expired | acted => cases goes
  | _ => trivial

/-- The booking of a captured payment starts with the amount of its attempt and empty books. -/
theorem settledFor_created {a : Nat} {x : AttemptSystem} {payment : CapturedPayment} {i : PaymentIntent}
    {duration position : Nat} (registered : x.Registered a) (stored : x.intent = some i)
    (paid : i.status = .succeeded) :
    SettledFor x (x.file.attempt.paidBooking a duration payment position) := by
  have amount : i.amount = x.file.attempt.amount := congrArg PaymentIntent.amount (registered.intent i stored)
  exact ⟨⟨i, stored, paid, amount⟩, rfl, by simp [PaymentAttempt.paidBooking],
    by simp [PaymentAttempt.paidBooking]⟩

theorem MarketEvent.booking_settled (h : MarketEvent s act t next)
    (registered : s.market.AttemptsRegistered) (settled : s.market.PaidBookingsSettled)
    (genuine : ∀ call ∈ s.calls, call.Genuine s.market) : t.PaidBookingsSettled := by
  intro b y' found paid
  -- the attempt of a booking keeps its terms
  have kept : ∀ (a : Nat) (x : AttemptSystem) (f : BookingFile), s.market.attempts[a]? = some x →
      SettledFor x f → ∃ x', t.attempts[a]? = some x' ∧ SettledFor x' f := by
    intro a x f listed books
    obtain ⟨x', after, move⟩ := h.attempt_move listed
    exact ⟨x', after, books.extended move.extends_⟩
  cases h.booking_row found with
  | @kept y before run =>
      have method := run.column (·.file.booking.paymentMethod) fun _ _ _ _ => rfl
      have attempt := run.column (·.file.booking.paymentAttemptId) fun _ _ _ _ => rfl
      obtain ⟨a, x, named, listed, books⟩ := settled b y before (method ▸ paid)
      obtain ⟨x', after, books'⟩ := kept a x _ listed books
      exact ⟨a, x', attempt.trans named, after, books'.renumbered run⟩
  | @stepped y u step run =>
      have method := run.column (·.file.booking.paymentMethod) fun _ _ _ _ => rfl
      have attempt := run.column (·.file.booking.paymentAttemptId) fun _ _ _ _ => rfl
      have method' : u.file.booking.paymentMethod = y.file.booking.paymentMethod :=
        step.sameTerms.paymentMethod
      have attempt' : u.file.booking.paymentAttemptId = y.file.booking.paymentAttemptId :=
        step.sameTerms.column _ fun _ => rfl
      have online : y.file.booking.paymentMethod = .gcash := by rw [← method', ← method, paid]
      obtain ⟨a, x, named, listed, books⟩ := settled b y step.found online
      obtain ⟨updatedAt, st, effects, -, stepped, -⟩ := step.run
      have read : (s.market.context b y updatedAt).paymentTerms = some (x.file.attempt.commissionRateBps,
          x.file.attempt.platformFeeAmount, x.file.attempt.providerNetAmount) := by
        simp [Market.context, named, Market.findAttempt, listed]
      have moved : bookingNext y (.step (s.market.context b y updatedAt) st) = some u := by
        simp [bookingNext, stepped]
      obtain ⟨_, event, -⟩ := BookingSystem.next_event moved
      have written := books.written step.sameTerms event.books online (by simp [named])
        (registered a x listed).priced read
      obtain ⟨x', after, books'⟩ := kept a x _ listed written
      exact ⟨a, x', attempt.trans (attempt'.trans named), after, books'.renumbered run⟩
  | cash _ cash run =>
      have method := run.column (·.file.booking.paymentMethod) fun _ _ _ _ => rfl
      rcases cash with rfl | rfl <;> cases paid.symm.trans method
  | @paid origin payment a fresh duration position _ call known open_ _ run =>
      have attempt := run.column (·.file.booking.paymentAttemptId) fun _ _ _ _ => rfl
      obtain ⟨x, i, listed, stored, captured, -⟩ := genuine _ call
      obtain rfl := registered.findIntent known
      obtain rfl := Option.some.inj ((open_.row listed).found.symm.trans open_.found)
      have books : SettledFor x (x.file.attempt.paidBooking _ duration payment position) :=
        settledFor_created (registered _ x listed) stored captured
      obtain ⟨x', after, books'⟩ := kept _ x _ listed books
      exact ⟨_, x', attempt, after, books'.renumbered run⟩

theorem market_settled {C : MarketSystem → MarketAction → Prop} {s : MarketSystem}
    (h : marketMachine.ReachableUnder C s) :
    s.Coupled (fun m => m.AttemptsRegistered ∧ m.PaidBookingsSettled) fun m call => call.Genuine m := by
  refine market_reachableUnder (fun m _ _ attempts bookings => ⟨?_, ?_⟩) ?_ h
  · intro a x found
    simp [attempts] at found
  · intro b y found
    simp [bookings] at found
  · intro s act t next _ known _ event
    have settled := event.booking_settled known.shared.1 known.shared.2 known.calls
    exact ⟨⟨known.shared.1.preserved event, settled⟩, fun c _ genuine => genuine.stays event,
      fun c goes => event.genuine goes⟩

/-- What a step extends, a run extends. -/
theorem attempt_extended {C : MarketSystem → MarketAction → Prop} {s t : MarketSystem}
    (run : marketMachine.RunUnder C s t) {a : Nat} {x : AttemptSystem}
    (found : s.market.attempts[a]? = some x) :
    ∃ x', t.market.attempts[a]? = some x' ∧ x.Extends x' := by
  induction run with
  | refl => exact ⟨x, found, .refl x⟩
  | step _ _ next ih =>
      obtain ⟨y, between, more⟩ := ih
      obtain ⟨_, event, -⟩ := MarketSystem.step_event next
      obtain ⟨x', after, move⟩ := event.attempt_move between
      exact ⟨x', after, more.trans move.extends_⟩

end Runs

/-- The settlement of a booking conserves the money of the captured payment. -/
structure Conserved (t : MarketSystem) (f : BookingFile) (c : CompletedService) (a : AttemptId)
    (intent : PaymentIntent) (earning : Transaction) : Prop where
  attempt : f.booking.paymentAttemptId = some a
  captured : ∃ x : AttemptSystem, t.market.attempts[a]? = some x ∧ x.intent = some intent
  succeeded : intent.status = .succeeded
  earned : f.transactions.filter (·.type == .earning) = [earning]
  sum : earning.amount + c.platformFeeAmount = intent.amount
  agreed : f.booking.agreedAmount = some intent.amount
  /-- The split is the one of the attempt in every state since its initiation. -/
  snapshot : ∀ s : MarketSystem, marketMachine.RunUnder (fun _ _ => True) s t →
    ∀ x : AttemptSystem, s.market.attempts[a]? = some x →
      x.file.attempt.platformFeeAmount = c.platformFeeAmount
        ∧ x.file.attempt.providerNetAmount = some earning.amount
        ∧ paymentCommission x.file.attempt.amount x.file.attempt.commissionRateBps
          = .ok (c.platformFeeAmount, earning.amount)

/-- The bounds on the amount of a booking and on the rate of a commission, in centavos and basis
    points. -/
structure ValidTerms (amount rateBps : Nat) : Prop where
  least : 5000 ≤ amount
  most : amount ≤ 5000000
  rate : rateBps ≤ 10000

/-- `paymentCommission` splits valid terms without a remainder, and the fee grows with the amount
    and the rate. -/
structure SplitsExactly (amount rateBps : Nat) : Prop where
  split : ∃ fee net, paymentCommission amount rateBps = .ok (fee, net) ∧ fee + net = amount
  mono : ∀ amount' rateBps' fee net fee' net', amount ≤ amount' → rateBps ≤ rateBps' →
    paymentCommission amount rateBps = .ok (fee, net) →
    paymentCommission amount' rateBps' = .ok (fee', net') → fee ≤ fee'

theorem splitsExactly {amount rate : Nat} (valid : ValidTerms amount rate) : SplitsExactly amount rate := by
  have positive : 0 < amount := Nat.lt_of_lt_of_le (by decide) valid.least
  refine ⟨?_, ?_⟩
  · have split := paymentCommission_ok.mpr ⟨⟨positive, valid.rate⟩, rfl, rfl⟩
    exact ⟨_, _, split, paymentCommission_sum split⟩
  · intro amount' rate' fee net fee' net' more higher split split'
    obtain ⟨-, rfl, -⟩ := paymentCommission_ok.mp split
    obtain ⟨-, rfl, -⟩ := paymentCommission_ok.mp split'
    exact platformFee_mono more higher

theorem one_earning {s : BookingSystem} (reached : bookingMachine.Reachable s)
    (paid : s.file.booking.paymentMethod = .gcash) (settled : s.file.completedService.isSome = true) :
    ∃ earning, s.file.transactions.filter (·.type == .earning) = [earning] := by
  obtain ⟨l, e⟩ := (reachable_encodes (bookingMachine_reachableUnder reached)).file
  obtain ⟨q, -, columns⟩ := e.paidColumns paid
  have released := columns.completed.mp (columns.completedService.mp settled)
  have count := columns.earning
  rw [if_pos released, BookingFile.countTransactions, List.count, List.countP_map,
    List.countP_eq_length_filter] at count
  exact List.length_eq_one_iff.mp count

/-- Money is conserved by every settlement of a paid booking, and by every split. -/
theorem settlement_conserves_money :
    (∀ t : MarketSystem, marketMachine.Reachable t → ∀ (b : Nat) (y : BookingSystem) (c : CompletedService),
      t.market.bookings[b]? = some y → y.file.booking.paymentMethod = .gcash →
      y.file.completedService = some c → ∃ a intent earning, Conserved t y.file c a intent earning)
    ∧ ∀ amount rateBps, ValidTerms amount rateBps → SplitsExactly amount rateBps := by
  refine ⟨fun t reached b y c found paid settled => ?_, fun amount rate valid => splitsExactly valid⟩
  have known := (market_settled reached).shared
  obtain ⟨a, x, named, listed, books⟩ := known.2 b y found paid
  obtain ⟨intent, stored, succeeded, amount⟩ := books.captured
  obtain ⟨earning, earned⟩ := one_earning (booking_reachable reached found) paid (by simp [settled])
  obtain ⟨price, rate, fee, net⟩ := books.service c settled
  have booked : earning ∈ y.file.transactions ∧ earning.type = .earning := by
    have listed : earning ∈ y.file.transactions.filter (·.type == .earning) := by simp [earned]
    simpa using listed
  have paid_net := books.earnings earning booked.1 booked.2
  have split : paymentCommission x.file.attempt.amount x.file.attempt.commissionRateBps
      = .ok (c.platformFeeAmount, earning.amount) := by
    obtain ⟨net', same, split⟩ := (known.1 a x listed).priced.split
    obtain rfl := Option.some.inj (same.symm.trans paid_net)
    rw [fee]
    exact split
  refine ⟨a, intent, earning, named, ⟨x, listed, stored⟩, succeeded, earned, ?_, ?_, ?_⟩
  · rw [amount, Nat.add_comm]
    exact paymentCommission_sum split
  · rw [amount]
    exact books.agreed
  · intro s run x₀ initiated
    obtain ⟨x', listed', more⟩ := attempt_extended run initiated
    obtain rfl := Option.some.inj (listed.symm.trans listed')
    have amount' := more.column PaymentAttempt.amount fun _ => rfl
    have rate' := more.column PaymentAttempt.commissionRateBps fun _ => rfl
    have fee' := more.column PaymentAttempt.platformFeeAmount fun _ => rfl
    have net' := more.column PaymentAttempt.providerNetAmount fun _ => rfl
    rw [← amount', ← rate', ← fee', ← net']
    exact ⟨fee.symm, paid_net, split⟩

/-- A listing of provider 2 for 500 pesos. -/
def sampleListing : Service where
  providerId := 2
  priceType := .fixed
  price := some 50000
  estimatedDurationMins := 60
  transportationFee := none
  paymentMethods := ⟨true, true⟩
  status := .active
  isAvailable := true

/-- Every account is eligible and pays a commission of 5 percent. -/
def sampleMarket : MarketSystem where
  market := {
    now := 1000, user := fun _ => some { commissionRateBps := 500 }
    service := fun _ => some sampleListing }

/-- The statements of a call of the payment services, from its start. -/
def sampleCall (k : Nat) (entry : PaymentEntry) (replies : List Reply) : List MarketAction :=
  .pay entry :: replies.map (.resume k ·)

/-- Seeker 1 pays for the listing; the webhook books it. -/
def samplePurchase : List MarketAction :=
  sampleCall 0 (.initiateOnlinePayment { seekerId := 1, serviceId := some 1 })
      [.none, .none, .ok, .ok, .redirect none, .none]
    ++ [MarketAction.intent 0 .succeeded] ++ sampleCall 0 (.paidWebhook 0) [.ok, .none]

def sampleSettlement : List MarketAction :=
  samplePurchase ++ [MarketAction.booking 0 (.request (.providerStartJob 2)) 0,
    .booking 0 (.request (.markJobComplete 2)) 0, .booking 0 (.request (.confirmCompletion 1)) 0]

theorem sampleMarket_initial : marketMachine.initial sampleMarket := ⟨rfl, rfl, rfl, rfl, rfl⟩

theorem settlement_conserves_money_sample : ∃ t, marketMachine.exec sampleMarket sampleSettlement = some t
    ∧ (∃ y c, t.market.bookings[0]? = some y ∧ y.file.completedService = some c
      ∧ ∃ a intent earning, Conserved t y.file c a intent earning)
    ∧ SplitsExactly 50000 500 := by
  obtain ⟨t, run, settled⟩ := sample_any (o := marketMachine.exec sampleMarket sampleSettlement)
    (p := fun t => (t.market.bookings[0]?).any (fun y =>
      y.file.booking.paymentMethod == .gcash && y.file.completedService.isSome) = true) (by decide)
  obtain ⟨y, found, both⟩ := (Option.any_eq_true _ _).mp settled
  simp only [Bool.and_eq_true, beq_iff_eq, Option.isSome_iff_exists] at both
  obtain ⟨paid, c, service⟩ := both
  have reached : marketMachine.Reachable t := .of_exec sampleMarket_initial run
  exact ⟨t, run, ⟨y, c, found, service, settlement_conserves_money.1 t reached 0 y c found paid service⟩,
    settlement_conserves_money.2 50000 500 ⟨by decide, by decide, by decide⟩⟩

end ServiceHub
