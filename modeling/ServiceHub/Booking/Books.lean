import ServiceHub.Booking.Columns
import ServiceHub.Booking.Frame

/-! # Which transactions write the books and the place in the queue

The completed service and the ledger rows are written by a settlement or by the finalization of
a refund. A booking takes its place in the queue when it starts; otherwise only a renumbering
moves it.
-/

namespace ServiceHub

open Guard

/-- The completed service and the ledger. -/
def BookingFile.books (f : BookingFile) : Option CompletedService × List Transaction :=
  (f.completedService, f.transactions)

/-- The place in the queue, on the booking and on the queue row. -/
def BookingFile.places (f : BookingFile) : Option Nat × Option (Nat × Nat) :=
  (f.booking.queuePosition, f.queue.map fun q => (q.position, q.estimatedWait))

/-- Neither the books nor the place are written. -/
structure SameBooks (f f' : BookingFile) : Prop where
  books : f'.books = f.books
  places : f'.places = f.places

inductive BooksWritten (ctx : Context) (f f' : BookingFile) : Prop where
  | kept (same : SameBooks f f')
  | started {q : Queue} (queued : f.queue = some q) (waiting : q.status = .waiting)
      (first : ctx.firstWaiting = true) (books : f'.books = f.books)
      (places : f'.places = (some 1, some (1, 0)))
  | settled {actor : SettlementActor} {c : Commit} (run : settleCompletedBooking ctx actor f = .ok c)
      (same : f' = c.file)
  | refunded {refundId : GatewayId} {amount : Centavos}
      (books : f'.books = (f.completedService, f.transactions ++ f.refundLedger refundId amount))
      (places : f'.places = f.places)

section Transactions

variable {ctx : Context} {f f' : BookingFile} {c : Commit} {caller : Caller}

theorem SameBooks.trans {f'' : BookingFile} (h : SameBooks f f') (h' : SameBooks f' f'') : SameBooks f f'' :=
  ⟨h'.books.trans h.books, h'.places.trans h.places⟩

/-- The queue row is written outside of its place only. -/
theorem SameBooks.of_map {g : Queue → Queue} (books : f'.books = f.books)
    (position : f'.booking.queuePosition = f.booking.queuePosition) (queue : f'.queue = f.queue.map g)
    (kept : ∀ q, (g q).position = q.position ∧ (g q).estimatedWait = q.estimatedWait) :
    SameBooks f f' := by
  refine ⟨books, ?_⟩
  simp only [BookingFile.places, position, queue, Option.map_map, Function.comp_def, kept]

theorem SameColumns.sameBooks (h : SameColumns f f') : SameBooks f f' := by
  constructor
  · simp only [BookingFile.books, h.completedService, h.transactions]
  · simp only [BookingFile.places, h.booking, h.queue]

theorem ColumnsWritten.books (h : ColumnsWritten ctx f c) : BooksWritten ctx f c.file := by
  cases h with
  | aside same => exact .kept same.sameBooks
  | answered _ _ same | startedCash _ _ _ _ same =>
      refine .kept (SameBooks.trans ?_ same.sameBooks)
      exact ⟨rfl, rfl⟩
  | startedPaid admitted queued _ _ _ same =>
      obtain ⟨-, waiting, first, -⟩ := admitted.paid _ queued
      exact .started queued waiting first same.sameBooks.books same.sameBooks.places
  | finished _ _ same | restored _ _ same | canceled _ _ _ same =>
      refine .kept (SameBooks.trans ?_ same.sameBooks)
      exact .of_map rfl rfl rfl fun _ => ⟨rfl, rfl⟩
  | held _ _ _ row same =>
      refine .kept (SameBooks.trans ?_ same.sameBooks)
      refine .of_map rfl rfl rfl fun q => ?_
      obtain ⟨paymentStatus, written⟩ := row q
      rw [written]
      exact ⟨rfl, rfl⟩
  | settled run file => exact .settled run file
  | refunded _ _ same =>
      refine .refunded same.sameBooks.books (same.sameBooks.places.trans ?_)
      simp only [BookingFile.places, BookingFile.refunded, Option.map_map, Function.comp_def]

end Transactions

/-- A step in the context of other rows writes the books in that context. -/
theorem Event.books {s : BookingSystem} {ctx : Context} {st : Step} {f' : BookingFile}
    {g' : Option GatewayRefund} {next : Option Call} (h : Event s (.step ctx st) f' g' next) :
    BooksWritten ctx s.file f' := by
  cases h with
  | requested run => exact (requestTransaction_columns run).books
  | committed _ run => exact (transaction_columns run).books
  | _ => exact .kept ⟨rfl, rfl⟩

end ServiceHub
