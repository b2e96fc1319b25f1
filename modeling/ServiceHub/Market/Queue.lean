import Mathlib.Data.List.Sort
import ServiceHub.Market.State

/-! # The paid queue of a provider

`recalculateQueueInTransaction`, one row after the other under the unique index on
the active positions of a provider.
-/

namespace ServiceHub

open Guard

/-- A cash job that is in progress. -/
def Booking.cashInProgress (p : UserId) (b : Booking) : Bool :=
  b.providerId == p && b.paymentMethod == .onsiteCash && b.started
    && (b.status == .ongoing || b.status.frozen)

namespace Market

def position (m : Market) (b : BookingId) : Nat :=
  (((m.bookings[b]?).bind (·.file.queue)).map (·.position)).getD 0

def duration (m : Market) (b : BookingId) : Option Nat :=
  (m.bookings[b]?).bind (·.file.booking.estimatedDurationMins)

/-- The bookings whose queue row has the status in the provider's queue, in order of arrival. -/
def entries (m : Market) (p : UserId) (status : QueueStatus) : List BookingId :=
  (List.range m.bookings.length).filter fun b => (m.bookings[b]?).any (·.inQueue p status)

/-- `orderBy: [{ position: "asc" }, { joinedAt: "asc" }, { id: "asc" }]`. -/
def waitingEntries (m : Market) (p : UserId) : List BookingId :=
  (m.entries p .waiting).insertionSort fun a b => m.position a ≤ m.position b

/-- Another active row of the provider's queue holds the position. -/
def positionTaken (m : Market) (p : UserId) (b : BookingId) (position : Nat) : Bool :=
  (List.range m.bookings.length).any fun other => other != b
    && (m.bookings[other]?).any fun s => s.file.queue.any fun q =>
      q.providerId == p && q.status.active && q.position == position

/-- The update of one queue row, which the unique index can reject. -/
def moveEntry (p : UserId) (b : BookingId) (position estimatedWait : Nat) (m : Market) :
    Except HttpError Market :=
  if (m.bookings[b]?).any fun s => s.file.queue.any fun q =>
      q.position == position && q.estimatedWait == estimatedWait then
    return m
  else do
    rejectIf (m.positionTaken p b position) uniqueViolation
    return m.updateFile b (·.updateQueue ({ · with position, estimatedWait }))

/-- The loop over the waiting entries from the given position and estimated wait. -/
def renumberWaiting (p : UserId) : Nat → Nat → List BookingId → Market → Except HttpError Market
  | _, _, [], m => return m
  | position, estimatedWait, b :: rest, m => do
      let moved ← m.moveEntry p b position estimatedWait
      -- the condition `queuePosition: { not: position }` does not match a null column
      let numbered := moved.updateFile b fun f =>
        f.updateBooking ({ · with queuePosition := f.booking.queuePosition.map fun _ => position })
      renumberWaiting p (position + 1) (estimatedWait + (m.duration b).getD 60) rest numbered

/-- `recalculateQueueInTransaction`. -/
def recalculateQueue (p : UserId) (m : Market) : Except HttpError Market := do
  let serving := (m.entries p .serving).head?
  let cashInProgress := m.bookings.find? (·.file.booking.cashInProgress p)
  let waiting := m.waitingEntries p
  match serving with
  | some b => do
      let moved ← m.moveEntry p b 1 0
      renumberWaiting p 2 ((m.duration b).getD 0) waiting moved
  | none =>
      let estimatedWait := (cashInProgress.bind (·.file.booking.estimatedDurationMins)).getD 0
      renumberWaiting p 1 estimatedWait waiting m

end Market

end ServiceHub
