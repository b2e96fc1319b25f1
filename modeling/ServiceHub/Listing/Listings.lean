import Mathlib.Data.List.Sort
import ServiceHub.Lib.Threads
import ServiceHub.Market.State
import ServiceHub.Membership.Policy

/-! # The listings of one provider

The transactions that write listings hold the account lock of the provider from their first read to
their commit, and read and write in statements of their own. `deleteService` checks the bookings and
commits without the lock. What the content checks answer is part of a request.
-/

namespace ServiceHub

open Guard

/-- The columns of `Service` that the listing services decide on; a listing is known by its number. -/
structure Listing where
  /-- The place of the listing's text id among all ids. -/
  cuid : Nat
  status : ServiceStatus := .active
  isAvailable : Bool := true
  publishedAt : Option Millis
  /-- `moderationReasonCode === "ADMIN_REMOVED"`. -/
  adminRemoved : Bool := false
  deriving Repr, DecidableEq

inductive ListingRequest where
  | createService (cuid : Nat) (passes : Bool)
  /-- With whether title, category or description change. -/
  | updateService (s : ServiceId) (changed passes : Bool)
  | toggleServiceAvailability (s : ServiceId)
  /-- `applyPublicContentAction`. -/
  | removeListing (s : ServiceId)
  | restoreListing (s : ServiceId) (passes : Bool)
  /-- `finalizeSubscriptionPayment` with the row of the payment. -/
  | finalizeSubscription (current : SubscriptionPayment) (paymentId : GatewayId)
  /-- `finalizeSuccessfulPayment` for participants that are eligible. -/
  | finalizeSuccessfulPayment (terms : Terms) (attemptId : AttemptId) (intentId : GatewayId)
      (paymentId : Option GatewayId) (position : Nat)
  | deleteService (s : ServiceId)

/-- What a transaction writes to the listings. -/
inductive ListingWrite where
  | nothing
  | create (row : Listing)
  | set (s : ServiceId) (row : Listing)
  /-- The pause of a Basic purchase, with the active listings that it has read, oldest first. -/
  | pause (listings : List ServiceId)
  deriving Repr, DecidableEq

inductive ListingCall where
  | lock (request : ListingRequest)
  /-- The row is read; the active listings are to be counted, `own` without the row itself. A plan is
      started by `assertNewProviderBusiness` except for a restoration. -/
  | count (s : ServiceId) (row : Listing) (own restores : Bool)
  | write (provider : Provider) (w : ListingWrite)
  | book (f : BookingFile)
  | deleteCommit (s : ServiceId)

structure ListingSystem where
  now : Millis
  provider : Provider
  listings : List Listing := []
  bookings : List BookingSystem := []
  calls : List ListingCall := []

/-- The call is in the middle of a transaction that holds the account lock. -/
def ListingCall.locked : ListingCall → Bool
  | .count _ _ _ _ | .write _ _ | .book _ => true
  | .lock _ | .deleteCommit _ => false

/-- `orderBy: [{ publishedAt: "asc" }, { id: "asc" }]`; rows without a date come last. -/
def Listing.older (a b : Listing) : Bool :=
  match a.publishedAt, b.publishedAt with
  | some t, some u => t < u || (t == u && a.cuid ≤ b.cuid)
  | some _, none => true
  | none, some _ => false
  | none, none => a.cuid ≤ b.cuid

def activeCount (listings : List Listing) : Nat :=
  listings.countP (·.status == .active)

/-- The active listings with their numbers, oldest first. -/
def oldestActive (listings : List Listing) : List ServiceId :=
  ((listings.zipIdx.filter fun (row, _) => row.status == .active).insertionSort
    fun a b => a.1.older b.1 = true).map (·.2)

/-- The rows that the pause of a Basic purchase writes. -/
def pausedBy (listings : List ServiceId) : List ServiceId := listings.drop 3

def ListingWrite.apply (listings : List Listing) : ListingWrite → List Listing
  | .nothing => listings
  | .create row => listings ++ [row]
  | .set s row => listings.set s row
  | .pause order => listings.mapIdx fun i row =>
      if i ∈ pausedBy order then { row with status := .inactive, isAvailable := false } else row

namespace ListingSystem

def isLocked (s : ListingSystem) : Bool :=
  s.calls.any (·.locked)

def hasActiveBooking (s : ListingSystem) (i : ServiceId) : Bool :=
  s.bookings.any fun x => x.file.booking.serviceId == some i && x.file.booking.status.active

def notFound : HttpError := httpError "Service not found or access denied" 404

/-- Count the active listings and check the capacity of the plan. -/
def countCapacity (s : ListingSystem) (i : ServiceId) (row : Listing) (own restores : Bool) :
    Except HttpError ListingCall := do
  let occupied := activeCount (if own then s.listings.eraseIdx i else s.listings)
  let business := if restores then .ok s.provider else s.provider.assertNewProviderBusiness s.now
  let user ← business
  user.assertListingCapacity occupied s.now
  return .write user (.set i row)

/-- The first reads of a transaction under the account lock. -/
def read (s : ListingSystem) : ListingRequest → Except HttpError ListingCall
  | .createService cuid passes => do
      s.provider.assertActiveMarketplaceAccount
      let user ← s.provider.assertNewProviderBusiness s.now
      user.assertListingCapacity (activeCount s.listings) s.now
      rejectIf (passes = false) (httpError "Revise the content" 422 (some "CONTENT_REVISION_REQUIRED"))
      return .write user (.create { cuid, publishedAt := some s.now })
  | .updateService i changed passes => do
      s.provider.assertActiveMarketplaceAccount
      let service ← orThrow (s.listings[i]?) notFound
      rejectIf (service.status = .deleted) notFound
      rejectIf (service.status = .suspended)
        (httpError "An administrator must restore this suspended listing before it can be edited" 409)
      if changed = false ∧ service.status ≠ .rejected ∧ service.status ≠ .pendingReview then
        return .write s.provider .nothing
      else do
        rejectIf (passes = false) (httpError "Revise the content" 422 (some "CONTENT_REVISION_REQUIRED"))
        if service.status = .inactive then
          return .write s.provider (.set i { service with isAvailable := false, adminRemoved := false })
        else do
          let row := { service with
            status := .active, isAvailable := true, publishedAt := some (service.publishedAt.getD s.now)
            adminRemoved := false }
          return if service.status = .active then .write s.provider (.set i row) else .count i row false false
  | .toggleServiceAvailability i => do
      s.provider.assertActiveMarketplaceAccount
      let service ← orThrow ((s.listings[i]?).filter fun x => x.status == .active || x.status == .inactive)
        (httpError "Only an active or paused listing can be paused or resumed" 404)
      if service.status = .inactive ∨ service.isAvailable = false then
        return .count i { service with
          status := .active, isAvailable := true
          publishedAt := some (service.publishedAt.getD s.now) } true false
      else return .write s.provider (.set i { service with status := .inactive, isAvailable := false })
  | .removeListing i => do
      let content ← orThrow (s.listings[i]?) (httpError "This service listing no longer exists." 409)
      rejectIf (content.status ≠ .active ∧ content.status ≠ .inactive)
        (httpError "Only a published or paused service can be removed." 409)
      return .write s.provider (.set i { content with
        status := .suspended, isAvailable := false, adminRemoved := true })
  | .restoreListing i passes => do
      let content ← orThrow (s.listings[i]?) (httpError "This service listing no longer exists." 409)
      rejectIf (content.status ≠ .suspended ∨ content.adminRemoved = false)
        (httpError "Only a service removed by an admin can be restored." 409)
      s.provider.assertActiveMarketplaceAccount
      rejectIf (passes = false) (httpError "This listing does not meet the current posting rules." 409)
      return .count i { content with
        status := .active, isAvailable := true, publishedAt := some (content.publishedAt.getD s.now)
        adminRemoved := false } false true
  | .finalizeSubscription current paymentId =>
      if current.paymentStatus.settled ∨ current.applicable s.now s.provider = false then
        return .write s.provider .nothing
      else
        let user := (current.grant s.now paymentId s.provider).1
        return .write user (if current.plan = .basic then .pause (oldestActive s.listings) else .nothing)
  | .finalizeSuccessfulPayment terms attemptId intentId paymentId position => do
      let unavailable := httpError "PROVIDER_OR_QUEUE_UNAVAILABLE_AFTER_CAPTURE" 409
      s.provider.assertMembershipAccess s.now
      if terms.offerId = none then do
        let service ← orThrow (terms.serviceId.bind (s.listings[·]?)) unavailable
        rejectIf (service.status ≠ .active ∨ service.isAvailable = false) unavailable
      return .book (terms.paidCapture attemptId intentId paymentId position)
  | .deleteService i => do
      -- the booking check of `deleteService` takes no lock
      let _ ← orThrow (s.listings[i]?) notFound
      rejectIf (s.hasActiveBooking i = true)
        (httpError "Cannot delete a service with an active booking. Pause the listing and finish or cancel its bookings first."
          409)
      return .deleteCommit i

/-- The next statement of a call. A transaction waits while another one holds the account lock. -/
def resume (s : ListingSystem) : ListingCall → Option (ListingSystem × Option ListingCall)
  | .lock (.deleteService i) => some (s, (s.read (.deleteService i)).toOption)
  | .lock request => if s.isLocked then none else some (s, (s.read request).toOption)
  | .count i row own restores => some (s, (s.countCapacity i row own restores).toOption)
  | .write user w => some ({ s with
      provider := s.provider.writtenOver user, listings := w.apply s.listings }, none)
  | .book f => some ({ s with bookings := s.bookings ++ [{ file := f }] }, none)
  | .deleteCommit i => some ({ s with
      listings := s.listings.modify i ({ · with status := .deleted, isAvailable := false }) }, none)

/-- `createDirectRequest`, which locks the listing's row before it reads it. -/
def createDirectRequest (terms : Terms) (s : ListingSystem) : Except HttpError ListingSystem := do
  let changed := httpError "The service changed while sending your request. Review the listing and try again." 409
  let user ← s.provider.assertNewProviderBusiness s.now
  rejectIf (s.bookings.any fun x => x.file.booking.seekerId == terms.seekerId
      && x.file.booking.serviceId == terms.serviceId && x.file.booking.status.active
      && x.file.booking.status != .underReview)
    (httpError "You already have an active booking for this service" 409)
  let service ← orThrow (terms.serviceId.bind (s.listings[·]?)) changed
  rejectIf (service.status ≠ .active ∨ service.isAvailable = false) changed
  return { s with provider := user, bookings := s.bookings ++ [{ file := terms.cashRequest }] }

end ListingSystem

inductive ListingAction where
  | call (request : ListingRequest)
  | resume (k : Nat)
  | crash (k : Nat)
  | createDirectRequest (terms : Terms)
  /-- A step of a booking. -/
  | booking (b : BookingId) (a : Action)
  | enroll
  | cancelMembership
  | maintain (scannedAt : Millis) (plan : ProviderPlan) (expiresAt : Millis)
  | moderate (isActive : Bool) (deactivatedAt : Option Millis) (moderationStatus : AccountModerationStatus)
  | wait (time : Millis)

namespace ListingSystem

/-- A change of the membership, under the account lock. -/
def updateProvider (s : ListingSystem) (run : Except HttpError Provider) : Option ListingSystem :=
  if s.isLocked then none else run.toOption.map ({ s with provider := · })

def step (s : ListingSystem) : ListingAction → Option ListingSystem
  | .call request => some { s with calls := s.calls ++ [.lock request] }
  | .resume k =>
      (s.calls[k]?).bind fun call => (s.resume call).map fun (after, next) =>
        { after with calls := Threads.proceed s.calls k next }
  | .crash k => if k < s.calls.length then some { s with calls := Threads.proceed s.calls k none } else none
  | .createDirectRequest terms => if s.isLocked then none else (s.createDirectRequest terms).toOption
  | .booking b a => (s.bookings[b]?).bind fun x =>
      (bookingMachine.next x a).map fun x' => { s with bookings := s.bookings.set b x' }
  | .enroll => s.updateProvider (s.provider.ensureProviderTrial s.now)
  | .cancelMembership => s.updateProvider (s.provider.cancelProviderSubscription s.now)
  | .maintain scannedAt plan expiresAt =>
      if scannedAt ≤ s.now then s.updateProvider (.ok (s.provider.maintainMembership scannedAt plan expiresAt))
      else none
  | .moderate isActive deactivatedAt moderationStatus =>
      some { s with provider := { s.provider with isActive, deactivatedAt, moderationStatus } }
  | .wait time => some { s with now := s.now + time }

end ListingSystem

/-- The listings of a provider, from the states that meet `start` without a call in flight. -/
def listingMachine (start : ListingSystem → Prop) : Machine ListingSystem ListingAction where
  initial s := s.calls = [] ∧ start s
  next := ListingSystem.step

end ServiceHub
