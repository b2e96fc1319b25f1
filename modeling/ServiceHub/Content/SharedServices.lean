import ServiceHub.Content.Cases
import ServiceHub.Listing.Listings
import ServiceHub.Market.Offers
import ServiceHub.Market.Writes

/-! # Services that two models share

`assertNewProviderBusiness`, `createDirectRequest` and `applyPublicContentAction` stand in two models each, with the
columns that the model is about. On tables that show the same rows they decide alike.
-/

namespace ServiceHub

open Guard

/-- The account of the marketplace is that of the membership, with the access it has once its trial has begun. -/
structure Provider.Shows (now : Millis) (p : Provider) (u : User) : Prop where
  role : u.role = p.role
  isActive : u.isActive = p.isActive
  deactivatedAt : u.deactivatedAt = p.deactivatedAt
  moderationStatus : u.moderationStatus = p.moderationStatus
  marketplaceAccess : ∀ p', p.ensureProviderTrial now = .ok p' → u.marketplaceAccess = p'.marketplaceAccess now

section Members

variable {m : Market} {p : Provider} {u : User} {providerId : UserId}

theorem Provider.Shows.active (shows : p.Shows m.now u) :
    u.activeMarketplaceAccount = true ↔ p.assertActiveMarketplaceAccount = .ok () := by
  simp only [User.activeMarketplaceAccount, shows.role, shows.isActive, shows.deactivatedAt, shows.moderationStatus,
    Bool.and_eq_true, beq_iff_eq, Option.isNone_iff_eq_none, Provider.assertActiveMarketplaceAccount, rejectIf_ok, not_or,
    not_not, Bool.not_eq_false, Bool.not_eq_true, Option.isSome_eq_false_iff, and_assoc]

/-- Both models give new business to the same providers. -/
theorem assertNewProviderBusiness_iff (account : m.user providerId = some u) (shows : p.Shows m.now u) :
    assertNewProviderBusiness m providerId = .ok () ↔ ∃ p', p.assertNewProviderBusiness m.now = .ok p' := by
  have business : assertNewProviderBusiness m providerId = .ok ()
      ↔ p.assertActiveMarketplaceAccount = .ok () ∧ u.marketplaceAccess = true := by
    simp only [assertNewProviderBusiness, check_bind_ok, rejectIf_ok, account, Option.any_some, not_not, shows.active]
  have membership : ∀ p', p.assertNewProviderBusiness m.now = .ok p'
      ↔ p.ensureProviderTrial m.now = .ok p' ∧ p'.marketplaceAccess m.now = true := by
    intro p'
    simp only [Provider.assertNewProviderBusiness, bind_ok, Provider.assertMembershipAccess, rejectIf_ok, pure_ok]
    constructor
    · rintro ⟨user, trial, -, access, rfl⟩
      exact ⟨trial, by simpa using access⟩
    · rintro ⟨trial, access⟩
      exact ⟨p', trial, (), by simp [access], rfl⟩
  rw [business]
  constructor
  · rintro ⟨active, access⟩
    obtain ⟨p', trial⟩ : ∃ p', p.ensureProviderTrial m.now = .ok p' := by
      simp only [Provider.ensureProviderTrial, check_bind_ok, ite_ok, pure_ok]
      by_cases started : p.freePlanStartedAt.isSome = true
      · exact ⟨p, active, .inl ⟨started, rfl⟩⟩
      · exact ⟨_, active, .inr ⟨started, rfl⟩⟩
    exact ⟨p', (membership p').mpr ⟨trial, shows.marketplaceAccess p' trial ▸ access⟩⟩
  · rintro ⟨p', run⟩
    obtain ⟨trial, access⟩ := (membership p').mp run
    refine ⟨?_, (shows.marketplaceAccess p' trial).trans access⟩
    simp only [Provider.ensureProviderTrial, check_bind_ok] at trial
    exact trial.1

end Members

/-- The listings and bookings of the marketplace. -/
structure ListingSystem.Shows (s : ListingSystem) (m : Market) (providerId : UserId) : Prop where
  now : s.now = m.now
  bookings : s.bookings = m.bookings
  listings : ∀ (i : Nat) service, m.service i = some service → ∃ row, s.listings[i]? = some row
    ∧ row.status = service.status ∧ row.isAvailable = service.isAvailable
  account : ∃ u, m.user providerId = some u ∧ s.provider.Shows m.now u

/-- What the marketplace books for cash, the listings of its provider book. -/
theorem createDirectRequest_listed {m t : Market} {s : ListingSystem} {seekerId providerId : UserId} {serviceId : ServiceId}
    {quantity : Nat} (shows : s.Shows m providerId)
    (run : createDirectRequest seekerId providerId serviceId quantity m = .ok t) :
    ∃ terms s', s.createDirectRequest terms = .ok s' ∧ s'.bookings = t.bookings := by
  simp only [createDirectRequest] at run
  split at run
  · cases run
  · rename_i distinct
    simp only [bind_ok, orThrow_ok, rejectIf_ok] at run
    obtain ⟨service, found, -, offered, terms, -, -, -, -, -, -, free, _, business, -, -, create⟩ := run
    obtain ⟨-, -, -, rfl⟩ := createBooking_ok create
    obtain ⟨row, listed, status, available⟩ := shows.listings serviceId service found
    obtain ⟨u, account, member⟩ := shows.account
    obtain ⟨p', enrolled⟩ := (assertNewProviderBusiness_iff account member).mp business
    rw [← shows.now] at enrolled
    refine ⟨{ seekerId, providerId, distinct, serviceId := some serviceId, offerId := none, amount := terms.amount
              estimatedDurationMins := some terms.estimatedDurationMins },
      { s with provider := p', bookings := s.bookings ++ [{ file := _ }] }, ?_, by rw [shows.bookings]⟩
    simp only [ListingSystem.createDirectRequest, bind_ok, orThrow_ok, rejectIf_ok, pure_ok]
    refine ⟨p', enrolled, (), ?_, row, by simpa using listed, (), ?_, rfl⟩
    · rw [shows.bookings]
      intro conflict
      refine free ?_
      obtain ⟨y, among, conflicts⟩ := List.any_eq_true.mp conflict
      simp only [Bool.and_eq_true, beq_iff_eq] at conflicts
      refine List.any_eq_true.mpr ⟨y, among, ?_⟩
      simp [conflicts]
    · rw [status, available]
      simp only [not_or, not_not, Bool.not_eq_false] at offered ⊢
      exact offered.2

/-- The row of a request with what a removal looks at. -/
structure CaseTables.ShowsRequest {κ : Type} [DecidableEq κ] (t : CaseTables κ) (id : κ) (m : Market) (r : RequestId) : Prop where
  found : ∀ content, t.db.serviceRequests.find? (·.id == id) = some content → ∃ request, m.requests[r]? = some request
    ∧ content.status = request.status ∧ content.targetServiceId.isSome = request.targetServiceId.isSome
    ∧ (content.moderationReasonCode = some "ADMIN_REMOVED" ↔ request.adminRemoved = true)
  blocked : t.db.linkedBookings ((t.db.offers.filter (·.requestId == id)).map (·.id)) = 0
    ∧ t.db.linkedPayments ((t.db.offers.filter (·.requestId == id)).map (·.id)) = 0
    → m.matched r = false ∧ m.protectedPayment r = false

/-- What a content decision removes or restores, the marketplace removes or restores. -/
theorem applyPublicContentAction_shown {κ : Type} [DecidableEq κ] {t t' : CaseTables κ} {id : κ} {m : Market} {r : RequestId}
    {adminId : UserId} {action : PublicContentAction} {reason : Text} {restorable : Except HttpError Unit}
    (shows : t.ShowsRequest id m r)
    (run : t.applyPublicContentAction .serviceRequest id adminId action reason restorable = .ok t') :
    ∃ m', applyPublicContentAction r (action == .restore) m = .ok m' := by
  simp only [CaseTables.applyPublicContentAction, orThrow_bind_ok, check_bind_ok, rejectIf_ok, not_or, not_not] at run
  obtain ⟨content, listed, public_, free, checked⟩ := run
  obtain ⟨request, found, status, target, removed⟩ := shows.found content listed
  obtain ⟨unmatched, unpaid⟩ := shows.blocked free
  rw [target] at public_
  simp only [applyPublicContentAction, orThrow_bind_ok, check_bind_ok, rejectIf_ok]
  cases action with
  | remove =>
      simp only [check_bind_ok, rejectIf_ok, status] at checked
      refine ⟨rejectPendingOffers r (m.updateRequest r ({ · with status := .canceled, adminRemoved := true })), request,
        found, public_, by simp [unmatched, unpaid], ?_⟩
      simp only [beq_iff_eq, reduceCtorEq, if_false, check_bind_ok, rejectIf_ok, pure_ok]
      exact ⟨checked.1, trivial⟩
  | restore =>
      simp only [check_bind_ok, rejectIf_ok, not_or, not_not, status, removed] at checked
      refine ⟨m.updateRequest r ({ · with status := .open, adminRemoved := false }), request, found, public_,
        by simp [unmatched, unpaid], ?_⟩
      simp only [beq_self_eq_true, if_true, check_bind_ok, rejectIf_ok, pure_ok, not_or, not_not, Bool.not_eq_false]
      exact ⟨checked.1, trivial⟩

/-- The row of a listing, with its owner. -/
structure CaseTables.ShowsListing {κ : Type} [DecidableEq κ] (t : CaseTables κ) (id : κ) (s : ListingSystem) (i : Nat) : Prop where
  found : ∀ content, t.db.services.find? (·.id == id) = some content → ∃ row, s.listings[i]? = some row
    ∧ content.status = row.status ∧ (content.moderationReasonCode = some "ADMIN_REMOVED" ↔ row.adminRemoved = true)
    ∧ (assertActiveMember (t.db.user content.providerId) = .ok () → s.provider.assertActiveMarketplaceAccount = .ok ())

/-- What a content decision removes or restores, the listings of the owner remove or restore. -/
theorem applyPublicContentAction_listed {κ : Type} [DecidableEq κ] {t t' : CaseTables κ} {id : κ} {s : ListingSystem} {i : Nat}
    {adminId : UserId} {action : PublicContentAction} {reason : Text} {restorable : Except HttpError Unit}
    (shows : t.ShowsListing id s i)
    (run : t.applyPublicContentAction .serviceListing id adminId action reason restorable = .ok t') :
    ∃ call, s.read (match action with
      | .remove => .removeListing i
      | .restore => .restoreListing i true) = .ok call := by
  simp only [CaseTables.applyPublicContentAction, orThrow_bind_ok] at run
  obtain ⟨content, listed, checked⟩ := run
  obtain ⟨row, found, status, removed, member⟩ := shows.found content listed
  cases action with
  | remove =>
      simp only [check_bind_ok, rejectIf_ok, status] at checked
      simp only [ListingSystem.read, orThrow_bind_ok, check_bind_ok, rejectIf_ok, pure_ok]
      exact ⟨_, row, found, checked.1, rfl⟩
  | restore =>
      simp only [check_bind_ok, rejectIf_ok, not_or, not_not, status, removed] at checked
      obtain ⟨restored, allowed, -⟩ := checked
      simp only [CaseTables.assertRestorable, check_bind_ok] at allowed
      simp only [ListingSystem.read, orThrow_bind_ok, check_bind_ok, rejectIf_ok, pure_ok, not_or, not_not,
        Bool.not_eq_false]
      exact ⟨_, row, found, restored, member allowed.1, by simp, rfl⟩

end ServiceHub
