import ServiceHub.Catalog.Names
import ServiceHub.Lib.Pages
import ServiceHub.Market.State

/-! # The content workspace of the administrators

`listWorkspaceContent` pages through the listings and the requests together. It reads from each table no more
than the page can need, cuts the page from the merge and reads every item of it again.
-/

namespace ServiceHub

open Guard

inductive PublicContentType where
  | serviceListing | serviceRequest
  deriving Repr, DecidableEq

/-- `ownerSelect`. -/
structure ContentOwner where
  id : UserId
  name : Text
  email : Text
  trustScore : Int := 50
  verificationStatus : VerificationStatus := .unverified
  moderationStatus : AccountModerationStatus := .active
  isActive : Bool := true
  deactivatedAt : Option Millis := none
  role : Role := .user
  emailVerified : Bool := false
  deriving Repr, DecidableEq

structure ContentCategory where
  id : Nat
  name : Text
  deriving Repr, DecidableEq

/-- What `listingPhotosInclude` selects of a photo. -/
structure ListingPhoto where
  id : Nat
  url : Text
  width : Nat
  height : Nat
  deriving Repr, DecidableEq

/-- A row of `ServiceListingPhoto` or `RequestListingPhoto` with its photo. -/
structure ListingPhotoLink where
  position : Nat
  photo : ListingPhoto
  deriving Repr, DecidableEq

/-- The columns of `Service` that the workspace reads; `κ` are the text ids. -/
structure ServiceContent (κ : Type) where
  id : κ
  providerId : UserId
  categoryId : Nat
  title : Text
  description : Text
  price : Option Centavos
  priceType : PriceType := .fixed
  status : ServiceStatus := .active
  isAvailable : Bool := false
  adminNotes : Option Text := none
  moderationReasonCode : Option String := none
  createdAt : Millis
  updatedAt : Millis
  photos : List ListingPhotoLink := []
  deriving Repr, DecidableEq

/-- The columns of `ServiceRequest` that the workspace reads. -/
structure RequestContent (κ : Type) where
  id : κ
  seekerId : UserId
  targetServiceId : Option κ := none
  categoryId : Nat
  title : Text
  description : Text
  budgetMin : Centavos
  budgetMax : Centavos
  urgency : Text
  status : RequestStatus := .open
  adminNotes : Option Text := none
  moderationReasonCode : Option String := none
  createdAt : Millis
  updatedAt : Millis
  photos : List ListingPhotoLink := []
  deriving Repr, DecidableEq

structure ContentOffer (κ : Type) where
  id : OfferId
  requestId : κ
  deriving Repr, DecidableEq

/-- The tables behind the workspace, with the keys that the schema enforces. -/
structure ContentDatabase (κ : Type) where
  users : List ContentOwner
  categories : List ContentCategory
  services : List (ServiceContent κ)
  serviceRequests : List (RequestContent κ)
  offers : List (ContentOffer κ) := []
  /-- `offerId` and status of every booking. -/
  bookings : List (Option OfferId × BookingStatus) := []
  /-- `offerId` and status of every payment attempt. -/
  paymentAttempts : List (Option OfferId × PaymentAttemptStatus) := []
  serviceKeys : (services.map (·.id)).Nodup
  requestKeys : (serviceRequests.map (·.id)).Nodup
  providers : ∀ item ∈ services, ∃ user ∈ users, user.id = item.providerId
  seekers : ∀ item ∈ serviceRequests, ∃ user ∈ users, user.id = item.seekerId
  serviceCategories : ∀ item ∈ services, ∃ category ∈ categories, category.id = item.categoryId
  requestCategories : ∀ item ∈ serviceRequests, ∃ category ∈ categories, category.id = item.categoryId

inductive ContentStatus where
  | service (status : ServiceStatus)
  | request (status : RequestStatus)
  deriving Repr, DecidableEq

/-- What `readPublicContent` returns. -/
structure WorkspaceContent (κ : Type) where
  id : κ
  contentType : PublicContentType
  photos : List ListingPhoto
  title : Text
  description : Text
  category : Text
  owner : ContentOwner
  status : ContentStatus
  visibility : String
  moderationReasonCode : Option String
  adminNotes : Option Text
  createdAt : Millis
  updatedAt : Millis
  price : Option Centavos
  priceType : Option PriceType
  budgetMin : Option Centavos
  budgetMax : Option Centavos
  urgency : Option Text
  canRemove : Bool
  canRestore : Bool
  actionBlock : Option String
  deriving Repr, DecidableEq

structure ContentQuery where
  page : Nat := 1
  limit : Nat := 10
  contentType : Option PublicContentType := none
  search : Option Text := none
  deriving Repr, DecidableEq

structure ContentPagination where
  page : Nat
  limit : Nat
  total : Nat
  totalPages : Nat
  deriving Repr, DecidableEq

structure ContentPage (κ : Type) where
  items : List (WorkspaceContent κ)
  pagination : ContentPagination
  deriving Repr, DecidableEq

/-- `select: { id: true, updatedAt: true }`. -/
structure ContentVersion (κ : Type) where
  id : κ
  updatedAt : Millis
  deriving Repr, DecidableEq

/-- A selected row with its type. -/
structure ContentItem (κ : Type) extends ContentVersion κ where
  type : PublicContentType
  deriving Repr, DecidableEq

section Reading

variable {κ : Type} [DecidableEq κ]

/-- `withListingPhotos`, of the links `orderBy: { position: 'asc' }`. -/
def withListingPhotos (links : List ListingPhotoLink) : List ListingPhoto :=
  (links.insertionSort fun a b => a.position ≤ b.position).map (·.photo)

/-- The conditions on the owner of visible content. -/
def ContentOwner.shown (owner : ContentOwner) : Bool :=
  owner.isActive && owner.moderationStatus == .active && owner.emailVerified
    && owner.verificationStatus == .approved

/-- The price types that `readPublicContent` lists. -/
def PriceType.listed : PriceType → Bool
  | .fixed | .perHour | .perDay | .perProject => true
  | .startsAt | .perSession | .custom | .byAgreement => false

def ServiceContent.content (item : ServiceContent κ) (provider : ContentOwner) (category : ContentCategory) :
    WorkspaceContent κ :=
  let visible := item.status == .active && item.isAvailable && provider.shown && item.priceType.listed
    && item.price.any (5000 ≤ ·)
  { id := item.id
    contentType := .serviceListing
    photos := withListingPhotos item.photos
    title := item.title
    description := item.description
    category := category.name
    owner := provider
    status := .service item.status
    visibility :=
      if visible then "Public"
      else if item.status = .inactive then "Paused"
      else if item.moderationReasonCode = some "ADMIN_REMOVED" then "Removed by admin"
      else "Hidden"
    moderationReasonCode := item.moderationReasonCode
    adminNotes := item.adminNotes
    createdAt := item.createdAt
    updatedAt := item.updatedAt
    price := item.price
    priceType := some item.priceType
    budgetMin := none
    budgetMax := none
    urgency := none
    canRemove := item.status == .active || item.status == .inactive
    canRestore := item.status == .suspended && item.moderationReasonCode == some "ADMIN_REMOVED"
    actionBlock := none }

/-- With the numbers of bookings and payments that are linked to the request. -/
def RequestContent.content (item : RequestContent κ) (seeker : ContentOwner) (category : ContentCategory)
    (bookings payments : Nat) : WorkspaceContent κ :=
  let idle := bookings == 0 && payments == 0
  let visible := item.status == .open && idle && seeker.shown
  { id := item.id
    contentType := .serviceRequest
    photos := withListingPhotos item.photos
    title := item.title
    description := item.description
    category := category.name
    owner := seeker
    status := .request item.status
    visibility :=
      if visible then "Public"
      else if item.moderationReasonCode = some "ADMIN_REMOVED" then "Removed by admin"
      else if item.status = .closed then "Paused"
      else if idle = false then "In booking / payment"
      else "Hidden"
    moderationReasonCode := item.moderationReasonCode
    adminNotes := item.adminNotes
    createdAt := item.createdAt
    updatedAt := item.updatedAt
    price := none
    priceType := none
    budgetMin := some item.budgetMin
    budgetMax := some item.budgetMax
    urgency := some item.urgency
    canRemove := (item.status == .open || item.status == .closed) && idle
    canRestore := item.status == .canceled && item.moderationReasonCode == some "ADMIN_REMOVED" && idle
    actionBlock :=
      if idle = false then some "Handle the linked booking or payment in Disputes & Reports first."
      else none }

/-- A required relation without its row. -/
def inconsistentQueryResult : HttpError :=
  httpError "Inconsistent query result: a required relation returned null" 500

namespace ContentDatabase

variable (db : ContentDatabase κ)

def linkedBookings (offerIds : List OfferId) : Nat :=
  db.bookings.countP fun (offerId, status) => offerId.any (offerIds.contains ·)
    && status != .declined && status != .canceled && status != .removed

def linkedPayments (offerIds : List OfferId) : Nat :=
  db.paymentAttempts.countP fun (offerId, status) => offerId.any (offerIds.contains ·)
    && (status == .pending || status == .succeeded || status == .refundRequired)

def readPublicContent (type : PublicContentType) (id : κ) : Except HttpError (Option (WorkspaceContent κ)) :=
  match type with
  | .serviceListing =>
      match db.services.find? (·.id == id) with
      | none => return none
      | some item => do
          let provider ← orThrow (db.users.find? (·.id == item.providerId)) inconsistentQueryResult
          let category ← orThrow (db.categories.find? (·.id == item.categoryId)) inconsistentQueryResult
          if item.status = .deleted then return none
          else return some (item.content provider category)
  | .serviceRequest =>
      match db.serviceRequests.find? (·.id == id) with
      | none => return none
      | some item => do
          let seeker ← orThrow (db.users.find? (·.id == item.seekerId)) inconsistentQueryResult
          let category ← orThrow (db.categories.find? (·.id == item.categoryId)) inconsistentQueryResult
          if item.targetServiceId.isSome then return none
          else
            let offerIds := (db.offers.filter (·.requestId == item.id)).map (·.id)
            return some (item.content seeker category (db.linkedBookings offerIds) (db.linkedPayments offerIds))

end ContentDatabase

end Reading

section Listing

variable {κ : Type} [LinearOrder κ]

/-- `matches`, where `contains` is the database's `contains` with `mode: "insensitive"`. -/
def ContentQuery.searches (query : ContentQuery) (contains : Text → Text → Bool) (title description : Text) : Bool :=
  match query.search.map (Runs.trim isSpace) with
  | none | some [] => true
  | some text => contains title text || contains description text

/-- `orderBy: [{ updatedAt: "desc" }, { id: "asc" }]`. -/
def ContentVersion.newest (a b : ContentVersion κ) : Prop :=
  b.updatedAt < a.updatedAt ∨ (a.updatedAt = b.updatedAt ∧ a.id ≤ b.id)

instance : DecidableRel (@ContentVersion.newest κ _) :=
  fun a b => inferInstanceAs (Decidable (b.updatedAt < a.updatedAt ∨ (a.updatedAt = b.updatedAt ∧ a.id ≤ b.id)))

def findMany (rows : List (ContentVersion κ)) (take : Nat) : List (ContentVersion κ) :=
  (rows.insertionSort ContentVersion.newest).take take

/-- The comparison of the merge; the difference of the instants decides unless it is 0. -/
def compareItems (localeCompare : κ → κ → Int) (a b : ContentItem κ) : Int :=
  let difference := (b.updatedAt : Int) - a.updatedAt
  if difference ≠ 0 then difference else localeCompare a.id b.id

namespace ContentDatabase

variable (db : ContentDatabase κ) (contains : Text → Text → Bool)

/-- The rows under `serviceWhere`, none when only requests are asked for. -/
def serviceVersions (query : ContentQuery) : List (ContentVersion κ) :=
  if query.contentType = some .serviceRequest then []
  else (db.services.filter fun item =>
    item.status != .deleted && query.searches contains item.title item.description).map fun item =>
      ⟨item.id, item.updatedAt⟩

/-- The rows under `requestWhere`, none when only listings are asked for. -/
def requestVersions (query : ContentQuery) : List (ContentVersion κ) :=
  if query.contentType = some .serviceListing then []
  else (db.serviceRequests.filter fun item =>
    item.targetServiceId.isNone && query.searches contains item.title item.description).map fun item =>
      ⟨item.id, item.updatedAt⟩

def listWorkspaceContent (localeCompare : κ → κ → Int) (query : ContentQuery) :
    Except HttpError (ContentPage κ) := do
  let take := query.page * query.limit
  let services := findMany (db.serviceVersions contains query) take
  let requests := findMany (db.requestVersions contains query) take
  let selected := ((services.map (ContentItem.mk · .serviceListing)
      ++ requests.map (ContentItem.mk · .serviceRequest)).insertionSort
        fun a b => compareItems localeCompare a b ≤ 0).take take |>.drop ((query.page - 1) * query.limit)
  let items ← selected.mapM fun item => db.readPublicContent item.type item.id
  let total := (db.serviceVersions contains query).length + (db.requestVersions contains query).length
  return {
    items := items.filterMap id
    pagination := {
      page := query.page, limit := query.limit, total
      totalPages := (total + query.limit - 1) / query.limit } }

end ContentDatabase

end Listing

end ServiceHub
