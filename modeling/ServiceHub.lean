import ServiceHub.Lib.Guard
import ServiceHub.Lib.Rows
import ServiceHub.Lib.Machine
import ServiceHub.Booking.File
import ServiceHub.Booking.CaseResolution
import ServiceHub.Booking.Commit
import ServiceHub.Booking.Lifecycle
import ServiceHub.Booking.Cancellation
import ServiceHub.Booking.Resolution
import ServiceHub.Booking.System
import ServiceHub.Booking.LifecycleModel
import ServiceHub.Booking.Refinement
import ServiceHub.Booking.Events
import ServiceHub.Booking.Columns
import ServiceHub.Booking.Frame
import ServiceHub.Booking.Books
import ServiceHub.Booking.Coupling
import ServiceHub.Booking.RefundProtocol
import ServiceHub.Booking.RefundConvergence
import ServiceHub.Booking.OpenCases
import ServiceHub.Payment.Attempt
import ServiceHub.Payment.AttemptRefund
import ServiceHub.Market.Payment
import ServiceHub.Market.Offers
import ServiceHub.Market.System
import ServiceHub.Market.Writes
import ServiceHub.Market.Events
import ServiceHub.Booking.OperationStages
import ServiceHub.Booking.CaseRows
import ServiceHub.Booking.Routes
import ServiceHub.Booking.Consent
import ServiceHub.Booking.HoldRestore
import ServiceHub.Booking.Starts
import ServiceHub.Market.Renumbering
import ServiceHub.Market.Bookings
import ServiceHub.Market.Attempts
import ServiceHub.Market.Settlement
import ServiceHub.Market.OneJob
import ServiceHub.Market.QueueOrder
import ServiceHub.Market.QueueRuns
import ServiceHub.Lib.Balance
import ServiceHub.Trust.Ledger
import ServiceHub.Trust.Consistency
import ServiceHub.Lib.Locks
import ServiceHub.Lib.Slots
import ServiceHub.Lib.Journal
import ServiceHub.Locking.Transactions
import ServiceHub.Locking.Order
import ServiceHub.Auth.SignIn
import ServiceHub.Auth.Writes
import ServiceHub.Auth.Sessions
import ServiceHub.Auth.ResetTokens
import ServiceHub.Auth.Captcha
import ServiceHub.Trust.Rewards
import ServiceHub.Membership.Policy
import ServiceHub.Listing.Listings
import ServiceHub.Listing.Events
import ServiceHub.Listing.Capacity
import ServiceHub.Listing.Deletion
import ServiceHub.Listing.Removal
import ServiceHub.Booking.Suspension
import ServiceHub.Market.Suspensions
import ServiceHub.Booking.LastCase
import ServiceHub.Trust.Awards
import ServiceHub.Trust.Closing
import ServiceHub.Membership.Checkout
import ServiceHub.Membership.CheckoutEvents
import ServiceHub.Membership.CheckoutRuns
import ServiceHub.Lib.Relational
import ServiceHub.Account.Tables
import ServiceHub.Account.Purge
import ServiceHub.Account.Verification
import ServiceHub.Account.VerificationRuns
import ServiceHub.Account.Moderation
import ServiceHub.Account.ModerationRuns
import ServiceHub.Lib.NullLogic
import ServiceHub.Membership.Benefits
import ServiceHub.Lib.Runs
import ServiceHub.Catalog.Names
import ServiceHub.Catalog.Categories
import ServiceHub.Catalog.Concepts
import ServiceHub.Lib.KeyScan
import ServiceHub.Membership.Maintenance
import ServiceHub.Membership.MaintenanceRuns
import ServiceHub.Lib.Calendar
import ServiceHub.Membership.Billing
import ServiceHub.Booking.Renumbers
import ServiceHub.Booking.RequestStatus
import ServiceHub.Market.Starts
import ServiceHub.Market.Waitlist
import ServiceHub.Market.Capture
import ServiceHub.Market.Selection
import ServiceHub.Market.SelectionRuns
import ServiceHub.Market.Keys
import ServiceHub.Market.Finalization
import ServiceHub.Market.HoldOwnership
import ServiceHub.Market.HoldRuns
import ServiceHub.Market.Earnings
import ServiceHub.Market.EarningTotals
import ServiceHub.Market.PaymentRecords
import ServiceHub.Market.Workload
import ServiceHub.Market.Estimates
import ServiceHub.Lib.Joins
import ServiceHub.Lib.Histories
import ServiceHub.Lib.Pages
import ServiceHub.Content.Workspace
import ServiceHub.Content.Paging
import ServiceHub.Content.Cases
import ServiceHub.Content.Reviews
import ServiceHub.Content.SharedServices
import ServiceHub.Lib.Spelled
import ServiceHub.Content.Moderation
import ServiceHub.Content.Evasion
import ServiceHub.Account.Deletion
import ServiceHub.Booking.RefundHolds
import ServiceHub.Booking.Reservations
import ServiceHub.Booking.ReservationWrites
import ServiceHub.Booking.ReservedOutcomes
