import ServiceHub.Lib.KeyScan
import ServiceHub.Lib.Machine
import ServiceHub.Lib.Rows
import ServiceHub.Membership.Benefits

/-! # Maintenance of the memberships

`maintainProviderMemberships` reads the providers whose period ends soon in pages of a hundred and
handles each in a transaction of its own. Purchases, bans and deletions come in between, and more
than one run may be under way.
-/

namespace ServiceHub

inductive Milestone where
  | expired | tomorrow | week
  deriving Repr, DecidableEq

/-- The identifier of a reminder, `membership:<user>:<plan>:<period end>:<milestone>`. -/
structure ReminderId where
  userId : UserId
  plan : ProviderPlan
  expiresAt : Millis
  milestone : Milestone
  deriving Repr, DecidableEq

/-- A notification of the maintenance. -/
structure Reminder where
  id : ReminderId
  title : String
  body : String
  link : String := "/subscription"
  deriving Repr, DecidableEq

structure MemberRow where
  id : UserId
  provider : Provider
  deriving Repr, DecidableEq

/-- A run of `maintainProviderMemberships` at the time `now`: the rest of its page, whether the page was full, and
the users it has come to. -/
structure MaintenanceRun where
  now : Millis
  cursor : Option UserId := none
  pending : List MemberRow := []
  more : Bool := true
  considered : List UserId := []
  notificationsCreated : Nat := 0
  deriving Repr, DecidableEq

structure MaintenanceSystem where
  now : Millis
  users : List MemberRow
  /-- Every identifier that an account has ever had. -/
  issued : List UserId
  notifications : List Reminder := []
  /-- The reminders created so far, those of deleted accounts included. -/
  created : List ReminderId := []
  runs : List MaintenanceRun := []
  deriving Repr, DecidableEq

namespace Provider

def horizon (now : Millis) : Millis := now + 8 * dayMs

/-- The filter of the scan, but for the cursor. -/
def scanned (now : Millis) (row : Provider) : Bool :=
  row.role == .user && row.isActive && row.moderationStatus == .active
    && [SubscriptionStatus.active, .cancelled].contains row.subscriptionStatus
    && ((row.subscriptionPlan == .free && row.freePlanExpiresAt.any (· ≤ horizon now) && row.freePlanStartedAt.isSome)
      || ([ProviderPlan.basic, .pro].contains row.subscriptionPlan && row.subscriptionExpiresAt.any (· ≤ horizon now)))

/-- The days that are left, begun days included. -/
def daysLeft (now expiresAt : Millis) : Nat := (expiresAt - now + (dayMs - 1)) / dayMs

/-- The milestone that the scanned row has reached. -/
def milestone (now : Millis) (row : Provider) : Option (ProviderPlan × Millis × Milestone) :=
  let benefits := row.subscriptionBenefits now
  benefits.expiresAt.bind fun expiresAt =>
    let days := daysLeft now expiresAt
    if days = 0 then some (benefits.plan, expiresAt, .expired)
    else if days = 1 then some (benefits.plan, expiresAt, .tomorrow)
    else if days = 7 then some (benefits.plan, expiresAt, .week)
    else none

/-- The row under the lock of the account still is what was scanned. -/
def unchangedSince (plan : ProviderPlan) (expiresAt : Millis) (fresh : Provider) : Bool :=
  fresh.role == .user && fresh.isActive && fresh.deactivatedAt.isNone && fresh.moderationStatus == .active
    && fresh.subscriptionPlan == plan && fresh.expiresAt == some expiresAt

end Provider

def reminderTitle (plan : ProviderPlan) (milestone : Milestone) : String :=
  let label := if plan = .free then "Free Provider plan" else "Provider membership"
  match milestone with
  | .expired => s!"Your {label} has ended"
  | .tomorrow => s!"Your {label} ends tomorrow"
  | .week => s!"Your {label} ends in 7 days"

def reminderBody : Milestone → String
  | .expired => "Existing bookings remain available. Choose Basic or Pro to accept new customers."
  | .tomorrow | .week => "Choose Basic or Pro to continue receiving new customers. There are no automatic charges."

namespace MaintenanceSystem

def find (s : MaintenanceSystem) (id : UserId) : Option MemberRow := s.users.find? (·.id == id)

/-- `createMany` with `skipDuplicates`, and whether the reminder is new. -/
def createReminder (reminder : Reminder) (s : MaintenanceSystem) : MaintenanceSystem × Nat :=
  if s.notifications.any (·.id == reminder.id) then (s, 0)
  else ({ s with notifications := s.notifications ++ [reminder], created := s.created ++ [reminder.id] }, 1)

/-- The transaction for a scanned user. -/
def remind (now : Millis) (id : ReminderId) (s : MaintenanceSystem) : MaintenanceSystem × Nat :=
  match s.find id.userId with
  | none => (s, 0)
  | some fresh =>
      if fresh.provider.unchangedSince id.plan id.expiresAt then
        let users := Rows.updateWhere (·.id == id.userId)
          (fun row => { row with provider := row.provider.maintainMembership now id.plan id.expiresAt }) s.users
        createReminder { id, title := reminderTitle id.plan id.milestone, body := reminderBody id.milestone }
          { s with users }
      else (s, 0)

/-- The body of the loop over a page. -/
def consider (now : Millis) (user : MemberRow) (s : MaintenanceSystem) : MaintenanceSystem × Nat :=
  match user.provider.milestone now with
  | none => (s, 0)
  | some (plan, expiresAt, milestone) => s.remind now ⟨user.id, plan, expiresAt, milestone⟩

/-- The next page of a run. -/
def scanPage (s : MaintenanceSystem) (run : MaintenanceRun) : List MemberRow :=
  KeyScan.page MemberRow.id run.cursor 100 (s.users.filter (·.provider.scanned run.now))

/-- One statement of a run: a page, or the next user of it. -/
def resume (s : MaintenanceSystem) (k : Nat) (run : MaintenanceRun) : Option MaintenanceSystem :=
  match run.pending with
  | user :: pending =>
      let (after, inserted) := s.consider run.now user
      some { after with runs := s.runs.set k { run with
        pending, considered := run.considered ++ [user.id], notificationsCreated := run.notificationsCreated + inserted } }
  | [] =>
      if run.more then
        let users := s.scanPage run
        some { s with runs := s.runs.set k (if users.isEmpty then { run with more := false } else { run with
          cursor := (users.map (·.id)).getLast?, pending := users, more := users.length == 100 }) }
      else none

end MaintenanceSystem

inductive MaintenanceAction where
  | maintainProviderMemberships
  | resume (k : Nat)
  /-- Another transaction on the row: a purchase, an upgrade, a renewal, a ban. -/
  | write (id : UserId) (provider : Provider)
  | register (id : UserId) (provider : Provider)
  | deleteAccount (id : UserId)
  | wait (time : Millis)
  deriving Repr, DecidableEq

namespace MaintenanceSystem

def step (s : MaintenanceSystem) : MaintenanceAction → Option MaintenanceSystem
  | .maintainProviderMemberships => some { s with runs := s.runs ++ [{ now := s.now }] }
  | .resume k => (s.runs[k]?).bind fun run => s.resume k run
  | .write id provider => some { s with users := Rows.updateWhere (·.id == id) (fun row => { row with provider }) s.users }
  | .register id provider =>
      if id ∈ s.issued then none
      else some { s with users := s.users ++ [⟨id, provider⟩], issued := s.issued ++ [id] }
  | .deleteAccount id => some { s with
      users := s.users.filter (·.id != id), notifications := s.notifications.filter (·.id.userId != id) }
  | .wait time => some { s with now := s.now + time }

end MaintenanceSystem

/-- Any set of users, before the first run. -/
def maintenanceMachine : Machine MaintenanceSystem MaintenanceAction where
  initial s := (s.users.map (·.id)).Nodup ∧ (∀ row ∈ s.users, row.id ∈ s.issued)
    ∧ s.created = [] ∧ s.runs = []
  next := MaintenanceSystem.step

end ServiceHub
