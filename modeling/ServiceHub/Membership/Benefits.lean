import ServiceHub.Lib.NullLogic
import ServiceHub.Membership.Policy

/-! # What a membership gives at a time

`subscriptionBenefits` reads one row; `providerMembershipWhere` selects the rows that have access in
a query. Both are the same rule.
-/

namespace ServiceHub

open NullLogic

structure Benefits where
  plan : ProviderPlan
  monthlyPrice : Centavos
  activeListingLimit : Option Nat
  commissionRateBps : Nat
  marketplaceAccess : Bool
  status : SubscriptionStatus
  startsAt : Option Millis
  expiresAt : Option Millis
  trialStarted : Bool
  daysRemaining : Nat
  fullAnalytics : Bool
  featuredPriority : Bool
  deriving Repr, DecidableEq

def ProviderPlan.commissionRateBps : ProviderPlan → Nat
  | .free => 1000
  | .basic => 800
  | .pro => 500

/-- `subscriptionBenefits`. -/
def Provider.subscriptionBenefits (now : Millis) (state : Provider) : Benefits :=
  let access := state.marketplaceAccess now
  let plan := state.subscriptionPlan
  { plan
    monthlyPrice := plan.monthlyPrice, activeListingLimit := plan.activeListingLimit
    commissionRateBps := plan.commissionRateBps
    marketplaceAccess := access
    status := if access = true then
        if state.subscriptionStatus = .cancelled ∧ plan ≠ .free then .cancelled else .active
      else .expired
    startsAt := state.startsAt, expiresAt := state.expiresAt
    trialStarted := state.freePlanStartedAt.isSome
    daysRemaining := match access, state.expiresAt with
      | true, some expiresAt => (expiresAt - now + (dayMs - 1)) / dayMs
      | _, _ => 0
    fullAnalytics := access && plan != .free
    featuredPriority := access && plan == .pro }

/-- `providerMembershipWhere`, as the condition of a query over a user row. -/
def providerMembershipWhere (now : Millis) (row : Provider) : Truth :=
  .any [
    .all [some (row.subscriptionPlan == .free), compare (· ≤ now) row.freePlanStartedAt,
      compare (now < ·) row.freePlanExpiresAt],
    .all [some ([ProviderPlan.basic, .pro].contains row.subscriptionPlan),
      some ([SubscriptionStatus.active, .cancelled].contains row.subscriptionStatus),
      compare (· ≤ now) row.subscriptionStartedAt, compare (now < ·) row.subscriptionExpiresAt]]

section

variable (now : Millis) (row : Provider)

theorem providerMembershipWhere_iff : providerMembershipWhere now row = some true ↔ row.marketplaceAccess now = true := by
  simp only [providerMembershipWhere, Truth.any_true, Truth.all_true, List.mem_cons, List.not_mem_nil, or_false,
    exists_eq_or_imp, exists_eq_left, forall_eq_or_imp, forall_eq, compare_true, Option.some.injEq]
  cases plan : row.subscriptionPlan <;> cases status : row.subscriptionStatus <;>
    simp [Provider.marketplaceAccess, Provider.startsAt, Provider.expiresAt, plan, status]

/-- A benefit needs access. -/
theorem benefits_without_access (none_ : row.marketplaceAccess now = false) :
    (row.subscriptionBenefits now).status = .expired ∧ (row.subscriptionBenefits now).daysRemaining = 0
    ∧ (row.subscriptionBenefits now).fullAnalytics = false ∧ (row.subscriptionBenefits now).featuredPriority = false := by
  unfold Provider.subscriptionBenefits
  simp [none_]

/-- The filter of a query and the rule in memory select the same rows, and report benefits only with access. -/
theorem membership_filter_agrees :
    (providerMembershipWhere now row = some true ↔ (row.subscriptionBenefits now).marketplaceAccess = true)
    ∧ ((row.subscriptionBenefits now).marketplaceAccess = false →
      (row.subscriptionBenefits now).status = .expired ∧ (row.subscriptionBenefits now).daysRemaining = 0
      ∧ (row.subscriptionBenefits now).fullAnalytics = false
      ∧ (row.subscriptionBenefits now).featuredPriority = false) :=
  ⟨providerMembershipWhere_iff now row, benefits_without_access now row⟩

end

end ServiceHub
