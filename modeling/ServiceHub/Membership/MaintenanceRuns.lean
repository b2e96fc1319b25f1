import ServiceHub.Membership.Maintenance

/-! # Maintenance is safe and visits everybody

A transaction of the maintenance touches one row, and only when its period has ended; the pages of a run
reach every row that stays as it is.
-/

namespace ServiceHub

open KeyScan

section Transactions

variable {s s' : MaintenanceSystem} {now time : Millis} {id : ReminderId} {row user : MemberRow} {n : Nat}

/-- The rows after the transaction for a scanned user. -/
def maintained (now : Millis) (id : ReminderId) (users : List MemberRow) : List MemberRow :=
  Rows.updateWhere (·.id == id.userId)
    (fun row => { row with provider := row.provider.maintainMembership now id.plan id.expiresAt }) users

/-- What considering a user may do. -/
inductive Reminded (now : Millis) (s : MaintenanceSystem) (user : MemberRow) : MaintenanceSystem → Prop where
  | nothing : Reminded now s user s
  | again (id : ReminderId) (of : id.userId = user.id) : Reminded now s user { s with users := maintained now id s.users }
  | new (reminder : Reminder) (of : reminder.id.userId = user.id) (present : ∃ row ∈ s.users, row.id = user.id)
      (absent : ∀ other ∈ s.notifications, other.id ≠ reminder.id) :
      Reminded now s user { s with
        users := maintained now reminder.id s.users, notifications := s.notifications ++ [reminder]
        created := s.created ++ [reminder.id] }

theorem consider_reminded : Reminded now s user (s.consider now user).1 := by
  unfold MaintenanceSystem.consider
  split
  · exact .nothing
  · rename_i plan expiresAt milestone reached
    unfold MaintenanceSystem.remind
    split
    · exact .nothing
    · rename_i fresh found
      split
      · unfold MaintenanceSystem.createReminder
        dsimp only
        split
        · exact .again ⟨user.id, plan, expiresAt, milestone⟩ rfl
        · rename_i free
          refine .new ⟨⟨user.id, plan, expiresAt, milestone⟩, _, _, _⟩ rfl ?_ fun other listed same => ?_
          · exact ⟨fresh, List.mem_of_find?_eq_some found, by simpa using List.find?_some found⟩
          · exact free (List.any_eq_true.mpr ⟨other, listed, by simp [same]⟩)
      · exact .nothing

/-- Only a period that has ended is marked. -/
theorem maintainMembership_cases (now : Millis) (plan : ProviderPlan) (expiresAt : Millis) (p : Provider) :
    p.maintainMembership now plan expiresAt = p
    ∨ (p.maintainMembership now plan expiresAt = { p with subscriptionStatus := .expired }
      ∧ p.expiresAt = some expiresAt ∧ expiresAt ≤ now) := by
  unfold Provider.maintainMembership
  split
  · exact .inl rfl
  · split
    · exact .inl rfl
    · rename_i same
      split
      · rename_i lapsed
        exact .inr ⟨rfl, by simp_all, lapsed⟩
      · exact .inl rfl

/-- A period that has ended gives no access, whatever the status says. -/
theorem access_ended {p : Provider} {expiresAt : Millis} (ends : p.expiresAt = some expiresAt) (lapsed : expiresAt ≤ time) :
    p.marketplaceAccess time = false := by
  have ended : ¬ time < expiresAt := Nat.not_lt.mpr lapsed
  simp [Provider.marketplaceAccess, ends, ended]

/-- What the transaction leaves of a row: the row, or the row of an ended period marked as expired. -/
def MarkedAt (now : Millis) (before after : MemberRow) : Prop :=
  after = before ∨ (after = { before with provider := { before.provider with subscriptionStatus := .expired } }
    ∧ ∃ expiresAt, before.provider.expiresAt = some expiresAt ∧ expiresAt ≤ now)

theorem MarkedAt.access {before after : MemberRow} (marked : MarkedAt now before after) (later : now ≤ time) :
    after.provider.marketplaceAccess time = before.provider.marketplaceAccess time := by
  rcases marked with rfl | ⟨rfl, expiresAt, ends, lapsed⟩
  · rfl
  · rw [access_ended ends (Nat.le_trans lapsed later)]
    exact access_ended (p := { before.provider with subscriptionStatus := .expired }) ends (Nat.le_trans lapsed later)

/-- A scanned user's transaction marks its own row at most. -/
theorem find_maintained {key : UserId} (found : s.users.find? (·.id == key) = some row) :
    ∃ row', (maintained now id s.users).find? (·.id == key) = some row' ∧ MarkedAt now row row' := by
  unfold maintained
  rw [Rows.find_updateWhere
    (g := fun row => { row with provider := row.provider.maintainMembership now id.plan id.expiresAt })
    MemberRow.id (fun _ => rfl), found]
  refine ⟨_, rfl, ?_⟩
  dsimp only
  split
  · rcases maintainMembership_cases now id.plan id.expiresAt row.provider with same | ⟨expired, ends, lapsed⟩
    · left
      rw [same]
    · right
      exact ⟨by rw [expired], id.expiresAt, ends, lapsed⟩
  · exact .inl rfl

theorem mem_maintained_other (listed : row ∈ s.users) (other : row.id ≠ id.userId) : row ∈ maintained now id s.users := by
  refine Rows.mem_updateWhere.mpr ⟨row, listed, ?_⟩
  simp [other]

theorem maintained_ids {users : List MemberRow} : (maintained now id users).map (·.id) = users.map (·.id) := by
  apply Rows.map_updateWhere
  intro row
  rfl

end Transactions

/-! ## Runs -/

section Runs

variable {s s' t : MaintenanceSystem} {a : MaintenanceAction} {run : MaintenanceRun} {user : MemberRow} {now : Millis} {k : Nat}

/-- Accounts are told apart for good, no reminder is created twice, and every run has gone through its pages in order. -/
structure MaintenanceSystem.Tidy (s : MaintenanceSystem) : Prop where
  distinct : (s.users.map (·.id)).Nodup
  issued : ∀ row ∈ s.users, row.id ∈ s.issued
  logged : ∀ id ∈ s.created, id.userId ∈ s.issued
  stored : ∀ id ∈ s.created, (∃ row ∈ s.users, row.id = id.userId) → ∃ reminder ∈ s.notifications, reminder.id = id
  once : s.created.Nodup
  visits : ∀ run ∈ s.runs, Visits run.cursor run.considered (run.pending.map (·.id))

/-- The columns of the rows do not matter. -/
theorem MaintenanceSystem.Tidy.rewritten (tidy : s.Tidy) {users : List MemberRow}
    (same : users.map (·.id) = s.users.map (·.id)) : ({ s with users } : MaintenanceSystem).Tidy := by
  have rows : ∀ row ∈ users, ∃ old ∈ s.users, old.id = row.id := by
    intro row listed
    have keyed : row.id ∈ users.map (·.id) := List.mem_map_of_mem listed
    rw [same] at keyed
    exact List.mem_map.mp keyed
  refine ⟨?_, ?_, tidy.logged, ?_, tidy.once, tidy.visits⟩
  · dsimp only
    rw [same]
    exact tidy.distinct
  · intro row listed
    obtain ⟨old, before, keyed⟩ := rows row listed
    exact keyed ▸ tidy.issued old before
  · rintro created there ⟨row, listed, owner⟩
    obtain ⟨old, before, keyed⟩ := rows row listed
    exact tidy.stored created there ⟨old, before, keyed.trans owner⟩

theorem MaintenanceSystem.Tidy.marked (tidy : s.Tidy) (now : Millis) (id : ReminderId) :
    ({ s with users := maintained now id s.users } : MaintenanceSystem).Tidy :=
  tidy.rewritten maintained_ids

theorem MaintenanceSystem.Tidy.reminded (tidy : s.Tidy) (did : Reminded now s user s') : s'.Tidy := by
  cases did with
  | nothing => exact tidy
  | again id of => exact tidy.marked _ _
  | new reminder of present absent =>
      obtain ⟨distinct, issued, logged, stored, once, visits⟩ := tidy.marked now reminder.id
      have fresh : reminder.id ∉ s.created := by
        intro before
        obtain ⟨row, listed, owner⟩ := present
        obtain ⟨other, there, same⟩ := tidy.stored _ before ⟨row, listed, owner.trans of.symm⟩
        exact absent other there same
      refine ⟨distinct, issued, ?_, ?_, ?_, visits⟩
      · intro id listed
        rcases List.mem_append.mp listed with old | new
        · exact logged id old
        · obtain rfl : id = reminder.id := by simpa using new
          obtain ⟨row, there, owner⟩ := present
          rw [of, ← owner]
          exact tidy.issued row there
      · intro id listed owned
        rcases List.mem_append.mp listed with old | new
        · obtain ⟨other, there, same⟩ := stored id old owned
          exact ⟨other, List.mem_append_left _ there, same⟩
        · obtain rfl : id = reminder.id := by simpa using new
          exact ⟨reminder, by simp, rfl⟩
      · exact List.nodup_append.mpr ⟨once, by simp, fun id old other new same => by
          obtain rfl : other = reminder.id := by simpa using new
          exact fresh (same ▸ old)⟩

/-- A run goes on by a page or by a user. -/
theorem resume_cases (h : s.resume k run = some s') :
    (∃ user pending, run.pending = user :: pending
      ∧ ∃ after inserted, Reminded run.now s user after ∧ s' = { after with runs := s.runs.set k { run with
        pending, considered := run.considered ++ [user.id], notificationsCreated := run.notificationsCreated + inserted } })
    ∨ (run.pending = [] ∧ run.more = true ∧ s' = { s with
        runs := s.runs.set k (if (s.scanPage run).isEmpty then { run with more := false } else { run with
          cursor := ((s.scanPage run).map (·.id)).getLast?, pending := s.scanPage run
          more := (s.scanPage run).length == 100 }) }) := by
  unfold MaintenanceSystem.resume at h
  split at h
  · rename_i user pending next
    simp only [Option.some.injEq] at h
    exact .inl ⟨user, pending, next, _, _, consider_reminded, h.symm⟩
  · rename_i done
    simp only [Option.ite_none_right_eq_some, Option.some.injEq] at h
    exact .inr ⟨done, h.1, h.2.symm⟩

/-- What the step makes of the run. -/
theorem scanned_visits (tidy : s.Tidy) (done : run.pending = []) (visits : Visits run.cursor run.considered (run.pending.map (·.id)))
    (nonempty : s.scanPage run ≠ []) :
    Visits (((s.scanPage run).map (·.id)).getLast?) run.considered ((s.scanPage run).map (·.id)) := by
  rw [done] at visits
  apply visits.fetch
  · exact (List.filter_sublist.map MemberRow.id).nodup tidy.distinct
  · intro none_
    exact nonempty (List.map_eq_nil_iff.mp none_)

theorem MaintenanceSystem.Tidy.with_run (tidy : s.Tidy) {run' : MaintenanceRun}
    (visits : Visits run'.cursor run'.considered (run'.pending.map (·.id))) :
    ({ s with runs := s.runs.set k run' } : MaintenanceSystem).Tidy :=
  { tidy with
    visits := fun other listed => by
      rcases List.mem_or_eq_of_mem_set listed with old | rfl
      · exact tidy.visits other old
      · exact visits }

/-- A new account has an identifier of its own, so no reminder of it exists yet. -/
theorem MaintenanceSystem.Tidy.registered (tidy : s.Tidy) {id : UserId} {provider : Provider} (fresh : id ∉ s.issued) :
    ({ s with users := s.users ++ [⟨id, provider⟩], issued := s.issued ++ [id] } : MaintenanceSystem).Tidy := by
  refine ⟨?_, ?_, ?_, ?_, tidy.once, tidy.visits⟩
  · rw [List.map_append, List.nodup_append]
    refine ⟨tidy.distinct, by simp, fun old there new last same => ?_⟩
    obtain ⟨row, listed, rfl⟩ := List.mem_map.mp there
    obtain rfl : new = id := by simpa using last
    exact fresh (same ▸ tidy.issued row listed)
  · intro row listed
    rcases List.mem_append.mp listed with old | new
    · exact List.mem_append_left _ (tidy.issued row old)
    · obtain rfl : row = ⟨id, provider⟩ := by simpa using new
      simp
  · intro created there
    exact List.mem_append_left _ (tidy.logged created there)
  · rintro created there ⟨row, listed, owner⟩
    rcases List.mem_append.mp listed with old | new
    · exact tidy.stored created there ⟨row, old, owner⟩
    · obtain rfl : row = ⟨id, provider⟩ := by simpa using new
      have known := tidy.logged created there
      rw [← owner] at known
      exact absurd known fresh

theorem MaintenanceSystem.Tidy.deleted (tidy : s.Tidy) (id : UserId) :
    ({ s with
      users := s.users.filter (·.id != id), notifications := s.notifications.filter (·.id.userId != id) } :
        MaintenanceSystem).Tidy := by
  refine ⟨(List.filter_sublist.map _).nodup tidy.distinct, ?_, tidy.logged, ?_, tidy.once, tidy.visits⟩
  · intro row listed
    exact tidy.issued row (List.mem_of_mem_filter listed)
  · rintro created there ⟨row, listed, owner⟩
    obtain ⟨before, other⟩ := List.mem_filter.mp listed
    obtain ⟨reminder, stored, rfl⟩ := tidy.stored created there ⟨row, before, owner⟩
    exact ⟨reminder, List.mem_filter.mpr ⟨stored, by simpa [owner] using other⟩, rfl⟩

theorem MaintenanceSystem.Tidy.next (tidy : s.Tidy) (step : maintenanceMachine.next s a = some s') : s'.Tidy := by
  cases a with
  | maintainProviderMemberships =>
      simp only [maintenanceMachine, MaintenanceSystem.step, Option.some.injEq] at step
      subst step
      exact { tidy with
        visits := fun other listed => by
          rcases List.mem_append.mp listed with old | new
          · exact tidy.visits other old
          · obtain rfl : other = { now := s.now } := by simpa using new
            exact .start }
  | resume k =>
      simp only [maintenanceMachine, MaintenanceSystem.step, Option.bind_eq_some_iff] at step
      obtain ⟨run, found, step⟩ := step
      have visits := tidy.visits run (List.mem_of_getElem? found)
      rcases resume_cases step with ⟨user, pending, next, after, inserted, did, rfl⟩ | ⟨done, -, rfl⟩
      · have kept : after.runs = s.runs := by cases did <;> rfl
        rw [next, List.map_cons] at visits
        rw [← kept]
        exact (tidy.reminded did).with_run visits.visit
      · apply tidy.with_run
        split
        · exact visits
        · rename_i nonempty
          exact scanned_visits tidy done visits (by simpa using nonempty)
  | write id provider =>
      simp only [maintenanceMachine, MaintenanceSystem.step, Option.some.injEq] at step
      subst step
      apply tidy.rewritten
      apply Rows.map_updateWhere
      intro row
      rfl
  | register id provider =>
      simp only [maintenanceMachine, MaintenanceSystem.step, Option.ite_none_left_eq_some, Option.some.injEq] at step
      obtain ⟨fresh, rfl⟩ := step
      exact tidy.registered fresh
  | deleteAccount id =>
      simp only [maintenanceMachine, MaintenanceSystem.step, Option.some.injEq] at step
      subst step
      exact tidy.deleted id
  | wait time =>
      simp only [maintenanceMachine, MaintenanceSystem.step, Option.some.injEq] at step
      subst step
      exact { tidy with }

theorem maintenance_tidy (reached : maintenanceMachine.Reachable s) : s.Tidy := by
  refine reached.invariant (fun s start => ?_) fun s a s' tidy step => tidy.next step
  obtain ⟨distinct, issued, created, runs⟩ := start
  exact ⟨distinct, issued, by simp [created], by simp [created], by simp [created], by simp [runs]⟩

/-! ## Everybody is considered -/

/-- The step is the run's own, or leaves the user's row as it is. -/
def Leaves (user : MemberRow) (k : Nat) (s : MaintenanceSystem) (a : MaintenanceAction) : Prop :=
  a = .resume k ∨ (user ∈ s.users → ∀ s', maintenanceMachine.next s a = some s' → user ∈ s'.users)

/-- The run has come to the user, or will, as long as the user's row stays. -/
structure Reaches (user : MemberRow) (now : Millis) (run : MaintenanceRun) (s : MaintenanceSystem) : Prop where
  time : run.now = now
  covers : Covers user.id run.cursor run.considered (run.pending.map (·.id)) run.more
  stays : user ∈ s.users ∨ user.id ∈ run.considered

theorem Reminded.keeps_row {other : MemberRow} (did : Reminded now s other s') (listed : user ∈ s.users)
    (differs : user.id ≠ other.id) : user ∈ s'.users := by
  cases did with
  | nothing => exact listed
  | again id of => exact mem_maintained_other listed (of ▸ differs)
  | new reminder of => exact mem_maintained_other listed (of ▸ differs)

/-- A step of another run or of anybody else leaves the run where it is. -/
theorem other_run (step : maintenanceMachine.next s a = some s') (other : a ≠ .resume k) (found : s.runs[k]? = some run) :
    s'.runs[k]? = some run := by
  cases a with
  | maintainProviderMemberships =>
      simp only [maintenanceMachine, MaintenanceSystem.step, Option.some.injEq] at step
      subst step
      obtain ⟨bound, -⟩ := List.getElem?_eq_some_iff.mp found
      rw [List.getElem?_append_left bound]
      exact found
  | resume j =>
      simp only [maintenanceMachine, MaintenanceSystem.step, Option.bind_eq_some_iff] at step
      obtain ⟨run', at_, step⟩ := step
      have differs : j ≠ k := fun same => other (by rw [same])
      rcases resume_cases step with ⟨user, pending, -, after, inserted, -, rfl⟩ | ⟨-, -, rfl⟩
      · rw [List.getElem?_set_ne differs]
        exact found
      · rw [List.getElem?_set_ne differs]
        exact found
  | write | deleteAccount | wait =>
      simp only [maintenanceMachine, MaintenanceSystem.step, Option.some.injEq] at step
      subst step
      exact found
  | register id provider =>
      simp only [maintenanceMachine, MaintenanceSystem.step, Option.ite_none_left_eq_some, Option.some.injEq] at step
      obtain ⟨-, rfl⟩ := step
      exact found

/-- The run's own step: the user's turn, the turn of another one, or a page. -/
theorem Reaches.resumed (tidy : s.Tidy) (reaches : Reaches user now run s) (scanned : user.provider.scanned now = true)
    (found : s.runs[k]? = some run) (step : s.resume k run = some s') :
    ∃ run', s'.runs[k]? = some run' ∧ Reaches user now run' s' := by
  obtain ⟨bound, -⟩ := List.getElem?_eq_some_iff.mp found
  obtain ⟨time, covers, stays⟩ := reaches
  rcases resume_cases step with ⟨other, pending, next, after, inserted, did, rfl⟩ | ⟨done, more, rfl⟩
  · rw [next, List.map_cons] at covers
    refine ⟨_, List.getElem?_set_self bound, time, covers.visit, ?_⟩
    by_cases turn : user.id = other.id
    · right
      simp [turn]
    · refine stays.imp (fun listed => did.keeps_row listed turn) fun seen => ?_
      exact List.mem_append_left _ seen
  · refine ⟨_, List.getElem?_set_self bound, ?_, ?_, ?_⟩
    · split <;> exact time
    · rw [done, more] at covers
      rcases stays with listed | seen
      · have matching : user ∈ s.users.filter (·.provider.scanned run.now) := by
          rw [List.mem_filter, time]
          exact ⟨listed, scanned⟩
        have distinct : ((s.users.filter (·.provider.scanned run.now)).map MemberRow.id).Nodup :=
          (List.filter_sublist.map MemberRow.id).nodup tidy.distinct
        have fetched : Covers user.id ((s.scanPage run).map (·.id)).getLast? run.considered ((s.scanPage run).map (·.id))
            ((s.scanPage run).length == 100) := covers.fetch distinct matching
        split
        · rename_i empty
          have nobody : s.scanPage run = [] := by simpa using empty
          left
          rw [nobody] at fetched
          rcases fetched with seen | ⟨full, -⟩
          · simpa [done] using seen
          · simp at full
        · exact fetched
      · left
        split <;> exact List.mem_append_left _ seen
    · refine stays.imp (fun listed => listed) fun seen => ?_
      split <;> exact seen

theorem Reaches.next (tidy : s.Tidy) (reaches : Reaches user now run s) (scanned : user.provider.scanned now = true)
    (found : s.runs[k]? = some run) (leaves : Leaves user k s a) (step : maintenanceMachine.next s a = some s') :
    ∃ run', s'.runs[k]? = some run' ∧ Reaches user now run' s' := by
  by_cases own : a = .resume k
  · subst own
    simp only [maintenanceMachine, MaintenanceSystem.step, found, Option.bind_some] at step
    exact reaches.resumed tidy scanned found step
  · have left_ := leaves.resolve_left own
    refine ⟨run, other_run step own found, reaches.time, reaches.covers, ?_⟩
    exact reaches.stays.imp_left fun listed => left_ listed s' step

theorem reaches_run (tidy : s.Tidy) (reaches : Reaches user now run s) (scanned : user.provider.scanned now = true)
    (found : s.runs[k]? = some run) (later : Machine.RunUnder maintenanceMachine (Leaves user k) s t) :
    t.Tidy ∧ ∃ run', t.runs[k]? = some run' ∧ Reaches user now run' t := by
  refine later.invariant (I := fun u => u.Tidy ∧ ∃ run', u.runs[k]? = some run' ∧ Reaches user now run' u) ?_
    ⟨tidy, run, found, reaches⟩
  rintro u a u' ⟨tidy, run', found, reaches⟩ leaves step
  exact ⟨tidy.next step, reaches.next tidy scanned found leaves step⟩

/-- A run's step marks at most the rows whose period has ended at the time of the run. -/
theorem resume_marks (step : maintenanceMachine.next s (.resume k) = some s') :
    ∃ run, s.runs[k]? = some run ∧ ∀ key row, s.find key = some row →
      ∃ row', s'.find key = some row' ∧ MarkedAt run.now row row' := by
  simp only [maintenanceMachine, MaintenanceSystem.step, Option.bind_eq_some_iff] at step
  obtain ⟨run, found, step⟩ := step
  refine ⟨run, found, fun key row there => ?_⟩
  rcases resume_cases step with ⟨user, pending, -, after, inserted, did, rfl⟩ | ⟨-, -, rfl⟩
  · cases did with
    | nothing => exact ⟨row, there, .inl rfl⟩
    | again id of => exact find_maintained there
    | new reminder of => exact find_maintained there
  · exact ⟨row, there, .inl rfl⟩

/-- No reminder is created twice, only an ended period is marked and no access changes, and a run comes exactly once to
every user that matches its scan at the start and stays as it is. -/
theorem maintenance_safe (s : MaintenanceSystem) (reached : maintenanceMachine.Reachable s) :
    s.created.Nodup
    ∧ (∀ k s', maintenanceMachine.next s (.resume k) = some s' → ∃ run, s.runs[k]? = some run ∧ ∀ key row,
        s.find key = some row → ∃ row', s'.find key = some row' ∧ MarkedAt run.now row row'
          ∧ ∀ time, run.now ≤ time → row'.provider.marketplaceAccess time = row.provider.marketplaceAccess time)
    ∧ (∀ s₁ t user run, maintenanceMachine.next s .maintainProviderMemberships = some s₁ → user ∈ s.users →
        user.provider.scanned s.now = true →
        Machine.RunUnder maintenanceMachine (Leaves user s.runs.length) s₁ t → t.runs[s.runs.length]? = some run →
        run.pending = [] → run.more = false → run.considered.count user.id = 1) := by
  have tidy := maintenance_tidy reached
  refine ⟨tidy.once, ?_, ?_⟩
  · intro k s' step
    obtain ⟨run, found, rows⟩ := resume_marks step
    refine ⟨run, found, fun key row there => ?_⟩
    obtain ⟨row', after, marked⟩ := rows key row there
    exact ⟨row', after, marked, fun time later => marked.access later⟩
  · intro s₁ t user run step listed scanned later found done finished
    have started := tidy.next step
    simp only [maintenanceMachine, MaintenanceSystem.step, Option.some.injEq] at step
    subst step
    have reaches : Reaches user s.now { now := s.now } { s with runs := s.runs ++ [{ now := s.now }] } :=
      ⟨rfl, .inr ⟨rfl, rfl⟩, .inl listed⟩
    obtain ⟨ended, run', there, reached⟩ := reaches_run started reaches scanned (by simp) later
    obtain rfl : run = run' := Option.some.inj (found.symm.trans there)
    have visits := ended.visits run (List.mem_of_getElem? found)
    have covers := reached.covers
    rw [done] at visits covers
    rw [finished] at covers
    exact covers.finished visits

/-- A Basic member whose month has ended. -/
def endedMemberOf (id : UserId) : MemberRow :=
  ⟨id, { subscriptionPlan := .basic, subscriptionStartedAt := some 0, subscriptionExpiresAt := some 5, subscriptionUpdatedAt := 0 }⟩

def leaves (user : MemberRow) (k : Nat) (s : MaintenanceSystem) (a : MaintenanceAction) : Bool :=
  a == .resume k || decide (user ∉ s.users) || (s.step a).all fun s' => decide (user ∈ s'.users)

theorem leaves_sound (user : MemberRow) (k : Nat) (s : MaintenanceSystem) (a : MaintenanceAction)
    (h : leaves user k s a = true) : Leaves user k s a := by
  simp only [leaves, Bool.or_eq_true, beq_iff_eq, decide_eq_true_eq, Option.all_eq_true] at h
  rcases h with (own | gone) | stays
  · exact .inl own
  · exact .inr fun listed => absurd listed gone
  · exact .inr fun _ s' next => stays s' next

def sampleMembers : MaintenanceSystem := ⟨7, [endedMemberOf 4, endedMemberOf 6], [4, 6], [], [], []⟩

/-- Another account is deleted between the page and the visits. -/
theorem maintenance_safe_members : ∃ s₁ u u' t run row row',
    maintenanceMachine.next sampleMembers .maintainProviderMemberships = some s₁
    ∧ maintenanceMachine.exec s₁ [.resume 0, .deleteAccount 6] = some u
    ∧ maintenanceMachine.next u (.resume 0) = some u' ∧ maintenanceMachine.next u' (.resume 0) = some t
    ∧ u.find 4 = some row ∧ row.provider.subscriptionStatus = .active
    ∧ u'.find 4 = some row' ∧ row'.provider.subscriptionStatus = .expired
    ∧ (∀ time, 7 ≤ time → row'.provider.marketplaceAccess time = row.provider.marketplaceAccess time)
    ∧ t.runs = [run] ∧ run.pending = [] ∧ run.more = false ∧ run.considered.count 4 = 1
    ∧ t.created.length = 1 ∧ t.created.Nodup := by
  have sample : ∃ s₁ u u' t run row row',
      maintenanceMachine.next sampleMembers .maintainProviderMemberships = some s₁
      ∧ maintenanceMachine.execUnder (leaves (endedMemberOf 4) 0) s₁ [.resume 0, .deleteAccount 6] = some u
      ∧ maintenanceMachine.next u (.resume 0) = some u' ∧ maintenanceMachine.next u' (.resume 0) = some t
      ∧ u.find 4 = some row ∧ row.provider.subscriptionStatus = .active
      ∧ u'.find 4 = some row' ∧ row'.provider.subscriptionStatus = .expired ∧ u.runs.map (·.now) = [7]
      ∧ t.runs = [run] ∧ run.pending = [] ∧ run.more = false ∧ t.created.length = 1 :=
    ⟨_, _, _, _, _, _, _, rfl, rfl, rfl, rfl, rfl, rfl, rfl, rfl, rfl, rfl, rfl, rfl, rfl⟩
  obtain ⟨s₁, u, u', t, run, row, row', started, paged, visited, ended, found, active, found', expired, clock, runs, done,
    last, length⟩ := sample
  have start : maintenanceMachine.Reachable sampleMembers := .start ⟨by decide, by decide, rfl, rfl⟩
  have reached : maintenanceMachine.Reachable u := by
    obtain ⟨s₀, initial, first⟩ := start.next trivial started
    exact ⟨s₀, initial, first.trans (.of_exec (Machine.exec_of_execUnder paged))⟩
  have finished : maintenanceMachine.Reachable t := (reached.next trivial visited).next trivial ended
  obtain ⟨run₀, among, marks⟩ := (maintenance_safe u reached).2.1 0 u' visited
  have dated : run₀.now = 7 := by
    have shown := congrArg (·[0]?) clock
    simpa [among] using shown
  obtain ⟨after, there, -, access⟩ := marks 4 row found
  obtain rfl := Option.some.inj (there.symm.trans found')
  have once := (maintenance_safe sampleMembers start).2.2 s₁ t (endedMemberOf 4) run started (by decide) (by decide)
    (((Machine.RunUnder.of_execUnder (leaves_sound _ 0) paged).step (.inl rfl) visited).step (.inl rfl) ended)
    (by rw [runs]; rfl) done last
  exact ⟨s₁, u, u', t, run, row, after, started, Machine.exec_of_execUnder paged, visited, ended, found, active, found',
    expired, dated ▸ access, runs, done, last, once, length, (maintenance_safe t finished).1⟩

end Runs

end ServiceHub
