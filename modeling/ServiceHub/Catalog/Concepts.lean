import ServiceHub.Catalog.Categories

/-! # Active categories keep their concepts apart

What a call has found under its locks stays true to its commit: every write of another call that could
spoil it needs one of these locks.
-/

namespace ServiceHub

open Guard Threads

section Calls

variable {u : Unicode} {hashtext : Text → Int} {categories categories' : List Category} {current next row : Category}
  {call other c : CategoryCall} {continued : Option CategoryCall} {dependents : Dependents} {name : Text}

/-- An update of a row that is still as it was read. -/
structure Planned (u : Unicode) (categories : List Category) (current next : Category) : Prop where
  row : current ∈ categories
  same : next.id = current.id
  fallback : isFallbackCategory u current.name = true → next.name = otherServicesCategory ∧ next.isActive = true
  changes : next.name = current.name → next.isActive ≠ current.isActive

/-- No other active category has the concept. -/
def Unrivalled (u : Unicode) (categories : List Category) (current next : Category) : Prop :=
  ∀ row ∈ categories, row.id ≠ current.id → row.isActive = true → categoryConceptKey u row.name ≠ categoryConceptKey u next.name

/-- What a call relies on. -/
def CategoryCall.Sound (u : Unicode) (categories : List Category) : CategoryCall → Prop
  | .lockConcept current next | .compare current next => Planned u categories current next
  | .count current next | .write current next => Planned u categories current next
      ∧ (current.needsConcept next = true → Unrivalled u categories current next)
  | .create name => ∀ row ∈ categories, categoryConceptKey u row.name ≠ categoryConceptKey u name
  | .lockCategory _ _ | .readCategory _ _ | .lockName _ | .compareName _ => True

/-! ## One statement -/

theorem planUpdate_ok {categoryId : Nat} {input : CategoryInput} (h : planUpdate u categories categoryId input = .ok call) :
    ∃ current next, Planned u categories current next ∧ current.id = categoryId
      ∧ call = if current.needsConcept next then .lockConcept current next else .count current next := by
  simp only [planUpdate, bind_ok, orThrow_ok, rejectIf_ok, pure_ok] at h
  obtain ⟨current, found, -, fallback, -, changes, rfl⟩ := h
  refine ⟨current, _, ?_, by simpa using List.find?_some found, rfl⟩
  constructor
  · exact List.mem_of_find?_eq_some found
  · rfl
  · intro isFallback
    simpa [isFallback] using fallback
  · intro sameName sameActivity
    exact changes ⟨sameName, sameActivity⟩

theorem compareConcepts_ok (h : compareConcepts u categories current next = .ok call) :
    call = .count current next ∧ Unrivalled u categories current next := by
  simp only [compareConcepts, bind_ok, rejectIf_ok, pure_ok] at h
  obtain ⟨-, noDuplicate, rfl⟩ := h
  refine ⟨rfl, fun row listed otherId active sameConcept => noDuplicate ?_⟩
  rw [List.any_eq_true]
  exact ⟨row, by simp [listed, otherId], by simp [sameConcept, active]⟩

theorem compareNew_ok (h : compareNew u categories name = .ok call) :
    call = .create name ∧ ∀ row ∈ categories, categoryConceptKey u row.name ≠ categoryConceptKey u name := by
  unfold compareNew at h
  split at h
  · cases h
  · rename_i none_
    simp only [Except.ok.injEq] at h
    refine ⟨h.symm, fun row listed sameConcept => ?_⟩
    exact List.find?_eq_none.mp none_ row listed (by simp [sameConcept])

/-- What a statement does: it goes on with more knowledge and at most the lock it wanted, or it commits. -/
inductive CategoryStep (u : Unicode) (categories : List Category) : CategoryCall → List Category → Option CategoryCall → Prop where
  | reads {call c : CategoryCall} (sound : call.Sound u categories → c.Sound u categories)
      (locks : ∀ key ∈ c.held u, key ∈ call.held u ∨ call.wanted u = some key) :
      CategoryStep u categories call categories (some c)
  | updates {current next : Category} : CategoryStep u categories (.write current next)
      (Rows.updateWhere (·.id == next.id) (fun row => { row with name := next.name, isActive := next.isActive }) categories) none
  | creates {name : Text} {newId : Nat} (fresh : ∀ row ∈ categories, row.id ≠ newId) :
      CategoryStep u categories (.create name) (categories ++ [⟨newId, name, true⟩]) none

theorem resume_step (h : call.resume u categories dependents = .ok (categories', continued)) :
    CategoryStep u categories call categories' continued := by
  cases call with
  | lockCategory categoryId input =>
      simp only [CategoryCall.resume, Except.ok.injEq, Prod.mk.injEq] at h
      obtain ⟨rfl, rfl⟩ := h
      refine .reads (fun _ => trivial) fun key listed => .inr ?_
      simpa [CategoryCall.held, CategoryCall.wanted, eq_comm] using listed
  | readCategory categoryId input =>
      simp only [CategoryCall.resume, bind_ok, pure_ok, Prod.mk.injEq] at h
      obtain ⟨c, planned, rfl, rfl⟩ := h
      obtain ⟨current, next, plan, rfl, rfl⟩ := planUpdate_ok planned
      split
      · refine .reads (fun _ => plan) fun key listed => .inl ?_
        simpa [CategoryCall.held] using listed
      · rename_i noConcept
        refine .reads (fun _ => ⟨plan, fun needs => absurd needs noConcept⟩) fun key listed => .inl ?_
        simpa [CategoryCall.held, noConcept] using listed
  | lockConcept current next =>
      simp only [CategoryCall.resume, Except.ok.injEq, Prod.mk.injEq] at h
      obtain ⟨rfl, rfl⟩ := h
      refine .reads (fun plan => plan) fun key listed => ?_
      simpa [CategoryCall.held, CategoryCall.wanted, eq_comm] using listed
  | compare current next =>
      simp only [CategoryCall.resume, bind_ok, pure_ok, Prod.mk.injEq] at h
      obtain ⟨c, compared, rfl, rfl⟩ := h
      obtain ⟨rfl, alone⟩ := compareConcepts_ok compared
      refine .reads (fun plan => ⟨plan, fun _ => alone⟩) fun key listed => .inl ?_
      simp only [CategoryCall.held, List.mem_cons] at listed ⊢
      refine listed.imp_right fun concept => ?_
      split at concept
      · simpa using concept
      · simp at concept
  | count current next =>
      simp only [CategoryCall.resume, countDependents, bind_ok, pure_ok, Prod.mk.injEq] at h
      obtain ⟨c, ⟨-, -, rfl⟩, rfl, rfl⟩ := h
      exact .reads (fun sound => sound) fun key listed => .inl listed
  | write current next =>
      simp only [CategoryCall.resume, writeCategory, bind_ok, pure_ok, Prod.mk.injEq] at h
      obtain ⟨written, ⟨-, -, -, -, rfl⟩, rfl, rfl⟩ := h
      exact .updates
  | lockName name =>
      simp only [CategoryCall.resume, Except.ok.injEq, Prod.mk.injEq] at h
      obtain ⟨rfl, rfl⟩ := h
      refine .reads (fun _ => trivial) fun key listed => .inr ?_
      simpa [CategoryCall.held, CategoryCall.wanted, eq_comm] using listed
  | compareName name =>
      simp only [CategoryCall.resume, bind_ok, pure_ok, Prod.mk.injEq] at h
      obtain ⟨c, compared, rfl, rfl⟩ := h
      obtain ⟨rfl, alone⟩ := compareNew_ok compared
      exact .reads (fun _ => alone) fun key listed => .inl listed
  | create name =>
      simp only [CategoryCall.resume, createCategory, bind_ok, rejectIf_ok, pure_ok, Prod.mk.injEq] at h
      obtain ⟨written, ⟨-, free, rfl⟩, rfl, rfl⟩ := h
      refine .creates fun row listed taken => free ?_
      exact List.any_eq_true.mpr ⟨row, listed, by simp [taken]⟩

/-! ## The two writes -/

/-- The table after the update of a row. -/
def written (next : Category) (categories : List Category) : List Category :=
  Rows.updateWhere (·.id == next.id) (fun row => { row with name := next.name, isActive := next.isActive }) categories

theorem Planned.mem_written (plan : Planned u categories current next) (listed : row ∈ written next categories) :
    row = next ∨ (row ∈ categories ∧ row.id ≠ current.id) := by
  obtain ⟨old, there, rfl⟩ := Rows.mem_updateWhere.mp listed
  by_cases here : old.id = next.id
  · left
    simp only [here, beq_self_eq_true, if_true]
  · right
    rw [plan.same] at here
    simpa [plan.same, here] using there

theorem Planned.written_other (plan : Planned u categories current next) (listed : row ∈ categories)
    (otherId : row.id ≠ current.id) : row ∈ written next categories := by
  refine Rows.mem_updateWhere.mpr ⟨row, listed, ?_⟩
  simp [plan.same, otherId]

/-- A change that takes no lock of a concept renames nothing and makes nothing active. -/
theorem same_name (noConcept : current.needsConcept next ≠ true) : next.name = current.name := by
  simp only [Category.needsConcept, Bool.or_eq_true, bne_iff_ne, ne_eq, not_or, not_not] at noConcept
  exact noConcept.1

theorem active_before (noConcept : current.needsConcept next ≠ true) (active : next.isActive = true) :
    current.isActive = true := by
  by_contra inactive
  exact noConcept (by simp [Category.needsConcept, active, inactive])

theorem Planned.unrivalled (plan : Planned u categories current next) (unique : UniqueConcepts u categories)
    (checked : current.needsConcept next = true → Unrivalled u categories current next) (active : next.isActive = true) :
    Unrivalled u categories current next := by
  by_cases needs : current.needsConcept next = true
  · exact checked needs
  · intro row listed otherId rowActive sameConcept
    rw [same_name needs] at sameConcept
    exact otherId (unique row listed current plan.row rowActive (active_before needs active) sameConcept)

theorem UniqueConcepts.updated (unique : UniqueConcepts u categories) (plan : Planned u categories current next)
    (checked : current.needsConcept next = true → Unrivalled u categories current next) :
    UniqueConcepts u (written next categories) := by
  intro a aListed b bListed aActive bActive sameConcept
  rcases plan.mem_written aListed with rfl | ⟨aOld, aOther⟩
  · rcases plan.mem_written bListed with rfl | ⟨bOld, bOther⟩
    · rfl
    · exact absurd sameConcept.symm (plan.unrivalled unique checked aActive b bOld bOther bActive)
  · rcases plan.mem_written bListed with rfl | ⟨bOld, -⟩
    · exact absurd sameConcept (plan.unrivalled unique checked bActive a aOld aOther aActive)
    · exact unique a aOld b bOld aActive bActive sameConcept

theorem UniqueConcepts.created {newId : Nat} (unique : UniqueConcepts u categories)
    (absent : ∀ row ∈ categories, categoryConceptKey u row.name ≠ categoryConceptKey u name) :
    UniqueConcepts u (categories ++ [⟨newId, name, true⟩]) := by
  intro a aListed b bListed aActive bActive sameConcept
  rcases List.mem_append.mp aListed with aOld | aNew
  · rcases List.mem_append.mp bListed with bOld | bNew
    · exact unique a aOld b bOld aActive bActive sameConcept
    · obtain rfl : b = ⟨newId, name, true⟩ := by simpa using bNew
      exact absurd sameConcept (absent a aOld)
  · obtain rfl : a = ⟨newId, name, true⟩ := by simpa using aNew
    rcases List.mem_append.mp bListed with bOld | bNew
    · exact absurd sameConcept.symm (absent b bOld)
    · obtain rfl : b = ⟨newId, name, true⟩ := by simpa using bNew
      rfl

/-! ## The other calls in flight -/

/-- The calls hold no lock in common. -/
def NoSharedLock (u : Unicode) (call other : CategoryCall) : Prop :=
  ∀ key ∈ call.held u, key ∉ other.held u

theorem Planned.kept {current' next' : Category} (plan : Planned u categories current next)
    (plan' : Planned u categories current' next') (otherId : current'.id ≠ current.id) :
    Planned u (written next categories) current' next' where
  row := plan.written_other plan'.row otherId
  same := plan'.same
  fallback := plan'.fallback
  changes := plan'.changes

/-- A row that is written has a new concept, or keeps its own. -/
theorem written_concept {key : Text} (apart : current.needsConcept next = true → categoryConceptKey u next.name ≠ key)
    (absent : current.needsConcept next ≠ true → categoryConceptKey u current.name ≠ key) :
    categoryConceptKey u next.name ≠ key := by
  by_cases needs : current.needsConcept next = true
  · exact apart needs
  · rw [same_name needs]
    exact absent needs

theorem held_concept (needs : current.needsConcept next = true) :
    categoryConceptKey u next.name ∈ (CategoryCall.write current next).held u := by
  simp [CategoryCall.held, needs]

/-- What another call relies on survives an update. -/
theorem CategoryCall.Sound.updated (sound : other.Sound u categories) (plan : Planned u categories current next)
    (apart : NoSharedLock u (.write current next) other) : other.Sound u (written next categories) := by
  have ownRow : categoryLock current.id ∈ (CategoryCall.write current next).held u := by simp [CategoryCall.held]
  have otherRow : ∀ current' next' : Category, categoryLock current'.id ∈ other.held u → current'.id ≠ current.id :=
    fun _ _ held sameId => apart _ ownRow (sameId ▸ held)
  have otherConcept : ∀ key ∈ other.held u, current.needsConcept next = true → categoryConceptKey u next.name ≠ key :=
    fun key held needs sameKey => apart _ (held_concept needs) (sameKey ▸ held)
  -- the search of another update, which this one does not spoil
  have searched : ∀ current' next' : Category, Planned u categories current' next' → current'.id ≠ current.id →
      categoryConceptKey u next'.name ∈ other.held u → Unrivalled u categories current' next' →
      Unrivalled u (written next categories) current' next' := by
    intro current' next' plan' otherId held alone row listed differs active
    rcases plan.mem_written listed with rfl | ⟨old, -⟩
    · exact written_concept (otherConcept _ held) fun noConcept =>
        alone current plan.row (Ne.symm otherId) (active_before noConcept active)
    · exact alone row old differs active
  cases other with
  | lockCategory | readCategory | lockName | compareName => trivial
  | lockConcept current' next' | compare current' next' =>
      exact plan.kept sound (otherRow current' next' (by simp [CategoryCall.held]))
  | count current' next' | write current' next' =>
      obtain ⟨plan', alone⟩ := sound
      have differs := otherRow current' next' (by simp [CategoryCall.held])
      refine ⟨plan.kept plan' differs, fun needs => ?_⟩
      exact searched current' next' plan' differs (by simp [CategoryCall.held, needs]) (alone needs)
  | create name =>
      intro row listed
      rcases plan.mem_written listed with rfl | ⟨old, -⟩
      · exact written_concept (otherConcept _ (by simp [CategoryCall.held])) fun _ => sound current plan.row
      · exact sound row old

/-- What another call relies on survives the creation of a category. -/
theorem CategoryCall.Sound.created {newId : Nat} (sound : other.Sound u categories)
    (apart : NoSharedLock u (.create name) other) : other.Sound u (categories ++ [⟨newId, name, true⟩]) := by
  have concept : ∀ key ∈ other.held u, categoryConceptKey u name ≠ key := by
    intro key held sameKey
    exact apart _ (by simp [CategoryCall.held]) (sameKey ▸ held)
  have planned : ∀ current next : Category, Planned u categories current next →
      Planned u (categories ++ [⟨newId, name, true⟩]) current next := fun current next plan =>
    ⟨List.mem_append_left _ plan.row, plan.same, plan.fallback, plan.changes⟩
  cases other with
  | lockCategory | readCategory | lockName | compareName => trivial
  | lockConcept current next | compare current next => exact planned current next sound
  | count current next | write current next =>
      obtain ⟨plan, alone⟩ := sound
      refine ⟨planned current next plan, fun needs row listed differs active => ?_⟩
      rcases List.mem_append.mp listed with old | new
      · exact alone needs row old differs active
      · obtain rfl : row = ⟨newId, name, true⟩ := by simpa using new
        exact concept _ (by simp [CategoryCall.held, needs])
  | create name' =>
      intro row listed
      rcases List.mem_append.mp listed with old | new
      · exact sound row old
      · obtain rfl : row = ⟨newId, name, true⟩ := by simpa using new
        exact concept _ (by simp [CategoryCall.held])

end Calls

/-! ## Runs -/

section Runs

variable {u : Unicode} {hashtext : Text → Int} {s s' : CategorySystem} {a : CategoryAction} {fallback : Category}

/-- The rows are distinct and unique by concept, the calls sound, the locks exclusive, and a fallback row stays. -/
structure CategorySystem.Consistent (u : Unicode) (hashtext : Text → Int) (s : CategorySystem) : Prop where
  distinct : (s.categories.map Category.id).Nodup
  unique : UniqueConcepts u s.categories
  sound : ∀ call ∈ s.calls, call.Sound u s.categories
  exclusive : ∀ hash, Exclusive (·.holds u hashtext hash) s.calls

theorem CategorySystem.Consistent.apart (consistent : s.Consistent u hashtext) {k : Nat} {call other : CategoryCall}
    (found : s.calls[k]? = some call) (listed : other ∈ s.calls.eraseIdx k) : NoSharedLock u call other := by
  intro key held otherHeld
  have holding : call.holds u hashtext (hashtext key) = true := by
    rw [CategoryCall.holds, List.any_eq_true]
    exact ⟨key, held, by simp⟩
  have free := (consistent.exclusive (hashtext key)).others found holding other listed
  rw [CategoryCall.holds, List.any_eq_false] at free
  exact free key otherHeld (by simp)

/-- A call that ends without a write. -/
theorem CategorySystem.Consistent.ended (consistent : s.Consistent u hashtext) (k : Nat) :
    ({ s with calls := proceed s.calls k none } : CategorySystem).Consistent u hashtext where
  distinct := consistent.distinct
  unique := consistent.unique
  sound call listed := consistent.sound call (List.mem_of_mem_eraseIdx listed)
  exclusive hash := (consistent.exclusive hash).returns

/-- A new call holds no lock and relies on nothing. -/
theorem CategorySystem.Consistent.called (consistent : s.Consistent u hashtext) {call : CategoryCall}
    (unlocked : call.held u = []) (sound : call.Sound u s.categories) :
    ({ s with calls := s.calls ++ [call] } : CategorySystem).Consistent u hashtext where
  distinct := consistent.distinct
  unique := consistent.unique
  sound other listed := by
    rcases List.mem_append.mp listed with old | new
    · exact consistent.sound other old
    · obtain rfl : other = call := by simpa using new
      exact sound
  exclusive hash := by
    have none_ : call.holds u hashtext hash = false := by simp [CategoryCall.holds, unlocked]
    have before : s.calls.countP (·.holds u hashtext hash) ≤ 1 := consistent.exclusive hash
    simpa [Exclusive, none_] using before

/-- The lock that a call goes on with is its own or was free. -/
theorem CategorySystem.Consistent.exclusive_reads (consistent : s.Consistent u hashtext) {k : Nat} {call c : CategoryCall}
    (found : s.calls[k]? = some call) (free : s.waits u hashtext k call = false)
    (locks : ∀ key ∈ c.held u, key ∈ call.held u ∨ call.wanted u = some key) (hash : Int) :
    Exclusive (·.holds u hashtext hash) (proceed s.calls k (some c)) := by
  by_cases holding : call.holds u hashtext hash = true
  · exact (consistent.exclusive hash).proceed found (.inl holding)
  by_cases continuing : c.holds u hashtext hash = true
  · obtain ⟨key, held, same⟩ := List.any_eq_true.mp continuing
    obtain rfl : hashtext key = hash := by simpa using same
    have wants : call.wanted u = some key := by
      refine (locks key held).resolve_left fun own => holding ?_
      exact List.any_eq_true.mpr ⟨key, own, by simp⟩
    have unheld : (s.calls.eraseIdx k).any (·.holds u hashtext (hashtext key)) = false := by
      simpa [CategorySystem.waits, wants] using free
    refine (consistent.exclusive _).proceed found (.inr ?_)
    obtain ⟨bound, here⟩ := List.getElem?_eq_some_iff.mp found
    rw [List.Perm.any_eq (List.getElem_cons_eraseIdx_perm bound).symm, List.any_cons, here, unheld]
    simpa using holding
  · refine (consistent.exclusive hash).leave found fun d goes => ?_
    obtain rfl : c = d := by simpa using goes
    simpa using continuing

theorem CategorySystem.Consistent.resumed (consistent : s.Consistent u hashtext) {k : Nat} {call : CategoryCall}
    {categories : List Category} {continued : Option CategoryCall} (found : s.calls[k]? = some call)
    (free : s.waits u hashtext k call = false) (step : CategoryStep u s.categories call categories continued) :
    (⟨categories, proceed s.calls k continued⟩ : CategorySystem).Consistent u hashtext := by
  have listed : call ∈ s.calls := List.mem_of_getElem? found
  have sound := consistent.sound call listed
  have others : ∀ other ∈ s.calls.eraseIdx k, other.Sound u s.categories ∧ NoSharedLock u call other :=
    fun other there => ⟨consistent.sound other (List.mem_of_mem_eraseIdx there), consistent.apart found there⟩
  cases step with
  | reads goesOn locks =>
      refine ⟨consistent.distinct, consistent.unique, fun other there => ?_, consistent.exclusive_reads found free locks⟩
      dsimp only at there
      rcases mem_proceed_others found there with old | new
      · exact (others other old).1
      · simp only [Option.some.injEq] at new
        exact new ▸ goesOn sound
  | updates =>
      obtain ⟨plan, checked⟩ := sound
      refine ⟨?_, consistent.unique.updated plan checked, fun other there => ?_, fun hash => (consistent.exclusive hash).returns⟩
      · dsimp only
        rw [Rows.map_updateWhere]
        · exact consistent.distinct
        · intro row
          rfl
      · obtain ⟨otherSound, apart⟩ := others other there
        exact otherSound.updated plan apart
  | creates fresh =>
      refine ⟨?_, consistent.unique.created sound, fun other there => ?_, fun hash => (consistent.exclusive hash).returns⟩
      · rw [List.map_append, List.nodup_append]
        refine ⟨consistent.distinct, by simp, fun old there new last sameId => ?_⟩
        obtain ⟨row, rowListed, rfl⟩ := List.mem_map.mp there
        simp only [List.map_cons, List.map_nil, List.mem_singleton] at last
        exact fresh row rowListed (sameId.trans last)
      · obtain ⟨otherSound, apart⟩ := others other there
        exact otherSound.created apart

/-- The fallback row is never the one that an update writes. -/
theorem CategoryStep.keeps_fallback {categories categories' : List Category} {call : CategoryCall}
    {continued : Option CategoryCall} (step : CategoryStep u categories call categories' continued)
    (distinct : (categories.map Category.id).Nodup) (sound : call.Sound u categories)
    (listed : fallback ∈ categories) (named : fallback.name = otherServicesCategory) (active : fallback.isActive = true) :
    fallback ∈ categories' := by
  cases step with
  | reads => exact listed
  | creates => exact List.mem_append_left _ listed
  | @updates current next =>
      obtain ⟨plan, -⟩ := sound
      refine plan.written_other listed fun sameId => ?_
      obtain rfl : fallback = current := List.inj_on_of_nodup_map distinct listed plan.row sameId
      obtain ⟨keepsName, keepsActive⟩ := plan.fallback (by simp [isFallbackCategory, named])
      exact plan.changes (keepsName.trans named.symm) (keepsActive.trans active.symm)

/-- One action of an administrator. -/
theorem CategorySystem.Consistent.next (consistent : s.Consistent u hashtext)
    (step : (categoryMachine u hashtext).next s a = some s') :
    s'.Consistent u hashtext ∧ ∀ fallback ∈ s.categories, fallback.name = otherServicesCategory →
      fallback.isActive = true → fallback ∈ s'.categories := by
  cases a with
  | updateManagedCategory categoryId input =>
      simp only [categoryMachine, CategorySystem.step, Option.some.injEq] at step
      subst step
      exact ⟨consistent.called rfl trivial, fun _ listed _ _ => listed⟩
  | createManagedCategory name =>
      simp only [categoryMachine, CategorySystem.step, Option.some.injEq] at step
      subst step
      exact ⟨consistent.called rfl trivial, fun _ listed _ _ => listed⟩
  | abort k =>
      simp only [categoryMachine, CategorySystem.step, Option.ite_none_right_eq_some, Option.some.injEq] at step
      obtain ⟨-, rfl⟩ := step
      exact ⟨consistent.ended k, fun _ listed _ _ => listed⟩
  | resume k dependents =>
      simp only [categoryMachine, CategorySystem.step, Option.bind_eq_some_iff] at step
      obtain ⟨call, found, step⟩ := step
      split at step
      · cases step
      · rename_i free
        have free : s.waits u hashtext k call = false := by simpa using free
        split at step
        · rename_i categories continued ran
          simp only [Option.some.injEq] at step
          subst step
          have moved := resume_step ran
          refine ⟨consistent.resumed found free moved, fun fallback listed named active => ?_⟩
          exact moved.keeps_fallback consistent.distinct (consistent.sound call (List.mem_of_getElem? found))
            listed named active
        · simp only [Option.some.injEq] at step
          subst step
          exact ⟨consistent.ended k, fun _ listed _ _ => listed⟩

theorem CategorySystem.Consistent.start (initial : (categoryMachine u hashtext).initial s) : s.Consistent u hashtext := by
  obtain ⟨idle, distinct, unique⟩ := initial
  refine ⟨distinct, unique, ?_, ?_⟩
  · simp [idle]
  · intro hash
    simp [Exclusive, idle]

/-- The canonical name is stable and keeps the concept, and no interleaving of the administrators' calls makes two
active categories of one concept or touches the active fallback. -/
theorem category_concepts_unique (u : Unicode) (hashtext : Text → Int) (lawful : u.Lawful) :
    (∀ name, canonicalCategoryName u (canonicalCategoryName u name) = canonicalCategoryName u name
      ∧ categoryConceptKey u (canonicalCategoryName u name) = categoryConceptKey u name)
    ∧ ∀ s s', (categoryMachine u hashtext).initial s →
        Machine.RunUnder (categoryMachine u hashtext) (fun _ _ => True) s s' →
        UniqueConcepts u s'.categories
        ∧ ∀ fallback ∈ s.categories, fallback.name = otherServicesCategory → fallback.isActive = true →
            fallback ∈ s'.categories := by
  refine ⟨fun name => ⟨canonicalCategoryName_idem lawful, categoryConceptKey_canonical lawful⟩, ?_⟩
  intro s s' initial run
  have kept : s'.Consistent u hashtext ∧ ∀ fallback ∈ s.categories, fallback.name = otherServicesCategory →
      fallback.isActive = true → fallback ∈ s'.categories := by
    refine run.invariant (I := fun t => t.Consistent u hashtext ∧ ∀ fallback ∈ s.categories,
      fallback.name = otherServicesCategory → fallback.isActive = true → fallback ∈ t.categories) ?_ ?_
    · rintro t a t' ⟨consistent, stays⟩ - step
      obtain ⟨after, keeps⟩ := consistent.next step
      exact ⟨after, fun fallback listed named active =>
        keeps fallback (stays fallback listed named active) named active⟩
    · exact ⟨.start initial, fun _ listed _ _ => listed⟩
  exact ⟨kept.1.unique, kept.2⟩

/-- The tables for texts in ASCII. -/
def asciiUnicode : Unicode where
  nfkc := id
  toLowerCase := List.map Char.toLower
  isLetterOrNumber := Char.isAlphanum

theorem asciiUnicode_lawful : asciiUnicode.Lawful where
  nfkc_ascii _ _ := rfl
  toLowerCase_ascii _ _ := rfl
  isLetterOrNumber_ascii _ _ := rfl
  nfkc_collapsed _ := rfl

/-- A category is created while an administrator tries to deactivate the fallback. -/
def sampleCategoryCalls : List CategoryAction :=
  [.createManagedCategory "House Cleaning".toList, .updateManagedCategory 0 { isActive := some false },
    .resume 0 {}, .resume 1 {}, .resume 0 {}, .resume 1 {}, .resume 0 { newId := 1 }]

theorem category_concepts_unique_run :
    categoryConceptKey asciiUnicode (canonicalCategoryName asciiUnicode "House Cleaning".toList)
      = categoryConceptKey asciiUnicode "House Cleaning".toList
    ∧ ∃ s', (categoryMachine asciiUnicode fun key => key.length).exec ⟨[⟨0, otherServicesCategory, true⟩], []⟩
        sampleCategoryCalls = some s'
      ∧ s'.categories.map (·.name) = [otherServicesCategory, "Home & Office Cleaning".toList]
      ∧ UniqueConcepts asciiUnicode s'.categories ∧ ⟨0, otherServicesCategory, true⟩ ∈ s'.categories := by
  have sample : ((categoryMachine asciiUnicode fun key => key.length).exec ⟨[⟨0, otherServicesCategory, true⟩], []⟩
        sampleCategoryCalls).any
      (fun s' => s'.categories.map (·.name) == [otherServicesCategory, "Home & Office Cleaning".toList]) = true := by
    decide +kernel
  obtain ⟨names, runs⟩ := category_concepts_unique asciiUnicode (fun key => key.length) asciiUnicode_lawful
  obtain ⟨s', run, listed⟩ := (Option.any_eq_true _ _).mp sample
  have initial : (categoryMachine asciiUnicode fun key => key.length).initial ⟨[⟨0, otherServicesCategory, true⟩], []⟩ := by
    refine ⟨rfl, by simp, fun a listed b listed' _ _ _ => ?_⟩
    simp_all
  obtain ⟨unique, stays⟩ := runs _ s' initial (.of_exec run)
  exact ⟨(names _).2, s', run, eq_of_beq listed, unique, stays _ (by simp) rfl rfl⟩

end Runs

end ServiceHub
