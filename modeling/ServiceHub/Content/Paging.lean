import ServiceHub.Content.Workspace

/-! # The pages of the content workspace

The database and the merge sort by one order, so the prefixes that are read contain the page, and every
selected row is still there when it is read again: the pages in a row are the matching content.
-/

namespace ServiceHub

open Guard

/-- The selected row that the content was read for. -/
def WorkspaceContent.item {κ : Type} (c : WorkspaceContent κ) : ContentItem κ :=
  ⟨⟨c.id, c.updatedAt⟩, c.contentType⟩

section Reads

variable {κ ρ : Type} [DecidableEq κ] {db : ContentDatabase κ} {rows : List ρ}

/-- A row of a table with unique keys is found by its key. -/
theorem find_key (key : ρ → κ) (unique : (rows.map key).Nodup) {row : ρ} (listed : row ∈ rows) :
    rows.find? (key · == key row) = some row := by
  apply Rows.find_only listed (by simp)
  intro other found same
  exact List.inj_on_of_nodup_map unique found listed (by simpa using same)

/-- A reference that points to a row finds one. -/
theorem find_reference (key : ρ → Nat) {id : Nat} (points : ∃ row ∈ rows, key row = id) :
    ∃ row, rows.find? (key · == id) = some row := by
  obtain ⟨row, listed, same⟩ := points
  apply Option.isSome_iff_exists.mp
  exact List.find?_isSome.mpr ⟨row, listed, by simpa using same⟩

/-- A listing that is not deleted is read. -/
theorem read_service {row : ServiceContent κ} (listed : row ∈ db.services) (live : row.status ≠ .deleted) :
    ∃ c, db.readPublicContent c.contentType c.id = .ok (some c)
      ∧ c.item = ⟨⟨row.id, row.updatedAt⟩, .serviceListing⟩ := by
  obtain ⟨provider, owner⟩ := find_reference ContentOwner.id (db.providers row listed)
  obtain ⟨category, named⟩ := find_reference ContentCategory.id (db.serviceCategories row listed)
  refine ⟨row.content provider category, ?_, rfl⟩
  change db.readPublicContent .serviceListing row.id = _
  simp only [ContentDatabase.readPublicContent, find_key ServiceContent.id db.serviceKeys listed, orThrow_bind_ok]
  exact ⟨provider, owner, category, named, by simp [live]⟩

/-- A request that is no private inquiry is read. -/
theorem read_request {row : RequestContent κ} (listed : row ∈ db.serviceRequests)
    (public_ : row.targetServiceId = none) : ∃ c, db.readPublicContent c.contentType c.id = .ok (some c)
      ∧ c.item = ⟨⟨row.id, row.updatedAt⟩, .serviceRequest⟩ := by
  obtain ⟨seeker, owner⟩ := find_reference ContentOwner.id (db.seekers row listed)
  obtain ⟨category, named⟩ := find_reference ContentCategory.id (db.requestCategories row listed)
  let offerIds := (db.offers.filter (·.requestId == row.id)).map (·.id)
  refine ⟨row.content seeker category (db.linkedBookings offerIds) (db.linkedPayments offerIds), ?_, rfl⟩
  change db.readPublicContent .serviceRequest row.id = _
  simp only [ContentDatabase.readPublicContent, find_key RequestContent.id db.requestKeys listed, orThrow_bind_ok]
  exact ⟨seeker, owner, category, named, by simp [public_, offerIds]⟩

end Reads

section Order

variable {κ : Type} [LinearOrder κ] {localeCompare : κ → κ → Int} {a b : ContentItem κ}

/-- The order of the workspace, newest first. -/
def ContentItem.newest (a b : ContentItem κ) : Prop := a.toContentVersion.newest b.toContentVersion

instance : DecidableRel (@ContentItem.newest κ _) :=
  fun a b => inferInstanceAs (Decidable (a.toContentVersion.newest b.toContentVersion))

instance : Std.Total (@ContentVersion.newest κ _) where
  total a b := by
    unfold ContentVersion.newest
    obtain newer | same | older := Nat.lt_trichotomy b.updatedAt a.updatedAt
    · exact .inl (.inl newer)
    · obtain le | le := le_total a.id b.id
      · exact .inl (.inr ⟨same.symm, le⟩)
      · exact .inr (.inr ⟨same, le⟩)
    · exact .inr (.inl older)

instance : IsTrans (ContentVersion κ) ContentVersion.newest where
  trans a b c := by
    unfold ContentVersion.newest
    rintro (newer | ⟨same, le⟩) (newer' | ⟨same', le'⟩)
    · exact .inl (Nat.lt_trans newer' newer)
    · exact .inl (same' ▸ newer)
    · exact .inl (same ▸ newer')
    · exact .inr ⟨same.trans same', le.trans le'⟩

instance : Std.Total (@ContentItem.newest κ _) where
  total a b := Std.Total.total (r := ContentVersion.newest) a.toContentVersion b.toContentVersion

instance : IsTrans (ContentItem κ) ContentItem.newest where
  trans a b c := IsTrans.trans (r := ContentVersion.newest) a.toContentVersion b.toContentVersion c.toContentVersion

/-- The merge compares as the database sorts. -/
theorem compareItems_nonpos (alike : ∀ a b, localeCompare a b ≤ 0 ↔ a ≤ b) :
    compareItems localeCompare a b ≤ 0 ↔ a.newest b := by
  have older : ∀ t u : Nat, (u : Int) - t ≠ 0 → t ≠ u ∧ ((u : Int) - t ≤ 0 ↔ u < t) := by omega
  unfold compareItems ContentItem.newest ContentVersion.newest
  by_cases same : (b.updatedAt : Int) - a.updatedAt = 0
  · have equal : a.updatedAt = b.updatedAt := Int.ofNat_inj.mp (Int.sub_eq_zero.mp same).symm
    simp [equal, alike]
  · obtain ⟨differ, sign⟩ := older a.updatedAt b.updatedAt same
    simp [same, sign, differ]

end Order

section Matching

variable {κ : Type} {db : ContentDatabase κ} {contains : Text → Text → Bool} {query : ContentQuery}

/-- The rows that a query matches, from both tables. -/
def ContentDatabase.matching (db : ContentDatabase κ) (contains : Text → Text → Bool) (query : ContentQuery) :
    List (ContentItem κ) :=
  (db.serviceVersions contains query).map (ContentItem.mk · .serviceListing)
    ++ (db.requestVersions contains query).map (ContentItem.mk · .serviceRequest)

/-- No row matches twice. -/
theorem matching_nodup : ((db.matching contains query).map fun item => (item.type, item.id)).Nodup := by
  have services : ((db.serviceVersions contains query).map (·.id)).Nodup := by
    unfold ContentDatabase.serviceVersions
    split
    · simp
    · rw [List.map_map]
      exact db.serviceKeys.sublist (List.filter_sublist.map _)
  have requests : ((db.requestVersions contains query).map (·.id)).Nodup := by
    unfold ContentDatabase.requestVersions
    split
    · simp
    · rw [List.map_map]
      exact db.requestKeys.sublist (List.filter_sublist.map _)
  simp only [ContentDatabase.matching, List.map_append, List.map_map]
  refine List.nodup_append.mpr ⟨?_, ?_, ?_⟩
  · exact List.Nodup.of_map Prod.snd (by simpa [Function.comp_def] using services)
  · exact List.Nodup.of_map Prod.snd (by simpa [Function.comp_def] using requests)
  · intro key listing other request same
    obtain ⟨_, -, rfl⟩ := List.mem_map.mp listing
    obtain ⟨_, -, rfl⟩ := List.mem_map.mp request
    simp at same

end Matching

section Pages

variable {κ : Type} [LinearOrder κ] {db : ContentDatabase κ} {contains : Text → Text → Bool}
  {localeCompare : κ → κ → Int} {query : ContentQuery}

/-- A query finds `all`, newest first, and cuts it into the pages. -/
structure PagedExactly (query : ContentQuery) (matching : List (ContentItem κ)) (all : List (WorkspaceContent κ))
    (totalPages : Nat) (pages : Nat → ContentPage κ) : Prop where
  matching : (all.map (·.item)).Perm matching
  once : (all.map fun c => (c.contentType, c.id)).Nodup
  ordered : all.Pairwise fun a b => b.updatedAt < a.updatedAt ∨ (a.updatedAt = b.updatedAt ∧ a.id ≤ b.id)
  joined : ((List.range' 1 totalPages).flatMap fun page => (pages page).items) = all
  full : ∀ page, 0 < page → page < totalPages → (pages page).items.length = query.limit
  filled : ∀ page, 0 < page → ((pages page).items ≠ [] ↔ page ≤ totalPages)
  counted : ∀ page, 0 < page → (pages page).pagination = ⟨page, query.limit, all.length, totalPages⟩

/-- Both tables sorted, and merged. -/
def ContentDatabase.merged (db : ContentDatabase κ) (contains : Text → Text → Bool) (query : ContentQuery) :
    List (ContentItem κ) :=
  (((db.serviceVersions contains query).insertionSort ContentVersion.newest).map (ContentItem.mk · .serviceListing)
    ++ ((db.requestVersions contains query).insertionSort ContentVersion.newest).map
      (ContentItem.mk · .serviceRequest)).insertionSort ContentItem.newest

theorem merged_perm : (db.merged contains query).Perm (db.matching contains query) :=
  (List.perm_insertionSort _ _).trans
    (((List.perm_insertionSort _ _).map _).append ((List.perm_insertionSort _ _).map _))

theorem sorted_items (type : PublicContentType) (rows : List (ContentVersion κ)) :
    ((rows.insertionSort ContentVersion.newest).map (ContentItem.mk · type)).Pairwise ContentItem.newest :=
  List.pairwise_map.mpr (List.pairwise_insertionSort _ rows)

/-- The page that is cut from the prefixes is the page of the whole merge. -/
theorem selected_eq (alike : ∀ a b, localeCompare a b ≤ 0 ↔ a ≤ b) (take : Nat) :
    (((findMany (db.serviceVersions contains query) take).map (ContentItem.mk · .serviceListing)
      ++ (findMany (db.requestVersions contains query) take).map (ContentItem.mk · .serviceRequest)).insertionSort
        fun a b => compareItems localeCompare a b ≤ 0).take take = (db.merged contains query).take take := by
  have same : ∀ items : List (ContentItem κ),
      items.insertionSort (fun a b => compareItems localeCompare a b ≤ 0) = items.insertionSort ContentItem.newest := by
    intro items
    have congr_ := List.map_insertionSort (r := fun a b => compareItems localeCompare a b ≤ 0)
      (s := ContentItem.newest) id items fun a _ b _ => compareItems_nonpos alike
    simpa using congr_
  rw [same, findMany, findMany, List.map_take, List.map_take]
  exact Pages.take_insertionSort (sorted_items _ _) (sorted_items _ _)

/-- Every matching row is read. -/
theorem matching_read {item : ContentItem κ} (h : item ∈ db.matching contains query) :
    ∃ c, db.readPublicContent c.contentType c.id = .ok (some c) ∧ c.item = item := by
  obtain listing | request := List.mem_append.mp h
  · obtain ⟨version, found, rfl⟩ := List.mem_map.mp listing
    unfold ContentDatabase.serviceVersions at found
    split at found
    · simp at found
    · obtain ⟨row, selected, rfl⟩ := List.mem_map.mp found
      simp only [List.mem_filter, Bool.and_eq_true, bne_iff_ne, ne_eq] at selected
      exact read_service selected.1 selected.2.1
  · obtain ⟨version, found, rfl⟩ := List.mem_map.mp request
    unfold ContentDatabase.requestVersions at found
    split at found
    · simp at found
    · obtain ⟨row, selected, rfl⟩ := List.mem_map.mp found
      simp only [List.mem_filter, Bool.and_eq_true, Option.isNone_iff_eq_none] at selected
      exact read_request selected.1 selected.2.1

/-- The pages of a query, in order, are the matching listings and requests together, each once, newest first;
every page but the last is full, and the pagination counts them. -/
theorem workspace_pages_exact (db : ContentDatabase κ) (contains : Text → Text → Bool)
    (localeCompare : κ → κ → Int) (alike : ∀ a b, localeCompare a b ≤ 0 ↔ a ≤ b) (query : ContentQuery)
    (positive : 0 < query.limit) : ∃ all totalPages pages,
      (∀ page, 0 < page → db.listWorkspaceContent contains localeCompare { query with page } = .ok (pages page))
        ∧ (∀ c ∈ all, db.readPublicContent c.contentType c.id = .ok (some c))
        ∧ PagedExactly query (db.matching contains query) all totalPages pages := by
  have sources : ∀ item ∈ db.merged contains query, ∃ c,
      db.readPublicContent c.contentType c.id = .ok (some c) ∧ c.item = item :=
    fun item listed => matching_read (merged_perm.mem_iff.mp listed)
  obtain ⟨all, items, readable⟩ := Pages.exists_map sources
  have matching : (all.map (·.item)).Perm (db.matching contains query) := items ▸ merged_perm
  have total : (db.serviceVersions contains query).length + (db.requestVersions contains query).length
      = all.length := by
    have length := matching.length_eq
    simpa [ContentDatabase.matching] using length.symm
  refine ⟨all, Pages.count query.limit all.length, fun page => {
    items := Pages.slice query.limit page all
    pagination := ⟨page, query.limit, all.length, Pages.count query.limit all.length⟩ }, ?_, readable, ?_⟩
  · intro page first
    have services : db.serviceVersions contains { query with page } = db.serviceVersions contains query := rfl
    have requests : db.requestVersions contains { query with page } = db.requestVersions contains query := rfl
    have selected : ((db.merged contains query).take (page * query.limit)).drop ((page - 1) * query.limit)
        = (Pages.slice query.limit page all).map (·.item) := by
      rw [← items]
      exact Pages.slice_map _
    have read : ((Pages.slice query.limit page all).map (·.item)).mapM
        (fun item => db.readPublicContent item.type item.id) = .ok ((Pages.slice query.limit page all).map some) := by
      rw [List.mapM_map]
      exact Pages.mapM_ok fun c listed => readable c (Pages.mem_of_mem_slice listed)
    simp only [ContentDatabase.listWorkspaceContent, services, requests, selected_eq alike, selected, total, bind_ok,
      pure_ok]
    exact ⟨_, read, by simp [Pages.count, List.filterMap_map]⟩
  · exact {
      matching
      once := by
        have keys := (matching.map fun item => (item.type, item.id)).nodup_iff.mpr matching_nodup
        simpa [Function.comp_def, WorkspaceContent.item] using keys
      ordered := by
        have sorted : (all.map (·.item)).Pairwise ContentItem.newest :=
          items ▸ List.pairwise_insertionSort ContentItem.newest _
        exact List.pairwise_map.mp sorted
      joined := Pages.all_slices positive
      full := fun page => Pages.slice_full positive
      filled := fun page => Pages.slice_nonempty_iff positive
      counted := fun _ _ => rfl }

end Pages

/-- Two listings and a request that has the id and the time of one of them. -/
def sampleWorkspace : ContentDatabase Nat where
  users := [{ id := 1, name := "Ana".toList, email := "ana@example.test".toList }]
  categories := [⟨3, "Plumbing".toList⟩]
  services := [
    { id := 4, providerId := 1, categoryId := 3, title := "Faucets".toList, description := [], price := some 60000
      createdAt := 5, updatedAt := 10 },
    { id := 7, providerId := 1, categoryId := 3, title := "Drains".toList, description := [], price := none
      createdAt := 5, updatedAt := 30 },
    { id := 8, providerId := 1, categoryId := 3, title := "Pipes".toList, description := [], price := none
      status := .deleted, createdAt := 5, updatedAt := 40 }]
  serviceRequests := [
    { id := 7, seekerId := 1, categoryId := 3, title := "Leak".toList, description := [], budgetMin := 5000
      budgetMax := 9000, urgency := [], createdAt := 6, updatedAt := 30 }]
  serviceKeys := by decide
  requestKeys := by decide
  providers := by simp
  seekers := by simp
  serviceCategories := by simp
  requestCategories := by simp

theorem workspace_pages_exact_three : ∃ all totalPages pages,
    (sampleWorkspace.matching (fun _ _ => true) {}).length = 3
      ∧ (∀ page, 0 < page → sampleWorkspace.listWorkspaceContent (fun _ _ => true) (fun a b => (a : Int) - b)
        { limit := 2, page } = .ok (pages page))
      ∧ PagedExactly { limit := 2 } (sampleWorkspace.matching (fun _ _ => true) { limit := 2 }) all totalPages
        pages := by
  obtain ⟨all, totalPages, pages, listed, -, exact_⟩ := workspace_pages_exact sampleWorkspace (fun _ _ => true)
    (fun a b => (a : Int) - b) (fun a b => by omega) { limit := 2 } (by decide)
  exact ⟨all, totalPages, pages, rfl, listed, exact_⟩

end ServiceHub
