import ServiceHub.Lib.Runs
import ServiceHub.Lib.Text

/-! # Names of service categories

A name is compared by its key: normalised, lower-cased, with `&` and `/` read as "and" and everything but
letters and digits dropped. An alias of the catalog stands for its official name.
-/

namespace ServiceHub

open Runs

/-- What the names take from Unicode. -/
structure Unicode where
  /-- `normalize('NFKC')`. -/
  nfkc : Text → Text
  /-- `toLocaleLowerCase('en-PH')`. -/
  toLowerCase : Text → Text
  /-- `[\p{L}\p{N}]`. -/
  isLetterOrNumber : Char → Bool

def isAscii (c : Char) : Bool := c.toNat < 128

/-- `.trim().replace(/\s+/g, ' ')`. -/
def collapseSpaces (text : Text) : Text := collapse isSpace ' ' text

/-- What the catalog relies on: the tables leave ASCII texts alone but for the case, and a normalised text
stays normalised when its whitespace is collapsed. -/
structure Unicode.Lawful (u : Unicode) : Prop where
  nfkc_ascii : ∀ text : Text, text.all isAscii = true → u.nfkc text = text
  toLowerCase_ascii : ∀ text : Text, text.all isAscii = true → u.toLowerCase text = text.map Char.toLower
  isLetterOrNumber_ascii : ∀ c, isAscii c = true → u.isLetterOrNumber c = c.isAlphanum
  nfkc_collapsed : ∀ text, u.nfkc (collapseSpaces (u.nfkc text)) = collapseSpaces (u.nfkc text)

structure CatalogCategory where
  name : String
  aliases : List String
  deriving Repr, DecidableEq

/-- `SERVICE_CATEGORY_CATALOG`. -/
def serviceCategoryCatalog : List CatalogCategory :=
  [⟨"Aircon Cleaning & Repair", ["Aircon Service", "Aircon Repair"]⟩,
   ⟨"Appliance Repair", []⟩,
   ⟨"Bicycle Repair", []⟩,
   ⟨"Bookkeeping & Admin Help", []⟩,
   ⟨"Car Repair & Maintenance", ["Automotive Services"]⟩,
   ⟨"Carpentry & Furniture Repair", ["Carpentry & Woodwork"]⟩,
   ⟨"Computer & Laptop Repair", ["Computer / IT Services"]⟩,
   ⟨"Cooking & Catering", []⟩,
   ⟨"Delivery, Moving & Errands", ["Delivery & Moving"]⟩,
   ⟨"Electrical Wiring & Repairs", ["Electrical Repair"]⟩,
   ⟨"Event Planning & Setup", ["Event Services"]⟩,
   ⟨"Gardening & Landscaping", ["Lawn & Garden", "Lawn Care"]⟩,
   ⟨"Haircuts & Beauty", ["Beauty & Personal Care", "Haircut"]⟩,
   ⟨"Handyman & Small Home Repairs", ["Handyman Services"]⟩,
   ⟨"Home & Office Cleaning", ["Cleaning Services", "House Cleaning"]⟩,
   ⟨"Home Renovation & Masonry", ["Home Improvement"]⟩,
   ⟨"Internet & Wi-Fi Setup", []⟩,
   ⟨"Laundry & Ironing", []⟩,
   ⟨"Locks & Keys", []⟩,
   ⟨"Motorcycle Repair & Maintenance", []⟩,
   ⟨"Musical Instrument Repair & Tuning", []⟩,
   ⟨"Painting", ["Painting Services"]⟩,
   ⟨"Pest Control", []⟩,
   ⟨"Pet Grooming & Care", ["Pet Services"]⟩,
   ⟨"Phone & Tablet Repair", []⟩,
   ⟨"Photography & Video", ["Photography / Videography"]⟩,
   ⟨"Plumbing", []⟩,
   ⟨"Printing & Graphic Design", []⟩,
   ⟨"Roof & Gutter Repairs", []⟩,
   ⟨"Tailoring & Clothing Repairs", []⟩,
   ⟨"Translation & Writing", []⟩,
   ⟨"Tutoring & Lessons", ["Tutoring & Education", "Tutoring"]⟩,
   ⟨"Website & Software Services", []⟩,
   ⟨"Welding & Metalwork", []⟩,
   ⟨"Other Services", ["Repair & Maintenance"]⟩]

def CatalogCategory.labels (category : CatalogCategory) : List Text :=
  (category.name :: category.aliases).map String.toList

def otherServicesCategory : Text := "Other Services".toList

section Names

variable (u : Unicode)

def normalizedCategoryName (name : Text) : Text := u.toLowerCase (collapseSpaces (u.nfkc name))

/-- What `nameKey` does after the normalisation. -/
def plainKey (isLetterOrNumber : Char → Bool) (normalized : Text) : Text :=
  collapseSpaces (replace (fun c => !isLetterOrNumber c) [' '] false
    (replace (fun c => c == '&' || c == '/') " and ".toList false normalized))

def nameKey (name : Text) : Text := plainKey u.isLetterOrNumber (normalizedCategoryName u name)

def officialCategoryForName (name : Text) : Option CatalogCategory :=
  let key := nameKey u name
  serviceCategoryCatalog.find? fun category => category.labels.any fun label => nameKey u label == key

def canonicalCategoryName (name : Text) : Text :=
  match officialCategoryForName u name with
  | some category => category.name.toList
  | none => collapseSpaces (u.nfkc name)

def categoryConceptKey (name : Text) : Text := nameKey u (canonicalCategoryName u name)

def isFallbackCategory (name : Text) : Bool :=
  normalizedCategoryName u name == normalizedCategoryName u otherServicesCategory

end Names

/-! ## The catalog is unambiguous -/

/-- The key of a text in ASCII. -/
def asciiKey (name : Text) : Text := plainKey Char.isAlphanum ((collapseSpaces name).map Char.toLower)

/-- The labels are in ASCII, and no key of one category is a key of an earlier one. -/
theorem catalog_unambiguous : ∀ category ∈ serviceCategoryCatalog,
    (∀ label ∈ category.labels, label.all isAscii = true)
    ∧ serviceCategoryCatalog.find? (fun other => other.labels.any fun label => asciiKey label == asciiKey category.name.toList)
      = some category := by
  decide +kernel

section Names

variable {u : Unicode} {name label : Text} {category : CatalogCategory}

theorem collapseSpaces_idem : collapseSpaces (collapseSpaces name) = collapseSpaces name :=
  collapse_collapse (by decide)

/-- A finite check covers every fact about ASCII characters. -/
theorem ascii_cases {P : Char → Prop} (check : ∀ n < 128, P (Char.ofNat n)) {c : Char} (ascii : isAscii c = true) : P c := by
  have small : c.toNat < 128 := by simpa [isAscii] using ascii
  rw [← Char.ofNat_toNat c]
  exact check _ small

theorem toLower_ascii {c : Char} (ascii : isAscii c = true) : isAscii c.toLower = true :=
  ascii_cases (P := fun c => isAscii c.toLower = true) (by decide) ascii

def AllAscii (text : Text) : Prop := ∀ c ∈ text, isAscii c = true

theorem AllAscii.collapsed (ascii : AllAscii label) : AllAscii (collapseSpaces label) := by
  intro c listed
  rcases mem_collapse listed with here | rfl
  · exact ascii c here
  · decide

theorem AllAscii.lowered (ascii : AllAscii label) : AllAscii (label.map Char.toLower) := by
  intro c listed
  obtain ⟨d, here, rfl⟩ := List.mem_map.mp listed
  exact toLower_ascii (ascii d here)

theorem AllAscii.replaced {p : Char → Bool} {by_ : Text} {inside : Bool} (ascii : AllAscii label) (plain : AllAscii by_) :
    AllAscii (replace p by_ inside label) := by
  intro c listed
  rcases mem_replace listed with here | new
  · exact ascii c here
  · exact plain c new

theorem AllAscii.all (ascii : AllAscii label) : label.all isAscii = true := List.all_eq_true.mpr ascii

theorem nameKey_ascii (lawful : u.Lawful) (ascii : AllAscii label) : nameKey u label = asciiKey label := by
  have normalized : normalizedCategoryName u label = (collapseSpaces label).map Char.toLower := by
    rw [normalizedCategoryName, lawful.nfkc_ascii _ ascii.all, lawful.toLowerCase_ascii _ ascii.collapsed.all]
  have spelled : AllAscii (replace (fun c => c == '&' || c == '/') " and ".toList false ((collapseSpaces label).map Char.toLower)) :=
    ascii.collapsed.lowered.replaced (List.all_eq_true.mp (by decide))
  rw [nameKey, asciiKey, normalized, plainKey, plainKey]
  congr 1
  apply replace_congr
  intro c listed
  rw [lawful.isLetterOrNumber_ascii c (spelled c listed)]

/-- The official name of a category stands for the category itself. -/
theorem official_of_mem (lawful : u.Lawful) (listed : category ∈ serviceCategoryCatalog) :
    officialCategoryForName u category.name.toList = some category := by
  have keys : ∀ other ∈ serviceCategoryCatalog, ∀ label ∈ other.labels, nameKey u label = asciiKey label := by
    intro other there label labels
    exact nameKey_ascii lawful (List.all_eq_true.mp ((catalog_unambiguous other there).1 label labels))
  have own := keys category listed category.name.toList (by simp [CatalogCategory.labels])
  rw [← (catalog_unambiguous category listed).2, officialCategoryForName, own]
  apply List.find?_congr
  intro other there
  rw [Bool.eq_iff_iff, List.any_eq_true, List.any_eq_true]
  refine exists_congr fun label => and_congr_right fun labels => ?_
  rw [keys other there label labels]

/-- A name outside of the catalog keeps its key when it is written canonically. -/
theorem nameKey_normalised (lawful : u.Lawful) : nameKey u (collapseSpaces (u.nfkc name)) = nameKey u name := by
  rw [nameKey, nameKey, normalizedCategoryName, normalizedCategoryName, lawful.nfkc_collapsed, collapseSpaces_idem]

theorem canonicalCategoryName_idem (lawful : u.Lawful) :
    canonicalCategoryName u (canonicalCategoryName u name) = canonicalCategoryName u name := by
  cases found : officialCategoryForName u name with
  | some category =>
      have official : canonicalCategoryName u name = category.name.toList := by simp [canonicalCategoryName, found]
      have listed : category ∈ serviceCategoryCatalog := by
        rw [officialCategoryForName] at found
        exact List.mem_of_find?_eq_some found
      rw [official, canonicalCategoryName, official_of_mem lawful listed]
  | none =>
      have plain : canonicalCategoryName u name = collapseSpaces (u.nfkc name) := by simp [canonicalCategoryName, found]
      have unofficial : officialCategoryForName u (collapseSpaces (u.nfkc name)) = none := by
        rw [officialCategoryForName, nameKey_normalised lawful]
        exact found
      rw [plain, canonicalCategoryName, unofficial]
      dsimp only
      rw [lawful.nfkc_collapsed, collapseSpaces_idem]

theorem categoryConceptKey_canonical (lawful : u.Lawful) :
    categoryConceptKey u (canonicalCategoryName u name) = categoryConceptKey u name := by
  rw [categoryConceptKey, canonicalCategoryName_idem lawful, categoryConceptKey]

end Names

end ServiceHub
