import Mathlib.Data.List.DropRight

/-! # Runs of separators

A text is trimmed of the separators at its ends, and every run of separators is replaced. With a single
separator as the replacement the result is stable.
-/

namespace Runs

variable {α : Type} {p : α → Bool} {sep a : α} {inside : Bool} {text : List α}

/-- Every maximal run of elements with the property is replaced. -/
def replace (p : α → Bool) (by_ : List α) : Bool → List α → List α
  | _, [] => []
  | inside, a :: text =>
      if p a then (if inside then replace p by_ true text else by_ ++ replace p by_ true text)
      else a :: replace p by_ false text

def trim (p : α → Bool) (text : List α) : List α := (text.dropWhile p).rdropWhile p

def collapse (p : α → Bool) (sep : α) (text : List α) : List α := replace p [sep] false (trim p text)

/-- Neither end is a separator. -/
structure Trimmed (p : α → Bool) (text : List α) : Prop where
  head : ∀ a, text.head? = some a → p a = false
  last : ∀ a, text.getLast? = some a → p a = false

theorem trim_trimmed : Trimmed p (trim p text) := by
  constructor
  · intro a first
    have start := List.head?_dropWhile_not p text
    obtain ⟨cut, split⟩ := List.rdropWhile_prefix p (l := text.dropWhile p)
    rw [trim] at first
    rw [← split, List.head?_append, first] at start
    exact start
  · intro a last
    rw [trim] at last
    obtain ⟨nonempty, rfl⟩ := List.mem_getLast?_eq_getLast last
    simpa using List.rdropWhile_last_not p (text.dropWhile p) nonempty

theorem Trimmed.trim_eq (h : Trimmed p text) : trim p text = text := by
  have front : text.dropWhile p = text := by
    cases text with
    | nil => rfl
    | cons a text => simp [h.head a rfl]
  rw [trim, front, List.rdropWhile_eq_self_iff]
  intro nonempty
  simpa using h.last _ (List.getLast?_eq_some_getLast nonempty)

/-- The result has nothing but the text and the replacement. -/
theorem mem_replace {by_ : List α} (listed : a ∈ replace p by_ inside text) : a ∈ text ∨ a ∈ by_ := by
  induction text generalizing inside with
  | nil => simp [replace] at listed
  | cons b text ih =>
      rw [replace] at listed
      split at listed
      · split at listed
        · exact (ih listed).imp_left (List.mem_cons_of_mem b)
        · rcases List.mem_append.mp listed with new | old
          · exact .inr new
          · exact (ih old).imp_left (List.mem_cons_of_mem b)
      · rcases List.mem_cons.mp listed with rfl | old
        · exact .inl List.mem_cons_self
        · exact (ih old).imp_left (List.mem_cons_of_mem b)

theorem replace_congr {q : α → Bool} {by_ : List α} (same : ∀ a ∈ text, p a = q a) :
    replace p by_ inside text = replace q by_ inside text := by
  induction text generalizing inside with
  | nil => rfl
  | cons a text ih =>
      have here := same a List.mem_cons_self
      have later : ∀ i, replace p by_ i text = replace q by_ i text := fun i =>
        ih fun b listed => same b (List.mem_cons_of_mem a listed)
      simp only [replace, here, later]

theorem mem_collapse (listed : a ∈ collapse p sep text) : a ∈ text ∨ a = sep := by
  rcases mem_replace listed with kept | new
  · left
    have front := (List.rdropWhile_prefix p (text.dropWhile p)).subset kept
    exact (List.dropWhile_suffix p).subset front
  · right
    simpa using new

theorem replace_replace (separates : p sep = true) :
    replace p [sep] inside (replace p [sep] inside text) = replace p [sep] inside text := by
  induction text generalizing inside with
  | nil => rfl
  | cons a text ih =>
      by_cases separator : p a = true
      · cases inside with
        | true =>
            simp only [replace, separator, if_true]
            exact ih
        | false => simp [replace, separator, separates, ih]
      · simp [replace, separator, ih]

theorem head?_replace (first : ∀ a, text.head? = some a → p a = false) :
    (replace p [sep] inside text).head? = text.head? := by
  cases text with
  | nil => rfl
  | cons a text => simp [replace, first a rfl]

theorem getLast?_replace (last : ∀ a, text.getLast? = some a → p a = false) :
    (replace p [sep] inside text).getLast? = text.getLast? := by
  induction text generalizing inside with
  | nil => rfl
  | cons a text ih =>
      cases text with
      | nil => simp [replace, last a rfl]
      | cons b rest =>
          have later : ∀ c, (b :: rest).getLast? = some c → p c = false := by
            intro c ends
            exact last c (by rw [List.getLast?_cons_cons]; exact ends)
          obtain ⟨c, ends⟩ : ∃ c, (b :: rest).getLast? = some c := ⟨_, List.getLast?_eq_some_getLast (by simp)⟩
          have tail : ∀ i, (replace p [sep] i (b :: rest)).getLast? = some c := fun i => (ih later).trans ends
          rw [List.getLast?_cons_cons, ends]
          rw [replace]
          split
          · split
            · exact tail true
            · simp [List.getLast?_cons, tail true]
          · simp [List.getLast?_cons, tail false]

theorem Trimmed.replace (h : Trimmed p text) : Trimmed p (replace p [sep] inside text) where
  head a first := h.head a (by rwa [head?_replace h.head] at first)
  last a ends := h.last a (by rwa [getLast?_replace h.last] at ends)

/-- Collapsing twice is collapsing once. -/
theorem collapse_collapse (separates : p sep = true) : collapse p sep (collapse p sep text) = collapse p sep text := by
  have trimmed : Trimmed p (collapse p sep text) := trim_trimmed.replace
  rw [collapse, trimmed.trim_eq, collapse, replace_replace separates]

/-! ## Replacing first and trimming then -/

variable {c : α} {front rest : List α}

def squeeze (p : α → Bool) (sep : α) (text : List α) : List α := trim p (replace p [sep] false text)

/-- Two texts with the separator between them, which an empty text needs not. -/
def joinWith (sep : α) (front rest : List α) : List α :=
  if front.isEmpty then rest else if rest.isEmpty then front else front ++ sep :: rest

/-- Whether the replacement is within a run after the text. -/
def ending (p : α → Bool) (inside : Bool) (text : List α) : Bool := (text.getLast?.map p).getD inside

@[simp] theorem ending_nil : ending p inside [] = inside := rfl

@[simp] theorem ending_append_singleton : ending p inside (text ++ [a]) = p a := by simp [ending]

@[simp] theorem ending_cons : ending p inside (a :: text) = ending p (p a) text := by
  cases text with
  | nil => rfl
  | cons b text => simp [ending, List.getLast?_cons]

theorem replace_append : replace p [sep] inside (front ++ rest) =
    replace p [sep] inside front ++ replace p [sep] (ending p inside front) rest := by
  induction front generalizing inside with
  | nil => rfl
  | cons a front ih =>
      rw [List.cons_append, replace, replace, ending_cons]
      by_cases separator : p a = true
      · cases inside <;> simp [separator, ih]
      · have other : p a = false := by simpa using separator
        simp [other, ih]

/-- Within a run nothing is written until the run ends. -/
theorem replace_true_head (text : List α) : ∀ a, (replace p [sep] true text).head? = some a → p a = false := by
  induction text with
  | nil => simp [replace]
  | cons b text ih =>
      intro a first
      rw [replace] at first
      by_cases separator : p b = true
      · simp only [separator, if_true] at first
        exact ih a first
      · have other : p b = false := by simpa using separator
        rw [other] at first
        obtain rfl := Option.some.inj first
        exact other

theorem dropWhile_replace (separates : p sep = true) (text : List α) :
    (replace p [sep] false text).dropWhile p = replace p [sep] true text := by
  cases text with
  | nil => rfl
  | cons a text =>
      by_cases separator : p a = true
      · have stays : (replace p [sep] true text).dropWhile p = replace p [sep] true text := by
          have head : ∀ b, (replace p [sep] true text).head? = some b → p b = false := replace_true_head text
          cases written : replace p [sep] true text with
          | nil => rfl
          | cons b later =>
              rw [written] at head
              rw [List.dropWhile_cons_of_neg (by simp [head b rfl])]
        simp [replace, separator, separates, stays]
      · have other : p a = false := by simpa using separator
        simp [replace, other]

theorem squeeze_eq (separates : p sep = true) (text : List α) : squeeze p sep text = (replace p [sep] true text).rdropWhile p := by
  rw [squeeze, trim, dropWhile_replace separates]

/-- What is written within a run: nothing yet, or a text that the trimming leaves and the separator of a run at the end. -/
theorem replace_true_shape (separates : p sep = true) (text : List α) :
    (replace p [sep] true text = [] ∧ ending p true text = true ∧ squeeze p sep text = [])
    ∨ (squeeze p sep text ≠ []
      ∧ replace p [sep] true text = squeeze p sep text ++ if ending p true text = true then [sep] else []) := by
  simp only [squeeze_eq separates]
  induction text using List.reverseRecOn with
  | nil => simp [replace]
  | append_singleton text a ih =>
      rw [replace_append, ending_append_singleton]
      by_cases separator : p a = true
      · cases within : ending p true text with
        | true =>
            have nothing : replace p [sep] true [a] = [] := by simp [replace, separator]
            rw [nothing, List.append_nil, separator]
            rw [within] at ih
            exact ih
        | false =>
            have written : replace p [sep] false [a] = [sep] := by simp [replace, separator]
            rw [written, separator, List.rdropWhile_concat_pos _ _ _ separates]
            rw [within] at ih
            rcases ih with ⟨-, absurd_, -⟩ | ⟨some, same⟩
            · cases absurd_
            · rw [if_neg (by simp), List.append_nil] at same
              rw [if_pos rfl, ← same]
              exact .inr ⟨by rw [same]; exact some, rfl⟩
      · have other : p a = false := by simpa using separator
        have written : ∀ inside, replace p [sep] inside [a] = [a] := fun inside => by simp [replace, other]
        rw [written, other, List.rdropWhile_concat_neg _ _ _ (by simp [other])]
        simp

theorem joinWith_of_ne_nil (front rest : List α) (first : front ≠ []) (second : rest ≠ []) :
    joinWith sep front rest = front ++ sep :: rest := by
  simp [joinWith, first, second]

theorem rdropWhile_append_of_ne_nil (front rest : List α) (some : rest.rdropWhile p ≠ []) :
    (front ++ rest).rdropWhile p = front ++ rest.rdropWhile p := by
  have stays : rest.reverse.dropWhile p ≠ [] := by simpa [List.rdropWhile] using some
  rw [List.rdropWhile, List.rdropWhile, List.reverse_append, List.dropWhile_append, if_neg (by simpa using stays),
    List.reverse_append, List.reverse_reverse]

/-- Squeezing works on both sides of a separator apart. -/
theorem squeeze_append (separates : p sep = true) (here : p c = true) (front rest : List α) :
    squeeze p sep (front ++ c :: rest) = joinWith sep (squeeze p sep front) (squeeze p sep rest) := by
  have written : replace p [sep] true (front ++ c :: rest) =
      replace p [sep] true front ++ ((if ending p true front = true then [] else [sep]) ++ replace p [sep] true rest) := by
    rw [replace_append, replace]
    cases ending p true front <;> simp [here]
  rw [squeeze_eq separates, written]
  rcases replace_true_shape separates rest with ⟨nothing, -, empty⟩ | ⟨some, shape⟩
  · have only : joinWith sep (squeeze p sep front) [] = squeeze p sep front := by
      cases same : squeeze p sep front <;> simp [joinWith]
    rw [nothing, empty, only, squeeze_eq separates]
    cases ending p true front with
    | true => simp
    | false => simpa using List.rdropWhile_concat_pos _ _ _ separates
  · rw [squeeze_eq separates] at some
    rcases replace_true_shape separates front with ⟨nothing, inside, empty⟩ | ⟨first, before⟩
    · simp [nothing, inside, empty, joinWith, squeeze_eq separates]
    · have whole : replace p [sep] true front ++ ((if ending p true front = true then [] else [sep]) ++ replace p [sep] true rest)
          = squeeze p sep front ++ [sep] ++ replace p [sep] true rest := by
        rw [before]
        cases ending p true front <;> simp
      rw [whole, rdropWhile_append_of_ne_nil _ _ some, ← squeeze_eq separates, List.append_assoc, List.singleton_append,
        joinWith_of_ne_nil _ _ first (by rw [squeeze_eq separates]; exact some)]

theorem kept_by_replace {by_ : List α} (listed : a ∈ replace p by_ inside text) : p a = false ∨ a ∈ by_ := by
  induction text generalizing inside with
  | nil => simp [replace] at listed
  | cons b text ih =>
      rw [replace] at listed
      split at listed
      case isTrue =>
        split at listed
        · exact ih listed
        · rcases List.mem_append.mp listed with new | old
          · exact .inr new
          · exact ih old
      case isFalse other =>
        rcases List.mem_cons.mp listed with rfl | old
        · exact .inl (by simpa using other)
        · exact ih old

/-- What is no separator is kept. -/
theorem mem_replace_of_mem {by_ : List α} (listed : a ∈ text) (other : p a = false) : a ∈ replace p by_ inside text := by
  induction text generalizing inside with
  | nil => cases listed
  | cons b text ih =>
      rw [replace]
      rcases List.mem_cons.mp listed with rfl | later
      · simp [other]
      · split
        · split
          · exact ih later
          · exact List.mem_append_right _ (ih later)
        · exact List.mem_cons_of_mem _ (ih later)

theorem mem_dropWhile (listed : a ∈ text) (other : p a = false) : a ∈ text.dropWhile p := by
  rw [← List.takeWhile_append_dropWhile (p := p) (l := text)] at listed
  rcases List.mem_append.mp listed with front | rest
  · have separator := List.mem_takeWhile_imp front
    rw [other] at separator
    cases separator
  · exact rest

theorem mem_squeeze (listed : a ∈ text) (other : p a = false) : a ∈ squeeze p sep text := by
  have kept : a ∈ (replace p [sep] false text).dropWhile p := mem_dropWhile (mem_replace_of_mem listed other) other
  rw [squeeze, trim, List.rdropWhile, List.mem_reverse]
  exact mem_dropWhile (List.mem_reverse.mpr kept) other

theorem dropWhile_congr {q : α → Bool} (same : ∀ a ∈ text, p a = q a) : text.dropWhile p = text.dropWhile q := by
  induction text with
  | nil => rfl
  | cons a text ih =>
      rw [List.dropWhile_cons, List.dropWhile_cons, same a List.mem_cons_self, ih fun b later => same b (List.mem_cons_of_mem a later)]

theorem trim_congr {q : α → Bool} (same : ∀ a ∈ text, p a = q a) : trim p text = trim q text := by
  rw [trim, trim, dropWhile_congr same, List.rdropWhile, List.rdropWhile]
  congr 1
  apply dropWhile_congr
  intro a listed
  exact same a ((List.dropWhile_suffix q).subset (List.mem_reverse.mp listed))

/-- A second squeeze that takes the same elements changes nothing. -/
theorem squeeze_replace {q : α → Bool} (separates : q sep = true) (same : ∀ a ∈ replace q [sep] false text, p a = q a) :
    squeeze p sep (replace q [sep] false text) = squeeze q sep text := by
  rw [squeeze, replace_congr same, replace_replace separates, trim_congr same, squeeze]

/-- A part without an element lies on one side of it. -/
theorem infix_of_append_cons {part : List α} (absent : c ∉ part) (within : part <:+: front ++ c :: rest) :
    part <:+: front ∨ part <:+: rest := by
  obtain ⟨before, after, split⟩ := within
  rw [List.append_assoc, List.append_eq_append_iff] at split
  rcases split with ⟨more, rfl, split⟩ | ⟨more, rfl, split⟩
  · rw [List.append_eq_append_iff] at split
    rcases split with ⟨last, rfl, -⟩ | ⟨last, rfl, split⟩
    · exact .inl ⟨before, last, by rw [List.append_assoc]⟩
    · cases last with
      | nil => exact .inl ⟨before, [], by simp⟩
      | cons d last =>
          obtain ⟨rfl, -⟩ := List.cons.inj split
          simp at absent
  · cases more with
    | nil =>
        cases part with
        | nil => exact .inl ⟨[], front, rfl⟩
        | cons d part =>
            obtain ⟨rfl, -⟩ := List.cons.inj split
            simp at absent
    | cons d more =>
        obtain ⟨-, rfl⟩ := List.cons.inj split
        exact .inr ⟨more, after, by rw [List.append_assoc]; rfl⟩

end Runs
