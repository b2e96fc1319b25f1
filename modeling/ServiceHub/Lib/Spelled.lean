import Mathlib.Data.List.Basic
import Mathlib.Data.Nat.Find
import Mathlib.Order.Basic

/-! # Words spelled letter by letter

The global search for `\b(?:[letter][sep]){least,most}[letter]\b`. A match takes as many letters as it can, so a
match at the end of a text grows when a separator and a letter follow.
-/

namespace Spelled

/-- The classes and bounds of the expression. -/
structure Expression (α : Type) where
  letter : α → Bool
  sep : α → Bool
  word : α → Bool
  least : Nat
  most : Nat
  letter_word : ∀ a, letter a = true → word a = true
  sep_word : ∀ a, sep a = true → word a = false
  positive : 0 < least

/-- A match and the text after it. -/
structure Match (α : Type) where
  run : List α
  rest : List α
  deriving Repr, DecidableEq

section Definitions

variable {α : Type} (e : Expression α)

/-- How many letters with a separator behind them the text begins with, up to a bound. -/
def Expression.pairs : Nat → List α → Nat
  | n + 1, a :: b :: text => if e.letter a && e.sep b then Expression.pairs n text + 1 else 0
  | _, _ => 0

/-- `[letter]\b`. -/
def Expression.closes : List α → Bool
  | [] => false
  | a :: text => e.letter a && !text.head?.any e.word

/-- After `pairs` letters and separators the expression can end. -/
def Expression.ends (text : List α) (k : Nat) : Prop := e.least ≤ k ∧ e.closes (text.drop (2 * k)) = true

instance (text : List α) : DecidablePred (e.ends text) := fun _ => inferInstanceAs (Decidable (_ ∧ _))

/-- How many pairs the match at this place takes: the most after which it can end. Zero is no match. -/
def Expression.matched (text : List α) : Nat := Nat.findGreatest (e.ends text) (e.pairs e.most text)

/-- The match at this place, which does not begin within a word. -/
def Expression.here (after : Bool) (text : List α) : Nat := if after then 0 else e.matched text

/-- `text.match(/…/g)`. The first argument counts the elements of the last match that are still to pass, the
second says whether the element before is of a word. -/
def Expression.scan : Nat → Bool → List α → List (Match α)
  | _, _, [] => []
  | skip + 1, _, a :: text => Expression.scan skip (e.word a) text
  | 0, after, a :: text =>
      let m := e.here after (a :: text)
      (if m = 0 then [] else [⟨(a :: text).take (2 * m + 1), text.drop (2 * m)⟩])
        ++ Expression.scan (2 * m) (e.word a) text

/-- `text.replace(/…/g, match => match without its separators)`. -/
def Expression.tighten : Nat → Bool → List α → List α
  | _, _, [] => []
  | skip + 1, _, a :: text => (if e.sep a then [] else [a]) ++ Expression.tighten skip (e.word a) text
  | 0, after, a :: text =>
      a :: Expression.tighten (2 * e.here after (a :: text)) (e.word a) text

/-- So many letters, each with a separator behind it. -/
inductive Expression.Pairs : Nat → List α → Prop
  | nil : Pairs 0 []
  | cons {n : Nat} {a b : α} {text : List α} (letter : e.letter a = true) (sep : e.sep b = true) (more : Pairs n text) :
      Pairs (n + 1) (a :: b :: text)

end Definitions

variable {α : Type} {e : Expression α} {a b c : α} {text front rest post s t : List α} {m n k j : Nat} {after : Bool}

section Pairs

theorem Expression.letter_sep (letter : e.letter a = true) : e.sep a = false := by
  cases sep : e.sep a with
  | false => rfl
  | true =>
      have word := e.letter_word a letter
      rw [e.sep_word a sep] at word
      cases word

theorem pairs_le : e.pairs n text ≤ n := by
  induction n generalizing text with
  | zero => simp [Expression.pairs]
  | succ n ih =>
      rcases text with _ | ⟨a, _ | ⟨b, text⟩⟩
      · simp [Expression.pairs]
      · simp [Expression.pairs]
      · rw [Expression.pairs]
        split
        · exact Nat.succ_le_succ ih
        · exact Nat.zero_le _

theorem Expression.Pairs.length (h : e.Pairs n text) : text.length = 2 * n := by
  induction h with
  | nil => rfl
  | cons letter sep more ih =>
      simp only [List.length_cons, ih]
      omega

theorem Expression.Pairs.pairs_append (h : e.Pairs m front) (fits : m ≤ n) : e.pairs n (front ++ rest) = m + e.pairs (n - m) rest := by
  induction h generalizing n with
  | nil => simp
  | cons letter sep more ih =>
      obtain ⟨n, rfl⟩ : ∃ l, n = l + 1 := ⟨n - 1, by omega⟩
      rw [List.cons_append, List.cons_append, Expression.pairs, letter, sep, ih (by omega)]
      simp only [Bool.and_self, if_true, Nat.add_sub_add_right]
      omega

theorem exists_pairs (h : m ≤ e.pairs n text) : ∃ front rest, text = front ++ rest ∧ e.Pairs m front := by
  induction m generalizing n text with
  | zero => exact ⟨[], text, rfl, .nil⟩
  | succ m ih =>
      obtain ⟨n, rfl⟩ : ∃ l, n = l + 1 := ⟨n - 1, by have := h.trans pairs_le; omega⟩
      rcases text with _ | ⟨a, _ | ⟨b, text⟩⟩
      · simp [Expression.pairs] at h
      · simp [Expression.pairs] at h
      · rw [Expression.pairs] at h
        split at h
        case isTrue both =>
          rw [Bool.and_eq_true] at both
          obtain ⟨front, rest, rfl, pairs⟩ := ih (Nat.le_of_succ_le_succ h)
          exact ⟨a :: b :: front, rest, rfl, .cons both.1 both.2 pairs⟩
        case isFalse => omega

/-- A first part that does not end in a letter is pairs itself. -/
theorem Expression.Pairs.of_append (h : e.Pairs m (s ++ t)) (last : ∀ a, s.getLast? = some a → e.letter a = false) :
    ∃ j ≤ m, e.Pairs j s := by
  induction m generalizing s with
  | zero =>
      have empty := h.length
      rw [List.length_append] at empty
      obtain rfl := List.length_eq_zero_iff.mp (by omega : s.length = 0)
      exact ⟨0, le_rfl, .nil⟩
  | succ m ih =>
      rcases s with _ | ⟨a, _ | ⟨b, s⟩⟩
      · exact ⟨0, Nat.zero_le _, .nil⟩
      · cases h with
        | cons letter _ _ =>
            have stops := last a rfl
            rw [letter] at stops
            cases stops
      · cases h with
        | cons letter sep more =>
            have shorter : ∀ c, s.getLast? = some c → e.letter c = false := by
              intro c ends
              apply last c
              cases s with
              | nil => cases ends
              | cons d s => rw [List.getLast?_cons_cons, List.getLast?_cons_cons, ends]
            obtain ⟨j, small, pairs⟩ := ih more shorter
            exact ⟨j + 1, Nat.succ_le_succ small, .cons letter sep pairs⟩

/-- The pairs go on past an element only if it separates, and then the text before it is pairs and a letter. -/
theorem Expression.Pairs.through (h : e.Pairs m front) (split : front ++ rest = s ++ c :: t) (short : s.length < 2 * m)
    (stops : e.letter c = false) :
    e.sep c = true ∧ ∃ k < m, ∃ pre a, s = pre ++ [a] ∧ e.Pairs k pre ∧ e.letter a = true := by
  induction h generalizing s with
  | nil => simp at short
  | @cons n a b text letter sep more ih =>
      rcases s with _ | ⟨d, _ | ⟨d', s⟩⟩
      · obtain ⟨rfl, -⟩ := List.cons.inj split
        rw [stops] at letter
        cases letter
      · obtain ⟨rfl, later⟩ := List.cons.inj split
        obtain ⟨rfl, -⟩ := List.cons.inj later
        exact ⟨sep, 0, Nat.succ_pos _, [], a, rfl, .nil, letter⟩
      · obtain ⟨rfl, later⟩ := List.cons.inj split
        obtain ⟨rfl, latest⟩ := List.cons.inj later
        simp only [List.length_cons] at short
        obtain ⟨sep', k, small, pre, a', rfl, pairs, letter'⟩ := ih latest (by omega)
        exact ⟨sep', k + 1, Nat.succ_lt_succ small, a :: b :: pre, a', rfl, .cons letter sep pairs, letter'⟩

end Pairs

section Matched

/-- The text goes on outside of a word, or not at all. -/
def Expression.Stops (e : Expression α) (post : List α) : Prop := ∀ c, post.head? = some c → e.word c = false

theorem Expression.Stops.letter (h : e.Stops (c :: t)) : e.letter c = false := by
  cases letter : e.letter c with
  | false => rfl
  | true =>
      have inside := h c rfl
      rw [e.letter_word c letter] at inside
      cases inside

theorem closes_cons : e.closes (a :: text) = true ↔ e.letter a = true ∧ e.Stops text := by
  rw [Expression.closes, Bool.and_eq_true]
  cases text <;> simp [Expression.Stops]

theorem closes_append (stops : e.Stops post) (some : text ≠ []) : e.closes (text ++ post) = e.closes text := by
  obtain ⟨a, text, rfl⟩ := List.exists_cons_of_ne_nil some
  cases text with
  | cons b text => rfl
  | nil =>
      rw [Bool.eq_iff_iff, List.cons_append, closes_cons, closes_cons]
      have end_ : e.Stops ([] : List α) := by simp [Expression.Stops]
      exact and_congr_right fun _ => iff_of_true stops end_

theorem Expression.ends.lt_length (h : e.ends text k) : 2 * k < text.length := by
  by_contra short
  have closes := h.2
  rw [List.drop_eq_nil_of_le (by omega)] at closes
  cases closes

theorem ends_append (stops : e.Stops post) (within : 2 * k < text.length) : e.ends (text ++ post) k ↔ e.ends text k := by
  have cut : (text ++ post).drop (2 * k) = text.drop (2 * k) ++ post := List.drop_append_of_le_length within.le
  have some : text.drop (2 * k) ≠ [] := by simpa using within
  rw [Expression.ends, Expression.ends, cut, closes_append stops some]

theorem matched_le_pairs (text : List α) : e.matched text ≤ e.pairs e.most text := Nat.findGreatest_le _

theorem matched_le_most (text : List α) : e.matched text ≤ e.most := (matched_le_pairs text).trans pairs_le

theorem matched_ends (found : 0 < e.matched text) : e.ends text (e.matched text) :=
  Nat.findGreatest_of_ne_zero rfl found.ne'

theorem le_matched (fits : k ≤ e.pairs e.most text) (ends : e.ends text k) : k ≤ e.matched text :=
  Nat.le_findGreatest fits ends

/-- The match is within the text. -/
theorem matched_lt_length (found : 0 < e.matched text) : 2 * e.matched text < text.length := (matched_ends found).lt_length

theorem matched_of_not_letter (other : e.letter a = false) : e.matched (a :: text) = 0 := by
  have none : e.pairs e.most (a :: text) = 0 := by
    cases text <;> cases e.most <;> simp [Expression.pairs, other]
  exact Nat.le_zero.mp (none ▸ matched_le_pairs _)

theorem pairs_le_append : e.pairs n text ≤ e.pairs n (text ++ post) := by
  obtain ⟨front, rest, split, pairs⟩ := exists_pairs (e := e) (le_refl (e.pairs n text))
  have more : e.pairs n (front ++ (rest ++ post)) = _ := pairs.pairs_append pairs_le
  rw [← List.append_assoc, ← split] at more
  omega

/-- What a longer match at the same place needs: the text is letters and separators up to its last letter, and
what follows is a separator. -/
structure Expression.Extended (e : Expression α) (text post : List α) (k : Nat) : Prop where
  sep : ∃ c t, post = c :: t ∧ e.sep c = true
  longer : e.matched text < e.matched (text ++ post)
  beyond : text.length < 2 * e.matched (text ++ post)
  length : text.length = 2 * k + 1
  short : k < e.least ∨ k = e.matched text

theorem matched_append (text : List α) (stops : e.Stops post) :
    e.matched (text ++ post) = e.matched text ∨ ∃ k, e.Extended text post k := by
  have least : e.matched text ≤ e.matched (text ++ post) := by
    rcases Nat.eq_zero_or_pos (e.matched text) with none | found
    · omega
    · exact le_matched ((matched_le_pairs text).trans pairs_le_append) ((ends_append stops (matched_lt_length found)).mpr (matched_ends found))
  rcases least.eq_or_lt with same | longer
  · exact .inl same.symm
  right
  have ends : e.ends (text ++ post) (e.matched (text ++ post)) := matched_ends (by omega)
  obtain ⟨front, rest, split, pairs⟩ := exists_pairs (matched_le_pairs (e := e) (text ++ post))
  have beyond : text.length ≤ 2 * e.matched (text ++ post) := by
    by_contra within
    -- a match within the text is found without what follows
    obtain ⟨more, rfl⟩ : front <+: text := by
      have both : front <+: text ++ post := ⟨rest, split.symm⟩
      exact List.prefix_of_prefix_length_le both (List.prefix_append text post) (by rw [pairs.length]; omega)
    have fits : e.matched (front ++ more ++ post) ≤ e.pairs e.most (front ++ more) := by
      rw [pairs.pairs_append (matched_le_most _)]
      exact Nat.le_add_right _ _
    have found := le_matched fits ((ends_append stops (by omega)).mp ends)
    omega
  have inside := ends.lt_length
  rw [List.length_append] at inside
  obtain ⟨c, t, rfl⟩ : ∃ c t, post = c :: t := List.exists_cons_of_length_pos (by omega)
  have past : text.length ≠ 2 * e.matched (text ++ c :: t) := by
    intro here
    have closes := ends.2
    rw [← here, List.drop_left, closes_cons, stops.letter] at closes
    cases closes.1
  obtain ⟨sep, k, small, pre, a, rfl, before, letter⟩ := pairs.through split.symm (by omega) stops.letter
  have length := before.length
  refine ⟨k, ⟨c, t, rfl, sep⟩, longer, by omega, by simp [length], ?_⟩
  by_cases enough : k < e.least
  · exact .inl enough
  right
  have closes : e.ends (pre ++ [a]) k := by
    refine ⟨by omega, ?_⟩
    rw [← length, List.drop_left, closes_cons]
    exact ⟨letter, by simp [Expression.Stops]⟩
  have most := matched_le_most (e := e) (pre ++ [a] ++ c :: t)
  have fits : k ≤ e.pairs e.most (pre ++ [a]) := by
    rw [before.pairs_append (by omega)]
    exact Nat.le_add_right _ _
  have found := le_matched fits closes
  have bound : 2 * e.matched (pre ++ [a]) < (pre ++ [a]).length := matched_lt_length (by have := e.positive; omega)
  simp only [List.length_append, List.length_singleton] at bound
  omega

/-- A match that the text ends before, or that is as long as can be, stays when the text goes on. -/
theorem matched_append_eq (stops : e.Stops post) (found : 0 < e.matched text)
    (stays : 2 * e.matched text + 1 < text.length ∨ e.matched text = e.most) : e.matched (text ++ post) = e.matched text := by
  rcases matched_append text stops with same | ⟨k, longer⟩
  · exact same
  · have bound := matched_le_most (e := e) (text ++ post)
    have enough := (matched_ends found).1
    have length := longer.length
    have more := longer.longer
    have fits := matched_lt_length found
    rcases longer.short with short | short <;> omega

/-- A match that the text ends with takes one more letter when there is one. -/
theorem matched_grows (found : 0 < e.matched text) (whole : text.length = 2 * e.matched text + 1) (more : e.matched text < e.most)
    (sep : e.sep c = true) (letter : e.letter b = true) : e.matched text < e.matched (text ++ [c, b]) := by
  obtain ⟨front, rest, split, pairs⟩ := exists_pairs (matched_le_pairs (e := e) text)
  obtain ⟨enough, closes⟩ := matched_ends found
  have length := congrArg List.length split
  have drop : text.drop (2 * e.matched text) = rest := by
    nth_rewrite 2 [split]
    exact List.drop_left' pairs.length
  rw [List.length_append, pairs.length] at length
  obtain ⟨d, rfl⟩ : ∃ d, rest = [d] := List.length_eq_one_iff.mp (by omega)
  rw [drop, closes_cons] at closes
  have joined : text ++ [c, b] = front ++ [d, c, b] := by rw [split, List.append_assoc, List.cons_append, List.nil_append]
  have one : e.pairs (e.most - e.matched text) [d, c, b] = 1 := by
    obtain ⟨n, left⟩ : ∃ n, e.most - e.matched text = n + 1 := ⟨e.most - e.matched text - 1, by omega⟩
    rw [left, Expression.pairs, closes.1, sep]
    cases n <;> rfl
  have fits : e.matched text + 1 ≤ e.pairs e.most (text ++ [c, b]) := by
    rw [joined, pairs.pairs_append more.le, one]
  have ends : e.ends (text ++ [c, b]) (e.matched text + 1) := by
    refine ⟨by omega, ?_⟩
    have last : (text ++ [c, b]).drop (2 * (e.matched text + 1)) = [b] := by
      rw [List.append_cons text c [b]]
      exact List.drop_left' (by rw [List.length_append, List.length_singleton]; omega)
    rw [last, closes_cons]
    exact ⟨letter, by simp [Expression.Stops]⟩
  exact le_matched fits ends

/-- What a match takes after some letters with their separators depends on their number only. -/
theorem matched_congr (first : e.Pairs j s) (second : e.Pairs j t) (through : j ≤ e.matched (s ++ text)) :
    e.matched (t ++ text) = e.matched (s ++ text) := by
  have most : j ≤ e.most := through.trans (matched_le_most _)
  have pairs : e.pairs e.most (t ++ text) = e.pairs e.most (s ++ text) := by
    rw [first.pairs_append most, second.pairs_append most]
  have ends : ∀ k, j ≤ k → (e.ends (t ++ text) k ↔ e.ends (s ++ text) k) := by
    intro k later
    have cut : ∀ {u : List α}, e.Pairs j u → (u ++ text).drop (2 * k) = text.drop (2 * k - 2 * j) := by
      intro u known
      rw [List.drop_append, known.length, List.drop_eq_nil_of_le (by rw [known.length]; omega), List.nil_append]
    rw [Expression.ends, Expression.ends, cut first, cut second]
  rw [Expression.matched, Nat.findGreatest_eq_iff, pairs]
  refine ⟨matched_le_pairs _, fun some => (ends _ through).mpr (matched_ends (Nat.pos_of_ne_zero some)), fun k longer fits => ?_⟩
  intro closes
  have found := le_matched fits ((ends k (by omega)).mp closes)
  omega

end Matched

section Scan

theorem here_le (after : Bool) (text : List α) : e.here after text ≤ e.matched text := by
  rw [Expression.here]
  split
  · exact Nat.zero_le _
  · exact le_rfl

theorem here_append (after : Bool) (text : List α) (stops : e.Stops post) :
    e.here after (text ++ post) = e.here after text ∨ (after = false ∧ ∃ k, e.Extended text post k) := by
  cases after with
  | true => exact .inl rfl
  | false => exact (matched_append text stops).imp_right fun longer => ⟨rfl, longer⟩

/-- The rest of a match is passed over. -/
theorem scan_passed (text rest : List α) (a : α) :
    e.scan (text.length + 1) after (text ++ a :: rest) = e.scan 0 (e.word a) rest := by
  induction text generalizing after with
  | nil => rfl
  | cons b text ih => exact ih

theorem scan_pass (none : e.here after (a :: text) = 0) : e.scan 0 after (a :: text) = e.scan 0 (e.word a) text := by
  simp [Expression.scan, none]

theorem scan_hit (found : 0 < e.matched (a :: text)) : e.scan 0 false (a :: text) =
    ⟨(a :: text).take (2 * e.matched (a :: text) + 1), text.drop (2 * e.matched (a :: text))⟩
      :: e.scan 0 true (text.drop (2 * e.matched (a :: text))) := by
  obtain ⟨m, taken⟩ : ∃ m, e.matched (a :: text) = m + 1 := ⟨e.matched (a :: text) - 1, by omega⟩
  have closes := (matched_ends found).2
  have inside := matched_lt_length found
  rw [taken] at closes inside
  simp only [List.length_cons] at inside
  obtain ⟨front, b, rest, rfl, length⟩ : ∃ front b rest, text = front ++ b :: rest ∧ front.length = 2 * m + 1 := by
    refine ⟨text.take (2 * m + 1), text[2 * m + 1], text.drop (2 * m + 2), ?_, ?_⟩
    · rw [List.getElem_cons_drop, List.take_append_drop]
    · rw [List.length_take]
      omega
  have split : a :: (front ++ b :: rest) = (a :: front) ++ b :: rest := rfl
  have letter : e.letter b = true := by
    rw [split, List.drop_left' (by simp only [List.length_cons, length]; omega), closes_cons] at closes
    exact closes.1
  have later : (front ++ b :: rest).drop (2 * (m + 1)) = rest := by
    rw [← List.singleton_append (x := b), ← List.append_assoc]
    exact List.drop_left' (by simp only [List.length_append, List.length_singleton, length]; omega)
  rw [Expression.scan]
  simp only [Expression.here, taken, later, Bool.false_eq_true, if_false, Nat.succ_ne_zero, List.singleton_append]
  rw [show 2 * (m + 1) = front.length + 1 by omega, scan_passed, e.letter_word b letter]

/-- The search goes on behind a match, and one element further where there is none. -/
theorem scan_induction {motive : Bool → List α → Prop} (nil : ∀ after, motive after [])
    (pass : ∀ after a text, e.here after (a :: text) = 0 → motive (e.word a) text → motive after (a :: text))
    (hit : ∀ a text, 0 < e.matched (a :: text) → motive true (text.drop (2 * e.matched (a :: text))) →
      motive false (a :: text)) (after : Bool) (text : List α) : motive after text := by
  induction length : text.length using Nat.strong_induction_on generalizing after text with
  | _ n ih =>
      cases text with
      | nil => exact nil after
      | cons a text =>
          rcases Nat.eq_zero_or_pos (e.here after (a :: text)) with none | found
          · exact pass after a text none (ih text.length (by simp [← length]) _ _ rfl)
          · obtain rfl : after = false := by
              cases after with
              | false => rfl
              | true => cases found
            refine hit a text found (ih _ ?_ _ _ rfl)
            simp only [← length, List.length_drop, List.length_cons]
            omega

theorem length_of_mem_scan {f : Match α} (listed : f ∈ e.scan 0 after text) : 2 * e.least < text.length := by
  induction after, text using scan_induction (e := e) with
  | nil after => simp [Expression.scan] at listed
  | pass after a text none ih =>
      rw [scan_pass none] at listed
      exact (ih listed).trans (by simp)
  | hit a text found ih =>
      have enough := (matched_ends found).1
      have inside := matched_lt_length found
      omega

/-- A match stays when the text goes on outside of a word, unless it could take more. -/
theorem mem_scan_append {f : Match α} (stops : e.Stops post) (listed : f ∈ e.scan 0 after text)
    (stays : f.rest ≠ [] ∨ f.run.length = 2 * e.most + 1) : ⟨f.run, f.rest ++ post⟩ ∈ e.scan 0 after (text ++ post) := by
  induction after, text using scan_induction (e := e) with
  | nil after => simp [Expression.scan] at listed
  | pass after a text none ih =>
      rw [scan_pass none] at listed
      have length := length_of_mem_scan listed
      have same : e.here after (a :: (text ++ post)) = 0 := by
        rcases here_append after (a :: text) stops with same | ⟨rfl, k, longer⟩
        · exact same.trans none
        · have nothing : e.matched (a :: text) = 0 := none
          have shape := longer.length
          simp only [List.length_cons] at shape
          have positive := e.positive
          rcases longer.short with short | short <;> omega
      rw [List.cons_append, scan_pass same]
      exact ih listed
  | hit a text found ih =>
      have inside := matched_lt_length found
      simp only [List.length_cons] at inside
      rw [scan_hit found] at listed
      have same : e.matched (a :: text ++ post) = e.matched (a :: text) := by
        apply matched_append_eq stops found
        simp only [List.length_cons]
        rcases List.mem_cons.mp listed with rfl | later
        · rcases stays with more | full
          · left
            simp only [ne_eq, List.drop_eq_nil_iff] at more
            omega
          · right
            simp only [List.length_take, List.length_cons] at full
            omega
        · have length := length_of_mem_scan later
          rw [List.length_drop] at length
          omega
      have still : 0 < e.matched (a :: (text ++ post)) := same ▸ found
      rw [List.cons_append, scan_hit still, ← List.cons_append, same, List.drop_append_of_le_length (by omega),
        List.take_append_of_le_length (by simp only [List.length_cons]; omega)]
      rcases List.mem_cons.mp listed with rfl | later
      · exact List.mem_cons_self
      · exact List.mem_cons_of_mem _ (ih later)

/-- When a separator and a letter follow, every match that could take more takes them. -/
theorem of_mem_scan_append {f : Match α} (sep : e.sep c = true) (letter : e.letter b = true)
    (listed : f ∈ e.scan 0 after (text ++ [c, b])) :
    (∃ f' ∈ e.scan 0 after text, f'.run = f.run ∧ (f'.rest ≠ [] ∨ f'.run.length = 2 * e.most + 1)) ∨ b ∈ f.run := by
  have stops : e.Stops [c, b] := by
    intro d first
    obtain rfl := Option.some.inj first
    exact e.sep_word _ sep
  -- a match that grows takes all there is
  have grown : ∀ a text, (∃ k, e.Extended (a :: text) [c, b] k) → f ∈ e.scan 0 false (a :: (text ++ [c, b])) → b ∈ f.run := by
    rintro a text ⟨k, longer⟩ listed
    have found : 0 < e.matched (a :: (text ++ [c, b])) := Nat.zero_lt_of_lt longer.longer
    have inside := matched_lt_length found
    have beyond := longer.beyond
    have shape := longer.length
    simp only [List.cons_append, List.length_append, List.length_cons, List.length_nil] at inside beyond shape
    rw [scan_hit found, List.drop_eq_nil_of_le (by simp only [List.length_append, List.length_cons, List.length_nil]; omega),
      Expression.scan, List.mem_singleton] at listed
    rw [listed, List.take_of_length_le (by simp only [List.length_append, List.length_cons, List.length_nil]; omega)]
    simp
  induction after, text using scan_induction (e := e) with
  | nil after =>
      have none : e.here after [c, b] = 0 := by
        have le := here_le (e := e) after [c, b]
        rw [matched_of_not_letter stops.letter] at le
        exact Nat.le_zero.mp le
      have none' : e.here (e.word c) [b] = 0 := by
        have le := (here_le (e := e) (e.word c) [b]).trans (matched_le_pairs [b])
        simpa [Expression.pairs] using le
      rw [List.nil_append, scan_pass none, scan_pass none'] at listed
      cases listed
  | pass after a text none ih =>
      rcases here_append after (a :: text) stops with same | ⟨rfl, longer⟩
      · rw [List.cons_append] at same listed
        rw [scan_pass (same.trans none)] at listed
        rw [scan_pass none]
        exact ih listed
      · exact .inr (grown a text longer listed)
  | hit a text found ih =>
      rcases matched_append (a :: text) stops with same | longer
      · rw [List.cons_append] at same
        have inside := matched_lt_length found
        simp only [List.length_cons] at inside
        have still : 0 < e.matched (a :: (text ++ [c, b])) := same ▸ found
        rw [List.cons_append, scan_hit still, same, List.drop_append_of_le_length (by omega), ← List.cons_append,
          List.take_append_of_le_length (by simp only [List.length_cons]; omega)] at listed
        rw [scan_hit found]
        rcases List.mem_cons.mp listed with rfl | later
        · refine .inl ⟨_, List.mem_cons_self, rfl, ?_⟩
          by_contra neither
          rw [not_or, not_not, List.drop_eq_nil_iff, List.length_take, List.length_cons] at neither
          have most := matched_le_most (e := e) (a :: text)
          have longer := matched_grows found (by simp only [List.length_cons]; omega) (by omega) sep letter
          rw [List.cons_append, same] at longer
          exact lt_irrefl _ longer
        · rcases ih later with ⟨f', before, run, stays⟩ | new
          · exact .inl ⟨f', List.mem_cons_of_mem _ before, run, stays⟩
          · exact .inr new
      · exact .inr (grown a text longer listed)

/-- Letters of a longer run that may stand before a text, and what the search finds in the text after them.
A text before it changes nothing else. -/
theorem scan_joined (after : Bool) (pre text : List α) (ends : ∀ a, pre.getLast? = some a → e.sep a = true) (fresh : pre = [] → after = false) :
    ∃ j ≤ e.most, ∃ before found, e.scan 0 after (pre ++ text) = before ++ found ∧
      ∀ front, e.Pairs j front → ∃ first, e.scan 0 false (front ++ text) = first ++ found ∧
        ∀ f ∈ first, front <+: f.run ∧ 0 < j := by
  generalize joined : pre ++ text = whole
  induction after, whole using scan_induction (e := e) generalizing pre with
  | nil after =>
      obtain ⟨rfl, rfl⟩ := List.append_eq_nil_iff.mp joined
      refine ⟨0, Nat.zero_le _, [], [], rfl, fun front none => ⟨[], ?_, by simp⟩⟩
      cases none
      rfl
  | pass after a whole none ih =>
      rcases pre with _ | ⟨b, pre⟩
      · obtain rfl := fresh rfl
        obtain rfl : text = a :: whole := joined
        refine ⟨0, Nat.zero_le _, [], _, rfl, fun front none => ⟨[], ?_, by simp⟩⟩
        cases none
        rfl
      · rw [List.cons_append, List.cons.injEq] at joined
        obtain ⟨rfl, rfl⟩ := joined
        rw [scan_pass none]
        refine ih pre (fun c last => ends c ?_) ?_ rfl
        · cases pre with
          | nil => cases last
          | cons d pre => rw [List.getLast?_cons_cons, last]
        · rintro rfl
          exact e.sep_word b (ends b rfl)
  | hit a whole found ih =>
      rcases pre with _ | ⟨b, pre⟩
      · obtain rfl : text = a :: whole := joined
        refine ⟨0, Nat.zero_le _, [], _, rfl, fun front none => ⟨[], ?_, by simp⟩⟩
        cases none
        rfl
      rw [List.cons_append, List.cons.injEq] at joined
      obtain ⟨rfl, rfl⟩ := joined
      rcases Nat.lt_or_ge pre.length (2 * e.matched (b :: (pre ++ text))) with past | within
      · obtain ⟨front, rest, split, pairs⟩ := exists_pairs (matched_le_pairs (e := e) (b :: (pre ++ text)))
        obtain ⟨middle, rfl⟩ : b :: pre <+: front := by
          have whole : b :: pre <+: front ++ rest := split ▸ List.prefix_append (b :: pre) text
          exact List.prefix_of_prefix_length_le whole (List.prefix_append front rest) (by rw [pairs.length]; exact past)
        obtain ⟨j, small, first⟩ := pairs.of_append fun c last => by
          cases letter : e.letter c with
          | false => rfl
          | true => exact absurd (ends c last) (by simp [Expression.letter_sep letter])
        have length := first.length
        rw [List.length_cons] at length
        refine ⟨j, small.trans (matched_le_most _), [_], _, scan_hit found, fun other same => ?_⟩
        obtain ⟨c, other, rfl⟩ := List.exists_cons_of_length_pos (by rw [same.length]; omega : 0 < other.length)
        have length' := same.length
        rw [List.length_cons] at length'
        have taken : e.matched (c :: (other ++ text)) = e.matched (b :: (pre ++ text)) := matched_congr first same small
        have later : (other ++ text).drop (2 * e.matched (b :: (pre ++ text))) = (pre ++ text).drop (2 * e.matched (b :: (pre ++ text))) := by
          rw [List.drop_append, List.drop_append, List.drop_eq_nil_of_le (by omega), List.drop_eq_nil_of_le past.le,
            show other.length = pre.length by omega]
        have hit := scan_hit (taken ▸ found : 0 < e.matched (c :: (other ++ text)))
        rw [taken, later] at hit
        refine ⟨[_], hit, ?_⟩
        · intro f only
          obtain rfl := List.mem_singleton.mp only
          refine ⟨List.prefix_take_iff.mpr ⟨List.prefix_append (c :: other) text, ?_⟩, by omega⟩
          rw [List.length_cons]
          omega
      · have inside : 2 * e.matched (b :: (pre ++ text)) < pre.length := by
          refine within.lt_of_ne fun whole => ?_
          have closes := (matched_ends found).2
          rw [whole, ← List.cons_append, List.drop_append_of_le_length (by simp)] at closes
          have some : pre ≠ [] := List.ne_nil_of_length_pos (by omega)
          rw [List.drop_length_cons some, List.singleton_append, closes_cons] at closes
          have sep := ends (pre.getLast some) (by rw [List.getLast?_cons, List.getLast?_eq_some_getLast some]; rfl)
          rw [Expression.letter_sep closes.1] at sep
          cases sep
        have rest : pre.drop (2 * e.matched (b :: (pre ++ text))) ≠ [] := by simpa using inside
        obtain ⟨j, small, before, later, scan, again⟩ := ih (pre.drop (2 * e.matched (b :: (pre ++ text)))) (by
            intro c last
            apply ends c
            rw [List.getLast?_drop, if_neg (by omega)] at last
            cases pre with
            | nil => cases last
            | cons d pre => rw [List.getLast?_cons_cons, last])
          (fun none => absurd none rest) (List.drop_append_of_le_length within).symm
        have hit := scan_hit found
        rw [scan] at hit
        exact ⟨j, small, _ :: before, later, hit, again⟩

/-- Where no match can go through an element, tightening works on both sides of it apart. -/
theorem tighten_append {skip : Nat} (text rest : List α) (sep : e.sep c = false) (word : e.word c = false) (fits : skip ≤ text.length) :
    e.tighten skip after (text ++ c :: rest) = e.tighten skip after text ++ c :: e.tighten 0 false rest := by
  have stops : e.Stops (c :: rest) := by
    intro d first
    obtain rfl := Option.some.inj first
    exact word
  have none : ∀ after, e.here after (c :: rest) = 0 := fun after =>
    Nat.le_zero.mp ((here_le after (c :: rest)).trans (matched_of_not_letter stops.letter).le)
  induction text generalizing skip after with
  | nil =>
      obtain rfl : skip = 0 := Nat.le_zero.mp fits
      simp [Expression.tighten, none, word]
  | cons a text ih =>
      rw [List.length_cons] at fits
      cases skip with
      | succ skip =>
          rw [List.cons_append, Expression.tighten, Expression.tighten, ih (by omega), List.append_assoc]
      | zero =>
          have same : e.here after (a :: (text ++ c :: rest)) = e.here after (a :: text) := by
            rcases here_append after (a :: text) stops with same | ⟨rfl, k, longer⟩
            · exact same
            · obtain ⟨d, t, split, through⟩ := longer.sep
              obtain ⟨rfl, -⟩ := List.cons.inj split
              rw [sep] at through
              cases through
          have within : 2 * e.here after (a :: text) ≤ text.length := by
            rcases Nat.eq_zero_or_pos (e.here after (a :: text)) with no | found
            · omega
            · have le := here_le (e := e) after (a :: text)
              have inside := matched_lt_length (found.trans_le le)
              rw [List.length_cons] at inside
              omega
          rw [List.cons_append, Expression.tighten, Expression.tighten, same, ih within, List.cons_append]

theorem Expression.Pairs.mem (h : e.Pairs n text) : ∀ a ∈ text, e.letter a = true ∨ e.sep a = true := by
  induction h with
  | nil => simp
  | cons letter sep more ih =>
      intro a listed
      rcases List.mem_cons.mp listed with rfl | listed
      · exact .inl letter
      rcases List.mem_cons.mp listed with rfl | listed
      · exact .inr sep
      · exact ih a listed

/-- A match has nothing but letters and separators. -/
theorem mem_run {f : Match α} (listed : f ∈ e.scan 0 after text) : ∀ a ∈ f.run, e.letter a = true ∨ e.sep a = true := by
  induction after, text using scan_induction (e := e) with
  | nil after => simp [Expression.scan] at listed
  | pass after a text none ih =>
      rw [scan_pass none] at listed
      exact ih listed
  | hit a text found ih =>
      rw [scan_hit found] at listed
      rcases List.mem_cons.mp listed with rfl | later
      · obtain ⟨front, rest, split, pairs⟩ := exists_pairs (matched_le_pairs (e := e) (a :: text))
        have closes := (matched_ends found).2
        intro b inside
        dsimp only at inside
        generalize e.matched (a :: text) = m at pairs closes inside
        rw [split, List.drop_left' pairs.length] at closes
        rw [split] at inside
        cases rest with
        | nil => cases closes
        | cons d rest =>
            rw [closes_cons] at closes
            rw [List.take_append, pairs.length, List.take_of_length_le (by rw [pairs.length]; omega),
              Nat.add_sub_cancel_left, List.take_succ_cons, List.take_zero, List.mem_append, List.mem_singleton] at inside
            rcases inside with before | rfl
            · exact pairs.mem b before
            · exact .inl closes.1
      · exact ih later

end Scan

end Spelled
