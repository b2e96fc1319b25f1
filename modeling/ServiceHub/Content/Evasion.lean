import ServiceHub.Catalog.Concepts
import ServiceHub.Content.Moderation

/-! # Adding text to a rejected text

A run of separated letters that touches the end of a text can be made longer by a letter of the text put next to it,
and then spells something else. What a text is recognised by otherwise stays, whatever is added.
-/

namespace ServiceHub

open Runs Spelled

/-- What the content rules take from Unicode besides: a space parts a text, and whitespace among ASCII characters
becomes whitespace. -/
structure Unicode.Spaced (u : Unicode) : Prop where
  nfkc_space : ∀ front rest : Text, u.nfkc (front ++ ' ' :: rest) = u.nfkc front ++ ' ' :: u.nfkc rest
  toLowerCase_space : ∀ front rest : Text,
    u.toLowerCase (front ++ ' ' :: rest) = u.toLowerCase front ++ ' ' :: u.toLowerCase rest
  isLetterOrNumber_space : ∀ c, isSpace c = true → u.isLetterOrNumber c = false
  nfkc_spelled : ∃ space : Char → Char, (∀ c, isSpace c = true → isSpace (space c) = true) ∧
    ∀ text : Text, (∀ c ∈ text, isAscii c = true ∨ isSpace c = true) →
      u.nfkc text = text.map fun c => if isAscii c = true then c else space c
  toLowerCase_spelled : ∀ text : Text, (∀ c ∈ text, isAscii c = true ∨ isSpace c = true) →
    u.toLowerCase text = text.map Char.toLower

/-- A spelling has a hate term, explicit profanity or a prohibited phrase. -/
def flagged (variant : Text) : Bool :=
  containsHateTerm variant || explicitProfanity.any (containsPhrase variant) || prohibitedPhrases.any (containsPhrase variant)

/-- A field is recognised when one of its spellings is flagged. -/
def Recognised (u : Unicode) (field : Text) : Prop := (contentVariants u field).any flagged = true

def Revised (u : Unicode) (input : ContentInput) : Prop :=
  ∃ assessment, assessMarketplaceContent u input = .ok assessment ∧ assessment.outcome = .revise

/-- The six spellings of the whole text. -/
def wholeSpellings (u : Unicode) : List (Text → Text) :=
  let symbolDeobfuscated := fun original => normalize u (replaceSymbols original)
  let punctuationCollapsed := fun original => normalize u (punctuatedLetters.tighten 0 false original)
  [normalize u, fun original => deobfuscate (normalize u original), symbolDeobfuscated,
    fun original => deobfuscate (symbolDeobfuscated original), punctuationCollapsed,
    fun original => deobfuscate (punctuationCollapsed original)]

/-- So many separate letters, each with a space behind it. -/
def loneLetters (j : Nat) : Text := (List.replicate j ['q', ' ']).flatten

/-- A run that spells a term and does not grow at the end of the text: more text follows it, or it has all the
fifteen letters it can have. -/
def Settled (u : Unicode) (found : Spelled.Match Char) : Prop :=
  flagged (spelledWord u found.run) = true ∧ (found.rest ≠ [] ∨ found.run.length = 2 * separatedLetters.most + 1)

/-- The text is recognised as a whole, or it has such a run however many separate letters stand before it. -/
def Kept (u : Unicode) (field : Text) : Prop :=
  (∃ spelling ∈ wholeSpellings u, flagged (spelling field) = true)
  ∨ ∀ j ≤ separatedLetters.most, ∃ found ∈ separatedLetters.scan 0 false (loneLetters j ++ field), Settled u found

instance (u : Unicode) (found : Spelled.Match Char) : Decidable (Settled u found) := inferInstanceAs (Decidable (_ ∧ _))

variable {u : Unicode} {front rest field variant phrase word original : Text} {input : ContentInput} {c : Char}

/-! ## Phrases and words -/

section Phrases

theorem containsPhrase_iff : containsPhrase variant phrase = true ↔ ' ' :: phrase ++ [' '] <:+: ' ' :: variant ++ [' '] := by
  rw [containsPhrase, decide_eq_true_iff]

theorem containsPhrase_self : containsPhrase phrase phrase = true := containsPhrase_iff.mpr (List.infix_refl _)

theorem containsPhrase_front (h : containsPhrase front phrase = true) : containsPhrase (front ++ ' ' :: rest) phrase = true := by
  refine containsPhrase_iff.mpr ((containsPhrase_iff.mp h).trans (List.IsPrefix.isInfix ⟨rest ++ [' '], ?_⟩))
  simp

theorem containsPhrase_rest (h : containsPhrase rest phrase = true) : containsPhrase (front ++ ' ' :: rest) phrase = true := by
  refine containsPhrase_iff.mpr ((containsPhrase_iff.mp h).trans (List.IsSuffix.isInfix ⟨' ' :: front, ?_⟩))
  simp

theorem containsHateTerm_append : containsHateTerm (front ++ ' ' :: rest) = (containsHateTerm front || containsHateTerm rest) := by
  rw [containsHateTerm, List.splitOn_append_cons_self, List.any_append, containsHateTerm, containsHateTerm]

theorem flagged_iff : flagged variant = true ↔ containsHateTerm variant = true
    ∨ ∃ phrase ∈ explicitProfanity ++ prohibitedPhrases, containsPhrase variant phrase = true := by
  simp only [flagged, Bool.or_eq_true, List.any_eq_true, List.mem_append, or_and_right, exists_or, or_assoc]

theorem flagged_front (h : flagged front = true) : flagged (front ++ ' ' :: rest) = true := by
  rw [flagged_iff] at h ⊢
  rcases h with hate | ⟨phrase, listed, contained⟩
  · exact .inl (by rw [containsHateTerm_append, hate, Bool.true_or])
  · exact .inr ⟨phrase, listed, containsPhrase_front contained⟩

theorem flagged_rest (h : flagged rest = true) : flagged (front ++ ' ' :: rest) = true := by
  rw [flagged_iff] at h ⊢
  rcases h with hate | ⟨phrase, listed, contained⟩
  · exact .inl (by rw [containsHateTerm_append, hate, Bool.or_true])
  · exact .inr ⟨phrase, listed, containsPhrase_rest contained⟩

theorem not_flagged_nil : flagged [] = false := by decide +kernel

theorem not_flagged_q : flagged ['q'] = false := by decide +kernel

theorem flagged_joinWith_front (h : flagged front = true) : flagged (joinWith ' ' front rest) = true := by
  rw [joinWith]
  split
  case isTrue empty =>
    rw [List.isEmpty_iff.mp empty, not_flagged_nil] at h
    cases h
  case isFalse =>
    split
    · exact h
    · exact flagged_front h

theorem flagged_joinWith_rest (h : flagged rest = true) : flagged (joinWith ' ' front rest) = true := by
  rw [joinWith]
  split
  · exact h
  · split
    case isTrue empty =>
      rw [List.isEmpty_iff.mp empty, not_flagged_nil] at h
      cases h
    case isFalse => exact flagged_rest h

/-- No term has the letter q. -/
theorem phrases_without_q : ∀ phrase ∈ explicitProfanity ++ prohibitedPhrases, 'q' ∉ phrase := by decide +kernel

theorem hate_terms_without_q : ∀ term ∈ explicitHateTerms, 'q' ∉ term := by decide +kernel

theorem infix_of_q (absent : 'q' ∉ phrase) (h : ' ' :: phrase ++ [' '] <:+: front ++ 'q' :: rest) :
    ' ' :: phrase ++ [' '] <:+: front ∨ ' ' :: phrase ++ [' '] <:+: rest :=
  infix_of_append_cons (by simp [absent]) h

theorem not_infix_of_one_space (few : front.count ' ' ≤ 1) : ¬ ' ' :: phrase ++ [' '] <:+: front := by
  intro within
  have count := within.sublist.count_le ' '
  simp only [List.cons_append, List.count_cons_self, List.count_append, List.count_nil] at count
  omega

theorem containsHateTerm_q (h : 'q' ∈ word) (one : ' ' ∉ word) : containsHateTerm word = false := by
  rw [containsHateTerm, List.splitOn_eq_singleton one, Bool.eq_false_iff]
  intro contained
  simp only [List.any_cons, List.any_nil, Bool.or_false, List.any_eq_true, Bool.or_eq_true, Bool.and_eq_true, beq_iff_eq] at contained
  obtain ⟨term, listed, rfl | ⟨-, repeated⟩⟩ := contained
  · exact hate_terms_without_q word listed h
  · rw [repeated, List.mem_flatten] at h
    obtain ⟨part, copies, inside⟩ := h
    rw [List.eq_of_mem_replicate copies] at inside
    exact hate_terms_without_q term listed inside

/-- A single word with a q is no term. -/
theorem not_flagged_of_q (h : 'q' ∈ word) (one : ' ' ∉ word) : flagged word = false := by
  rw [Bool.eq_false_iff, ne_eq, flagged_iff, containsHateTerm_q h one]
  rintro (hate | ⟨phrase, listed, contained⟩)
  · cases hate
  obtain ⟨front, rest, rfl⟩ := List.append_of_mem h
  have split : ' ' :: (front ++ 'q' :: rest) ++ [' '] = (' ' :: front) ++ 'q' :: (rest ++ [' ']) := by simp
  rw [containsPhrase_iff, split] at contained
  simp only [List.mem_append, List.mem_cons, not_or] at one
  rcases infix_of_q (phrases_without_q phrase listed) contained with within | within
  · exact not_infix_of_one_space (by simp [List.count_eq_zero_of_not_mem one.1]) within
  · exact not_infix_of_one_space (by simp [List.count_eq_zero_of_not_mem one.2.2]) within

theorem flagged_of_front_q (h : flagged (joinWith ' ' ['q'] rest) = true) : flagged rest = true := by
  rw [joinWith, if_neg (by simp)] at h
  split at h
  · rw [not_flagged_q] at h
    cases h
  rw [flagged_iff, containsHateTerm_append] at h
  rw [flagged_iff]
  rcases h with hate | ⟨phrase, listed, contained⟩
  · rw [containsHateTerm_q (by simp) (by simp), Bool.false_or] at hate
    exact .inl hate
  · rw [containsPhrase_iff] at contained
    have split : ' ' :: (['q'] ++ ' ' :: rest) ++ [' '] = [' '] ++ 'q' :: (' ' :: rest ++ [' ']) := rfl
    rw [split] at contained
    rcases infix_of_q (phrases_without_q phrase listed) contained with within | within
    · exact absurd within (not_infix_of_one_space (by simp))
    · exact .inr ⟨phrase, listed, containsPhrase_iff.mpr within⟩

theorem flagged_of_rest_q (h : flagged (joinWith ' ' front ['q']) = true) : flagged front = true := by
  rw [joinWith] at h
  split at h
  · rw [not_flagged_q] at h
    cases h
  rw [if_neg (by simp), flagged_iff, containsHateTerm_append] at h
  rw [flagged_iff]
  rcases h with hate | ⟨phrase, listed, contained⟩
  · have none : containsHateTerm ['q'] = false := containsHateTerm_q (by simp) (by simp)
    rw [none, Bool.or_false] at hate
    exact .inl hate
  · rw [containsPhrase_iff] at contained
    have split : ' ' :: (front ++ ' ' :: ['q']) ++ [' '] = (' ' :: front ++ [' ']) ++ 'q' :: [' '] := by simp
    rw [split] at contained
    rcases infix_of_q (phrases_without_q phrase listed) contained with within | within
    · exact .inr ⟨phrase, listed, containsPhrase_iff.mpr within⟩
    · exact absurd within (not_infix_of_one_space (by simp))

end Phrases

/-! ## Spellings of joined texts -/

/-- A spelling of a text with a space in it is that of the parts. -/
structure SpellsApart (spelling : Text → Text) : Prop where
  joined : ∀ front rest : Text, spelling (front ++ ' ' :: rest) = joinWith ' ' (spelling front) (spelling rest)
  letter : spelling ['q'] = ['q']

section Spellings

/-- The normal form, with the one class of characters that part words. -/
theorem normalize_eq (spaced : u.Spaced) (value : Text) : normalize u value =
    squeeze (fun c => !u.isLetterOrNumber c) ' ' ((u.toLowerCase (u.nfkc value)).map fun c => if isHidden c then ' ' else c) := by
  have parts : (!u.isLetterOrNumber ' ') = true := by rw [spaced.isLetterOrNumber_space ' ' rfl]; rfl
  refine squeeze_replace parts fun c listed => ?_
  rcases kept_by_replace listed with letter | new
  · cases space : isSpace c with
    | false => exact letter.symm
    | true =>
        rw [spaced.isLetterOrNumber_space c space] at letter
        cases letter
  · obtain rfl := List.mem_singleton.mp new
    rw [parts]
    rfl

theorem normalize_joined (spaced : u.Spaced) (front rest : Text) :
    normalize u (front ++ ' ' :: rest) = joinWith ' ' (normalize u front) (normalize u rest) := by
  have parts : (!u.isLetterOrNumber ' ') = true := by rw [spaced.isLetterOrNumber_space ' ' rfl]; rfl
  rw [normalize_eq spaced, normalize_eq spaced, normalize_eq spaced, spaced.nfkc_space, spaced.toLowerCase_space, List.map_append,
    List.map_cons]
  exact squeeze_append (p := fun c => !u.isLetterOrNumber c) parts parts _ _

theorem normalize_ascii (lawful : u.Lawful) {value : Text} (ascii : AllAscii value) : normalize u value =
    squeeze isSpace ' ' (replace (fun c => !c.isAlphanum) [' '] false
      ((value.map Char.toLower).map fun c => if isHidden c then ' ' else c)) := by
  rw [normalize, lawful.nfkc_ascii _ ascii.all, lawful.toLowerCase_ascii _ ascii.all]
  congr 1
  apply replace_congr
  intro c listed
  obtain ⟨d, lowered, rfl⟩ := List.mem_map.mp listed
  have plain := ascii.lowered d lowered
  split
  · rw [lawful.isLetterOrNumber_ascii ' ' (by decide)]
  · rw [lawful.isLetterOrNumber_ascii d plain]

theorem normalize_spellsApart (lawful : u.Lawful) (spaced : u.Spaced) : SpellsApart (normalize u) where
  joined := normalize_joined spaced
  letter := by
    rw [normalize_ascii lawful (List.all_eq_true.mp (by decide : (['q'] : Text).all isAscii = true))]
    decide

theorem SpellsApart.deobfuscated {spelling : Text → Text} (h : SpellsApart spelling) :
    SpellsApart fun original => deobfuscate (spelling original) where
  joined front rest := by
    rw [h.joined]
    simp only [joinWith, deobfuscate, List.isEmpty_map]
    split
    · rfl
    split
    · rfl
    · rw [List.map_append, List.map_cons]
      rfl
  letter := by
    rw [h.letter]
    decide

theorem wholeSpellings_apart (lawful : u.Lawful) (spaced : u.Spaced) : ∀ spelling ∈ wholeSpellings u, SpellsApart spelling := by
  have plain := normalize_spellsApart lawful spaced
  have symbols : SpellsApart fun original => normalize u (replaceSymbols original) := by
    refine ⟨fun front rest => ?_, plain.letter⟩
    rw [← plain.joined]
    simp [replaceSymbols]
  have punctuation : SpellsApart fun original => normalize u (punctuatedLetters.tighten 0 false original) := by
    refine ⟨fun front rest => ?_, ?_⟩
    · rw [tighten_append front rest (by decide) (by decide) (Nat.zero_le _), plain.joined]
    · rw [show punctuatedLetters.tighten 0 false ['q'] = ['q'] by decide, plain.letter]
  intro spelling listed
  simp only [wholeSpellings, List.mem_cons, List.not_mem_nil, or_false] at listed
  rcases listed with rfl | rfl | rfl | rfl | rfl | rfl
  · exact plain
  · exact plain.deobfuscated
  · exact symbols
  · exact symbols.deobfuscated
  · exact punctuation
  · exact punctuation.deobfuscated

theorem mem_contentVariants : variant ∈ contentVariants u original ↔
    (∃ spelling ∈ wholeSpellings u, spelling original = variant)
    ∨ ∃ found ∈ separatedLetters.scan 0 false original, spelledWord u found.run = variant := by
  simp only [contentVariants, wholeSpellings, List.mem_append, List.mem_cons, List.mem_map, List.not_mem_nil, or_false, or_and_right,
    exists_or, exists_eq_left, eq_comm]

/-- A run of separated letters is in ASCII but for its whitespace. -/
theorem run_spelled {found : Spelled.Match Char} (listed : found ∈ separatedLetters.scan 0 false original) :
    ∀ c ∈ found.run, isAscii c = true ∨ isSpace c = true := by
  intro c inside
  rcases mem_run listed c inside with letter | sep
  · have ranges := word_ranges (separatedLetters.letter_word c letter)
    left
    rw [isAscii, decide_eq_true_iff]
    omega
  · rcases Bool.or_eq_true_iff.mp sep with point | space
    · simp only [isPunctuation, Bool.or_eq_true, beq_iff_eq] at point
      rcases point with (rfl | rfl) | rfl <;> exact .inl rfl
    · exact .inr space

theorem substitutions_space (h : substitutions c = ' ') : c = ' ' := by
  unfold substitutions at h
  split at h <;> first | exact h | cases h

/-- A run with a q spells a word with a q, which is no term. -/
theorem spelledWord_q (spaced : u.Spaced) (lawful : u.Lawful) {run : Text} (spelled : ∀ c ∈ run, isAscii c = true ∨ isSpace c = true)
    (h : 'q' ∈ run) : flagged (spelledWord u run) = false := by
  obtain ⟨space, keeps, nfkc⟩ := spaced.nfkc_spelled
  have ascii : isAscii 'q' = true := rfl
  have plain : ∀ c ∈ u.nfkc run, isAscii c = true ∨ isSpace c = true := by
    intro c listed
    rw [nfkc run spelled] at listed
    obtain ⟨d, inside, rfl⟩ := List.mem_map.mp listed
    split
    case isTrue here => exact .inl here
    case isFalse other => exact .inr (keeps d ((spelled d inside).resolve_left other))
  have first : 'q' ∈ u.nfkc run := by
    rw [nfkc run spelled]
    exact List.mem_map.mpr ⟨'q', h, by rw [if_pos ascii]⟩
  have second : 'q' ∈ (u.toLowerCase (u.nfkc run)).map fun c => if isHidden c then ' ' else c := by
    rw [spaced.toLowerCase_spelled _ plain]
    exact List.mem_map.mpr ⟨'q', List.mem_map.mpr ⟨'q', first, rfl⟩, rfl⟩
  have letter : (!u.isLetterOrNumber 'q') = false := by rw [lawful.isLetterOrNumber_ascii 'q' ascii]; rfl
  have third : 'q' ∈ normalize u run := by
    rw [normalize_eq spaced]
    exact mem_squeeze (p := fun c => !u.isLetterOrNumber c) second letter
  apply not_flagged_of_q
  · exact List.mem_map.mpr ⟨'q', List.mem_filter.mpr ⟨third, rfl⟩, rfl⟩
  · intro spaceIn
    obtain ⟨c, listed, same⟩ := List.mem_map.mp spaceIn
    have other := (List.mem_filter.mp listed).2
    obtain rfl : c = ' ' := substitutions_space same
    cases other

end Spellings

/-! ## What adding text leaves and what it takes away -/

section Added

theorem recognised_iff : Recognised u original ↔
    (∃ spelling ∈ wholeSpellings u, flagged (spelling original) = true)
    ∨ ∃ found ∈ separatedLetters.scan 0 false original, flagged (spelledWord u found.run) = true := by
  simp only [Recognised, List.any_eq_true, mem_contentVariants, or_and_right, exists_or]
  constructor
  · rintro (⟨_, ⟨spelling, listed, rfl⟩, flag⟩ | ⟨_, ⟨found, listed, rfl⟩, flag⟩)
    · exact .inl ⟨spelling, listed, flag⟩
    · exact .inr ⟨found, listed, flag⟩
  · rintro (⟨spelling, listed, flag⟩ | ⟨found, listed, flag⟩)
    · exact .inl ⟨_, ⟨spelling, listed, rfl⟩, flag⟩
    · exact .inr ⟨_, ⟨found, listed, rfl⟩, flag⟩

theorem loneLetters_pairs (j : Nat) : separatedLetters.Pairs j (loneLetters j) := by
  induction j with
  | zero => exact .nil
  | succ j ih =>
      have shape : loneLetters (j + 1) = 'q' :: ' ' :: loneLetters j := by simp [loneLetters, List.replicate_succ]
      rw [shape]
      exact .cons rfl rfl ih

/-- A text stands at the beginning or behind a space, and at the end or before a space. -/
structure Apart (front rest : Text) : Prop where
  before : ∀ c, front.getLast? = some c → c = ' '
  after : ∀ c, rest.head? = some c → c = ' '

theorem SpellsApart.flagged_within {spelling : Text → Text} (apart : SpellsApart spelling) (h : flagged (spelling field) = true)
    (parts : Apart front rest) : flagged (spelling (front ++ field ++ rest)) = true := by
  have first : flagged (spelling (front ++ field)) = true := by
    rcases List.eq_nil_or_concat front with rfl | ⟨before, c, rfl⟩
    · exact h
    · obtain rfl := parts.before c (by simp)
      rw [List.concat_eq_append, List.append_assoc, List.singleton_append, apart.joined]
      exact flagged_joinWith_rest h
  cases rest with
  | nil => rwa [List.append_nil]
  | cons c rest =>
      obtain rfl := parts.after c rfl
      rw [apart.joined]
      exact flagged_joinWith_front first

/-- A kept text is recognised within every longer text. -/
theorem Kept.within (kept : Kept u field) (lawful : u.Lawful) (spaced : u.Spaced) (parts : Apart front rest) :
    Recognised u (front ++ field ++ rest) := by
  rw [recognised_iff]
  rcases kept with ⟨spelling, listed, flag⟩ | runs
  · exact .inl ⟨spelling, listed, (wholeSpellings_apart lawful spaced spelling listed).flagged_within flag parts⟩
  right
  have sep : ∀ c, front.getLast? = some c → separatedLetters.sep c = true := by
    intro c last
    rw [parts.before c last]
    rfl
  have stops : separatedLetters.Stops rest := by
    intro c first
    rw [parts.after c first]
    rfl
  obtain ⟨j, small, before, found, scan, others⟩ := scan_joined false front (field ++ rest) sep fun _ => rfl
  obtain ⟨first, lone, crossing⟩ := others (loneLetters j) (loneLetters_pairs j)
  obtain ⟨f, listed, flag, stays⟩ := runs j small
  have still := mem_scan_append stops listed stays
  rw [List.append_assoc, lone] at still
  rcases List.mem_append.mp still with crossed | later
  · -- the run with the letters before the text spells no term
    obtain ⟨starts, some⟩ := crossing _ crossed
    have q : 'q' ∈ f.run := by
      apply starts.subset
      obtain ⟨j, rfl⟩ : ∃ l, j = l + 1 := ⟨j - 1, by omega⟩
      simp [loneLetters, List.replicate_succ]
    rw [spelledWord_q spaced lawful (run_spelled listed) q] at flag
    cases flag
  · refine ⟨⟨f.run, f.rest ++ rest⟩, ?_, flag⟩
    rw [List.append_assoc, scan]
    exact List.mem_append_right _ later

theorem SpellsApart.flagged_of_letters {spelling : Text → Text} (apart : SpellsApart spelling) (j : Nat)
    (h : flagged (spelling (loneLetters j ++ (field ++ [' ', 'q']))) = true) : flagged (spelling field) = true := by
  induction j with
  | zero =>
      have split : loneLetters 0 ++ (field ++ [' ', 'q']) = field ++ ' ' :: ['q'] := rfl
      rw [split, apart.joined, apart.letter] at h
      exact flagged_of_rest_q h
  | succ j ih =>
      have split : loneLetters (j + 1) ++ (field ++ [' ', 'q']) = ['q'] ++ ' ' :: (loneLetters j ++ (field ++ [' ', 'q'])) := by
        simp [loneLetters, List.replicate_succ]
      rw [split, apart.joined, apart.letter] at h
      exact ih (flagged_of_front_q h)

/-- A text that is not kept is not recognised between some letters and one letter more. -/
theorem evaded (lawful : u.Lawful) (spaced : u.Spaced) (lost : ¬ Kept u field) :
    ∃ j ≤ separatedLetters.most, ¬ Recognised u (loneLetters j ++ (field ++ [' ', 'q'])) := by
  rw [Kept, not_or] at lost
  obtain ⟨whole, runs⟩ := lost
  push Not at runs
  obtain ⟨j, small, none⟩ := runs
  refine ⟨j, small, ?_⟩
  rw [recognised_iff]
  rintro (⟨spelling, listed, flag⟩ | ⟨found, listed, flag⟩)
  · exact whole ⟨spelling, listed, (wholeSpellings_apart lawful spaced spelling listed).flagged_of_letters j flag⟩
  · have spelled := run_spelled listed
    rw [← List.append_assoc] at listed
    rcases of_mem_scan_append (by rfl) (by rfl) listed with ⟨f, before, run, stays⟩ | q
    · exact none f before ⟨run ▸ flag, stays⟩
    · rw [spelledWord_q spaced lawful spelled q] at flag
      cases flag

end Added

/-! ## The assessment -/

section Assessment

theorem revised_of_recognised (h : Recognised u (input.title ++ ' ' :: input.description)) : Revised u input := by
  rw [Recognised, List.any_eq_true] at h
  obtain ⟨variant, listed, flag⟩ := h
  rw [flagged_iff] at flag
  simp only [Revised, assessMarketplaceContent]
  split
  · exact ⟨_, rfl, rfl⟩
  case isFalse noHate =>
    split
    · exact ⟨_, rfl, rfl⟩
    case isFalse noProfanity =>
      split
      · exact ⟨_, rfl, rfl⟩
      case isFalse noPhrase =>
        simp only [List.any_eq_true, not_exists, not_and, Bool.or_eq_true, containsAny] at noHate noProfanity noPhrase
        rcases flag with hate | ⟨phrase, term, contained⟩
        · exact absurd hate (noHate variant listed)
        · rcases List.mem_append.mp term with profane | prohibited
          · exact absurd (.inl contained) (noProfanity variant listed phrase profane)
          · exact absurd contained (noPhrase variant listed phrase prohibited)

/-- A request in a category without cues. -/
def paintingRequest (title description : Text) : ContentInput := ⟨.serviceRequest, "Painting".toList, title, description⟩

theorem canonical_of_mem (lawful : u.Lawful) {category : CatalogCategory} (listed : category ∈ serviceCategoryCatalog) :
    canonicalCategoryName u category.name.toList = category.name.toList := by
  rw [canonicalCategoryName, official_of_mem lawful listed]

theorem normalize_painting (lawful : u.Lawful) :
    normalize u (canonicalCategoryName u "Painting".toList) = "painting".toList := by
  have listed : (⟨"Painting", ["Painting Services"]⟩ : CatalogCategory) ∈ serviceCategoryCatalog := by simp [serviceCategoryCatalog]
  have canonical := canonical_of_mem lawful listed
  dsimp only at canonical
  rw [canonical, normalize_ascii lawful (List.all_eq_true.mp (by decide : ("Painting".toList : Text).all isAscii = true))]
  decide

theorem passes_of_not_recognised (lawful : u.Lawful) {title description : Text} (h : ¬ Recognised u (title ++ ' ' :: description)) :
    assessMarketplaceContent u (paintingRequest title description) = .ok (decision .pass .clear "Content check passed." none) := by
  simp only [Recognised, List.any_eq_true, not_exists, not_and, flagged_iff, not_or] at h
  have noHate : (contentVariants u (title ++ ' ' :: description)).any containsHateTerm = false := by
    simp only [List.any_eq_false]
    exact fun variant listed => (h variant listed).1
  have noProfanity : ((contentVariants u (title ++ ' ' :: description)).any fun variant =>
      explicitProfanity.any fun term => containsPhrase variant term || variant == term) = false := by
    simp only [List.any_eq_false, List.any_eq_true, not_exists, not_and, Bool.or_eq_true, beq_iff_eq]
    rintro variant listed term profane (contained | rfl)
    · exact (h variant listed).2 term (List.mem_append_left _ profane) contained
    · exact (h variant listed).2 variant (List.mem_append_left _ profane) containsPhrase_self
  have noPhrase : containsAny prohibitedPhrases (contentVariants u (title ++ ' ' :: description)) = false := by
    simp only [containsAny, List.any_eq_false, List.any_eq_true, not_exists, not_and]
    exact fun variant listed phrase term => (h variant listed).2 phrase (List.mem_append_right _ term)
  have noCues : cuesOf "painting".toList = .ok none := by decide
  simp only [assessMarketplaceContent, paintingRequest, noHate, noProfanity, noPhrase, normalize_painting lawful, noCues,
    Bool.false_eq_true, if_false, reduceCtorEq, false_and]
  rfl

theorem not_revised (lawful : u.Lawful) {title description : Text} (h : ¬ Recognised u (title ++ ' ' :: description)) :
    ¬ Revised u (paintingRequest title description) := by
  rintro ⟨assessment, ran, revise⟩
  rw [passes_of_not_recognised lawful h] at ran
  obtain rfl := Except.ok.inj ran
  cases revise

end Assessment

/-- Adding text to a recognised text never lets it pass, in any place, if and only if the text is kept. -/
theorem recognised_text_revised (u : Unicode) (lawful : u.Lawful) (spaced : u.Spaced) (field : Text)
    (_ : Recognised u field) :
    (∀ kind categoryName other further,
      Revised u ⟨kind, categoryName, field, other⟩ ∧ Revised u ⟨kind, categoryName, other, field⟩
      ∧ Revised u ⟨kind, categoryName, field ++ ' ' :: further, other⟩
      ∧ Revised u ⟨kind, categoryName, other, field ++ ' ' :: further⟩)
    ↔ Kept u field := by
  constructor
  · intro revised
    by_contra lost
    obtain ⟨j, -, passes⟩ := evaded lawful spaced lost
    cases j with
    | zero =>
        have title := (revised .serviceRequest "Painting".toList ['q'] []).1
        exact not_revised lawful passes title
    | succ j =>
        have split : loneLetters (j + 1) ++ (field ++ [' ', 'q']) = (loneLetters j ++ ['q']) ++ ' ' :: (field ++ ' ' :: ['q']) := by
          simp [loneLetters, List.replicate_succ']
        rw [split] at passes
        have description := (revised .serviceRequest "Painting".toList (loneLetters j ++ ['q']) ['q']).2.2.2
        exact not_revised lawful passes description
  · intro kept kind categoryName other further
    have within : ∀ {title description : Text} (front rest : Text), Apart front rest →
        title ++ ' ' :: description = front ++ field ++ rest → Revised u ⟨kind, categoryName, title, description⟩ := by
      intro title description front rest parts same
      apply revised_of_recognised
      rw [same]
      exact kept.within lawful spaced parts
    refine ⟨within [] (' ' :: other) ⟨by simp, by simp⟩ (by simp), ?_, ?_, ?_⟩
    · exact within (other ++ [' ']) [] ⟨by simp, by simp⟩ (by simp)
    · exact within [] (' ' :: (further ++ ' ' :: other)) ⟨by simp, by simp⟩ (by simp)
    · exact within (other ++ [' ']) (' ' :: further) ⟨by simp, by simp⟩ (by simp)

theorem asciiUnicode_spaced : asciiUnicode.Spaced where
  nfkc_space _ _ := rfl
  toLowerCase_space front rest := by
    change (front ++ ' ' :: rest).map Char.toLower = _
    rw [List.map_append, List.map_cons]
    rfl
  isLetterOrNumber_space c space := by
    have other := isSpace_not_word space
    rw [isWordCharacter, Bool.or_eq_false_iff] at other
    exact other.1
  nfkc_spelled := ⟨id, fun _ space => space, fun text _ => by simp [asciiUnicode]⟩
  toLowerCase_spelled _ _ := rfl

/-- The run of the first text has more text behind it. That of the second text is at the end, so that it takes one
letter more. -/
theorem recognised_text_revised_within :
    (Recognised asciiUnicode "Do not f u c k it up".toList
      ∧ Revised asciiUnicode ⟨.serviceListing, "Painting".toList, "A b c".toList, "Do not f u c k it up".toList ++ ' ' :: "I beg".toList⟩)
    ∧ Recognised asciiUnicode "Paint a wall f u c k".toList
      ∧ ¬ ∀ kind categoryName other further,
        Revised asciiUnicode ⟨kind, categoryName, "Paint a wall f u c k".toList, other⟩
        ∧ Revised asciiUnicode ⟨kind, categoryName, other, "Paint a wall f u c k".toList⟩
        ∧ Revised asciiUnicode ⟨kind, categoryName, "Paint a wall f u c k".toList ++ ' ' :: further, other⟩
        ∧ Revised asciiUnicode ⟨kind, categoryName, other, "Paint a wall f u c k".toList ++ ' ' :: further⟩ := by
  have known : Recognised asciiUnicode "Do not f u c k it up".toList := by
    unfold Recognised
    decide +kernel
  have known' : Recognised asciiUnicode "Paint a wall f u c k".toList := by
    unfold Recognised
    decide +kernel
  have kept : Kept asciiUnicode "Do not f u c k it up".toList := by
    refine .inr ?_
    decide +kernel
  have lost : ¬ Kept asciiUnicode "Paint a wall f u c k".toList := by
    unfold Kept
    decide +kernel
  have first := recognised_text_revised asciiUnicode asciiUnicode_lawful asciiUnicode_spaced _ known
  have second := recognised_text_revised asciiUnicode asciiUnicode_lawful asciiUnicode_spaced _ known'
  exact ⟨⟨known, (first.mpr kept .serviceListing _ _ _).2.2.2⟩, known', fun all => lost (second.mp all)⟩

/-- The title is recognised alone, and the pair passes: the run takes the first letter of the description. -/
theorem spaced_title_passes :
    Recognised asciiUnicode "Paint a wall f u c k".toList
    ∧ assessMarketplaceContent asciiUnicode
        ⟨.serviceRequest, "Painting".toList, "Paint a wall f u c k".toList, "I need this done today".toList⟩
      = .ok ⟨.pass, .clear, "Content check passed.", "2026-10-13.1", none⟩ := by
  have known : Recognised asciiUnicode "Paint a wall f u c k".toList := by
    unfold Recognised
    decide +kernel
  have hidden : ¬ Recognised asciiUnicode ("Paint a wall f u c k".toList ++ ' ' :: "I need this done today".toList) := by
    unfold Recognised
    decide +kernel
  exact ⟨known, passes_of_not_recognised asciiUnicode_lawful hidden⟩

end ServiceHub
