import Mathlib.Data.List.Infix
import ServiceHub.Catalog.Names
import ServiceHub.Lib.Spelled

/-! # The local content policy

Titles and descriptions of listings and requests are compared with lists of terms. A text is read in six spellings of
the whole text and, besides, every run of letters with separators between them is read as one word.
-/

namespace ServiceHub

open Runs Spelled

inductive ContentKind where
  | serviceListing
  | serviceRequest
  deriving Repr, DecidableEq

inductive ModerationOutcome where
  | pass
  | revise
  deriving Repr, DecidableEq

inductive ModerationReason where
  | clear
  | profanity
  | hateSpeech
  | prohibitedService
  | highRisk
  | categoryMismatch
  deriving Repr, DecidableEq

inductive ContentField where
  | title
  | description
  | category
  deriving Repr, DecidableEq

def contentPolicyVersion : String := "2026-10-13.1"

/-- `ContentDecision` of the policy. -/
structure ModerationDecision where
  outcome : ModerationOutcome
  reasonCode : ModerationReason
  message : String
  policyVersion : String
  field : Option ContentField
  deriving Repr, DecidableEq

/-- `TypeError: selectedCues.some is not a function`. -/
inductive ModerationError where
  | someIsNotAFunction
  deriving Repr, DecidableEq

structure ContentInput where
  kind : ContentKind
  categoryName : Text
  title : Text
  description : Text
  deriving Repr, DecidableEq

/-! ## The terms -/

def explicitProfanity : List Text :=
  ["fuck", "fucking", "motherfucker", "putang ina", "tangina"].map String.toList

def explicitHateTerms : List Text := ["nigger", "nigga"].map String.toList

def prohibitedPhrases : List Text :=
  ["sell illegal drugs", "buy illegal drugs", "sell stolen goods", "buy stolen goods", "forge government id",
   "fake government id", "hack someone account", "hack someone s account", "sell firearms", "buy firearms",
   "sell prescription drugs", "magbenta ng droga", "benta ng droga", "baligya og droga"].map String.toList

def highRiskPhrases : List Text := ["private security service", "medical treatment service"].map String.toList

def categoryCues : List (Text × List Text) :=
  [("plumbing", ["plumb", "pipe", "faucet", "leak", "toilet", "drain"]),
   ("electrical wiring repairs", ["electrical", "electrician", "wiring", "outlet", "circuit"]),
   ("home office cleaning", ["clean", "mop", "sweep"]),
   ("gardening landscaping", ["lawn", "grass", "garden", "mow"]),
   ("tutoring lessons", ["tutor", "teach", "lesson", "calculus", "math", "study"]),
   ("aircon cleaning repair", ["aircon", "air conditioner", "air conditioning", "ac unit"]),
   ("appliance repair", ["appliance", "refrigerator", "washing machine", "microwave"]),
   ("carpentry furniture repair", ["carpenter", "woodwork", "cabinet", "furniture"]),
   ("computer laptop repair", ["computer", "laptop", "desktop", "motherboard", "printer", "notebook"]),
   ("phone tablet repair", ["phone", "tablet", "iphone", "ipad", "smartphone"]),
   ("internet wi fi setup", ["router", "wifi", "wi fi", "internet", "network"]),
   ("laundry ironing", ["laundry", "ironing", "clothes washing"])].map
    fun (name, cues) => (name.toList, cues.map String.toList)

/-! ## Spellings -/

/-- `[\u0000-\u001f\u007f-\u009f\u200b-\u200f\u2060\ufeff]`. -/
def isHidden (c : Char) : Bool :=
  let n := c.toNat
  n ≤ 0x1F || (0x7F ≤ n && n ≤ 0x9F) || (0x200B ≤ n && n ≤ 0x200F) || n == 0x2060 || n == 0xFEFF

/-- `[A-Za-z0-9_]`, which `\b` is about. -/
def isWordCharacter (c : Char) : Bool := c.isAlphanum || c == '_'

/-- `[.\-*]`. -/
def isPunctuation (c : Char) : Bool := c == '.' || c == '-' || c == '*'

def substitutions : Char → Char
  | '0' => 'o'
  | '1' => 'i'
  | '3' => 'e'
  | '4' => 'a'
  | '5' => 's'
  | '7' => 't'
  | other => other

def deobfuscate (value : Text) : Text := value.map substitutions

/-- `.replace(/[!|]/g, "i").replace(/@/g, "a").replace(/\$/g, "s")`. -/
def replaceSymbols (value : Text) : Text :=
  value.map fun symbol => match symbol with
    | '!' => 'i'
    | '|' => 'i'
    | '@' => 'a'
    | '$' => 's'
    | other => other

theorem word_ranges {c : Char} (word : isWordCharacter c = true) : (48 ≤ c.toNat ∧ c.toNat ≤ 57)
    ∨ (65 ≤ c.toNat ∧ c.toNat ≤ 90) ∨ (97 ≤ c.toNat ∧ c.toNat ≤ 122) ∨ c.toNat = 95 := by
  have range : ∀ {low high : UInt32}, (decide (low ≤ c.val) && decide (c.val ≤ high)) = true →
      low.toNat ≤ c.toNat ∧ c.toNat ≤ high.toNat := by
    intro low high inside
    rw [Bool.and_eq_true, decide_eq_true_iff, decide_eq_true_iff] at inside
    exact inside
  change (((decide (65 ≤ c.val ∧ c.val ≤ 90) || c.isLower) || c.isDigit) || c == '_') = true at word
  rw [Bool.or_eq_true, Bool.or_eq_true, Bool.or_eq_true, beq_iff_eq] at word
  rcases word with ((upper | lower) | digit) | rfl
  · exact .inr (.inl (of_decide_eq_true upper))
  · exact .inr (.inr (.inl (range lower)))
  · exact .inl (range digit)
  · exact .inr (.inr (.inr rfl))

theorem isSpace_not_word {c : Char} (space : isSpace c = true) : isWordCharacter c = false := by
  rw [Bool.eq_false_iff]
  intro word
  have ranges := word_ranges word
  simp only [isSpace, Bool.or_eq_true, Bool.and_eq_true, decide_eq_true_eq, beq_iff_eq] at space
  omega

/-- `\b(?:[a-zA-Z0-9][.\-*]){3,14}[a-zA-Z0-9]\b`. -/
def punctuatedLetters : Expression Char where
  letter := Char.isAlphanum
  sep := isPunctuation
  word := isWordCharacter
  least := 3
  most := 14
  letter_word c letter := by simp [isWordCharacter, letter]
  sep_word c sep := by
    simp only [isPunctuation, Bool.or_eq_true, beq_iff_eq] at sep
    rcases sep with (rfl | rfl) | rfl <;> decide
  positive := by decide

/-- `\b(?:[a-zA-Z0-9][.\-*\s]){3,14}[a-zA-Z0-9]\b`. -/
def separatedLetters : Expression Char where
  letter := Char.isAlphanum
  sep c := isPunctuation c || isSpace c
  word := isWordCharacter
  least := 3
  most := 14
  letter_word c letter := by simp [isWordCharacter, letter]
  sep_word c sep := by
    rcases Bool.or_eq_true_iff.mp sep with point | space
    · exact punctuatedLetters.sep_word c point
    · exact isSpace_not_word space
  positive := by decide

def containsPhrase (haystack phrase : Text) : Bool := decide (' ' :: phrase ++ [' '] <:+: ' ' :: haystack ++ [' '])

def containsHateTerm (haystack : Text) : Bool :=
  (haystack.splitOn ' ').any fun word => explicitHateTerms.any fun term =>
    word == term || (term.length * 2 ≤ codeUnits word && codeUnits word % term.length == 0
      && word == (List.replicate (codeUnits word / term.length) term).flatten)

def hasCue (text cue : Text) : Bool :=
  if cue.contains ' ' then containsPhrase text cue
  else (text.splitOn ' ').any fun word => word == cue || (5 ≤ cue.length && cue.isPrefixOf word)

/-- `categoryCues[selected]`. Every object has a property `constructor`, which is a function. -/
def cuesOf (selected : Text) : Except ModerationError (Option (List Text)) :=
  if selected == "constructor".toList then .error .someIsNotAFunction
  else .ok ((categoryCues.find? fun cues => cues.1 == selected).map Prod.snd)

section Policy

variable (u : Unicode)

def normalize (value : Text) : Text :=
  squeeze isSpace ' ' (replace (fun c => !u.isLetterOrNumber c) [' '] false
    ((u.toLowerCase (u.nfkc value)).map fun c => if isHidden c then ' ' else c))

/-- A run of separated letters read as one word. -/
def spelledWord (candidate : Text) : Text := deobfuscate ((normalize u candidate).filter fun c => !isSpace c)

def contentVariants (original : Text) : List Text :=
  let text := normalize u original
  let symbolDeobfuscated := normalize u (replaceSymbols original)
  let punctuationCollapsed := normalize u (punctuatedLetters.tighten 0 false original)
  [text, deobfuscate text, symbolDeobfuscated, deobfuscate symbolDeobfuscated, punctuationCollapsed,
    deobfuscate punctuationCollapsed]
    ++ (separatedLetters.scan 0 false original).map fun found => spelledWord u found.run

def decision (outcome : ModerationOutcome) (reasonCode : ModerationReason) (message : String)
    (field : Option ContentField) : ModerationDecision :=
  ⟨outcome, reasonCode, message, contentPolicyVersion, field⟩

def containsAny (phrases : List Text) (variants : List Text) : Bool :=
  variants.any fun variant => phrases.any (containsPhrase variant)

/-- The category rule: the text says nothing of the selected category and speaks of exactly one other. -/
def mismatches (selected : Text) (cues : List Text) (text : Text) : Bool :=
  !cues.any (hasCue text)
    && (categoryCues.filter fun (name, cues) => name != selected && cues.any (hasCue text)).length == 1

def assessMarketplaceContent (input : ContentInput) : Except ModerationError ModerationDecision :=
  let original := input.title ++ ' ' :: input.description
  let text := normalize u original
  let variants := contentVariants u original
  let titleVariants := contentVariants u input.title
  let descriptionVariants := contentVariants u input.description
  if variants.any containsHateTerm then
    .ok (decision .revise .hateSpeech "Remove hateful or abusive language before publishing."
      (if titleVariants.any containsHateTerm then some .title
        else if descriptionVariants.any containsHateTerm then some .description else none))
  else if variants.any fun variant => explicitProfanity.any fun term => containsPhrase variant term || variant == term then
    .ok (decision .revise .profanity "Remove offensive language before publishing."
      (some (if containsAny explicitProfanity titleVariants then .title else .description)))
  else if containsAny prohibitedPhrases variants then
    .ok (decision .revise .prohibitedService
      "This content cannot be published on ServiceHub. Please revise your submission."
      (if containsAny prohibitedPhrases titleVariants then some .title
        else if containsAny prohibitedPhrases descriptionVariants then some .description else none))
  else if input.kind = .serviceListing ∧ containsAny highRiskPhrases variants = true then
    .ok (decision .revise .highRisk
      "ServiceHub does not support private security or medical treatment services. Offer a supported type of service."
      (some .description))
  else do
    let selected := normalize u (canonicalCategoryName u input.categoryName)
    match ← cuesOf selected with
    | some cues =>
        if mismatches selected cues text then
          .ok (decision .revise .categoryMismatch
            "Choose the category that matches the service you described before publishing." (some .category))
        else .ok (decision .pass .clear "Content check passed." none)
    | none => .ok (decision .pass .clear "Content check passed." none)

end Policy

end ServiceHub
