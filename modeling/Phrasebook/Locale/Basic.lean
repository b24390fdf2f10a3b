import Phrasebook.Text.Split
import Phrasebook.Text.Blank

/-!
# Phrasebook.Locale.Basic

Locale identifiers: a language, an optional script and an optional region.

The canonical form has a language of two or three small letters, a script of a
capital and three small letters, and a region of two capitals or three digits.
A `Locale` holds its parts in that form and carries the proof, so two locales
are equal exactly when their tags are.

Tags are read with either `-` or `_` between the subtags, in any case, and with
blanks around them.  After the language come a script, a region and any number
of variants, in this order; the variants must differ from each other and are
dropped.
-/

namespace Phrasebook

/-! ## subtags -/

namespace Subtag

/-- A language: two or three small letters. -/
def isLanguage (s : List Char) : Bool :=
  (s.length == 2 || s.length == 3) && s.all Char.isLower

/-- A script: a capital and three small letters. -/
def isScript : List Char → Bool
  | [a, b, c, d] => a.isUpper && b.isLower && c.isLower && d.isLower
  | _ => false

/-- A region: two capitals or three digits. -/
def isRegion (s : List Char) : Bool :=
  (s.length == 2 && s.all Char.isUpper) || (s.length == 3 && s.all Char.isDigit)

/-- A variant: five to eight letters and digits, or four of which the first is a
digit. -/
def isVariant (s : List Char) : Bool :=
  s.all Char.isAlphanum &&
    ((5 ≤ s.length && s.length ≤ 8) || (s.length == 4 && (s.headD 'a').isDigit))

/-- A text in small letters. -/
def lower (s : List Char) : List Char := s.map Char.toLower

/-- A text in capitals. -/
def upper (s : List Char) : List Char := s.map Char.toUpper

/-- A text whose first letter is a capital and the others small. -/
def title : List Char → List Char
  | [] => []
  | c :: s => c.toUpper :: lower s

end Subtag

/-! ## identifiers -/

/-- A locale identifier in canonical form. -/
structure Locale where
  language : String
  script : Option String
  region : Option String
  isLanguage_language : Subtag.isLanguage language.toList = true
  isScript_script : ∀ s ∈ script, Subtag.isScript s.toList = true
  isRegion_region : ∀ r ∈ region, Subtag.isRegion r.toList = true
deriving DecidableEq

namespace Locale

/-- The subtags of an identifier, most general first. -/
def subtags (l : Locale) : List String := l.language :: (l.script.toList ++ l.region.toList)

/-- The canonical tag: the subtags with hyphens between them. -/
def tag (l : Locale) : String := "-".intercalate l.subtags

/-- Neither script nor region is given. -/
def isLanguageOnly (l : Locale) : Bool := l.script.isNone && l.region.isNone

/-- The identifier without its region. -/
def withoutRegion (l : Locale) : Locale := { l with region := none, isRegion_region := by simp }

/-- The identifier without its script. -/
def withoutScript (l : Locale) : Locale := { l with script := none, isScript_script := by simp }

/-- The bare language of an identifier. -/
def languageOnly (l : Locale) : Locale := l.withoutRegion.withoutScript

/-! ## reading -/

/-- Why a tag names no locale. -/
inductive Error where
  | invalid (tag : String)
deriving DecidableEq, Repr

/-- The wording of an error. -/
def Error.message : Error → String
  | .invalid tag => "invalid locale tag '" ++ tag ++ "'"

/-- Whether the remaining subtags are variants that differ from each other. -/
def areVariants (subtags : List (List Char)) : Bool :=
  let names := subtags.map Subtag.lower
  names.all Subtag.isVariant && decide names.Nodup

/-- The subtag in front, brought into form, if it then is of the given kind; and the subtags
that remain. -/
def readSubtag (form : List Char → List Char) (kind : List Char → Bool) :
    List (List Char) → Option (List Char) × List (List Char)
  | [] => (none, [])
  | s :: rest => if kind (form s) then (some (form s), rest) else (none, s :: rest)

/-- The script and region in front of the variants. -/
def readScriptAndRegion (subtags : List (List Char)) :
    Option (List Char) × Option (List Char) × List (List Char) :=
  let (script, subtags) := readSubtag Subtag.title Subtag.isScript subtags
  let (region, subtags) := readSubtag Subtag.upper Subtag.isRegion subtags
  (script, region, subtags)

/-- The identifier of three parts, if they are in canonical form. -/
def ofParts? (language : List Char) (script region : Option (List Char)) : Option Locale :=
  if h : Subtag.isLanguage language = true ∧ (∀ s ∈ script, Subtag.isScript s = true) ∧
      (∀ r ∈ region, Subtag.isRegion r = true) then
    some
      { language := String.ofList language
        script := script.map String.ofList
        region := region.map String.ofList
        isLanguage_language := by simpa using h.1
        isScript_script := by
          intro s hs
          simp only [Option.mem_def, Option.map_eq_some_iff] at hs
          obtain ⟨t, ht, rfl⟩ := hs
          simpa using h.2.1 t ht
        isRegion_region := by
          intro s hs
          simp only [Option.mem_def, Option.map_eq_some_iff] at hs
          obtain ⟨t, ht, rfl⟩ := hs
          simpa using h.2.2 t ht }
  else none

/-- The identifier that subtags name. -/
def ofSubtags? : List (List Char) → Option Locale
  | [] => none
  | language :: rest =>
    let (script, region, variants) := readScriptAndRegion rest
    if areVariants variants then ofParts? (Subtag.lower language) script region else none

/-- The separator of subtags in canonical form. -/
def hyphenated (s : List Char) : List Char := s.map fun c => if c = '_' then '-' else c

/-- The identifier that a tag names. -/
def parse (tag : String) : Except Error Locale :=
  match ofSubtags? (Text.splitOn '-' (hyphenated (Text.trimChars tag.toList))) with
  | some l => .ok l
  | none => .error (.invalid tag)

/-! ## order -/

/-- The order of identifiers: by tag, then by the size of the language, the script and the
region. -/
def order (a b : Locale) : Ordering :=
  (compare a.tag b.tag).then <|
    (compare a.language.utf8ByteSize b.language.utf8ByteSize).then <|
      (compare a.script b.script).then (compare a.region b.region)

/-- Identifiers in ascending order, each once. -/
def sortedDistinct (ls : List Locale) : List Locale :=
  (ls.mergeSort fun a b => (order a b).isLE).eraseDups

example : (parse " EN_us ").toOption.map tag = some "en-US" := by decide +kernel
example : (parse "zh-hANT-tw-Pinyin").toOption.map tag = some "zh-Hant-TW" := by decide +kernel
example : (parse "de-1996-1996").toOption = none := by decide +kernel
example : (parse "").toOption = none := by decide +kernel

end Locale

end Phrasebook
