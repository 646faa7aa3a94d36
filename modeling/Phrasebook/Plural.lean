/-
  Phrasebook.Plural
  ────────────────────────────────
  **PLURAL CATEGORIES.**

  The category that a language uses for a whole number of things, by the
  cardinal rules of the CLDR.  A rule depends on the absolute value of the
  number only.  A locale is named by its language, which is what stands in
  front of the first `-` or `_`, in either case; languages without rules of
  their own count like English.
-/

namespace Phrasebook

/-! ## §1. Categories. -/

/-- The categories of the CLDR. -/
inductive PluralCategory where
  | zero | one | two | few | many | other
  deriving Repr, DecidableEq

/-- The name of a category. -/
def PluralCategory.name : PluralCategory → String
  | .zero => "zero"
  | .one => "one"
  | .two => "two"
  | .few => "few"
  | .many => "many"
  | .other => "other"

/-! ## §2. The rules. -/

/-- The ways in which languages count. -/
inductive PluralRule where
  /-- No categories. -/
  | none
  /-- One, and the rest. -/
  | one
  /-- Zero and one, and the rest. -/
  | upToOne
  /-- One, round millions, and the rest. -/
  | oneMillion
  /-- Zero and one, round millions, and the rest. -/
  | upToOneMillion
  /-- One, two, and the rest. -/
  | oneTwo
  /-- The six categories of Arabic. -/
  | arabic
  /-- One, two to four, and the rest. -/
  | czech
  /-- By the last two digits, with one for 1 only. -/
  | polish
  /-- Zero and the numbers that end in 01 to 19 are few. -/
  | romanian
  /-- By the last two digits. -/
  | eastSlavic
  deriving Repr, DecidableEq

/-- Do the last two digits call for the few of a Slavic language? -/
def endsInFew (n : Nat) : Bool :=
  2 ≤ n % 10 && n % 10 ≤ 4 && !(12 ≤ n % 100 && n % 100 ≤ 14)

/-- Is the number a round million, and not zero? -/
def isRoundMillion (n : Nat) : Bool :=
  n != 0 && n % 1000000 == 0

/-- The category of a number by a rule. -/
def PluralRule.category (rule : PluralRule) (n : Nat) : PluralCategory :=
  match rule with
  | .none => .other
  | .one => if n = 1 then .one else .other
  | .upToOne => if n ≤ 1 then .one else .other
  | .oneMillion =>
    if n = 1 then .one else if isRoundMillion n then .many else .other
  | .upToOneMillion =>
    if n ≤ 1 then .one else if isRoundMillion n then .many else .other
  | .oneTwo => if n = 1 then .one else if n = 2 then .two else .other
  | .arabic =>
    if n = 0 then .zero
    else if n = 1 then .one
    else if n = 2 then .two
    else if 3 ≤ n % 100 && n % 100 ≤ 10 then .few
    else if 11 ≤ n % 100 then .many
    else .other
  | .czech =>
    if n = 1 then .one else if 2 ≤ n && n ≤ 4 then .few else .other
  | .polish =>
    if n = 1 then .one else if endsInFew n then .few else .many
  | .romanian =>
    if n = 1 then .one
    else if n = 0 || (1 ≤ n % 100 && n % 100 ≤ 19) then .few
    else .other
  | .eastSlavic =>
    if n % 10 = 1 && n % 100 != 11 then .one
    else if endsInFew n then .few
    else .many

/-! ## §3. Languages. -/

/-- The languages with rules of their own. -/
def pluralRules : List (String × PluralRule) :=
  [("ar", .arabic), ("bn", .upToOne), ("cs", .czech), ("de", .one), ("el", .one),
   ("en", .one), ("es", .oneMillion), ("fa", .upToOne), ("fr", .upToOneMillion),
   ("he", .oneTwo), ("hi", .upToOne), ("id", .none), ("it", .oneMillion), ("ja", .none),
   ("ko", .none), ("nl", .one), ("pl", .polish), ("pt", .upToOneMillion),
   ("ro", .romanian), ("ru", .eastSlavic), ("th", .none), ("tr", .one),
   ("uk", .eastSlavic), ("vi", .none), ("zh", .none)]

/-- The language of a locale, in lower case. -/
def languageOf (locale : String) : String :=
  String.ofList ((locale.toList.takeWhile fun c => c != '-' && c != '_').map Char.toLower)

/-- The rule of a locale. -/
def pluralRule (locale : String) : PluralRule :=
  (pluralRules.lookup (languageOf locale)).getD .one

/-- The plural category of a number in a locale. -/
def pluralCategory (locale : String) (n : Int) : PluralCategory :=
  (pluralRule locale).category n.natAbs

end Phrasebook
