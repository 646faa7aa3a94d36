/-
  Phrasebook.Text.Columns
  ────────────────────────────────
  **THE WIDTH OF A TEXT ON A SCREEN.**

  A text is as wide as its characters, but for those that are drawn
  together: a selector changes the form of the character in front of it,
  letters merge into ligatures, flags are pairs of letters, a skin tone is
  put on a person, and joiners make one picture of several.  What a
  character takes is decided by what stands behind it, so a text is measured
  from its end:

      Lead.before c     —  the columns that `c` adds, and what `c` is for the
                           character in front of it
      textWidth s       —  the columns that `s` takes
-/
import Phrasebook.Text.Emoji
import Phrasebook.Text.Ligature

namespace Phrasebook

/-! ## §1. What stands behind a character. -/

/-- A character that selects a form of the one in front of it. -/
inductive Selector where
  /-- The text form of a picture. -/
  | text
  /-- The picture form of a character. -/
  | picture
  /-- The full-width form of a quotation mark. -/
  | fullWidth
  deriving Repr, DecidableEq

/-- The form that the character selects, if it is a selector. -/
def Selector.ofChar? (c : Char) : Option Selector :=
  if c = '\uFE0E' then some .text
  else if c = '\uFE0F' then some .picture
  else if c = '\uFE01' then some .fullWidth
  else none

/-- What stands behind a character, as far as the two may be drawn together. -/
inductive Behind where
  /-- Nothing that matters. -/
  | other
  /-- The end of a ligature, with a joiner in front of it or not. -/
  | ligature (last : Ligature) (joined : Bool)
  /-- A whole picture. -/
  | picture
  /-- A skin tone. -/
  | skinTone
  /-- So many letters of flags. -/
  | flags (letters : Nat)
  /-- A joiner with a picture behind it. -/
  | joinedPicture
  /-- The frame of a keycap, and a joiner and a picture behind it. -/
  | joinedKeycap
  /-- So many letters of flags, and a joiner and a picture behind them. -/
  | joinedFlags (letters : Nat)
  /-- So many tags of letters and digits in front of the last tag, and a
  joiner and a picture behind it. -/
  | joinedTags (letters digits : Nat)
  /-- The vowel sign e of Kirat Rai. -/
  | vowelE
  /-- The vowel sign ai of Kirat Rai. -/
  | vowelAi
  deriving Repr, DecidableEq

/-- What stands behind a character: perhaps a selector, and what is behind
the selector. -/
structure Lead where
  selector : Option Selector
  behind : Behind
  deriving Repr, DecidableEq

/-- Nothing that matters stands behind a character. -/
def Lead.free : Lead :=
  ⟨none, .other⟩

/-! ## §2. Characters by themselves. -/

/-- What a character is for the one in front of it. -/
def Behind.ofChar (c : Char) : Behind :=
  match Ligature.opened? c with
  | some last => .ligature last false
  | none =>
    if c.toNat = 0x16D67 then .vowelE
    else if c.toNat = 0x16D68 then .vowelAi
    else if isFlagLetter c then .flags 1
    else if isSkinTone c then .skinTone
    else if isPicture c then .picture
    else .other

/-- A character that is not drawn together with what stands behind it: the
columns that it adds, and what it is for the character in front of it. -/
def standAlone (c : Char) : Int × Behind :=
  (charWidth c, .ofChar c)

/-! ## §3. Characters in front of others. -/

/-- A character in front of a joiner with a picture behind it. -/
def beforeJoinedPicture (c : Char) : Int × Behind :=
  if c = '\u20E3' then (0, .joinedKeycap)
  else if isFlagLetter c then (1, .joinedFlags 1)
  else if isSkinTone c then (0, .skinTone)
  else if c.toNat = 0xE007F then (0, .joinedTags 0 0)
  else if isPicture c then (0, .picture)
  else standAlone c

/-- A character in front of tags.  The tags behind a flag spell a region, of two
letters or three digits, and a part of it, of up to four letters. -/
def beforeTags (letters digits : Nat) (c : Char) : Int × Behind :=
  let n := c.toNat
  if 0xE0061 ≤ n && n ≤ 0xE007A && digits = 0 && letters < 6 then
    (0, .joinedTags (letters + 1) 0)
  else if 0xE0030 ≤ n && n ≤ 0xE0039 && digits < 3 && (0 < digits || letters ≤ 4) then
    (0, .joinedTags letters (digits + 1))
  else if n = 0x1F3F4 && (digits = 3 || (digits = 0 && 3 ≤ letters)) then (0, .picture)
  else standAlone c

/-- A character in front of letters of flags that are joined to a picture.
The letters are paired from the first on; the last pair, if it is complete,
takes no columns beyond those of the picture. -/
def beforeJoinedFlags (letters : Nat) (c : Char) : Int × Behind :=
  if isFlagLetter c then
    (if letters % 2 = 0 then 3 else -1, .joinedFlags (letters + 1))
  else if c = zeroWidthJoiner && 2 ≤ letters then (0, .joinedPicture)
  else standAlone c

/-- A character in front of a vowel sign of Kirat Rai.  The signs ai, o and au
are made of the signs aa and e, and a sequence that makes one of them is as
wide as it. -/
def beforeVowel (isAi : Bool) (c : Char) : Int × Behind :=
  if c.toNat = 0x16D63 then (0, .other)
  else if isAi then standAlone c
  else if c.toNat = 0x16D67 then (0, .vowelAi)
  else if c.toNat = 0x16D68 then (1, .vowelE)
  else if c.toNat = 0x16D69 then (0, .other)
  else standAlone c

/-- The columns that a character adds in front of others, and what it is for
the character in front of it. -/
def Behind.before (behind : Behind) (c : Char) : Int × Behind :=
  match behind with
  | .other => standAlone c
  | .ligature last joined =>
    match last.before joined c with
    | .inside last joined => (0, .ligature last joined)
    | .continued columns last => (columns, .ligature last false)
    | .complete columns => (columns, .other)
    | .unrelated => standAlone c
  | .picture =>
    if c = zeroWidthJoiner then (0, .joinedPicture) else standAlone c
  | .skinTone =>
    if takesSkinTone c then (0, .picture)
    else if c = zeroWidthJoiner then (0, .joinedPicture)
    else standAlone c
  | .flags letters =>
    if isFlagLetter c then (1, .flags (letters + 1))
    else if c = zeroWidthJoiner && 2 ≤ letters then (0, .joinedPicture)
    else standAlone c
  | .joinedPicture => beforeJoinedPicture c
  | .joinedKeycap => standAlone c
  | .joinedFlags letters => beforeJoinedFlags letters c
  | .joinedTags letters digits => beforeTags letters digits c
  | .vowelE => beforeVowel false c
  | .vowelAi => beforeVowel true c

/-! ## §4. Selectors. -/

/-- What stands behind a selector, as far as it matters to the character in
front of the selector. -/
def Behind.seenThrough (behind : Behind) (selector : Selector) : Behind :=
  match behind, selector with
  | .ligature last joined, _ => .ligature last joined
  | .joinedPicture, .picture => .joinedPicture
  | .joinedKeycap, .picture => .joinedKeycap
  | _, _ => .other

/-- What stands behind a character that the selector behind it does not fit. -/
def Behind.unselected (behind : Behind) : Behind :=
  match behind with
  | .ligature last joined => .ligature last joined
  | _ => .other

/-- The form that the selector gives to the character in front of it, if the
character has it: its columns, and what it is for the one in front. -/
def Selector.form? (selector : Selector) (behind : Behind) (c : Char) : Option (Int × Lead) :=
  match selector with
  | .picture =>
    if hasPictureForm c then
      let isPart := behind = .joinedPicture || behind = .joinedKeycap
      some (if isPart then 0 else 2, ⟨none, .picture⟩)
    else none
  | .text => if hasTextForm c then some (1, .free) else none
  | .fullWidth =>
    if c = '\u2018' || c = '\u2019' || c = '\u201C' || c = '\u201D' then some (2, .free)
    else none

/-! ## §5. Texts. -/

/-- The columns that a character adds in front of a text, and what the two
are for the character in front of them. -/
def Lead.before (lead : Lead) (c : Char) : Int × Lead :=
  match lead.selector.bind fun selector => selector.form? lead.behind c with
  | some form => form
  | none =>
    let behind := if lead.selector.isSome then lead.behind.unselected else lead.behind
    match Selector.ofChar? c with
    | some selector => (0, ⟨some selector, behind.seenThrough selector⟩)
    | none =>
      let (columns, behind) := behind.before c
      (columns, ⟨none, behind⟩)

/-- The columns of a text, and what it is for a character in front of it. -/
def measure (s : List Char) : Int × Lead :=
  s.foldr (fun c (columns, lead) =>
    let (more, lead) := lead.before c
    (columns + more, lead)) (0, .free)

/-- The number of columns that a text takes. -/
def textWidth (s : List Char) : Nat :=
  (measure s).1.toNat

end Phrasebook
