/-
  Phrasebook.Text.Ligature
  ────────────────────────────────
  **CHARACTERS THAT ARE DRAWN AS ONE.**

  In some scripts two letters in a row are drawn as one and take one column
  together.  Whether they do is seen at the second letter, so a ligature is
  looked for from its end: the second letter opens it, some marks may stand
  inside, and the first letter completes it.

      Ligature.opened? c   —  the ligature that `c` is the last letter of
      Ligature.before      —  what a character in front does to it
-/
import Phrasebook.Text.Width

namespace Phrasebook

/-! ## §1. Ligatures. -/

/-- A ligature of which the end has been seen. -/
inductive Ligature where
  /-- An Arabic alef, which a lam may lean on. -/
  | alef
  /-- A Hebrew lamed, joined to an alef. -/
  | lamed
  /-- A Khmer consonant, written below the line after the sign coeng. -/
  | subscript
  /-- The Buginese letter ya, joined to the vowel i. -/
  | ya
  /-- The Buginese ya with the vowel i, which a letter a completes. -/
  | iya
  /-- A Tifinagh consonant, joined to another one. -/
  | consonant
  /-- A Tifinagh consonant with the joiner in front of it. -/
  | linkedConsonant
  /-- The second letter of a tone in Lisu. -/
  | tone
  /-- The Old Turkic letter i of the Orkhon, joined to a letter ash. -/
  | orkhonI
  deriving Repr, DecidableEq

/-- Is it a Tifinagh consonant? -/
def isTifinaghConsonant (c : Char) : Bool :=
  (0x2D31 ≤ c.toNat && c.toNat ≤ 0x2D65) || c.toNat == 0x2D6F

/-- The Arabic letters that are written like alef. -/
def alefRanges : Ranges :=
  [(0x0622, 0x0623), (0x0625, 0x0625), (0x0627, 0x0627), (0x0671, 0x0673), (0x0675, 0x0675),
   (0x0773, 0x0774), (0x0870, 0x0882)]

/-- The Arabic letters that are written like lam. -/
def lamRanges : Ranges :=
  [(0x0644, 0x0644), (0x06B5, 0x06B8), (0x076A, 0x076A), (0x08A6, 0x08A6), (0x08C7, 0x08C7)]

/-- The Khmer letters with a form below the line. -/
def subscriptRanges : Ranges :=
  [(0x1780, 0x1782), (0x1784, 0x1787), (0x1789, 0x178C), (0x178E, 0x1793), (0x1795, 0x1798),
   (0x179B, 0x179D), (0x17A0, 0x17A0), (0x17A2, 0x17A2), (0x17A7, 0x17A7), (0x17AB, 0x17AC),
   (0x17AF, 0x17AF)]

/-- The ligature that the character is the last letter of, if it can be one. -/
def Ligature.opened? (c : Char) : Option Ligature :=
  if c = '\u05DC' then some .lamed
  else if isInRanges c alefRanges then some .alef
  else if isInRanges c subscriptRanges then some .subscript
  else if c = '\u1A10' then some .ya
  else if isTifinaghConsonant c then some .consonant
  else if c = '\uA4FC' || c = '\uA4FD' then some .tone
  else if c.toNat = 0x10C03 then some .orkhonI
  else none

/-! ## §2. Marks inside a ligature. -/

/-- The joiner, which asks for a ligature. -/
def zeroWidthJoiner : Char := '\u200D'

/-- The marks that are ignorable and may stand inside any ligature. -/
def innerMarkRanges : Ranges :=
  [(0x034F, 0x034F), (0x17B4, 0x17B5), (0x180B, 0x180D), (0x180F, 0x180F), (0xFE00, 0xFE0F),
   (0xE0100, 0xE01EF)]

/-- The characters without a width at which Arabic letters stop joining: the
joiner and the non-joiner, number signs, isolates, and the signs of scripts
that do not join. -/
def unjoinedRanges : Ranges :=
  [(0x0605, 0x0605), (0x0890, 0x0891), (0x08E2, 0x08E2), (0x09BE, 0x09BE), (0x09D7, 0x09D7),
   (0x0B3E, 0x0B3E), (0x0B57, 0x0B57), (0x0BBE, 0x0BBE), (0x0BD7, 0x0BD7), (0x0CC0, 0x0CC0),
   (0x0CC2, 0x0CC2), (0x0CC7, 0x0CC8), (0x0CCA, 0x0CCB), (0x0CD5, 0x0CD6), (0x0D3E, 0x0D3E),
   (0x0D4E, 0x0D4E), (0x0D57, 0x0D57), (0x0DCF, 0x0DCF), (0x0DDF, 0x0DDF), (0x1160, 0x11FF),
   (0x1715, 0x1715), (0x1734, 0x1734), (0x180E, 0x180E), (0x1B35, 0x1B35), (0x1B3B, 0x1B3B),
   (0x1B3D, 0x1B3D), (0x1B43, 0x1B44), (0x1BAA, 0x1BAA), (0x1BF2, 0x1BF3), (0x200C, 0x200D),
   (0x2065, 0x2069), (0x302E, 0x302F), (0x3164, 0x3164), (0xA8FA, 0xA8FA), (0xA953, 0xA953),
   (0xA9C0, 0xA9C0), (0xD7B0, 0xD7C6), (0xD7CB, 0xD7FB), (0xFFA0, 0xFFA0), (0xFFF0, 0xFFF8),
   (0x111C0, 0x111C0), (0x111C2, 0x111C3), (0x11235, 0x11235), (0x1133E, 0x1133E),
   (0x1134D, 0x1134D), (0x11357, 0x11357), (0x113B8, 0x113B8), (0x113C2, 0x113C2),
   (0x113C5, 0x113C5), (0x113C7, 0x113C9), (0x113CF, 0x113CF), (0x113D1, 0x113D1),
   (0x114B0, 0x114B0), (0x114BD, 0x114BD), (0x115AF, 0x115AF), (0x116B6, 0x116B6),
   (0x11930, 0x11930), (0x1193D, 0x1193D), (0x1193F, 0x1193F), (0x11941, 0x11941),
   (0x11A84, 0x11A89), (0x11D46, 0x11D46), (0x11F02, 0x11F02), (0x11F41, 0x11F41),
   (0x16FF0, 0x16FF1), (0x1D165, 0x1D166), (0x1D16D, 0x1D172), (0xE0000, 0xE0000),
   (0xE0002, 0xE001F), (0xE0080, 0xE00FF), (0xE01F0, 0xE0FFF)]

/-- Do Arabic letters join across the character? -/
def isJoinedAcross (c : Char) : Bool :=
  charWidth c == 0 && !isInRanges c unjoinedRanges

/-! ## §3. Completion. -/

/-- What a character in front of a ligature's end does to it. -/
inductive Completion where
  /-- It stands inside, takes no column, and the ligature stays open. -/
  | inside (ligature : Ligature) (joined : Bool)
  /-- It takes `columns` beyond those of the end, and the ligature becomes
  another one. -/
  | continued (columns : Int) (ligature : Ligature)
  /-- It completes the ligature and takes `columns` beyond those of the end. -/
  | complete (columns : Int)
  /-- It has nothing to do with the ligature. -/
  | unrelated

/-- What a letter in front of a ligature's end does to it; `joined` tells
whether a joiner stands between the two. -/
def Ligature.beforeLetter (ligature : Ligature) (joined : Bool) (c : Char) : Completion :=
  match ligature with
  | .alef =>
    if isInRanges c lamRanges then .complete 0
    else if isJoinedAcross c then .inside .alef false
    else .unrelated
  | .lamed => if joined && c = '\u05D0' then .complete 0 else .unrelated
  | .subscript => if c = '\u17D2' then .complete (-1) else .unrelated
  | .ya => if joined && c = '\u1A17' then .continued 0 .iya else .unrelated
  | .iya => if c = '\u1A15' then .complete 0 else .unrelated
  | .consonant =>
    if c = '\u2D7F' then .continued 1 .linkedConsonant
    else if joined && isTifinaghConsonant c then .complete 0
    else .unrelated
  | .linkedConsonant => if isTifinaghConsonant c then .complete (-1) else .unrelated
  | .tone => if 0xA4F8 ≤ c.toNat && c.toNat ≤ 0xA4FB then .complete 0 else .unrelated
  | .orkhonI => if joined && c.toNat = 0x10C32 then .complete 0 else .unrelated

/-- What a character in front of a ligature's end does to it. -/
def Ligature.before (ligature : Ligature) (joined : Bool) (c : Char) : Completion :=
  if c = zeroWidthJoiner then
    if ligature = .alef then .unrelated else .inside ligature true
  else if isInRanges c innerMarkRanges then .inside ligature joined
  else ligature.beforeLetter joined c

end Phrasebook
