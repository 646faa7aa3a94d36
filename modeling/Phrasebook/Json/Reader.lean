/-
  Phrasebook.Json.Reader
  ────────────────────────────────
  **READING JSON.**

  A reader takes a value off the front of a text and returns it with the
  rest, or fails.  There are readers for the values that settings are made
  of, and `skip` for a value of any kind: it checks the form of the value,
  however deeply nested, but not what its escapes stand for.

      text      —  a string, as its characters
      natural   —  a number without sign, point and exponent, of 64 bits
      list      —  an array of one kind of items
      object    —  an object, with a reader for the value of each key
-/

namespace Phrasebook

namespace Json

/-- Takes a value off the front of a text. -/
abbrev Reader (α : Type) : Type :=
  List Char → Option (α × List Char)

/-! ## §1. Blanks and literals. -/

/-- Is the character a blank between the parts of a value? -/
def isSpace (c : Char) : Bool :=
  c == ' ' || c == '\n' || c == '\t' || c == '\r'

/-- The text without its leading blanks. -/
def dropSpace (s : List Char) : List Char :=
  s.dropWhile isSpace

/-! ## §2. Strings. -/

/-- What one character or escape of a string stands for. -/
inductive TextPart where
  | char (c : Char)
  /-- A 16-bit unit, by its number. -/
  | unit (n : Nat)

/-- The value of a hexadecimal digit. -/
def hexDigit? (c : Char) : Option Nat :=
  if c.isDigit then some (c.toNat - '0'.toNat)
  else if 'a' ≤ c && c ≤ 'f' then some (c.toNat - 'a'.toNat + 10)
  else if 'A' ≤ c && c ≤ 'F' then some (c.toNat - 'A'.toNat + 10)
  else none

/-- The 16-bit unit of four hexadecimal digits. -/
def unit? (a b c d : Char) : Option Nat := do
  let a ← hexDigit? a
  let b ← hexDigit? b
  let c ← hexDigit? c
  let d ← hexDigit? d
  pure (((a * 16 + b) * 16 + c) * 16 + d)

/-- The character of an escape of two characters, by the second one. -/
def escape? : Char → Option Char
  | '"' => some '"'
  | '\\' => some '\\'
  | '/' => some '/'
  | 'b' => some '\x08'
  | 'f' => some '\x0c'
  | 'n' => some '\n'
  | 'r' => some '\r'
  | 't' => some '\t'
  | _ => none

/-- Take a string off, after its opening quote, as its parts. -/
def textParts : Reader (List TextPart)
  | [] => none
  | '"' :: r => some ([], r)
  | '\\' :: 'u' :: a :: b :: c :: d :: r => do
    let n ← unit? a b c d
    let (parts, r) ← textParts r
    pure (.unit n :: parts, r)
  | '\\' :: e :: r => do
    let c ← escape? e
    let (parts, r) ← textParts r
    pure (.char c :: parts, r)
  | c :: r =>
    if c.toNat < 32 || c == '\\' then none
    else do
      let (parts, r) ← textParts r
      pure (.char c :: parts, r)

/-- The first of two units that stand for one character. -/
def isHigh (n : Nat) : Bool :=
  0xD800 ≤ n && n < 0xDC00

/-- The second of two units that stand for one character. -/
def isLow (n : Nat) : Bool :=
  0xDC00 ≤ n && n < 0xE000

/-- The characters of a string; a unit that needs a partner must have one. -/
def joinParts : List TextPart → Option (List Char)
  | [] => some []
  | .char c :: parts => (joinParts parts).map (c :: ·)
  | .unit high :: .unit low :: parts =>
    if isHigh high && isLow low then
      let n := 0x10000 + (high - 0xD800) * 0x400 + (low - 0xDC00)
      (joinParts parts).map (Char.ofNat n :: ·)
    else if isHigh high || isLow high then none
    else (joinParts (.unit low :: parts)).map (Char.ofNat high :: ·)
  | .unit n :: parts =>
    if isHigh n || isLow n then none
    else (joinParts parts).map (Char.ofNat n :: ·)

/-- Take a string off. -/
def text : Reader String := fun s =>
  match dropSpace s with
  | '"' :: r => do
    let (parts, r) ← textParts r
    let cs ← joinParts parts
    pure (String.ofList cs, r)
  | _ => none

/-! ## §3. Numbers. -/

/-- Take at least one digit off. -/
def someDigits : Reader (List Char) := fun s =>
  let digits := s.takeWhile Char.isDigit
  if digits.isEmpty then none else some (digits, s.dropWhile Char.isDigit)

/-- Take a whole number off; it has no leading zeros. -/
def whole : Reader (List Char) := fun s => do
  let (digits, r) ← someDigits s
  if digits.length > 1 && digits.head? == some '0' then none else pure (digits, r)

/-- Take the fraction of a number off, if it has one. -/
def fraction : Reader Unit
  | '.' :: r => (someDigits r).map fun (_, r) => ((), r)
  | s => some ((), s)

/-- Take the exponent of a number off, if it has one. -/
def exponent : Reader Unit
  | 'e' :: r => signed r
  | 'E' :: r => signed r
  | s => some ((), s)
where
  /-- Take digits with an optional sign off. -/
  signed : Reader Unit
    | '+' :: r => (someDigits r).map fun (_, r) => ((), r)
    | '-' :: r => (someDigits r).map fun (_, r) => ((), r)
    | r => (someDigits r).map fun (_, r) => ((), r)

/-- Take the digits of a number off, with whatever follows them in it; say
whether nothing did. -/
def unsigned : Reader (List Char × Bool) := fun s => do
  let (digits, r) ← whole s
  let (_, r') ← fraction r
  let (_, r'') ← exponent r'
  pure ((digits, r''.length == r.length), r'')

/-- Take a natural number of 64 bits off. -/
def natural : Reader Nat := fun s => do
  let ((digits, isPlain), r) ← unsigned (dropSpace s)
  let n := digits.foldl (fun n c => 10 * n + (c.toNat - '0'.toNat)) 0
  if isPlain && n < UInt64.size then pure (n, r) else none

/-! ## §4. Arrays and objects. -/

/-- Take items with commas between them off, up to the closing bracket, after
the first of them; `budget` bounds their number. -/
def itemsWithin {α : Type} (close : Char) (item : Reader α) :
    (budget : List Char) → Reader (List α)
  | budget, s =>
    match dropSpace s, budget with
    | ',' :: r, _ :: budget => do
      let (a, r) ← item r
      let (as, r) ← itemsWithin close item budget r
      pure (a :: as, r)
    | c :: r, _ => if c = close then some ([], r) else none
    | [], _ => none

/-- Take items with commas between them off, after the opening bracket. -/
def items {α : Type} (close : Char) (item : Reader α) : Reader (List α) := fun s =>
  match dropSpace s with
  | [] => none
  | c :: r =>
    if c = close then some ([], r)
    else do
      let (a, r) ← item (c :: r)
      let (as, r) ← itemsWithin close item r r
      pure (a :: as, r)

/-- Take an array off. -/
def list {α : Type} (item : Reader α) : Reader (List α) := fun s =>
  match dropSpace s with
  | '[' :: r => items ']' item r
  | _ => none

/-- Take a member of an object off; `value` reads the value of a key. -/
def member {α : Type} (value : String → Reader α) : Reader α := fun s => do
  let (key, r) ← text s
  match dropSpace r with
  | ':' :: r => value key r
  | _ => none

/-- Take an object off; `value` reads the value of a key. -/
def object {α : Type} (value : String → Reader α) : Reader (List α) := fun s =>
  match dropSpace s with
  | '\x7b' :: r => items '\x7d' (member value) r
  | _ => none

/-! ## §5. Values of any kind. -/

/-- Take an exact word off. -/
def word (w : List Char) : Reader Unit := fun s =>
  if w.isPrefixOf s then some ((), s.drop w.length) else none

/-- Take a member of an object off, whatever it is. -/
def skipMember (value : Reader Unit) : Reader Unit := fun s =>
  match dropSpace s with
  | '"' :: r => do
    let (_, r) ← textParts r
    match dropSpace r with
    | ':' :: r => value r
    | _ => none
  | _ => none

/-- Take a value off, nested no deeper than `n`. -/
def skipWithin : (n : Nat) → Reader Unit
  | 0, _ => none
  | n + 1, s =>
    match dropSpace s with
    | '"' :: r => (textParts r).map fun (_, r) => ((), r)
    | '[' :: r => (items ']' (skipWithin n) r).map fun (_, r) => ((), r)
    | '\x7b' :: r => (items '\x7d' (skipMember (skipWithin n)) r).map fun (_, r) => ((), r)
    | '-' :: r => (unsigned r).map fun (_, r) => ((), r)
    | 'n' :: r => word ['u', 'l', 'l'] r
    | 't' :: r => word ['r', 'u', 'e'] r
    | 'f' :: r => word ['a', 'l', 's', 'e'] r
    | r => (unsigned r).map fun (_, r) => ((), r)

/-- Take a value off, whatever it is. -/
def skip : Reader Unit := fun s =>
  skipWithin (s.length + 1) s

/-- The value of a whole text. -/
def wholeText {α : Type} (reader : Reader α) (s : List Char) : Option α :=
  match reader s with
  | some (a, r) => if (dropSpace r).isEmpty then some a else none
  | none => none

end Json

end Phrasebook
