/-
  Phrasebook.Proofs.Grammar.Built
  ────────────────────────────────
  **WHAT READERS ARE BUILT FROM.**

  All readers of the grammar are put together from a few that look at the
  text only, and from the three that open a nesting level.  A reader is taken
  here as a function of the readers of the next level, and how it is put
  together is data, so that what holds of the parts can be followed through
  the whole grammar, and a reader can be run part by part:

      Single       —  a reader that looks at the text only
      Opens        —  a reader that opens a level, and what it runs inside
      Built        —  the ways to put readers together
      Opens.built  —  how what is run inside a level is put together
      entryBuilt   —  and how entries are, which go to the outermost level
-/
import Phrasebook.Proofs.Grammar.RoundTrip
import Phrasebook.Resource

namespace Phrasebook

open Phrasebook.Parser

/-! ## §1. Ways to put readers together. -/

/-- A reader that looks at the text only, and opens no nesting level. -/
inductive Single : {α : Type} → Parser α → Prop where
  | pure {α : Type} (a : α) : Single (pure a : Parser α)
  | stop {α : Type} (e : Expected) : Single (stop e : Parser α)
  | ahead {α : Type} (p : List Char → α) : Single (ahead p)
  | takeWhile (test : Char → Bool) : Single (takeWhile test)
  | eat (symbol : String) : Single (eat symbol)
  | exactly (symbol : String) : Single (exactly symbol)
  | upTo (symbol : String) : Single (upTo symbol)
  | blank : Single blank
  | someBlank : Single someBlank
  | number : Single number
  | operator {ω : Type} (ops : List (String × ω)) : Single (operator ops)
  | character (missed : Expected) : Single (piece.single missed)

/-- The readers that open a nesting level, each with what it runs inside. -/
inductive Opens : (Nested → Parser Expr) → (Nested → Parser Expr) → Type where
  | expression : Opens Nested.expression conditional
  | operand : Opens Nested.operand fun inner => blank >>= fun _ => prefixed inner
  | literal : Opens Nested.literal literal

/-- How a reader is put together from single ones and from the readers of the
next level; at the top of an entry, also from those of the outermost one. -/
inductive Built (top : Bool) : {α : Type} → (Nested → Parser α) → Type 1 where
  | single {α : Type} {p : Parser α} (h : Single p) : Built top fun _ => p
  | bind {α β : Type} {p : Nested → Parser α} {f : α → Nested → Parser β} (hp : Built top p)
      (hf : ∀ a, Built top (f a)) : Built top fun inner => p inner >>= fun a => f a inner
  /-- What is read may depend on the text. -/
  | look {α : Type} {p : List Char → Nested → Parser α} (h : ∀ t, Built top (p t)) :
      Built top fun inner s => p s inner s
  | opens {q body : Nested → Parser Expr} (h : Opens q body) : Built top q
  | outermost {q body : Nested → Parser Expr} (htop : top = true) (h : Opens q body) :
      Built top fun _ => q outermost

namespace Built

variable {top : Bool} {α β : Type}

def expression : Built top Nested.expression :=
  opens .expression

def operand : Built top Nested.operand :=
  opens .operand

def literal : Built top Nested.literal :=
  opens .literal

def pure (a : α) : Built top fun _ => (pure a : Parser α) :=
  single (.pure a)

def stop (e : Expected) : Built top fun _ => (stop e : Parser α) :=
  single (.stop e)

/-- Readers that are equal are put together in the same way. -/
def of_eq {p q : Nested → Parser α} (h : ∀ inner, q inner = p inner) (hp : Built top p) :
    Built top q :=
  (funext h : q = p) ▸ hp

/-- A single reader, and what comes then. -/
def skip {p : Parser α} {f : α → Nested → Parser β} (hp : Single p)
    (hf : ∀ a, Built top (f a)) : Built top fun inner => p >>= fun a => f a inner :=
  bind (single hp) hf

def map {p : Nested → Parser α} (f : α → β) (hp : Built top p) :
    Built top fun inner => f <$> p inner :=
  bind hp fun a => pure (f a)

def ite {c : Prop} {p q : Nested → Parser α} : [_inst : Decidable c] → Built top p →
    Built top q → Built top fun inner => if c then p inner else q inner
  | isTrue _, hp, _ => hp
  | isFalse _, _, hq => hq

/-- What comes then is one of two readers, if nothing or something is given. -/
def option {p : Nested → Parser (Option α)} {q : Nested → Parser β} {r : α → Nested → Parser β}
    (hp : Built top p) (hq : Built top q) (hr : ∀ a, Built top (r a)) :
    Built top fun inner => p inner >>= fun o =>
      match o with
      | none => q inner
      | some a => r a inner :=
  bind hp fun
    | none => hq
    | some a => hr a

/-! ## §2. Loops and lists. -/

theorem collectWithin_nil (next : Parser (Option α)) :
    Parser.collectWithin next [] = next >>= fun o =>
      match o with
      | none => (Pure.pure [] : Parser (List α))
      | some _ => Parser.stop .progress :=
  Parser.collectWithin.eq_def next []

theorem collectWithin_cons (next : Parser (Option α)) (c : Char) (budget : List Char) :
    Parser.collectWithin next (c :: budget) = next >>= fun o =>
      match o with
      | none => (Pure.pure [] : Parser (List α))
      | some a => Parser.collectWithin next budget >>= fun as => Pure.pure (a :: as) :=
  Parser.collectWithin.eq_def next (c :: budget)

def collectWithin {next : Nested → Parser (Option α)} (h : Built top next) :
    (budget : List Char) → Built top fun inner => Parser.collectWithin (next inner) budget
  | [] => of_eq (fun _ => collectWithin_nil _) <| option h (pure _) fun _ => stop .progress
  | c :: budget => of_eq (fun _ => collectWithin_cons _ c budget) <|
      option h (pure _) fun _ => bind (collectWithin h budget) fun _ => pure _

def collect {next : Nested → Parser (Option α)} (h : Built top next) :
    Built top fun inner => Parser.collect (next inner) :=
  look (p := fun budget inner => Parser.collectWithin (next inner) budget) h.collectWithin

theorem chainWithin_nil (extend : α → Parser (Option α)) (a : α) :
    Parser.chainWithin extend [] a = extend a >>= fun o =>
      match o with
      | none => (Pure.pure a : Parser α)
      | some _ => Parser.stop .progress :=
  Parser.chainWithin.eq_def extend [] a

theorem chainWithin_cons (extend : α → Parser (Option α)) (c : Char) (budget : List Char) (a : α) :
    Parser.chainWithin extend (c :: budget) a = extend a >>= fun o =>
      match o with
      | none => (Pure.pure a : Parser α)
      | some b => Parser.chainWithin extend budget b :=
  Parser.chainWithin.eq_def extend (c :: budget) a

def chainWithin {extend : α → Nested → Parser (Option α)} (h : ∀ a, Built top (extend a)) :
    (budget : List Char) → (a : α) →
      Built top fun inner => Parser.chainWithin (fun a => extend a inner) budget a
  | [], a => of_eq (fun _ => chainWithin_nil _ a) <| option (h a) (pure a) fun _ => stop .progress
  | c :: budget, a => of_eq (fun _ => chainWithin_cons _ c budget a) <|
      option (h a) (pure a) fun b => chainWithin h budget b

def chain {extend : α → Nested → Parser (Option α)} (h : ∀ a, Built top (extend a)) (a : α) :
    Built top fun inner => Parser.chain (fun a => extend a inner) a :=
  look (p := fun budget inner => Parser.chainWithin (fun a => extend a inner) budget a)
    fun budget => chainWithin h budget a

def looseList (list : Enumeration) {item : Nested → Parser α} (h : Built top item) :
    Built top fun inner => Parser.looseList list (item inner) :=
  skip .blank fun _ => collect <| skip (.eat list.close) fun _ => ite (pure none) <|
    bind h fun a => skip .blank fun _ => skip (.eat ",") fun _ =>
      ite (skip .blank fun _ => pure (some a))
        (skip (.ahead _) fun _ => ite (pure (some a)) (stop _))

/-- One more item of a list whose commas are all followed by items. -/
def tightRound (list : Enumeration) {item : Nested → Parser α} (h : Built top item) :
    Built top fun inner => Parser.tightRound list (item inner) :=
  skip .blank fun _ => skip (.eat ",") fun _ =>
    ite (skip .blank fun _ => bind h fun a => pure (some a))
      (skip (.eat list.close) fun _ => ite (pure none) (stop _))

def tightList (list : Enumeration) {item : Nested → Parser α} (h : Built top item) :
    Built top fun inner => Parser.tightList list (item inner) :=
  skip .blank fun _ => skip (.eat list.close) fun _ => ite (pure []) <|
    bind h fun first => bind (collect (tightRound list h)) fun others => pure (first :: others)

end Built

open Phrasebook.Built (pure stop skip bind map ite)

variable {top : Bool}

def nameBuilt : Built top fun _ => name :=
  skip (.ahead _) fun _ => ite (skip (.takeWhile _) fun _ => pure _) (stop _)

/-! ## §3. Literals. -/

def enclosedBuilt {β : Type} (symbol : String) (make : Expr → β) :
    Built top fun inner => enclosed inner symbol make :=
  skip .blank fun _ => bind .expression fun e => skip .blank fun _ => skip (.exactly symbol)
    fun _ => pure (make e)

def pieceBuilt (quote : String) : Built top fun inner => piece inner quote :=
  skip (.eat quote) fun _ => ite (pure none) <| skip (.eat "\\") fun _ =>
    ite (skip (.eat "\x7b\x7b") fun _ => ite (pure _) (.single (.character _))) <|
      skip (.eat "\x7b\x7b") fun _ =>
        ite (enclosedBuilt "\x7d\x7d" fun e => some (Piece.placed e)) (.single (.character _))

def quotedBuilt (quote : String) : Built top fun inner => quoted inner quote :=
  skip (.exactly quote) fun _ => bind (.collect (pieceBuilt quote)) fun _ => pure _

def verbatimBuilt (quote : String) : Built top fun _ => verbatim quote :=
  skip (.exactly quote) fun _ => skip (.upTo quote) fun _ => skip (.exactly quote) fun _ => pure _

def textLiteralBuilt : Built top textLiteral :=
  skip (.ahead _) fun _ => skip (.ahead _) fun _ => skip (.ahead _) fun _ =>
    ite (verbatimBuilt _) (ite (verbatimBuilt _) (ite (quotedBuilt _) (quotedBuilt _)))

def elementBuilt : Built top element :=
  skip (.eat "*") fun starred => bind .literal fun value => pure (starred, value)

def arrayLiteralBuilt : Built top arrayLiteral :=
  skip (.exactly "[") fun _ => bind (.looseList .array elementBuilt) fun _ => pure _

/-- A field is the same whichever reader is used for its literal. -/
def fieldBuilt {inner : Nested → Nested} (h : Built top fun next => (inner next).literal)
    (starred : Bool) : Built top fun next => field (inner next) starred :=
  bind nameBuilt fun _ => skip .blank fun _ => skip (.exactly ":") fun _ => skip .blank fun _ =>
    bind h fun _ => pure _

def hashItemBuilt : Built top hashItem :=
  skip (.eat "*") fun starred => fieldBuilt .literal starred

def hashLiteralBuilt : Built top hashLiteral :=
  skip (.exactly "\x7b") fun _ => bind (.looseList .hash hashItemBuilt) fun _ => pure _

def literalBuilt : Built top literal :=
  skip (.ahead _) fun _ => skip (.ahead _) fun _ => skip (.ahead _) fun _ =>
    ite textLiteralBuilt (ite arrayLiteralBuilt (ite hashLiteralBuilt (stop _)))

/-! ## §4. Expressions. -/

def primaryBuilt : Built top primary :=
  skip (.ahead _) fun _ => skip (.ahead _) fun _ =>
    ite (skip .number fun _ => pure _) <| ite .literal <|
      skip (.eat "$") fun _ => ite (bind nameBuilt fun _ => pure _) <|
        skip (.eat "@") fun _ => ite (bind nameBuilt fun _ => pure _)
          (bind nameBuilt fun _ => pure _)

def baseBuilt : Built top base :=
  skip (.eat "(") fun _ => ite (enclosedBuilt ")" Expr.paren) primaryBuilt

def namedKeyBuilt : Built top fun _ => namedKey :=
  bind nameBuilt fun _ => pure _

def bracketedBuilt : Built top bracketed :=
  enclosedBuilt "]" Accessor.computed

def attributeAccessBuilt (e : Expr) : Built top fun inner => attributeAccess inner e :=
  ite (skip (.eat "..") fun _ => ite (bind namedKeyBuilt fun _ => pure _)
    (skip (.exactly ".[") fun _ => bind bracketedBuilt fun _ => pure _)) (stop _)

def propertyAccessBuilt (e : Expr) : Built top fun inner => propertyAccess inner e :=
  skip (.eat ".") fun _ => ite (bind namedKeyBuilt fun _ => pure _)
    (skip (.exactly "[") fun _ => bind bracketedBuilt fun _ => pure _)

def callOfBuilt (e : Expr) : Built top fun inner => callOf inner e :=
  skip (.exactly "(") fun _ => bind (.tightList .callArguments .expression) fun _ => pure _

def accessBuilt (e : Expr) : Built top fun inner => access inner e :=
  skip (.ahead _) fun _ => skip (.ahead _) fun _ => skip (.ahead _) fun _ =>
    skip (.ahead _) fun _ => skip (.ahead _) fun _ =>
      ite (map _ (attributeAccessBuilt e)) (ite (map _ (propertyAccessBuilt e))
        (ite (map _ (callOfBuilt e)) (pure none)))

def memberBuilt : Built top member :=
  bind baseBuilt fun e => .chain accessBuilt e

def prefixedBuilt : Built top prefixed :=
  skip (.eat "+") fun _ => ite (map _ .operand) <| skip (.eat "-") fun _ =>
    ite (map _ .operand) <| skip (.eat "!") fun _ => ite (map _ .operand) memberBuilt

def leftGroupedBuilt {ω : Type} (ops : List (String × ω)) (build : ω → Expr → Expr → Expr)
    {operand : Nested → Parser Expr} (h : Built top operand) :
    Built top fun inner => leftGrouped ops build (operand inner) :=
  bind h fun first => .chain (fun left => .option (.single (.operator ops)) (pure none)
    fun op => skip .blank fun _ => bind h fun right => pure (some (build op left right))) first

/-- Level by level, from the operands of `/` to those of `||`. -/
def disjunctionBuilt : Built top disjunction :=
  let quotient : Built top quotient := leftGroupedBuilt _ _ prefixedBuilt
  let product : Built top product := leftGroupedBuilt _ _ quotient
  let modulo : Built top modulo := leftGroupedBuilt _ _ product
  let sum : Built top sum := leftGroupedBuilt _ _ modulo
  let relation : Built top relation := leftGroupedBuilt _ _ sum
  let equality : Built top equality := leftGroupedBuilt _ _ relation
  let conjunction : Built top conjunction := leftGroupedBuilt _ _ equality
  leftGroupedBuilt _ _ conjunction

def conditionalBuilt : Built top conditional :=
  bind disjunctionBuilt fun test => skip .blank fun _ => skip (.eat "?") fun _ =>
    ite (skip .blank fun _ => bind .expression fun _ => skip .blank fun _ => skip (.exactly ":")
      fun _ => skip .blank fun _ => bind .expression fun _ => pure _) (pure test)

/-- How what a reader runs inside its level is put together from single readers
and from those of the next level. -/
def Opens.built {q body : Nested → Parser Expr} : Opens q body → Built top body
  | .expression => conditionalBuilt
  | .operand => skip .blank fun _ => prefixedBuilt
  | .literal => literalBuilt

/-! ## §5. Entries. -/

def attributeRoundBuilt : Built true fun _ => attributeRound :=
  skip (.eat ">") fun _ => ite (pure none) <|
    bind (fieldBuilt (.outermost rfl .literal) false) fun item => skip .someBlank fun _ =>
      skip (.eat ",") fun _ => skip .blank fun _ => skip (.ahead _) fun _ =>
        ite (pure (some item)) (stop _)

def attributeListBuilt : Built true fun _ => attributeList :=
  bind (.collect attributeRoundBuilt) fun _ => pure _

def entityValueBuilt : Built true fun _ => entityValue :=
  skip (.ahead _) fun _ => ite (map some (.outermost rfl .literal)) (pure none)

def entityBodyBuilt (id : String) (index : List Expr) : Built true fun _ => entityBody id index :=
  skip (.eat ">") fun _ => ite (pure _) <| skip .someBlank fun _ =>
    ite (bind entityValueBuilt fun _ => skip .blank fun _ => bind attributeListBuilt fun _ =>
      pure _) (stop _)

def entityRestBuilt (id : String) : Built true fun _ => entityRest id :=
  skip (.eat "[") fun _ =>
    ite (bind (.tightList .index (.outermost rfl .expression)) (entityBodyBuilt id))
      (bind (pure []) (entityBodyBuilt id))

def parameterBuilt : Built true fun _ => parameter :=
  skip (.eat "$") fun _ => nameBuilt

def macroRestBuilt (id : String) : Built true fun _ => macroRest id :=
  ite (stop _) <| skip (.exactly "(") fun _ =>
    bind (.tightList .parameters parameterBuilt) fun _ =>
      skip .blank fun _ => skip (.exactly "\x7b") fun _ => skip .blank fun _ =>
        bind (.outermost rfl .expression) fun _ => skip .blank fun _ => skip (.exactly "\x7d")
          fun _ => skip .blank fun _ => bind attributeListBuilt fun _ => pure _

def taggedBuilt : Built true fun _ => tagged :=
  skip (.exactly "<") fun _ => bind nameBuilt fun id => skip (.ahead _) fun _ =>
    ite (map _ (macroRestBuilt id)) (map _ (entityRestBuilt id))

def commentBuilt : Built true fun _ => comment :=
  skip (.exactly "/*") fun _ => skip (.upTo "*/") fun _ => skip (.exactly "*/") fun _ => pure _

def referenceBuilt : Built true fun _ => reference :=
  let between (quote : String) (mark : Char) : Built true fun _ => reference.between quote mark :=
    skip (.exactly quote) fun _ => skip (.takeWhile _) fun _ => skip (.exactly quote) fun _ =>
      pure _
  skip (.ahead _) fun _ => ite (between _ _) (between _ _)

def importStatementBuilt : Built true fun _ => importStatement :=
  skip (.exactly "import") fun _ => skip .blank fun _ => skip (.exactly "(") fun _ =>
    skip .blank fun _ => bind referenceBuilt fun _ => skip .blank fun _ => skip (.exactly ")")
      fun _ => pure _

def entryBuilt : Built true fun _ => entry :=
  skip (.ahead _) fun _ => skip (.ahead _) fun _ => skip (.ahead _) fun _ =>
    ite taggedBuilt (ite commentBuilt (ite importStatementBuilt (stop _)))

end Phrasebook
