/-
  Phrasebook.Proofs.Grammar.Quoting
  ────────────────────────────────
  **QUOTED TEXTS ARE READ BACK AND FILLED IN.**

  An entity with a quoted text as its value is read as the parts of this text,
  and its value is what they show, one after the other:

      textLiteral_written  —  neither quote is taken for a triple one
      entry_entityText     —  the entity around the text
      get_value            —  its value, part by part
-/
import Phrasebook.Eval.Lookup
import Phrasebook.Proofs.Entry.Definable
import Phrasebook.Proofs.Grammar.Part

namespace Phrasebook

open Phrasebook.Parser
open Phrasebook.Resource (AllBlank)

/-! ## §1. The text. -/

/-- What is read in front of a text literal. -/
theorem textLiteral_apply (inner : Nested) (s : List Char) :
    textLiteral inner s
      = if (after? "\"\"\"".toList s).isSome then verbatim "\"\"\"" s
        else if (after? "'''".toList s).isSome then verbatim "'''" s
        else if (after? "'".toList s).isSome then quoted inner "'" s
        else quoted inner "\"" s := by
  unfold textLiteral
  show (if (after? "\"\"\"".toList s).isSome = true then verbatim "\"\"\""
    else if (after? "'''".toList s).isSome = true then verbatim "'''"
    else if (after? "'".toList s).isSome = true then quoted inner "'"
    else quoted inner "\"" : Parser Expr) s = _
  split
  · rfl
  · split
    · rfl
    · split <;> rfl

variable {quote : Char} {parts : List Part}

/-- No part starts with the quote, since there it is escaped. -/
theorem head?_parts (hquote : IsQuote quote) (parts : List Part) :
    ∀ c ∈ (parts.flatMap (Part.written quote)).head?, quote ≠ c := by
  have hbackslash : quote ≠ '\\' := hquote.ne (by decide)
  induction parts with
  | nil => exact nofun
  | cons p parts ih =>
    intro c hc
    rw [List.flatMap_cons] at hc
    cases p with
    | placed u e =>
      obtain rfl := Option.some.inj hc
      exact hquote.ne (by decide)
    | text s =>
      have hwritten : Part.written quote (.text s) = s.toList.flatMap (Part.escape quote) := rfl
      rw [hwritten] at hc
      cases hs : s.toList with
      | nil =>
        rw [hs] at hc
        exact ih c hc
      | cons d ds =>
        rw [hs, List.flatMap_cons] at hc
        unfold Part.escape at hc
        by_cases hd : d = '\\' ∨ d = quote ∨ d = '{'
        · rw [if_pos hd] at hc
          obtain rfl := Option.some.inj hc
          exact hbackslash
        · rw [if_neg hd] at hc
          obtain rfl := Option.some.inj hc
          exact fun h => hd (.inr (.inl h.symm))

/-- Two quotes in a row are an empty text, unless a third one follows. -/
theorem not_triple {body t : List Char} (hbody : ∀ c ∈ body.head?, quote ≠ c)
    (ht : ∀ c ∈ t.head?, quote ≠ c) :
    after? [quote, quote, quote] (quote :: (body ++ quote :: t)) = none := by
  show (if quote = quote then after? [quote, quote] (body ++ quote :: t) else none) = none
  rw [if_pos rfl]
  cases body with
  | cons c body => exact after?_eq_none (hbody c rfl) _ _
  | nil =>
    show (if quote = quote then after? [quote] t else none) = none
    rw [if_pos rfl]
    cases t with
    | nil => rfl
    | cons c t => exact after?_eq_none (ht c rfl) _ _

theorem quoted_written {symbol : String} (hsymbol : symbol.toList = [quote])
    (hquote : IsQuote quote) (h : Quotable parts) (t : List Char) :
    quoted (nested (maxNesting - 1)) symbol
        (quote :: (parts.flatMap (Part.written quote) ++ quote :: t))
      = .ok (Part.value parts) t := by
  have hopen : exactly symbol (quote :: (parts.flatMap (Part.written quote) ++ quote :: t))
      = .ok () (parts.flatMap (Part.written quote) ++ quote :: t) := by
    have happend := exactly_append symbol (parts.flatMap (Part.written quote) ++ quote :: t)
    rwa [hsymbol] at happend
  unfold quoted
  rw [bind_of_ok hopen, bind_of_ok (collect_written hsymbol hquote h t), ofParts_pieces h]
  rfl

/-- The text is read up to its closing quote, whichever quote it is. -/
theorem textLiteral_written (hquote : IsQuote quote) (h : Quotable parts) {t : List Char}
    (ht : ∀ c ∈ t.head?, quote ≠ c) :
    textLiteral (nested (maxNesting - 1))
        (quote :: (parts.flatMap (Part.written quote) ++ quote :: t))
      = .ok (Part.value parts) t := by
  have hnot := not_triple (head?_parts hquote parts) ht
  have hsingle := hquote
  rw [textLiteral_apply]
  -- neither triple quote is ahead, so the first quote tells the two forms
  rcases hquote with rfl | rfl
  · have hdouble : after? "\"\"\"".toList _ = none := hnot
    rw [hdouble]
    exact quoted_written rfl hsingle h t
  · have htriple : after? "'''".toList _ = none := hnot
    rw [htriple]
    exact quoted_written rfl hsingle h t

/-! ## §2. The entity. -/

/-- An entity with a quoted text as its value. -/
def entityText (quote : Char) (id : String) (w : List Char) (parts : List Part) (w' : List Char) :
    List Char :=
  '<' :: (id.toList ++ (w ++ quote :: (parts.flatMap (Part.written quote)
    ++ quote :: (w' ++ ['>']))))

/-- A blank is no part of what the reader of an entity looks for. -/
theorem blank_cases {c : Char} (h : isBlank c = true) : '(' ≠ c ∧ '[' ≠ c ∧ '>' ≠ c := by
  refine ⟨?_, ?_, ?_⟩
  all_goals
    rintro rfl
    exact absurd h (by decide)

theorem not_isBlank_of_startsLiteral {c : Char} (h : startsLiteral c = true) :
    isBlank c = false := by
  simp only [startsLiteral, Bool.or_eq_true, beq_iff_eq] at h
  rcases h with ((rfl | rfl) | rfl) | rfl <;> decide

/-- An entity with a literal and blanks around it. -/
theorem entityRest_literal (id : String) {v : Expr} {c : Char} {s w w' : List Char}
    (hc : startsLiteral c = true) (hliteral : outermost.literal (c :: s) = .ok v (w' ++ ['>']))
    (hw : AllBlank w) (hne : w ≠ []) (hw' : AllBlank w') :
    entityRest id (w ++ c :: s) = .ok ⟨id, isLocalName id, some v, [], []⟩ [] := by
  have hblank := not_isBlank_of_startsLiteral hc
  have hvalue : entityValue (c :: s) = .ok (some v) (w' ++ ['>']) := by
    unfold entityValue
    show (if startsLiteral c = true then some <$> outermost.literal else _
      : Parser (Option Expr)) (c :: s) = _
    rw [if_pos hc]
    exact map_of_ok some hliteral
  obtain ⟨b, w, rfl⟩ := List.exists_cons_of_ne_nil hne
  have hb := hw b List.mem_cons_self
  -- the blank behind the id is no `[` and no `>`, and is read with the others
  obtain ⟨-, hbracket, hangle⟩ := blank_cases hb
  have hspaced : someBlank (b :: (w ++ c :: s)) = .ok true (c :: s) := by
    show Outcome.ok (isBlank b) (dropBlank (b :: w ++ c :: s)) = _
    rw [hb, dropBlank_cons hw hblank]
  have hindexed : eat "[" (b :: (w ++ c :: s)) = .ok false (b :: (w ++ c :: s)) := by
    rw [eat_single (d := '[') rfl, if_neg hbracket]
  have hclosed : eat ">" (b :: (w ++ c :: s)) = .ok false (b :: (w ++ c :: s)) := by
    rw [eat_single (d := '>') rfl, if_neg hangle]
  have hend : (do
      blank
      let attributes ← attributeList
      pure ⟨id, isLocalName id, some v, [], attributes⟩ : Parser Entity) (w' ++ ['>'])
        = .ok ⟨id, isLocalName id, some v, [], []⟩ [] := by
    show ((attributeList >>= fun attributes => _ : Parser Entity) (dropBlank (w' ++ ['>']))) = _
    rw [dropBlank_cons hw' (by decide), bind_of_ok (attributeList_nil [])]
    rfl
  unfold entityRest
  rw [List.cons_append, bind_of_ok hindexed]
  show entityBody id [] (b :: (w ++ c :: s)) = _
  unfold entityBody
  rw [bind_of_ok hclosed, if_neg (by decide), bind_of_ok hspaced, if_pos rfl, bind_of_ok hvalue]
  exact hend

theorem entry_entityText (hquote : IsQuote quote) (h : Quotable parts) {id : String}
    (hid : IsName id) {w w' : List Char} (hw : AllBlank w) (hne : w ≠ []) (hw' : AllBlank w') :
    entry (entityText quote id w parts w')
      = .ok (.entity ⟨id, isLocalName id, some (Part.value parts), [], []⟩) [] := by
  have hstarts : startsLiteral quote = true := by
    rcases hquote with rfl | rfl <;> decide
  have hclose : ∀ c ∈ (w' ++ ['>']).head?, quote ≠ c := by
    intro c hc
    cases w' with
    | nil =>
      obtain rfl := Option.some.inj hc
      exact hquote.ne (by decide)
    | cons b w' =>
      obtain rfl := Option.some.inj hc
      rintro rfl
      exact absurd (hw' quote List.mem_cons_self)
        (by rw [not_isBlank_of_startsLiteral hstarts]; decide)
  have hliteral : outermost.literal
      (quote :: (parts.flatMap (Part.written quote) ++ quote :: (w' ++ ['>'])))
        = .ok (Part.value parts) (w' ++ ['>']) := by
    have htext := textLiteral_written hquote h hclose
    rcases hquote with rfl | rfl <;> exact htext
  have hrest := entityRest_literal id hstarts hliteral hw hne hw'
  obtain ⟨b, w, rfl⟩ := List.exists_cons_of_ne_nil hne
  have hb := hw b List.mem_cons_self
  have hname : ∀ c ∈ (b :: (w ++ quote :: (parts.flatMap (Part.written quote)
      ++ quote :: (w' ++ ['>'])))).head?, isNameRest c = false := by
    intro c hc
    obtain rfl := Option.some.inj hc
    exact not_isNameRest_of_isBlank hb
  unfold entityText
  rw [List.cons_append, entry_tagged hid hname, if_neg]
  · exact map_of_ok Entry.entity hrest
  · have hnone : after? "(".toList (b :: (w ++ quote :: (parts.flatMap (Part.written quote)
        ++ quote :: (w' ++ ['>'])))) = none := after?_eq_none (blank_cases hb).1 [] _
    rw [hnone]
    decide

/-! ## §3. The value. -/

section

variable (env : Environment) (data : Bindings)

/-- What a part shows in an entity that is asked for: its characters, or the
value of its expression with references opened. -/
def Part.shown : Part → Except EvalError String
  | .text s => .ok s
  | .placed _ e => do
    let inner := Scope.within env data (maxDepth - 1)
    let v ← eval env data inner .entity [] e
    let v ← inner.render v
    pure v.display

/-- An entity with nothing but a value is asked for the value. -/
theorem get_literal (id : String) (isLocal : Bool) (v : Expr) :
    (⟨id, isLocal, some v, [], []⟩ : Entity).get env data = (do
      let value ← eval env data (Scope.within env data (maxDepth - 1)) .entity [] v
      (Scope.within env data maxDepth).render value) :=
  rfl

/-- One more value shows what it displays in front of the others. -/
theorem join_cons {vs : Except EvalError (List Value)} {texts : Except EvalError (List String)}
    (h : vs.map (fun vs => String.join (Value.displays vs)) = texts.map String.join) (v : Value) :
    (vs.bind fun vs => .ok (v :: vs)).map (fun vs => String.join (Value.displays vs))
      = (texts.bind fun texts => .ok (v.display :: texts)).map String.join := by
  cases vs with
  | error x =>
    cases texts with
    | error y =>
      obtain rfl : x = y := Except.error.inj h
      rfl
    | ok texts => exact nomatch h
  | ok vs =>
    cases texts with
    | error y => exact nomatch h
    | ok texts =>
      have hjoin : String.join (Value.displays vs) = String.join texts := Except.ok.inj h
      show Except.ok (String.join (v.display :: Value.displays vs))
        = Except.ok (String.join (v.display :: texts))
      rw [String.join_cons, String.join_cons, hjoin]

/-- Empty runs of characters show nothing, so that they may be left out. -/
theorem displays_expr? (parts : List Part) :
    (evalRendered env data (Scope.within env data (maxDepth - 1)) .entity
        (parts.filterMap Part.expr?)).map (fun vs => String.join (Value.displays vs))
      = (parts.mapM (Part.shown env data)).map String.join := by
  induction parts with
  | nil => rfl
  | cons p parts ih =>
    rw [List.mapM_cons]
    cases p with
    | text s =>
      by_cases hs : s = ""
      · subst hs
        rw [List.filterMap_cons_none rfl, ih]
        show _ = Except.map String.join ((parts.mapM (Part.shown env data)).bind fun texts =>
          .ok ("" :: texts))
        cases parts.mapM (Part.shown env data) with
        | error x => rfl
        | ok texts => simp [Except.map, Except.bind, String.join_cons]
      · have hsome : Part.expr? (.text s) = some (.text s) := if_neg hs
        rw [List.filterMap_cons_some hsome]
        exact join_cons ih (.text s)
    | placed u e =>
      have hsome : Part.expr? (.placed u e) = some e := rfl
      have hshown : Part.shown env data (.placed u e)
          = (eval env data (Scope.within env data (maxDepth - 1)) .entity [] e).bind fun v =>
              ((Scope.within env data (maxDepth - 1)).render v).bind fun v => .ok v.display := rfl
      rw [List.filterMap_cons_some hsome, evalRendered, hshown]
      -- the first error counts, be it of the value or of a reference behind it
      cases eval env data (Scope.within env data (maxDepth - 1)) .entity [] e with
      | error x => rfl
      | ok v =>
        show Except.map _ (((Scope.within env data (maxDepth - 1)).render v).bind _)
          = Except.map _ ((((Scope.within env data (maxDepth - 1)).render v).bind _).bind _)
        cases (Scope.within env data (maxDepth - 1)).render v with
        | error x => rfl
        | ok v => exact join_cons ih v

/-- Parts without placed expressions show their characters. -/
theorem shown_plain {parts : List Part} (h : ∀ p ∈ parts, p.isPlaced = false) :
    parts.mapM (Part.shown env data) = .ok (parts.map Part.plain) := by
  induction parts with
  | nil => rfl
  | cons p parts ih =>
    have hp := h p List.mem_cons_self
    rw [List.mapM_cons, ih fun q hq => h q (List.mem_cons_of_mem _ hq)]
    cases p with
    | text s => rfl
    | placed u e => exact nomatch hp

/-- The value of an entity with a text is what the parts of the text show. -/
theorem get_value (id : String) (isLocal : Bool) (parts : List Part) :
    (⟨id, isLocal, some (Part.value parts), [], []⟩ : Entity).get env data
      = (parts.mapM (Part.shown env data)).map (fun texts => .text (String.join texts)) := by
  have hmap : ∀ {α : Type} (f : α → String) (x : Except EvalError α),
      (x.map f).map Value.text = x.map fun a => .text (f a) := by
    intro α f x
    cases x <;> rfl
  rw [get_literal]
  unfold Part.value
  by_cases hplaced : parts.any Part.isPlaced = true
  · -- a template joins what its parts show
    rw [if_pos hplaced, eval, ← hmap, ← displays_expr?, hmap]
    cases evalRendered env data (Scope.within env data (maxDepth - 1)) .entity
      (parts.filterMap Part.expr?) <;> rfl
  · -- a plain text is there already
    have hnone : ∀ p ∈ parts, p.isPlaced = false := by
      simpa using hplaced
    rw [if_neg hplaced, shown_plain env data hnone, eval]
    rfl

end

/-! ## §4. Both together. -/

namespace Resource

/-- An entity that has been read can be defined, and is found by its name. -/
theorem addEntry_entityText {quote : Char} {id : String} {w w' : List Char} {parts : List Part}
    {e : Entity} (h : entry (entityText quote id w parts w') = .ok (.entity e) []) (r : Registry) :
    ∃ r', r.addEntry (.entity e) = .ok r' ∧ r'.findEntity? e.id = some ⟨r.nextStamp, e⟩ := by
  have hwritten : e.Written := (entry_result h).1
  have hadd : r.addEntry (.entity e) = .ok (r.define e.id fun stamp => .entity ⟨stamp, e⟩) := by
    rw [Registry.addEntry, hwritten.check_eq]
    rfl
  refine ⟨_, hadd, ?_⟩
  unfold Registry.findEntity?
  rw [Registry.find?_define, if_pos rfl]

/-- A text between quotes is read as its parts, and the entity around it
shows them one after the other: the characters as they are, and what is
placed among them as it is evaluated.  The first error counts. -/
theorem quoted_round_trip {quote : Char} (hquote : IsQuote quote) {parts : List Part}
    (hparts : Quotable parts) {id : String} (hid : IsName id) {w w' : List Char}
    (hw : AllBlank w) (hne : w ≠ []) (hw' : AllBlank w') :
    let entity : Entity := ⟨id, isLocalName id, some (Part.value parts), [], []⟩
    read (String.ofList (entityText quote id w parts w')) = .ok [.entity entity]
      ∧ (∀ u e, Part.placed u e ∈ parts → ∀ m, IsName m → isLocalName m = false →
          read (String.ofList (macroText m (' ' :: (u.toList ++ [' ']))))
            = .ok [.macroDef ⟨m, [], e, []⟩])
      ∧ (∀ r : Registry, ∃ r', r.addEntry (.entity entity) = .ok r'
          ∧ r'.findEntity? id = some ⟨r.nextStamp, entity⟩)
      ∧ ∀ (env : Environment) (stamp : Nat), env.registry.findEntity? id = some ⟨stamp, entity⟩ →
          ∀ data, (env.registry.findEntity? id).map (fun d => d.it.get env data)
            = some ((parts.mapM (Part.shown env data)).map fun texts =>
                .text (String.join texts)) := by
  intro entity
  have hentry := entry_entityText hquote hparts hid hw hne hw'
  have hblank : dropBlank (entityText quote id w parts w') = entityText quote id w parts w' :=
    dropBlank_of_not_isBlank (by decide) _
  refine ⟨read_of_ok (List.cons_ne_nil _ _) hblank hentry, ?_, addEntry_entityText hentry, ?_⟩
  · intro u e hmem m hm hpublic
    exact read_of_complete (hparts.complete _ hmem) hm hpublic
  · intro env stamp hfind data
    rw [hfind]
    exact congrArg some (get_value env data id (isLocalName id) parts)

/-- Everything that is escaped, and a placed sum. -/
theorem quoted_round_trip_sum :
    let sum : Expr := .binary .add (.var "n") (.number (Int64.ofNat 1))
    let parts : List Part := [.text "\x7b\"\\", .placed "$n + 1" sum, .text "'\x7b\x7b"]
    let entity : Entity := ⟨"a", isLocalName "a", some (Part.value parts), [], []⟩
    (IsQuote '"' ∧ Quotable parts ∧ IsName "a")
      ∧ entityText '"' "a" [' '] parts []
          = "<a \"\\\x7b\\\"\\\\\x7b\x7b $n + 1 \x7d\x7d'\\\x7b\\\x7b\">".toList
      ∧ read (String.ofList (entityText '"' "a" [' '] parts [])) = .ok [.entity entity]
      ∧ ∀ env stamp, env.registry.findEntity? "a" = some ⟨stamp, entity⟩ →
          ∀ data, (env.registry.findEntity? "a").map (fun d => d.it.get env data)
            = some ((parts.mapM (Part.shown env data)).map fun texts =>
                .text (String.join texts)) := by
  intro sum parts entity
  have hblank : AllBlank [' '] := fun c hc => by
    obtain rfl := List.mem_singleton.1 hc
    decide
  have hone : IsNumeral ['1'] := by
    refine ⟨by decide, fun d hd => ?_, by decide⟩
    obtain rfl := List.mem_singleton.1 hd
    decide
  have hspells : Spells 30 sum ('$' :: "n".toList ++ ([' '] ++ ("+".toList ++ ([' '] ++ ['1'])))) :=
    .binary (.var ⟨'n', [], rfl, by decide, nofun⟩) (.number hone) hblank hblank
  have hwritten : sum.Written := .binary (.var _) (.number _) (by decide) (by decide)
  have htext : [' '] ++ (('$' :: "n".toList ++ ([' '] ++ ("+".toList ++ ([' '] ++ ['1'])))) ++ [' '])
      = ' ' :: ("$n + 1".toList ++ [' ']) := by decide
  have hbody : IsBody (maxNesting - 1) (' ' :: ("$n + 1".toList ++ [' '])) sum := by
    rw [← htext]
    exact hspells.isBody hwritten hblank hblank
  have hparts : Quotable parts :=
    { separate := .cons_cons (by decide : "\x7b\"\\".toList.getLast? ≠ some '{')
        (.cons_cons trivial (.singleton _))
      complete := by
        intro p hp
        simp only [parts, List.mem_cons, List.not_mem_nil, or_false] at hp
        rcases hp with rfl | rfl | rfl
        · exact trivial
        · exact ⟨hbody, nofun⟩
        · exact trivial }
  have hname : IsName "a" := ⟨'a', [], rfl, by decide, nofun⟩
  have hquote : IsQuote '"' := .inl rfl
  have hnone : AllBlank [] := nofun
  have hround := quoted_round_trip hquote hparts hname hblank (by decide) hnone
  exact ⟨⟨hquote, hparts, hname⟩, by decide, hround.1, hround.2.2.2⟩

end Resource

end Phrasebook
