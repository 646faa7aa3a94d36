/-
  Phrasebook.Proofs.Grammar.Part
  ────────────────────────────────
  **THE PARTS OF A QUOTED TEXT.**

  Parts are characters and placed expressions.  Between quotes a backslash
  stands in front of what would end the text, place an expression or escape a
  character; then the parts are read back piece by piece:

      piece_escape      —  one character, escaped or not
      collect_written   —  all parts, by induction on them
      parts_pieces      —  the runs of characters between placed expressions
      ofParts_pieces    —  the expression for all parts
-/
import Mathlib.Data.List.Chain
import Phrasebook.Proofs.Grammar.Nesting

namespace Phrasebook

open Phrasebook.Parser

/-! ## §1. Parts. -/

/-- A part of a text: characters, or an expression placed among them, with
its source. -/
inductive Part where
  | text (s : String)
  | placed (u : String) (e : Expr)

namespace Part

/-- A character as it is written between quotes. -/
def escape (quote c : Char) : List Char :=
  if c = '\\' ∨ c = quote ∨ c = '{' then ['\\', c] else [c]

/-- How a part is written between quotes. -/
def written (quote : Char) : Part → List Char
  | .text s => s.toList.flatMap (escape quote)
  | .placed u _ => '{' :: '{' :: ' ' :: (u.toList ++ [' ', '}', '}'])

/-- Can one part stand in front of another?  Two runs of characters are one,
and an escaped `{` in front of `{{` would take it along. -/
def Precedes : Part → Part → Prop
  | .text _, .text _ => False
  | .text s, .placed _ _ => s.toList.getLast? ≠ some '{'
  | .placed _ _, _ => True

/-- What is placed is a complete expression, with a level to spare for the
text around it, and is no plain text. -/
def Complete : Part → Prop
  | .text _ => True
  | .placed u e => IsBody (maxNesting - 1) (' ' :: (u.toList ++ [' '])) e ∧ ∀ s, e ≠ .text s

/-- The expression of a part; no characters are none. -/
def expr? : Part → Option Expr
  | .text s => if s = "" then none else some (.text s)
  | .placed _ e => some e

/-- Is the part a placed expression? -/
def isPlaced : Part → Bool
  | .text _ => false
  | .placed _ _ => true

/-- The characters of a part, if it has no expression. -/
def plain : Part → String
  | .text s => s
  | .placed _ _ => ""

/-- The expression for a text of these parts. -/
def value (parts : List Part) : Expr :=
  if parts.any isPlaced then .template (parts.filterMap expr?)
  else .text (String.join (parts.map plain))

/-- The pieces that a part is read in. -/
def pieces : Part → List Piece
  | .text s => s.toList.map fun c => .chars [c]
  | .placed _ e => [.placed e]

end Part

/-- The parts of a text that can be written between quotes. -/
structure Quotable (parts : List Part) : Prop where
  separate : parts.IsChain Part.Precedes
  complete : ∀ p ∈ parts, p.Complete

/-- What is placed in a text is read as the body of a macro, too. -/
theorem read_of_complete {u : String} {e : Expr} (h : (Part.placed u e).Complete) {id : String}
    (hid : IsName id) (hpublic : isLocalName id = false) :
    Resource.read (String.ofList (macroText id (' ' :: (u.toList ++ [' ']))))
      = .ok [.macroDef ⟨id, [], e, []⟩] :=
  (Resource.read_macroText hid hpublic).2 (h.1.deeper (Nat.sub_le maxNesting 1))

/-- Behind a run of characters there is nothing or a placed expression. -/
theorem isChain_text {s : String} {parts : List Part}
    (h : (Part.text s :: parts).IsChain Part.Precedes) :
    parts = [] ∨ ∃ u e others, parts = .placed u e :: others
      ∧ s.toList.getLast? ≠ some '{' := by
  cases parts with
  | nil => exact .inl rfl
  | cons p others =>
    have hprecedes := (List.isChain_cons_cons.1 h).1
    cases p with
    | text s' => exact absurd hprecedes id
    | placed u e => exact .inr ⟨u, e, others, rfl, hprecedes⟩

/-- The characters that texts are written between. -/
def IsQuote (c : Char) : Prop :=
  c = '"' ∨ c = '\''

theorem IsQuote.ne {quote c : Char} (h : IsQuote quote) (hc : c ≠ '"' ∧ c ≠ '\'') : quote ≠ c := by
  rintro rfl
  rcases h with rfl | rfl
  · exact hc.1 rfl
  · exact hc.2 rfl

/-! ## §2. One piece. -/

section

variable {inner : Nested} {symbol : String} {quote : Char} (hsymbol : symbol.toList = [quote])
  (hquote : IsQuote quote)

include hsymbol in
/-- There is no piece at the closing quote. -/
theorem piece_quote (t : List Char) : piece inner symbol (quote :: t) = .ok none t := by
  unfold piece
  have hclosed : eat symbol (quote :: t) = .ok true t := by
    rw [eat_single hsymbol, if_pos rfl]
  rw [bind_of_ok hclosed]
  rfl

include hsymbol in
theorem piece_of_ne {c : Char} (hc : quote ≠ c) (t : List Char) :
    piece inner symbol (c :: t)
      = if '\\' = c then
          (if (after? ['{', '{'] t).isSome then .ok (some (.chars ['{', '{'])) (t.drop 2)
            else piece.single .escapedCharacter t)
        else if (after? ['{', '{'] (c :: t)).isSome then
          enclosed inner "\x7d\x7d" (fun e => some (.placed e)) ((c :: t).drop 2)
        else piece.single .closingQuote (c :: t) := by
  have hclosed : eat symbol (c :: t) = .ok false (c :: t) := by
    rw [eat_single hsymbol, if_neg hc]
  have heat : ∀ s : List Char, eat "\x7b\x7b" s
      = if (after? ['{', '{'] s).isSome then .ok true (s.drop 2) else .ok false s := by
    intro s
    rcases eat_cases "\x7b\x7b" s with ⟨r, rfl, h⟩ | ⟨hnone, h⟩
    · rw [h]
      rfl
    · have hnone : after? ['{', '{'] s = none := hnone
      rw [h, hnone]
      rfl
  unfold piece
  rw [bind_of_ok hclosed]
  show ((eat "\\" >>= fun escape => _ : Parser (Option Piece)) (c :: t)) = _
  rw [bind_apply, eat_single (d := '\\') rfl]
  by_cases hescape : '\\' = c
  · rw [if_pos hescape, if_pos hescape]
    show ((eat "\x7b\x7b" >>= fun braces => _ : Parser (Option Piece)) t) = _
    rw [bind_apply, heat]
    split <;> rfl
  · rw [if_neg hescape, if_neg hescape]
    show ((eat "\x7b\x7b" >>= fun placed => _ : Parser (Option Piece)) (c :: t)) = _
    rw [bind_apply, heat]
    split <;> rfl

include hsymbol hquote in
/-- A character is a piece of its own, escaped or not, unless it takes a `{`
behind it along. -/
theorem piece_escape {c : Char} {t : List Char} (ht : c = '{' → t.head? ≠ some '{') :
    piece inner symbol (Part.escape quote c ++ t) = .ok (some (.chars [c])) t := by
  have hbackslash : quote ≠ '\\' := hquote.ne (by decide)
  unfold Part.escape
  by_cases hc : c = '\\' ∨ c = quote ∨ c = '{'
  · -- no `{{` is behind the backslash
    have hbraces : after? ['{', '{'] (c :: t) = none := by
      by_cases hbrace : c = '{'
      · subst hbrace
        cases t with
        | nil => rfl
        | cons d t =>
          have hd : '{' ≠ d := fun heq => ht rfl (congrArg some heq.symm)
          show (if '{' = '{' then (if '{' = d then _ else none) else none) = none
          rw [if_pos rfl, if_neg hd]
      · exact after?_eq_none (Ne.symm hbrace) _ t
    rw [if_pos hc, List.cons_append, List.singleton_append, piece_of_ne hsymbol hbackslash,
        if_pos rfl, hbraces]
    rfl
  · have hne : '\\' ≠ c ∧ quote ≠ c ∧ '{' ≠ c :=
      ⟨fun h => hc (.inl h.symm), fun h => hc (.inr (.inl h.symm)), fun h => hc (.inr (.inr h.symm))⟩
    rw [if_neg hc, List.singleton_append, piece_of_ne hsymbol hne.2.1, if_neg hne.1,
        after?_eq_none hne.2.2]
    rfl

include hsymbol hquote in
/-- A placed expression is one piece. -/
theorem piece_placed {n : Nat} {v : List Char} {e : Expr} (h : IsBody n v e) (t : List Char) :
    piece (nested n) symbol ('{' :: '{' :: (v ++ '}' :: '}' :: t)) = .ok (some (.placed e)) t := by
  rw [piece_of_ne hsymbol (hquote.ne (by decide)), if_neg (by decide)]
  exact h.enclosed (fun e => some (Piece.placed e)) t

end

/-! ## §3. All pieces. -/

/-- Nothing that is escaped starts with a `{`. -/
theorem head?_escape (quote c : Char) (t : List Char) :
    (Part.escape quote c ++ t).head? ≠ some '{' := by
  unfold Part.escape
  by_cases hc : c = '\\' ∨ c = quote ∨ c = '{'
  · rw [if_pos hc]
    simp
  · rw [if_neg hc]
    intro h
    exact hc (.inr (.inr (Option.some.inj h)))

section

variable {inner : Nested} (hin : inner.Lawful) {symbol : String} {quote : Char}
  (hsymbol : symbol.toList = [quote]) (hquote : IsQuote quote)

include hin hsymbol in
theorem piece_advances : Advances (piece inner symbol) := by
  have hsafe : Safe symbol.toList := by
    rw [hsymbol]
    exact nofun
  exact (piece_reads hin hsafe (by rw [hsymbol]; exact Nat.le_refl 1)).advances

include hin hsymbol hquote in
/-- A run of characters, one piece each.  At its end a `{` must not take
another one along. -/
theorem collect_escape (s : List Char) {t : List Char}
    (ht : s.getLast? = some '{' → t.head? ≠ some '{') :
    collect (piece inner symbol) (s.flatMap (Part.escape quote) ++ t)
      = (collect (piece inner symbol) t).bind fun ps r =>
          .ok (s.map (fun c => .chars [c]) ++ ps) r := by
  induction s with
  | nil =>
    show collect (piece inner symbol) t = (collect (piece inner symbol) t).bind _
    cases collect (piece inner symbol) t <;> rfl
  | cons c s ih =>
    have hnext : c = '{' → (s.flatMap (Part.escape quote) ++ t).head? ≠ some '{' := by
      rintro rfl
      cases s with
      | nil => exact ht rfl
      | cons d s =>
        rw [List.flatMap_cons, List.append_assoc]
        exact head?_escape quote d _
    have hlater : s.getLast? = some '{' → t.head? ≠ some '{' := by
      intro h
      cases s with
      | nil => exact nomatch h
      | cons d s => exact ht ((List.getLast?_cons_cons).trans h)
    rw [List.flatMap_cons, List.append_assoc,
        collect_some (piece_advances hin hsymbol) (piece_escape hsymbol hquote hnext),
        ih hlater]
    cases collect (piece inner symbol) t <;> rfl

end

section

variable {symbol : String} {quote : Char} (hsymbol : symbol.toList = [quote])
  (hquote : IsQuote quote)

/-- What follows a run of characters does not start with a `{` if the run
ends with one. -/
theorem head?_written {s : String} {parts : List Part}
    (h : (Part.text s :: parts).IsChain Part.Precedes) (hquote : IsQuote quote) (t : List Char)
    (hlast : s.toList.getLast? = some '{') :
    (parts.flatMap (Part.written quote) ++ quote :: t).head? ≠ some '{' := by
  rcases isChain_text h with rfl | ⟨u, e, others, -, hne⟩
  · intro hhead
    exact hquote.ne (by decide) (Option.some.inj hhead)
  · exact absurd hlast hne

include hsymbol hquote in
/-- The parts of a text are read back piece by piece, up to its closing
quote. -/
theorem collect_written {parts : List Part} (h : Quotable parts) (t : List Char) :
    collect (piece (nested (maxNesting - 1)) symbol)
        (parts.flatMap (Part.written quote) ++ quote :: t)
      = .ok (parts.flatMap Part.pieces) t := by
  have hin := nested_lawful (maxNesting - 1)
  obtain ⟨hseparate, hcomplete⟩ := h
  induction parts with
  | nil => exact collect_none (piece_quote hsymbol t)
  | cons p parts ih =>
    have hlater := ih hseparate.tail fun q hq => hcomplete q (List.mem_cons_of_mem _ hq)
    rw [List.flatMap_cons, List.append_assoc, List.flatMap_cons]
    cases p with
    | text s =>
      -- one piece for each character, and the others behind them
      show collect _ (s.toList.flatMap (Part.escape quote) ++ _) = _
      rw [collect_escape hin hsymbol hquote s.toList (head?_written hseparate hquote t), hlater]
      rfl
    | placed u e =>
      have hbody := (hcomplete _ List.mem_cons_self).1
      have hpiece := piece_placed hsymbol hquote hbody
        (parts.flatMap (Part.written quote) ++ quote :: t)
      have hsplit : Part.written quote (.placed u e)
            ++ (parts.flatMap (Part.written quote) ++ quote :: t)
          = '{' :: '{' :: (' ' :: (u.toList ++ [' '])
            ++ '}' :: '}' :: (parts.flatMap (Part.written quote) ++ quote :: t)) := by
        simp only [Part.written, List.cons_append, List.append_assoc, List.nil_append]
      rw [hsplit, collect_some (piece_advances hin hsymbol) hpiece, hlater]
      rfl

end

/-! ## §4. The parts of the pieces. -/

/-- Characters in a row are one run. -/
theorem split_chars (s : List Char) (ps : List Piece) :
    Piece.parts.split (s.map (fun c => .chars [c]) ++ ps)
      = (s ++ (Piece.parts.split ps).1, (Piece.parts.split ps).2) := by
  induction s with
  | nil => rfl
  | cons c s ih =>
    show ([c] ++ (Piece.parts.split (s.map (fun c => .chars [c]) ++ ps)).1,
      (Piece.parts.split (s.map (fun c => .chars [c]) ++ ps)).2) = _
    rw [ih]
    rfl

/-- Every part that is not empty is read back as one. -/
theorem parts_pieces {parts : List Part} (h : parts.IsChain Part.Precedes) :
    Piece.parts (parts.flatMap Part.pieces) = parts.filterMap Part.expr? := by
  induction parts with
  | nil => rfl
  | cons p parts ih =>
    have hlater := ih h.tail
    cases p with
    | placed u e =>
      have hsome : Part.expr? (.placed u e) = some e := rfl
      rw [List.flatMap_cons, List.filterMap_cons_some hsome, ← hlater]
      rfl
    | text s =>
      -- no run of characters is in front of what follows
      have hlead : (Piece.parts.split (parts.flatMap Part.pieces)).1 = [] := by
        rcases isChain_text h with rfl | ⟨u, e, others, rfl, -⟩ <;> rfl
      have hothers : (Piece.parts.split (parts.flatMap Part.pieces)).2
          = parts.filterMap Part.expr? := by
        rw [← hlater]
        show _ = Piece.parts.flush (Piece.parts.split (parts.flatMap Part.pieces)).1 _
        rw [hlead]
        rfl
      rw [List.flatMap_cons]
      show Piece.parts.flush (Piece.parts.split (s.toList.map (fun c => .chars [c]) ++ _)).1
        (Piece.parts.split (s.toList.map (fun c => .chars [c]) ++ _)).2 = _
      rw [split_chars, hlead, hothers, List.append_nil]
      unfold Piece.parts.flush
      by_cases hs : s = ""
      · subst hs
        rw [List.filterMap_cons_none rfl]
        rfl
      · have hsome : Part.expr? (.text s) = some (.text s) := if_neg hs
        have hne : s.toList.isEmpty = false := by
          simpa using hs
        rw [List.filterMap_cons_some hsome, hne, String.ofList_toList]
        rfl

/-- The expression that is read for the parts. -/
theorem ofParts_pieces {parts : List Part} (h : Quotable parts) :
    Expr.ofParts (Piece.parts (parts.flatMap Part.pieces)) = Part.value parts := by
  rw [parts_pieces h.separate]
  unfold Part.value
  by_cases hplaced : parts.any Part.isPlaced = true
  · rw [if_pos hplaced]
    obtain ⟨p, hp, hisPlaced⟩ := List.any_eq_true.1 hplaced
    cases p with
    | text s => exact nomatch hisPlaced
    | placed u e =>
      have hmem : e ∈ parts.filterMap Part.expr? := List.mem_filterMap.2 ⟨_, hp, rfl⟩
      have hnot := (h.complete _ hp).2
      unfold Expr.ofParts
      split
      · next hnil =>
        rw [hnil] at hmem
        exact absurd hmem List.not_mem_nil
      · next s hone =>
        rw [hone] at hmem
        exact absurd (List.mem_singleton.1 hmem) (hnot s)
      · rfl
  · rw [if_neg hplaced]
    -- without placed expressions there is one run of characters at most
    have hplain : parts = [] ∨ ∃ s, parts = [.text s] := by
      cases parts with
      | nil => exact .inl rfl
      | cons p parts =>
        cases p with
        | placed u e => exact absurd rfl hplaced
        | text s =>
          rcases isChain_text h.separate with rfl | ⟨u, e, others, rfl, -⟩
          · exact .inr ⟨s, rfl⟩
          · exact absurd rfl hplaced
    rcases hplain with rfl | ⟨s, rfl⟩
    · rfl
    · by_cases hs : s = ""
      · subst hs
        rfl
      · have hsome : Part.expr? (.text s) = some (.text s) := if_neg hs
        rw [List.filterMap_cons_some hsome]
        exact congrArg Expr.text (String.empty_append).symm

end Phrasebook
