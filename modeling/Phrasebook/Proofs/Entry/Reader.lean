/-
  Phrasebook.Proofs.Entry.Reader
  ────────────────────────────────
  **READING ONE ENTRY.**

      entry_cases       —  an entry is told by what it starts with
      entry_closes      —  entries keep the laws of readers, and what is read
                           is an entry that can be written, never junk
      entry_closed      —  what follows an entry does not matter to it
      entry_comment_eq  —  a comment is the text between its delimiters

  An entity and a macro end with `>`, an import with `)` and a comment with
  `/`, which is why these characters are final.
-/
import Phrasebook.Entry.Reader
import Phrasebook.Proofs.Expr.Reader

namespace Phrasebook

open Phrasebook.Parser

/-! ## §1. Entries that can be written. -/

/-- Attributes are what remains of a list of literals with keys. -/
def WrittenAttributes (attributes : List (Field Expr)) : Prop :=
  ∃ written, attributes = Field.settle written
    ∧ ∀ f ∈ written, f.value.WrittenLiteral

theorem WrittenAttributes.value {attributes : List (Field Expr)} (h : WrittenAttributes attributes)
    {f : Field Expr} (hf : f ∈ attributes) : f.value.WrittenLiteral := by
  obtain ⟨written, rfl, hw⟩ := h
  exact hw f (Field.mem_of_mem_settle hf)

/-- The entities that a resource can spell. -/
structure Entity.Written (e : Entity) : Prop where
  isLocal : e.isLocal = isLocalName e.id
  value : ∀ v ∈ e.value, v.WrittenLiteral
  index : ∀ i ∈ e.index, i.Written
  attributes : WrittenAttributes e.attributes

/-- The macros that a resource can spell. -/
structure Macro.Written (m : Macro) : Prop where
  isPublic : isLocalName m.id = false
  body : m.body.Written
  attributes : WrittenAttributes m.attributes

/-- The entries that a resource can spell; junk is none. -/
def Entry.Written : Entry → Prop
  | .entity e => e.Written
  | .macroDef m => m.Written
  | .importing _ | .comment _ => True
  | .junk _ => False

/-- Entries but comments. -/
def Entry.WrittenCode (e : Entry) : Prop :=
  e.Written ∧ ∀ content, e ≠ .comment content

/-! ## §2. Attributes. -/

/-- One round of the loop that reads attributes. -/
def attributeRound : Parser (Option (Field Expr)) := do
  let closed ← eat ">"
  if closed then
    pure none
  else
    let item ← field outermost false
    let spaced ← someBlank
    let comma ← eat ","
    blank
    let closes ← isAhead ">"
    if spaced || comma || closes then
      pure (some item)
    else
      stop .blankBetweenAttributes

/-- One attribute, and what separates it from the next. -/
theorem attribute_reads : Reads 1 (do
    let item ← field outermost false
    let spaced ← someBlank
    let comma ← eat ","
    blank
    let closes ← isAhead ">"
    if spaced || comma || closes then
      pure (some item)
    else
      stop .blankBetweenAttributes) fun o => ∃ f, o = some f ∧ f.value.WrittenLiteral := by
  refine .bind_left (field_reads outermost_lawful false) fun f hf => ?_
  refine .bind .someBlank fun _ _ => .bind (.eat (by decide)) fun _ _ => .bind .blank fun _ _ => ?_
  exact .bind (.isAhead (by decide)) fun _ _ => .ite (fun _ => .pure ⟨f, rfl, hf⟩) fun _ => .stop _

theorem attributeRound_reads : Reads 1 attributeRound fun o => ∀ f ∈ o, f.value.WrittenLiteral := by
  refine .eat_then (by decide) (by decide) (.pure nofun) ?_
  refine attribute_reads.mono (fun o ho f hf => ?_) (Nat.le_refl 1)
  obtain ⟨g, rfl, hg⟩ := ho
  obtain rfl := Option.some.inj hf
  exact hg

/-- The `>` that closes an entity or a macro. -/
theorem sealed_angle : Sealed ">".toList :=
  ⟨[], '>', rfl, rfl⟩

theorem attributeList_closes : Closes 1 attributeList WrittenAttributes := by
  have hsome := attribute_reads.mono (fun o ho => show o.isSome = true from by
    obtain ⟨f, rfl, _⟩ := ho
    rfl) (Nat.le_refl 1)
  refine .map (.collect attributeRound_reads (.eat sealed_angle hsome)) fun written hw => ?_
  exact ⟨written, rfl, hw⟩

/-! ## §3. Entities. -/

theorem entityValue_reads : Reads 0 entityValue fun o => ∀ v ∈ o, v.WrittenLiteral := by
  refine .bind (.ahead fun _ _ _ => rfl) fun _ _ => .ite (fun _ => ?_) fun _ => .pure nofun
  exact (some_reads outermost_lawful.literal).atLeast (Nat.zero_le 1)

theorem entityBody_closes (id : String) {index : List Expr} (hi : ∀ i ∈ index, i.Written) :
    Closes 1 (entityBody id index) Entity.Written := by
  refine .eat_then (by decide) sealed_angle (by decide) ?_ ?_
  · -- an entity that closes at once has neither value nor attributes
    exact ⟨rfl, nofun, hi, [], rfl, nofun⟩
  · refine .bind .someBlank fun _ _ => .ite (fun _ => ?_) fun _ => .stop _
    refine .bind entityValue_reads fun v hv => .bind .blank fun _ _ => ?_
    exact .map attributeList_closes fun attributes ha => ⟨rfl, hv, hi, ha⟩

theorem entityRest_closes (id : String) : Closes 1 (entityRest id) Entity.Written := by
  refine .bind (.eat (by decide)) fun indexed _ => .ite (fun _ => ?_) fun _ => ?_
  · exact .bind (.tightList .index outermost_lawful.expression) fun index hi =>
      entityBody_closes id hi
  · have hnone : Reads 0 (pure []) fun index : List Expr => ∀ i ∈ index, i.Written := .pure nofun
    exact .bind hnone fun index hi => entityBody_closes id hi

/-! ## §4. Macros. -/

theorem parameter_reads : Reads 1 parameter fun _ => True :=
  .bind (.eat (by decide)) fun _ _ => .name

theorem macroRest_closes (id : String) : Closes 1 (macroRest id) Macro.Written := by
  -- a macro with a local name is stopped at, so the name is public
  refine .ite (fun _ => .stop _) fun hid => ?_
  have hparameters := Reads.tightList .parameters
    (parameter_reads.atLeast (Nat.zero_le 1))
  refine .bind (.exactly _) fun _ _ => .bind hparameters fun parameters _ => ?_
  refine .bind .blank fun _ _ => .bind (.exactly _) fun _ _ => .bind .blank fun _ _ => ?_
  refine .bind outermost_lawful.expression fun body hbody => ?_
  refine .bind .blank fun _ _ => .bind (.exactly _) fun _ _ => .bind .blank fun _ _ => ?_
  exact .map attributeList_closes fun attributes ha => ⟨by simpa using hid, hbody, ha⟩

/-- What comes after the `<` of an entity or a macro. -/
theorem afterAngle_closes : Closes 1 (do
    let id ← name
    let isMacro ← isAhead "("
    if isMacro then .macroDef <$> macroRest id else .entity <$> entityRest id)
    Entry.WrittenCode := by
  refine .bind .name fun id _ => .bind (.isAhead (by decide)) fun _ _ =>
    .ite (fun _ => ?_) fun _ => ?_
  · exact .map (macroRest_closes id) fun _ h => ⟨h, nofun⟩
  · exact .map (entityRest_closes id) fun _ h => ⟨h, nofun⟩

theorem tagged_closes : Closes 1 tagged Entry.WrittenCode :=
  .bind (.exactly _) fun _ _ => afterAngle_closes

/-! ## §5. Imports and comments. -/

theorem reference_reads : Reads 0 reference fun _ => True := by
  refine .bind (.isAhead (by decide)) fun _ _ => .ite (fun _ => ?_) fun _ => ?_
  all_goals
    refine .bind (.exactly _) fun _ _ => .bind (.takeWhile _) fun _ _ => ?_
    exact .bind_left ((Reads.exactly _).atLeast (Nat.zero_le _)) fun _ _ => .pure trivial

theorem importStatement_closes : Closes 1 importStatement Entry.WrittenCode := by
  refine .bind (.exactly _) fun _ _ => .bind .blank fun _ _ => .bind (.exactly _) fun _ _ =>
    .bind .blank fun _ _ => .bind reference_reads fun uri _ => .bind .blank fun _ _ => ?_
  have hclose : Sealed ")".toList := ⟨[], ')', rfl, rfl⟩
  exact .map (.exactly hclose) fun _ _ => ⟨trivial, nofun⟩

theorem comment_closes : Closes 2 comment Entry.Written := by
  refine .bind (.exactly _) fun _ _ => .bind (.upTo (by decide)) fun content _ => ?_
  have hclose : Sealed "*/".toList := ⟨['*'], '/', rfl, rfl⟩
  exact .map (.exactly hclose) fun _ _ => trivial

/-- A comment is its content between its delimiters. -/
theorem comment_eq {s r : List Char} {e : Entry} (h : comment s = .ok e r) :
    ∃ content : String, e = .comment content
      ∧ s = "/*".toList ++ content.toList ++ "*/".toList ++ r := by
  obtain ⟨_, s₁, hopen, h₁⟩ := bind_eq_ok h
  obtain ⟨content, s₂, hcontent, h₂⟩ := bind_eq_ok h₁
  obtain ⟨_, s₃, hclose, h₃⟩ := bind_eq_ok h₂
  obtain ⟨rfl, rfl⟩ := Outcome.ok.inj h₃
  have htext : (String.ofList content).toList = content := String.toList_ofList
  refine ⟨String.ofList content, rfl, ?_⟩
  rw [exactly_eq_ok hopen, upTo_eq_ok hcontent, exactly_eq_ok hclose, htext]
  simp only [List.append_assoc]

/-! ## §6. Any entry. -/

/-- An entry is told by what it starts with. -/
theorem entry_apply (s : List Char) :
    entry s = if (after? "<".toList s).isSome then tagged s
      else if (after? "/*".toList s).isSome then comment s
      else if (after? "import".toList s).isSome then importStatement s
      else .fail .entry s := by
  unfold entry
  show (if (after? "<".toList s).isSome = true then tagged
    else if (after? "/*".toList s).isSome = true then comment
    else if (after? "import".toList s).isSome = true then importStatement
    else stop .entry) s = _
  split
  · rfl
  · split
    · rfl
    · split <;> rfl

theorem entry_cases (s : List Char) :
    ((after? "<".toList s).isSome ∧ entry s = tagged s)
      ∨ (¬ (after? "<".toList s).isSome
        ∧ (entry s = comment s ∨ entry s = importStatement s ∨ entry s = .fail .entry s)) := by
  rw [entry_apply]
  split
  · next hangle => exact .inl ⟨hangle, rfl⟩
  · next hangle =>
    refine .inr ⟨hangle, ?_⟩
    split
    · exact .inl rfl
    · split
      · exact .inr (.inl rfl)
      · exact .inr (.inr rfl)

theorem entry_suffix (s : List Char) : (entry s).rest <:+ s := by
  rcases entry_cases s with ⟨-, h⟩ | ⟨-, h | h | h⟩
  · rw [h]
    exact tagged_closes.suffix s
  · rw [h]
    exact comment_closes.suffix s
  · rw [h]
    exact importStatement_closes.suffix s
  · rw [h]
    exact List.suffix_refl s

theorem entry_result {s r : List Char} {e : Entry} (h : entry s = .ok e r) :
    e.Written ∧ r.length + 1 ≤ s.length := by
  rcases entry_cases s with ⟨-, heq⟩ | ⟨-, heq | heq | heq⟩
  · rw [heq] at h
    exact (tagged_closes.result h).imp_left And.left
  · rw [heq] at h
    exact (comment_closes.toReads.atLeast (by decide)).result h
  · rw [heq] at h
    exact (importStatement_closes.result h).imp_left And.left
  · rw [heq] at h
    exact nomatch h

/-- What follows an entry does not matter to it. -/
theorem entry_closed {c t : List Char} {e : Entry} (h : entry (c ++ t) = .ok e t) :
    Sealed c ∧ ∀ t', entry (c ++ t') = .ok e t' := by
  rcases entry_cases (c ++ t) with ⟨hangle, heq⟩ | ⟨hangle, heq⟩
  · rw [heq] at h
    obtain ⟨hc, hclosed⟩ := tagged_closes.closed h
    refine ⟨hc, fun t' => ?_⟩
    rw [entry_apply, if_pos (isSome_after?_congr (by decide) hc t t' hangle), hclosed t']
  -- no angle is ahead of a sealed text, whatever follows it
  have hnot : Sealed c → ∀ t', ¬ (after? "<".toList (c ++ t')).isSome := fun hc t' hsome =>
    hangle (isSome_after?_congr (by decide) hc t' t hsome)
  rcases heq with heq | heq | heq
  · rw [heq] at h
    obtain ⟨hc, hclosed⟩ := comment_closes.closed h
    refine ⟨hc, fun t' => ?_⟩
    have hstart : (after? "/*".toList (c ++ t')).isSome := by
      obtain ⟨_, q, hopen, _⟩ := bind_eq_ok (hclosed t')
      rw [after?_eq_some_iff.2 (exactly_eq_ok hopen)]
      rfl
    rw [entry_apply, if_neg (hnot hc t'), if_pos hstart, hclosed t']
  · rw [heq] at h
    obtain ⟨hc, hclosed⟩ := importStatement_closes.closed h
    refine ⟨hc, fun t' => ?_⟩
    obtain ⟨_, q, hopen, _⟩ := bind_eq_ok (hclosed t')
    have hstart := exactly_eq_ok hopen
    have himport : (after? "import".toList (c ++ t')).isSome := by
      rw [after?_eq_some_iff.2 hstart]
      rfl
    have hcomment : ¬ (after? "/*".toList (c ++ t')).isSome := by
      rw [hstart]
      exact Bool.false_ne_true
    rw [entry_apply, if_neg (hnot hc t'), if_neg hcomment, if_pos himport, hclosed t']
  · rw [heq] at h
    exact nomatch h

theorem entry_closes : Closes 1 entry Entry.Written where
  suffix := entry_suffix
  result := entry_result
  steady _ _ h := (entry_closed h).2 _
  closed := entry_closed

/-- An entry that starts with `<` reads it, also when it fails then. -/
theorem entry_angle_suffix (s : List Char) : (entry ('<' :: s)).rest <:+ s := by
  have hangle : (after? "<".toList ('<' :: s)).isSome := by
    rw [after?_eq_some_iff.2 (show '<' :: s = "<".toList ++ s from rfl)]
    rfl
  rw [entry_apply, if_pos hangle]
  exact afterAngle_closes.suffix s

/-- A comment is the text between its delimiters. -/
theorem entry_comment_eq {s r : List Char} {content : String}
    (h : entry s = .ok (.comment content) r) :
    s = "/*".toList ++ content.toList ++ "*/".toList ++ r := by
  rcases entry_cases s with ⟨-, heq⟩ | ⟨-, heq | heq | heq⟩
  · rw [heq] at h
    exact absurd rfl ((tagged_closes.result h).1.2 content)
  · rw [heq] at h
    obtain ⟨content', hcontent, hs⟩ := comment_eq h
    obtain rfl := Entry.comment.inj hcontent
    exact hs
  · rw [heq] at h
    exact absurd rfl ((importStatement_closes.result h).1.2 content)
  · rw [heq] at h
    exact nomatch h

end Phrasebook
