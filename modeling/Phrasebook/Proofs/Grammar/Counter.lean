/-
  Phrasebook.Proofs.Grammar.Counter
  ────────────────────────────────
  **ONE COUNTER FOR ALL NESTING LEVELS.**

  The nesting levels that are open may be counted while reading: the counter
  is raised where a level is opened and lowered where that reader ends, in
  success or failure, and at `maxNesting` no more level is opened.  This is
  `Run`, one rule for each way to put readers together; it goes along the way
  in which the reader at hand is put together, so that every level is counted:

      Run.restores     —  the counter ends where it was
      Run.outcome      —  and allows what the levels that are left allow
      Run.unique       —  nothing else
      Built.exists_run —  every reader of the grammar runs so
      Rounds           —  entry after entry, the counter going from one to
                          the next, strictly or with recovery
      Rounds.restores, Rounds.unique, Rounds.outcome_recover,
      Rounds.outcome_strict, exists_rounds
                       —  the same for a resource, and every entry is begun
                          with the counter of the first
-/
import Phrasebook.Proofs.Grammar.Built
import Phrasebook.Proofs.Resource.Agreement

namespace Phrasebook

open Phrasebook.Parser

/-! ## §1. Reading with a counter. -/

/-- With the counter at the first number, a reader that is put together in this
way comes to the outcome, and leaves the counter at the second number. -/
inductive Run : {top : Bool} → {α : Type} → {p : Nested → Parser α} → Built top p → Nat →
    List Char → Outcome α → Nat → Prop where
  | single {top : Bool} {α : Type} {p : Parser α} (h : Single p) (d : Nat) (s : List Char) :
      Run (.single h : Built top _) d s (p s) d
  | bind {top : Bool} {α β : Type} {p : Nested → Parser α} {f : α → Nested → Parser β}
      {hp : Built top p} {hf : ∀ a, Built top (f a)} {d d₁ d₂ : Nat} {s r : List Char} {a : α}
      {o : Outcome β} (first : Run hp d s (.ok a r) d₁) (later : Run (hf a) d₁ r o d₂) :
      Run (.bind hp hf) d s o d₂
  | bindFail {top : Bool} {α β : Type} {p : Nested → Parser α} {f : α → Nested → Parser β}
      {hp : Built top p} (hf : ∀ a, Built top (f a)) {d d₁ : Nat} {s r : List Char}
      {e : Expected} (first : Run hp d s (.fail e r) d₁) :
      Run (.bind hp hf) d s (.fail e r) d₁
  | look {top : Bool} {α : Type} {p : List Char → Nested → Parser α}
      {h : ∀ t, Built top (p t)} {d d₁ : Nat} {s : List Char} {o : Outcome α}
      (there : Run (h s) d s o d₁) : Run (.look h) d s o d₁
  /-- A level is opened, and closed again whatever happened inside. -/
  | opens {top : Bool} {q body : Nested → Parser Expr} {d d₁ : Nat} {s : List Char}
      {o : Outcome Expr} (hq : Opens q body) (hd : d < maxNesting)
      (inside : Run (hq.built : Built false body) (d + 1) s o d₁) :
      Run (.opens hq : Built top q) d s o (d₁ - 1)
  /-- No more level may be opened. -/
  | full {top : Bool} {q body : Nested → Parser Expr} {d : Nat} (hq : Opens q body)
      (hd : maxNesting ≤ d) (s : List Char) :
      Run (.opens hq : Built top q) d s (.fail .shallowerNesting s) d
  /-- At the top of an entry, the counter is the one that the entry is begun
  with. -/
  | outermost {top : Bool} {q body : Nested → Parser Expr} {d d₁ : Nat} {s : List Char}
      {o : Outcome Expr} (htop : top = true) (hq : Opens q body)
      (opened : Run (.opens hq : Built false q) d s o d₁) : Run (.outermost htop hq) d s o d₁

variable {top : Bool} {α : Type} {p : Nested → Parser α} {hp : Built top p} {d d₁ : Nat}
  {s : List Char} {o : Outcome α}

/-- The counter ends where it was. -/
theorem Run.restores (h : Run hp d s o d₁) : d₁ = d := by
  induction h with
  | single => rfl
  | bind _ _ ihp ihf => rw [ihf, ihp]
  | bindFail _ _ ih => exact ih
  | look _ ih => exact ih
  | opens _ _ _ ih =>
    rw [ih]
    exact Nat.add_sub_cancel _ 1
  | full => rfl
  | outermost _ _ _ ih => exact ih

/-- A reader that opens a level runs its body inside. -/
theorem Opens.apply_succ {q body : Nested → Parser Expr} (h : Opens q body) (n : Nat) :
    q (nested (n + 1)) = body (nested n) := by
  cases h <;> rfl

theorem Opens.apply_zero {q body : Nested → Parser Expr} (h : Opens q body) :
    q (nested 0) = stop .shallowerNesting := by
  cases h <;> rfl

/-- The reader where `n` more levels may be opened, also from the top of an
entry. -/
def Built.within {top : Bool} {α : Type} {p : Nested → Parser α} (n : Nat) :
    Built top p → Parser α
  | .single (p := p) _ => p
  | .bind hp hf => hp.within n >>= fun a => (hf a).within n
  | .look h => fun s => (h s).within n s
  | .opens (q := q) _ => q (nested n)
  | .outermost (q := q) _ _ => q (nested n)

/-- That is the reader itself, unless it is at the top of an entry and not all
levels are left. -/
theorem Built.within_eq (hp : Built top p) {n : Nat} (htop : top = true → n = maxNesting) :
    hp.within n = p (nested n) := by
  induction hp with
  | single | opens => rfl
  | bind _ _ ihp ihf =>
    show (_ >>= fun a => _) = (_ >>= fun a => _)
    rw [ihp, funext ihf]
  | look _ ih => exact funext fun s => congrFun (ih s) s
  | outermost h =>
    obtain rfl := htop h
    rfl

/-- With the counter at `d`, what is read is what may be read where so many
levels are open. -/
theorem Run.outcome (h : Run hp d s o d₁) : o = hp.within (maxNesting - d) s := by
  induction h with
  | single => rfl
  | bind first _ ihp ihf =>
    -- the counter is for the second reader what it was for the first
    obtain rfl := first.restores
    show _ = Outcome.bind (_) _
    rw [← ihp]
    exact ihf
  | bindFail _ _ ih =>
    show _ = Outcome.bind (_) _
    rw [← ih]
    rfl
  | look _ ih => exact ih
  | @opens _ q body d _ s _ hq hd _ ih =>
    have hleft : maxNesting - d = (maxNesting - (d + 1)) + 1 := by omega
    -- inside a level nothing goes to the outermost one
    have hbody : (hq.built : Built false body).within (maxNesting - (d + 1))
        = body (nested (maxNesting - (d + 1))) := Built.within_eq _ fun h => nomatch h
    show _ = q _ s
    rw [ih, hbody, hleft, hq.apply_succ]
  | @full _ q body d hq hd s =>
    have hleft : maxNesting - d = 0 := by omega
    show _ = q _ s
    rw [hleft, hq.apply_zero]
    rfl
  | outermost _ _ _ ih => exact ih

/-- The counter leaves no choice of what is read. -/
theorem Run.unique {o' : Outcome α} {d₂ : Nat} (h : Run hp d s o d₁) (h' : Run hp d s o' d₂) :
    o' = o ∧ d₂ = d₁ :=
  ⟨h'.outcome.trans h.outcome.symm, h'.restores.trans h.restores.symm⟩

/-- What is read with the counter anywhere is read where no fewer levels may
be opened. -/
theorem Run.ok_of_le (h : Run hp d s o d₁) {n : Nat} (hn : maxNesting - d ≤ n) {a : α}
    {r : List Char} (ho : o = .ok a r) : p (nested n) s = .ok a r := by
  induction h generalizing n r with
  | single => exact ho
  | bind first _ ihp ihf =>
    obtain rfl := first.restores
    exact (bind_of_ok (ihp hn rfl) _).trans (ihf hn ho)
  | bindFail => exact nomatch ho
  | look _ ih => exact ih hn ho
  | @opens _ q body d _ s _ hq hd _ ih =>
    obtain ⟨m, rfl⟩ : ∃ m, n = m + 1 := ⟨n - 1, by omega⟩
    rw [hq.apply_succ]
    exact ih (by omega) ho
  | full => exact nomatch ho
  | outermost _ _ _ ih => exact ih (Nat.sub_le maxNesting _) ho

/-- If the bodies run inside one more level, the reader does. -/
theorem Built.exists_run_of (hp : Built top p) (d : Nat)
    (hinside : d < maxNesting → ∀ q body (hq : Opens q body) s, ∃ o d₁,
      Run (hq.built : Built false body) (d + 1) s o d₁)
    (s : List Char) : ∃ o d₁, Run hp d s o d₁ := by
  have hopens : ∀ {top : Bool} {q body} (hq : Opens q body) s, ∃ o d₁,
      Run (.opens hq : Built top q) d s o d₁ := by
    intro top q body hq s
    by_cases hd : d < maxNesting
    · obtain ⟨o, d₁, h⟩ := hinside hd q body hq s
      exact ⟨o, d₁ - 1, .opens hq hd h⟩
    · exact ⟨_, d, .full hq (Nat.le_of_not_lt hd) s⟩
  induction hp generalizing s with
  | single h => exact ⟨_, d, .single h d s⟩
  | bind _ hf ihp ihf =>
    obtain ⟨o, d₁, h⟩ := ihp s
    obtain rfl := h.restores
    cases o with
    | fail e r => exact ⟨_, _, .bindFail hf h⟩
    | ok a r =>
      obtain ⟨o, d₂, hlater⟩ := ihf a r
      exact ⟨o, d₂, .bind h hlater⟩
  | look _ ih =>
    obtain ⟨o, d₁, h⟩ := ih s s
    exact ⟨o, d₁, .look h⟩
  | opens hq => exact hopens hq s
  | outermost htop hq =>
    obtain ⟨o, d₁, h⟩ := hopens hq s
    exact ⟨o, d₁, .outermost htop hq h⟩

/-- The bodies run inside a level, wherever the counter is. -/
theorem Opens.exists_run {q body : Nested → Parser Expr} (hq : Opens q body) (d : Nat)
    (s : List Char) : ∃ o d₁, Run (hq.built : Built false body) d s o d₁ := by
  -- by induction on the levels that may still be opened
  induction hleft : maxNesting - d generalizing q body d s with
  | zero => exact hq.built.exists_run_of d (fun hd => absurd hd (by omega)) s
  | succ n ih => exact hq.built.exists_run_of d (fun hd q body hq s => ih hq (d + 1) s (by omega)) s

/-- Every reader of the grammar runs with the counter. -/
theorem Built.exists_run (hp : Built top p) (d : Nat) (s : List Char) :
    ∃ o d₁, Run hp d s o d₁ :=
  hp.exists_run_of d (fun _ _ _ hq s => hq.exists_run (d + 1) s) s

/-! ## §2. Entry after entry. -/

namespace Resource

/-- Reading a resource: strictly, or with recovery. -/
def parse (recover : Bool) (source : String) : Except SyntaxError Salvage :=
  if recover then .ok (salvage source) else (read source).map fun es => ⟨es, []⟩

/-- Put an entry in front of what is read later. -/
def Salvage.push (e : Entry) (later : Salvage) : Salvage :=
  ⟨e :: later.entries, later.errors⟩

/-- Put junk and its error in front of what is read later. -/
def Salvage.pushJunk (junk : List Char) (error : SyntaxError) (later : Salvage) : Salvage :=
  ⟨.junk (String.ofList junk) :: later.entries, error :: later.errors⟩

/-- Entries are read one after another, each with the counter that the one
before has left.  The list is that of the counters at the beginning of each
entry, and the last number is the counter at the end. -/
inductive Rounds (recover : Bool) (source : List Char) : Nat → List Char → List Nat →
    Except SyntaxError Salvage → Nat → Prop where
  | ended (d : Nat) : Rounds recover source d [] [] (.ok ⟨[], []⟩) d
  | entry {d d₁ d₂ : Nat} {start rest : List Char} {counters : List Nat} {e : Entry}
      {result : Except SyntaxError Salvage} (hstart : start ≠ [])
      (h : Run entryBuilt d start (.ok e rest) d₁)
      (later : Rounds recover source d₁ (dropBlank rest) counters result d₂) :
      Rounds recover source d start (d :: counters) (result.map (.push e)) d₂
  | junk {d d₁ d₂ : Nat} {start rest junk resume : List Char} {counters : List Nat}
      {x : Expected} {result : Except SyntaxError Salvage} (hrecover : recover = true)
      (hstart : start ≠ []) (h : Run entryBuilt d start (.fail x rest) d₁)
      (hsplit : splitJunk start rest = (junk, resume))
      (later : Rounds recover source d₁ (dropBlank resume) counters result d₂) :
      Rounds recover source d start (d :: counters)
        (result.map (.pushJunk junk (.locate source x rest))) d₂
  | stopped {d d₁ : Nat} {start rest : List Char} {x : Expected} (hrecover : recover = false)
      (hstart : start ≠ []) (h : Run entryBuilt d start (.fail x rest) d₁) :
      Rounds recover source d start [d] (.error (.locate source x rest)) d₁

variable {recover : Bool} {source start : List Char} {d d' : Nat} {counters : List Nat}
  {result : Except SyntaxError Salvage}

/-- The counter is at every entry, and at the end, where it was first. -/
theorem Rounds.restores (h : Rounds recover source d start counters result d') :
    d' = d ∧ ∀ c ∈ counters, c = d := by
  induction h with
  | ended d => exact ⟨rfl, fun c hc => absurd hc List.not_mem_nil⟩
  | entry _ h _ ih | junk _ _ h _ _ ih =>
    obtain rfl := h.restores
    exact ⟨ih.1, List.forall_mem_cons.2 ⟨rfl, ih.2⟩⟩
  | stopped _ _ h =>
    exact ⟨h.restores, List.forall_mem_cons.2 ⟨rfl, fun c hc => absurd hc List.not_mem_nil⟩⟩

/-- The counter leaves no choice of what is read, entry after entry. -/
theorem Rounds.unique {counters' : List Nat} {result' : Except SyntaxError Salvage} {d'' : Nat}
    (h : Rounds recover source d start counters result d')
    (h' : Rounds recover source d start counters' result' d'') :
    counters' = counters ∧ result' = result ∧ d'' = d' := by
  -- the outcome of the first entry tells the rule, and where the others begin
  induction h generalizing counters' result' d'' with
  | ended d =>
    cases h' with
    | ended => exact ⟨rfl, rfl, rfl⟩
    | entry hstart | junk _ hstart | stopped _ hstart => exact absurd rfl hstart
  | entry hstart h _ ih =>
    cases h' with
    | ended => exact absurd rfl hstart
    | entry _ h' later =>
      obtain ⟨heq, rfl⟩ := h.unique h'
      obtain ⟨rfl, rfl⟩ := Outcome.ok.inj heq
      obtain ⟨rfl, rfl, rfl⟩ := ih later
      exact ⟨rfl, rfl, rfl⟩
    | junk _ _ h' | stopped _ _ h' => exact nomatch (h.unique h').1
  | junk hrecover hstart h hsplit _ ih =>
    cases h' with
    | ended => exact absurd rfl hstart
    | entry _ h' => exact nomatch (h.unique h').1
    | junk _ _ h' hsplit' later =>
      obtain ⟨heq, rfl⟩ := h.unique h'
      obtain ⟨rfl, rfl⟩ := Outcome.fail.inj heq
      obtain ⟨rfl, rfl⟩ := Prod.mk.inj (hsplit.symm.trans hsplit')
      obtain ⟨rfl, rfl, rfl⟩ := ih later
      exact ⟨rfl, rfl, rfl⟩
    | stopped hstrict => exact nomatch hrecover.symm.trans hstrict
  | stopped hstrict hstart h =>
    cases h' with
    | ended => exact absurd rfl hstart
    | entry _ h' => exact nomatch (h.unique h').1
    | junk hrecover => exact nomatch hrecover.symm.trans hstrict
    | stopped _ _ h' =>
      obtain ⟨heq, rfl⟩ := h.unique h'
      obtain ⟨rfl, rfl⟩ := Outcome.fail.inj heq
      exact ⟨rfl, rfl, rfl⟩

/-- What is left behind an entry, or behind junk, is shorter. -/
theorem length_dropBlank_lt {start rest : List Char} {e : Entry} (h : entry start = .ok e rest) :
    (dropBlank rest).length < start.length := by
  have hle : (dropBlank rest).length ≤ rest.length := (List.dropWhile_suffix _).length_le
  have hread := (entry_result h).2
  omega

theorem length_resume_lt {start rest junk resume : List Char} (hstart : start ≠ [])
    (hsplit : splitJunk start rest = (junk, resume)) :
    (dropBlank resume).length < start.length := by
  have hle : (dropBlank resume).length ≤ resume.length := (List.dropWhile_suffix _).length_le
  have hresume : resume.length ≤ start.length - max (start.length - rest.length) 1 := by
    have hdrop : resume = (splitJunk start rest).2 := by rw [hsplit]
    rw [hdrop, ← List.length_drop]
    exact (List.dropWhile_suffix _).length_le
  have hpos : 0 < start.length := List.length_pos_iff.2 hstart
  omega

/-- From 0 on, an entry that is read with the counter is read as it is
without. -/
theorem entry_of_run {o : Outcome Entry} (h : Run entryBuilt 0 start o d') :
    Phrasebook.entry start = o :=
  have hall : entryBuilt.within (maxNesting - 0) = Phrasebook.entry :=
    entryBuilt.within_eq fun _ => rfl
  (congrFun hall start).symm.trans h.outcome.symm

theorem Rounds.outcome_recover (h : Rounds true source 0 start counters result d')
    (budget : List Char) (hbudget : start.length ≤ budget.length) :
    result = .ok (salvageFrom source budget start) := by
  -- by induction on the rounds, the counter of which stays at 0
  generalize hd : 0 = d at h
  induction h generalizing budget with
  | ended d => cases budget <;> rfl
  | entry hstart h _ ih =>
    subst hd
    obtain rfl := h.restores
    have hread := entry_of_run h
    have hlt := length_dropBlank_lt hread
    cases budget with
    | nil => exact absurd hbudget (by simp only [List.length_nil]; omega)
    | cons x budget =>
      simp only [List.length_cons] at hbudget
      rw [ih budget (by omega) rfl, salvageFrom_ok source hstart hread]
      rfl
  | junk _ hstart h hsplit _ ih =>
    subst hd
    obtain rfl := h.restores
    have hread := entry_of_run h
    have hlt := length_resume_lt hstart hsplit
    cases budget with
    | nil => exact absurd hbudget (by simp only [List.length_nil]; omega)
    | cons x budget =>
      simp only [List.length_cons] at hbudget
      rw [ih budget (by omega) rfl, salvageFrom_fail source hstart hread hsplit]
      rfl
  | stopped hrecover => exact nomatch hrecover

/-- What strict reading makes of the entries. -/
def strictly (source : List Char) : Outcome (List Entry) → Except SyntaxError Salvage
  | .ok es _ => .ok ⟨es, []⟩
  | .fail x rest => .error (.locate source x rest)

theorem Rounds.outcome_strict (h : Rounds false source 0 start counters result d') :
    result = strictly source (collect nextEntry start) := by
  generalize hd : 0 = d at h
  induction h with
  | ended d =>
    rw [collect_nil]
    rfl
  | entry hstart h _ ih =>
    subst hd
    obtain rfl := h.restores
    rw [ih rfl, collect_of_ok hstart (entry_of_run h)]
    cases collect nextEntry _ <;> rfl
  | junk hrecover => exact nomatch hrecover
  | stopped _ hstart h =>
    subst hd
    rw [collect_of_fail hstart (entry_of_run h)]
    rfl

/-- Whatever the counter is, a resource can be read through. -/
theorem exists_rounds (recover : Bool) (source start : List Char) (d : Nat) :
    ∃ counters result d', Rounds recover source d start counters result d' := by
  -- by induction on the text, which every entry shortens
  by_cases hstart : start = []
  · subst hstart
    exact ⟨_, _, _, .ended d⟩
  · obtain ⟨o, d₁, h⟩ := entryBuilt.exists_run d start
    cases o with
    | ok e rest =>
      have hlt := length_dropBlank_lt (h.ok_of_le (Nat.sub_le maxNesting d) rfl)
      obtain ⟨counters, result, d₂, hlater⟩ := exists_rounds recover source (dropBlank rest) d₁
      exact ⟨_, _, _, .entry hstart h hlater⟩
    | fail x rest =>
      cases recover with
      | false => exact ⟨_, _, _, .stopped rfl hstart h⟩
      | true =>
        have hlt := length_resume_lt hstart (rfl : splitJunk start rest = (_, _))
        obtain ⟨counters, result, d₂, hlater⟩ := exists_rounds true source
          (dropBlank (splitJunk start rest).2) d₁
        exact ⟨_, _, _, .junk rfl hstart h rfl hlater⟩
termination_by start.length

end Resource

end Phrasebook
