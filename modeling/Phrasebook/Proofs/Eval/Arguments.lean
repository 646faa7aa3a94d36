/-
  Phrasebook.Proofs.Eval.Arguments
  ────────────────────────────────
  **CALLS WITH TOO MANY AND TOO FEW ARGUMENTS.**

  An argument without a parameter is dropped.  A parameter without an argument
  is not given one: it is read like any other variable that the macro was not
  given, and so is what the caller of the whole evaluation passed under its
  name.

      eval_congr     —  a frame is its parameters and what it reads
      variableValue_padded
                     —  what is read where the missing arguments are filled in
      CallsAlike     —  two lists of arguments that make one call
      missing_arguments_fall_through
                     —  which lists do, and when absent values are among them
-/
import Phrasebook.Proofs.Eval.Rename

namespace Phrasebook

/-! ## §1. Frames that read alike. -/

/-- Two frames have the same parameters and read every variable alike. -/
structure Frame.ReadsAs (data : Bindings) (frame frame' : Frame) : Prop where
  parameters : frame.parameters = frame'.parameters
  value : ∀ name, frame.variableValue data name = frame'.variableValue data name

/-- An expression has the same value in both: nothing has to be renamed. -/
theorem eval_congr {env : Environment} {data : Bindings} {scope : Scope} {frame frame' : Frame}
    (h : frame.ReadsAs data frame') (path : List Value) (e : Expr) :
    eval env data scope frame path e = eval env data scope frame' path e := by
  have hsame : e.MentionsOnly (Frame.Renamed data id frame' frame) := fun name _ =>
    ⟨by rw [id, h.parameters], h.value name, fun _ => rfl⟩
  calc eval env data scope frame path e
    _ = eval env data scope frame path (e.rename id) := by rw [e.rename_id]
    _ = eval env data scope frame' path e := eval_rename path e hsame

/-! ## §2. What the parameters read. -/

namespace Bindings

theorem find?_append (name : String) (bindings others : Bindings) :
    find? name (bindings ++ others) = (find? name bindings).or (find? name others) := by
  induction bindings with
  | nil => rfl
  | cons head bindings ih =>
    obtain ⟨k, v⟩ := head
    show (if k = name then some v else find? name (bindings ++ others)) = _
    rw [ih]
    show _ = (if k = name then some v else find? name bindings).or _
    split <;> rfl

/-- Names that are all bound by one function. -/
theorem find?_map (name : String) (g : String → Value) (names : List String) :
    find? name (names.map fun k => (k, g k)) = if name ∈ names then some (g name) else none := by
  induction names with
  | nil => rfl
  | cons k names ih =>
    show (if k = name then some (g k) else find? name (names.map fun k => (k, g k))) = _
    rw [ih]
    by_cases hk : k = name
    · rw [hk, if_pos rfl, if_pos List.mem_cons_self]
    · simp only [if_neg hk, List.mem_cons, Ne.symm hk, false_or]

theorem find?_eq_none {name : String} {bindings : Bindings}
    (h : ∀ binding ∈ bindings, binding.1 ≠ name) : find? name bindings = none := by
  induction bindings with
  | nil => rfl
  | cons head bindings ih =>
    show (if head.1 = name then some head.2 else find? name bindings) = none
    rw [if_neg (h head List.mem_cons_self)]
    exact ih fun binding hb => h binding (List.mem_cons_of_mem _ hb)

end Bindings

/-- More arguments are taken by the parameters that were left. -/
theorem zip_append_arguments (parameters : List String) (arguments more : List Value) :
    parameters.zip (arguments ++ more)
      = parameters.zip arguments ++ (parameters.drop arguments.length).zip more := by
  induction arguments generalizing parameters with
  | nil =>
    rw [List.nil_append, List.zip_nil_right, List.nil_append, List.length_nil, List.drop_zero]
  | cons v arguments ih =>
    cases parameters with
    | nil => rfl
    | cons p parameters =>
      show (p, v) :: parameters.zip (arguments ++ more) = _
      rw [ih]
      rfl

theorem zip_take_length (parameters : List String) (arguments : List Value) :
    parameters.zip (arguments.take parameters.length) = parameters.zip arguments := by
  -- one of the two is used up
  have hdropped : (parameters.drop (arguments.take parameters.length).length).zip
      (arguments.drop parameters.length) = [] := by
    rw [List.zip_eq_nil_iff, List.drop_eq_nil_iff, List.drop_eq_nil_iff, List.length_take]
    omega
  calc parameters.zip (arguments.take parameters.length)
    _ = parameters.zip (arguments.take parameters.length)
          ++ (parameters.drop (arguments.take parameters.length).length).zip
            (arguments.drop parameters.length) := by rw [hdropped, List.append_nil]
    _ = parameters.zip (arguments.take parameters.length ++ arguments.drop parameters.length) :=
        (zip_append_arguments _ _ _).symm
    _ = parameters.zip arguments := by rw [List.take_append_drop]

/-- The missing arguments, filled in by what a function says of their
parameters. -/
theorem variableValue_padded (data : Bindings) (parameters : List String)
    (arguments : List Value) (g : String → Value) (name : String) :
    (Frame.call parameters
        (arguments ++ (parameters.drop arguments.length).map g)).variableValue data name
      = if name ∈ parameters.drop arguments.length then g name
        else (Frame.call parameters arguments).variableValue data name := by
  have hfilled : (parameters.drop arguments.length).zip
      ((parameters.drop arguments.length).map g)
        = (parameters.drop arguments.length).map fun p => (p, g p) := by
    rw [List.map_prod_left_eq_zip]
  unfold Frame.variableValue Frame.call
  rw [zip_append_arguments, hfilled, List.reverse_append, ← List.map_reverse,
    Bindings.find?_append, Bindings.find?_map]
  simp only [List.mem_reverse]
  split <;> rfl

/-- A parameter that no argument is left for, and no other one has the name
of, is what the caller passed. -/
theorem variableValue_missing (data : Bindings) {parameters : List String}
    {arguments : List Value} {name : String} (h : name ∉ parameters.take arguments.length) :
    (Frame.call parameters arguments).variableValue data name
      = (data.find? name).getD .absent := by
  unfold Frame.variableValue Frame.call
  rw [Bindings.find?_eq_none]
  · rfl
  · intro binding hb hname
    rw [List.mem_reverse, List.zip_eq_zip_take_min] at hb
    have hshorter : parameters.take (min parameters.length arguments.length)
        <+: parameters.take arguments.length := List.take_prefix_take_left (Nat.min_le_right _ _)
    exact h (hname ▸ hshorter.subset (List.of_mem_zip hb).1)

/-! ## §3. Calls. -/

namespace Macro

variable (m : Macro) (env : Environment) (data : Bindings)

/-- The parameters that a call leaves without an argument. -/
def missing (arguments : List Value) : List String :=
  m.parameters.drop arguments.length

/-- What a variable is read as in a call. -/
def reading (arguments : List Value) (name : String) : Value :=
  (Frame.call m.parameters arguments).variableValue data name

/-- Both lists of arguments make the same call of the macro: from outside, and
at every depth within another evaluation. -/
def CallsAlike (as bs : List Value) : Prop :=
  m.call env data as = m.call env data bs
    ∧ ∀ n, (Scope.within env data n).invoke m as = (Scope.within env data n).invoke m bs

variable {m data} in
theorem callsAlike_of_readsAs {as bs : List Value}
    (h : (Frame.call m.parameters as).ReadsAs data (Frame.call m.parameters bs)) :
    m.CallsAlike env data as bs :=
  Macro.calls_eq fun _ => eval_congr h [] m.body

theorem callsAlike_truncated (arguments : List Value) :
    m.CallsAlike env data (arguments.take m.parameters.length) arguments := by
  refine callsAlike_of_readsAs env ⟨rfl, fun name => ?_⟩
  unfold Frame.variableValue Frame.call
  rw [zip_take_length]

theorem callsAlike_filled (arguments : List Value) :
    m.CallsAlike env data (arguments ++ (m.missing arguments).map (m.reading data arguments))
      arguments := by
  refine callsAlike_of_readsAs env ⟨rfl, fun name => ?_⟩
  rw [missing, variableValue_padded]
  exact ite_self _

/-- The arguments, filled up with absent values. -/
def padded (arguments : List Value) : List Value :=
  arguments ++ List.replicate (m.parameters.length - arguments.length) .absent

theorem variableValue_padded_absent (arguments : List Value) (name : String) :
    (Frame.call m.parameters (m.padded arguments)).variableValue data name
      = if name ∈ m.missing arguments then .absent else m.reading data arguments name := by
  have hpad : m.padded arguments
      = arguments ++ (m.parameters.drop arguments.length).map fun _ => .absent := by
    rw [padded, List.map_const', List.length_drop]
  rw [hpad, variableValue_padded]
  rfl

theorem callsAlike_padded {arguments : List Value}
    (h : ∀ p ∈ m.missing arguments, m.reading data arguments p = .absent) :
    m.CallsAlike env data (m.padded arguments) arguments := by
  refine callsAlike_of_readsAs env ⟨rfl, fun name => ?_⟩
  rw [variableValue_padded_absent]
  split
  · next hname => exact (h name hname).symm
  · rfl

/-- A macro that only puts one variable into an array shows what is read. -/
theorem call_probe (arguments : List Value) (name : String) :
    ({ m with body := .array [.var name] none } : Macro).call env data arguments
      = .ok (.array [m.reading data arguments name]) :=
  rfl

/-- **A parameter without an argument is what the caller passed.**  Arguments
without a parameter count for nothing.  A missing argument counts as what its
parameter is read as, with and without the dollar sign: the argument of an
earlier parameter of that name, else what the caller passed under it, else
nothing.  Filling up the arguments with absent values is the same for every
body just if nothing is what all the parameters are read as. -/
theorem missing_arguments_fall_through (arguments : List Value) :
    m.CallsAlike env data (arguments.take m.parameters.length) arguments
      ∧ m.CallsAlike env data (arguments ++ (m.missing arguments).map (m.reading data arguments))
          arguments
      ∧ (∀ p ∈ m.missing arguments,
          (∀ n path,
            eval env data (Scope.within env data n) (Frame.call m.parameters arguments) path
                (.name p) = .ok (m.reading data arguments p)
              ∧ eval env data (Scope.within env data n) (Frame.call m.parameters arguments) path
                (.var p) = .ok (m.reading data arguments p))
          ∧ (p ∉ m.parameters.take arguments.length →
              m.reading data arguments p = (data.find? p).getD .absent))
      ∧ ((∀ body, ({ m with body } : Macro).CallsAlike env data (m.padded arguments) arguments)
          ↔ ∀ p ∈ m.missing arguments, m.reading data arguments p = .absent) := by
  refine ⟨m.callsAlike_truncated env data arguments, m.callsAlike_filled env data arguments,
    fun p hp => ⟨fun n path => ⟨?_, rfl⟩, variableValue_missing data⟩, ?_, ?_⟩
  · have hparameter : p ∈ (Frame.call m.parameters arguments).parameters := List.mem_of_mem_drop hp
    rw [eval, if_pos hparameter]
    rfl
  · intro alike p hp
    -- a body that shows what one parameter reads tells the two calls apart
    have hprobe := (alike (.array [.var p] none)).1
    rw [call_probe, call_probe, reading, variableValue_padded_absent, if_pos hp] at hprobe
    simp only [Except.ok.injEq, Value.array.injEq, List.cons.injEq, and_true] at hprobe
    exact hprobe.symm
  · intro habsent body
    exact callsAlike_padded _ env data habsent

end Macro

namespace Greeting

/-- A macro of two parameters, called with one argument. -/
def greeting : Macro :=
  ⟨"greeting", ["a", "b"], .template [.name "a", .var "b"], []⟩

/-- No definitions, no globals, no functions. -/
def bare : Environment :=
  ⟨.empty, [], fun _ _ _ => .ok .absent⟩

/-- The second parameter is what the caller passed under its name. -/
theorem greeting_falls_through :
    greeting.CallsAlike bare [("b", .text "y")] [.text "x", .text "y"]
        [.text "x", .text "y", .text "z"]
      ∧ greeting.CallsAlike bare [("b", .text "y")] [.text "x", .text "y"] [.text "x"]
      ∧ ("b" ∈ greeting.missing [.text "x"] ∧ "b" ∉ greeting.parameters.take 1)
      ∧ (∀ n path, eval bare [("b", .text "y")] (Scope.within bare [("b", .text "y")] n)
          (Frame.call ["a", "b"] [.text "x"]) path (.name "b") = .ok (.text "y"))
      ∧ greeting.call bare [("b", .text "y")] [.text "x"] = .ok (.text "xy") := by
  have hmissing : "b" ∈ greeting.missing [.text "x"] := List.mem_singleton_self "b"
  have hgiven : "b" ∉ greeting.parameters.take 1 := by decide
  have fewer := greeting.missing_arguments_fall_through bare [("b", .text "y")] [.text "x"]
  obtain ⟨more, -⟩ := greeting.missing_arguments_fall_through bare [("b", .text "y")]
    [.text "x", .text "y", .text "z"]
  obtain ⟨hread, hdata⟩ := fewer.2.2.1 "b" hmissing
  refine ⟨more, fewer.2.1, ⟨hmissing, hgiven⟩, fun n path => ?_, rfl⟩
  have hname := (hread n path).1
  rw [hdata hgiven] at hname
  exact hname

/-- A macro that shows its only parameter, called without an argument. -/
theorem absent_is_overridden :
    ¬ ∀ (m : Macro) (env : Environment) (data : Bindings) (arguments : List Value),
      m.CallsAlike env data (m.padded arguments) arguments := by
  intro alike
  have hcall := (alike ⟨"m", ["a"], .name "a", []⟩ bare [("a", .text "x")] []).1
  have habsent : Macro.call ⟨"m", ["a"], .name "a", []⟩ bare [("a", .text "x")] [.absent]
      = .ok .absent := rfl
  have htext : Macro.call ⟨"m", ["a"], .name "a", []⟩ bare [("a", .text "x")] []
      = .ok (.text "x") := rfl
  exact nomatch habsent.symm.trans (hcall.trans htext)

end Greeting

end Phrasebook
