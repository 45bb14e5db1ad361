import SchemaInterfaces.CommandLine.Arguments

/-!
# A last switch

Arguments that choose no mode of output ask for code to be written to the output file. One more
switch at their end asks for the same with that switch on, unless the arguments are not in order or
a value is still due, which the switch cannot be (`read?_append_mode`).
-/
namespace SchemaInterfaces.CommandLine

/-- Whether an argument, taken by itself, asks for anything but writing the output file. -/
def Word.choosesMode : Word → Bool
  | help => true
  | turnOn .stdout => true
  | turnOn .check => true
  | give .init _ => true
  | _ => false

theorem Word.ne_init {word : Word} {option : ValueOption} {value : Option String}
    (own : word.choosesMode = false) (gives : word = .give option value) : option ≠ .init := by
  rintro rfl
  rw [gives] at own
  cases own

namespace Arguments

/-- Nothing but writing the output file is asked for. -/
structure Writes (arguments : Arguments) : Prop where
  stdout : arguments.stdout = false
  check : arguments.check = false
  init : arguments.init = none

variable {arguments given : Arguments}

theorem Writes.give? {option : ValueOption} {value : String} (writes : Writes arguments)
    (h : arguments.give? option value = some given) (other : option ≠ .init) : Writes given := by
  unfold Arguments.give? at h
  split at h
  · cases h
  · cases option with
    | init => exact absurd rfl other
    | _ =>
      obtain ⟨_, _, rfl⟩ := Option.map_eq_some_iff.mp h
      exact ⟨writes.stdout, writes.check, writes.init⟩

theorem Writes.turnOn_docs (writes : Writes arguments)
    (h : arguments.turnOn? .docs = some given) : Writes given := by
  simp only [turnOn?] at h
  split at h
  · cases h
  · cases h
    exact ⟨writes.stdout, writes.check, writes.init⟩

end Arguments

namespace Request

/-- What comes of a further switch at the end of arguments: nothing is asked for, or the arguments
ask for writing the output file and the switch for printing or checking in its place. -/
def Extends (arguments : Arguments) (rest : List String) : Prop :=
  read? arguments (rest ++ ["--stdout"]) = none ∨
    ∃ settled : Arguments, settled.Writes ∧ read? arguments rest = some (.run settled) ∧
      read? arguments (rest ++ ["--stdout"]) = some (.run { settled with stdout := true }) ∧
      read? arguments (rest ++ ["--check"]) = some (.run { settled with check := true })

variable {arguments : Arguments} {rest : List String}

/-- Arguments that are read in one step leave the rest to be extended. -/
theorem Extends.of_step (given? : Option Arguments) (here : List String)
    (step : ∀ tail, read? arguments (here ++ tail) = given?.bind (read? · tail))
    (further : ∀ given ∈ given?, Extends given rest) : Extends arguments (here ++ rest) := by
  unfold Extends
  rw [List.append_assoc, List.append_assoc, step, step, step]
  cases given? with
  | none => exact .inl rfl
  | some given => exact further given rfl

theorem extends_nil (writes : arguments.Writes) : Extends arguments [] := by
  have printing : Word.ofArgument "--stdout" = .turnOn .stdout := by rfl
  have checking : Word.ofArgument "--check" = .turnOn .check := by rfl
  refine .inr ⟨arguments, writes, ?_, ?_, ?_⟩ <;>
    simp [read?, printing, checking, Arguments.turnOn?, finished?, Arguments.isConsistent,
      writes.stdout, writes.check]

/-- Arguments that choose no mode are extended by a switch, whatever was given before. -/
theorem extends_of_writes (writes : arguments.Writes)
    (noMode : ∀ argument ∈ rest, (Word.ofArgument argument).choosesMode = false) :
    Extends arguments rest := by
  fun_induction read? arguments rest with
  | case1 arguments => exact extends_nil writes
  | case2 arguments argument rest separates => exact .inl (by simp [read?, separates])
  | case3 arguments argument rest separates => exact .inl (by simp [read?, separates])
  | case4 arguments argument rest helps =>
    have own := (List.forall_mem_cons.mp noMode).1
    rw [helps] at own
    cases own
  | case5 arguments argument rest switch turnsOn ih =>
    obtain ⟨own, noMode⟩ := List.forall_mem_cons.mp noMode
    refine .of_step (arguments.turnOn? switch) [argument] (fun tail => by simp [read?, turnsOn])
      fun given turned => ?_
    cases switch with
    | docs => exact ih given (writes.turnOn_docs turned) noMode
    | stdout | check => rw [turnsOn] at own; cases own
  | case6 arguments argument rest option value gives ih =>
    obtain ⟨own, noMode⟩ := List.forall_mem_cons.mp noMode
    have other : option ≠ .init := Word.ne_init own gives
    refine .of_step (arguments.give? option value) [argument] (fun tail => by simp [read?, gives])
      fun given hasValue => ?_
    exact ih given (writes.give? hasValue other) noMode
  | case7 arguments argument option gives =>
    have noValue : isValue "--stdout" = false := by rfl
    exact .inl (by simp [read?, gives, noValue])
  | case8 arguments argument option gives value rest isValue ih =>
    obtain ⟨own, noMode⟩ := List.forall_mem_cons.mp noMode
    have other : option ≠ .init := Word.ne_init own gives
    refine .of_step (arguments.give? option value) [argument, value]
      (fun tail => by simp [read?, gives, isValue]) fun given hasValue => ?_
    exact ih given (writes.give? hasValue other) (List.forall_mem_cons.mp noMode).2
  | case9 arguments argument option gives value rest noValue =>
    exact .inl (by simp [read?, gives, noValue])
  | case10 arguments argument rest unknown => exact .inl (by simp [read?, unknown])

end Request

end SchemaInterfaces.CommandLine
