import StructuredQuery.Command.Invocation
import StructuredQuery.Proofs.Except

/-!
# Flags of a command line

A flag that a command line did not have can stand in front of it, and it can stand among the
arguments wherever an option may.  The command line is then the same with the flag set, or it is
refused for its form.
-/

namespace StructuredQuery

namespace Invocation

/-- The flags that hold for every request. -/
inductive Flag where
  | strict
  | pretty
  deriving DecidableEq, Repr

namespace Flag

/-- The argument that sets a flag. -/
def argument : Flag → String
  | strict => "--strict"
  | pretty => "--pretty"

/-- A side with a flag set. -/
def raiseSide : Flag → Side → Side
  | strict, side => { side with strict := true }
  | pretty, side => { side with pretty := true }

/-- A command line with a flag set. -/
def raise : Flag → Invocation → Invocation
  | strict, invocation => { invocation with strict := true }
  | pretty, invocation => { invocation with pretty := true }

/-- What is read of all arguments, with a flag set before the name of the request. -/
def raiseBefore (flag : Flag) : Side × Name × Side → Side × Name × Side
  | (before, name, after) => (flag.raiseSide before, name, after)

/-- What is read of all arguments, with a flag set after the name of the request. -/
def raiseAfter (flag : Flag) : Side × Name × Side → Side × Name × Side
  | (before, name, after) => (before, name, flag.raiseSide after)

/-- The same arguments with a flag are refused for their form, or give the same with the flag
set. -/
def Follows {α : Type} (raise : α → α) (flagged plain : Except Stop α) : Prop :=
  flagged = .error .usage ∨ flagged = raise <$> plain

/-- With a flag set from the start the same is read with the flag set, unless the arguments set
it again. -/
def Lifts {α : Type} (raise : α → α) (flagged plain : Except Stop α) : Prop :=
  flagged = raise <$> plain
    ∨ flagged = .error .usage ∧ ∀ value, plain = .ok value → raise value = value

variable {α β : Type} {flag : Flag}

theorem Lifts.follows {raise : α → α} {flagged plain : Except Stop α}
    (h : Lifts raise flagged plain) :
  Follows raise flagged plain
  := by
  obtain heq | ⟨husage, -⟩ := h
  · exact Or.inr heq
  · exact Or.inl husage

/-- A flag stays set through the steps of a reading. -/
theorem Lifts.bind {raise : α → α} {raiseNext : β → β} {flagged plain : Except Stop α}
    {next : α → Except Stop β} (h : Lifts raise flagged plain)
    (hnext : ∀ value, Lifts raiseNext (next (raise value)) (next value)) :
  Lifts raiseNext (flagged >>= next) (plain >>= next)
  := by
  obtain rfl | ⟨rfl, hraised⟩ := h
  · cases plain with
    | error stop => exact Or.inl rfl
    | ok value => apply hnext
  · refine Or.inr ⟨rfl, ?_⟩
    intro last hlast
    obtain ⟨value, hvalue, hlast⟩ := Except.bind_eq_ok_iff.mp hlast
    have hstep := hnext value
    rw [hraised value hvalue, hlast] at hstep
    obtain heq | ⟨husage, -⟩ := hstep
    · exact (Except.ok.inj heq).symm
    · cases husage

/-! ### A flag that is set from the start -/

@[simp]
theorem raiseSide_config (flag : Flag) (side : Side) :
  (flag.raiseSide side).config = side.config
  := by
  cases flag <;> rfl

@[simp]
theorem raiseSide_own (flag : Flag) (side : Side) :
  (flag.raiseSide side).own = side.own
  := by
  cases flag <;> rfl

@[simp]
theorem raiseSide_operands (flag : Flag) (side : Side) :
  (flag.raiseSide side).operands = side.operands
  := by
  cases flag <;> rfl

theorem lifts_setValue (flag : Flag) (side : Side) (name : Option Name) (option value : String) :
  Lifts flag.raiseSide ((flag.raiseSide side).setValue name option value)
    (side.setValue name option value)
  := by
  left
  simp only [Side.setValue, raiseSide_config, raiseSide_own]
  split
  · cases setOption side.config value fun value => !value.isEmpty with
    | error stop => rfl
    | ok config => cases flag <;> rfl
  · cases name with
    | none => rfl
    | some name =>
      dsimp only
      cases setOption side.own value name.accepts with
      | error stop => rfl
      | ok own => cases flag <;> rfl

theorem eq_true_of_setFlag {before now : Bool} {value : Option String}
    (h : setFlag before value = .ok now) :
  now = true
  := by
  rw [setFlag] at h
  split at h
  · cases h
  · exact (Except.ok.inj h).symm

/-- A flag that is set cannot be set again, and does not matter to the other one. -/
theorem lifts_setPlain (flag : Flag) (side : Side) (name : Option Name) (option : String)
    (value : Option String) :
  Lifts flag.raiseSide ((flag.raiseSide side).setPlain name option value)
    (side.setPlain name option value)
  := by
  unfold Side.setPlain
  split
  · cases flag with
    | strict =>
      refine Or.inr ⟨rfl, ?_⟩
      intro next hnext
      obtain ⟨now, hnow, hnext⟩ := Except.bind_eq_ok_iff.mp hnext
      cases hnext
      rw [eq_true_of_setFlag hnow, raiseSide]
    | pretty =>
      left
      dsimp only [raiseSide]
      cases setFlag side.strict value <;> rfl
  · cases flag with
    | strict =>
      left
      dsimp only [raiseSide]
      cases setFlag side.pretty value <;> rfl
    | pretty =>
      refine Or.inr ⟨rfl, ?_⟩
      intro next hnext
      obtain ⟨now, hnow, hnext⟩ := Except.bind_eq_ok_iff.mp hnext
      cases hnext
      rw [eq_true_of_setFlag hnow, raiseSide]
  · exact Or.inl rfl
  · exact Or.inl rfl
  · exact Or.inl rfl

/-- What follows an option that is read on one side. -/
theorem lifts_option (flag : Flag) (side : Side) (name : Option Name) (argument : String) :
  Lifts (Prod.map flag.raiseSide id) ((flag.raiseSide side).option name argument)
    (side.option name argument)
  := by
  unfold Side.option
  split
  · dsimp only
    split
    · split
      · apply (lifts_setValue flag side name _ _).bind
        intro next
        exact Or.inl rfl
      · exact Or.inl rfl
    · apply (lifts_setPlain flag side name _ _).bind
      intro next
      exact Or.inl rfl
  · exact Or.inl rfl
  · exact Or.inl rfl

theorem lifts_addOperand (flag : Flag) (side : Side) (name : Name) (operand : String) :
  Lifts flag.raiseSide ((flag.raiseSide side).addOperand name operand)
    (side.addOperand name operand)
  := by
  left
  simp only [Side.addOperand, raiseSide_operands]
  split
  · cases flag <;> rfl
  · rfl

theorem lifts_addOperands (flag : Flag) (side : Side) (name : Name) (operands : List String) :
  Lifts flag.raiseSide
    (operands.foldlM (fun side operand => side.addOperand name operand) (flag.raiseSide side))
    (operands.foldlM (fun side operand => side.addOperand name operand) side)
  := by
  induction operands generalizing side with
  | nil => exact Or.inl rfl
  | cons operand operands ih =>
    rw [List.foldlM_cons, List.foldlM_cons]
    apply (lifts_addOperand flag side name operand).bind
    intro next
    apply ih

/-- The arguments after the name of a request, with a flag set from the start. -/
theorem lifts_readRequest (flag : Flag) (name : Name) (side : Side) (waiting : Waiting)
    (arguments : List String) :
  Lifts flag.raiseSide (readRequest name (flag.raiseSide side) waiting arguments)
    (readRequest name side waiting arguments)
  := by
  induction arguments generalizing side waiting with
  | nil => cases waiting <;> exact Or.inl rfl
  | cons argument arguments ih =>
    cases waiting with
    | some option =>
      simp only [readRequest]
      split
      · apply (lifts_setValue flag side name option argument).bind
        intro next
        apply ih
      · exact Or.inl rfl
    | none =>
      simp only [readRequest]
      split
      · apply lifts_addOperands
      · split
        · apply (lifts_addOperand flag side name argument).bind
          intro next
          apply ih
        · apply (lifts_option flag side name argument).bind
          intro next
          apply ih

/-- All arguments, with a flag set from the start. -/
theorem lifts_readAll (flag : Flag) (side : Side) (waiting : Waiting) (arguments : List String) :
  Lifts flag.raiseBefore (readAll (flag.raiseSide side) waiting arguments)
    (readAll side waiting arguments)
  := by
  induction arguments generalizing side waiting with
  | nil => cases waiting <;> exact Or.inl rfl
  | cons argument arguments ih =>
    cases waiting with
    | some option =>
      simp only [readAll]
      split
      · apply (lifts_setValue flag side none option argument).bind
        intro next
        apply ih
      · exact Or.inl rfl
    | none =>
      simp only [readAll]
      split
      · exact Or.inl rfl
      · split
        · cases Name.ofLabel? argument with
          | none => exact Or.inl rfl
          | some name =>
            left
            dsimp only
            cases readRequest name .empty none arguments <;> rfl
        · apply (lifts_option flag side none argument).bind
          intro next
          apply ih

/-! ### A flag among the arguments -/

theorem argument_ne_dashes (flag : Flag) :
  flag.argument ≠ "--"
  := by
  cases flag <;> decide

theorem isOperand_argument (flag : Flag) :
  isOperand flag.argument = false
  := by
  cases flag <;> decide +kernel

/-- A flag needs no value. -/
theorem option_argument_eq (flag : Flag) (side : Side) (name : Option Name) :
  side.option name flag.argument
    = (fun side => (side, none)) <$> match flag with
      | strict => side.setPlain name "strict" none
      | pretty => side.setPlain name "pretty" none
  := by
  have hplain : needsValue name "strict" = false ∧ needsValue name "pretty" = false := by
    cases name with
    | none => decide
    | some name => cases name <;> decide
  cases flag with
  | strict =>
    have htext : "--strict".toList = ['-', '-', 's', 't', 'r', 'i', 'c', 't'] := by rfl
    have hsplit : splitOption ['s', 't', 'r', 'i', 'c', 't'] = ("strict", none) := by rfl
    rw [Side.option, argument, htext]
    simp only [hsplit, hplain.1]
    rfl
  | pretty =>
    have htext : "--pretty".toList = ['-', '-', 'p', 'r', 'e', 't', 't', 'y'] := by rfl
    have hsplit : splitOption ['p', 'r', 'e', 't', 't', 'y'] = ("pretty", none) := by rfl
    rw [Side.option, argument, htext]
    simp only [hsplit, hplain.2]
    rfl

/-- The argument of a flag sets it if it is not set. -/
theorem option_argument (flag : Flag) (side : Side) (name : Option Name) :
  side.option name flag.argument = .error .usage
    ∨ side.option name flag.argument = .ok (flag.raiseSide side, none)
  := by
  rw [option_argument_eq]
  obtain ⟨strict, pretty, config, own, operands⟩ := side
  cases flag with
  | strict =>
    cases strict with
    | false => exact Or.inr rfl
    | true => exact Or.inl rfl
  | pretty =>
    cases pretty with
    | false => exact Or.inr rfl
    | true => exact Or.inl rfl

/-- Help is not asked for on a flag. -/
theorem helpStop_insert (flag : Flag) (before after : List String) :
  helpStop (before ++ flag.argument :: after) = .usage
  := by
  cases before with
  | nil =>
    cases after with
    | nil => cases flag <;> decide
    | cons word words => rfl
  | cons word words => cases words <;> rfl

variable {α : Type} {raise : α → α}

theorem Follows.bind_left {β : Type} {step : Except Stop β} {flagged plain : β → Except Stop α}
    (h : ∀ value, Follows raise (flagged value) (plain value)) :
  Follows raise (step >>= flagged) (step >>= plain)
  := by
  cases step with
  | error stop => exact Or.inr rfl
  | ok value => apply h

/-- A flag among the arguments after the name of a request. -/
theorem follows_readRequest (flag : Flag) (name : Name) (side : Side) (waiting : Waiting)
    {before : List String} (h : "--" ∉ before) (after : List String) :
  Follows flag.raiseSide (readRequest name side waiting (before ++ flag.argument :: after))
    (readRequest name side waiting (before ++ after))
  := by
  induction before generalizing side waiting with
  | nil =>
    cases waiting with
    | some option => exact Or.inl (by simp [readRequest, isOperand_argument])
    | none =>
      simp only [List.nil_append, readRequest, argument_ne_dashes, isOperand_argument]
      obtain husage | hset := option_argument flag side (some name)
      · rw [husage]
        exact Or.inl rfl
      · rw [hset]
        apply (lifts_readRequest flag name side none after).follows
  | cons argument arguments ih =>
    obtain ⟨hargument, harguments⟩ := List.ne_and_not_mem_of_not_mem_cons h
    cases waiting with
    | some option =>
      simp only [List.cons_append, readRequest]
      split
      · apply Follows.bind_left
        intro next
        apply ih _ _ harguments
      · exact Or.inr rfl
    | none =>
      simp only [List.cons_append, readRequest, hargument.symm, if_false]
      split
      · apply Follows.bind_left
        intro next
        apply ih _ _ harguments
      · apply Follows.bind_left
        intro next
        apply ih _ _ harguments

/-- A flag among all arguments. -/
theorem follows_readAll (flag : Flag) (side : Side) (waiting : Waiting) {before : List String}
    (h : "--" ∉ before) (after : List String) :
  ∃ raise ∈ [flag.raiseBefore, flag.raiseAfter],
    Follows raise (readAll side waiting (before ++ flag.argument :: after))
      (readAll side waiting (before ++ after))
  := by
  induction before generalizing side waiting with
  | nil =>
    use flag.raiseBefore, List.mem_cons_self
    cases waiting with
    | some option => exact Or.inl (by simp [readAll, isOperand_argument])
    | none =>
      simp only [List.nil_append, readAll, argument_ne_dashes, isOperand_argument]
      obtain husage | hset := option_argument flag side none
      · rw [husage]
        exact Or.inl rfl
      · rw [hset]
        apply (lifts_readAll flag side none after).follows
  | cons argument arguments ih =>
    obtain ⟨hargument, harguments⟩ := List.ne_and_not_mem_of_not_mem_cons h
    cases waiting with
    | some option =>
      simp only [List.cons_append, readAll]
      split
      · cases side.setValue none option argument with
        | error stop => exact ⟨flag.raiseBefore, List.mem_cons_self, Or.inr rfl⟩
        | ok next => apply ih _ _ harguments
      · exact ⟨flag.raiseBefore, List.mem_cons_self, Or.inr rfl⟩
    | none =>
      simp only [List.cons_append, readAll, hargument.symm, if_false]
      split
      · cases Name.ofLabel? argument with
        | none =>
          use flag.raiseBefore, List.mem_cons_self
          left
          simp only [helpStop_insert, ite_self]
        | some name =>
          use flag.raiseAfter, List.mem_cons_of_mem _ List.mem_cons_self
          obtain husage | hset := follows_readRequest flag name .empty none harguments after
          · left
            simp only [husage]
            rfl
          · right
            simp only [hset]
            cases readRequest name .empty none (arguments ++ after) <;> rfl
      · cases side.option none argument with
        | error stop => exact ⟨flag.raiseBefore, List.mem_cons_self, Or.inr rfl⟩
        | ok next => apply ih _ _ harguments

/-! ### Command lines -/

/-- The command line of what has been read of all arguments. -/
def invocationOf : Side × Name × Side → Except Stop Invocation
  | (before, name, after) =>
    match request? name after with
    | some request =>
      .ok ⟨before.strict || after.strict, before.pretty || after.pretty,
        after.config <|> before.config, request⟩
    | none => .error .usage

theorem ofArguments_eq (arguments : List String) :
  ofArguments arguments = readAll .empty none arguments >>= invocationOf
  := by
  rw [ofArguments]
  rfl

theorem request?_raiseSide (flag : Flag) (name : Name) (side : Side) :
  request? name (flag.raiseSide side) = request? name side
  := by
  cases flag <;> rfl

theorem invocationOf_raiseBefore (flag : Flag) (all : Side × Name × Side) :
  invocationOf (flag.raiseBefore all) = flag.raise <$> invocationOf all
  := by
  obtain ⟨before, name, after⟩ := all
  simp only [raiseBefore, invocationOf]
  cases request? name after with
  | none => rfl
  | some request => cases flag <;> rfl

theorem invocationOf_raiseAfter (flag : Flag) (all : Side × Name × Side) :
  invocationOf (flag.raiseAfter all) = flag.raise <$> invocationOf all
  := by
  obtain ⟨before, name, after⟩ := all
  simp only [raiseAfter, invocationOf, request?_raiseSide, raiseSide_config]
  cases request? name after with
  | none => rfl
  | some request => cases flag <;> simp [raiseSide] <;> rfl

/-- A flag in front of a command line is set, unless the command line sets it already. -/
theorem lifts_ofArguments (flag : Flag) (arguments : List String) :
  Lifts flag.raise (ofArguments (flag.argument :: arguments)) (ofArguments arguments)
  := by
  have hfirst : readAll .empty none (flag.argument :: arguments)
      = readAll (flag.raiseSide .empty) none arguments := by
    simp only [readAll, argument_ne_dashes, isOperand_argument, option_argument_eq]
    cases flag <;> rfl
  rw [ofArguments_eq, ofArguments_eq, hfirst]
  apply (lifts_readAll flag .empty none arguments).bind
  intro all
  left
  apply invocationOf_raiseBefore

/-- A flag among the arguments is set, or the command line is refused for its form. -/
theorem follows_ofArguments (flag : Flag) {before : List String} (h : "--" ∉ before)
    (after : List String) :
  Follows flag.raise (ofArguments (before ++ flag.argument :: after))
    (ofArguments (before ++ after))
  := by
  obtain ⟨raise, hraise, hfollows⟩ := follows_readAll flag .empty none h after
  have hinvocation (all : Side × Name × Side) :
      invocationOf (raise all) = flag.raise <$> invocationOf all := by
    simp only [List.mem_cons, List.not_mem_nil, or_false] at hraise
    obtain rfl | rfl := hraise
    · apply invocationOf_raiseBefore
    · apply invocationOf_raiseAfter
  rw [ofArguments_eq, ofArguments_eq]
  obtain husage | hset := hfollows
  · rw [husage]
    exact Or.inl rfl
  · rw [hset]
    right
    cases readAll .empty none (before ++ after) with
    | error stop => rfl
    | ok all => apply hinvocation

end Flag

end Invocation

end StructuredQuery
