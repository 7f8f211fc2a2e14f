import Scss.Proofs.Pieces
import Scss.Proofs.Spelling.Runs

/-! Expressions, calls and loops in two spellings come to the same: one lemma for each part of the
evaluator, over any two ways to perform the jobs inside it that are in step. Names reach the state by
their keys alone, and no value has a name of the stylesheet in it. -/
namespace Scss

open Run (InStep Same)

theorem Cause.agree_same {α : Type} (result : Except Cause α) :
    Concur Cause.SameKind Eq result result := by
  cases result with
  | ok value => exact .ok rfl
  | error cause => exact .error rfl

abbrev Setup.withLoader (setup : Setup) (loader : Loader) : Setup := { setup with loader := loader }

theorem Setup.format_withLoader (setup : Setup) (loader : Loader) :
    (setup.withLoader loader).format = setup.format := rfl

/-- Two ways to perform jobs that are in step on two spellings of a job. -/
structure Perform.InStep (perform twin : Perform) : Prop where
  evaluate : ∀ {expr other : Expr}, expr.Respelled other → ∀ divides,
    Same (perform (.evaluate expr divides)) (twin (.evaluate other divides))
  calculate : ∀ {expr other : Expr}, expr.Respelled other →
    Same (perform (.calculate expr)) (twin (.calculate other))
  call : ∀ qualifier name args,
    Same (perform (.call qualifier name args)) (twin (.call qualifier name args))
  declare : ∀ {d other : Declaration Statement}, d.Rel Statement.Respelled other → ∀ outer,
    Same (perform (.declare d outer)) (twin (.declare other outer))
  block : ∀ {nodes others : List Statement}, Statements.Respelled nodes others → ∀ mode,
    Same (perform (.block mode nodes)) (twin (.block mode others))
  again : ∀ {condition other : Expr} {nodes others : List Statement}, condition.Respelled other →
    Statements.Respelled nodes others → ∀ mode,
    Same (perform (.repeat mode condition nodes)) (twin (.repeat mode other others))

namespace Eval

variable {setup : Setup} {loader : Loader} {self twin : Perform}

section Expressions

theorem interpolate_same (inner : self.InStep twin) {template other : Template}
    (spelled : Template.Respelled template other) :
    Same (interpolate setup self template) (interpolate (setup.withLoader loader) twin other) := by
  cases spelled with
  | mk each line =>
    refine .andThen (InStep.mapM each fun part => ?_) fun texts => .pure rfl
    cases part with
    | literal text => exact .pure rfl
    | expr values =>
      refine .andThen (inner.evaluate values false) fun value => ?_
      split <;> exact .pure rfl

theorem arguments_same (inner : self.InStep twin) {args others : List (Argument Expr)}
    (each : Arguments.Respelled args others) : Same (arguments self args) (arguments twin others) := by
  refine InStep.foldlM each rfl fun {done _ _ _} same spelled => ?_
  subst same
  cases spelled with
  | mk names values rest =>
    refine .andThen (inner.evaluate values false) fun value => ?_
    cases names with
    | none =>
      dsimp only
      split <;> exact .pure rfl
    | some same =>
      dsimp only
      rw [← same.normalizeName]
      split <;> exact .pure rfl

/-- Two spellings of the arguments of `if()` that have been put into place. -/
structure IfSlots.Respelled (slots other : IfSlots) : Prop where
  condition : Option.Rel Expr.Respelled slots.condition other.condition
  ifTrue : Option.Rel Expr.Respelled slots.ifTrue other.ifTrue
  ifFalse : Option.Rel Expr.Respelled slots.ifFalse other.ifFalse

theorem IfSlots.Respelled.set {slots other : IfSlots} (spelled : slots.Respelled other) (index : Nat)
    {expr also : Expr} (added : expr.Respelled also) :
    Concur Cause.SameKind IfSlots.Respelled (slots.set index expr) (other.set index also) := by
  unfold IfSlots.set
  split
  · exact .ok { spelled with condition := .some added }
  · exact .ok { spelled with ifTrue := .some added }
  · exact .ok { spelled with ifFalse := .some added }
  · exact .error rfl

theorem IfSlots.Respelled.fill {args others : List (Argument Expr)}
    (each : Arguments.Respelled args others) {slots other : IfSlots} (spelled : slots.Respelled other)
    (position : Nat) :
    Concur Cause.SameKind IfSlots.Respelled (slots.fill position args) (other.fill position others) := by
  induction each generalizing slots other position with
  | nil => exact .ok spelled
  | cons first _ ih =>
    cases first with
    | mk names values rest =>
      cases names with
      | none => exact .bind (spelled.set position values) fun next => ih next _
      | some same =>
        simp only [IfSlots.fill, ← same.normalizeName]
        split
        · exact .bind (spelled.set _ values) fun next => ih next _
        · exact .error rfl

theorem ifCall_same (inner : self.InStep twin) {args others : List (Argument Expr)}
    (each : Arguments.Respelled args others) : Same (ifCall self args) (ifCall twin others) := by
  have nothing : IfSlots.Respelled ⟨none, none, none⟩ ⟨none, none, none⟩ := ⟨.none, .none, .none⟩
  refine InStep.bind (.ofCause (nothing.fill each 0)) ?_
  rintro ⟨condition, ifTrue, ifFalse⟩ ⟨conditionOther, trueOther, falseOther⟩ ⟨tests, yes, no⟩
  dsimp only at tests yes no
  cases tests with
  | none => exact .fail rfl
  | some tests =>
    refine .andThen (inner.evaluate tests false) fun value => ?_
    dsimp only
    cases value.isTruthy with
    | true =>
      cases yes with
      | none => exact .pure rfl
      | some branch => exact inner.evaluate branch false
    | false =>
      cases no with
      | none => exact .pure rfl
      | some branch => exact inner.evaluate branch false

def directCall (self : Perform) (qualifier : Option String) (name : String)
    (args : List (Argument Expr)) : Run Value := do
  self (.call qualifier name (← arguments self args))

theorem directCall_same (inner : self.InStep twin) (qualifier : Option String) (name : String)
    {args others : List (Argument Expr)} (each : Arguments.Respelled args others) :
    Same (directCall self qualifier name args) (directCall twin qualifier name others) :=
  .andThen (arguments_same inner each) fun values => inner.call qualifier name values

theorem call_eq_directCall (self : Perform) {name : String} (args : List (Argument Expr))
    (noIf : name ≠ "if") (noCalc : name ≠ "calc") :
    call self none name args = directCall self none name args := by
  unfold call
  split
  · exact absurd rfl noIf
  · exact absurd rfl noCalc
  · rfl

/-- Whether the arguments of a call are evaluated in advance depends on its name, and for `calc()` on
whether it has one argument without a name. -/
theorem call_same (inner : self.InStep twin) (qualifier : Option String) (name : String)
    {args others : List (Argument Expr)} (each : Arguments.Respelled args others) :
    Same (call self qualifier name args) (call twin qualifier name others) := by
  have direct := directCall_same inner qualifier name each
  cases qualifier with
  | some qualifier => exact direct
  | none =>
    by_cases isIf : name = "if"
    · subst isIf
      exact ifCall_same inner each
    · by_cases isCalc : name = "calc"
      · subst isCalc
        cases each with
        | nil => exact direct
        | cons first others =>
          cases first with
          | mk names values rest =>
            cases names with
            | some => exact direct
            | none =>
              cases rest with
              | true => exact direct
              | false =>
                cases others with
                | cons => exact direct
                | nil =>
                  refine .andThen (inner.calculate values) fun term => ?_
                  split <;> exact .pure rfl
      · rw [call_eq_directCall _ _ isIf isCalc, call_eq_directCall _ _ isIf isCalc]
        exact direct

theorem binary_same (inner : self.InStep twin) (op : BinaryOp) {left right leftOther rightOther : Expr}
    (first : left.Respelled leftOther) (second : right.Respelled rightOther) (divides : Bool) :
    Same (binary setup self op left right divides)
      (binary (setup.withLoader loader) twin op leftOther rightOther divides) := by
  unfold binary
  split
  · refine .andThen (inner.evaluate first true) fun value => ?_
    split
    · exact inner.evaluate second true
    · exact .pure rfl
  · refine .andThen (inner.evaluate first true) fun value => ?_
    split
    · exact .pure rfl
    · exact inner.evaluate second true
  · rw [first.isCalculated, second.isCalculated]
    split
    · refine .andThen (inner.evaluate first false) fun value => ?_
      exact .andThen (inner.evaluate second false) fun other => .pure rfl
    · refine .andThen (inner.evaluate first true) fun value => ?_
      exact .andThen (inner.evaluate second true) fun other => .ofCause (Cause.agree_same _)

theorem expression_same (inner : self.InStep twin) {expr other : Expr} (spelled : expr.Respelled other)
    (divides : Bool) :
    Same (expression setup self expr divides)
      (expression (setup.withLoader loader) twin other divides) := by
  cases spelled with
  | number value unit position => exact .pure rfl
  | string values line => exact .andThen (interpolate_same inner values) fun text => .pure rfl
  | identifier name position => exact .pure rfl
  | interpolated values => exact .andThen (interpolate_same inner values) fun text => .pure rfl
  | hexColor text position =>
    unfold expression
    dsimp only
    split
    · exact .pure rfl
    · exact .throw (.same _)
  | namedColor name position =>
    unfold expression
    dsimp only
    split <;> exact .pure rfl
  | boolean value line => exact .pure rfl
  | null line => exact .pure rfl
  | var names line =>
    refine InStep.get_bind fun machine other states => ?_
    rw [states.lookup? names]
    dsimp only
    split
    · exact .pure rfl
    · exact .fail rfl
  | member qualifier names line =>
    exact InStep.get_bind fun machine other states =>
      .ofCause (states.qualifiedVariable setup.registry qualifier names)
  | list each separator bracketed line =>
    exact .andThen (InStep.mapM each fun item => inner.evaluate item false) fun values => .pure rfl
  | map each line =>
    refine .andThen (InStep.mapM each fun pair => ?_) fun entries => .pure rfl
    cases pair with
    | mk keys values =>
      refine .andThen (inner.evaluate keys false) fun key => ?_
      exact .andThen (inner.evaluate values false) fun value => .pure rfl
  | binary op first second line => exact binary_same inner op first second divides
  | unary op operands line => exact .andThen (inner.evaluate operands true) fun value => .pure rfl
  | paren inners line => exact inner.evaluate inners true
  | call qualifier name each line => exact call_same inner qualifier name each
  | url values line => exact .andThen (interpolate_same inner values) fun text => .pure rfl
  | parent line =>
    refine InStep.get_bind fun machine other states => ?_
    rw [states.selector]
    exact .pure rfl
  | important line => exact .pure rfl

theorem plainTerm_same (inner : self.InStep twin) {expr other : Expr} (spelled : expr.Respelled other) :
    Same (plainTerm setup self expr) (plainTerm (setup.withLoader loader) twin other) := by
  refine .andThen (inner.evaluate spelled false) fun value => ?_
  split <;> exact .pure rfl

theorem calculation_eq_plainTerm (setup : Setup) (self : Perform) (qualifier : Option String)
    {name : String} (args : List (Argument Expr)) (line : Nat) (noCalc : name ≠ "calc") :
    calculation setup self (.call qualifier name args line) =
      plainTerm setup self (.call qualifier name args line) := by
  unfold calculation
  split
  · contradiction
  · contradiction
  · rename_i same
    exact absurd (Expr.call.inj same).2.1 noCalc
  · rfl

theorem calculation_same (inner : self.InStep twin) {expr other : Expr}
    (spelled : expr.Respelled other) :
    Same (calculation setup self expr) (calculation (setup.withLoader loader) twin other) := by
  have plain : Same (plainTerm setup self expr) (plainTerm (setup.withLoader loader) twin other) :=
    plainTerm_same inner spelled
  cases spelled with
  | binary op first second line =>
    unfold calculation
    dsimp only
    split
    · refine .andThen (inner.calculate first) fun left => ?_
      exact .andThen (inner.calculate second) fun right => .ofCause (Cause.agree_same _)
    · exact plain
  | paren inners line => exact .andThen (inner.calculate inners) fun term => .pure rfl
  | call qualifier name each line =>
    by_cases isCalc : name = "calc"
    · subst isCalc
      cases qualifier with
      | some => exact plain
      | none =>
        cases each with
        | nil => exact plain
        | cons first others =>
          cases others with
          | cons => exact plain
          | nil =>
            cases first with
            | mk names values rest =>
              exact .andThen (inner.calculate values) fun term => .pure rfl
    · rw [calculation_eq_plainTerm _ _ _ _ _ isCalc, calculation_eq_plainTerm _ _ _ _ _ isCalc]
      exact plain
  | _ => exact plain

end Expressions

section Calls

theorem bindOne_same (inner : self.InStep twin) (callee calleeOther : String) (left : CallArgs)
    {param other : Parameter} (spelled : param.Respelled other) :
    Same (bindOne self callee left param) (bindOne twin calleeOther left other) := by
  cases spelled with
  | mk names defaults =>
    unfold bindOne
    dsimp only
    rw [← names.normalizeName]
    split
    · exact .andThen (.modify fun states => states.define (.refl _) _) fun _ => .pure rfl
    · exact .andThen (.modify fun states => states.define (.refl _) _) fun _ => .pure rfl
    · cases defaults with
      | none => exact .fail rfl
      | some default =>
        refine .andThen (inner.evaluate default false) fun value => ?_
        exact .andThen (.modify fun states => states.define (.refl _) value) fun _ => .pure rfl

theorem bind_same (inner : self.InStep twin) {params others : Parameters}
    (spelled : params.Respelled others) (args : CallArgs) (callee calleeOther : String) :
    Same (bind self params args callee) (bind twin others args calleeOther) := by
  cases spelled with
  | mk each rests =>
    refine .andThen (InStep.foldlM each rfl fun {left _ _ _} same param => ?_) fun left => ?_
    · subst same
      exact bindOne_same inner callee calleeOther left param
    · cases rests with
      | some names => exact .modify fun states => states.define names _
      | none =>
        obtain ⟨positional, named⟩ := left
        cases positional with
        | cons => exact .fail rfl
        | nil =>
          cases named with
          | nil => exact .pure rfl
          | cons => exact .fail rfl

theorem callUser_same (inner : self.InStep twin) {function other : Callable}
    (spelled : function.Respelled other) (args : CallArgs) :
    Same (callUser self function args) (callUser twin other args) := by
  unfold callUser
  rw [spelled.env]
  refine .andThen (.inFunction function.env (.andThen
    (bind_same inner spelled.params args _ _) fun _ => inner.block spelled.body .function)) ?_
  intro outcome
  split
  · exact .pure rfl
  · exact .fail rfl

theorem callTarget_same (inner : self.InStep twin) (target : Value) (args : CallArgs) :
    Same (callTarget self target args) (callTarget twin target args) := by
  unfold callTarget
  split
  · exact inner.call _ _ _
  · exact inner.call _ _ _
  · exact .fail rfl

theorem callValue_same (inner : self.InStep twin) (args : CallArgs) :
    Same (callValue self args) (callValue twin args) := by
  unfold callValue
  dsimp only
  split
  · exact callTarget_same inner _ _
  · exact callTarget_same inner _ _
  · exact .fail rfl

/-- Functions that look at the scopes see the same in both states. -/
theorem apply_agree {machine other : Machine} (states : machine.Respelled other) (name : String)
    (first : Value) (values : Slots) :
    Concur Cause.SameKind Eq (Intrinsic.apply setup machine name first values)
      (Intrinsic.apply (setup.withLoader loader) other name first values) := by
  unfold Intrinsic.apply
  split
  case h_3 => rw [states.lookup? (.refl _)]; exact .ok rfl
  case h_4 =>
    have same : Intrinsic.globalExists (setup.withLoader loader) other first.bare (Intrinsic.module? values 1) =
        Intrinsic.globalExists setup machine first.bare (Intrinsic.module? values 1) := by
      cases Intrinsic.module? values 1 with
      | none => simp only [Intrinsic.globalExists, states.current.vars]
      | some qualifier => exact (states.qualifiedVariable setup.registry qualifier (.refl _)).isOk
    rw [same]
    exact .ok rfl
  case h_5 =>
    refine .map (.bind (states.function? setup.registry _ _) fun found => ?_) fun same => congrArg _ same
    rw [Option.isSome_of_rel found]
    exact .ok rfl
  case h_6 =>
    refine .map (states.mixin? _ (.refl _)) fun found => ?_
    rw [Option.isSome_of_rel found]
  all_goals exact Cause.agree_same _

theorem run_agree {machine other : Machine} (states : machine.Respelled other) (name : String)
    (args : CallArgs) :
    Concur Cause.SameKind Eq (Intrinsic.run setup machine name args)
      (Intrinsic.run (setup.withLoader loader) other name args) := by
  refine .bind (Cause.agree_same (args.normalize (Intrinsic.signature name))) fun {values _} same => ?_
  subst same
  cases values with
  | nil => exact .error rfl
  | cons first rest => exact apply_agree states name first (first :: rest)

theorem callIntrinsic_same (inner : self.InStep twin) (name : String) (args : CallArgs) :
    Same (callIntrinsic setup self name args) (callIntrinsic (setup.withLoader loader) twin name args) := by
  unfold callIntrinsic
  split
  · exact callValue_same inner args
  · exact .get_bind fun machine other states => .ofCause (run_agree states name args)

theorem computed_same (result : Except Cause Computed) :
    Same (computed setup result) (computed (setup.withLoader loader) result) := by
  refine .andThen (.ofCause (Cause.agree_same _)) fun result => ?_
  split
  · exact .pure rfl
  · exact .andThen (.log _ _) fun _ => .pure rfl
  · exact .draw setup.chance _

theorem callModule_same (inner : self.InStep twin) (library name : String) (args : CallArgs) :
    Same (callModule setup self library name args)
      (callModule (setup.withLoader loader) twin library name args) := by
  unfold callModule
  dsimp only
  split
  · exact callIntrinsic_same inner _ args
  · rw [Setup.format_withLoader setup loader]
    split
    · exact computed_same _
    · exact .fail rfl

theorem callGlobal_same (inner : self.InStep twin) (name : String) (args : CallArgs) :
    Same (callGlobal setup self name args) (callGlobal (setup.withLoader loader) twin name args) := by
  unfold callGlobal
  dsimp only
  split
  · exact callIntrinsic_same inner _ args
  · split
    · exact .ofCause (Cause.agree_same _)
    · rw [Setup.format_withLoader setup loader]
      split
      · exact computed_same _
      · exact .pure rfl

theorem invoke_same (inner : self.InStep twin) (qualifier : Option String) (name : String)
    (args : CallArgs) :
    Same (invoke setup self qualifier name args)
      (invoke (setup.withLoader loader) twin qualifier name args) := by
  refine InStep.get_bind fun machine other states => ?_
  refine InStep.bind (.ofCause (states.function? setup.registry qualifier name)) fun target also found => ?_
  cases found with
  | some both =>
    cases both with
    | user callables => exact callUser_same inner callables args
    | builtin library => exact callModule_same inner library name args
  | none =>
    cases qualifier with
    | some qualifier => exact .fail rfl
    | none => exact callGlobal_same inner name args

end Calls

section Control

theorem runScoped_same (inner : self.InStep twin) (mode : Mode) {body other : List Statement}
    (bodies : Statements.Respelled body other) :
    Same (runScoped self mode body) (runScoped twin mode other) := by
  refine InStep.get_bind fun machine other states => ?_
  simp only [Machine.isSemiGlobal, states.frames]
  exact .withFrame _ (inner.block bodies mode)

theorem holds_same (inner : self.InStep twin) {condition other : Expr}
    (spelled : condition.Respelled other) : Same (holds self condition) (holds twin other) :=
  .andThen (inner.evaluate spelled false) fun _ => .pure rfl

theorem branches_same (inner : self.InStep twin) (mode : Mode) {tests others : List (Branch Statement)}
    (each : List.Forall₂ (Branch.Rel Statement.Respelled) tests others) :
    Same (branches self mode tests) (branches twin mode others) := by
  induction each with
  | nil => exact .pure rfl
  | @cons branch other rest restOther first _ ih =>
    have chosen (taken : Bool) {body also : List Statement} (bodies : Statements.Respelled body also) :
        Same (if taken then runScoped self mode body else branches self mode rest)
          (if taken then runScoped twin mode also else branches twin mode restOther) := by
      split
      · exact runScoped_same inner mode bodies
      · exact ih
    cases first with
    | mk tests bodies line =>
      cases tests with
      | none => exact chosen true bodies
      | some test => exact .andThen (holds_same inner test) fun taken => chosen taken bodies

theorem whileLoop_same (inner : self.InStep twin) (mode : Mode) {condition other : Expr}
    {body also : List Statement} (conditions : condition.Respelled other)
    (bodies : Statements.Respelled body also) :
    Same (whileLoop self mode condition body) (whileLoop twin mode other also) := by
  refine .andThen (holds_same inner conditions) fun again => ?_
  split
  · refine .andThen (runScoped_same inner mode bodies) fun first => ?_
    split
    · exact .pure rfl
    · exact .andThen (inner.again conditions bodies mode) fun rest => .pure rfl
  · exact .pure rfl

/-- The same value for a variable, under two spellings. -/
inductive Definition.Respelled : String × Value → String × Value → Prop where
  | mk {name other : String} (names : SameName name other) (value : Value) :
      Respelled (name, value) (other, value)

theorem foldl_define {machine other : Machine} (states : machine.Respelled other)
    {round also : List (String × Value)} (each : List.Forall₂ Definition.Respelled round also) :
    (round.foldl (fun m (name, value) => m.define name value) machine).Respelled
      (also.foldl (fun m (name, value) => m.define name value) other) := by
  induction each generalizing machine other with
  | nil => exact states
  | cons first _ ih =>
    cases first with
    | mk names value => exact ih (states.define names value)

theorem overDefinitions_same (inner : self.InStep twin) (mode : Mode)
    {rounds others : List (List (String × Value))} {body also : List Statement}
    (each : List.Forall₂ (List.Forall₂ Definition.Respelled) rounds others)
    (bodies : Statements.Respelled body also) :
    Same (overDefinitions self mode rounds body) (overDefinitions twin mode others also) := by
  refine InStep.get_bind fun machine other states => ?_
  simp only [Machine.isSemiGlobal, states.frames]
  refine .untilReturn each fun round => .withFrame _ ?_
  exact .andThen (.modify fun states => foldl_define states round) fun _ => inner.block bodies mode

theorem respelled_destructure {names others : List String} (each : List.Forall₂ SameName names others)
    (item : Value) :
    List.Forall₂ Definition.Respelled (destructure names item) (destructure others item) := by
  have members (from_ : Nat) : List.Forall₂ Definition.Respelled
      ((names.zipIdx from_).map fun entry => (entry.1, (item.toList[entry.2]?).getD .null))
      ((others.zipIdx from_).map fun entry => (entry.1, (item.toList[entry.2]?).getD .null)) := by
    induction each generalizing from_ with
    | nil => exact .nil
    | cons first _ ih => exact .cons (.mk first _) (ih (from_ + 1))
  cases each with
  | nil => exact .nil
  | cons first rest =>
    cases rest with
    | nil => exact .cons (.mk first item) .nil
    | cons => exact members 0

theorem eachLoop_same (inner : self.InStep twin) (mode : Mode) {names others : List String}
    {list other : Expr} {body also : List Statement} (each : List.Forall₂ SameName names others)
    (lists : list.Respelled other) (bodies : Statements.Respelled body also) :
    Same (eachLoop self mode names list body) (eachLoop twin mode others other also) := by
  refine .andThen (inner.evaluate lists false) fun value => ?_
  refine overDefinitions_same inner mode ?_ bodies
  refine List.forall₂_map_left_iff.mpr (List.forall₂_map_right_iff.mpr ?_)
  exact List.forall₂_same.mpr fun item _ => respelled_destructure each item

theorem bound_same (inner : self.InStep twin) {expr other : Expr} (spelled : expr.Respelled other) :
    Same (bound self expr) (bound twin other) := by
  refine .andThen (inner.evaluate spelled false) fun value => ?_
  split
  · exact .pure rfl
  · exact .fail rfl

theorem forLoop_same (inner : self.InStep twin) (mode : Mode) {name label : String}
    {first last firstOther lastOther : Expr} (inclusive : Bool) {body also : List Statement}
    (names : SameName name label) (firsts : first.Respelled firstOther)
    (lasts : last.Respelled lastOther) (bodies : Statements.Respelled body also) :
    Same (forLoop self mode name first last inclusive body)
      (forLoop twin mode label firstOther lastOther inclusive also) := by
  -- Once the bounds are numbers of one unit, the rounds differ in the name of the variable alone.
  have both (first last : Number) :
      Same (do
        let start ← Run.ofCause (wholeBound first)
        let stop ← Run.ofCause (wholeBound last)
        overDefinitions self mode ((steps start stop inclusive).map fun step =>
          [(name, Value.number ⟨Float.ofInt step, first.unit.or last.unit⟩)]) body)
      (do
        let start ← Run.ofCause (wholeBound first)
        let stop ← Run.ofCause (wholeBound last)
        overDefinitions twin mode ((steps start stop inclusive).map fun step =>
          [(label, Value.number ⟨Float.ofInt step, first.unit.or last.unit⟩)]) also) := by
    refine .andThen (.ofCause (Cause.agree_same _)) fun start => ?_
    refine .andThen (.ofCause (Cause.agree_same _)) fun stop => ?_
    refine overDefinitions_same inner mode ?_ bodies
    refine List.forall₂_map_left_iff.mpr (List.forall₂_map_right_iff.mpr ?_)
    exact List.forall₂_same.mpr fun step _ => .cons (.mk names _) .nil
  refine .andThen (bound_same inner firsts) fun first => ?_
  refine .andThen (bound_same inner lasts) fun last => ?_
  split
  · exact both first last
  · exact .andThen (.ofCause (Cause.agree_same _)) fun last => both first last

end Control

end Eval

end Scss
