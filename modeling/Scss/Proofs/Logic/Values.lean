import Scss.Proofs.Logic
import Scss.Proofs.Pieces

/-! A relation that goes along with the evaluator's ways relates the values of expressions, calls
that leave the stylesheet, the definition of parameters, the control of statements, and the bodies
of functions: one lemma for each part of the evaluator, over any two performances of the jobs
inside. -/
namespace Scss.Eval

variable {setup : Setup} {regime : Regime} {left right : Perform} {related : Run.Relation}

section Expressions

variable (logic : Logic setup regime left right related)

include logic

theorem interpolate_related (template : Template) :
    related .value (interpolate setup left template) (interpolate setup right template) := by
  refine logic.bind (logic.mapM _ fun part => ?_) fun texts => logic.pure _
  cases part with
  | literal text => exact logic.pure text
  | expr expr =>
    refine logic.bind (logic.evaluate expr false) fun value => ?_
    split <;> exact logic.pure _

theorem arguments_related (args : List (Argument Expr)) :
    related .value (arguments left args) (arguments right args) := by
  refine logic.foldlM _ _ fun done arg => logic.bind (logic.evaluate arg.value false) fun value => ?_
  split
  · exact logic.pure _
  · split <;> exact logic.pure _

theorem ifCall_related (args : List (Argument Expr)) :
    related .value (ifCall left args) (ifCall right args) := by
  refine logic.bind (logic.ofCause _) fun slots => ?_
  split
  · exact logic.fail _
  · refine logic.bind (logic.evaluate _ false) fun value => ?_
    dsimp only
    split
    · exact logic.evaluate _ false
    · exact logic.pure _

theorem call_related (qualifier : Option String) (name : String) (args : List (Argument Expr)) :
    related .value (call left qualifier name args) (call right qualifier name args) := by
  unfold call
  split
  · exact ifCall_related logic _
  · refine logic.bind (logic.calculate _) fun term => ?_
    split <;> exact logic.pure _
  · exact logic.bind (arguments_related logic args) fun values => logic.call _ _ _

theorem binary_related (op : BinaryOp) (first second : Expr) (divides : Bool) :
    related .value (binary setup left op first second divides)
      (binary setup right op first second divides) := by
  unfold binary
  split
  · refine logic.bind (logic.evaluate _ true) fun value => ?_
    split
    · exact logic.evaluate _ true
    · exact logic.pure _
  · refine logic.bind (logic.evaluate _ true) fun value => ?_
    split
    · exact logic.pure _
    · exact logic.evaluate _ true
  · split
    · refine logic.bind (logic.evaluate _ false) fun one => ?_
      exact logic.bind (logic.evaluate _ false) fun two => logic.pure _
    · refine logic.bind (logic.evaluate _ true) fun one => ?_
      exact logic.bind (logic.evaluate _ true) fun two => logic.ofCause _

theorem expression_related (expr : Expr) (divides : Bool) :
    related .value (expression setup left expr divides) (expression setup right expr divides) := by
  cases expr with
  | number | identifier | boolean | null | important => exact logic.pure _
  | string value | interpolated value | url value =>
    exact logic.bind (interpolate_related logic value) fun text => logic.pure _
  | hexColor text position =>
    unfold expression
    dsimp only
    split
    · exact logic.pure _
    · exact logic.abort trivial
  | namedColor name position =>
    unfold expression
    dsimp only
    split <;> exact logic.pure _
  | var name =>
    refine logic.look (fun machine margin => ?_) fun machine => ?_
    · rw [machine.lookup?_withMargin]
    · split
      · exact logic.pure _
      · exact logic.fail _
  | member qualifier name =>
    refine logic.look (fun machine margin => ?_) fun machine => logic.ofCause _
    rw [machine.qualifiedVariable_withMargin]
  | list items =>
    exact logic.bind (logic.mapM _ fun item => logic.evaluate item false) fun values => logic.pure _
  | map pairs =>
    refine logic.bind (logic.mapM _ fun pair => ?_) fun entries => logic.pure _
    refine logic.bind (logic.evaluate pair.1 false) fun key => ?_
    exact logic.bind (logic.evaluate pair.2 false) fun value => logic.pure _
  | binary op first second => exact binary_related logic op first second divides
  | unary op operand => exact logic.bind (logic.evaluate operand true) fun value => logic.pure _
  | paren body => exact logic.evaluate body true
  | call qualifier name args => exact call_related logic qualifier name args
  | parent => exact logic.look (fun _ _ => rfl) fun machine => logic.pure _

theorem plainTerm_related (expr : Expr) :
    related .value (plainTerm setup left expr) (plainTerm setup right expr) := by
  refine logic.bind (logic.evaluate expr false) fun value => ?_
  split <;> exact logic.pure _

theorem calculation_related (expr : Expr) :
    related .value (calculation setup left expr) (calculation setup right expr) := by
  unfold calculation
  split
  · split
    · refine logic.bind (logic.calculate _) fun one => ?_
      exact logic.bind (logic.calculate _) fun two => logic.ofCause _
    · exact plainTerm_related logic _
  · exact logic.bind (logic.calculate _) fun term => logic.pure _
  · exact logic.bind (logic.calculate _) fun term => logic.pure _
  · exact plainTerm_related logic _

end Expressions

section Calls

variable (logic : Logic setup regime left right related)

include logic

theorem bindOne_related (mode : Mode) (callee : String) (rest : CallArgs) (param : Parameter) :
    related mode.realm (bindOne left callee rest param) (bindOne right callee rest param) := by
  have defined (name : String) (value : Value) (rest : CallArgs) :
      related mode.realm (do modify (·.define name value); return rest : Run CallArgs)
        (do modify (·.define name value); return rest) :=
    logic.bind (logic.define mode name value) fun _ => logic.pure rest
  unfold bindOne
  dsimp only
  split
  · exact defined _ _ _
  · exact defined _ _ _
  · split
    · exact logic.bind (logic.evaluate _ false) fun value => defined _ _ _
    · exact logic.fail _

theorem bind_related (mode : Mode) (params : Parameters) (args : CallArgs) (callee : String) :
    related mode.realm (bind left params args callee) (bind right params args callee) := by
  refine logic.bind (logic.foldlM _ _ fun rest param => ?_) fun rest => ?_
  · exact bindOne_related logic mode callee rest param
  · split
    · exact logic.define mode _ _
    · exact logic.pure _
    · exact logic.fail _
    · exact logic.fail _

theorem callTarget_related (target : Value) (args : CallArgs) :
    related .value (callTarget left target args) (callTarget right target args) := by
  unfold callTarget
  split
  · exact logic.call _ _ _
  · exact logic.call _ _ _
  · exact logic.fail _

theorem callValue_related (args : CallArgs) :
    related .value (callValue left args) (callValue right args) := by
  unfold callValue
  dsimp only
  split
  · exact callTarget_related logic _ _
  · exact callTarget_related logic _ _
  · exact logic.fail _

omit logic in
theorem Intrinsic.run_withMargin (machine : Machine) (margin : Machine.Margin) (name : String)
    (args : CallArgs) :
    Scss.Intrinsic.run setup (machine.withMargin margin) name args =
      Scss.Intrinsic.run setup machine name args := by
  have present (name : String) (qualifier : Option String) :
      Intrinsic.globalExists setup (machine.withMargin margin) name qualifier =
        Intrinsic.globalExists setup machine name qualifier := by
    cases qualifier with
    | none => rfl
    | some qualifier => simp only [Intrinsic.globalExists, Machine.qualifiedVariable_withMargin]
  have applied (first : Value) (values : Slots) :
      Intrinsic.apply setup (machine.withMargin margin) name first values =
        Intrinsic.apply setup machine name first values := by
    simp only [Intrinsic.apply, Intrinsic.functionExists, present, Machine.lookup?_withMargin,
      Machine.function?_withMargin, Machine.mixin?_withMargin]
  simp only [Intrinsic.run, applied]

theorem callIntrinsic_related (name : String) (args : CallArgs) :
    related .value (callIntrinsic setup left name args) (callIntrinsic setup right name args) := by
  unfold callIntrinsic
  split
  · exact callValue_related logic args
  · refine logic.look (fun machine margin => ?_) fun machine => logic.ofCause _
    rw [Intrinsic.run_withMargin machine]

theorem computed_related (result : Except Cause Computed) :
    related .value (computed setup result) (computed setup result) := by
  refine logic.bind (logic.ofCause _) fun result => ?_
  split
  · exact logic.pure _
  · exact logic.bind (logic.log _ _) fun _ => logic.pure _
  · exact logic.draw _ _

theorem callModule_related (library name : String) (args : CallArgs) :
    related .value (callModule setup left library name args)
      (callModule setup right library name args) := by
  unfold callModule
  split
  · exact callIntrinsic_related logic _ args
  · split
    · exact computed_related logic _
    · exact logic.fail _

theorem callGlobal_related (name : String) (args : CallArgs) :
    related .value (callGlobal setup left name args) (callGlobal setup right name args) := by
  unfold callGlobal
  dsimp only
  split
  · exact callIntrinsic_related logic _ args
  · split
    · exact logic.ofCause _
    · split
      · exact computed_related logic _
      · exact logic.pure _

end Calls

section Control

variable (logic : Logic setup regime left right related) (mode : Mode)

include logic

theorem runScoped_related {body : List Statement} (admitted : ∀ node ∈ body, regime.admits node) :
    related mode.realm (runScoped left mode body) (runScoped right mode body) :=
  logic.look (fun _ _ => rfl) fun _ =>
    logic.withFrame mode _ (logic.job (.block mode body) admitted)

theorem holds_related (condition : Expr) :
    related .value (holds left condition) (holds right condition) :=
  logic.bind (logic.evaluate condition false) fun _ => logic.pure _

theorem branches_related {tests : List (Branch Statement)}
    (admitted : ∀ node ∈ tests.flatMap Branch.body, regime.admits node) :
    related mode.realm (branches left mode tests) (branches right mode tests) := by
  induction tests with
  | nil => exact logic.pure _
  | cons branch rest ih =>
    rw [List.flatMap_cons, List.forall_mem_append] at admitted
    have chosen (taken : Bool) : related mode.realm
        (if taken then runScoped left mode branch.body else branches left mode rest)
        (if taken then runScoped right mode branch.body else branches right mode rest) := by
      split
      · exact runScoped_related logic mode admitted.1
      · exact ih admitted.2
    unfold branches
    split
    · exact logic.bind (logic.value (holds_related logic _)) chosen
    · exact chosen true

theorem whileLoop_related (condition : Expr) {body : List Statement}
    (admitted : ∀ node ∈ body, regime.admits node) :
    related mode.realm (whileLoop left mode condition body)
      (whileLoop right mode condition body) := by
  refine logic.bind (logic.value (holds_related logic condition)) fun again => ?_
  split
  · refine logic.bind (runScoped_related logic mode admitted) fun first => ?_
    split
    · exact logic.pure _
    · exact logic.bind (logic.job (.repeat mode condition body) admitted) fun others => logic.pure _
  · exact logic.pure _

theorem overDefinitions_related (rounds : List (List (String × Value))) {body : List Statement}
    (admitted : ∀ node ∈ body, regime.admits node) :
    related mode.realm (overDefinitions left mode rounds body)
      (overDefinitions right mode rounds body) := by
  refine logic.look (fun _ _ => rfl) fun machine => logic.untilReturn _ fun round => ?_
  refine logic.withFrame mode _ (logic.bind (logic.defineAll mode round) fun _ => ?_)
  exact logic.job (.block mode body) admitted

theorem eachLoop_related (names : List String) (list : Expr) {body : List Statement}
    (admitted : ∀ node ∈ body, regime.admits node) :
    related mode.realm (eachLoop left mode names list body)
      (eachLoop right mode names list body) :=
  logic.bind (logic.evaluate list false) fun _ => overDefinitions_related logic mode _ admitted

theorem bound_related (expr : Expr) : related .value (bound left expr) (bound right expr) := by
  refine logic.bind (logic.evaluate expr false) fun value => ?_
  split
  · exact logic.pure _
  · exact logic.fail _

theorem forLoop_related (name : String) (first last : Expr) (inclusive : Bool)
    {body : List Statement} (admitted : ∀ node ∈ body, regime.admits node) :
    related mode.realm (forLoop left mode name first last inclusive body)
      (forLoop right mode name first last inclusive body) := by
  have rest (start stop : Number) : related mode.realm
      (do
        let unit := start.unit.or stop.unit
        let low ← Run.ofCause (wholeBound start)
        let high ← Run.ofCause (wholeBound stop)
        let rounds := (steps low high inclusive).map fun step =>
          [(name, Value.number ⟨Float.ofInt step, unit⟩)]
        overDefinitions left mode rounds body)
      (do
        let unit := start.unit.or stop.unit
        let low ← Run.ofCause (wholeBound start)
        let high ← Run.ofCause (wholeBound stop)
        let rounds := (steps low high inclusive).map fun step =>
          [(name, Value.number ⟨Float.ofInt step, unit⟩)]
        overDefinitions right mode rounds body) := by
    refine logic.bind (logic.ofCause _) fun low => logic.bind (logic.ofCause _) fun high => ?_
    exact overDefinitions_related logic mode _ admitted
  refine logic.bind (logic.value (bound_related logic first)) fun start => ?_
  refine logic.bind (logic.value (bound_related logic last)) fun stop => ?_
  split
  · exact rest start stop
  · exact logic.bind (logic.ofCause _) fun stop => rest start stop

theorem assignment_related (qualifier : Option String) (name : String) (expr : Expr)
    (default : Bool) {global : Bool}
    (globals : qualifier = none → global = true → regime.globals) :
    related mode.realm (assignment setup left qualifier name expr default global)
      (assignment setup right qualifier name expr default global) := by
  unfold assignment
  split
  · rename_i qualifier
    refine logic.bind (logic.evaluate expr false) fun value => ?_
    exact logic.assignQualified mode qualifier name value
  · refine logic.look (fun machine margin => ?_) fun machine => ?_
    · rw [show isSet setup (machine.withMargin margin) name global =
        isSet setup machine name global by
          simp only [isSet, Machine.lookup?_withMargin]
          rfl]
    · split
      · exact logic.pure _
      · refine logic.bind (logic.evaluate expr false) fun value => ?_
        refine logic.change (fun machine => .assign mode machine name value global)
          (fun machine margin => machine.assign_withMargin margin name value global)
          (fun machine => (machine.steady_assign name value global).definitions) ?_
        cases global with
        | true => exact .inl (globals rfl rfl)
        | false => exact .inr fun machine => machine.keepsNames_assign name value

theorem message_related {kind : MessageKind} {expr : Expr} {line : Nat}
    (admitted : regime.admits (.message kind expr line)) :
    related mode.realm (message left kind expr line) (message right kind expr line) := by
  refine logic.bind (logic.evaluate expr false) fun value => ?_
  cases kind with
  | debug => exact logic.look (fun _ _ => rfl) fun machine => logic.log _ _
  | warn => exact logic.look (fun _ _ => rfl) fun machine => logic.log _ _
  | error => exact logic.raise mode admitted _

theorem functionStatement_related {node : Statement} (admitted : regime.admits node)
    (globals : node.setsGlobal → regime.globals) :
    related .function (functionStatement setup left node) (functionStatement setup right node) := by
  have inside := regime.within admitted
  unfold functionStatement
  split
  · exact logic.bind (logic.evaluate _ false) fun _ => logic.pure _
  · rename_i qualifier name value default global _
    refine logic.bind (assignment_related logic .function qualifier name value default ?_)
      fun _ => logic.pure _
    rintro rfl rfl
    exact globals trivial
  · exact branches_related logic .function inside
  · exact eachLoop_related logic .function _ _ inside
  · exact forLoop_related logic .function _ _ _ _ inside
  · rename_i condition body _
    exact logic.job (.repeat .function condition body) inside
  · exact logic.bind (message_related logic .function admitted) fun _ => logic.pure _
  · exact logic.pure _
  · exact logic.fail _

end Control

end Scss.Eval
