import Scss.Eval
import Scss.Proofs.Braces.AtRules

/-! Expressions, calls and loops make no braces, and come to the same in both runs: one lemma for each
part of the evaluator, over any two ways to perform the jobs inside it. -/
namespace Scss

open Run (Cleanly Together)
open Text (Braceless Flat)

namespace Body

theorem alike_empty : Body.Alike .empty .empty := ⟨by simp [Body.empty], rfl, .nil⟩

theorem Alike.append {body twin other also : Body} (first : body.Alike twin)
    (second : other.Alike also) : (body.append other).Alike (twin.append also) where
  clean := List.forall_mem_append.mpr ⟨first.clean, second.clean⟩
  declarations := congrArg₂ List.append first.declarations second.declarations
  blocks := List.rel_append first.blocks second.blocks

theorem alike_ofDeclarations {lines : List String} (clean : ∀ line ∈ lines, Braceless line) :
    (Body.ofDeclarations lines).Alike (Body.ofDeclarations lines) :=
  ⟨clean, rfl, .nil⟩

theorem alike_ofBlock {css marked : String} (alike : Text.Alike css marked) :
    (Body.ofBlock css).Alike (Body.ofBlock marked) :=
  ⟨by simp [Body.ofBlock], rfl, .cons alike .nil⟩

theorem alike_ofText {css marked : String} (alike : Text.Alike css marked) :
    (Body.ofText css).Alike (Body.ofText marked) := by
  unfold Body.ofText
  rw [alike.marks.isEmpty]
  split
  · exact alike_empty
  · exact alike_ofBlock alike

end Body

/-- What statements come to, without braces but those of flat blocks, and with or without marks. -/
structure Yield.Alike (yield twin : Yield) : Prop where
  body : yield.body.Alike twin.body
  returned : twin.returned = yield.returned
  clean : ∀ value ∈ yield.returned, value.Braceless

namespace Yield

theorem alike_nothing : Yield.Alike .nothing .nothing := ⟨Body.alike_empty, rfl, by simp [Yield.nothing]⟩

theorem alike_ofBody {body twin : Body} (alike : body.Alike twin) :
    (Yield.ofBody body).Alike (Yield.ofBody twin) :=
  ⟨alike, rfl, by simp [Yield.ofBody]⟩

theorem alike_ofValue {value : Value} (clean : value.Braceless) :
    (Yield.ofValue value).Alike (Yield.ofValue value) :=
  ⟨Body.alike_empty, rfl, by simpa [Yield.ofValue] using clean⟩

theorem Alike.append {yield twin other also : Yield} (first : yield.Alike twin)
    (second : other.Alike also) : (yield.append other).Alike (twin.append also) :=
  ⟨first.body.append second.body, second.returned, second.clean⟩

end Yield

/-- A compiler as it is made, without functions of its caller. -/
structure Setup.Plain (setup : Setup) : Prop where
  registry : setup.registry = .builtin
  callbacks : setup.callbacks = []

/-- Two ways to perform jobs side by side, which make no braces but those of flat blocks. -/
structure Perform.Alike (perform twin : Perform) : Prop where
  evaluate : ∀ expr divides, expr.Braceless →
    Cleanly Value.Braceless (perform (.evaluate expr divides)) (twin (.evaluate expr divides))
  calculate : ∀ expr, expr.Braceless →
    Cleanly CalcTerm.Braceless (perform (.calculate expr)) (twin (.calculate expr))
  call : ∀ qualifier name args, Braceless name → args.Braceless →
    Cleanly Value.Braceless (perform (.call qualifier name args)) (twin (.call qualifier name args))
  declare : ∀ d outer, (Statement.property d).SelfContained → (∀ text ∈ outer, Braceless text) →
    Cleanly (fun lines => ∀ line ∈ lines, Braceless line) (perform (.declare d outer))
      (twin (.declare d outer))
  block : ∀ mode nodes, (∀ node ∈ nodes, Statement.SelfContained node) →
    Together Yield.Alike (perform (.block mode nodes)) (twin (.block mode nodes))
  again : ∀ mode condition nodes, condition.Braceless →
    (∀ node ∈ nodes, Statement.SelfContained node) →
    Together Yield.Alike (perform (.repeat mode condition nodes)) (twin (.repeat mode condition nodes))

namespace Eval

variable {setup : Setup} {self twin : Perform}

section Values

theorem interpolate_cleanly (inner : Perform.Alike self twin) {template : Template}
    (clean : template.Braceless) :
    Cleanly Braceless (interpolate setup self template) (interpolate setup twin template) := by
  refine .bind (.mapM fun part member => ?_) fun texts each => .pure (Text.braceless_join each)
  cases part with
  | literal text => exact .pure (clean.literals text member)
  | expr expr =>
    refine .bind (inner.evaluate expr false (clean.exprs expr member)) fun value result => ?_
    split
    · cases result with
      | string _ text => exact .pure text
    · exact .pure (by decide)
    · exact .pure (setup.format.braceless_value result)

theorem braceless_spread {args : CallArgs} {value : Value} (clean : args.Braceless)
    (added : value.Braceless) : (spread args value).Braceless := by
  unfold spread
  split
  · rename_i entries
    have folded (entries : Entries) (named : List (String × Value)) (own : entries.Braceless)
        (start : ∀ entry ∈ named, Braceless entry.1 ∧ entry.2.Braceless) :
        ∀ entry ∈ entries.foldl (fun named pair =>
          CallArgs.insertNamed (normalizeName pair.1.bare) pair.2 named) named,
          Braceless entry.1 ∧ entry.2.Braceless := by
      induction entries generalizing named with
      | nil => exact start
      | cons entry rest ih =>
        obtain ⟨first, others⟩ := List.forall_mem_cons.mp own
        refine ih _ others (CallArgs.braceless_insertNamed start ?_ first.2)
        exact first.1.bare.normalizeName
    exact { clean with named := folded entries _ (Entries.braceless_of_map added) clean.named }
  · refine { clean with positional := List.forall_mem_append.mpr ⟨clean.positional, ?_⟩ }
    exact Value.Braceless.toList added
  · exact { clean with positional :=
      List.forall_mem_append.mpr ⟨clean.positional, List.forall_mem_singleton.mpr added⟩ }

theorem arguments_cleanly (inner : Perform.Alike self twin) {args : List (Argument Expr)}
    (clean : ∀ arg ∈ args, arg.Braceless) :
    Cleanly CallArgs.Braceless (arguments self args) (arguments twin args) := by
  refine .foldlM ⟨by simp [Slots.Braceless], by simp⟩ fun done before arg member => ?_
  refine .bind (inner.evaluate _ false (clean arg member).value) fun value result => ?_
  split
  · exact .pure (braceless_spread before result)
  · split
    · rename_i name found
      refine .pure { before with named := CallArgs.braceless_insertNamed before.named ?_ result }
      exact ((clean arg member).name name found).normalizeName
    · exact .pure { before with positional :=
        List.forall_mem_append.mpr ⟨before.positional, List.forall_mem_singleton.mpr result⟩ }

/-- The arguments of `if()` that have been put into place. -/
structure IfSlots.Braceless (slots : IfSlots) : Prop where
  condition : ∀ expr ∈ slots.condition, Expr.Braceless expr
  ifTrue : ∀ expr ∈ slots.ifTrue, Expr.Braceless expr
  ifFalse : ∀ expr ∈ slots.ifFalse, Expr.Braceless expr

theorem IfSlots.Braceless.set {slots : IfSlots} (clean : slots.Braceless) (index : Nat) {expr : Expr}
    (added : expr.Braceless) : Yields IfSlots.Braceless (slots.set index expr) := by
  unfold IfSlots.set
  split
  · exact .ok { clean with condition := by simpa using added }
  · exact .ok { clean with ifTrue := by simpa using added }
  · exact .ok { clean with ifFalse := by simpa using added }
  · exact .error _

theorem IfSlots.Braceless.fill {args : List (Argument Expr)} (given : ∀ arg ∈ args, arg.Braceless)
    {slots : IfSlots} (clean : slots.Braceless) (position : Nat) :
    Yields IfSlots.Braceless (slots.fill position args) := by
  induction args generalizing slots position with
  | nil => exact .ok clean
  | cons arg rest ih =>
    obtain ⟨first, others⟩ := List.forall_mem_cons.mp given
    rw [IfSlots.fill]
    split
    · exact .bind (clean.set _ first.value) fun _ next => ih others next _
    · dsimp only
      split
      · exact .bind (clean.set _ first.value) fun _ next => ih others next _
      · exact .error _

theorem ifCall_cleanly (inner : Perform.Alike self twin) {args : List (Argument Expr)}
    (clean : ∀ arg ∈ args, arg.Braceless) :
    Cleanly Value.Braceless (ifCall self args) (ifCall twin args) := by
  have nothing : IfSlots.Braceless ⟨none, none, none⟩ := ⟨by simp, by simp, by simp⟩
  refine .bind (Cleanly.ofCause (nothing.fill clean 0)) fun slots filled => ?_
  split
  · exact .fail _
  · rename_i condition given
    refine .bind (inner.evaluate _ false (filled.condition condition given)) fun value _ => ?_
    dsimp only
    split
    · rename_i branch chosen
      refine inner.evaluate _ false ?_
      split at chosen
      · exact filled.ifTrue branch chosen
      · exact filled.ifFalse branch chosen
    · exact .pure .null

theorem call_cleanly (inner : Perform.Alike self twin) (qualifier : Option String) {name : String}
    {args : List (Argument Expr)} (label : Braceless name) (clean : ∀ arg ∈ args, arg.Braceless) :
    Cleanly Value.Braceless (call self qualifier name args) (call twin qualifier name args) := by
  unfold call
  split
  · exact ifCall_cleanly inner clean
  · have operand := (clean _ List.mem_cons_self).value
    refine .bind (inner.calculate _ operand) fun term result => ?_
    split
    · exact .pure (.number result)
    · rename_i css
      have text : Braceless css := result
      exact .pure (.unquoted (by simpa +decide using text))
  · exact .bind (arguments_cleanly inner clean) fun values given => inner.call _ _ _ label given

theorem binary_cleanly (inner : Perform.Alike self twin) (op : BinaryOp) {left right : Expr}
    (first : left.Braceless) (second : right.Braceless) (divides : Bool) :
    Cleanly Value.Braceless (binary setup self op left right divides)
      (binary setup twin op left right divides) := by
  unfold binary
  split
  · refine .bind (inner.evaluate _ _ first) fun value result => ?_
    split
    · exact inner.evaluate _ _ second
    · exact .pure result
  · refine .bind (inner.evaluate _ _ first) fun value result => ?_
    split
    · exact .pure result
    · exact inner.evaluate _ _ second
  · split
    · refine .bind (inner.evaluate _ _ first) fun value result => ?_
      exact .bind (inner.evaluate _ _ second) fun other also => .pure
        (Operator.braceless_joined .div result also)
    · refine .bind (inner.evaluate _ _ first) fun value result => ?_
      exact .bind (inner.evaluate _ _ second) fun other also => .ofCause
        (Operator.yields_apply _ result also)

theorem expression_cleanly (plain : setup.Plain) (inner : Perform.Alike self twin) {expr : Expr}
    (clean : expr.Braceless) (divides : Bool) :
    Cleanly Value.Braceless (expression setup self expr divides)
      (expression setup twin expr divides) := by
  cases clean with
  | @number unit value position clean =>
    refine .pure (.number (Number.braceless_ofUnit _ ?_))
    cases unit with
    | none => decide
    | some text => exact clean text rfl
  | string line literals exprs =>
    exact .bind (interpolate_cleanly inner ⟨literals, exprs⟩) fun text result => .pure
      (.string _ result)
  | identifier position clean => exact .pure (.unquoted clean)
  | interpolated literals exprs =>
    exact .bind (interpolate_cleanly inner ⟨literals, exprs⟩) fun text result => .pure
      (.unquoted result)
  | hexColor position clean =>
    unfold expression
    dsimp only
    split
    · exact .pure (.color (by simpa [Color.Braceless, Color.literal] using clean))
    · exact .throw _
  | namedColor position clean =>
    unfold expression
    dsimp only
    split
    · exact .pure (.color (by simpa [Color.Braceless, Color.literal] using clean))
    · exact .pure (.unquoted clean)
  | boolean value line => exact .pure (.bool value)
  | null line => exact .pure .null
  | var name line =>
    refine .get_bind (fun _ _ => by simp) fun machine holds => ?_
    rw [plain.registry]
    split
    · rename_i value found
      exact .pure (holds.lookup name value found)
    · exact .fail _
  | member qualifier name line =>
    refine .get_bind (fun _ _ => by simp) fun machine holds => ?_
    rw [plain.registry]
    exact .ofCause (holds.qualifiedVariable qualifier name)
  | list separator bracketed line clean =>
    refine .bind (Cleanly.mapM fun item member => inner.evaluate item false (clean item member)) ?_
    exact fun values each => .pure (.list _ _ each)
  | map line keys values =>
    refine .bind (Cleanly.mapM fun pair member => ?_) fun entries (each : Entries.Braceless entries) =>
      .pure (Entries.braceless_ofPairs each).map
    refine .bind (inner.evaluate _ false (keys pair member)) fun key first => ?_
    exact .bind (inner.evaluate _ false (values pair member)) fun value second => .pure ⟨first, second⟩
  | binary op line first second => exact binary_cleanly inner op first second divides
  | unary op line clean =>
    exact .bind (inner.evaluate _ true clean) fun value result => .pure
      (Operator.braceless_applyUnary op result)
  | paren line clean => exact inner.evaluate _ true clean
  | call qualifier line label names values =>
    exact call_cleanly inner qualifier label fun arg member => ⟨names arg member, values arg member⟩
  | url line literals exprs =>
    refine .bind (interpolate_cleanly inner ⟨literals, exprs⟩) fun text result => ?_
    exact .pure (.unquoted (by simpa +decide using result))
  | parent line =>
    refine .get_bind (fun _ _ => rfl) fun machine holds => .pure ?_
    cases found : machine.selector with
    | none => exact .null
    | some selector => exact .unquoted (holds.selector selector found)
  | important line => exact .pure (.unquoted (by decide))

theorem plainTerm_cleanly (inner : Perform.Alike self twin) {expr : Expr} (clean : expr.Braceless) :
    Cleanly CalcTerm.Braceless (plainTerm setup self expr) (plainTerm setup twin expr) := by
  refine .bind (inner.evaluate _ false clean) fun value result => ?_
  split
  · cases result with
    | number own => exact .pure own
  · exact .pure (setup.format.braceless_value result)

theorem calculation_cleanly (inner : Perform.Alike self twin) {expr : Expr} (clean : expr.Braceless) :
    Cleanly CalcTerm.Braceless (calculation setup self expr) (calculation setup twin expr) := by
  unfold calculation
  split
  · split
    · cases clean with
      | binary op line first second =>
        refine .bind (inner.calculate _ first) fun left own => ?_
        exact .bind (inner.calculate _ second) fun right other => .ofCause
          (CalcTerm.yields_combine _ own other)
    · exact plainTerm_cleanly inner clean
  · cases clean with
    | paren line clean => exact .bind (inner.calculate _ clean) fun term own => .pure own.grouped
  · cases clean with
    | call qualifier line label names values =>
      exact .bind (inner.calculate _ (values _ List.mem_cons_self)) fun term own => .pure own.grouped
  · exact plainTerm_cleanly inner clean

end Values

section Calls

/-- Define a variable, and go on with what is left. -/
theorem define_cleanly (name : String) {value : Value} (clean : value.Braceless) {left : CallArgs}
    (rest : left.Braceless) :
    Cleanly CallArgs.Braceless (do modify (·.define name value); return left : Run CallArgs)
      (do modify (·.define name value); return left : Run CallArgs) :=
  .bind (Cleanly.modify (fun _ holds => holds.define name clean) fun machine hoisted =>
    machine.define_ending hoisted name value) fun _ _ => .pure rest

theorem bindOne_cleanly (inner : Perform.Alike self twin) (callee : String) {left : CallArgs}
    {param : Parameter} (given : left.Braceless) (default : ∀ expr ∈ param.default, Expr.Braceless expr) :
    Cleanly CallArgs.Braceless (bindOne self callee left param)
      (bindOne twin callee left param) := by
  unfold bindOne
  dsimp only
  split
  · rename_i value rest _ first
    obtain ⟨own, others⟩ := List.forall_mem_cons.mp (first ▸ given.positional)
    exact define_cleanly _ own { given with positional := others }
  · rename_i value _ found
    refine define_cleanly _ (given.named _ (mem_of_lookup found)).2 { given with named := ?_ }
    exact fun entry member => given.named entry (List.mem_of_mem_eraseP member)
  · split
    · rename_i expr found
      refine .bind (inner.evaluate _ false (default expr found)) fun value own => ?_
      exact define_cleanly _ own given
    · exact .fail _

theorem bind_cleanly (inner : Perform.Alike self twin) {params : Parameters} {args : CallArgs}
    (defaults : params.Braceless) (given : args.Braceless) (callee : String) :
    Cleanly (fun _ => True) (bind self params args callee) (bind twin params args callee) := by
  refine .bind (Cleanly.foldlM given fun left rest param member =>
    bindOne_cleanly inner callee rest (defaults param member)) fun left rest => ?_
  split
  · exact .modify (fun machine holds => holds.define _ (.listOf rest.positional .comma))
      fun machine hoisted => machine.define_ending hoisted _ _
  · exact .pure trivial
  · exact .fail _
  · exact .fail _

theorem callUser_cleanly (inner : Perform.Alike self twin) {function : Callable} {args : CallArgs}
    (own : function.Clean) (given : args.Braceless) :
    Cleanly Value.Braceless (callUser self function args) (callUser twin function args) := by
  have run : Together Yield.Alike
      (Run.inFunction function.env do
        bind self function.params args function.name
        self (.block .function function.body))
      (Run.inFunction function.env do
        bind twin function.params args function.name
        twin (.block .function function.body)) :=
    .inFunction function.env (Cleanly.andThen (bind_cleanly inner own.params given function.name)
      fun _ _ => inner.block _ _ own.body)
  refine Together.bind run fun outcome other alike => ?_
  rw [alike.returned]
  split
  · rename_i value returned
    exact Cleanly.pure (alike.clean value returned)
  · exact .fail _

theorem callTarget_cleanly (inner : Perform.Alike self twin) {target : Value} {args : CallArgs}
    (clean : target.Braceless) (given : args.Braceless) :
    Cleanly Value.Braceless (callTarget self target args) (callTarget twin target args) := by
  unfold callTarget
  split
  · cases clean with
    | function own => exact inner.call _ _ _ own.name given
  · cases clean with
    | string _ own => exact inner.call _ _ _ own given
  · exact .fail _

theorem callValue_cleanly (inner : Perform.Alike self twin) {args : CallArgs} (given : args.Braceless) :
    Cleanly Value.Braceless (callValue self args) (callValue twin args) := by
  unfold callValue
  dsimp only
  split
  · rename_i target found
    refine callTarget_cleanly inner (given.named _ (mem_of_lookup found)).2 ⟨given.positional, ?_⟩
    exact fun entry member => given.named entry (List.mem_of_mem_eraseP member)
  · rename_i target rest _ first
    obtain ⟨own, others⟩ := List.forall_mem_cons.mp (first ▸ given.positional)
    exact callTarget_cleanly inner own ⟨others, given.named⟩
  · exact .fail _

@[simp]
theorem run_ending (machine : Machine) (hoisted : List String) (name : String) (args : CallArgs) :
    Intrinsic.run setup (machine.ending hoisted) name args = Intrinsic.run setup machine name args := by
  have exists_ (name : String) (qualifier : Option String) :
      Intrinsic.globalExists setup (machine.ending hoisted) name qualifier =
        Intrinsic.globalExists setup machine name qualifier := by
    cases qualifier with
    | none => rfl
    | some qualifier => simp [Intrinsic.globalExists]
  simp only [Intrinsic.run, Intrinsic.apply, Intrinsic.functionExists, exists_,
    Machine.lookup?_ending, Machine.function?_ending, Machine.mixin?_ending]

theorem callIntrinsic_cleanly (inner : Perform.Alike self twin) (name : String) {args : CallArgs}
    (given : args.Braceless) : Cleanly Value.Braceless (callIntrinsic setup self name args)
      (callIntrinsic setup twin name args) := by
  unfold callIntrinsic
  split
  · exact callValue_cleanly inner given
  · exact .get_bind (fun _ _ => by simp) fun machine _ =>
      .ofCause (Intrinsic.yields_run setup machine name given)

theorem computed_cleanly {result : Except Cause Computed} (yields : Yields Computed.Braceless result) :
    Cleanly Value.Braceless (computed setup result) (computed setup result) := by
  refine .bind (Cleanly.ofCause yields) fun result clean => ?_
  split
  · exact .pure clean
  · exact .bind (Cleanly.log _ _) fun _ _ => .pure clean
  · exact .draw _ _ Value.braceless_ofFloat

theorem callModule_cleanly (plain : setup.Plain) (inner : Perform.Alike self twin) (library : String)
    {name : String} {args : CallArgs} (label : Braceless name) (given : args.Braceless) :
    Cleanly Value.Braceless (callModule setup self library name args)
      (callModule setup twin library name args) := by
  unfold callModule
  rw [plain.registry]
  split
  · exact callIntrinsic_cleanly inner _ given
  · split
    · rename_i result found
      exact computed_cleanly (Registry.yields_call label given result found)
    · exact .fail _

theorem braceless_browserCall {name : String} {args : CallArgs} (label : Braceless name)
    (given : args.Braceless) : Braceless (browserCall setup name args) := by
  refine braceless_callText label fun text member => ?_
  rcases List.mem_append.mp member with placed | named
  · obtain ⟨value, inside, rfl⟩ := List.mem_map.mp placed
    exact setup.format.braceless_value (given.positional value inside)
  · obtain ⟨entry, inside, rfl⟩ := List.mem_map.mp named
    obtain ⟨key, value⟩ := given.named entry inside
    simpa +decide using ⟨key, setup.format.braceless_value value⟩

theorem callGlobal_cleanly (plain : setup.Plain) (inner : Perform.Alike self twin) {name : String}
    {args : CallArgs} (label : Braceless name) (given : args.Braceless) :
    Cleanly Value.Braceless (callGlobal setup self name args)
      (callGlobal setup twin name args) := by
  unfold callGlobal
  rw [plain.registry, plain.callbacks]
  dsimp only
  split
  · exact callIntrinsic_cleanly inner _ given
  · split
    · rename_i callback found
      cases found
    · split
      · rename_i result found
        exact computed_cleanly (Registry.yields_call label given result found)
      · exact .pure (.unquoted (braceless_browserCall label given))

theorem invoke_cleanly (plain : setup.Plain) (inner : Perform.Alike self twin) (qualifier : Option String)
    {name : String} {args : CallArgs} (label : Braceless name) (given : args.Braceless) :
    Cleanly Value.Braceless (invoke setup self qualifier name args)
      (invoke setup twin qualifier name args) := by
  refine .get_bind (fun _ _ => by simp) fun machine holds => ?_
  refine .bind (Cleanly.ofCause (holds.function setup.registry qualifier name)) fun target clean => ?_
  split
  · exact callUser_cleanly inner (clean _ rfl) given
  · exact callModule_cleanly plain inner _ label given
  · split
    · exact .fail _
    · exact callGlobal_cleanly plain inner label given

end Calls

section Control

theorem runScoped_alike (inner : Perform.Alike self twin) (mode : Mode) {body : List Statement}
    (clean : ∀ node ∈ body, node.SelfContained) :
    Together Yield.Alike (runScoped self mode body) (runScoped twin mode body) :=
  .get_bind (fun _ _ => rfl) fun _ _ => .withFrame _ (inner.block mode body clean)

theorem holds_cleanly (inner : Perform.Alike self twin) {condition : Expr} (clean : condition.Braceless) :
    Cleanly (fun _ => True) (holds self condition) (holds twin condition) :=
  .bind (inner.evaluate _ false clean) fun _ _ => .pure trivial

theorem branches_alike (inner : Perform.Alike self twin) (mode : Mode) {tests : List (Branch Statement)}
    (conditions : ∀ branch ∈ tests, ∀ test ∈ branch.test, Expr.Braceless test)
    (bodies : ∀ branch ∈ tests, ∀ node ∈ branch.body, node.SelfContained) :
    Together Yield.Alike (branches self mode tests) (branches twin mode tests) := by
  induction tests with
  | nil => exact .pure Yield.alike_nothing
  | cons branch rest ih =>
    obtain ⟨condition, others⟩ := List.forall_mem_cons.mp conditions
    obtain ⟨body, further⟩ := List.forall_mem_cons.mp bodies
    have chosen (taken : Bool) : Together Yield.Alike
        (if taken then runScoped self mode branch.body else branches self mode rest)
      (if taken then runScoped twin mode branch.body else branches twin mode rest) := by
      split
      · exact runScoped_alike inner mode body
      · exact ih others further
    unfold branches
    split
    · rename_i test found
      exact Cleanly.andThen (holds_cleanly inner (condition test found)) fun taken _ => chosen taken
    · exact chosen true

theorem whileLoop_alike (inner : Perform.Alike self twin) (mode : Mode) {condition : Expr}
    {body : List Statement} (test : condition.Braceless)
    (clean : ∀ node ∈ body, node.SelfContained) :
    Together Yield.Alike (whileLoop self mode condition body)
      (whileLoop twin mode condition body) := by
  refine Cleanly.andThen (holds_cleanly inner test) fun again _ => ?_
  split
  · refine .bind (runScoped_alike inner mode clean) fun first other alike => ?_
    rw [alike.returned]
    split
    · exact .pure alike
    · exact .bind (inner.again mode _ _ test clean) fun others also rest =>
        .pure (alike.append rest)
  · exact .pure Yield.alike_nothing

theorem overDefinitions_alike (inner : Perform.Alike self twin) (mode : Mode)
    {rounds : List (List (String × Value))} {body : List Statement}
    (values : ∀ round ∈ rounds, ∀ entry ∈ round, entry.2.Braceless)
    (clean : ∀ node ∈ body, node.SelfContained) :
    Together Yield.Alike (overDefinitions self mode rounds body)
      (overDefinitions twin mode rounds body) := by
  have defined (round : List (String × Value)) (own : ∀ entry ∈ round, entry.2.Braceless)
      (machine : Machine) (holds : machine.Clean) :
      (round.foldl (fun m entry => m.define entry.1 entry.2) machine).Clean := by
    induction round generalizing machine with
    | nil => exact holds
    | cons entry rest ih =>
      obtain ⟨first, others⟩ := List.forall_mem_cons.mp own
      exact ih others _ (holds.define _ first)
  have apart (round : List (String × Value)) (machine : Machine) (hoisted : List String) :
      round.foldl (fun m entry => m.define entry.1 entry.2) (machine.ending hoisted) =
        (round.foldl (fun m entry => m.define entry.1 entry.2) machine).ending hoisted := by
    induction round generalizing machine with
    | nil => rfl
    | cons entry rest ih =>
      have first := machine.define_ending hoisted entry.1 entry.2
      rw [List.foldl_cons, List.foldl_cons, ← ih]
      exact congrArg (fun next => rest.foldl _ next) first
  refine .get_bind (fun _ _ => rfl) fun machine _ => ?_
  refine .untilReturn Yield.alike_nothing (fun _ _ _ _ first second => first.append second)
    (fun _ _ alike => alike.returned) ?_
  intro round member
  refine .withFrame _ (Cleanly.andThen (Cleanly.modify (fun machine holds => ?_) ?_) fun _ _ => ?_)
  · exact defined round (values round member) machine holds
  · exact apart round
  · exact inner.block mode body clean

theorem eachLoop_alike (inner : Perform.Alike self twin) (mode : Mode) (names : List String) {list : Expr}
    {body : List Statement} (items : list.Braceless) (clean : ∀ node ∈ body, node.SelfContained) :
    Together Yield.Alike (eachLoop self mode names list body)
      (eachLoop twin mode names list body) := by
  have destructured (item : Value) (own : item.Braceless) :
      ∀ entry ∈ destructure names item, entry.2.Braceless := by
    unfold destructure
    split
    · simpa using own
    · intro entry member
      obtain ⟨⟨name, index⟩, -, rfl⟩ := List.mem_map.mp member
      dsimp only
      cases found : item.toList[index]? with
      | none => exact .null
      | some value => exact own.toList value (List.mem_of_getElem? found)
  refine Cleanly.andThen (inner.evaluate _ false items) fun value result => ?_
  refine overDefinitions_alike inner mode (fun round member => ?_) clean
  obtain ⟨item, inside, rfl⟩ := List.mem_map.mp member
  exact destructured item (result.toList item inside)

theorem bound_cleanly (inner : Perform.Alike self twin) {expr : Expr} (clean : expr.Braceless) :
    Cleanly Number.Braceless (bound self expr) (bound twin expr) := by
  refine .bind (inner.evaluate _ false clean) fun value result => ?_
  split
  · cases result with
    | number own => exact .pure own
  · exact .fail _

/-- A loop, once its bounds are numbers of one unit. -/
def overBounds (self : Perform) (mode : Mode) (name : String) (inclusive : Bool)
    (body : List Statement) (start stop : Number) : Run Yield := do
  let unit := start.unit.or stop.unit
  let low ← Run.ofCause (wholeBound start)
  let high ← Run.ofCause (wholeBound stop)
  let rounds := (steps low high inclusive).map fun step =>
    [(name, Value.number ⟨Float.ofInt step, unit⟩)]
  overDefinitions self mode rounds body

theorem overBounds_alike (inner : Perform.Alike self twin) (mode : Mode) (name : String)
    (inclusive : Bool) {body : List Statement} {start stop : Number} (lower : start.Braceless)
    (upper : stop.Braceless) (clean : ∀ node ∈ body, node.SelfContained) :
    Together Yield.Alike (overBounds self mode name inclusive body start stop)
      (overBounds twin mode name inclusive body start stop) := by
  refine Cleanly.andThen (Cleanly.ofCause (Yields.any _)) fun low _ => ?_
  refine Cleanly.andThen (Cleanly.ofCause (Yields.any _)) fun high _ => ?_
  refine overDefinitions_alike inner mode (fun round member => ?_) clean
  obtain ⟨step, -, rfl⟩ := List.mem_map.mp member
  refine List.forall_mem_singleton.mpr (.number fun unit found => ?_)
  rcases Option.or_eq_some_iff.mp found with own | ⟨-, other⟩
  · exact lower unit own
  · exact upper unit other

theorem forLoop_alike (inner : Perform.Alike self twin) (mode : Mode) (name : String)
    {first last : Expr} (inclusive : Bool) {body : List Statement} (low : first.Braceless)
    (high : last.Braceless) (clean : ∀ node ∈ body, node.SelfContained) :
    Together Yield.Alike (forLoop self mode name first last inclusive body)
      (forLoop twin mode name first last inclusive body) := by
  refine Cleanly.andThen (bound_cleanly inner low) fun start lower => ?_
  refine Cleanly.andThen (bound_cleanly inner high) fun stop upper => ?_
  split
  · exact overBounds_alike inner mode name inclusive lower upper clean
  · refine Cleanly.andThen (Cleanly.ofCause (upper.convert lower.unitText)) fun stop converted => ?_
    exact overBounds_alike inner mode name inclusive lower converted clean

end Control

end Eval

end Scss
