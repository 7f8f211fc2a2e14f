import Scss.Compiler
import Scss.Proofs.Logic.Statements

/-! What a rule with a condition does to the state: it interpolates its query, evaluates the values that
`@supports` tests, and compiles its body. What is written of all this changes nothing any more. A media
query is interpolated a second time, in the state that the first time leaves, and that goes unnoticed if
nothing in the query is called. -/
namespace Scss

def Run.effect {α : Type} (action : Run α) : Run PUnit := do
  let _ ← action
  return ⟨⟩

namespace Run

variable {α β : Type}

theorem effect_bind (action : Run α) (next : α → Run β) :
    effect (action >>= next) = action >>= fun value => effect (next value) := by
  simp only [effect, bind_assoc]

theorem effect_pure (value : α) : effect (pure value : Run α) = pure ⟨⟩ := pure_bind _ _

theorem effect_map (action : Run α) (f : α → β) :
    effect (do return f (← action)) = effect action := by
  simp only [effect, bind_assoc, pure_bind]

/-- What follows does not miss the result. -/
theorem effect_then (action : Run α) (next : Run β) :
    (do effect action; next) = (do let _ ← action; next) := by
  simp only [effect, bind_assoc, pure_bind]

theorem effect_withMedia (query : String) (action : Run α) :
    effect (withMedia query action) = withMedia query (effect action) := by
  funext before
  simp only [effect, withMedia, enclosed, bind_apply]
  rcases action { before with media := some query } with ⟨fault | value, after⟩ <;> rfl

/-- An action leaves the state as it is, and comes to the same under every media query. -/
def Still (action : Run α) : Prop :=
  ∀ before media, ∃ outcome, action before = (outcome, before) ∧
    action { before with media := media } = (outcome, { before with media := media })

namespace Still

theorem pure (value : α) : Still (Pure.pure value) := fun _ _ => ⟨.ok value, rfl, rfl⟩

theorem throw (fault : Fault) : Still (MonadExcept.throw fault : Run α) :=
  fun _ _ => ⟨.error fault, rfl, rfl⟩

theorem ofCause (result : Except Cause α) : Still (Run.ofCause result) := by
  cases result with
  | ok value => exact .pure value
  | error cause => exact .throw _

theorem bind {action : Run α} {next : α → Run β} (first : Still action)
    (then_ : ∀ value, Still (next value)) : Still (action >>= next) := by
  intro before media
  obtain ⟨fault | value, here, there⟩ := first before media
  · exact ⟨.error fault, by rw [bind_apply, here], by rw [bind_apply, there]⟩
  · rw [bind_apply, here, bind_apply, there]
    exact then_ value before media

theorem mapM {items : List α} {step : α → Run β} (each : ∀ item ∈ items, Still (step item)) :
    Still (items.mapM step) := by
  induction items with
  | nil => exact .pure []
  | cons item rest ih =>
    obtain ⟨here, behind⟩ := List.forall_mem_cons.mp each
    rw [List.mapM_cons]
    exact here.bind fun value => (ih behind).bind fun values => .pure _

/-- A look at the state may be one at anything but the media query. -/
theorem look {next : Machine → Run α} (each : ∀ machine, Still (next machine))
    (alike : ∀ machine media, next { machine with media := media } = next machine) :
    Still (MonadState.get >>= next) := by
  intro before media
  rw [get_bind_apply, get_bind_apply, alike before media]
  exact each before before media

end Still

end Run

open Run (effect Still)

def Interpolation.embedded (template : Template) : List Expr :=
  template.parts.filterMap fun
    | .literal _ => none
    | .expr expr => some expr

namespace Expr

def operands : Expr → List Expr
  | string value _ | interpolated value | url value _ => value.embedded
  | list items _ _ _ => items
  | map pairs _ => pairs.flatMap fun pair => [pair.1, pair.2]
  | binary _ left right _ => [left, right]
  | unary _ operand _ => [operand]
  | paren inner _ => [inner]
  | call _ _ args _ => args.map Argument.value
  | _ => []

/-- Nothing is called in an expression. -/
inductive CallFree : Expr → Prop where
  | intro {expr : Expr} (uncalled : ∀ qualifier name args line, expr ≠ .call qualifier name args line)
      (inside : ∀ inner ∈ expr.operands, CallFree inner) : CallFree expr

end Expr

def Conditional.Piece.tested? : Conditional.Piece → Option String
  | .text _ => none
  | .test _ value => some (String.ofList (Chars.trim value))

def Conditional.testedValues (condition : String) : List String :=
  (piecesFrom 0 condition.toList).filterMap Piece.tested?

namespace Eval

variable (setup : Setup) (self : Perform)

def testValue (written : String) : Run Value := do
  let expr ← MonadExcept.ofExcept (Grammar.expression written)
  self (.evaluate expr false)

/-- Evaluate the value of a test; the answer is its fault, if there is one that is caught. -/
def tryValue (written : String) : Run (Option Fault) :=
  tryCatch (do let _ ← testValue self written; return none) fun fault =>
    match fault with
    | .torn => throw .torn
    | _ => return some fault

/-- Fail with a fault of evaluation. Faults in the text of a value do not count. -/
def failWith : Option Fault → Run PUnit
  | some (.evaluation fault) => throw (.evaluation fault)
  | some .exhausted => throw .exhausted
  | _ => return ⟨⟩

def tryValues (values : List String) : Run PUnit := do
  let faults ← values.mapM (tryValue self)
  failWith (faults.findSome? id)

/-- What a rule with a condition does: it interpolates its query, evaluates the values of its tests once
each, and compiles its body. `again` is what is done with a media query before the body is compiled, when
the query is around already. -/
def conditionalEffect (again : Template → Run PUnit) (node : Statement) (level : Nat) : Run PUnit := do
  let parent := (← get).selector
  match node with
  | .media query body _ =>
    let written ← interpolate setup self query
    Run.withMedia written do
      again query
      effect (blockUnder self parent (level + 1) body)
  | .supports condition body _ =>
    let written ← interpolate setup self condition
    tryValues self (Conditional.testedValues written)
    effect (blockUnder self parent (level + 1) body)
  | .container query body _ =>
    let _ ← interpolate setup self query
    effect (blockUnder self parent (level + 1) body)
  | _ => return ⟨⟩

/-- Once a query is interpolated and around, it can be interpolated again, and that changes nothing. -/
def Repeats (query : Template) (before : Machine) : Prop :=
  ∀ written after, interpolate setup self query before = (.ok written, after) →
    ∃ again, interpolate setup self query { after with media := some written } =
      (.ok again, { after with media := some written })

def conditionalContext : Context Run := ⟨"conditional", Conditional.required, services setup self⟩

variable {setup self}

section Tests

/-- A piece without a test has no fault, and a test has the fault of its value. -/
theorem fault_evaluatePiece (progress : Conditional.Progress) (piece : Conditional.Piece) :
    Conditional.Progress.fault <$>
        Conditional.evaluatePiece (conditionalContext setup self) progress piece =
      match piece.tested? with
      | none => pure progress.fault
      | some written => progress.fault.or <$> tryValue self written := by
  cases piece with
  | text c => exact map_pure _ _
  | test property value =>
    let text (result : Value) : List Char :=
      let text := setup.format.value result
      if text.isEmpty then (Conditional.Piece.test property value).written
      else '(' :: property ++ ": ".toList ++ text.toList ++ [')']
    have evaluated (expr : Expr) :
        (conditionalContext setup self).evaluate expr = self (.evaluate expr false) := pure_bind _ _
    have formatted (result : Value) :
        (conditionalContext setup self).format result = pure (setup.format.value result) := pure_bind _ _
    have tried : Conditional.evaluatePiece (conditionalContext setup self) progress (.test property value) =
        tryCatch
          (do
            let result ← testValue self (String.ofList (Chars.trim value))
            return { progress with text := progress.text ++ text result })
          (progress.leave (.test property value)) := by
      simp only [Conditional.evaluatePiece, evaluated, formatted, pure_bind, testValue, bind_assoc, text]
    rw [tried]
    funext before
    simp only [Conditional.Piece.tested?, tryValue, map_eq_pure_bind, Run.bind_apply, Run.tryCatch_apply]
    rcases testValue self (String.ofList (Chars.trim value)) before with ⟨fault | result, after⟩
    · cases fault <;> rfl
    · change (Except.ok progress.fault, after) = (Except.ok (progress.fault.or none), after)
      rw [Option.or_none]

/-- The fault of a condition is the first one of its values. -/
theorem fault_evaluatePieces (setup : Setup) (self : Perform) (pieces : List Conditional.Piece)
    (progress : Conditional.Progress) :
    Conditional.Progress.fault <$>
        pieces.foldlM (Conditional.evaluatePiece (conditionalContext setup self)) progress =
      (fun faults => progress.fault.or (faults.findSome? id)) <$>
        (pieces.filterMap Conditional.Piece.tested?).mapM (tryValue self) := by
  induction pieces generalizing progress with
  | nil => simp
  | cons piece rest ih =>
    let behind := (rest.filterMap Conditional.Piece.tested?).mapM (tryValue self)
    calc
      _ = (Conditional.Progress.fault <$>
            Conditional.evaluatePiece (conditionalContext setup self) progress piece) >>= fun fault =>
              (fun faults => fault.or (faults.findSome? id)) <$> behind := by
        rw [List.foldlM_cons, map_bind, bind_map_left]
        exact bind_congr ih
      _ = _ := by
        rw [fault_evaluatePiece]
        cases tested : piece.tested? with
        | none =>
          rw [List.filterMap_cons_none tested]
          exact pure_bind _ _
        | some written =>
          have first (fault : Option Fault) (faults : List (Option Fault)) :
              (progress.fault.or fault).or (faults.findSome? id) =
                progress.fault.or ((fault :: faults).findSome? id) := by
            cases fault <;> simp
          rw [List.filterMap_cons_some tested, List.mapM_cons, bind_map_left]
          simp only [map_bind, map_pure, ← first]
          rfl

/-- The values of a condition are evaluated once each. -/
theorem effect_evaluateTests (condition : String) :
    effect (Conditional.evaluateTests (conditionalContext setup self) condition) =
      tryValues self (Conditional.testedValues condition) := by
  have fault := fault_evaluatePieces setup self (Conditional.piecesFrom 0 condition.toList) ⟨[], none⟩
  have failing (progress : Conditional.Progress) :
      effect (match progress.fault with
        | some (.evaluation fault) => throw (.evaluation fault)
        | some .exhausted => throw .exhausted
        | _ => return String.ofList progress.text) = failWith progress.fault := by
    unfold failWith
    split <;> rfl
  calc
    _ = Conditional.Progress.fault <$>
          (Conditional.piecesFrom 0 condition.toList).foldlM
            (Conditional.evaluatePiece (conditionalContext setup self)) ⟨[], none⟩ >>= failWith := by
      rw [Conditional.evaluateTests, Run.effect_bind, bind_map_left]
      exact bind_congr failing
    _ = _ := by
      rw [fault, bind_map_left]
      rfl

end Tests

theorem effect_finish (keyword condition : String) (body : List Statement) (parent : Option String)
    (level : Nat) (change : String → String) :
    effect (Conditional.finish (conditionalContext setup self) keyword condition body parent level change) =
      effect (blockUnder self parent (level + 1) body) := by
  have compiled : (conditionalContext setup self).compileBody body parent (level + 1) =
      blockUnder self parent (level + 1) body := pure_bind _ _
  rw [Conditional.finish, compiled, Run.effect_bind, effect]
  refine bind_congr fun compiled => ?_
  rw [Context.renderBody_eq rfl, pure_bind]
  dsimp only
  split <;> exact Run.effect_pure _

theorem atRule_conditional {node : Statement} {keyword : String} {query : Template} {body : List Statement}
    (parts : Conditional.parts? node = some (keyword, query, body))
    (handled : Strategy.find? setup.strategies keyword = some .conditional) (around : Option String)
    (level : Nat) :
    atRule setup self node around level =
      Conditional.compile (conditionalContext setup self) node around level := by
  have kind : node.kind? = some keyword := by
    cases node <;> simp_all [Conditional.parts?, Statement.kind?]
  rw [atRule, Strategy.dispatch, kind]
  dsimp only
  rw [handled]
  rfl

/-- The handler interpolates the query, evaluates the tests of `@supports`, and compiles the body. -/
theorem effect_atRule (self : Perform) {node : Statement} {keyword : String} {query : Template}
    {body : List Statement}
    (parts : Conditional.parts? node = some (keyword, query, body))
    (handled : Strategy.find? setup.strategies keyword = some .conditional) (parent : Option String)
    (level : Nat) :
    effect (atRule setup self node parent level) =
      (do
        let written ← interpolate setup self query
        if keyword = "supports" then tryValues self (Conditional.testedValues written) else pure ⟨⟩
        effect (blockUnder self parent (level + 1) body)) := by
  have interpolated : (conditionalContext setup self).interpolate query = interpolate setup self query :=
    pure_bind _ _
  rw [atRule_conditional parts handled, Conditional.compile, parts]
  dsimp only
  rw [interpolated, Run.effect_bind]
  refine bind_congr fun written => ?_
  split
  · rw [Run.effect_bind, ← effect_evaluateTests, effect, bind_assoc]
    refine bind_congr fun condition => ?_
    rw [pure_bind]
    exact effect_finish keyword condition body parent level fun rendered => rendered
  · rw [pure_bind]
    exact effect_finish keyword written body parent level SelectorList.split

/-- A media query is interpolated again when it is around. -/
theorem effect_styleStatement (self : Perform) {node : Statement} {keyword : String} {query : Template}
    {body : List Statement} (parts : Conditional.parts? node = some (keyword, query, body))
    (handled : Strategy.find? setup.strategies keyword = some .conditional) (level : Nat) :
    effect (styleStatement setup self node level) =
      conditionalEffect setup self (fun query => effect (interpolate setup self query)) node level := by
  funext before
  have compiled := effect_atRule self parts handled before.selector level
  rw [styleStatement, Run.effect_bind, conditionalEffect, Run.get_bind_apply, Run.get_bind_apply]
  cases node with
  | media query body line =>
    cases parts
    dsimp only
    rw [Run.effect_bind]
    refine congrFun (bind_congr fun written => ?_) before
    rw [Run.effect_map, Run.effect_withMedia, compiled, Run.effect_then]
    rfl
  | supports condition body line | container query body line =>
    cases parts
    dsimp only
    rw [Run.effect_map, compiled]
    rfl
  | _ => cases parts

/-- Interpolating a media query again goes unnoticed if it repeats. -/
theorem conditionalEffect_repeats {node : Statement} {level : Nat} {before : Machine}
    (repeats : ∀ query body line, node = .media query body line → Repeats setup self query before) :
    conditionalEffect setup self (fun query => effect (interpolate setup self query)) node level before =
      conditionalEffect setup self (fun _ => pure ⟨⟩) node level before := by
  rw [conditionalEffect, conditionalEffect, Run.get_bind_apply, Run.get_bind_apply]
  cases node with
  | media query body line =>
    dsimp only
    rw [Run.bind_apply, Run.bind_apply]
    rcases first : interpolate setup self query before with ⟨fault | written, after⟩
    · rfl
    · obtain ⟨again, second⟩ := repeats query body line rfl written after first
      dsimp only
      unfold Run.withMedia Run.enclosed
      dsimp only
      rw [Run.bind_apply, effect, Run.bind_apply, second]
      rfl
  | _ => rfl

section Repetition

theorem interpolate_still {template : Template}
    (each : ∀ expr ∈ template.embedded, Still (self (.evaluate expr false))) :
    Still (interpolate setup self template) := by
  refine .bind (.mapM fun part member => ?_) fun texts => .pure _
  cases part with
  | literal text => exact .pure text
  | expr expr =>
    have embedded : expr ∈ template.embedded := List.mem_filterMap.mpr ⟨_, member, rfl⟩
    refine (each expr embedded).bind fun value => ?_
    split <;> exact .pure _

theorem binary_still {op : BinaryOp} {left right : Expr}
    (first : ∀ divides, Still (self (.evaluate left divides)))
    (second : ∀ divides, Still (self (.evaluate right divides))) (divides : Bool) :
    Still (binary setup self op left right divides) := by
  unfold binary
  split
  · refine (first true).bind fun value => ?_
    split
    · exact second true
    · exact .pure value
  · refine (first true).bind fun value => ?_
    split
    · exact .pure value
    · exact second true
  · split
    · exact (first false).bind fun one => (second false).bind fun other => .pure _
    · exact (first true).bind fun one => (second true).bind fun other => .ofCause _

/-- Where nothing is called, an expression has the same value again. -/
theorem evaluate_still (setup : Setup) (depth : Nat) {expr : Expr} (free : expr.CallFree)
    (divides : Bool) : Still (perform setup depth (.evaluate expr divides)) := by
  induction depth generalizing expr divides with
  | zero => exact .throw _
  | succ depth ih =>
    obtain ⟨uncalled, inside⟩ := free
    have within (inner : Expr) (member : inner ∈ expr.operands) (divides : Bool) :
        Still (perform setup depth (.evaluate inner divides)) := ih (inside inner member) divides
    change Still (expression setup (perform setup depth) expr divides)
    cases expr with
    | number | identifier | boolean | null | important => exact .pure _
    | string value | interpolated value | url value =>
      exact (interpolate_still fun inner member => within inner member false).bind fun text => .pure _
    | hexColor text position =>
      unfold expression
      dsimp only
      split
      · exact .pure _
      · exact .throw _
    | namedColor name position =>
      unfold expression
      dsimp only
      split <;> exact .pure _
    | var name =>
      refine .look (fun machine => ?_) fun machine media => ?_
      · split
        · exact .pure _
        · exact .throw _
      · have found : { machine with media := media }.lookup? setup.registry name =
            machine.lookup? setup.registry name :=
          Machine.lookup?_congr (by rfl) (by rfl) (by rfl) setup.registry name
        rw [found]
    | member qualifier name =>
      refine .look (fun machine => .ofCause _) fun machine media => ?_
      have found : { machine with media := media }.qualifiedVariable setup.registry qualifier name =
          machine.qualifiedVariable setup.registry qualifier name :=
        Machine.qualifiedVariable_congr (by rfl) (by rfl) setup.registry qualifier name
      rw [found]
    | list items =>
      exact (Still.mapM fun item member => within item member false).bind fun values => .pure _
    | map pairs =>
      refine (Still.mapM fun pair member => ?_).bind fun entries => .pure _
      have operand (inner : Expr) (either : inner ∈ [pair.1, pair.2]) :=
        within inner (List.mem_flatMap.mpr ⟨pair, member, either⟩) false
      exact (operand pair.1 (by simp)).bind fun key =>
        (operand pair.2 (by simp)).bind fun value => .pure _
    | binary op left right =>
      exact binary_still (within left (by simp [Expr.operands])) (within right (by simp [Expr.operands]))
        divides
    | unary op operand =>
      exact (within operand (by simp [Expr.operands]) true).bind fun value => .pure _
    | paren inner => exact within inner (by simp [Expr.operands]) true
    | call qualifier name args line => exact absurd rfl (uncalled qualifier name args line)
    | parent => exact .look (fun machine => .pure _) fun _ _ => rfl

/-- A query in which nothing is called repeats in every state. -/
theorem repeats_of_callFree (setup : Setup) (depth : Nat) {query : Template}
    (free : ∀ expr ∈ query.embedded, expr.CallFree) (before : Machine) :
    Repeats setup (perform setup depth) query before := by
  intro written after first
  have still : Still (interpolate setup (perform setup depth) query) :=
    interpolate_still fun expr member => evaluate_still setup depth (free expr member) false
  obtain ⟨outcome, here, there⟩ := still before (some written)
  obtain ⟨rfl, rfl⟩ := Prod.mk.inj (here.symm.trans first)
  exact ⟨written, there⟩

end Repetition

/-- A rule with a condition interpolates its query, evaluates the values that `@supports` tests, and
compiles its body, each of them once. A media query is interpolated once more, with the state of the first
time and the query around. Where this repeats, it goes unnoticed. -/
theorem queries_interpolated_once (setup : Setup) (self : Perform) {node : Statement} {keyword : String}
    {query : Template} {body : List Statement}
    (parts : Conditional.parts? node = some (keyword, query, body))
    (handled : Strategy.find? setup.strategies keyword = some .conditional) (level : Nat) :
    effect (styleStatement setup self node level) =
      conditionalEffect setup self (fun query => effect (interpolate setup self query)) node level ∧
    ∀ before, (keyword = "media" → Repeats setup self query before) →
      effect (styleStatement setup self node level) before =
        conditionalEffect setup self (fun _ => pure ⟨⟩) node level before := by
  have twice := effect_styleStatement self parts handled level
  refine ⟨twice, fun before repeats => ?_⟩
  rw [twice]
  refine conditionalEffect_repeats ?_
  rintro own body line rfl
  cases parts
  exact repeats rfl

/-- A query with a variable, around a message. -/
theorem queries_interpolated_once_medium :
    let setup := (Compiler.create {} (Loader.memory [])).setup
    let query : Template := ⟨[.expr (.var "medium" 1), .literal " and (color)"], 1⟩
    let body : List Statement := [.message .debug (.var "medium" 2) 2]
    let before := (Machine.start "input.scss").setGlobal "medium" (.unquoted "print")
    let rule := effect (styleStatement setup (perform setup 9) (.media query body 1) 0)
    Strategy.find? setup.strategies "media" = some .conditional ∧
    Repeats setup (perform setup 9) query before ∧
    rule before =
      conditionalEffect setup (perform setup 9) (fun _ => pure ⟨⟩) (.media query body 1) 0 before ∧
    (rule before).2.log = [⟨.debug, "input.scss:2 DEBUG: print"⟩] := by
  intro setup query body before rule
  have handled : Strategy.find? setup.strategies "media" = some .conditional := by decide
  have free : ∀ expr ∈ query.embedded, expr.CallFree := by
    rintro expr member
    obtain rfl : expr = .var "medium" 1 := List.mem_singleton.mp member
    exact .intro nofun nofun
  have repeats := repeats_of_callFree setup 9 free before
  have parts : Conditional.parts? (.media query body 1) = some ("media", query, body) := rfl
  have once := (queries_interpolated_once setup (perform setup 9) parts handled 0).2 before fun _ => repeats
  exact ⟨handled, repeats, once, by decide +kernel⟩

/-- A function in a media query is called a second time, and says again what it has to say. -/
theorem media_query_interpolated_twice :
    let compiler := Compiler.create {} (Loader.memory [])
    let query : Template := ⟨[.expr (.call none "q" [] 2)], 2⟩
    let before := (Machine.start "input.scss").defineFunction "q" .none
      [.message .warn (.string (.literal "hi" 1) 1) 1, .returnValue (.identifier "print" ⟨1, 1⟩) 1]
    let rule := Statement.media query [] 2
    let hi : LogEntry := ⟨.warn, "input.scss:1 WARNING: hi"⟩
    (conditionalEffect compiler.setup (perform compiler.setup 9) (fun _ => pure ⟨⟩) rule 0 before).2.log =
      [hi] ∧
    (effect (styleStatement compiler.setup (perform compiler.setup 9) rule 0) before).2.log = [hi, hi] ∧
    (compiler.compile
        ⟨"input.scss", "@function q() \x7b @warn \"hi\"; @return print; \x7d\n" ++
          "@media #\x7bq()\x7d \x7b\n  a \x7b\n    b: c;\n  \x7d\n\x7d\n"⟩
        .scss).log =
      [hi, hi] := by
  decide +kernel

end Eval

end Scss
