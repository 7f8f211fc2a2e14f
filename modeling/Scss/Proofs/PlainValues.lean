import Scss.Proofs.Braces.Values
import Scss.Proofs.Logic.Statements
import Scss.Proofs.Run

/-! Expressions that stand for their own text. They are built from words, strings, numbers, urls and calls
of the browser's functions, and no variable, operator or function of the language is in them; so they
have the same text in every state, and evaluating them changes nothing. -/
namespace Scss

/-- The text that an expression stands for, if nothing in it has to be computed. The functions of `browser`
are left to the browser, and the expression is nested at most so deep. -/
def Expr.plainText? (format : Format) (browser : List String) : Nat → Expr → Option String
  | 0, _ => none
  | depth + 1, expr =>
    let inside := plainText? format browser depth
    match expr with
    | .number value unit _ => some (format.number (.ofUnit value (unit.getD "")))
    | .string value _ => value.plain?.map quoteText
    | .identifier name _ | .namedColor name _ => some name
    | .boolean value _ => some (if value then "true" else "false")
    | .url value _ => value.plain?.map fun text => "url(" ++ text ++ ")"
    | .important _ => some "!important"
    | .list items separator bracketed _ => do
      let texts ← items.mapM inside
      some (Format.bracket bracketed (Text.join (format.separator separator)
        (texts.filter fun text => !text.isEmpty)))
    | .map [(key, value)] _ => do
      let key ← inside key
      let value ← inside value
      some ("(" ++ key ++ ": " ++ value ++ ")")
    | .binary .div left right _ =>
      if left.isCalculated || right.isCalculated then none
      else do
        let left ← inside left
        let right ← inside right
        some (left ++ "/" ++ right)
    | .call none name args _ =>
      if name ∈ browser ∧ depth ≠ 0 ∧ args.all (fun arg => arg.name.isNone && !arg.rest) then do
        let texts ← args.mapM fun arg => inside arg.value
        some (name ++ "(" ++ Text.join ", " texts ++ ")")
      else none
    | _ => none

namespace Eval

/-- Nothing but the browser has a function of this name. -/
structure LeftToBrowser (setup : Setup) (machine : Machine) (name : String) : Prop where
  ordinary : name ≠ "if" ∧ name ≠ "calc"
  undefined : machine.function? setup.registry none name = .ok none
  unlooked : setup.registry.isIntrinsic none (normalizeName name) = false
  unadded : setup.callbacks.get? (normalizeName name) = none
  unknown : setup.registry.find? none name = none

/-- An expression has a value of this text, and the state stays as it is. -/
def Shows (setup : Setup) (machine : Machine) (action : Run Value) (text : String) : Prop :=
  ∃ value, action machine = (.ok value, machine) ∧ setup.format.value value = text

section Shows

variable {setup : Setup} {machine : Machine} {self : Perform} {text : String}

theorem shows_pure (value : Value) : Shows setup machine (pure value) (setup.format.value value) :=
  ⟨value, rfl, rfl⟩

theorem mapM_shows {items : List Expr} {action : Expr → Run Value} {show? : Expr → Option String}
    {texts : List String} (found : items.mapM show? = some texts)
    (each : ∀ item text, show? item = some text → Shows setup machine (action item) text) :
    ∃ values, items.mapM action machine = (.ok values, machine) ∧
      values.map setup.format.value = texts := by
  induction items generalizing texts with
  | nil =>
    cases found
    exact ⟨[], rfl, rfl⟩
  | cons item rest ih =>
    rw [List.mapM_cons] at found ⊢
    obtain ⟨first, shown, found⟩ := Option.bind_eq_some_iff.mp found
    obtain ⟨others, behind, found⟩ := Option.bind_eq_some_iff.mp found
    cases found
    obtain ⟨value, valued, rfl⟩ := each item first shown
    obtain ⟨values, evaluated, rfl⟩ := ih behind
    refine ⟨value :: values, ?_, rfl⟩
    rw [Run.bind_apply, valued]
    dsimp only
    rw [Run.bind_apply, evaluated]
    rfl

theorem shows_list {items : List Expr} {show? : Expr → Option String} {texts : List String}
    (found : items.mapM show? = some texts)
    (each : ∀ item text, show? item = some text → Shows setup machine (self (.evaluate item false)) text)
    (separator : Separator) (bracketed : Bool) :
    Shows setup machine
      (do return .list (← items.mapM fun item => self (.evaluate item false)) separator bracketed)
      (Format.bracket bracketed (Text.join (setup.format.separator separator)
        (texts.filter fun text => !text.isEmpty))) := by
  obtain ⟨values, evaluated, rfl⟩ := mapM_shows found each
  refine ⟨.list values separator bracketed, ?_, ?_⟩
  · rw [Run.bind_apply, evaluated]
    rfl
  · rw [Format.value, Format.values_eq]

theorem shows_pair {key value : Expr} {first second : String}
    (left : Shows setup machine (self (.evaluate key false)) first)
    (right : Shows setup machine (self (.evaluate value false)) second) (line : Nat) :
    Shows setup machine (expression setup self (.map [(key, value)] line) false)
      ("(" ++ first ++ ": " ++ second ++ ")") := by
  obtain ⟨own, evaluated, rfl⟩ := left
  obtain ⟨other, valued, rfl⟩ := right
  refine ⟨.map [(own, other)], ?_, ?_⟩
  · simp only [expression, List.mapM_cons, List.mapM_nil, Run.bind_apply, evaluated, valued]
    rfl
  · simp [Format.value, Format.pairs, Text.join, String.append_assoc]
    rfl

/-- A slash between two expressions that are not computed stays. -/
theorem shows_slash {left right : Expr} {first second : String}
    (literal : ¬ (left.isCalculated || right.isCalculated) = true)
    (before : Shows setup machine (self (.evaluate left false)) first)
    (behind : Shows setup machine (self (.evaluate right false)) second) :
    Shows setup machine (binary setup self .div left right false) (first ++ "/" ++ second) := by
  obtain ⟨own, evaluated, rfl⟩ := before
  obtain ⟨other, valued, rfl⟩ := behind
  simp only [Bool.or_eq_true, not_or, Bool.not_eq_true] at literal
  refine ⟨Operator.joined setup.format .div own other, ?_, rfl⟩
  simp only [binary, literal, Bool.not_false, Bool.and_self, decide_true, if_true, Run.bind_apply, evaluated,
    valued]
  rfl

theorem foldlM_shows {args : List (Argument Expr)} {step : CallArgs → Argument Expr → Run CallArgs}
    {show? : Argument Expr → Option String} {texts : List String} (found : args.mapM show? = some texts)
    (each : ∀ arg ∈ args, ∀ text, show? arg = some text → ∃ value, setup.format.value value = text ∧
      ∀ done, step ⟨done, []⟩ arg machine = (.ok ⟨done ++ [value], []⟩, machine)) (done : List Value) :
    ∃ values, args.foldlM step ⟨done, []⟩ machine = (.ok ⟨done ++ values, []⟩, machine) ∧
      values.map setup.format.value = texts := by
  induction args generalizing texts done with
  | nil =>
    cases found
    exact ⟨[], by rw [List.append_nil]; rfl, rfl⟩
  | cons arg rest ih =>
    obtain ⟨own, others⟩ := List.forall_mem_cons.mp each
    rw [List.mapM_cons] at found
    obtain ⟨first, shown, found⟩ := Option.bind_eq_some_iff.mp found
    obtain ⟨later, behind, found⟩ := Option.bind_eq_some_iff.mp found
    cases found
    obtain ⟨value, rfl, stepped⟩ := own first shown
    obtain ⟨values, folded, rfl⟩ := ih behind others (done ++ [value])
    refine ⟨value :: values, ?_, rfl⟩
    rw [List.foldlM_cons, Run.bind_apply, stepped]
    dsimp only
    rw [folded, List.append_assoc, List.singleton_append]

/-- Arguments by place are evaluated one behind the other. -/
theorem arguments_plain {args : List (Argument Expr)} {show? : Expr → Option String} {texts : List String}
    (placed : args.all (fun arg => arg.name.isNone && !arg.rest) = true)
    (found : args.mapM (fun arg => show? arg.value) = some texts)
    (each : ∀ item text, show? item = some text → Shows setup machine (self (.evaluate item false)) text) :
    ∃ values, arguments self args machine = (.ok ⟨values, []⟩, machine) ∧
      values.map setup.format.value = texts := by
  refine foldlM_shows found (fun arg member text shown => ?_) []
  obtain ⟨value, evaluated, same⟩ := each arg.value text shown
  obtain ⟨unnamed, single⟩ : arg.name = none ∧ arg.rest = false := by
    simpa using List.all_eq_true.mp placed arg member
  refine ⟨value, same, fun done => ?_⟩
  rw [Run.bind_apply]
  dsimp only
  rw [evaluated, single, unnamed]
  rfl

theorem invoke_browser {name : String} (left : LeftToBrowser setup machine name) (args : CallArgs) :
    invoke setup self none name args machine = (.ok (.unquoted (browserCall setup name args)), machine) := by
  rw [invoke, Run.get_bind_apply, left.undefined]
  change callGlobal setup self name args machine = _
  rw [callGlobal, Registry.call?, left.unlooked, left.unadded, left.unknown]
  rfl

/-- A call that is left to the browser is written out again. -/
theorem shows_call {name : String} (left : LeftToBrowser setup machine name) {args : List (Argument Expr)}
    {show? : Expr → Option String} {texts : List String}
    (placed : args.all (fun arg => arg.name.isNone && !arg.rest) = true)
    (found : args.mapM (fun arg => show? arg.value) = some texts)
    (each : ∀ item text, show? item = some text → Shows setup machine (self (.evaluate item false)) text)
    (browsed : ∀ args, self (.call none name args) machine =
      (.ok (.unquoted (browserCall setup name args)), machine)) :
    Shows setup machine (call self none name args) (name ++ "(" ++ Text.join ", " texts ++ ")") := by
  obtain ⟨values, evaluated, rfl⟩ := arguments_plain placed found each
  refine ⟨.unquoted (browserCall setup name ⟨values, []⟩), ?_, ?_⟩
  · have direct : call self none name args = (do self (.call none name (← arguments self args))) := by
      unfold call
      split
      · exact absurd rfl left.ordinary.1
      · exact absurd rfl left.ordinary.2
      · rfl
    rw [direct, Run.bind_apply, evaluated]
    exact browsed _
  · rw [Value.unquoted, Format.value, browserCall]
    simp

end Shows

/-- An expression that stands for its own text has that text, in every state in which the functions that it
calls are left to the browser. The induction is on the depth, which is the one of the jobs. -/
theorem evaluate_plain {setup : Setup} {machine : Machine} {browser : List String}
    (left : ∀ name ∈ browser, LeftToBrowser setup machine name) {nesting depth : Nat}
    (deep : nesting ≤ depth) {expr : Expr} {text : String}
    (plain : expr.plainText? setup.format browser nesting = some text) :
    Shows setup machine (perform setup depth (.evaluate expr false)) text := by
  induction nesting generalizing depth expr text with
  | zero => cases plain
  | succ nesting ih =>
    obtain ⟨depth, rfl⟩ : ∃ inner, depth = inner + 1 := ⟨depth - 1, by omega⟩
    have each (expr : Expr) (text : String)
        (plain : expr.plainText? setup.format browser nesting = some text) :
        Shows setup machine (perform setup depth (.evaluate expr false)) text :=
      ih (Nat.le_of_succ_le_succ deep) plain
    rw [perform, step]
    cases expr with
    | number value unit place =>
      cases plain
      exact shows_pure (.number (.ofUnit value (unit.getD "")))
    | string template line =>
      obtain ⟨content, whole, rfl⟩ := Option.map_eq_some_iff.mp plain
      rw [expression, interpolate_plain _ _ whole, pure_bind]
      exact shows_pure (.quoted content)
    | identifier name place =>
      obtain rfl : name = text := Option.some.inj plain
      exact shows_pure (.unquoted name)
    | namedColor name place =>
      obtain rfl : name = text := Option.some.inj plain
      rw [expression]
      cases named : Rgba.named? name with
      | none => exact shows_pure (.unquoted name)
      | some rgba => exact shows_pure (.color (.literal rgba name))
    | boolean value line =>
      cases plain
      exact shows_pure (.bool value)
    | url template line =>
      obtain ⟨content, whole, rfl⟩ := Option.map_eq_some_iff.mp plain
      rw [expression, interpolate_plain _ _ whole, pure_bind]
      exact shows_pure (.unquoted ("url(" ++ content ++ ")"))
    | important line =>
      cases plain
      exact shows_pure (.unquoted "!important")
    | list items separator bracketed line =>
      obtain ⟨texts, found, shown⟩ := Option.bind_eq_some_iff.mp plain
      cases shown
      exact shows_list found each separator bracketed
    | map pairs line =>
      obtain _ | ⟨⟨key, value⟩, _ | _⟩ := pairs
      · cases plain
      · obtain ⟨first, before, plain⟩ := Option.bind_eq_some_iff.mp plain
        obtain ⟨second, behind, plain⟩ := Option.bind_eq_some_iff.mp plain
        cases plain
        exact shows_pair (each _ _ before) (each _ _ behind) line
      · cases plain
    | binary op before behind line =>
      cases op with
      | div =>
        rw [Expr.plainText?] at plain
        split at plain
        · cases plain
        rename_i literal
        obtain ⟨first, own, plain⟩ := Option.bind_eq_some_iff.mp plain
        obtain ⟨second, other, plain⟩ := Option.bind_eq_some_iff.mp plain
        cases plain
        exact shows_slash literal (each _ _ own) (each _ _ other)
      | _ => cases plain
    | call qualifier name args line =>
      cases qualifier with
      | some qualifier => cases plain
      | none =>
        rw [Expr.plainText?] at plain
        split at plain
        · rename_i browsed
          obtain ⟨member, deeper, placed⟩ := browsed
          obtain ⟨texts, found, plain⟩ := Option.bind_eq_some_iff.mp plain
          cases plain
          obtain ⟨inner, rfl⟩ : ∃ inner, depth = inner + 1 := ⟨depth - 1, by omega⟩
          exact shows_call (left name member) placed found each fun args => by
            rw [perform, step]
            exact invoke_browser (left name member) args
        · cases plain
    | null | interpolated | hexColor | var | member | unary | paren | parent => cases plain

end Eval

end Scss
