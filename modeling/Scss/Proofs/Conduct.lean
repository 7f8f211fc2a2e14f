import Scss.Proofs.Grammar.Lines
import Scss.Proofs.Logic.Statements
import Scss.Proofs.Parts

/-! Runs that go by a conduct. A conduct has roles, and says for each of them which statements are run
and in which states; what runs in a place of its own may have a role of its own there. It also says
which faults may come out. A conduct that is kept by every change and in every place is kept by every
job, whether it succeeds or fails.

The statement is about two performances at once, which do the same as long as the conduct is kept. One
that stops at the first state outside of the conduct therefore never stops. -/
namespace Scss

open Machine (Change Moves Place)

/-- What runs go by. What a role admits of a statement it admits of those that run in its place, and a
fault without a name may always come out. -/
structure Conduct (Role : Type) where
  admits : Role → Statement → Prop
  good : Role → Realm → Machine → Prop
  fine : Fault → Prop
  within : ∀ {role node}, admits role node → ∀ inner ∈ node.within, admits role inner
  bare : ∀ {fault : Fault}, fault.Bare → fine fault

namespace Conduct

variable {Role : Type} (conduct : Conduct Role)

/-- What is asked in a role. -/
def regime (role : Role) : Eval.Regime :=
  ⟨conduct.admits role, conduct.fine, True, conduct.within, conduct.bare⟩

/-- A place starts in a good state for the role inside, and every good end leads to a good state for
the role outside. -/
structure Passage (setup : Setup) (role : Role) (realm : Realm) (inside : Role) (inner : Realm)
    (start : Machine) (exit : Machine → Machine → Prop) : Prop where
  enter : conduct.good inside inner start
  leave : ∀ {after next}, Moves setup inner start after → conduct.good inside inner after →
    exit after next → conduct.good role realm next

/-- What changes, and places that include nothing, keep. -/
structure Kept (setup : Setup) (right : Perform) : Prop where
  value : ∀ {role realm machine}, conduct.good role realm machine → conduct.good role .value machine
  behind : ∀ {role realm machine after}, Moves setup .value machine after →
    conduct.good role realm machine → conduct.good role .value after → conduct.good role realm after
  located : ∀ {role mode node before after fault}, conduct.admits role node →
    conduct.good role mode.realm before →
    Eval.execute setup right mode node before = (.error fault, after) →
    Moves setup mode.realm before after → conduct.fine fault →
    conduct.fine (fault.locate after.file node.line)
  raised : ∀ {role expr line before} (mode : Mode), conduct.admits role (.message .error expr line) →
    conduct.good role mode.realm before → ∀ text,
    conduct.fine ((Fault.because (.raised text)).locate before.file line)
  unhandled : ∀ {kind}, Strategy.find? setup.strategies kind = none →
    conduct.fine (.configuration (.noStrategy kind))
  change : ∀ {role realm machine next}, Change realm machine next →
    next.definitions = machine.definitions → conduct.good role realm machine →
    conduct.good role realm next
  defineFunction : ∀ {role name params body line machine},
    conduct.admits role (.functionDef name params body line) → conduct.good role .style machine →
    conduct.good role .style (machine.defineFunction name params body)
  defineMixin : ∀ {role node body machine}, conduct.admits role node → node.mixin? = some body →
    conduct.good role .style machine → ∀ name params,
    conduct.good role .style (machine.defineMixin name params body)
  use : ∀ {role machine module_}, machine.Offers module_ → conduct.good role .style machine →
    ∀ name, conduct.good role .style (machine.useAs name module_)
  forward : ∀ {role url affix filter line machine module_},
    conduct.admits role (.forwardModule url affix filter line) → machine.Offers module_ →
    conduct.good role .style machine →
    conduct.good role .style (machine.passOn ⟨module_, affix, filter⟩)
  frame : ∀ {role machine} (mode : Mode) (semiGlobal : Bool), conduct.good role mode.realm machine →
    conduct.Passage setup role mode.realm role mode.realm
      { machine with frames := .fresh semiGlobal :: machine.frames }
      fun after next => next = { after with frames := after.frames.tail }
  outside : ∀ {role machine}, conduct.good role .style machine →
    conduct.Passage setup role .style role .style { machine with selector := none }
      fun after next => next = { after with selector := machine.selector }
  function : ∀ {role realm machine qualifier name function},
    machine.function? setup.registry qualifier name = .ok (some (.user function)) →
    conduct.good role realm machine →
    ∃ inside, (∀ node ∈ function.body, conduct.admits inside node) ∧
      conduct.Passage setup role realm inside .function
        { machine with env := function.env, frames := [.fresh false] }
        fun after next => next = { after with env := machine.env, frames := machine.frames }
  module : ∀ {role node url machine sheet nodes configured}, conduct.admits role node →
    url ∈ node.urls → Eval.findSheet setup.loader machine.file url = .ok sheet →
    machine.modules.get? sheet.path = none → sheet.path ∉ machine.loading →
    Eval.statementsOf sheet = .ok nodes → conduct.good role .style machine →
    ∃ inside, (∀ node ∈ nodes, conduct.admits inside node) ∧ ∀ complete : Bool,
      conduct.Passage setup role .style inside .style (machine.enterModule sheet.path configured)
        fun after next => next =
          if complete then (machine.leaveModule after).learn sheet.path machine.environments.size
          else machine.leaveModule after
  file : ∀ {role urls line url machine sheet nodes},
    conduct.admits role (.importSheets urls line) → url ∈ urls →
    Eval.findSheet setup.loader machine.file url = .ok sheet → sheet.path ∉ machine.loading →
    Eval.statementsOf sheet = .ok nodes → conduct.good role .style machine →
    ∃ inside, (∀ node ∈ nodes, conduct.admits inside node) ∧
      conduct.Passage setup role .style inside .style
        { machine with file := sheet.path, loading := sheet.path :: machine.loading }
        fun after next => next = { after with file := machine.file, loading := after.loading.tail }

end Conduct

namespace Run

/-- What a computation comes to is led to by the machine's moves: a good state, and a fine fault if it
is one. -/
structure EndsWell (setup : Setup) (fine : Fault → Prop) (good : Machine → Prop) (realm : Realm)
    (before : Machine) {α : Type} (outcome : Except Fault α × Machine) : Prop where
  moves : Moves setup realm before outcome.2
  good : good outcome.2
  fine : ∀ fault, outcome.1 = .error fault → fine fault

/-- From a state, two computations do the same, and end well. -/
structure ObeysAt (setup : Setup) (fine : Fault → Prop) (good : Machine → Prop) (realm : Realm)
    {α : Type} (action other : Run α) (before : Machine) : Prop where
  same : action before = other before
  ends : EndsWell setup fine good realm before (other before)

/-- From all good states, two computations do the same, and keep to a conduct. -/
def Obeys {Role : Type} (setup : Setup) (conduct : Conduct Role) (role : Role) : Run.Relation :=
  fun realm _ action other => ∀ before, conduct.good role realm before →
    ObeysAt setup conduct.fine (conduct.good role realm) realm action other before

variable {setup : Setup} {fine : Fault → Prop} {good : Machine → Prop} {realm inner : Realm}
  {α β : Type} {before middle after : Machine} {action other : Run α}

namespace EndsWell

theorem ok (value : α) (moves : Moves setup realm before after) (holds : good after) :
    EndsWell setup fine good realm before (.ok value, after) :=
  ⟨moves, holds, nofun⟩

theorem error {fault : Fault} (named : fine fault) (moves : Moves setup realm before after)
    (holds : good after) :
    EndsWell setup fine good realm before ((.error fault, after) : Except Fault α × Machine) := by
  refine ⟨moves, holds, fun other same => ?_⟩
  obtain rfl : fault = other := Except.error.inj same
  exact named

theorem trans {outcome : Except Fault α × Machine} (moves : Moves setup realm before middle)
    (rest : EndsWell setup fine good realm middle outcome) :
    EndsWell setup fine good realm before outcome :=
  ⟨moves.trans rest.moves, rest.good, rest.fine⟩

end EndsWell

namespace ObeysAt

theorem of_eq {outcome : Except Fault α × Machine} (same : action before = outcome)
    (agree : other before = outcome) (ends : EndsWell setup fine good realm before outcome) :
    ObeysAt setup fine good realm action other before :=
  ⟨same.trans agree.symm, agree ▸ ends⟩

theorem pure (value : α) (holds : good before) :
    ObeysAt setup fine good realm (Pure.pure value) (Pure.pure value) before :=
  ⟨rfl, .ok value (.refl realm before) holds⟩

theorem throw {fault : Fault} (named : fine fault) (holds : good before) :
    ObeysAt setup fine good realm (MonadExcept.throw fault : Run α) (MonadExcept.throw fault)
      before :=
  ⟨rfl, .error named (.refl realm before) holds⟩

theorem look {next nextOther : Machine → Run α}
    (second : ObeysAt setup fine good realm (next before) (nextOther before) before) :
    ObeysAt setup fine good realm (MonadState.get >>= next) (MonadState.get >>= nextOther) before :=
  ⟨second.same, second.ends⟩

theorem bind {next nextOther : α → Run β}
    (first : ObeysAt setup fine good realm action other before)
    (second : ∀ value after, other before = (.ok value, after) → good after →
      ObeysAt setup fine good realm (next value) (nextOther value) after) :
    ObeysAt setup fine good realm (action >>= next) (other >>= nextOther) before := by
  obtain ⟨same, moves, holds, named⟩ := first
  cases outcome : other before with
  | mk result after =>
    rw [outcome] at moves holds named
    cases result with
    | error fault =>
      refine .of_eq ?_ ?_ (.error (named fault rfl) moves holds)
      · rw [bind_apply, same, outcome]
      · rw [bind_apply, outcome]
    | ok value =>
      obtain ⟨agree, rest⟩ := second value after outcome holds
      refine .of_eq ?_ ?_ (.trans moves rest)
      · rw [bind_apply, same, outcome]
        exact agree
      · rw [bind_apply, outcome]

theorem tryCatch {handler handlerOther : Fault → Run α}
    (first : ObeysAt setup fine good realm action other before)
    (second : ∀ fault after, fine fault → good after →
      ObeysAt setup fine good realm (handler fault) (handlerOther fault) after) :
    ObeysAt setup fine good realm (MonadExcept.tryCatch action handler)
      (MonadExcept.tryCatch other handlerOther) before := by
  obtain ⟨same, moves, holds, named⟩ := first
  cases outcome : other before with
  | mk result after =>
    rw [outcome] at moves holds named
    cases result with
    | ok value =>
      refine .of_eq ?_ ?_ (.ok value moves holds)
      · rw [tryCatch_apply, same, outcome]
      · rw [tryCatch_apply, outcome]
    | error fault =>
      obtain ⟨agree, rest⟩ := second fault after (named fault rfl) holds
      refine .of_eq ?_ ?_ (.trans moves rest)
      · rw [tryCatch_apply, same, outcome]
        exact agree
      · rw [tryCatch_apply, outcome]

theorem located {line : Nat} (inside : ObeysAt setup fine good realm action other before)
    (named : ∀ fault after, other before = (.error fault, after) → Moves setup realm before after →
      fine fault → fine (fault.locate after.file line)) :
    ObeysAt setup fine good realm (Run.located line action) (Run.located line other) before := by
  obtain ⟨same, moves, holds, calm⟩ := inside
  cases outcome : other before with
  | mk result after =>
    rw [outcome] at moves holds calm
    cases result with
    | ok value =>
      refine .of_eq ?_ ?_ (.ok value moves holds)
      · simp only [Run.located, same, outcome]
      · simp only [Run.located, outcome]
    | error fault =>
      refine .of_eq ?_ ?_ (.error (named fault after outcome moves (calm fault rfl)) moves holds)
      · simp only [Run.located, same, outcome]
      · simp only [Run.located, outcome]

theorem enclosed {inside : Machine → Prop} {enter : Machine → Machine}
    {leave : Machine → Machine → Machine} {exit : Machine → Machine → Prop}
    (place : Place setup realm before inner (enter before) exit)
    (obeys : ObeysAt setup fine inside inner action other (enter before))
    (left : exit (other (enter before)).2 (leave before (other (enter before)).2))
    (back : ∀ {after next}, Moves setup inner (enter before) after → inside after →
      exit after next → good next) :
    ObeysAt setup fine good realm (Run.enclosed enter leave action) (Run.enclosed enter leave other)
      before := by
  obtain ⟨same, moves, holds, calm⟩ := obeys
  refine ⟨?_, .place place moves left, back moves holds left, calm⟩
  simp only [Run.enclosed, same]

end ObeysAt

end Run

namespace Conduct

open Run (Obeys ObeysAt)

variable {Role : Type} {conduct : Conduct Role} {setup : Setup} {left right : Perform} {role : Role}
  {realm : Realm} {α : Type} {before : Machine} {action other : Run α}

/-- A value is computed in any realm. -/
theorem Kept.ofValue (kept : conduct.Kept setup right) (holds : conduct.good role realm before)
    (inside : Obeys setup conduct role .value action other) :
    ObeysAt setup conduct.fine (conduct.good role realm) realm action other before := by
  obtain ⟨same, moves, good, calm⟩ := inside before (kept.value holds)
  exact ⟨same, moves.ofValue realm, kept.behind moves holds good, calm⟩

theorem Kept.assignQualified (kept : conduct.Kept setup right) (mode : Mode)
    (qualifier name : String) (value : Value) :
    Obeys setup conduct role mode.realm
      (do MonadState.set (← Run.ofCause ((← MonadState.get).assignQualified qualifier name value)))
      (do MonadState.set (← Run.ofCause ((← MonadState.get).assignQualified qualifier name value))) := by
  intro before holds
  refine .look ?_
  cases assigned : before.assignQualified qualifier name value with
  | error cause => exact .throw (conduct.bare rfl) holds
  | ok after =>
    have change : Change mode.realm before after := .assignQualified mode assigned
    obtain ⟨id, -, rfl⟩ := Machine.assignQualified_cases assigned
    have same := (before.steady_setVariable id (normalizeName name) value).definitions
    exact ⟨rfl, .ok _ (.change change) (kept.change change same holds)⟩

/-- Keeping to a conduct goes along with the evaluator's ways. -/
theorem Kept.logic (kept : conduct.Kept setup right)
    (inner : ∀ {α : Type} (job : Job α), (conduct.regime role).Fits job →
      Obeys setup conduct role job.realm (left job) (right job)) :
    Eval.Logic setup (conduct.regime role) left right (Obeys setup conduct role) where
  pure value _ holds := .pure value holds
  throw named _ holds := .throw named holds
  bind first second before holds :=
    (first before holds).bind fun value after _ kept => second value after kept
  tryCatch first second before holds :=
    (first before holds).tryCatch fun fault after named kept => second fault named after kept
  located _ _ _ admitted inside before holds :=
    (inside before holds).located fun _ _ failed moves named =>
      kept.located admitted holds failed moves named
  raise mode _ _ admitted text _ holds := .look (.throw (kept.raised mode admitted holds text) holds)
  value inside _ holds := kept.ofValue holds inside
  look _ second before holds := .look (second before before holds)
  change moves _ same _ before holds :=
    ⟨rfl, .ok _ (.change (moves before)) (kept.change (moves before) (same before) holds)⟩
  assignQualified := kept.assignQualified
  hoist css before holds :=
    have change := .hoist before css
    ⟨rfl, .ok _ (.change change) (kept.change change rfl holds)⟩
  withFrame mode semiGlobal _ _ _ inside before holds := by
    have passage := kept.frame mode semiGlobal holds
    exact .enclosed (.frame mode before semiGlobal) (inside _ passage.enter) rfl passage.leave
  withoutSelector inside before holds := by
    have passage := kept.outside holds
    exact .enclosed (.selector before none) (inside _ passage.enter) rfl passage.leave
  job := inner
  unhandled := kept.unhandled

/-- Good states are kept in the body of a mixin; and where a block that waits is run from a good state,
the two performances do the same and end well. -/
structure Served (conduct : Conduct Role) (setup : Setup) (left right : Perform) : Prop extends
    conduct.Kept setup right where
  mixin : ∀ {role machine qualifier name args content line mixin},
    conduct.admits role (.includeMixin qualifier name args content line) →
    machine.mixin? qualifier name = .ok (some mixin) → conduct.good role .style machine →
    ∃ inside, (∀ node ∈ mixin.body, conduct.admits inside node) ∧
      conduct.Passage setup role .style inside .style (machine.enterMixin mixin.env content)
        fun after next => next = machine.leaveMixin after
  content : ∀ {role args line machine content outer block} values level,
    conduct.admits role (.contentSlot args line) → machine.contents = content :: outer →
    content.block = some block → conduct.good role .style machine →
    ∃ inside : Machine → Prop,
      ObeysAt setup conduct.fine inside .style (Eval.runBlock left block values level)
        (Eval.runBlock right block values level) (machine.enterContent content outer) ∧
      ∀ {after}, Moves setup .style (machine.enterContent content outer) after → inside after →
        conduct.good role .style (machine.leaveContent content after)

/-- What is admitted of a rule is admitted of its block, and rules are kept to anywhere. -/
structure Open (conduct : Conduct Role) (setup : Setup) : Prop where
  inside : ∀ {role node body}, conduct.admits role node → node.block? = some body →
    ∀ inner ∈ body, conduct.admits role inner
  selector : ∀ {role machine} (selector : Option String), conduct.good role .style machine →
    conduct.Passage setup role .style role .style { machine with selector := selector }
      fun after next => next = { after with selector := machine.selector }
  media : ∀ {role machine} (query : String), conduct.good role .style machine →
    conduct.Passage setup role .style role .style { machine with media := some query }
      fun after next => next = { after with media := machine.media }

end Conduct

namespace Eval

open Run (Obeys ObeysAt EndsWell)

variable {Role : Type} {conduct : Conduct Role} {setup : Setup} {left right : Perform}

section Parts

variable (kept : conduct.Kept setup right)
  (inner : ∀ (role : Role) {α : Type} (job : Job α), (conduct.regime role).Fits job →
    Obeys setup conduct role job.realm (left job) (right job))
  {role : Role}

include kept inner

theorem invoke_obeys (qualifier : Option String) (name : String) (args : CallArgs) :
    Obeys setup conduct role .value (invoke setup left qualifier name args)
      (invoke setup right qualifier name args) := by
  have logic (role : Role) := kept.logic (inner role)
  intro before holds
  refine .look ?_
  cases found : before.function? setup.registry qualifier name with
  | error cause => exact .throw (conduct.bare rfl) holds
  | ok target =>
    refine ObeysAt.bind (.pure target holds) fun value after outcome _ => ?_
    cases outcome
    cases target with
    | none =>
      cases qualifier with
      | some qualifier => exact .throw (conduct.bare rfl) holds
      | none => exact callGlobal_related (logic role) name args before holds
    | some target =>
      cases target with
      | builtin library => exact callModule_related (logic role) library name args before holds
      | user function =>
        obtain ⟨inside, admitted, passage⟩ := kept.function found holds
        have body := runFunction_related (logic inside) function admitted args _ passage.enter
        have called : ObeysAt setup conduct.fine (conduct.good role .value) .value
            (Run.inFunction function.env _) (Run.inFunction function.env _) before :=
          .enclosed (.function .value found) body rfl passage.leave
        refine called.bind fun outcome after _ holds => ?_
        split
        · exact .pure _ holds
        · exact .throw (conduct.bare rfl) holds

/-- A module that is not known yet is loaded in a place of its own. -/
theorem compileModule_obeysAt {node : Statement} {url : String} {sheet : LoadedFile}
    {before : Machine} (admitted : conduct.admits role node) (named : url ∈ node.urls)
    (holds : conduct.good role .style before)
    (found : findSheet setup.loader before.file url = .ok sheet)
    (unknown : before.modules.get? sheet.path = none) (configured : Bindings Value) :
    ObeysAt setup conduct.fine (conduct.good role .style) .style
      (compileModule left sheet configured) (compileModule right sheet configured) before := by
  by_cases opened : sheet.path ∈ before.loading
  · exact .of_eq (compileModule_opened left opened configured)
      (compileModule_opened right opened configured) (.error (conduct.bare rfl) (.refl _ before) holds)
  cases parsed : statementsOf sheet with
  | error fault =>
    have textual := (Grammar.sound_stylesheet _).textual parsed
    exact .of_eq (compileModule_unreadable left opened parsed configured)
      (compileModule_unreadable right opened parsed configured)
      (.error (conduct.bare textual.bare) (.refl _ before) holds)
  | ok nodes =>
    have place (complete : Bool) : Place setup .style before .style _ _ :=
      .module found unknown opened configured complete
    obtain ⟨inside, admitted, passage⟩ := kept.module admitted named found unknown opened parsed holds
    obtain ⟨same, moves, good, calm⟩ :=
      chunks_related (kept.logic (inner inside)) admitted _ (passage true).enter
    have runsLeft := compileModule_apply left opened parsed configured
    have runsRight := compileModule_apply right opened parsed configured
    rw [same] at runsLeft
    cases outcome : chunks right nodes (before.enterModule sheet.path configured) with
    | mk result after =>
      rw [outcome] at moves good calm runsLeft runsRight
      cases result with
      | error fault =>
        refine .of_eq runsLeft runsRight (.error (calm fault rfl) (.place (place false) moves rfl) ?_)
        exact (passage false).leave moves good rfl
      | ok parts =>
        refine .of_eq runsLeft runsRight (.ok _ (.place (place true) moves rfl) ?_)
        exact (passage true).leave moves good rfl

theorem resolveModule_obeys {node : Statement} {url : String} (admitted : conduct.admits role node)
    (named : url ∈ node.urls) (config : List (String × Expr)) :
    Obeys setup conduct role .style (resolveModule setup left url config)
      (resolveModule setup right url config) := by
  intro before holds
  cases plain : Text.dropStart? "sass:" url with
  | some library =>
    unfold resolveModule
    rw [plain]
    dsimp only
    split
    · exact .pure _ holds
    · exact .throw (conduct.bare rfl) holds
  | none =>
    have configured := configuration_related (kept.logic (inner role)) config
    obtain ⟨same, moves, good, calm⟩ := kept.ofValue holds configured
    have runsLeft : resolveModule setup left url config before = _ :=
      resolveModule_apply left plain config before
    have runsRight : resolveModule setup right url config before = _ :=
      resolveModule_apply right plain config before
    rw [same] at runsLeft
    cases outcome : configuration right config before with
    | mk result after =>
      rw [outcome] at moves good calm runsLeft runsRight
      cases result with
      | error fault => exact .of_eq runsLeft runsRight (.error (calm fault rfl) moves good)
      | ok configured =>
        dsimp only at runsLeft runsRight
        cases found : findSheet setup.loader after.file url with
        | error cause =>
          rw [found] at runsLeft runsRight
          exact .of_eq runsLeft runsRight (.error (conduct.bare rfl) moves good)
        | ok sheet =>
          rw [found] at runsLeft runsRight
          dsimp only at runsLeft runsRight
          cases known : after.modules.get? sheet.path with
          | none =>
            rw [known] at runsLeft runsRight
            obtain ⟨agree, ends⟩ :=
              compileModule_obeysAt kept inner admitted named good found known configured
            exact .of_eq (runsLeft.trans agree) runsRight (.trans moves ends)
          | some env =>
            rw [known] at runsLeft runsRight
            dsimp only at runsLeft runsRight
            by_cases empty : configured.isEmpty
            · rw [if_pos empty] at runsLeft runsRight
              exact .of_eq runsLeft runsRight (.ok _ moves good)
            · rw [if_neg empty] at runsLeft runsRight
              have change := Change.log .style after
                ⟨.warn, url ++ " was already loaded, so its configuration is ignored"⟩
              exact .of_eq runsLeft runsRight
                (.ok _ (moves.trans (.change change)) (kept.change change rfl good))

theorem useModule_obeys {url : String} {given : Option String} {config : List (String × Expr)}
    {line : Nat} (admitted : conduct.admits role (.useModule url given config line)) :
    Obeys setup conduct role .style (useModule setup left url given config)
      (useModule setup right url given config) := by
  intro before holds
  have resolved := resolveModule_obeys kept inner admitted (List.mem_singleton_self url) config
  refine (resolved before holds).bind fun found after done holds => ?_
  have offered : after.Offers found.1 := resolveModule_offers right done
  exact ⟨rfl, .ok _ (.change (.use offered _)) (kept.use offered holds _)⟩

theorem forwardModule_obeys {url : String} {affix : Option String} {filter : Option ForwardFilter}
    {line : Nat} (admitted : conduct.admits role (.forwardModule url affix filter line)) :
    Obeys setup conduct role .style (forwardModule setup left url affix filter)
      (forwardModule setup right url affix filter) := by
  intro before holds
  have resolved := resolveModule_obeys kept inner admitted (List.mem_singleton_self url) []
  refine (resolved before holds).bind fun found after done holds => ?_
  have offered : after.Offers found.1 := resolveModule_offers right done
  have passed : Change .style after (after.passOn ⟨found.1, affix, filter⟩) := .forward offered
  exact ⟨rfl, .ok _ (.change passed) (kept.forward admitted offered holds)⟩

theorem importSheet_obeys {urls : List String} {line : Nat} {url : String}
    (admitted : conduct.admits role (.importSheets urls line)) (named : url ∈ urls) (level : Nat) :
    Obeys setup conduct role .style (importSheet setup left level url)
      (importSheet setup right level url) := by
  intro before holds
  cases found : findSheet setup.loader before.file url with
  | error cause =>
    exact .of_eq (importSheet_missing left found level) (importSheet_missing right found level)
      (.error (conduct.bare rfl) (.refl _ before) holds)
  | ok sheet =>
    by_cases opened : sheet.path ∈ before.loading
    · exact .of_eq (importSheet_opened left found opened level)
        (importSheet_opened right found opened level)
        (.error (conduct.bare rfl) (.refl _ before) holds)
    suffices loaded : ObeysAt setup conduct.fine (conduct.good role .style) .style
        (do
          let nodes ← MonadExcept.ofExcept (statementsOf sheet)
          let outcome ← Run.inFile sheet.path (left (.block (.style level) nodes))
          return outcome.body)
        (do
          let nodes ← MonadExcept.ofExcept (statementsOf sheet)
          let outcome ← Run.inFile sheet.path (right (.block (.style level) nodes))
          return outcome.body) before by
      have runsLeft := importSheet_apply left found opened level
      exact .of_eq (runsLeft.trans loaded.same) (importSheet_apply right found opened level) loaded.ends
    cases parsed : statementsOf sheet with
    | error fault =>
      have textual := (Grammar.sound_stylesheet _).textual parsed
      exact .throw (conduct.bare textual.bare) holds
    | ok nodes =>
      obtain ⟨inside, admitted, passage⟩ := kept.file admitted named found opened parsed holds
      have body := inner inside (.block (.style level) nodes) admitted _ passage.enter
      have enclosed : ObeysAt setup conduct.fine (conduct.good role .style) .style
          (Run.inFile sheet.path _) (Run.inFile sheet.path _) before :=
        .enclosed (.file found opened) body rfl passage.leave
      refine ObeysAt.bind (.pure nodes holds) fun _ _ done _ => ?_
      cases done
      exact enclosed.bind fun outcome _ _ holds => .pure outcome.body holds

end Parts

section Blocks

variable {depth : Nat}
  (served : conduct.Served setup left (fun job => perform setup depth job))
  (inner : ∀ (role : Role) {α : Type} (job : Job α), (conduct.regime role).Fits job →
    Obeys setup conduct role job.realm (left job) (perform setup depth job))
  {role : Role}

include served inner

/-- The mixin is found before the arguments have their values; it is the one that is found behind
them, because values define nothing. -/
theorem includeMixin_obeys {qualifier : Option String} {name : String} {args : List (Argument Expr)}
    {block : Option (ContentBlock Statement)} {line : Nat}
    (admitted : conduct.admits role (.includeMixin qualifier name args block line)) (level : Nat) :
    Obeys setup conduct role .style (includeMixin left qualifier name args block level)
      (includeMixin (perform setup depth) qualifier name args block level) := by
  have logic (role : Role) := served.toKept.logic (inner role)
  intro before holds
  by_cases defined : ∃ mixin, before.mixin? qualifier name = .ok (some mixin)
  case neg =>
    have missing mixin (found : before.mixin? qualifier name = .ok (some mixin)) : False :=
      defined ⟨mixin, found⟩
    have bare : (missingMixin before qualifier name).Bare := by
      unfold missingMixin
      split <;> rfl
    exact .of_eq (includeMixin_missing left missing args block level)
      (includeMixin_missing (perform setup depth) missing args block level)
      (.error (conduct.bare bare) (.refl _ before) holds)
  obtain ⟨mixin, found⟩ := defined
  have included : ObeysAt setup conduct.fine (conduct.good role .style) .style
      (do
        let values ← arguments left args
        let outcome ← Run.inMixin mixin.env block (runMixin left mixin values level)
        return outcome.body)
      (do
        let values ← arguments (perform setup depth) args
        let outcome ←
          Run.inMixin mixin.env block (runMixin (perform setup depth) mixin values level)
        return outcome.body) before := by
    have valued := arguments_related (logic role) args
    have moves := (valued before (served.value holds)).ends.moves
    refine (served.toKept.ofValue holds valued).bind fun values after done holds => ?_
    rw [done] at moves
    have steady : Machine.Steady before after := moves.steady (by decide)
    have foundAfter : after.mixin? qualifier name = .ok (some mixin) := by
      rw [Machine.mixin?_congr steady.definitions steady.env, found]
    obtain ⟨inside, admitted, passage⟩ := served.mixin admitted foundAfter holds
    have body := runMixin_related (logic inside) mixin admitted values level _ passage.enter
    have enclosed : ObeysAt setup conduct.fine (conduct.good role .style) .style
        (Run.inMixin mixin.env block _) (Run.inMixin mixin.env block _) after :=
      .enclosed (.mixin foundAfter block) body rfl passage.leave
    exact enclosed.bind fun outcome _ _ holds => .pure outcome.body holds
  have runsLeft := includeMixin_apply left found args block level
  exact .of_eq (runsLeft.trans included.same)
    (includeMixin_apply (perform setup depth) found args block level) included.ends

/-- A block is run from the state that the arguments have left, and what it leaves is left by a run
of the block. -/
theorem contentSlot_obeys {args : List (Argument Expr)} {line : Nat}
    (admitted : conduct.admits role (.contentSlot args line)) (level : Nat) :
    Obeys setup conduct role .style (contentSlot left args level)
      (contentSlot (perform setup depth) args level) := by
  intro before holds
  cases waiting : before.contents.head?.bind ContentFrame.block with
  | none =>
    exact .of_eq (contentSlot_empty left waiting args level)
      (contentSlot_empty (perform setup depth) waiting args level) (.ok _ (.refl _ before) holds)
  | some block =>
    obtain ⟨content, front, given⟩ := Option.bind_eq_some_iff.mp waiting
    obtain ⟨outer, handed⟩ := List.head?_eq_some_iff.mp front
    have entered : ObeysAt setup conduct.fine (conduct.good role .style) .style
        (fillSlot left block args level) (fillSlot (perform setup depth) block args level) before := by
      have valued := arguments_related (served.toKept.logic (inner role)) args
      have moves := (valued before (served.value holds)).ends.moves
      refine (served.toKept.ofValue holds valued).bind fun values after done holds => .look ?_
      rw [done] at moves
      have handedAfter : after.contents = content :: outer := by
        rw [(moves.steady (by decide)).contents, handed]
      obtain ⟨inside, body, back⟩ := served.content values level admitted handedAfter given holds
      have place : Place setup .style after .style _ _ := .content handedAfter given
      rw [handedAfter]
      have enclosed : ObeysAt setup conduct.fine (conduct.good role .style) .style
          (Run.inContent content (runBlock left block values level))
          (Run.inContent content (runBlock (perform setup depth) block values level)) after := by
        obtain rfl : after.contents.tail = outer := by rw [handedAfter, List.tail_cons]
        refine .enclosed place body ⟨⟨depth, values, level, rfl⟩, rfl⟩ ?_
        rintro after next moves holds ⟨-, rfl⟩
        exact back moves holds
      exact enclosed.bind fun outcome _ _ holds => .pure outcome.body holds
    have runsLeft := contentSlot_apply left handed given args level
    exact .of_eq (runsLeft.trans entered.same)
      (contentSlot_apply (perform setup depth) handed given args level) entered.ends

/-- Keeping to a conduct goes along with the whole evaluator, rules apart. -/
theorem styleLogic_of_conduct :
    StyleLogic setup (conduct.regime role) left (fun job => perform setup depth job)
      (Obeys setup conduct role) where
  toLogic := served.toKept.logic (inner role)
  invoke := invoke_obeys served.toKept inner
  includeMixin level admitted := includeMixin_obeys served inner admitted level
  contentSlot level admitted := contentSlot_obeys served inner admitted level
  defineFunction admitted machine holds :=
    ⟨rfl, .ok _ (.change (.defineFunction machine _ _ _)) (served.defineFunction admitted holds)⟩
  defineMixin admitted defined name params machine holds :=
    ⟨rfl, .ok _ (.change (.defineMixin machine name params _))
      (served.defineMixin admitted defined holds name params)⟩
  useModule := useModule_obeys served.toKept inner
  forwardModule := forwardModule_obeys served.toKept inner
  importSheet level admitted listed := importSheet_obeys served.toKept inner admitted listed level

theorem blockLogic_of_conduct (opened : conduct.Open setup) :
    BlockLogic setup (conduct.regime role) left (fun job => perform setup depth job)
      (Obeys setup conduct role) where
  toStyleLogic := styleLogic_of_conduct served inner
  inside := opened.inside
  withSelector selector _ _ _ inside before holds := by
    have passage := opened.selector selector holds
    exact .enclosed (.selector before selector) (inside _ passage.enter) rfl passage.leave
  withMedia query _ _ _ inside before holds := by
    have passage := opened.media query holds
    exact .enclosed (.media before query) (inside _ passage.enter) rfl passage.leave

end Blocks

end Eval

end Scss
