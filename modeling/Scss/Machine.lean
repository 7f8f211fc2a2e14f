import Scss.AtRule.Strategy
import Scss.Builtin.Registry
import Scss.Loader
import Scss.Options
import Scss.SourceMap

/-!
The state of a compilation, and computations on it. A computation that fails keeps the state it has
come to, because a fault in the value of an at-rule is not the end. What holds for a part of a
computation only is put in place by `enclosed`, which undoes it whether the part succeeds or fails.
-/
namespace Scss

abbrev Bindings (α : Type) := List (String × α)

namespace Bindings

variable {α : Type}

def get? (bindings : Bindings α) (name : String) : Option α := bindings.lookup name

def contains (bindings : Bindings α) (name : String) : Bool := (get? bindings name).isSome

/-- Give a name a value, in the place of one that it has. -/
def set : Bindings α → String → α → Bindings α
  | [], name, value => [(name, value)]
  | entry :: rest, name, value =>
    if entry.1 = name then (name, value) :: rest else entry :: set rest name value

def names (bindings : Bindings α) : List String := bindings.map Prod.fst

@[simp]
theorem get?_set_self (bindings : Bindings α) (name : String) (value : α) :
    get? (set bindings name value) name = some value := by
  induction bindings with
  | nil => simp [set, get?]
  | cons entry rest ih =>
    obtain ⟨key, own⟩ := entry
    by_cases same : key = name
    · simp [set, same, get?]
    · have differs : (name == key) = false := by simpa using fun h => same h.symm
      simpa [set, same, get?, List.lookup_cons, differs] using ih

end Bindings

/-- The place of a module's environment in the arena. -/
abbrev EnvId := Nat

/-- A mixin or a function, with the environment it is defined in. -/
structure Callable where
  name : String
  params : Parameters
  body : List Statement
  env : EnvId

/-- What a module's name stands for. -/
inductive ModuleRef where
  /-- A module of the library. -/
  | builtin (name : String)
  | user (env : EnvId)
deriving DecidableEq

/-- A module whose members are passed on. -/
structure Forward where
  module_ : ModuleRef
  affix : Option String
  filter : Option ForwardFilter
deriving DecidableEq

namespace Forward

/-- The name inside the module of a member that is visible as `name`. The filter names variables
with their `sigil`. -/
def expose? (forward : Forward) (name sigil : String) : Option String :=
  let listed (names : List String) : Bool :=
    names.any (fun listed => normalizeName listed = sigil ++ name)
  let hidden :=
    match forward.filter with
    | some (.only names) => !listed names
    | some (.allBut names) => listed names
    | none => false
  if hidden then none
  else
    match forward.affix with
    | some affix => Text.dropStart? (normalizeName affix) name
    | none => some name

end Forward

/-- What a module defines, and the modules it uses. -/
structure Environment where
  vars : Bindings Value
  mixins : Bindings Callable
  functions : Bindings Callable
  namespaces : Bindings ModuleRef
  /-- Modules whose members need no name before them. -/
  stars : List ModuleRef
  forwards : List Forward

namespace Environment

def empty : Environment := ⟨[], [], [], [], [], []⟩

instance : Inhabited Environment := ⟨empty⟩

end Environment

structure Frame where
  vars : Bindings Value
  /-- Whether no rule or call stands between the block and its module. -/
  semiGlobal : Bool

def Frame.fresh (semiGlobal : Bool) : Frame := ⟨[], semiGlobal⟩

/-- What a mixin was included with: a block or none, and the state that the block runs in. -/
structure ContentFrame where
  block : Option (ContentBlock Statement)
  env : EnvId
  /-- The includer's frames, innermost first. -/
  frames : List Frame

inductive LogLevel where
  | warn
  | debug
deriving DecidableEq

structure LogEntry where
  level : LogLevel
  text : String
deriving DecidableEq

/-- The state of a compilation. Stacks are listed innermost first. -/
structure Machine where
  /-- The environments of all modules. -/
  environments : Array Environment
  /-- The module that is running. -/
  env : EnvId
  frames : List Frame
  contents : List ContentFrame
  /-- The modules that are loaded, by path. -/
  modules : Bindings EnvId
  /-- The files that are being loaded. -/
  loading : List String
  file : String
  /-- The selector around, in full. -/
  selector : Option String
  /-- The media query around. -/
  media : Option String
  /-- Blocks for the end of the output. -/
  hoisted : List String
  pending : List PendingMapping
  log : List LogEntry
  /-- How many numbers have been drawn. -/
  drawn : Nat

namespace Machine

/-- The state before the statements of a main stylesheet. -/
def start (file : String) : Machine where
  environments := #[Environment.empty]
  env := 0
  frames := []
  contents := []
  modules := []
  loading := [file]
  file := file
  selector := none
  media := none
  hoisted := []
  pending := []
  log := []
  drawn := 0

def environment (machine : Machine) (id : EnvId) : Environment :=
  (machine.environments[id]?).getD .empty

def current (machine : Machine) : Environment := machine.environment machine.env

def countDraw (machine : Machine) : Machine := { machine with drawn := machine.drawn + 1 }

def modifyEnvironment (machine : Machine) (id : EnvId) (f : Environment → Environment) : Machine :=
  { machine with environments := machine.environments.modify id f }

def addEnvironment (machine : Machine) (environment : Environment) : EnvId × Machine :=
  (machine.environments.size,
    { machine with environments := machine.environments.push environment })

end Machine

/-- A source of chance: what it answers when it is asked for the nth time. Which answers these are is not
known; `Ranged` says what can be relied on. -/
structure Chance where
  fraction : Nat → Float
  upTo : Nat → Int → Int

namespace Chance

/-- Every answer is in the range that is asked for. -/
structure Ranged (chance : Chance) : Prop where
  fraction : ∀ n, 0.0 ≤ chance.fraction n ∧ chance.fraction n < 1.0
  upTo : ∀ n limit, 1 ≤ limit → 1 ≤ chance.upTo n limit ∧ chance.upTo n limit ≤ limit

def draw (chance : Chance) (n : Nat) : Option Int → Float
  | none => chance.fraction n
  | some limit => .ofInt (chance.upTo n limit)

/-- The source behind its first answers. -/
def behind (chance : Chance) (count : Nat) : Chance :=
  ⟨fun n => chance.fraction (count + n), fun n => chance.upTo (count + n)⟩

/-- A source that goes round its range in steps of five eighths. -/
def turning : Chance where
  fraction n := .ofNat (5 * n % 8) / 8.0
  upTo n limit := 1 + (5 * n % 8 : Nat) * limit / 8

theorem turning_ranged : turning.Ranged where
  fraction n := by
    have each : ∀ k < 8, 0.0 ≤ Float.ofNat k / 8.0 ∧ Float.ofNat k / 8.0 < 1.0 := by decide +kernel
    exact each _ (Nat.mod_lt _ (by decide))
  upTo n limit positive := by
    have below : 5 * n % 8 < 8 := Nat.mod_lt _ (by decide)
    have most : (5 * n % 8 : Nat) * limit ≤ 7 * limit :=
      Int.mul_le_mul_of_nonneg_right (by omega) (by omega)
    have least : 0 ≤ (5 * n % 8 : Nat) * limit := Int.mul_nonneg (by omega) (by omega)
    simp only [turning]
    omega

theorem Ranged.behind {chance : Chance} (ranged : chance.Ranged) (count : Nat) :
    (chance.behind count).Ranged :=
  ⟨fun n => ranged.fraction (count + n), fun n => ranged.upTo (count + n)⟩

end Chance

/-- What stays the same during a compilation. -/
structure Setup where
  options : Options
  registry : Registry
  /-- Functions that the caller of the library adds, by name. -/
  callbacks : Bindings (List Value → Except Cause Value)
  loader : Loader
  strategies : List Strategy
  chance : Chance

def Setup.format (setup : Setup) : Format := ⟨setup.options.isCompressed⟩

abbrev Run := ExceptT Fault (StateM Machine)

namespace Run

variable {α : Type}

def fail (cause : Cause) : Run α := throw (.because cause)

def ofCause (result : Except Cause α) : Run α :=
  match result with
  | .ok value => pure value
  | .error cause => fail cause

/-- Run an action in a state made by `enter`; then, whether it succeeds or not, make the next state
by `leave` from the states before and after. -/
def enclosed (enter : Machine → Machine) (leave : Machine → Machine → Machine) (action : Run α) :
    Run α :=
  fun before =>
    let (result, after) := action (enter before)
    (result, leave before after)

def log (level : LogLevel) (text : String) : Run PUnit :=
  modify fun machine => { machine with log := machine.log ++ [⟨level, text⟩] }

def draw (chance : Chance) (limit : Option Int) : Run Value := do
  let before ← get
  modify Machine.countDraw
  return .ofFloat (chance.draw before.drawn limit)

/-- A draw comes to a number in the range that is asked for, and only counts. -/
theorem draw_of_ranged {chance : Chance} (ranged : chance.Ranged) {limit : Option Int}
    (positive : ∀ most ∈ limit, 1 ≤ most) (before : Machine) :
    ∃ x, draw chance limit before = (.ok (.ofFloat x), before.countDraw) ∧
      (limit = none → 0.0 ≤ x ∧ x < 1.0) ∧
      ∀ most ∈ limit, ∃ n : Int, 1 ≤ n ∧ n ≤ most ∧ x = .ofInt n := by
  refine ⟨chance.draw before.drawn limit, rfl, ?_, ?_⟩
  · rintro rfl
    exact ranged.fraction before.drawn
  · rintro most rfl
    obtain ⟨least, greatest⟩ := ranged.upTo before.drawn most (positive most rfl)
    exact ⟨_, least, greatest, rfl⟩

def located (line : Nat) (action : Run α) : Run α :=
  fun before =>
    match action before with
    | (.error fault, after) => (.error (fault.locate after.file line), after)
    | done => done

end Run

end Scss
