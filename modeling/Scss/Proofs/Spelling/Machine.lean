import Scss.Proofs.Concur
import Scss.Proofs.Moves
import Scss.Proofs.Spelling.Tree

/-! States that two spellings of one stylesheet come to. They hold the same values under the same
keys; what they hold of the stylesheet itself, mixins, functions and blocks, is spelled in two ways.
A name is looked for under its key, so both spellings of it find the same, and every change by two
spellings keeps the states together. -/
namespace Scss

section Lists

variable {α β : Type} {r : α → α → Prop} {agree : β → β → Prop}

theorem SameName.map_normalizeName {names others : List String}
    (each : List.Forall₂ SameName names others) :
    names.map Scss.normalizeName = others.map Scss.normalizeName := by
  induction each with
  | nil => rfl
  | cons first _ ih => rw [List.map_cons, List.map_cons, first.normalizeName, ih]

theorem Option.eq_of_rel {value other : Option α} (same : Option.Rel Eq value other) :
    value = other := by
  cases same with
  | none => rfl
  | some same => rw [same]

theorem Option.rel_map {f g : α → β} {value other : Option α} (related : Option.Rel r value other)
    (step : ∀ {a b}, r a b → agree (f a) (g b)) :
    Option.Rel agree (value.map f) (other.map g) := by
  cases related with
  | none => exact .none
  | some both => exact .some (step both)

theorem Option.isSome_of_rel {value other : Option α} (related : Option.Rel r value other) :
    value.isSome = other.isSome := by
  cases related <;> rfl

/-- What is found first, or otherwise what else is found. -/
theorem rel_first {own ownOther rest restOther : Option β} (second : Option.Rel agree rest restOther) :
    Option.Rel agree own ownOther →
    Option.Rel agree
      (match own with
      | some found => some found
      | none => rest)
      (match ownOther with
      | some found => some found
      | none => restOther) := by
  intro first
  cases first with
  | none => exact second
  | some both => exact .some both

/-- Searches through lists that are related find what is related. -/
theorem rel_findSome? {f g : α → Option β} {items others : List α}
    (each : List.Forall₂ r items others)
    (step : ∀ {item other}, r item other → Option.Rel agree (f item) (g other)) :
    Option.Rel agree (items.findSome? f) (others.findSome? g) := by
  induction each with
  | nil => exact .none
  | cons first _ ih =>
    rw [List.findSome?_cons, List.findSome?_cons]
    exact rel_first ih (step first)

end Lists

def Cause.SameKind (cause other : Cause) : Prop := cause.ctorIdx = other.ctorIdx

/-- The same fault, or failed evaluations of one kind in one place. -/
inductive Fault.Respelled : Fault → Fault → Prop where
  | same (fault : Fault) : Respelled fault fault
  | evaluation {cause other : Cause} (kinds : cause.SameKind other) (site : Option Site) :
      Respelled (.evaluation ⟨cause, site⟩) (.evaluation ⟨other, site⟩)

theorem Fault.Respelled.locate {fault other : Fault} (both : fault.Respelled other) (file : String)
    (line : Nat) : (fault.locate file line).Respelled (other.locate file line) := by
  cases both with
  | same => exact .same _
  | evaluation kinds site =>
    simp only [Fault.locate, EvaluationFault.locate]
    split
    · exact .evaluation kinds _
    · split
      · exact .evaluation kinds _
      · exact .evaluation kinds _

namespace Bindings

variable {α : Type} {r : α → α → Prop} {bindings others : Bindings α}

def Rel (r : α → α → Prop) (bindings others : Bindings α) : Prop :=
  List.Forall₂ (fun entry other => entry.1 = other.1 ∧ r entry.2 other.2) bindings others

theorem Rel.get? (related : bindings.Rel r others) (key : String) :
    Option.Rel r (bindings.get? key) (others.get? key) := by
  induction related with
  | nil => exact .none
  | @cons entry other _ _ first _ ih =>
    obtain ⟨name, value⟩ := entry
    obtain ⟨_, also⟩ := other
    obtain ⟨rfl, both⟩ := first
    simp only [Bindings.get?, List.lookup_cons]
    split
    · exact .some both
    · exact ih

theorem Rel.set (related : bindings.Rel r others) (key : String) {value other : α}
    (added : r value other) : (bindings.set key value).Rel r (others.set key other) := by
  induction related with
  | nil => exact .cons ⟨rfl, added⟩ .nil
  | @cons entry also _ _ first rest ih =>
    rw [Bindings.set, Bindings.set, first.1]
    split
    · exact .cons ⟨rfl, added⟩ rest
    · exact .cons first ih

end Bindings

/-- Two spellings of one mixin or function. The names differ in messages only. -/
structure Callable.Respelled (callable other : Callable) : Prop where
  params : callable.params.Respelled other.params
  body : Statements.Respelled callable.body other.body
  env : other.env = callable.env

inductive Forward.Respelled : Forward → Forward → Prop where
  | mk (module_ : ModuleRef) {affix other : Option String} {filter also : Option ForwardFilter}
      (affixes : Option.Rel SameName affix other)
      (filters : Option.Rel ForwardFilter.Respelled filter also) :
      Respelled ⟨module_, affix, filter⟩ ⟨module_, other, also⟩

theorem Forward.Respelled.module_eq {forward other : Forward} (spelled : forward.Respelled other) :
    other.module_ = forward.module_ := by
  cases spelled
  rfl

theorem Forward.Respelled.expose? {forward other : Forward} (spelled : forward.Respelled other)
    (name sigil : String) : other.expose? name sigil = forward.expose? name sigil := by
  have listed {names others : List String} (each : List.Forall₂ SameName names others) :
      others.any (fun listed => normalizeName listed = sigil ++ name) =
        names.any fun listed => normalizeName listed = sigil ++ name := by
    have keys := congrArg (fun keys => keys.any fun key => decide (key = sigil ++ name))
      (SameName.map_normalizeName each)
    simpa only [List.any_map, Function.comp_def] using keys.symm
  cases spelled with
  | mk module_ affixes filters =>
    cases affixes with
    | none =>
      cases filters with
      | none => rfl
      | some names => cases names with
        | only each => simp only [Forward.expose?, listed each]
        | allBut each => simp only [Forward.expose?, listed each]
    | some same =>
      cases filters with
      | none => simp only [Forward.expose?, same.normalizeName]
      | some names => cases names with
        | only each => simp only [Forward.expose?, listed each, same.normalizeName]
        | allBut each => simp only [Forward.expose?, listed each, same.normalizeName]

/-- Two spellings of one function of the stylesheet, or one of the library. -/
inductive FunctionTarget.Respelled : FunctionTarget → FunctionTarget → Prop where
  | user {callable other : Callable} (both : callable.Respelled other) :
      Respelled (.user callable) (.user other)
  | builtin (name : String) : Respelled (.builtin name) (.builtin name)

/-- Two spellings of what a module defines and passes on. -/
structure Environment.Respelled (environment other : Environment) : Prop where
  vars : other.vars = environment.vars
  mixins : environment.mixins.Rel Callable.Respelled other.mixins
  functions : environment.functions.Rel Callable.Respelled other.functions
  namespaces : other.namespaces = environment.namespaces
  stars : other.stars = environment.stars
  forwards : List.Forall₂ Forward.Respelled environment.forwards other.forwards

theorem Environment.respelled_vars (vars : Bindings Value) :
    ({ Environment.empty with vars := vars }).Respelled { Environment.empty with vars := vars } :=
  ⟨rfl, .nil, .nil, rfl, rfl, .nil⟩

/-- Two spellings of a block that was handed over. It runs in the same frames of the same module. -/
inductive ContentFrame.Respelled : ContentFrame → ContentFrame → Prop where
  | mk {block other : Option (ContentBlock Statement)}
      (blocks : Option.Rel (ContentBlock.Rel Statement.Respelled) block other) (env : EnvId)
      (frames : List Frame) : Respelled ⟨block, env, frames⟩ ⟨other, env, frames⟩

section Waiting

variable {contents others : List ContentFrame}

theorem ContentFrame.frames_eq (each : List.Forall₂ ContentFrame.Respelled contents others) :
    (others.head?.map ContentFrame.frames).getD [] =
      (contents.head?.map ContentFrame.frames).getD [] := by
  cases each with
  | nil => rfl
  | cons first _ =>
    cases first
    rfl

theorem ContentFrame.rel_block (each : List.Forall₂ ContentFrame.Respelled contents others) :
    Option.Rel (ContentBlock.Rel Statement.Respelled) (contents.head?.bind ContentFrame.block)
      (others.head?.bind ContentFrame.block) := by
  cases each with
  | nil => exact .none
  | cons first _ =>
    cases first with
    | mk blocks => exact blocks

theorem ContentFrame.respelled_tail (each : List.Forall₂ ContentFrame.Respelled contents others) :
    List.Forall₂ ContentFrame.Respelled contents.tail others.tail := by
  cases each with
  | nil => exact .nil
  | cons _ rest => exact rest

end Waiting

/-- States that two spellings of one stylesheet come to. -/
structure Machine.Respelled (machine other : Machine) : Prop where
  size : other.environments.size = machine.environments.size
  environments : ∀ id : EnvId,
    Option.Rel Environment.Respelled machine.environments[id]? other.environments[id]?
  env : other.env = machine.env
  frames : other.frames = machine.frames
  contents : List.Forall₂ ContentFrame.Respelled machine.contents other.contents
  modules : other.modules = machine.modules
  loading : other.loading = machine.loading
  file : other.file = machine.file
  selector : other.selector = machine.selector
  media : other.media = machine.media
  hoisted : other.hoisted = machine.hoisted
  pending : other.pending = machine.pending
  log : other.log = machine.log
  drawn : other.drawn = machine.drawn

namespace Machine

theorem respelled_start (file : String) : (start file).Respelled (start file) := by
  refine ⟨rfl, fun id => ?_, rfl, rfl, .nil, rfl, rfl, rfl, rfl, rfl, rfl, rfl, rfl, rfl⟩
  cases found : (start file).environments[id]? with
  | none => exact .none
  | some environment =>
    have only : environment = .empty := by
      simpa [start] using Array.mem_of_getElem? found
    exact .some (only ▸ Environment.respelled_vars [])

namespace Respelled

variable {machine other : Machine} (states : machine.Respelled other)

include states

theorem environment (id : EnvId) : (machine.environment id).Respelled (other.environment id) := by
  have either := states.environments id
  unfold Machine.environment
  generalize machine.environments[id]? = found at either
  generalize other.environments[id]? = also at either
  cases either with
  | none => exact Environment.respelled_vars []
  | some both => exact both

theorem current : machine.current.Respelled other.current := by
  have running := states.environment machine.env
  unfold Machine.current
  rw [states.env]
  exact running

section Finding

theorem member? {α : Type} {agree : α → α → Prop} (sigil : String)
    {library : String → String → Option α} {own : Environment → String → Option α}
    (libraries : ∀ module_ name, Option.Rel agree (library module_ name) (library module_ name))
    (owns : ∀ {environment also : Environment}, environment.Respelled also → ∀ name,
      Option.Rel agree (own environment name) (own also name))
    (depth : Nat) (module_ : ModuleRef) (name : String) :
    Option.Rel agree (machine.member? sigil library own depth module_ name)
      (other.member? sigil library own depth module_ name) := by
  induction depth generalizing module_ name with
  | zero => exact .none
  | succ depth ih =>
    cases module_ with
    | builtin module_ => exact libraries module_ name
    | user id =>
      have inside := states.environment id
      refine rel_first ?_ (owns inside name)
      refine rel_findSome? inside.forwards fun {forward also} spelled => ?_
      rw [spelled.expose?, spelled.module_eq]
      cases forward.expose? name sigil with
      | none => exact .none
      | some inner => exact ih _ inner

omit states in
theorem rel_here? {α : Type} {agree : α → α → Prop} {own ownOther : Option α}
    {inModule inModuleOther : ModuleRef → Option α} (stars : List ModuleRef)
    (first : Option.Rel agree own ownOther)
    (second : ∀ module_, Option.Rel agree (inModule module_) (inModuleOther module_)) :
    Option.Rel agree (here? own inModule stars) (here? ownOther inModuleOther stars) := by
  have each : List.Forall₂ Eq stars stars := List.forall₂_same.mpr fun _ _ => rfl
  refine rel_first (rel_findSome? each fun {module_ also} same => ?_) first
  rw [same]
  exact second also

theorem forwardDepth (name : String) : other.forwardDepth name = machine.forwardDepth name := by
  rw [Machine.forwardDepth, Machine.forwardDepth, states.size]

theorem moduleVariable? (registry : Registry) (module_ : ModuleRef) (name : String) :
    other.moduleVariable? registry module_ name = machine.moduleVariable? registry module_ name := by
  rw [Machine.moduleVariable?, Machine.moduleVariable?, states.forwardDepth]
  refine (Option.eq_of_rel (states.member? _ ?_ ?_ _ _ _)).symm
  · exact fun _ _ => Option.rel_refl (fun _ => rfl) _
  · intro environment also inside name
    rw [inside.vars]
    exact Option.rel_refl (fun _ => rfl) _

theorem lookup? {name label : String} (names : SameName name label) (registry : Registry) :
    other.lookup? registry label = machine.lookup? registry name := by
  have stars (key : String) : (fun module_ => other.moduleVariable? registry module_ key) =
      fun module_ => machine.moduleVariable? registry module_ key :=
    funext fun module_ => states.moduleVariable? registry module_ key
  simp only [Machine.lookup?, ← names.normalizeName, states.frames, states.current.vars,
    states.current.stars, stars]

theorem module? (name : String) : other.module? name = machine.module? name := by
  rw [Machine.module?, Machine.module?, states.current.namespaces]

theorem moduleFunction? (registry : Registry) (module_ : ModuleRef) (name : String) :
    Option.Rel FunctionTarget.Respelled (machine.moduleFunction? registry module_ name)
      (other.moduleFunction? registry module_ name) := by
  rw [Machine.moduleFunction?, Machine.moduleFunction?, states.forwardDepth]
  refine states.member? _ (fun library name => ?_) (fun inside name => ?_) _ _ _
  · split
    · exact .some (.builtin library)
    · exact .none
  · exact Option.rel_map (inside.functions.get? name) fun both => .user both

theorem moduleMixin? (module_ : ModuleRef) (name : String) :
    Option.Rel Callable.Respelled (machine.moduleMixin? module_ name)
      (other.moduleMixin? module_ name) := by
  rw [Machine.moduleMixin?, Machine.moduleMixin?, states.forwardDepth]
  exact states.member? _ (fun _ _ => .none) (fun inside name => inside.mixins.get? name) _ _ _

theorem qualifiedVariable (registry : Registry) (qualifier : String) {name label : String}
    (names : SameName name label) :
    Concur Cause.SameKind Eq (machine.qualifiedVariable registry qualifier name)
      (other.qualifiedVariable registry qualifier label) := by
  simp only [Machine.qualifiedVariable, states.module?, states.moduleVariable?,
    ← names.normalizeName]
  cases machine.module? qualifier with
  | error cause => exact .error rfl
  | ok module_ =>
    dsimp only [bind, Except.bind]
    split
    · exact .ok rfl
    · exact .error rfl

theorem function? (registry : Registry) (qualifier : Option String) (name : String) :
    Concur Cause.SameKind (Option.Rel FunctionTarget.Respelled)
      (machine.function? registry qualifier name) (other.function? registry qualifier name) := by
  cases qualifier with
  | some qualifier =>
    simp only [Machine.function?, states.module?]
    cases machine.module? qualifier with
    | error cause => exact .error rfl
    | ok module_ => exact .ok (states.moduleFunction? registry module_ _)
  | none =>
    simp only [Machine.function?, states.current.stars]
    refine .ok (rel_here? _ ?_ fun module_ => states.moduleFunction? registry module_ _)
    exact Option.rel_map (states.current.functions.get? _) fun both => .user both

theorem mixin? (qualifier : Option String) {name label : String} (names : SameName name label) :
    Concur Cause.SameKind (Option.Rel Callable.Respelled)
      (machine.mixin? qualifier name) (other.mixin? qualifier label) := by
  cases qualifier with
  | some qualifier =>
    simp only [Machine.mixin?, states.module?, ← names.normalizeName]
    cases machine.module? qualifier with
    | error cause => exact .error rfl
    | ok module_ => exact .ok (states.moduleMixin? module_ _)
  | none =>
    simp only [Machine.mixin?, states.current.stars, ← names.normalizeName]
    exact .ok (rel_here? _ (states.current.mixins.get? _) fun module_ => states.moduleMixin? module_ _)

end Finding

section Changing

theorem modifyEnvironment (id : EnvId) {f g : Environment → Environment}
    (step : ∀ {environment also : Environment}, environment.Respelled also →
      (f environment).Respelled (g also)) :
    (machine.modifyEnvironment id f).Respelled (other.modifyEnvironment id g) := by
  refine { states with size := ?_, environments := fun place => ?_ }
  · simpa [Machine.modifyEnvironment] using states.size
  · have found := states.environments place
    simp only [Machine.modifyEnvironment, Array.getElem?_modify]
    split
    · exact Option.rel_map found step
    · exact found

theorem setGlobal (key : String) (value : Value) :
    (machine.setGlobal key value).Respelled (other.setGlobal key value) := by
  unfold Machine.setGlobal
  rw [states.env]
  exact states.modifyEnvironment _ fun own => { own with vars := by rw [own.vars] }

theorem define {name label : String} (names : SameName name label) (value : Value) :
    (machine.define name value).Respelled (other.define label value) := by
  simp only [Machine.define, states.frames, ← names.normalizeName]
  split
  · exact { states with frames := rfl }
  · exact states.setGlobal _ value

theorem assign {name label : String} (names : SameName name label) (value : Value) (global : Bool) :
    (machine.assign name value global).Respelled (other.assign label value global) := by
  unfold Machine.assign Machine.isSemiGlobal
  dsimp only
  rw [states.frames, states.current.vars, ← names.normalizeName]
  split
  · exact states.setGlobal _ value
  · split
    · exact { states with frames := rfl }
    · split
      · exact states.setGlobal _ value
      · exact states.define (.refl _) value

theorem assignQualified (qualifier : String) {name label : String} (names : SameName name label)
    (value : Value) :
    Concur Cause.SameKind Machine.Respelled (machine.assignQualified qualifier name value)
      (other.assignQualified qualifier label value) := by
  simp only [Machine.assignQualified, states.module?, ← names.normalizeName]
  cases machine.module? qualifier with
  | error cause => exact .error rfl
  | ok module_ =>
    cases module_ with
    | builtin library => exact .error rfl
    | user id =>
      dsimp only [bind, Except.bind]
      rw [(states.environment id).vars]
      split
      · exact .ok (states.modifyEnvironment _ fun own => { own with vars := by rw [own.vars] })
      · exact .error rfl

theorem defineFunction (name : String) {params others : Parameters} {body also : List Statement}
    (parameters : params.Respelled others) (bodies : Statements.Respelled body also) :
    (machine.defineFunction name params body).Respelled (other.defineFunction name others also) := by
  unfold Machine.defineFunction
  rw [states.env]
  exact states.modifyEnvironment _ fun own =>
    { own with functions := own.functions.set _ ⟨parameters, bodies, states.env⟩ }

theorem defineMixin {name label : String} (names : SameName name label)
    {params others : Parameters} {body also : List Statement} (parameters : params.Respelled others)
    (bodies : Statements.Respelled body also) :
    (machine.defineMixin name params body).Respelled (other.defineMixin label others also) := by
  unfold Machine.defineMixin
  rw [states.env, ← names.normalizeName]
  exact states.modifyEnvironment _ fun own =>
    { own with mixins := own.mixins.set _ ⟨parameters, bodies, states.env⟩ }

theorem useAs (name : String) (module_ : ModuleRef) :
    (machine.useAs name module_).Respelled (other.useAs name module_) := by
  unfold Machine.useAs
  rw [states.env]
  refine states.modifyEnvironment _ fun own => ?_
  split
  · exact { own with stars := by rw [own.stars] }
  · exact { own with namespaces := by rw [own.namespaces] }

theorem passOn {forward also : Forward} (spelled : forward.Respelled also) :
    (machine.passOn forward).Respelled (other.passOn also) := by
  unfold Machine.passOn
  rw [states.env]
  exact states.modifyEnvironment _ fun own =>
    { own with forwards := List.rel_append own.forwards (.cons spelled .nil) }

theorem addEnvironment (environment : Environment) (own : environment.Respelled environment) :
    (machine.addEnvironment environment).2.Respelled (other.addEnvironment environment).2 := by
  refine { states with size := ?_, environments := fun id => ?_ }
  · simpa [Machine.addEnvironment] using states.size
  · simp only [Machine.addEnvironment, Array.getElem?_push, states.size]
    split
    · exact .some own
    · exact states.environments id

end Changing

end Respelled

end Machine

end Scss
