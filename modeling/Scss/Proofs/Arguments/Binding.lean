import Scss.Proofs.Arguments.Slots
import Scss.Proofs.ContentScope

/-! Parameters take arguments: by place first, then by name, then by their defaults. What is left by
place goes to the parameter for the rest, if there is one; what is left by name does not. So all values
by place are bound behind a call that is not refused, and all values by name are if nothing is left of
them or nothing takes the rest. -/
namespace Scss

def Parameter.key (param : Parameter) : String := normalizeName param.name

/-- A parameter behind the values by place has the name. -/
def Parameters.Awaits (params : Parameters) (args : CallArgs) (name : String) : Prop :=
  name ∈ (params.params.drop args.positional.length).map Parameter.key

instance (params : Parameters) (args : CallArgs) : DecidablePred (params.Awaits args) :=
  fun _ => inferInstanceAs (Decidable (_ ∈ _))

/-- The arguments with the names among these only. -/
def CallArgs.only (args : CallArgs) (kept : String → Prop) [DecidablePred kept] : CallArgs :=
  { args with named := args.named.filter fun entry => kept entry.1 }

/-- A value is bound by definitions: for a parameter, or in the list for the rest. -/
def Parameters.Binds (params : Parameters) (definitions : List (String × Value)) (value : Value) :
    Prop :=
  (∃ name, (name, value) ∈ definitions) ∨
    ∃ rest values, params.rest = some rest ∧
      (normalizeName rest, Value.listOf values .comma) ∈ definitions ∧ value ∈ values

namespace Machine

def defineAll (machine : Machine) (definitions : List (String × Value)) : Machine :=
  definitions.foldl (fun machine (name, value) => machine.define name value) machine

/-- Variables are defined one after the other, and values of expressions are computed before each and
behind the last. -/
inductive Defines (setup : Setup) : Machine → List (String × Value) → Machine → Prop where
  | nothing {machine after : Machine} (moves : Moves setup .value machine after) :
      Defines setup machine [] after
  | define {machine middle after : Machine} {name : String} {value : Value}
      {definitions : List (String × Value)} (moves : Moves setup .value machine middle)
      (rest : Defines setup (middle.define name value) definitions after) :
      Defines setup machine ((name, value) :: definitions) after

theorem define_normalizeName (machine : Machine) (name : String) (value : Value) :
    machine.define (normalizeName name) value = machine.define name value := by
  unfold define
  simp only [normalizeName_idem]

namespace Defines

variable {setup : Setup} {machine middle after : Machine} {name : String} {value : Value}
  {definitions : List (String × Value)}

theorem snoc (defines : Defines setup machine definitions after) (name : String) (value : Value) :
    Defines setup machine (definitions ++ [(name, value)]) (after.define name value) := by
  induction defines with
  | nothing moves => exact .define moves (.nothing (.refl _ _))
  | define moves _ ih => exact .define moves ih

/-- All definitions are made in the innermost block. -/
theorem frames_eq (defines : Defines setup machine definitions after) {frame : Frame}
    {outer : List Frame} (inside : machine.frames = frame :: outer) :
    after.frames =
      { frame with
        vars := definitions.foldl (fun vars entry => vars.set (normalizeName entry.1) entry.2)
          frame.vars } :: outer := by
  induction defines generalizing frame with
  | nothing moves => rw [moves.frames_eq, inside, List.foldl_nil]
  | @define machine middle after name value definitions moves _ ih =>
    have still : middle.frames = frame :: outer := moves.frames_eq.trans inside
    have defined : (middle.define name value).frames =
        { frame with vars := frame.vars.set (normalizeName name) value } :: outer := by
      simp only [Machine.define, still]
    rw [ih defined, List.foldl_cons]

end Defines

end Machine

namespace Eval

open Machine (Moves Defines)

section Given

variable (self : Perform) (callee : String)

theorem bindOne_positional (value : Value) (positional : List Value)
    (named : List (String × Value)) (param : Parameter) (machine : Machine) :
    bindOne self callee ⟨value :: positional, named⟩ param machine =
      (.ok ⟨positional, named⟩, machine.define param.key value) := rfl

theorem bindOne_named {named : List (String × Value)} {param : Parameter} {value : Value}
    (found : named.lookup param.key = some value) (machine : Machine) :
    bindOne self callee ⟨[], named⟩ param machine =
      (.ok ⟨[], named.eraseP (fun entry => entry.1 = param.key)⟩,
        machine.define param.key value) := by
  unfold Parameter.key at found
  unfold bindOne
  simp only [found]
  rfl

theorem bindOne_missing {named : List (String × Value)} {param : Parameter}
    (unnamed : named.lookup param.key = none) (undefaulted : param.default = none) :
    bindOne self callee ⟨[], named⟩ param =
      Run.fail (.invalidArgument s!"Missing argument ${param.name} for {callee}") := by
  unfold Parameter.key at unnamed
  unfold bindOne
  simp only [unnamed, undefaulted]

theorem bindOne_default {named : List (String × Value)} {param : Parameter} {expr : Expr}
    (unnamed : named.lookup param.key = none) (given : param.default = some expr) :
    bindOne self callee ⟨[], named⟩ param = (do
      let value ← self (.evaluate expr false)
      modify (·.define param.key value)
      return ⟨[], named⟩) := by
  unfold Parameter.key at unnamed
  unfold bindOne
  simp only [unnamed, given]
  rfl

/-- Parameters that are all given a value, the first `count` by place and the others by name, are
defined in their order, and nothing is left. -/
theorem bindAll_given {params : List Parameter} {values : List Value} {named : List (String × Value)}
    (full : values.length = params.length) (distinct : (params.map Parameter.key).Nodup) (count : Nat)
    (others : named.Perm (((params.map Parameter.key).zip values).drop count)) (machine : Machine) :
    params.foldlM (bindOne self callee) ⟨values.take count, named⟩ machine =
      (.ok ⟨[], []⟩, machine.defineAll ((params.map Parameter.key).zip values)) := by
  induction params generalizing values named count machine with
  | nil =>
    obtain rfl := List.eq_nil_of_length_eq_zero full
    obtain rfl : named = [] := by simpa using others
    rw [List.take_nil]
    rfl
  | cons param params ih =>
    cases values with
    | nil => cases full
    | cons value values =>
      have full : values.length = params.length := Nat.succ.inj full
      obtain ⟨-, apart⟩ := List.nodup_cons.mp distinct
      rw [List.foldlM_cons, Run.bind_apply]
      cases count with
      | succ count =>
        rw [List.take_succ_cons, bindOne_positional]
        exact ih full apart count others (machine.define param.key value)
      | zero =>
        have names : (Bindings.names named).Perm ((param :: params).map Parameter.key) := by
          have listed := others.map Prod.fst
          rwa [List.drop_zero, List.map_fst_zip (by simp [full])] at listed
        have member : (param.key, value) ∈ named := others.mem_iff.mpr (List.mem_cons_self ..)
        have found : named.lookup param.key = some value :=
          Bindings.get?_of_mem (names.nodup_iff.mpr distinct) member
        have rest : (named.eraseP (fun entry => entry.1 = param.key)).Perm
            ((params.map Parameter.key).zip values) :=
          ((CallArgs.perm_eraseP found).symm.trans others).cons_inv
        rw [List.take_zero, bindOne_named self callee found]
        exact ih full apart 0 rest (machine.define param.key value)

/-- A call that gives every parameter a value defines just these. -/
theorem bind_given {params : Parameters} {values : List Value} {named : List (String × Value)}
    (restless : params.rest = none) (full : values.length = params.params.length)
    (distinct : (params.params.map Parameter.key).Nodup) (count : Nat)
    (others : named.Perm (((params.params.map Parameter.key).zip values).drop count))
    (machine : Machine) :
    bind self params ⟨values.take count, named⟩ callee machine =
      (.ok ⟨⟩, machine.defineAll ((params.params.map Parameter.key).zip values)) := by
  unfold bind
  rw [Run.bind_apply, bindAll_given self callee full distinct count others, restless]
  rfl

end Given

section Taken

variable {setup : Setup} {depth : Nat} {callee : String} {args left : CallArgs} {before after : Machine}

/-- One parameter takes the next value by place, or the one by its name, or that of its default. -/
theorem bindOne_cases {self : Perform} {param : Parameter}
    (done : bindOne self callee args param before = (.ok left, after)) :
    ∃ value middle, after = middle.define param.key value ∧
      (middle = before ∨ ∃ expr, self (.evaluate expr false) before = (.ok value, middle)) ∧
      left.positional = args.positional.tail ∧
      (args.positional = value :: left.positional ∧ left.named = args.named ∨
        args.positional = [] ∧ args.named.lookup param.key = some value ∧
          left.named = args.named.eraseP (fun entry => entry.1 = param.key) ∨
        args.positional = [] ∧ args.named.lookup param.key = none ∧ left.named = args.named) := by
  obtain ⟨positional, named⟩ := args
  cases positional with
  | cons value positional =>
    cases done
    exact ⟨value, before, rfl, .inl rfl, rfl, .inl ⟨rfl, rfl⟩⟩
  | nil =>
    cases found : named.lookup param.key with
    | some value =>
      rw [bindOne_named _ callee found] at done
      cases done
      exact ⟨value, before, rfl, .inl rfl, rfl, .inr (.inl ⟨rfl, rfl, rfl⟩)⟩
    | none =>
      cases given : param.default with
      | none =>
        rw [bindOne_missing _ callee found given] at done
        cases done
      | some expr =>
        rw [bindOne_default _ callee found given] at done
        obtain ⟨value, middle, evaluated, done⟩ := Run.bind_eq_ok.mp done
        cases done
        exact ⟨value, middle, rfl, .inr ⟨expr, evaluated⟩, rfl, .inr (.inr ⟨rfl, rfl, rfl⟩)⟩

/-- What the parameters have taken, and what they have left. -/
structure Takes (setup : Setup) (params : List Parameter) (args left : CallArgs)
    (before after : Machine) (definitions : List (String × Value)) : Prop where
  names : definitions.map Prod.fst = params.map Parameter.key
  defines : Defines setup before definitions after
  byPlace : ∀ value ∈ args.positional,
    (∃ name, (name, value) ∈ definitions) ∨ value ∈ left.positional
  byName : ∀ entry ∈ args.named, entry ∈ definitions ∨ entry ∈ left.named
  others : left.named.Sublist args.named
  named : (Bindings.names args.named).Nodup →
    ∀ param ∈ params.drop args.positional.length, param.key ∉ Bindings.names left.named

namespace Takes

variable {param : Parameter} {params : List Parameter} {positional : List Value}
  {named : List (String × Value)} {value : Value} {start : Machine}
  {definitions : List (String × Value)} (moves : Moves setup .value before start)

include moves

theorem place
    (takes : Takes setup params ⟨positional, named⟩ left (start.define param.key value) after
      definitions) :
    Takes setup (param :: params) ⟨value :: positional, named⟩ left before after
      ((param.key, value) :: definitions) where
  names := congrArg (param.key :: ·) takes.names
  defines := .define moves takes.defines
  byPlace other member := by
    rcases List.mem_cons.mp member with rfl | member
    · exact .inl ⟨_, List.mem_cons_self ..⟩
    · exact (takes.byPlace other member).imp_left
        fun ⟨name, bound⟩ => ⟨name, List.mem_cons_of_mem _ bound⟩
  byName entry member := (takes.byName entry member).imp_left (List.mem_cons_of_mem _)
  others := takes.others
  named := takes.named

/-- A name that is taken is gone: it is passed once. -/
theorem name (found : named.lookup param.key = some value)
    (takes : Takes setup params ⟨[], named.eraseP (fun entry => entry.1 = param.key)⟩ left
      (start.define param.key value) after definitions) :
    Takes setup (param :: params) ⟨[], named⟩ left before after
      ((param.key, value) :: definitions) where
  names := congrArg (param.key :: ·) takes.names
  defines := .define moves takes.defines
  byPlace _ := nofun
  byName entry member := by
    rcases List.mem_cons.mp ((CallArgs.perm_eraseP found).mem_iff.mp member) with rfl | other
    · exact .inl (List.mem_cons_self ..)
    · exact (takes.byName entry other).imp_left (List.mem_cons_of_mem _)
  others := takes.others.trans List.eraseP_sublist
  named once other member := by
    obtain ⟨gone, onceRest⟩ := CallArgs.nodup_names_eraseP once found
    rcases List.mem_cons.mp member with rfl | member
    · exact fun still => gone ((takes.others.map Prod.fst).subset still)
    · exact takes.named onceRest other member

theorem default (unnamed : named.lookup param.key = none)
    (takes : Takes setup params ⟨[], named⟩ left (start.define param.key value) after definitions) :
    Takes setup (param :: params) ⟨[], named⟩ left before after
      ((param.key, value) :: definitions) where
  names := congrArg (param.key :: ·) takes.names
  defines := .define moves takes.defines
  byPlace _ := nofun
  byName entry member := (takes.byName entry member).imp_left (List.mem_cons_of_mem _)
  others := takes.others
  named once other member := by
    rcases List.mem_cons.mp member with rfl | member
    · exact fun still =>
        Bindings.get?_eq_none_iff.mp unnamed ((takes.others.map Prod.fst).subset still)
    · exact takes.named once other member

end Takes

theorem bindAll_takes {params : List Parameter}
    (done : params.foldlM (bindOne (perform setup depth) callee) args before = (.ok left, after)) :
    ∃ definitions, Takes setup params args left before after definitions := by
  induction params generalizing args before with
  | nil =>
    cases done
    exact ⟨[],
      { names := rfl
        defines := .nothing (.refl _ _)
        byPlace := fun _ member => .inr member
        byName := fun _ member => .inr member
        others := .refl _
        named := by simp }⟩
  | cons param params ih =>
    rw [List.foldlM_cons] at done
    obtain ⟨⟨positional, named⟩, middle, first, done⟩ := Run.bind_eq_ok.mp done
    obtain ⟨value, start, rfl, origin, rfl, step⟩ := bindOne_cases first
    obtain ⟨definitions, takes⟩ := ih done
    have moves : Moves setup .value before start := by
      rcases origin with rfl | ⟨expr, evaluated⟩
      · exact .refl _ _
      · have moves := perform_moves setup depth (.evaluate expr false) before
        rwa [evaluated] at moves
    obtain ⟨given, passed⟩ := args
    refine ⟨(param.key, value) :: definitions, ?_⟩
    dsimp only at step takes
    rcases step with ⟨placed, rfl⟩ | ⟨rfl, found, rfl⟩ | ⟨rfl, unnamed, rfl⟩
    · rw [placed]
      exact takes.place moves
    · exact takes.name moves found
    · exact takes.default moves unnamed

/-- What a call binds: the parameters one by one, and the rest in one list. -/
theorem bind_defines {params : Parameters}
    (done : bind (perform setup depth) params args callee before = (.ok ⟨⟩, after)) :
    ∃ definitions, definitions.map Prod.fst = params.names ∧ Defines setup before definitions after ∧
      (∀ value ∈ args.positional, params.Binds definitions value) ∧
      ((Bindings.names args.named).Nodup → ∀ entry ∈ args.named,
        params.rest = none ∨ params.Awaits args entry.1 → entry ∈ definitions) := by
  obtain ⟨left, middle, taken, done⟩ := Run.bind_eq_ok.mp done
  obtain ⟨definitions, takes⟩ := bindAll_takes taken
  -- What a parameter awaits by name is taken, whatever becomes of the rest.
  have awaited (once : (Bindings.names args.named).Nodup) (entry : String × Value)
      (member : entry ∈ args.named) (awaits : params.Awaits args entry.1) : entry ∈ definitions := by
    obtain ⟨param, own, named⟩ := List.mem_map.mp awaits
    refine (takes.byName entry member).resolve_right fun still => ?_
    exact takes.named once param own (named ▸ List.mem_map_of_mem still)
  cases found : params.rest with
  | some rest =>
    simp only [found] at done
    cases done
    let list := (normalizeName rest, Value.listOf left.positional .comma)
    have names : (definitions ++ [list]).map Prod.fst = params.names := by
      simp [list, takes.names, Parameters.names, found, Parameter.key]
    refine ⟨_, names, ?_, fun value member => ?_, fun once entry member among => ?_⟩
    · have last := takes.defines.snoc (normalizeName rest) (.listOf left.positional .comma)
      rwa [Machine.define_normalizeName] at last
    · rcases takes.byPlace value member with ⟨name, bound⟩ | remains
      · exact .inl ⟨name, List.mem_append_left _ bound⟩
      · exact .inr ⟨rest, left.positional, found, by simp [list], remains⟩
    · have awaits : params.Awaits args entry.1 := among.resolve_left (by simp)
      exact List.mem_append_left _ (awaited once entry member awaits)
  | none =>
    have names : definitions.map Prod.fst = params.names := by
      simp [takes.names, Parameters.names, found, Parameter.key]
    obtain ⟨positional, named⟩ := left
    simp only [found] at done
    cases positional with
    | cons value positional => cases done
    | nil =>
      cases named with
      | cons entry named => cases done
      | nil =>
        cases done
        refine ⟨_, names, takes.defines, fun value member => ?_, fun _ entry member _ => ?_⟩
        · exact .inl ((takes.byPlace value member).resolve_right List.not_mem_nil)
        · exact (takes.byName entry member).resolve_right List.not_mem_nil

end Taken

section Dropped

variable (self : Perform) (callee : String) {kept : String → Prop} [DecidablePred kept]

theorem lookup_filter_of_kept {name : String} (held : kept name) (named : List (String × Value)) :
    (named.filter fun entry => kept entry.1).lookup name = named.lookup name := by
  induction named with
  | nil => rfl
  | cons entry rest ih =>
    obtain ⟨key, value⟩ := entry
    by_cases own : kept key
    · rw [List.filter_cons_of_pos (by simpa using own), List.lookup_cons, List.lookup_cons, ih]
    · have apart : (name == key) = false := by
        simpa using fun same : name = key => own (same ▸ held)
      rw [List.filter_cons_of_neg (by simpa using own), List.lookup_cons, apart]
      exact ih

theorem eraseP_filter_of_kept {name : String} (held : kept name) (named : List (String × Value)) :
    (named.filter fun entry => kept entry.1).eraseP (fun entry => entry.1 = name) =
      (named.eraseP fun entry => entry.1 = name).filter fun entry => kept entry.1 := by
  induction named with
  | nil => rfl
  | cons entry rest ih =>
    obtain ⟨key, value⟩ := entry
    by_cases same : key = name
    · subst same
      rw [List.filter_cons_of_pos (by simpa using held), List.eraseP_cons_of_pos (by simp),
        List.eraseP_cons_of_pos (by simp)]
    · rw [List.eraseP_cons_of_neg (by simpa using same), List.filter_cons, List.filter_cons]
      split
      · rw [List.eraseP_cons_of_neg (by simpa using same), ih]
      · exact ih

/-- A parameter does not notice the names that are neither its own nor ahead of it. -/
theorem bindOne_only {args : CallArgs} {param : Parameter}
    (held : args.positional = [] → kept param.key) :
    bindOne self callee (args.only kept) param = (·.only kept) <$> bindOne self callee args param := by
  funext machine
  obtain ⟨positional, named⟩ := args
  rw [map_eq_pure_bind]
  cases positional with
  | cons value positional => rfl
  | nil =>
    have same : (named.filter fun entry => kept entry.1).lookup param.key = named.lookup param.key :=
      lookup_filter_of_kept (held rfl) named
    change bindOne self callee ⟨[], named.filter fun entry => kept entry.1⟩ param machine = _
    cases found : named.lookup param.key with
    | some value =>
      rw [bindOne_named self callee (same.trans found), Run.bind_apply, bindOne_named self callee found,
        eraseP_filter_of_kept (held rfl)]
      rfl
    | none =>
      cases given : param.default with
      | none =>
        rw [bindOne_missing self callee (same.trans found) given,
          bindOne_missing self callee found given]
        rfl
      | some expr =>
        rw [bindOne_default self callee (same.trans found) given,
          bindOne_default self callee found given, bind_assoc]
        rfl

theorem bindAll_only {params : List Parameter} {args : CallArgs}
    (held : ∀ param ∈ params.drop args.positional.length, kept param.key) :
    params.foldlM (bindOne self callee) (args.only kept) =
      (·.only kept) <$> params.foldlM (bindOne self callee) args := by
  induction params generalizing args with
  | nil => rfl
  | cons param params ih =>
    have own : args.positional = [] → kept param.key := by
      intro unplaced
      rw [unplaced] at held
      exact held param (List.mem_cons_self ..)
    funext machine
    rw [List.foldlM_cons, List.foldlM_cons, bindOne_only self callee own, map_eq_pure_bind,
      map_eq_pure_bind, bind_assoc, bind_assoc, Run.bind_apply, Run.bind_apply]
    cases first : bindOne self callee args param machine with
    | mk result middle =>
      cases result with
      | error fault => rfl
      | ok next =>
        obtain ⟨-, -, -, -, tail, -⟩ := bindOne_cases first
        dsimp only
        rw [pure_bind, ih, map_eq_pure_bind]
        intro other member
        rw [tail, List.length_tail] at member
        cases placed : args.positional with
        | nil =>
          rw [placed] at member held
          exact held other (List.mem_cons_of_mem _ member)
        | cons value positional =>
          rw [placed] at member held
          exact held other member

/-- A call with a parameter for the rest goes on as without the names that nothing awaits. -/
theorem bind_only {params : Parameters} {rest : String} (takesRest : params.rest = some rest)
    (args : CallArgs) :
    bind self params args callee = bind self params (args.only (params.Awaits args)) callee := by
  have awaited : ∀ param ∈ params.params.drop args.positional.length, params.Awaits args param.key :=
    fun param member => List.mem_map_of_mem member
  unfold bind
  rw [bindAll_only self callee awaited, takesRest, map_eq_pure_bind, bind_assoc]
  rfl

end Dropped

end Eval

end Scss
