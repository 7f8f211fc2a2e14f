import Scss.Compiler
import Scss.Proofs.Arguments.Binding

/-! Arguments by place and by name. A function of the library gets its values by the places of its
signature, whatever the order of the names; parameters are defined alike whether their values come by
place or by name. No value by place is lost behind a call that is not refused, and a value by name is
lost only if there is a parameter for the rest: behind the values by place nothing has its name, and
that parameter takes no names. -/
namespace Scss.Eval

open Machine (Moves Defines)

/-- Values that are passed by name come to their places in whatever order they are passed: among the
slots of a signature and among the parameters of a call. -/
theorem keywords_in_place :
    (∀ (signature : List String) (args : CallArgs), signature.Nodup →
      (Bindings.names args.named).Nodup →
      ((∃ slots, args.normalize signature = .ok slots) ↔
        ∀ entry ∈ args.named,
          ∃ index, args.positional.length ≤ index ∧ signature[index]? = some entry.1) ∧
      (∀ slots, args.normalize signature = .ok slots →
        slots.length = args.extent signature ∧
          ∀ index < slots.length, slots[index]? = some (args.slot signature index)) ∧
      ∀ other : CallArgs, other.positional = args.positional → other.named.Perm args.named →
        (other.normalize signature).toOption = (args.normalize signature).toOption) ∧
    ∀ (self : Perform) (callee : String) (params : Parameters) (values : List Value) (count : Nat)
      (named : List (String × Value)) (machine : Machine),
      params.rest = none → (params.params.map Parameter.key).Nodup →
      values.length = params.params.length →
      named.Perm (((params.params.map Parameter.key).zip values).drop count) →
      bind self params ⟨values.take count, named⟩ callee machine =
          bind self params ⟨values, []⟩ callee machine ∧
        bind self params ⟨values, []⟩ callee machine =
          (.ok ⟨⟩, machine.defineAll ((params.params.map Parameter.key).zip values)) := by
  constructor
  · intro signature args distinct once
    refine ⟨CallArgs.normalize_isOk_iff distinct once, fun slots done => ?_, ?_⟩
    · have fits := (CallArgs.normalize_isOk_iff distinct once).mp ⟨slots, done⟩
      obtain rfl := Except.ok.inj (done.symm.trans (CallArgs.normalize_of_fits distinct once fits))
      refine ⟨by rw [List.length_map, List.length_range], fun index inside => ?_⟩
      rw [List.length_map, List.length_range] at inside
      rw [List.getElem?_map, List.getElem?_range inside, Option.map_some]
    · intro other positional named
      have onceOther : (Bindings.names other.named).Nodup := (named.map Prod.fst).nodup_iff.mpr once
      by_cases fits : args.Fits signature
      · have fitsOther := (CallArgs.fits_of_perm positional named).mpr fits
        rw [CallArgs.normalize_of_fits distinct onceOther fitsOther,
          CallArgs.normalize_of_fits distinct once fits, CallArgs.extent_of_perm positional named,
          CallArgs.slot_of_perm positional named once]
      · have unfitOther := (CallArgs.fits_of_perm positional named).not.mpr fits
        obtain ⟨cause, failed⟩ := CallArgs.normalize_of_not_fits distinct once fits
        obtain ⟨causeOther, failedOther⟩ :=
          CallArgs.normalize_of_not_fits distinct onceOther unfitOther
        rw [failed, failedOther]
        rfl
  · intro self callee params values count named machine restless distinct full others
    have whole : bind self params ⟨values, []⟩ callee machine =
        (.ok ⟨⟩, machine.defineAll ((params.params.map Parameter.key).zip values)) := by
      have given := @bind_given self callee params values [] restless full distinct values.length
        (by simp [full]) machine
      rwa [List.take_length] at given
    exact ⟨(bind_given self callee restless full distinct count others machine).trans whole.symm,
      whole⟩

/-- `math.div` by its names in the other order, and a mixin whose second and third parameters are passed
by name in the other order. -/
theorem keywords_in_place_division :
    let args : CallArgs := ⟨[], [("number2", .bool true), ("number1", .null)]⟩
    let setup := (Compiler.create {} (Loader.memory [])).setup
    let machine := { Machine.start "main.scss" with frames := [.fresh false] }
    let params : Parameters := ⟨[⟨"a", none⟩, ⟨"b_c", none⟩, ⟨"d", none⟩], none⟩
    let values := [Value.null, .bool true, .quoted "d"]
    let named := [("d", Value.quoted "d"), ("b-c", .bool true)]
    args.normalize ["number1", "number2"] = .ok [.null, .bool true] ∧
      (∃ slots, args.normalize ["number1", "number2"] = .ok slots) ∧
      bind (perform setup 1) params ⟨[.null], named⟩ "m" machine =
        bind (perform setup 1) params ⟨values, []⟩ "m" machine := by
  intro args setup machine params values named
  refine ⟨rfl, ?_, ?_⟩
  · refine (keywords_in_place.1 ["number1", "number2"] args (by decide) (by decide)).1.mpr ?_
    intro entry member
    rcases List.mem_pair.mp member with rfl | rfl
    · exact ⟨1, Nat.zero_le _, rfl⟩
    · exact ⟨0, Nat.zero_le _, rfl⟩
  · have keys : params.params.map Parameter.key = ["a", "b-c", "d"] := by decide
    refine (keywords_in_place.2 (perform setup 1) "m" params values 1 named machine rfl ?_ rfl ?_).1
    · rw [keys]
      decide
    · rw [keys]
      exact .swap _ _ _

/-- Behind a call that is not refused, each value by place is bound, and each value by name whose name a
parameter awaits behind the values by place; without a parameter for the rest these are all. With one,
the call is the same as without the others. -/
theorem arguments_bound {setup : Setup} {depth : Nat} {params : Parameters} {args : CallArgs}
    {callee : String} {before after : Machine} (once : (Bindings.names args.named).Nodup)
    (done : bind (perform setup depth) params args callee before = (.ok ⟨⟩, after)) :
    ∃ definitions, definitions.map Prod.fst = params.names ∧ Defines setup before definitions after ∧
      (∀ frame outer, before.frames = frame :: outer →
        after.frames =
          { frame with
            vars := definitions.foldl (fun vars entry => vars.set (normalizeName entry.1) entry.2)
              frame.vars } :: outer) ∧
      (∀ value ∈ args.positional, params.Binds definitions value) ∧
      (∀ entry ∈ args.named, params.rest = none ∨ params.Awaits args entry.1 →
        entry ∈ definitions) ∧
      (params.rest ≠ none →
        bind (perform setup depth) params (args.only (params.Awaits args)) callee before =
          (.ok ⟨⟩, after)) := by
  obtain ⟨definitions, names, defines, byPlace, byName⟩ := bind_defines done
  refine ⟨definitions, names, defines, fun frame outer => defines.frames_eq, byPlace, byName once, ?_⟩
  intro takesRest
  obtain ⟨rest, found⟩ := Option.ne_none_iff_exists'.mp takesRest
  rw [← bind_only (perform setup depth) callee found, done]

/-- One value is passed by place and one by the name of a parameter; one more name is left. -/
theorem arguments_bound_mixed :
    let setup := (Compiler.create {} (Loader.memory [])).setup
    let before := { Machine.start "main.scss" with frames := [.fresh false] }
    let params : Parameters := ⟨[⟨"a", none⟩, ⟨"b", none⟩], some "rest"⟩
    let args : CallArgs := ⟨[.null], [("c", .bool false), ("b", .bool true)]⟩
    ∃ after, bind (perform setup 1) params args "m" before = (.ok ⟨⟩, after) ∧
      bind (perform setup 1) params ⟨[.null], [("b", .bool true)]⟩ "m" before = (.ok ⟨⟩, after) ∧
      ∃ definitions, Defines setup before definitions after ∧ params.Binds definitions .null ∧
        ("b", .bool true) ∈ definitions := by
  intro setup before params args
  have once : (Bindings.names args.named).Nodup := by decide
  have awaits : params.Awaits args "b" := by decide
  have kept : args.only (params.Awaits args) = ⟨[.null], [("b", .bool true)]⟩ := rfl
  have done : bind (perform setup 1) params args "m" before =
      (.ok ⟨⟩, { before with
        frames := [⟨[("a", .null), ("b", .bool true), ("rest", .listOf [] .comma)], false⟩] }) := rfl
  obtain ⟨definitions, -, defines, -, byPlace, byName, dropped⟩ := arguments_bound once done
  exact ⟨_, done, kept ▸ dropped nofun, definitions, defines, byPlace _ (by simp [args]),
    byName _ (by simp [args]) (.inr awaits)⟩

/-- With a parameter for the rest, a value by a name that no parameter has is dropped. -/
theorem leftover_name_dropped :
    let compiler := Compiler.create {} (Loader.memory [])
    let before := { Machine.start "input.scss" with frames := [.fresh false] }
    let params : Parameters := ⟨[⟨"a", none⟩], some "rest"⟩
    let args : CallArgs := ⟨[.bool true], [("c", .bool false)]⟩
    let after := { before with
      frames := [⟨[("a", .bool true), ("rest", .listOf [] .comma)], false⟩] }
    (bind (perform compiler.setup 1) params args "f" before = (.ok ⟨⟩, after) ∧
      ∀ definitions, definitions.map Prod.fst = params.names →
        Defines compiler.setup before definitions after → ¬ params.Binds definitions (.bool false)) ∧
    (compiler.compile
        ⟨"input.scss", "@function f($a, $rest...) \x7b @return $a; \x7d\n" ++
          "a \x7b b: f(true, $c: false); \x7d\n"⟩ .scss).result = .ok "a \x7b\n  b: true;\n\x7d\n" := by
  intro compiler before params args after
  refine ⟨⟨rfl, fun definitions names defines => ?_⟩, by decide +kernel⟩
  have frames := @Defines.frames_eq _ _ _ _ defines (.fresh false) [] rfl
  have keys : params.names = ["a", "rest"] := by decide
  rw [keys] at names
  -- The frame that is left tells what was defined under the two names.
  match definitions, names with
  | [(_, first), (_, second)], names =>
    obtain ⟨rfl, rfl⟩ : _ = "a" ∧ _ = "rest" := by simpa using names
    have plain : normalizeName "a" = "a" ∧ normalizeName "rest" = "rest" := by decide
    have vars : [("a", Value.bool true), ("rest", .listOf [] .comma)] =
        [("a", first), ("rest", second)] := by
      have top := congrArg Frame.vars (List.cons.inj frames).1
      simp only [List.foldl_cons, List.foldl_nil, plain.1, plain.2] at top
      exact top
    obtain ⟨rfl, rfl⟩ : .bool true = first ∧ .listOf [] .comma = second := by simpa using vars
    rintro (⟨name, bound⟩ | ⟨rest, values, -, bound, member⟩)
    · simp [Value.listOf] at bound
    · obtain ⟨-, rfl⟩ : normalizeName rest = "rest" ∧ values = [] := by simpa [Value.listOf] using bound
      cases member

end Scss.Eval
