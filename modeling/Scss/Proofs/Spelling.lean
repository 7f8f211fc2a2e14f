import Scss.Compiler
import Scss.Proofs.Spelling.Statements

/-! Underscores and hyphens in names are interchangeable. Two spellings of a stylesheet, over two
spellings of the files that it loads, are compiled to the same text; or both fail, for causes of one
kind and at one statement. Both compilations draw the same numbers, or else not even one spelling has
one text. -/
namespace Scss

/-- Files in memory, registered under the same paths in two spellings. -/
theorem Loader.respelled_memory {files others : List (String × String)}
    (each : List.Forall₂ (fun file other => LoadedFile.Respelled ⟨file.1, file.2⟩ ⟨other.1, other.2⟩)
      files others) : (Loader.memory files).Respelled (Loader.memory others) := by
  have registered (path : String) : Option.Rel LoadedFile.Respelled
      ((files.lookup path).map (LoadedFile.mk path))
      ((others.lookup path).map (LoadedFile.mk path)) := by
    induction each with
    | nil => exact .none
    | @cons file other _ _ first _ ih =>
      obtain ⟨key, contents⟩ := file
      obtain ⟨_, also⟩ := other
      obtain rfl := first.path
      simp only [List.lookup_cons]
      split
      · rename_i same
        obtain rfl := eq_of_beq same
        exact .some first
      · exact ih
  intro address
  have tried : List.Forall₂ Eq (candidates ((Text.dropStart? "./" address).getD address))
      (candidates ((Text.dropStart? "./" address).getD address)) :=
    List.forall₂_same.mpr fun _ _ => rfl
  have found : Option.Rel LoadedFile.Respelled
      ((candidates ((Text.dropStart? "./" address).getD address)).findSome? fun path =>
        (files.lookup path).map (LoadedFile.mk path))
      ((candidates ((Text.dropStart? "./" address).getD address)).findSome? fun path =>
        (others.lookup path).map (LoadedFile.mk path)) :=
    rel_findSome? tried fun {path _} same => same ▸ registered path
  simp only [Loader.memory]
  generalize List.findSome? (fun path => (files.lookup path).map (LoadedFile.mk path)) _ = file at found
  generalize List.findSome? (fun path => (others.lookup path).map (LoadedFile.mk path)) _ = other at found
  cases found with
  | none => exact .none
  | some both => exact .some both

namespace Compiler

def withLoader (compiler : Compiler) (loader : Loader) : Compiler :=
  { compiler with setup := compiler.setup.withLoader loader }

/-- What a stylesheet that can be read is compiled to. -/
theorem compile_of_read (compiler : Compiler) (entry : Entry) {dialect : Dialect}
    {nodes : List Statement} (read : Grammar.stylesheet (dialect.toScss entry.text) = .ok nodes) :
    (compiler.compile entry dialect).result =
      (Eval.stylesheet compiler.setup nodes (Machine.start entry.file)).1.map fun text =>
        (if compiler.setup.options.isCompressed then Compress.text text else text) ++
          mapComment compiler.setup.options := by
  unfold compile
  rw [read]
  dsimp only
  rcases Eval.stylesheet compiler.setup nodes (Machine.start entry.file) with ⟨_ | _, _⟩ <;> rfl

/-- Two spellings of a stylesheet are compiled to the same text, or fail for causes of one kind at one
line of one file, if the compilers differ in their files alone; so what they draw is the same. -/
theorem compile_respelled (compiler : Compiler) {loader : Loader}
    (files : compiler.setup.loader.Respelled loader) (file : String) {text other : String}
    (dialect also : Dialect) {nodes others : List Statement}
    (read : Grammar.stylesheet (dialect.toScss text) = .ok nodes)
    (readOther : Grammar.stylesheet (also.toScss other) = .ok others)
    (each : Statements.Respelled nodes others) :
    (∃ css, (compiler.compile ⟨file, text⟩ dialect).result = .ok css ∧
      ((compiler.withLoader loader).compile ⟨file, other⟩ also).result = .ok css) ∨
    ∃ fault twin, (compiler.compile ⟨file, text⟩ dialect).result = .error fault ∧
      ((compiler.withLoader loader).compile ⟨file, other⟩ also).result = .error twin ∧
      fault.Respelled twin := by
  have same := (Eval.stylesheet_same files each _ _ (Machine.respelled_start file)).2
  rw [compile_of_read _ ⟨file, text⟩ read, compile_of_read _ ⟨file, other⟩ readOther]
  revert same
  change Concur _ _ (Eval.stylesheet compiler.setup nodes (Machine.start file)).1
    (Eval.stylesheet (compiler.withLoader loader).setup others (Machine.start file)).1 → _
  generalize (Eval.stylesheet compiler.setup nodes (Machine.start file)).1 = result
  generalize (Eval.stylesheet (compiler.withLoader loader).setup others (Machine.start file)).1 = twin
  intro same
  cases same with
  | ok same => exact .inl ⟨_, rfl, same ▸ rfl⟩
  | error both => exact .inr ⟨_, _, rfl, rfl, both⟩

/-- Whether a file holds a mixin alone, with one parameter and one line, which shows a variable. -/
def holdsMixin (name param shown : String) : List Statement → Bool
  | [.mixinDef own ⟨[⟨first, none⟩], none⟩
      [.property ⟨⟨[.literal "top"], 1⟩, some (.var var 1), false, [], 1⟩] 1] =>
    own = name && first = param && var = shown
  | _ => false

/-- Whether a file has a rule that includes a mixin of a module with one argument. -/
def includesWith (mixin arg : String) : List Statement → Bool
  | [.useModule "lib" none [] 1, .rule ⟨⟨[.literal ".a"], 2⟩, 2⟩
      [.includeMixin (some "lib") own [⟨some label, .identifier "auto" ⟨2, 29⟩, false⟩] none 2] 2] =>
    own = mixin && label = arg
  | _ => false

theorem respelled_of_holdsMixin {name label param paramOther shown shownOther : String}
    (names : SameName name label) (params : SameName param paramOther)
    (vars : SameName shown shownOther) {nodes others : List Statement}
    (holds : holdsMixin name param shown nodes = true)
    (also : holdsMixin label paramOther shownOther others = true) :
    Statements.Respelled nodes others := by
  unfold holdsMixin at holds also
  split at holds
  · split at also
    · simp only [Bool.and_eq_true, decide_eq_true_eq] at holds also
      obtain ⟨⟨rfl, rfl⟩, rfl⟩ := holds
      obtain ⟨⟨rfl, rfl⟩, rfl⟩ := also
      refine .cons (.mixinDef names (.mk (.cons (.mk params .none) .nil) .none) ?_ 1) .nil
      refine .cons (.property (.mk (.mk ?_ 1) (.some (.var vars 1)) false .nil 1)) .nil
      exact .cons (.literal "top") .nil
    · cases also
  · cases holds

theorem respelled_of_includesWith {mixin label arg argOther : String} (names : SameName mixin label)
    (args : SameName arg argOther) {nodes others : List Statement}
    (includes : includesWith mixin arg nodes = true)
    (also : includesWith label argOther others = true) :
    Statements.Respelled nodes others := by
  unfold includesWith at includes also
  split at includes
  · split at also
    · simp only [Bool.and_eq_true, decide_eq_true_eq] at includes also
      obtain ⟨rfl, rfl⟩ := includes
      obtain ⟨rfl, rfl⟩ := also
      refine .cons (.useModule "lib" none .nil 1) (.cons (.rule (.mk (.mk ?_ 2) 2) ?_ 2) .nil)
      · exact .cons (.literal ".a") .nil
      · refine .cons (.includeMixin (some "lib") names (.cons ?_ .nil) .none 2) .nil
        exact .mk (.some args) (.identifier "auto" ⟨2, 29⟩) false
    · cases also
  · cases includes

/-- What a check of what is read says of it. -/
theorem exists_of_any {α : Type} {result : Except Fault α} {check : α → Bool}
    (checked : result.toOption.any check = true) : ∃ value, result = .ok value ∧ check value = true := by
  cases result with
  | error fault => cases checked
  | ok value => exact ⟨value, rfl, checked⟩

/-- A mixin of another file and its argument, each spelled in two ways. -/
theorem compile_respelled_mixin :
    let files := [("lib.scss", "@mixin m-n($p_q) \x7b top: $p-q; \x7d")]
    let others := [("lib.scss", "@mixin m_n($p-q) \x7b top: $p_q; \x7d")]
    let compiler := create {} (Loader.memory files)
    let text := "@use \"lib\";\n.a \x7b @include lib.m_n($p-q: auto); \x7d"
    let other := "@use \"lib\";\n.a \x7b @include lib.m-n($p_q: auto); \x7d"
    let css := ".a \x7b\n  top: auto;\n\x7d\n"
    (Loader.memory files).Respelled (Loader.memory others) ∧
      (compiler.compile ⟨"c.scss", text⟩ .scss).result = .ok css ∧
      ((compiler.withLoader (Loader.memory others)).compile ⟨"c.scss", other⟩ .scss).result = .ok css := by
  intro files others compiler text other css
  have library : (Eval.statementsOf ⟨"lib.scss", "@mixin m-n($p_q) \x7b top: $p-q; \x7d"⟩).toOption.any
      (holdsMixin "m-n" "p_q" "p-q") = true := by decide +kernel
  have libraryOther : (Eval.statementsOf
      ⟨"lib.scss", "@mixin m_n($p-q) \x7b top: $p_q; \x7d"⟩).toOption.any
      (holdsMixin "m_n" "p-q" "p_q") = true := by decide +kernel
  have main : (Grammar.stylesheet text).toOption.any (includesWith "m_n" "p-q") = true := by
    decide +kernel
  have mainOther : (Grammar.stylesheet other).toOption.any (includesWith "m-n" "p_q") = true := by
    decide +kernel
  obtain ⟨_, read, holds⟩ := exists_of_any library
  obtain ⟨_, readOther, holdsOther⟩ := exists_of_any libraryOther
  obtain ⟨_, parsed, includes⟩ := exists_of_any main
  obtain ⟨_, parsedOther, includesOther⟩ := exists_of_any mainOther
  have spelled : (Loader.memory files).Respelled (Loader.memory others) := by
    refine Loader.respelled_memory (.cons ⟨rfl, ?_⟩ .nil)
    rw [read, readOther]
    exact .ok (respelled_of_holdsMixin (by decide) (by decide) (by decide) holds holdsOther)
  have written : (compiler.compile ⟨"c.scss", text⟩ .scss).result = .ok css := by decide +kernel
  refine ⟨spelled, written, ?_⟩
  have sheets := respelled_of_includesWith (by decide) (by decide) includes includesOther
  rcases compile_respelled compiler spelled "c.scss" .scss .scss parsed parsedOther sheets with
    ⟨_, first, second⟩ | ⟨_, _, failed, -⟩
  · rw [second, ← first, written]
  · rw [written] at failed
    cases failed

/-- Whether a stylesheet sets a variable to a number drawn, and shows whether the next one equals it. -/
def comparesDraws (name shown : String) : List Statement → Bool
  | [.assign none own (.call none "random" [] 1) false false 1, .rule ⟨⟨[.literal "a"], 2⟩, 2⟩
      [.property ⟨⟨[.literal "b"], 2⟩, some (.binary .eq (.var var 2) (.call none "random" [] 2) 2), false,
        [], 2⟩] 2] => own = name && var = shown
  | _ => false

theorem respelled_of_comparesDraws {name label shown shownOther : String} (names : SameName name label)
    (vars : SameName shown shownOther) {nodes others : List Statement}
    (compares : comparesDraws name shown nodes = true)
    (also : comparesDraws label shownOther others = true) : Statements.Respelled nodes others := by
  unfold comparesDraws at compares also
  split at compares
  · split at also
    · simp only [Bool.and_eq_true, decide_eq_true_eq] at compares also
      obtain ⟨rfl, rfl⟩ := compares
      obtain ⟨rfl, rfl⟩ := also
      refine .cons (.assign none names (.refl _) false false 1) (.cons ?_ .nil)
      refine .rule (.mk (.mk (.cons (.literal "a") .nil) 2) 2) (.cons ?_ .nil) 2
      refine .property (.mk (.mk (.cons (.literal "b") .nil) 2) (.some ?_) false .nil 2)
      exact .binary .eq (.var vars 2) (.refl _) 2
    · cases also
  · cases compares

/-- Two spellings of a stylesheet that draws numbers, compiled with a source of chance that gives one number
again and again and with one that does not. -/
theorem respelled_draws_apart :
    let even : Chance := ⟨fun _ => 0.5, fun _ _ => 1⟩
    let compiler := create {} (Loader.memory [])
    let text := "$x-y: random();\na \x7b b: $x-y == random(); \x7d"
    let other := "$x_y: random();\na \x7b b: $x-y == random(); \x7d"
    even.Ranged ∧ compiler.setup.chance.Ranged ∧
    (∃ nodes others, Grammar.stylesheet text = .ok nodes ∧ Grammar.stylesheet other = .ok others ∧
      Statements.Respelled nodes others) ∧
    ((compiler.withChance even).compile ⟨"c.scss", text⟩ .scss).result =
      .ok "a \x7b\n  b: true;\n\x7d\n" ∧
    (compiler.compile ⟨"c.scss", other⟩ .scss).result = .ok "a \x7b\n  b: false;\n\x7d\n" := by
  intro even compiler text other
  have main : (Grammar.stylesheet text).toOption.any (comparesDraws "x-y" "x-y") = true := by decide +kernel
  have mainOther : (Grammar.stylesheet other).toOption.any (comparesDraws "x_y" "x-y") = true := by
    decide +kernel
  obtain ⟨_, parsed, compares⟩ := exists_of_any main
  obtain ⟨_, parsedOther, comparesOther⟩ := exists_of_any mainOther
  have inside : (0.0 : Float) ≤ 0.5 ∧ (0.5 : Float) < 1.0 := by decide +kernel
  refine ⟨⟨fun _ => inside, fun _ _ positive => ⟨le_rfl, positive⟩⟩, Chance.turning_ranged, ?_, ?_, ?_⟩
  · exact ⟨_, _, parsed, parsedOther,
      respelled_of_comparesDraws (by decide) (by decide) compares comparesOther⟩
  · decide +kernel
  · decide +kernel

end Compiler

end Scss
