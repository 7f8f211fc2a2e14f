import Scss.Compiler
import Scss.Proofs.Grammar.Reading
import Scss.Proofs.Logic.Statements

/-! What becomes of the statements in blocks of keyframes. The blocks are read like those of rules, but only
their properties are kept, and of a property only its own line is written: custom properties, nested
properties and whatever would have to run are lost. -/
namespace Scss

/-- A block of keyframes with all the statements in it. -/
structure FullBlock where
  selectors : List String
  body : List Statement
  line : Nat

namespace Statement

def declaration? : Statement → Option (Declaration Statement)
  | property d => some d
  | _ => none

def isComment : Statement → Bool
  | comment _ _ => true
  | _ => false

/-- A comment, or a property with nothing nested in it. -/
def survives : Statement → Bool
  | comment _ _ => true
  | property d => d.nested.isEmpty
  | _ => false

end Statement

def FullBlock.narrow (block : FullBlock) : KeyframeBlock Statement :=
  ⟨block.selectors, block.body.filterMap Statement.declaration?, block.line⟩

namespace FullBlock

/-- What is kept of a block is all of it but its comments if it has nothing but comments and properties,
and only then. -/
theorem narrow_whole_iff (block : FullBlock) :
    block.narrow.declarations.map .property = block.body.filter (fun node => !node.isComment) ↔
      ∀ node ∈ block.body, node.isComment = true ∨ ∃ d, node = .property d := by
  obtain ⟨selectors, body, line⟩ := block
  dsimp only [narrow]
  constructor
  · intro same node member
    refine or_iff_not_imp_left.mpr fun other => ?_
    have written : node ∈ body.filter fun node => !node.isComment :=
      List.mem_filter.mpr ⟨member, by simpa using other⟩
    rw [← same] at written
    obtain ⟨d, -, rfl⟩ := List.mem_map.mp written
    exact ⟨d, rfl⟩
  · intro each
    induction body with
    | nil => rfl
    | cons node rest ih =>
      obtain ⟨here, behind⟩ := List.forall_mem_cons.mp each
      cases node with
      | comment => exact ih behind
      | property d => exact congrArg (.property d :: ·) (ih behind)
      | _ => simp [Statement.isComment] at here

end FullBlock

namespace Parser

variable {α β σ τ : Type}

def Next.map (f : σ → τ) (g : α → β) : Next σ α → Next τ β
  | .again state => .again (f state)
  | .done result => .done (g result)

/-- A loop whose rounds go on and end like those of another one ends like it. -/
theorem loop_map {f : σ → τ} {g : α → β} {step : σ → Parser (Next σ α)}
    {twin : τ → Parser (Next τ β)}
    (same : ∀ state, twin (f state) = Next.map f g <$> step state) (init : σ) :
    loop (f init) twin = g <$> loop init step := by
  have within (bound : List Token) (state : σ) :
      loopWithin twin bound (f state) = g <$> loopWithin step bound state := by
    induction bound generalizing state with
    | nil =>
      rw [loopWithin, loopWithin, same, map_bind, bind_map_left]
      refine bind_congr fun next => ?_
      cases next with
      | again => rfl
      | done result => exact (map_pure g result).symm
    | cons token bound ih =>
      rw [loopWithin, loopWithin, same, map_bind, bind_map_left]
      refine bind_congr fun next => ?_
      cases next with
      | again state => exact ih state
      | done result => exact (map_pure g result).symm
  rw [loop, loop, map_bind]
  exact bind_congr fun cursor => within cursor.ahead init

end Parser

namespace Grammar.Blocks

open Scss.Parser

variable (b : Blocks)

def fullBlock : Parser FullBlock := do
  let token ← current
  match (← raw b.self headStops false).plain? with
  | none => fail (.invalid "Interpolation is not supported in keyframe selectors" token.position)
  | some text =>
    let selectors := ((Text.splitOn ',' text).map Text.trim).filter (fun part => !part.isEmpty)
    return ⟨selectors, ← b.block, token.line⟩

/-- One round of the blocks of keyframes: the end, or a block as `block` reads it. -/
def keyframesRound {β : Type} (block : Parser β) (done : List β) : Parser (Next (List β) (List β)) := do
  skipTrivia
  if ← accept .rightBrace then return .done done
  if ← atEnd then unexpected "`\x7d`"
  else return .again (done ++ [← block])

def fullKeyframes : Parser (Template × List FullBlock) := do
  let name ← raw b.self headStops false
  let _ ← expect .leftBrace
  let blocks ← loop [] (keyframesRound b.fullBlock)
  return (name, blocks)

theorem keyframeBlock_eq : b.keyframeBlock = FullBlock.narrow <$> b.fullBlock := by
  rw [keyframeBlock, fullBlock, map_bind]
  refine bind_congr fun token => ?_
  rw [map_bind]
  refine bind_congr fun template => ?_
  cases template.plain? with
  | none => rfl
  | some text =>
    dsimp only
    rw [map_bind]
    refine bind_congr fun body => ?_
    rw [map_pure]
    rfl

theorem keyframesRound_map {β γ : Type} (f : β → γ) (block : Parser β) (done : List β) :
    keyframesRound (f <$> block) (done.map f) =
      Next.map (List.map f) (List.map f) <$> keyframesRound block done := by
  rw [keyframesRound, keyframesRound, map_bind]
  refine bind_congr fun _ => ?_
  rw [map_bind]
  refine bind_congr fun closed => ?_
  cases closed with
  | true => exact (map_pure _ _).symm
  | false =>
    rw [if_neg Bool.false_ne_true, if_neg Bool.false_ne_true, map_bind]
    refine bind_congr fun ended => ?_
    cases ended with
    | true => rfl
    | false =>
      rw [if_neg Bool.false_ne_true, if_neg Bool.false_ne_true, bind_map_left, map_bind]
      refine bind_congr fun read => ?_
      rw [map_pure, Next.map, List.map_append]
      rfl

theorem keyframesStatement_eq (keyword : String) (line : Nat) :
    b.keyframesStatement keyword line =
      (fun read => .keyframes keyword read.1 (read.2.map FullBlock.narrow) line) <$> b.fullKeyframes := by
  have rounds : loop [] (keyframesRound b.keyframeBlock) =
      List.map FullBlock.narrow <$> loop [] (keyframesRound b.fullBlock) := by
    rw [keyframeBlock_eq]
    exact loop_map (keyframesRound_map FullBlock.narrow b.fullBlock) []
  rw [fullKeyframes, map_bind]
  refine bind_congr fun name => ?_
  rw [map_bind]
  refine bind_congr fun _ => ?_
  rw [map_bind]
  change (loop [] (keyframesRound b.keyframeBlock) >>= fun blocks => _) = _
  rw [rounds, bind_map_left]
  rfl

end Grammar.Blocks

/-- Keyframes have a handler of their own, whichever browser they are for. -/
theorem Strategy.find?_keyframes {keyword : String}
    (named : keyword = "keyframes" ∨ Text.endsWith "-keyframes" keyword = true) :
    Strategy.find? Strategy.all keyword = some .keyframes := by
  have taken : Strategy.keyframes.handles keyword = true := by
    simpa [Strategy.handles] using named
  have left : Strategy.conditional.handles keyword = false := by
    by_contra conditional
    have kinds : keyword = "media" ∨ keyword = "supports" ∨ keyword = "container" := by
      simpa [Strategy.handles, or_iff_not_imp_left] using conditional
    obtain rfl | rfl | rfl := kinds <;> revert taken <;> decide
  simp [Strategy.find?, Strategy.all, left, taken]

/-- Steps that come to the same at the members of a list come to the same over the list. -/
theorem Run.mapM_congr {α β : Type} {step other : α → Run β} {items : List α}
    (same : ∀ item ∈ items, step item = other item) : items.mapM step = items.mapM other := by
  induction items with
  | nil => rfl
  | cons item rest ih =>
    obtain ⟨here, behind⟩ := List.forall_mem_cons.mp same
    rw [List.mapM_cons, List.mapM_cons, here, ih behind]

namespace Eval

variable (setup : Setup) (self : Perform)

def keyframesOf (lines : Statement → Run (List String)) (keyword : String) (name : Template)
    (blocks : List FullBlock) (level : Nat) : Run String := do
  let name ← interpolate setup self name
  let frames ← blocks.mapM fun frame => do
    let lines ← frame.body.mapM lines
    return block (Text.join ", " frame.selectors) (formatDeclarations lines.flatten (level + 2)) (level + 1)
  return block ("@" ++ keyword ++ " " ++ name) (String.join frames) level

/-- The line of a property with a value, without what is nested in it. -/
def ownLines : Statement → Run (List String)
  | .property d =>
    match d.value with
    | none => pure []
    | some _ => declaration setup self { d with nested := [] } none
  | _ => pure []

def frameLines : Statement → Run (List String)
  | .property d =>
    if d.value.isNone && d.nested.isEmpty then pure [] else declaration setup self d none
  | .customProperty name value _ => do
    let name ← interpolate setup self name
    let value ← interpolate setup self value
    return [name ++ ": " ++ value ++ ";"]
  | _ => pure []

def keyframesContext : Context Run := ⟨"keyframes", Keyframes.required, services setup self⟩

variable {setup self}

theorem formatDeclarations_append (first second : List String) (level : Nat) :
    formatDeclarations (first ++ second) level =
      formatDeclarations first level ++ formatDeclarations second level := by
  rw [formatDeclarations, List.map_append, String.join_append]
  rfl

theorem ownLines_of_none {node : Statement} (other : node.declaration? = none) :
    ownLines setup self node = pure [] := by
  cases node <;> first | rfl | cases other

theorem declaration_ownLines (level : Nat) (d : Declaration Statement) :
    Keyframes.declaration (keyframesContext setup self) level d =
      (do
        let lines ← ownLines setup self (.property d)
        return formatDeclarations lines level) := by
  obtain ⟨property, value, important, nested, line⟩ := d
  cases value with
  | none => exact (pure_bind _ _).symm
  | some expr =>
    have formatted (result : Value) :
        (keyframesContext setup self).format result = pure (setup.format.value result) := pure_bind _ _
    have shown (name text : String) :
        (if text.isEmpty then (pure "" : Run String)
          else pure (indent level ++ name ++ ": " ++ text ++ (if important then " !important" else "") ++
            ";\n")) =
          pure (formatDeclarations (propertyLine name text important) level) := by
      unfold propertyLine
      split
      · rfl
      · simp [formatDeclarations, String.join, String.append_assoc]
    rw [Keyframes.declaration, ownLines, declaration]
    dsimp only
    rw [bind_assoc]
    refine (bind_congr fun name => ?_ : interpolate setup self property >>= _ = _)
    rw [bind_assoc]
    refine (bind_congr fun result => ?_ : self (.evaluate expr false) >>= _ = _)
    rw [formatted, pure_bind, shown, pure_bind]
    simp

theorem keyframe_ownLines (level : Nat) (frame : FullBlock) :
    Keyframes.keyframe (keyframesContext setup self) level frame.narrow =
      (do
        let lines ← frame.body.mapM (ownLines setup self)
        return block (Text.join ", " frame.selectors) (formatDeclarations lines.flatten (level + 1))
          level) := by
  obtain ⟨selectors, body, line⟩ := frame
  have written : String.join <$> (body.filterMap Statement.declaration?).mapM
        (Keyframes.declaration (keyframesContext setup self) (level + 1)) =
      (fun lines => formatDeclarations lines.flatten (level + 1)) <$> body.mapM (ownLines setup self) := by
    induction body with
    | nil => simp [formatDeclarations, String.join]
    | cons node rest ih =>
      have behind : (fun lines => formatDeclarations lines.flatten (level + 1)) <$>
            (node :: rest).mapM (ownLines setup self) =
          (do
            let lines ← ownLines setup self node
            let text ← String.join <$> (rest.filterMap Statement.declaration?).mapM
              (Keyframes.declaration (keyframesContext setup self) (level + 1))
            return formatDeclarations lines (level + 1) ++ text) := by
        simp only [ih, List.mapM_cons, map_bind, map_pure, List.flatten_cons, formatDeclarations_append,
          bind_map_left]
      rw [behind]
      cases kept : node.declaration? with
      | none =>
        have empty (text : String) : formatDeclarations [] (level + 1) ++ text = text := String.empty_append
        rw [List.filterMap_cons_none kept, ownLines_of_none kept, pure_bind]
        simp only [empty, bind_pure]
      | some d =>
        obtain rfl : node = .property d := by cases node <;> cases kept; rfl
        rw [List.filterMap_cons_some kept, List.mapM_cons, declaration_ownLines]
        simp only [map_bind, map_pure, bind_assoc, pure_bind, bind_map_left, String.join_cons]
  calc
    _ = (String.join <$> (body.filterMap Statement.declaration?).mapM
          (Keyframes.declaration (keyframesContext setup self) (level + 1))) >>= fun text =>
            pure (block (Text.join ", " selectors) text level) := by
      rw [bind_map_left]
      rfl
    _ = _ := by rw [written, bind_map_left]

/-- Keyframes come to what is left of their blocks. -/
theorem styleStatement_keyframes (self : Perform) {keyword : String} (name : Template)
    (blocks : List FullBlock) (line : Nat)
    (handled : Strategy.find? setup.strategies keyword = some .keyframes) (level : Nat) :
    styleStatement setup self (.keyframes keyword name (blocks.map FullBlock.narrow) line) level =
      Body.ofText <$> keyframesOf setup self (ownLines setup self) keyword name blocks level := by
  have dispatched (around : Option String) :
      atRule setup self (.keyframes keyword name (blocks.map FullBlock.narrow) line) around level =
        keyframesOf setup self (ownLines setup self) keyword name blocks level := by
    rw [atRule, Strategy.dispatch, Statement.kind?]
    dsimp only
    rw [handled]
    refine (bind_congr fun written => ?_ : interpolate setup self name >>= _ = _)
    change ((blocks.map FullBlock.narrow).mapM
      (Keyframes.keyframe (keyframesContext setup self) (level + 1)) >>= _) = _
    rw [List.mapM_map]
    exact congrArg (blocks.mapM · >>= _) (funext (keyframe_ownLines (level + 1)))
  funext before
  rw [styleStatement, Run.get_bind_apply]
  dsimp only
  rw [dispatched, map_eq_pure_bind]

/-- Where nothing is lost, the lines that are left are all lines. -/
theorem ownLines_of_survives {node : Statement} (survives : node.survives = true) :
    ownLines setup self node = frameLines setup self node := by
  cases node with
  | comment => rfl
  | property d =>
    obtain ⟨property, value, important, nested, line⟩ := d
    obtain rfl : nested = [] := List.isEmpty_iff.mp survives
    cases value <;> rfl
  | _ => cases survives

theorem keyframesOf_congr {lines others : Statement → Run (List String)} {blocks : List FullBlock}
    (same : ∀ frame ∈ blocks, ∀ node ∈ frame.body, lines node = others node) (keyword : String)
    (name : Template) (level : Nat) :
    keyframesOf setup self lines keyword name blocks level =
      keyframesOf setup self others keyword name blocks level := by
  refine bind_congr fun written => ?_
  have frames := Run.mapM_congr fun frame member =>
    congrArg (· >>= fun lines => pure (block (Text.join ", " frame.selectors)
      (formatDeclarations lines.flatten (level + 2)) (level + 1))) (Run.mapM_congr (same frame member))
  exact congrArg (· >>= _) frames

/-- Of the blocks of keyframes only properties are kept, and of these only their own lines are written, in
order. What is kept of a block is all of it but its comments if it has nothing but comments and properties,
and only then; and if moreover nothing is nested in the properties, all lines that are declared in the
blocks are written. -/
theorem keyframe_blocks_kept (b : Grammar.Blocks) {keyword : String} {line : Nat} {cursor after : Cursor}
    {node : Statement} (named : keyword = "keyframes" ∨ Text.endsWith "-keyframes" keyword = true)
    (read : b.keyframesStatement keyword line cursor = .ok (node, after)) :
    ∃ name blocks, b.fullKeyframes cursor = .ok ((name, blocks), after) ∧
      node = .keyframes keyword name (blocks.map FullBlock.narrow) line ∧
      (∀ frame ∈ blocks,
        frame.narrow.declarations.map .property = frame.body.filter (fun node => !node.isComment) ↔
          ∀ node ∈ frame.body, node.isComment = true ∨ ∃ d, node = .property d) ∧
      ∀ setup self level, setup.strategies = Strategy.all →
        styleStatement setup self node level =
          Body.ofText <$> keyframesOf setup self (ownLines setup self) keyword name blocks level ∧
        ((∀ frame ∈ blocks, ∀ node ∈ frame.body, node.survives = true) →
          styleStatement setup self node level =
            Body.ofText <$> keyframesOf setup self (frameLines setup self) keyword name blocks level) := by
  rw [Grammar.Blocks.keyframesStatement_eq] at read
  rcases full : b.fullKeyframes cursor with fault | ⟨⟨name, blocks⟩, behind⟩
  · rw [map_eq_pure_bind, Parser.bind_of_error full] at read
    cases read
  rw [map_eq_pure_bind, Parser.bind_of_ok full] at read
  cases read
  refine ⟨name, blocks, rfl, rfl, fun frame _ => frame.narrow_whole_iff, ?_⟩
  intro setup self level strategies
  have handled : Strategy.find? setup.strategies keyword = some .keyframes :=
    strategies ▸ Strategy.find?_keyframes named
  have left := styleStatement_keyframes self name blocks line handled level
  refine ⟨left, fun whole => left.trans (congrArg (Body.ofText <$> ·) ?_)⟩
  have same : ∀ frame ∈ blocks, ∀ node ∈ frame.body,
      ownLines setup self node = frameLines setup self node := by
    intro frame inside node member
    exact ownLines_of_survives (whole frame inside node member)
  exact keyframesOf_congr same keyword name level

/-- Two blocks with a comment, two properties, and one property whose value has no text. -/
theorem keyframe_blocks_kept_fade :
    let rest := "fade \x7b\n  from \x7b /* low */ color: red !important; margin: auto; \x7d\n" ++
      "  50%, to \x7b width: null; color: $tint; \x7d\n\x7d\n"
    let self := Grammar.expressions rest
    let b : Grammar.Blocks := ⟨self, Grammar.bodyParser self 2⟩
    let cursor := Cursor.ofTokens ((Lexer.tokens rest).toOption.getD [])
    let setup := (Compiler.create {} (Loader.memory [])).setup
    let machine := (Machine.start "input.scss").setGlobal "tint" (.unquoted "blue")
    let css := "@keyframes fade \x7b\n  from \x7b\n    color: red !important;\n    margin: auto;\n  \x7d\n" ++
      "  50%, to \x7b\n    color: blue;\n  \x7d\n\x7d\n"
    ∃ node after name blocks,
      b.keyframesStatement "keyframes" 1 cursor = .ok (node, after) ∧
      (∀ frame ∈ blocks, ∀ node ∈ frame.body, node.survives = true) ∧
      styleStatement setup (perform setup 9) node 0 =
        Body.ofText <$> keyframesOf setup (perform setup 9) (frameLines setup (perform setup 9))
          "keyframes" name blocks 0 ∧
      (styleStatement setup (perform setup 9) node 0 machine).1.toOption.map Body.blocks =
        some [css] := by
  intro rest self b cursor setup machine css
  have outcome : (b.keyframesStatement "keyframes" 1 cursor).toOption.map
      (fun read => (styleStatement setup (perform setup 9) read.1 0 machine).1.toOption.map Body.blocks) =
        some (some [css]) := by decide +kernel
  have whole : (b.fullKeyframes cursor).toOption.map
      (fun read => read.1.2.all fun frame => frame.body.all Statement.survives) = some true := by decide +kernel
  rcases read : b.keyframesStatement "keyframes" 1 cursor with fault | ⟨node, after⟩
  · rw [read] at outcome
    cases outcome
  · rw [read] at outcome
    obtain ⟨name, blocks, full, -, -, compiled⟩ := keyframe_blocks_kept b (.inl rfl) read
    rw [full] at whole
    have all : (blocks.all fun frame => frame.body.all Statement.survives) = true := Option.some.inj whole
    have survive : ∀ frame ∈ blocks, ∀ node ∈ frame.body, node.survives = true := by
      simpa using all
    exact ⟨node, after, name, blocks, rfl, survive, (compiled setup (perform setup 9) 0 rfl).2 survive,
      Option.some.inj outcome⟩

/-- A custom property and a nested property are lost. -/
theorem keyframe_lines_lost :
    let compiler := Compiler.create {} (Loader.memory [])
    let size : Declaration Statement :=
      ⟨.literal "size" 1, some (.identifier "large" ⟨1, 1⟩), false, [], 1⟩
    let font : Declaration Statement := ⟨.literal "font" 1, none, false, [.property size], 1⟩
    let own : Statement := .customProperty (.literal "--x" 1) (.literal "a" 1) 1
    let frame : FullBlock := ⟨["from"], [own, .property font], 1⟩
    let self : Perform := perform compiler.setup 9
    let machine := Machine.start "input.scss"
    frame.narrow.declarations.length = 1 ∧
    (keyframesOf compiler.setup self (frameLines compiler.setup self) "keyframes" (.literal "k" 1) [frame] 0
        machine).1.toOption =
      some "@keyframes k \x7b\n  from \x7b\n    --x: a;\n    font-size: large;\n  \x7d\n\x7d\n" ∧
    (compiler.compile
        ⟨"input.scss", "@keyframes k \x7b\n  from \x7b\n    --x: a;\n    font: \x7b\n      size: large;\n" ++
          "    \x7d\n  \x7d\n\x7d\n"⟩
        .scss).result.toOption =
      some "@keyframes k \x7b\n  from \x7b\n  \x7d\n\x7d\n" := by
  decide +kernel

end Eval

end Scss
