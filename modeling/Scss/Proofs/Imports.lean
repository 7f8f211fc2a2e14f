import Scss.Compiler
import Scss.Proofs.Grammar.Faults
import Scss.Proofs.Grammar.RawText
import Scss.Proofs.Grammar.Termination
import Scss.Proofs.PlainValues

/-! Imports that are left to the browser. What stands behind `@import` is kept as text, and when it is
written out again it is evaluated if it reads as an expression; so it comes out as it was written exactly
if it reads as none, or as one whose value has that text. A text that cannot even be tried, because a url
in it would be cut inside of a character, does not come out at all. -/
namespace Scss

namespace Spells

variable {parts : List (Fragment Expr)} {template : Template} {text : List Char}

theorem pushSpace (spells : Spells template.parts text) :
    ∃ more, Spells (Grammar.pushSpace template).parts more := by
  unfold Grammar.pushSpace
  split
  · exact ⟨text, spells⟩
  · split
    · exact ⟨text, spells⟩
    · exact ⟨_, spells.pushLiteral " " (by decide)⟩
  · exact ⟨_, spells.pushLiteral " " (by decide)⟩

theorem literal (spells : Spells parts text) : ∀ part ∈ parts, ∃ own, part = .literal own := by
  induction spells with
  | nil => exact nofun
  | snoc inner nonempty ih => exact List.forall_mem_append.mpr ⟨ih, by simp⟩

end Spells

namespace Grammar

section RawText

variable {self : Self} {rest : List Token} {cursor : Cursor} {template : Template} {text : List Char}

/-- Trimming leaves only parts that are texts if there are no others. -/
theorem literal_trimPart {f : String → String} {parts : List (Fragment Expr)}
    (literal : ∀ part ∈ parts, ∃ own, part = .literal own) :
    ∀ part ∈ trimPart f parts, ∃ own, part = .literal own := by
  cases parts with
  | nil => exact nofun
  | cons first rest =>
    obtain ⟨⟨own, rfl⟩, others⟩ := List.forall_mem_cons.mp literal
    rw [trimPart]
    split
    · exact others
    · exact List.forall_mem_cons.mpr ⟨⟨_, rfl⟩, others⟩

theorem plain_of_literal {parts : List (Fragment Expr)} (literal : ∀ part ∈ parts, ∃ own, part = .literal own)
    (line : Nat) : ∃ text, (⟨parts, line⟩ : Template).plain? = some text := by
  unfold Interpolation.plain?
  dsimp only
  generalize "" = start
  induction parts generalizing start with
  | nil => exact ⟨start, rfl⟩
  | cons first rest ih =>
    obtain ⟨⟨own, rfl⟩, others⟩ := List.forall_mem_cons.mp literal
    exact ih others (start ++ own)

/-- Raw text without embedded expressions is plain text. -/
theorem rawRounds_plain (self : Self) (depth : Nat) (shaped : ∀ token ∈ rest, token.Shaped)
    (unembedded : ∀ token ∈ rest, token.Unembedded) (ahead : cursor.ahead = rest)
    (spells : Spells template.parts text) :
    ∃ whole spelled after,
      Parser.loopWithin (rawRound self [] false) rest ⟨template, depth⟩ cursor = .ok (whole, after) ∧
        Spells whole.parts spelled := by
  induction rest generalizing cursor template depth text with
  | nil =>
    have ends : cursor.current.kind = .endOfInput := by
      rw [Cursor.current, ahead]
      exact cursor.last_kind
    exact ⟨template, text, cursor, Parser.loopWithin_done (rawRound_done ends), spells⟩
  | cons token rest ih =>
    obtain ⟨own, others⟩ := List.forall_mem_cons.mp shaped
    obtain ⟨kept, also⟩ := List.forall_mem_cons.mp unembedded
    have next := Cursor.ahead_advance_one ahead
    cases trivia : token.isTrivia with
    | true =>
      rw [Parser.loopWithin_again (rawRound_trivia ahead trivia (by simp))]
      obtain ⟨more, spaced⟩ := spells.pushSpace
      exact ih _ others also next spaced
    | false =>
      rw [Parser.loopWithin_again (rawRound_visible ahead trivia own kept (by simp))]
      exact ih _ others also next (spells_pushToken own spells)

theorem raw_plain (self : Self) (shaped : ∀ token ∈ rest, token.Shaped)
    (unembedded : ∀ token ∈ rest, token.Unembedded) (ahead : cursor.ahead = rest) :
    ∃ template after text, raw self [] false cursor = .ok (template, after) ∧
      template.plain? = some text := by
  have start : Spells (⟨[], cursor.current.line⟩ : Template).parts [] := .nil
  obtain ⟨whole, spelled, after, read, spells⟩ := rawRounds_plain self 0 shaped unembedded ahead start
  have ended := literal_trimPart (f := Text.trimEnd) fun part member =>
    spells.literal part (List.mem_reverse.mp member)
  have both := literal_trimPart (f := Text.trimStart) fun part member =>
    ended part (List.mem_reverse.mp member)
  obtain ⟨text, plain⟩ := plain_of_literal both whole.line
  refine ⟨trimTemplate whole, after, text, ?_, plain⟩
  rw [raw_eq, Parser.bind_of_ok Parser.current_apply,
    Parser.bind_of_ok ((Parser.loop_apply _ _).trans (ahead ▸ read))]
  rfl

end RawText

/-- The tokens between `@import` and the end of the statement. -/
def importTokens (cursor : Cursor) : List Token :=
  cursor.ahead.take (scanFrom [.semicolon, .rightBrace] [] cursor.ahead)

/-- An import that is left to the browser keeps its tokens as plain text, unless expressions are embedded in
them. -/
theorem import_plain {b : Blocks} {line place : Nat} {cursor after : Cursor} {name : String}
    {value : Template} {body : Option (List Statement)}
    (shaped : ∀ token ∈ importTokens cursor, token.Shaped)
    (unembedded : ∀ token ∈ importTokens cursor, token.Unembedded)
    (read : b.importStatement line cursor = .ok (.atRule name value body place, after)) :
    name = "import" ∧ body = none ∧ ∃ text, value.plain? = some text := by
  have ahead : (Cursor.ofTokens (importTokens cursor)).ahead = importTokens cursor :=
    Cursor.ahead_ofTokens fun token member => (shaped token member).proper
  obtain ⟨template, last, text, kept, plain⟩ := raw_plain b.self shaped unembedded ahead
  have whole (place : Cursor) : b.rawOf (importTokens cursor) place = .ok (template, place) := by
    have cut : Parser.onTokens (raw b.self [] false) (importTokens cursor) = .ok template := by
      change Prod.fst <$> raw b.self [] false (Cursor.ofTokens (importTokens cursor)) = _
      rw [kept]
      rfl
    rw [Blocks.rawOf, Parser.within, cut]
    rfl
  have taken : takeTo [.semicolon, .rightBrace] cursor = .ok (importTokens cursor,
    cursor.advance (scanFrom [.semicolon, .rightBrace] [] cursor.ahead)) := rfl
  rw [Blocks.importStatement, Parser.bind_of_ok taken, Parser.bind_of_ok (Parser.accept_apply _)] at read
  split at read
  · cases read
  · rw [Parser.bind_of_ok (whole _)] at read
    cases read
    exact ⟨rfl, rfl, text, plain⟩

/-- No text makes the reading of an expression reach a bound. -/
theorem settled_expression (source : String) : Settled (expression source) := by
  unfold expression cursorOf
  cases lexed : Lexer.tokens source with
  | error fault => exact nofun
  | ok tokens =>
    obtain ⟨proper, weight, -⟩ := (Lexer.tiling_of_tokensAt lexed).cursor
    have light : (Cursor.ofTokens tokens).weight < depthBound source + 1 := by
      rw [weight, String.length_toList]
      exact Nat.lt_succ_of_lt (Nat.lt_succ_self _)
    have inner := advances_expressions (depthBound source)
    exact (advances_complete (advances_commaList inner [])).settled_run proper light

end Grammar

namespace Eval

def importText (text : String) : String := "@import " ++ text ++ ";\n"

/-- Whether a text stays when this comes of evaluating it: the value has the same text, or there is no value;
but a fault of the configuration, the bound of the evaluator and a cut inside of a character are passed
on. -/
def Stays (format : Format) (text : String) : Except Fault Value → Prop
  | .ok value => format.value value = text
  | .error (.configuration _) | .error .exhausted | .error .torn => False
  | .error _ => True

/-- A text that means nothing to the language: no expression, or one that stands for its own text. -/
def Foreign (setup : Setup) (machine : Machine) (depth : Nat) (text : String) : Prop :=
  Grammar.expression text ≠ .error .torn ∧
    ∀ expr, Grammar.expression text = .ok expr → ∃ browser nesting, nesting ≤ depth ∧
      (∀ name ∈ browser, LeftToBrowser setup machine name) ∧
      expr.plainText? setup.format browser nesting = some text

def browserImport? : Statement → Option (String × Nat)
  | .atRule "import" value none line => value.plain?.map (·, line)
  | _ => none

theorem eq_of_browserImport? {node : Statement} {text : String} {line : Nat}
    (found : browserImport? node = some (text, line)) :
    ∃ value, node = .atRule "import" value none line ∧ value.plain? = some text := by
  unfold browserImport? at found
  split at found
  · rename_i value place
    obtain ⟨own, plain, same⟩ := Option.map_eq_some_iff.mp found
    cases same
    exact ⟨value, rfl, plain⟩
  · cases found

section Prelude

variable {setup : Setup} {self : Perform} {text : String}

def genericContext (setup : Setup) (self : Perform) : Context Run :=
  ⟨"generic", Generic.required, services setup self⟩

/-- An import is written out with what its text comes to. -/
theorem atRule_import (generic : Strategy.find? setup.strategies "import" = some .generic) {value : Template}
    (plain : value.plain? = some text) (line : Nat) (around : Option String) :
    atRule setup self (.atRule "import" value none line) around 0 = do
      let written ← Generic.evaluateValue (genericContext setup self) text
      return Generic.head "import" written ++ ";\n" := by
  have compiled : atRule setup self (.atRule "import" value none line) around 0 =
      Generic.compile (genericContext setup self) (.atRule "import" value none line) around 0 := by
    rw [atRule, Strategy.dispatch, Statement.kind?]
    dsimp only
    rw [generic]
    rfl
  have shown : (genericContext setup self).interpolate value = pure text :=
    (pure_bind _ _).trans (interpolate_plain setup self plain)
  rw [compiled, Generic.compile, shown, pure_bind, if_neg (by decide)]
  refine bind_congr fun written => ?_
  rw [indent]
  simp

/-- What is no expression is kept. -/
theorem evaluateValue_unread (some : text ≠ "") (whole : Grammar.expression text ≠ .error .torn)
    (unread : ∀ expr, Grammar.expression text ≠ .ok expr) :
    Generic.evaluateValue (genericContext setup self) text = pure text := by
  rw [Generic.evaluateValue, if_neg (by simpa using some)]
  have textual := Grammar.sound_expression text
  have settled := Grammar.settled_expression text
  rcases read : Grammar.expression text with fault | expr
  · rw [read] at textual settled
    funext before
    cases fault with
    | lexical | grammar => rfl
    | evaluation | configuration => exact textual.elim
    | exhausted => exact absurd rfl settled
    | torn => exact absurd read whole
  · exact absurd read (unread expr)

theorem evaluateValue_read (some : text ≠ "") {expr : Expr} (read : Grammar.expression text = .ok expr) :
    Generic.evaluateValue (genericContext setup self) text =
      tryCatch (setup.format.value <$> self (.evaluate expr false)) fun fault =>
        match fault with
        | .configuration fault => throw (.configuration fault)
        | .exhausted => throw .exhausted
        | .torn => throw .torn
        | _ => pure text := by
  rw [Generic.evaluateValue, if_neg (by simpa using some), read]
  rfl

theorem evaluateValue_stays (some : text ≠ "") (machine : Machine) :
    ((Generic.evaluateValue (genericContext setup self) text) machine).1 = .ok text ↔
      Grammar.expression text ≠ .error .torn ∧ ∀ expr, Grammar.expression text = .ok expr →
        Stays setup.format text (self (.evaluate expr false) machine).1 := by
  rcases read : Grammar.expression text with fault | expr
  · by_cases torn : fault = .torn
    · subst torn
      rw [Generic.evaluateValue, if_neg (by simpa using some), read]
      exact iff_of_false nofun fun stays => stays.1 rfl
    · have whole : (.error fault : Except Fault Expr) ≠ .error .torn := fun same =>
        torn (Except.error.inj same)
      rw [evaluateValue_unread some (read ▸ whole) fun expr same => by rw [read] at same; cases same]
      exact iff_of_true rfl ⟨whole, nofun⟩
  · rw [evaluateValue_read some read, Run.tryCatch_apply, map_eq_pure_bind, Run.bind_apply]
    simp only [Except.ok.injEq, forall_eq', ne_eq, reduceCtorEq, not_false_eq_true, true_and]
    rcases self (.evaluate expr false) machine with ⟨fault | value, behind⟩
    · cases fault with
      | configuration | exhausted | torn => exact iff_of_false nofun id
      | lexical | grammar | evaluation => exact iff_of_true rfl trivial
    · exact ⟨Except.ok.inj, congrArg Except.ok⟩

theorem evaluateValue_foreign (some : text ≠ "") {machine : Machine} {depth : Nat}
    (foreign : Foreign setup machine depth text) :
    Generic.evaluateValue (genericContext setup (perform setup depth)) text machine =
      (.ok text, machine) := by
  rcases read : Grammar.expression text with fault | expr
  · rw [evaluateValue_unread some foreign.1 fun expr same => by rw [read] at same; cases same]
    rfl
  · obtain ⟨browser, nesting, deep, left, plain⟩ := foreign.2 expr read
    obtain ⟨value, evaluated, shown⟩ := evaluate_plain left deep plain
    rw [evaluateValue_read some read, Run.tryCatch_apply, map_eq_pure_bind, Run.bind_apply]
    rw [evaluated, ← shown]
    rfl

/-- The text in the output is the one that the prelude comes to. -/
theorem head_eq_iff (some : text ≠ "") (written : String) :
    Generic.head "import" written ++ ";\n" = importText text ↔ written = text := by
  rw [importText, Generic.head]
  by_cases empty : written = ""
  · subst empty
    refine iff_of_false (fun same => ?_) (Ne.symm some)
    have marks := congrArg (·.toList[7]?) same
    simp at marks
  · have start : "@" ++ "import" ++ " " = "@import " := by decide
    rw [if_neg (by simpa using empty), start, String.append_left_inj, String.append_right_inj]

end Prelude

/-- An import that is left to the browser and has no expressions embedded is kept as plain text, and in the
output this text stands unchanged exactly if it can be read without cutting a character, and evaluating it,
where it reads as an expression, leaves it as it is. So it does in particular, and the state with it, if the
text means nothing to the language. -/
theorem imports_pass_through (source : String) {tokens : List Token}
    (lexed : Lexer.tokens source = .ok tokens)
    (count : Nat) (b : Grammar.Blocks) {line place : Nat} {name : String} {value : Template}
    {body : Option (List Statement)} {after : Cursor}
    (read : b.importStatement line ((Cursor.ofTokens tokens).advance count) =
      .ok (.atRule name value body place, after))
    (unembedded : ∀ token ∈ Grammar.importTokens ((Cursor.ofTokens tokens).advance count), token.Unembedded) :
    name = "import" ∧ body = none ∧ ∃ text, value.plain? = some text ∧ (text ≠ "" →
      ∀ (setup : Setup) (depth : Nat) (machine : Machine),
        Strategy.find? setup.strategies "import" = some .generic →
        ((atRule setup (perform setup depth) (.atRule name value body place) none 0 machine).1 =
            .ok (importText text) ↔
          Grammar.expression text ≠ .error .torn ∧ ∀ expr, Grammar.expression text = .ok expr →
            Stays setup.format text (perform setup depth (.evaluate expr false) machine).1) ∧
        (Foreign setup machine depth text →
          atRule setup (perform setup depth) (.atRule name value body place) none 0 machine =
            (.ok (importText text), machine))) := by
  have shaped : ∀ token ∈ Grammar.importTokens ((Cursor.ofTokens tokens).advance count), token.Shaped := by
    intro token member
    obtain ⟨proper, -, whole⟩ := (Lexer.tiling_of_tokensAt lexed).cursor
    have ahead : token ∈ (Cursor.ofTokens tokens).ahead := by
      have within := List.mem_of_mem_take member
      rw [Cursor.ahead_advance] at within
      exact List.mem_of_mem_drop within
    have lies : token ∈ tokens := by
      rw [← whole, Cursor.tokens]
      simp [ahead]
    exact Lexer.tokensAt_shaped lexed token lies (proper token ahead).1
  obtain ⟨rfl, rfl, text, plain⟩ := Grammar.import_plain shaped unembedded read
  refine ⟨rfl, rfl, text, plain, fun some setup depth machine generic => ?_⟩
  rw [atRule_import generic plain]
  constructor
  · rw [← evaluateValue_stays some, Run.bind_apply]
    rcases Generic.evaluateValue (genericContext setup (perform setup depth)) text machine with
      ⟨fault | written, behind⟩
    · exact iff_of_false (fun same => by cases same) (fun same => by cases same)
    · rw [Except.ok.injEq, ← head_eq_iff some]
      exact ⟨Except.ok.inj, congrArg Except.ok⟩
  · intro foreign
    rw [Run.bind_apply, evaluateValue_foreign some foreign]
    exact congrArg (fun text => (Except.ok text, machine)) ((head_eq_iff some text).mpr rfl)

/-- A url with a layer and a medium, and a string with a condition. -/
theorem imports_pass_through_layer :
    let setup := (Compiler.create {} (Loader.memory [])).setup
    let machine := Machine.start "a.scss"
    let text := "url(a.css) layer(base) print, \"b.css\" (color: red)"
    ∃ tokens value after, Lexer.tokens (importText text) = .ok tokens ∧
      (Grammar.Blocks.ofDepth 9).importStatement 1 ((Cursor.ofTokens tokens).advance 2) =
        .ok (.atRule "import" value none 1, after) ∧
      atRule setup (perform setup 9) (.atRule "import" value none 1) none 0 machine =
        (.ok (importText text), machine) := by
  intro setup machine text
  have left : ∀ name ∈ ["layer"], LeftToBrowser setup machine name :=
    List.forall_mem_singleton.mpr ⟨by decide, rfl, by decide +kernel, rfl, rfl⟩
  have stands : (Grammar.expression text).toOption.bind
      (Expr.plainText? setup.format ["layer"] 5) = some text := by
    decide +kernel
  have kept : (Lexer.tokens (importText text)).toOption.any (fun tokens =>
      (Grammar.importTokens ((Cursor.ofTokens tokens).advance 2)).all (fun token => token.Unembedded) &&
      ((Grammar.Blocks.ofDepth 9).importStatement 1 ((Cursor.ofTokens tokens).advance 2)).toOption.any
        fun result => browserImport? result.1 = some (text, 1)) = true := by
    decide +kernel
  rcases lexed : Lexer.tokens (importText text) with fault | tokens <;> rw [lexed] at kept
  · cases kept
  obtain ⟨unembedded, kept⟩ := Bool.and_eq_true_iff.mp kept
  rcases read : (Grammar.Blocks.ofDepth 9).importStatement 1 ((Cursor.ofTokens tokens).advance 2) with
    fault | ⟨node, after⟩ <;> rw [read] at kept
  · cases kept
  obtain ⟨value, rfl, shown⟩ := eq_of_browserImport? (of_decide_eq_true kept)
  refine ⟨tokens, value, after, rfl, read, ?_⟩
  obtain ⟨-, -, own, plain, passes⟩ := imports_pass_through _ lexed 2 _ read (by simpa using unembedded)
  obtain rfl : own = text := Option.some.inj (plain.symm.trans shown)
  have reads : (Grammar.expression text).toOption ≠ none := fun unread => by
    rw [unread] at stands
    cases stands
  refine (passes (by decide) setup 9 machine rfl).2 ⟨fun torn => reads (by rw [torn]; rfl), ?_⟩
  refine fun expr parsed => ⟨["layer"], 5, by decide, left, ?_⟩
  rw [parsed] at stands
  exact stands

/-- The words `screen and` go, because `and` results in its right operand. -/
theorem import_changed :
    let setup := (Compiler.create {} (Loader.memory [])).setup
    let text := "url(a.css) screen and (orientation: landscape)"
    (Lexer.tokens (importText text)).toOption.any (fun tokens =>
      tokens.all (fun token => token.kind ≠ .dollar ∧ token.Unembedded) &&
      ((Grammar.Blocks.ofDepth 9).importStatement 1 ((Cursor.ofTokens tokens).advance 2)).toOption.any
        fun | (.atRule "import" value none 1, _) =>
              value.plain? = some text &&
              (atRule setup (perform setup 9) (.atRule "import" value none 1) none 0
                (Machine.start "a.scss")).1.toOption = some "@import url(a.css) (orientation: landscape);\n"
            | _ => false) = true := by
  decide +kernel

end Eval

end Scss
