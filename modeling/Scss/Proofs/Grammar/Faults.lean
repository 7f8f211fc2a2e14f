import Scss.Grammar.Statement
import Scss.Proofs.Tiling

/-! A text that cannot be read is a fault of the text: no rule of the grammar fails as an evaluation
does, and none cuts a text inside of a character unless one of its urls ends so. Rules take tokens whose
lines count from one, and leave such tokens; so what they say of lines can be followed through the
grammar along with its faults. -/
namespace Scss

/-- A fault of the text or of the bound, or one of evaluation that no statement has put its name to. -/
def Fault.Bare : Fault → Prop
  | .evaluation fault => fault.site = none
  | .configuration _ => False
  | _ => True

/-- A fault of the text or of the bound. The text is cut inside of a character only if `torn`. -/
def Fault.Textual (torn : Prop) : Fault → Prop
  | .evaluation _ | .configuration _ => False
  | .torn => torn
  | _ => True

variable {torn : Prop}

theorem Fault.Textual.bare {fault : Fault} (textual : fault.Textual torn) : fault.Bare := by
  cases fault with
  | evaluation | configuration => exact textual.elim
  | lexical | grammar | exhausted | torn => trivial

/-- A result is good, or a fault of the text. -/
def Sound {α : Type} (torn : Prop) (good : α → Prop) : Except Fault α → Prop
  | .ok value => good value
  | .error fault => fault.Textual torn

theorem Sound.bind {α β : Type} {good : α → Prop} {fine : β → Prop} {result : Except Fault α}
    {next : α → Except Fault β} (first : Sound torn good result)
    (second : ∀ value, good value → Sound torn fine (next value)) : Sound torn fine (result >>= next) := by
  cases result with
  | error fault => exact first
  | ok value => exact second value first

theorem Sound.mapM {α β : Type} {step : α → Except Fault β} {items : List α}
    (each : ∀ item ∈ items, Sound torn (fun _ => True) (step item)) :
    Sound torn (fun _ => True) (items.mapM step) := by
  induction items with
  | nil => exact trivial
  | cons item rest ih =>
    obtain ⟨first, others⟩ := List.forall_mem_cons.mp each
    rw [List.mapM_cons]
    exact first.bind fun _ _ => (ih others).bind fun _ _ => trivial

theorem Sound.textual {α : Type} {good : α → Prop} {result : Except Fault α}
    (sound : Sound torn good result) {fault : Fault} (failed : result = .error fault) :
    fault.Textual torn := by
  rw [failed] at sound
  exact sound

def Token.inside? (token : Token) : Option String :=
  match token.kind with
  | .string => some token.content
  | .url => token.urlContent?
  | _ => none

theorem Token.inside?_string {token : Token} (string : token.kind = .string) :
    token.inside? = some token.content := by
  rw [inside?, string]

theorem Token.inside?_url {token : Token} (address : token.kind = .url) :
    token.inside? = token.urlContent? := by
  rw [inside?, address]

/-- A text with a url in it that ends inside of a character, be it in an expression that is embedded. -/
inductive Tears : List Char → Prop where
  | url {text : List Char} {start : Position} {tokens : List Token} {token : Token}
      (lexed : Lexer.tokensAt start text = .ok tokens) (member : token ∈ tokens)
      (address : token.kind = .url) (cut : token.urlContent? = none) : Tears text
  | embedded {text : List Char} {start : Position} {tokens : List Token} {token : Token}
      {inside : String} {body : List Char} {offset : Nat}
      (lexed : Lexer.tokensAt start text = .ok tokens) (member : token ∈ tokens)
      (opened : token.inside? = some inside)
      (piece : .body body offset ∈ (Quoted.pieces inside.toList).1) (tears : Tears body) : Tears text

/-- A text that tears only if `torn` in what it embeds. -/
def Quoted.Intact (torn : Prop) (inside : String) : Prop :=
  ∀ body offset, .body body offset ∈ (Quoted.pieces inside.toList).1 → Tears body → torn

/-- A token with a line that counts from one, which is cut inside of a character only if `torn`. -/
structure Token.Intact (torn : Prop) (token : Token) : Prop where
  line : 1 ≤ token.line
  url : token.kind = .url → token.urlContent? = none → torn
  inside : ∀ inside, token.inside? = some inside → Quoted.Intact torn inside

/-- A token that has nothing inside. -/
theorem Token.Intact.of_line {token : Token} (line : 1 ≤ token.line) (string : token.kind ≠ .string)
    (url : token.kind ≠ .url) : token.Intact torn := by
  refine ⟨line, fun same => absurd same url, fun inside opened => ?_⟩
  unfold Token.inside? at opened
  split at opened
  · exact absurd ‹_› string
  · exact absurd ‹_› url
  · cases opened

def Cursor.Intact (torn : Prop) (cursor : Cursor) : Prop := ∀ token ∈ cursor.tokens, token.Intact torn

namespace Cursor.Intact

variable {cursor : Cursor}

theorem advance (intact : cursor.Intact torn) (count : Nat) : (cursor.advance count).Intact torn := by
  rw [Cursor.Intact, tokens_advance]
  exact intact

theorem current (intact : cursor.Intact torn) : cursor.current.Intact torn := by
  apply intact
  rw [Cursor.current, tokens]
  cases found : cursor.ahead.head? with
  | none => simp
  | some token => simp [List.mem_of_head? found]

theorem ahead (intact : cursor.Intact torn) : ∀ token ∈ cursor.ahead, token.Intact torn := by
  intro token member
  apply intact
  simp [tokens, member]

end Cursor.Intact

theorem Cursor.intact_ofTokens {tokens : List Token} (intact : ∀ token ∈ tokens, token.Intact torn) :
    (ofTokens tokens).Intact torn := by
  have line : 1 ≤ (closing tokens).line := by
    cases found : tokens.getLast? with
    | none => simp [closing, Token.line, found, Position.start]
    | some token =>
      have own := (intact token (List.mem_of_getLast? found)).line
      simpa [closing, Token.line, found] using own
  have last : (closing tokens).Intact torn := .of_line line nofun nofun
  have closed : ∀ token ∈ tokens ++ [closing tokens], token.Intact torn := by
    simpa [or_imp, forall_and] using ⟨intact, last⟩
  unfold ofTokens
  split
  · rename_i token found
    split
    · have whole := List.dropLast_append_getLast? token found
      intro other member
      simp only [Cursor.tokens, List.reverse_nil, List.nil_append, whole] at member
      exact intact other member
    · exact closed
  · exact closed

namespace Parser

variable {α β σ : Type} {good : α → Prop} {fine : β → Prop}

/-- On intact tokens a parser gives a good result, and leaves intact tokens; or its fault names no
statement. -/
def Counts (torn : Prop) (good : α → Prop) (parser : Parser α) : Prop :=
  ∀ cursor, cursor.Intact torn →
    Sound torn (fun result => good result.1 ∧ result.2.Intact torn) (parser cursor)

abbrev Clear (torn : Prop) (parser : Parser α) : Prop := Counts torn (fun _ => True) parser

def Next.Holds (state : σ → Prop) (good : α → Prop) : Next σ α → Prop
  | .again later => state later
  | .done result => good result

namespace Counts

theorem pure {value : α} (result : good value) : Counts torn good (Pure.pure value : Parser α) :=
  fun _ intact => ⟨result, intact⟩

theorem done (value : α) : Clear torn (Pure.pure value : Parser α) := pure trivial

theorem throw {fault : Fault} (textual : fault.Textual torn) :
    Counts torn good (MonadExcept.throw fault : Parser α) :=
  fun _ _ => textual

theorem fail (fault : SyntaxFault) : Counts torn good (Parser.fail fault : Parser α) := throw trivial

theorem unexpected (expected : String) : Counts torn good (Parser.unexpected expected : Parser α) :=
  fun _ _ => trivial

theorem bind {parser : Parser α} {next : α → Parser β} (first : Counts torn good parser)
    (second : ∀ value, good value → Counts torn fine (next value)) : Counts torn fine (parser >>= next) :=
  fun cursor intact => (first cursor intact).bind fun result holds =>
    second result.1 holds.1 result.2 holds.2

theorem weaken {parser : Parser α} {also : α → Prop} (counts : Counts torn good parser)
    (step : ∀ value, good value → also value) : Counts torn also parser := by
  intro cursor intact
  have sound := counts cursor intact
  cases outcome : parser cursor with
  | error fault =>
    rw [outcome] at sound
    exact sound
  | ok result =>
    rw [outcome] at sound
    exact ⟨step _ sound.1, sound.2⟩

/-- One parser behind another whose result does not matter. -/
theorem andThen {parser : Parser α} {next : α → Parser β} (first : Clear torn parser)
    (second : ∀ value, Counts torn fine (next value)) : Counts torn fine (parser >>= next) :=
  first.bind fun value _ => second value

theorem lift {result : Except Fault α} (sound : Sound torn good result) :
    Counts torn good (liftM result : Parser α) := by
  intro cursor intact
  cases result with
  | error fault => exact sound
  | ok value => exact ⟨sound, intact⟩

theorem get : Counts torn (Cursor.Intact torn) (MonadState.get : Parser Cursor) :=
  fun _ intact => ⟨intact, intact⟩

theorem set {cursor : Cursor} (intact : cursor.Intact torn) :
    Clear torn (MonadState.set cursor : Parser PUnit) :=
  fun _ _ => ⟨trivial, intact⟩

theorem current : Counts torn (Token.Intact torn) Parser.current :=
  fun _ intact => ⟨intact.current, intact⟩

theorem peek (offset : Nat) : Clear torn (Parser.peek offset) := fun _ intact => ⟨trivial, intact⟩

theorem significant (offset : Nat) : Clear torn (Parser.significant offset) :=
  fun _ intact => ⟨trivial, intact⟩

theorem at_ (kind : TokenKind) : Clear torn (Parser.at_ kind) := fun _ intact => ⟨trivial, intact⟩

theorem atWord (word : String) : Clear torn (Parser.atWord word) :=
  fun _ intact => ⟨trivial, intact⟩

theorem atEnd : Clear torn Parser.atEnd := fun _ intact => ⟨trivial, intact⟩

theorem advance (count : Nat) : Clear torn (Parser.advance count) :=
  fun _ intact => ⟨trivial, intact.advance count⟩

theorem skipTrivia : Clear torn Parser.skipTrivia := fun _ intact => ⟨trivial, intact.advance _⟩

theorem skipBlank : Clear torn Parser.skipBlank := fun _ intact => ⟨trivial, intact.advance _⟩

theorem accept (kind : TokenKind) : Clear torn (Parser.accept kind) := by
  refine get.bind fun cursor intact => ?_
  rw [Cursor.accept?]
  by_cases found : cursor.current.kind = kind
  · rw [if_pos found]
    exact (set (intact.advance 1)).andThen fun _ => done true
  · rw [if_neg found]
    exact done false

theorem acceptWord (word : String) : Clear torn (Parser.acceptWord word) := by
  refine (atWord word).andThen fun found => ?_
  split
  · exact (advance 1).andThen fun _ => skipTrivia.andThen fun _ => done true
  · exact done false

theorem expectAny (kinds : List TokenKind) :
    Counts torn (Token.Intact torn) (Parser.expectAny kinds) := by
  refine get.bind fun cursor intact => ?_
  rw [Cursor.expectAny]
  by_cases found : cursor.matchesAny kinds
  · rw [if_pos found]
    exact (set (intact.advance 1)).bind fun _ _ => pure intact.current
  · rw [if_neg found]
    exact fail _

theorem expect (kind : TokenKind) : Counts torn (Token.Intact torn) (Parser.expect kind) :=
  expectAny [kind]

theorem pass (kind : TokenKind) {next : Token → Parser β}
    (second : ∀ token, Counts torn fine (next token)) : Counts torn fine (Parser.expect kind >>= next) :=
  (expect kind).bind fun token _ => second token

theorem take (count : Nat) : Counts torn (fun tokens => ∀ token ∈ tokens, token.Intact torn)
    (Parser.take count) := by
  refine get.bind fun cursor intact => (set (intact.advance count)).andThen fun _ => pure ?_
  exact fun token member => intact.ahead token (List.mem_of_mem_take member)

theorem loop (state : σ → Prop) {init : σ} {step : σ → Parser (Next σ α)} (start : state init)
    (round : ∀ current, state current → Counts torn (Next.Holds state good) (step current)) :
    Counts torn good (Parser.loop init step) := by
  have within (bound : List Token) (current : σ) (holds : state current) :
      Counts torn good (loopWithin step bound current) := by
    induction bound generalizing current with
    | nil =>
      refine (round current holds).bind fun next result => ?_
      cases next with
      | again later => exact throw trivial
      | done value => exact pure result
    | cons token bound ih =>
      refine (round current holds).bind fun next result => ?_
      cases next with
      | again later => exact ih later result
      | done value => exact pure result
  exact get.bind fun cursor _ => within _ init start

/-- A loop whose rounds may give anything. -/
theorem rounds {init : σ} {step : σ → Parser (Next σ α)} (round : ∀ current, Clear torn (step current)) :
    Clear torn (Parser.loop init step) := by
  refine loop (fun _ => True) trivial fun current _ => (round current).weaken fun next _ => ?_
  cases next <;> trivial

theorem run {parser : Parser α} (counts : Counts torn good parser) {cursor : Cursor}
    (intact : cursor.Intact torn) : Sound torn good (parser.run' cursor) := by
  have sound := counts cursor intact
  change Sound torn good (Prod.fst <$> parser cursor)
  cases outcome : parser cursor with
  | error fault =>
    rw [outcome] at sound
    exact sound
  | ok result =>
    rw [outcome] at sound
    exact sound.1

theorem onTokens {parser : Parser α} (counts : Counts torn good parser) {tokens : List Token}
    (intact : ∀ token ∈ tokens, token.Intact torn) : Sound torn good (Parser.onTokens parser tokens) :=
  counts.run (Cursor.intact_ofTokens intact)

end Counts

end Parser

namespace Position

theorem line_after_ge (position : Position) (text : List Char) :
    position.line ≤ (position.after text).line := by
  induction text generalizing position with
  | nil => exact le_refl _
  | cons c rest ih =>
    refine le_trans ?_ (ih (position.next c))
    unfold next
    split <;> simp

end Position

/-- Lines do not go back. -/
theorem Lexer.Tiling.line_ge {position : Position} {text : List Char} {tokens : List Token}
    (tiling : Tiling position text tokens) : ∀ token ∈ tokens, position.line ≤ token.line := by
  induction tiling with
  | done position => simp [Token.line]
  | @next position kind text rest tokens _ _ tail ih =>
    refine List.forall_mem_cons.mpr ⟨le_refl _, fun token member => ?_⟩
    exact (position.line_after_ge text.toList).trans (ih token member)

/-- The tokens of a text that tears only if `torn`. -/
theorem Lexer.intact_tokensAt {position : Position} (line : 1 ≤ position.line) {text : List Char}
    (tears : Tears text → torn) {tokens : List Token} (lexed : tokensAt position text = .ok tokens) :
    ∀ token ∈ tokens, token.Intact torn := by
  intro token member
  refine ⟨?_, fun address cut => tears (.url lexed member address cut), ?_⟩
  · exact line.trans ((tiling_of_tokensAt lexed).line_ge token member)
  · exact fun inside opened body offset piece deeper =>
      tears (.embedded lexed member opened piece deeper)

namespace Grammar

open Scss.Parser (Counts Clear)

theorem clear_complete {expression : Parser Expr} (clear : Clear torn expression) :
    Clear torn (complete expression) := by
  refine Counts.skipTrivia.andThen fun _ => clear.andThen fun expr => ?_
  refine Counts.skipTrivia.andThen fun _ => Counts.atEnd.andThen fun ended => ?_
  split
  · exact .done _
  · exact .unexpected _

theorem clear_atEllipsis : Clear torn atEllipsis := fun _ intact => ⟨trivial, intact⟩

section Expressions

variable {self : Self} (inner : ∀ form, Clear torn (self form))

include inner

theorem sound_quoted {content : String} (intact : Quoted.Intact torn content) {position : Position}
    (line : 1 ≤ position.line) : Sound torn (fun _ => True) (quoted self content position) := by
  have piece (piece : Quoted.Piece) (member : piece ∈ (Quoted.pieces content.toList).1) :
      Sound torn (fun _ => True)
        (Quoted.readPiece (Parser.onTokens (complete (self .comma))) position piece) := by
    cases piece with
    | literal text => exact trivial
    | body text offset =>
      rw [Quoted.readPiece]
      split
      · exact trivial
      · rename_i tokens lexed
        have shifted : 1 ≤ (position.shift offset).line := line
        have counted := Lexer.intact_tokensAt shifted (intact text offset member) lexed
        exact ((clear_complete (inner .comma)).onTokens counted).bind fun _ _ => trivial
  unfold quoted Quoted.template
  dsimp only
  refine (Sound.mapM piece).bind fun parts _ => ?_
  split <;> exact trivial

theorem clear_quoted {content : String} (intact : Quoted.Intact torn content) {position : Position}
    (line : 1 ≤ position.line) : Clear torn (liftM (quoted self content position) : Parser Template) :=
  .lift (sound_quoted inner intact line)

theorem clear_embedded : Clear torn (embedded self) := by
  refine Counts.pass _ fun _ => Counts.skipTrivia.andThen fun _ => (inner .comma).andThen fun expr => ?_
  exact Counts.skipTrivia.andThen fun _ => Counts.pass _ fun _ => .done _

theorem clear_callArgument : Clear torn (callArgument self) := by
  unfold callArgument
  refine Counts.current.bind fun first _ => (Counts.significant 1).andThen fun second => ?_
  have ending (name : Option String) : Clear torn (do
      let value ← self .space
      Parser.skipTrivia
      let rest ← atEllipsis
      if rest then do
        Parser.advance 3
        Parser.skipTrivia
        let more ← Parser.accept .comma
        pure ((⟨name, value, rest⟩, more) : Argument Expr × Bool)
      else do
        let more ← Parser.accept .comma
        pure (⟨name, value, rest⟩, more)) := by
    refine (inner .space).andThen fun value => Counts.skipTrivia.andThen fun _ => ?_
    refine clear_atEllipsis.andThen fun rest => ?_
    split
    · refine (Counts.advance 3).andThen fun _ => Counts.skipTrivia.andThen fun _ => ?_
      exact (Counts.accept _).andThen fun _ => .done _
    · exact (Counts.accept _).andThen fun _ => .done _
  dsimp only
  split
  · refine (Counts.advance 1).andThen fun _ => Counts.skipTrivia.andThen fun _ => ?_
    exact Counts.pass _ fun _ => Counts.skipTrivia.andThen fun _ => ending _
  · exact ending _

theorem clear_callArguments : Clear torn (callArguments self) := by
  refine Counts.pass _ fun _ => Counts.rounds fun args => ?_
  refine Counts.skipTrivia.andThen fun _ => (Counts.accept _).andThen fun closed => ?_
  split
  · exact .done _
  · refine (clear_callArgument inner).andThen fun result => ?_
    dsimp only
    split
    · exact .done _
    · exact Counts.pass _ fun _ => .done _

theorem clear_interpolatedName : Clear torn (interpolatedName self) := by
  refine Counts.current.bind fun first _ => Counts.rounds fun state => ?_
  refine Counts.current.bind fun token _ => ?_
  split
  · split
    · exact (Counts.advance 1).andThen fun _ => .done _
    · exact .done _
  · exact (clear_embedded inner).andThen fun expr => .done _
  · refine (Counts.peek 1).andThen fun next => ?_
    split
    · exact (Counts.advance 1).andThen fun _ => .done _
    · exact .done _
  · exact .done _

theorem clear_identifierValue : Clear torn (identifierValue self) := by
  refine Counts.current.bind fun token _ => ?_
  refine (Counts.peek 1).andThen fun next => (Counts.peek 2).andThen fun second => ?_
  have call (qualifier : Option String) (name : String) :
      Clear torn (do return Expr.call qualifier name (← callArguments self) token.line) :=
    (clear_callArguments inner).andThen fun args => .done _
  split
  · exact (Counts.advance 1).andThen fun _ => call _ _
  · split
    · exact (Counts.advance 3).andThen fun _ => .done _
    · refine (Counts.peek 3).andThen fun third => ?_
      split
      · exact (Counts.advance 3).andThen fun _ => call _ _
      · split
        · exact clear_interpolatedName inner
        · exact (Counts.advance 1).andThen fun _ => .done _

theorem clear_mapRest (firstKey : Expr) (line : Nat) : Clear torn (mapRest self firstKey line) := by
  refine Counts.skipTrivia.andThen fun _ => (inner .space).andThen fun firstValue => ?_
  refine Counts.andThen (Counts.rounds fun pairs => ?_) fun pairs => ?_
  · refine Counts.skipTrivia.andThen fun _ => (Counts.accept _).andThen fun more => ?_
    split
    · exact .done _
    · refine Counts.skipTrivia.andThen fun _ => (Counts.at_ _).andThen fun closes => ?_
      split
      · exact .done _
      · refine (inner .space).andThen fun key => Counts.skipTrivia.andThen fun _ => ?_
        refine Counts.pass _ fun _ => Counts.skipTrivia.andThen fun _ => ?_
        exact (inner .space).andThen fun value => .done _
  · exact Counts.pass _ fun _ => .done _

theorem clear_parenRest (first : Expr) : Clear torn (parenRest self first) := by
  refine Counts.rounds fun state => (Counts.accept _).andThen fun more => ?_
  split
  · exact .done _
  · refine Counts.skipTrivia.andThen fun _ => (Counts.at_ _).andThen fun closes => ?_
    split
    · exact .done _
    · exact (inner .space).andThen fun item => Counts.skipTrivia.andThen fun _ => .done _

theorem clear_parenthesized : Clear torn (parenthesized self) := by
  refine Counts.pass _ fun opening => Counts.skipTrivia.andThen fun _ => ?_
  refine (Counts.accept _).andThen fun closed => ?_
  split
  · exact .done _
  · refine (inner .space).andThen fun first => Counts.skipTrivia.andThen fun _ => ?_
    refine (Counts.accept _).andThen fun keyed => ?_
    split
    · exact clear_mapRest inner _ _
    · refine (clear_parenRest inner first).andThen fun result => ?_
      exact Counts.pass _ fun _ => .done _

theorem clear_bracketed : Clear torn (bracketed self) := by
  refine Counts.pass _ fun opening => Counts.skipTrivia.andThen fun _ => ?_
  refine (Counts.accept _).andThen fun closed => ?_
  split
  · exact .done _
  · refine (inner .comma).andThen fun content => Counts.skipTrivia.andThen fun _ => ?_
    refine Counts.pass _ fun _ => ?_
    split <;> exact .done _

/-- The text of a token that is read for expressions. -/
theorem clear_quotedValue {content : String} (intact : Quoted.Intact torn content) {position : Position}
    (line : 1 ≤ position.line) (build : Template → Expr) : Clear torn (do
      return build (← quoted self content position)) :=
  (clear_quoted inner intact line).andThen fun _ => .done _

theorem clear_primary : Clear torn (primary self) := by
  refine Counts.current.bind fun token intact => ?_
  have shifted (count : Nat) : 1 ≤ (token.position.shift count).line := intact.line
  split
  · refine (Counts.advance 1).andThen fun _ => ?_
    split
    · exact .done _
    · exact .throw trivial
  · have inside := intact.inside _ (Token.inside?_string ‹_›)
    refine (Counts.advance 1).andThen fun _ => ?_
    exact clear_quotedValue inner inside (shifted 1) (.string · token.line)
  · split
    · exact .throw trivial
    · exact (Counts.advance 1).andThen fun _ => .done _
  · exact (Counts.advance 1).andThen fun _ => .done _
  · rename_i address
    refine (Counts.advance 1).andThen fun _ => ?_
    split
    · rename_i content found
      have inside := intact.inside _ ((Token.inside?_url address).trans found)
      exact clear_quotedValue inner inside (shifted 4) (.url · token.line)
    · exact .throw (intact.url address ‹_›)
  · exact (Counts.advance 1).andThen fun _ => .done _
  · split
    · exact (Counts.advance 1).andThen fun _ => .done _
    · exact .unexpected _
  · exact clear_parenthesized inner
  · exact clear_bracketed inner
  · exact clear_interpolatedName inner
  · exact clear_identifierValue inner
  · exact .unexpected _

theorem clear_unary : Clear torn (unary self) := by
  refine Counts.current.bind fun token _ => ?_
  split
  · refine (Counts.advance 1).andThen fun _ => Counts.skipTrivia.andThen fun _ => ?_
    exact (inner .unary).andThen fun operand => .done _
  · refine (Counts.peek 1).andThen fun next => ?_
    split
    · refine (Counts.advance 1).andThen fun _ => Counts.skipTrivia.andThen fun _ => ?_
      exact (inner .unary).andThen fun operand => .done _
    · exact clear_primary inner

omit inner in
theorem clear_leftAssociative {operand : Parser Expr} {operator : Parser (Option BinaryOp)}
    (operands : Clear torn operand) (operators : Clear torn operator) :
    Clear torn (leftAssociative operand operator) := by
  refine operands.andThen fun first => Counts.rounds fun left => operators.andThen fun found => ?_
  cases found with
  | none => exact .done _
  | some op => exact operands.andThen fun right => .done _

omit inner in
theorem clear_operatorByKind (table : TokenKind → Option BinaryOp) :
    Clear torn (operatorByKind table) := by
  refine Counts.get.bind fun saved intact => Counts.skipTrivia.andThen fun _ => ?_
  refine Counts.current.bind fun token _ => ?_
  split
  · exact (Counts.set intact).andThen fun _ => .done _
  · exact (Counts.advance 1).andThen fun _ => Counts.skipTrivia.andThen fun _ => .done _

omit inner in
theorem clear_sumOperator : Clear torn sumOperator := by
  refine Counts.get.bind fun saved intact => Counts.skipTrivia.andThen fun _ => ?_
  refine Counts.current.bind fun token _ => ?_
  split
  · exact (Counts.set intact).andThen fun _ => .done _
  · refine (Counts.peek 1).andThen fun next => ?_
    split
    · exact (Counts.set intact).andThen fun _ => .done _
    · exact (Counts.advance 1).andThen fun _ => Counts.skipTrivia.andThen fun _ => .done _

omit inner in
theorem clear_wordOperator (word : String) (op : BinaryOp) : Clear torn (wordOperator word op) := by
  refine (Counts.significant 0).andThen fun token => ?_
  split
  · refine Counts.skipTrivia.andThen fun _ => (Counts.advance 1).andThen fun _ => ?_
    exact Counts.skipTrivia.andThen fun _ => .done _
  · exact .done _

theorem clear_disjunction : Clear torn (disjunction self) := by
  have product := clear_leftAssociative (clear_unary inner) (clear_operatorByKind productOp)
  have sum := clear_leftAssociative product clear_sumOperator
  have comparison := clear_leftAssociative sum (clear_operatorByKind comparisonOp)
  have conjunction := clear_leftAssociative comparison (clear_wordOperator "and" .and)
  exact clear_leftAssociative conjunction (clear_wordOperator "or" .or)

theorem clear_spaceList (stops : List String) : Clear torn (spaceList self stops) := by
  refine Counts.current.bind fun token _ => (clear_disjunction inner).andThen fun first => ?_
  refine Counts.rounds fun others => ?_
  refine Counts.get.bind fun saved intact => Counts.skipTrivia.andThen fun _ => ?_
  refine Counts.current.bind fun next _ => ?_
  split
  · exact (clear_disjunction inner).andThen fun item => .done _
  · refine (Counts.set intact).andThen fun _ => ?_
    split <;> exact .done _

theorem clear_commaList (stops : List String) : Clear torn (commaList self stops) := by
  refine Counts.current.bind fun token _ => (clear_spaceList inner stops).andThen fun first => ?_
  refine Counts.rounds fun state => ?_
  refine Counts.get.bind fun saved intact => Counts.skipTrivia.andThen fun _ => ?_
  refine (Counts.accept _).andThen fun comma => ?_
  split
  · refine Counts.skipTrivia.andThen fun _ => Counts.current.bind fun next _ => ?_
    split
    · exact (clear_spaceList inner stops).andThen fun item => .done _
    · exact .done _
  · refine (Counts.set intact).andThen fun _ => ?_
    split <;> exact .done _

theorem clear_parameters : Clear torn (parameters self) := by
  refine Counts.pass _ fun _ => Counts.rounds fun list => ?_
  refine Counts.skipTrivia.andThen fun _ => (Counts.accept _).andThen fun closed => ?_
  dsimp only
  split
  · exact .done _
  · refine Counts.pass _ fun token => Counts.skipTrivia.andThen fun _ => ?_
    refine clear_atEllipsis.andThen fun rest => ?_
    have ending (default : Option Expr) : Clear torn (do
          Parser.skipTrivia
          if ← Parser.accept .comma then
            return .again { list with params := list.params ++ [⟨token.name, default⟩] }
          else
            let _ ← Parser.expect .rightParen
            return .done { list with params := list.params ++ [⟨token.name, default⟩] } :
          Parser (Parser.Next Parameters Parameters)) := by
      refine Counts.skipTrivia.andThen fun _ => (Counts.accept _).andThen fun more => ?_
      split
      · exact .done _
      · exact Counts.pass _ fun _ => .done _
    split
    · refine (Counts.advance 3).andThen fun _ => Counts.skipTrivia.andThen fun _ => ?_
      exact (Counts.accept _).andThen fun _ => .done _
    · refine (Counts.accept _).andThen fun given => ?_
      split
      · exact Counts.skipTrivia.andThen fun _ => (inner .space).andThen fun value => ending _
      · exact ending _

theorem clear_signatureOf : Clear torn (signatureOf self) := by
  refine Counts.skipTrivia.andThen fun _ => Counts.pass _ fun token => ?_
  refine Counts.skipTrivia.andThen fun _ => (Counts.at_ _).andThen fun opens => ?_
  have ending (params : Parameters) : Clear torn (do
        Parser.skipTrivia
        if ← Parser.atEnd then return (token.text, params)
        else Parser.unexpected "end of signature") := by
    refine Counts.skipTrivia.andThen fun _ => Counts.atEnd.andThen fun ended => ?_
    split
    · exact .done _
    · exact .unexpected _
  dsimp only
  split
  · exact (clear_parameters inner).andThen fun params => ending params
  · exact ending _

end Expressions

theorem clear_expressions (depth : Nat) (form : Form) : Clear torn (Form.parser depth form) := by
  induction depth generalizing form with
  | zero => exact .throw trivial
  | succ depth ih =>
    cases form with
    | comma => exact clear_commaList ih []
    | space => exact clear_spaceList ih []
    | unary => exact clear_unary ih

theorem sound_cursorOf (source : String) :
    Sound (Tears source.toList) (Cursor.Intact (Tears source.toList)) (cursorOf source) := by
  unfold cursorOf
  split
  · exact trivial
  · rename_i tokens lexed
    have first : 1 ≤ Position.start.line := le_refl 1
    exact Cursor.intact_ofTokens (Lexer.intact_tokensAt first id lexed)

theorem sound_expression (source : String) :
    Sound (Tears source.toList) (fun _ => True) (expression source) :=
  (sound_cursorOf source).bind fun _ intact =>
    (clear_complete (clear_commaList (clear_expressions _) [])).run intact

theorem sound_signature (source : String) :
    Sound (Tears source.toList) (fun _ => True) (signature source) :=
  (sound_cursorOf source).bind fun _ intact =>
    (clear_signatureOf (clear_expressions _)).run intact

end Grammar

end Scss
