import Scss.Grammar.Statement
import Scss.Proofs.Tiling

/-! Expressions as text: variables, signs, negations, operators, lists, maps and parentheses, each
written in one way. `Printable` says at which rank an expression may stand without parentheses, and
`lexes_print` that its text is read back as its own lexemes wherever a separator follows. -/
namespace Scss.Grammar

/-- The ranks of expressions, from the tightest to the loosest. -/
inductive Rank where
  | unary
  | product
  | sum
  | comparison
  | conjunction
  | disjunction
  | space
  | comma
deriving DecidableEq

namespace Rank

def index : Rank → Nat
  | unary => 0
  | product => 1
  | sum => 2
  | comparison => 3
  | conjunction => 4
  | disjunction => 5
  | space => 6
  | comma => 7

/-- The next tighter rank; there is none below a single operand. -/
def tighter : Rank → Rank
  | unary => unary
  | product => unary
  | sum => product
  | comparison => sum
  | conjunction => comparison
  | disjunction => conjunction
  | space => disjunction
  | comma => space

end Rank

def operatorRank : BinaryOp → Rank
  | .mul | .div | .mod => .product
  | .add | .sub => .sum
  | .eq | .notEq | .lt | .gt | .le | .ge => .comparison
  | .and => .conjunction
  | .or => .disjunction

def isSignable : Expr → Bool
  | .var _ _ => true
  | .paren _ _ => true
  | _ => false

/-- The expressions that are written without doubt at a rank. Operators of one rank associate to the
left: the left operand may be of the rank itself, and the right one is tighter. -/
inductive Printable : Rank → Expr → Prop where
  | var {name : String} (line : Nat) (nonempty : name ≠ "")
      (letters : ∀ c ∈ name.toList, c.isAlpha = true) : Printable .unary (.var name line)
  | paren {inner : Expr} (line : Nat) (body : Printable .comma inner) :
      Printable .unary (.paren inner line)
  | sign {op : UnaryOp} {operand : Expr} (line : Nat) (signs : op ≠ .not)
      (signable : isSignable operand = true) (body : Printable .unary operand) :
      Printable .unary (.unary op operand line)
  | negation {operand : Expr} (line : Nat) (body : Printable .unary operand) :
      Printable .unary (.unary .not operand line)
  | map {pairs : List (Expr × Expr)} (line : Nat) (nonempty : pairs ≠ [])
      (keys : ∀ pair ∈ pairs, Printable .space pair.1)
      (values : ∀ pair ∈ pairs, Printable .space pair.2) : Printable .unary (.map pairs line)
  | binary {rank : Rank} {op : BinaryOp} {left right : Expr} (line : Nat)
      (ranked : operatorRank op = rank) (first : Printable rank left)
      (second : Printable rank.tighter right) : Printable rank (.binary op left right line)
  | spaceList {items : List Expr} (line : Nat) (several : 2 ≤ items.length)
      (members : ∀ item ∈ items, Printable .disjunction item) :
      Printable .space (.list items .space false line)
  | commaList {items : List Expr} (line : Nat) (several : 2 ≤ items.length)
      (members : ∀ item ∈ items, Printable .space item) :
      Printable .comma (.list items .comma false line)
  | looser {rank : Rank} {expr : Expr} (body : Printable rank.tighter expr) : Printable rank expr

/-- What may stand at a rank may stand at every looser one. -/
theorem Printable.loosen {rank loose : Rank} {expr : Expr} (printable : Printable rank expr)
    (below : rank.index ≤ loose.index) : Printable loose expr := by
  have climb : ∀ steps loose, loose.index = rank.index + steps → Printable loose expr := by
    intro steps
    induction steps with
    | zero =>
      intro loose same
      obtain rfl : loose = rank := by cases loose <;> cases rank <;> first | rfl | cases same
      exact printable
    | succ steps ih =>
      intro loose apart
      have step : loose.tighter.index + 1 = loose.index := by
        cases loose with
        | unary => simp [Rank.index] at apart
        | _ => rfl
      exact .looser (ih loose.tighter (by omega))
  exact climb (loose.index - rank.index) loose (by omega)

mutual

/-- The text of an expression: one space around an operator, behind `not` and between the members of
a list by blanks; a comma and a space between the members of other lists and between pairs. -/
def print : Expr → String
  | .var name _ => "$" ++ name
  | .paren inner _ => "(" ++ print inner ++ ")"
  | .unary .not operand _ => "not " ++ print operand
  | .unary op operand _ => op.symbol ++ print operand
  | .binary op left right _ => print left ++ " " ++ op.symbol ++ " " ++ print right
  | .list items separator _ _ => Text.join separator.text (printAll items)
  | .map pairs _ => "(" ++ Text.join ", " (printPairs pairs) ++ ")"
  | _ => ""

def printAll : List Expr → List String
  | [] => []
  | item :: rest => print item :: printAll rest

def printPairs : List (Expr × Expr) → List String
  | [] => []
  | (key, value) :: rest => (print key ++ ": " ++ print value) :: printPairs rest

end

mutual

def onLine (line : Nat) : Expr → Expr
  | .number value unit position => .number value unit { position with line := line }
  | .string value _ => .string (templateOnLine line value) line
  | .identifier name position => .identifier name { position with line := line }
  | .interpolated value => .interpolated (templateOnLine line value)
  | .hexColor text position => .hexColor text { position with line := line }
  | .namedColor name position => .namedColor name { position with line := line }
  | .boolean value _ => .boolean value line
  | .null _ => .null line
  | .var name _ => .var name line
  | .member qualifier name _ => .member qualifier name line
  | .list items separator bracketed _ => .list (allOnLine line items) separator bracketed line
  | .map pairs _ => .map (pairsOnLine line pairs) line
  | .binary op left right _ => .binary op (onLine line left) (onLine line right) line
  | .unary op operand _ => .unary op (onLine line operand) line
  | .paren inner _ => .paren (onLine line inner) line
  | .call qualifier name args _ => .call qualifier name (argumentsOnLine line args) line
  | .url value _ => .url (templateOnLine line value) line
  | .parent _ => .parent line
  | .important _ => .important line

def templateOnLine (line : Nat) : Template → Template
  | ⟨parts, _⟩ => ⟨partsOnLine line parts, line⟩

def partsOnLine (line : Nat) : List (Fragment Expr) → List (Fragment Expr)
  | [] => []
  | .literal text :: rest => .literal text :: partsOnLine line rest
  | .expr value :: rest => .expr (onLine line value) :: partsOnLine line rest

def allOnLine (line : Nat) : List Expr → List Expr
  | [] => []
  | item :: rest => onLine line item :: allOnLine line rest

def pairsOnLine (line : Nat) : List (Expr × Expr) → List (Expr × Expr)
  | [] => []
  | (key, value) :: rest => (onLine line key, onLine line value) :: pairsOnLine line rest

def argumentsOnLine (line : Nat) : List (Argument Expr) → List (Argument Expr)
  | [] => []
  | ⟨name, value, spread⟩ :: rest => ⟨name, onLine line value, spread⟩ :: argumentsOnLine line rest

end

abbrev Lexeme := TokenKind × String

namespace Lexeme

def blank : Lexeme := (.whitespace, " ")

def opening : Lexeme := (.leftParen, "(")

def closing : Lexeme := (.rightParen, ")")

def comma : Lexeme := (.comma, ",")

def colon : Lexeme := (.colon, ":")

def word (text : String) : Lexeme := (.ident, text)

/-- The lexeme of a sign, and of `not`. -/
def unary : UnaryOp → Lexeme
  | .not => word "not"
  | .plus => (.plus, "+")
  | .minus => (.minus, "-")

def binary : BinaryOp → Lexeme
  | .add => (.plus, "+")
  | .sub => (.minus, "-")
  | .mul => (.star, "*")
  | .div => (.slash, "/")
  | .mod => (.percent, "%")
  | .eq => (.equalEqual, "==")
  | .notEq => (.notEqual, "!=")
  | .lt => (.less, "<")
  | .gt => (.greater, ">")
  | .le => (.lessEqual, "<=")
  | .ge => (.greaterEqual, ">=")
  | .and => word "and"
  | .or => word "or"

def between : Separator → List Lexeme
  | .space => [blank]
  | .comma => [comma, blank]
  | .slash => [blank, (.slash, "/"), blank]

end Lexeme

mutual

def lexemes : Expr → List Lexeme
  | .var name _ => [(.dollar, "$" ++ name)]
  | .paren inner _ => .opening :: (lexemes inner ++ [.closing])
  | .unary .not operand _ => .unary .not :: .blank :: lexemes operand
  | .unary op operand _ => .unary op :: lexemes operand
  | .binary op left right _ => lexemes left ++ .blank :: .binary op :: .blank :: lexemes right
  | .list items separator _ _ => (Lexeme.between separator).intercalate (allLexemes items)
  | .map pairs _ => .opening :: ((Lexeme.between .comma).intercalate (pairLexemes pairs) ++ [.closing])
  | _ => []

def allLexemes : List Expr → List (List Lexeme)
  | [] => []
  | item :: rest => lexemes item :: allLexemes rest

def pairLexemes : List (Expr × Expr) → List (List Lexeme)
  | [] => []
  | (key, value) :: rest => (lexemes key ++ .colon :: .blank :: lexemes value) :: pairLexemes rest

end

structure Written (line : Nat) (lexemes : List Lexeme) (tokens : List Token) : Prop where
  lexemes_eq : tokens.map (fun token => (token.kind, token.text)) = lexemes
  line_eq : ∀ token ∈ tokens, token.line = line

theorem Written.append {line : Nat} {first second : List Lexeme} {head tail : List Token}
    (start : Written line first head) (rest : Written line second tail) :
    Written line (first ++ second) (head ++ tail) where
  lexemes_eq := by rw [List.map_append, start.lexemes_eq, rest.lexemes_eq]
  line_eq token member := by
    rcases List.mem_append.mp member with found | found
    · exact start.line_eq token found
    · exact rest.line_eq token found

/-- A text is read as these lexemes, on one line, if `rest` follows it. -/
def Lexes (lexemes : List Lexeme) (text rest : List Char) : Prop :=
  ∀ position : Position, ∃ tokens, Written position.line lexemes tokens ∧
    (position.after text).line = position.line ∧
    Lexer.tokensAt position (text ++ rest) =
      (tokens ++ ·) <$> Lexer.tokensAt (position.after text) rest

namespace Lexes

theorem append {first second : List Lexeme} {head tail rest : List Char}
    (start : Lexes first head (tail ++ rest)) (next : Lexes second tail rest) :
    Lexes (first ++ second) (head ++ tail) rest := by
  intro position
  obtain ⟨before, written, line, read⟩ := start position
  obtain ⟨after, writtenAfter, lineAfter, readAfter⟩ := next (position.after head)
  refine ⟨before ++ after, written.append (line ▸ writtenAfter), ?_, ?_⟩
  · rw [Position.after_append, lineAfter, line]
  · rw [List.append_assoc, read, readAfter, Position.after_append]
    cases Lexer.tokensAt ((position.after head).after tail) rest with
    | error fault => rfl
    | ok tokens => simp [Functor.map, Except.map]

theorem cons {first : Lexeme} {second : List Lexeme} {head tail rest : List Char}
    (start : Lexes [first] head (tail ++ rest)) (next : Lexes second tail rest) :
    Lexes (first :: second) (head ++ tail) rest :=
  start.append next

/-- A single token, by the length that the lexer measures for it. -/
theorem single {kind : TokenKind} {c : Char} {text rest : List Char}
    (measured : ∀ position, Lexer.measure position c (text ++ rest) = .ok (kind, text.length))
    (oneLine : '\n' ∉ c :: text) : Lexes [(kind, String.ofList (c :: text))] (c :: text) rest := by
  have stays (position : Position) (text : List Char) (oneLine : '\n' ∉ text) :
      (position.after text).line = position.line := by
    induction text generalizing position with
    | nil => rfl
    | cons d more ih =>
      simp only [List.mem_cons, not_or] at oneLine
      rw [Position.after_cons, ih _ oneLine.2, Position.next, if_neg (Ne.symm oneLine.1)]
  intro position
  refine ⟨[⟨kind, String.ofList (c :: text), position⟩], ⟨rfl, ?_⟩, stays position _ oneLine, ?_⟩
  · intro token member
    rw [List.mem_singleton.mp member]
    rfl
  · rw [List.cons_append, Lexer.tokensAt_cons, measured position]
    simp only [bind, Except.bind, List.take_left, List.drop_left]
    cases Lexer.tokensAt (position.after (c :: text)) rest <;> rfl

end Lexes

/-- The characters that may follow an expression. -/
def Separated (rest : List Char) : Prop := ∀ c ∈ rest.head?, c ∈ [' ', ')', ',', ':']

theorem nameLength_separated {rest : List Char} (separated : Separated rest) :
    Lexer.nameLength rest = 0 := by
  cases rest with
  | nil => rfl
  | cons c more =>
    have cases := separated c rfl
    simp only [List.mem_cons, List.not_mem_nil, or_false] at cases
    rcases cases with rfl | rfl | rfl | rfl <;> rfl

theorem nameLength_letter {c : Char} (letter : c.isAlpha = true) (rest : List Char) :
    Lexer.nameLength (c :: rest) = Lexer.nameLength rest + 1 := by
  have backslash : c ≠ '\\' := by rintro rfl; revert letter; decide
  have hyphen : c ≠ '-' := by rintro rfl; revert letter; decide
  have name : Lexer.isNameChar c = true := by simp [Lexer.isNameChar, Char.isAlphanum, letter]
  rw [Lexer.nameLength.eq_def]
  split <;> simp_all

theorem nameLength_letters {name rest : List Char} (letters : ∀ c ∈ name, c.isAlpha = true)
    (separated : Separated rest) : Lexer.nameLength (name ++ rest) = name.length := by
  induction name with
  | nil => exact nameLength_separated separated
  | cons c more ih =>
    rw [List.cons_append, nameLength_letter (letters c (by simp)),
      ih fun d member => letters d (by simp [member]), List.length_cons]

theorem measure_dollar (position : Position) {c : Char} (letter : c.isAlpha = true)
    (rest : List Char) : Lexer.measure position '$' (c :: rest) =
      .ok (.dollar, Lexer.nameLength (c :: rest)) := by
  have named : Lexer.isNameStart c = true := by simp [Lexer.isNameStart, letter]
  have chosen : Lexer.measure position '$' (c :: rest) =
      if Lexer.isNameStart c || decide (c = '-') then
        .ok (.dollar, Lexer.nameLength (c :: rest))
      else .ok (.delimiter, 0) := rfl
  rw [chosen, named]
  rfl

namespace Lexes

theorem var {name : String} {rest : List Char} (nonempty : name ≠ "")
    (letters : ∀ c ∈ name.toList, c.isAlpha = true) (separated : Separated rest) :
    Lexes [(.dollar, "$" ++ name)] ('$' :: name.toList) rest := by
  have text : "$" ++ name = String.ofList ('$' :: name.toList) := by
    apply String.toList_injective
    simp
  rw [text]
  refine single (fun position => ?_) ?_
  · cases chars : name.toList with
    | nil => exact absurd (String.toList_injective chars) nonempty
    | cons c more =>
      rw [chars] at letters
      rw [List.cons_append, measure_dollar position (letters c (by simp)), ← List.cons_append,
        nameLength_letters letters separated]
  · intro newline
    have letter := letters '\n' (by simpa using newline)
    exact absurd letter (by decide)

/-- A blank is a token of its own if no other blank follows. -/
theorem blank {rest : List Char} (visible : ∀ c ∈ rest.head?, Chars.isBlank c = false) :
    Lexes [.blank] [' '] rest := by
  refine single (fun position => ?_) (by decide)
  have run : Lexer.run Chars.isBlank rest = 0 := by
    cases rest with
    | nil => rfl
    | cons c more => simp [Lexer.run, visible c rfl]
  exact congrArg (fun length => Except.ok (TokenKind.whitespace, length)) run

theorem opening (rest : List Char) : Lexes [.opening] ['('] rest :=
  single (fun _ => rfl) (by decide)

theorem closing (rest : List Char) : Lexes [.closing] [')'] rest :=
  single (fun _ => rfl) (by decide)

theorem comma (rest : List Char) : Lexes [.comma] [','] rest :=
  single (fun _ => rfl) (by decide)

theorem colon (rest : List Char) : Lexes [.colon] [':'] rest :=
  single (fun _ => rfl) (by decide)

theorem negation (rest : List Char) : Lexes [.unary .not] ['n', 'o', 't'] (' ' :: rest) :=
  single (fun _ => rfl) (by decide)

/-- A sign directly before a variable or a parenthesis. -/
theorem sign {op : UnaryOp} (signs : op ≠ .not) {c : Char} (rest : List Char)
    (operand : c = '$' ∨ c = '(') : Lexes [.unary op] op.symbol.toList (c :: rest) := by
  cases op with
  | not => exact absurd rfl signs
  | plus => exact single (fun _ => rfl) (by decide)
  | minus =>
    rcases operand with rfl | rfl
    · exact single (fun _ => rfl) (by decide)
    · exact single (fun _ => rfl) (by decide)

theorem operator (op : BinaryOp) (rest : List Char) :
    Lexes [.binary op] op.symbol.toList (' ' :: rest) := by
  cases op <;> exact single (fun _ => rfl) (by decide)

end Lexes

section Members

variable {α : Type} {between : List Lexeme} {separator : List Char} {lex : α → List Lexeme}
  {text : α → List Char}

/-- The first character of a text is there and no blank. -/
def Visible (text : List Char) : Prop := ∃ c more, text = c :: more ∧ Chars.isBlank c = false

theorem intercalate_cons {β : Type} (separator first : List β) (others : List (List β)) :
    separator.intercalate (first :: others) = first ++ others.flatMap (separator ++ ·) := by
  induction others generalizing first with
  | nil => simp
  | cons second rest ih =>
    rw [List.intercalate_cons_cons, ih, List.flatMap_cons]
    simp only [List.append_assoc]

/-- Members with a separator before each of them. -/
theorem Lexes.members (apart : ∀ rest, Separated (separator ++ rest))
    (bridge : ∀ rest, Visible rest → Lexes between separator rest) {items : List α}
    (visible : ∀ item ∈ items, Visible (text item))
    (read : ∀ item ∈ items, ∀ rest, Separated rest → Lexes (lex item) (text item) rest)
    {rest : List Char} (separated : Separated rest) :
    Separated (items.flatMap (fun item => separator ++ text item) ++ rest) ∧
      Lexes (items.flatMap fun item => between ++ lex item)
        (items.flatMap fun item => separator ++ text item) rest := by
  induction items with
  | nil =>
    refine ⟨separated, fun position => ⟨[], ⟨rfl, by simp⟩, rfl, ?_⟩⟩
    exact (id_map _).symm
  | cons item others ih =>
    obtain ⟨next, tail⟩ := ih (fun other member => visible other (by simp [member]))
      fun other member => read other (by simp [member])
    have first := read item (by simp) _ next
    obtain ⟨c, more, shown, nonblank⟩ := visible item (by simp)
    have start : Lexes between separator ((text item ++
        others.flatMap (fun item => separator ++ text item)) ++ rest) :=
      bridge _ ⟨c, _, by rw [shown, List.cons_append, List.cons_append], nonblank⟩
    refine ⟨by simpa only [List.flatMap_cons, List.append_assoc] using apart _, ?_⟩
    simpa only [List.flatMap_cons, List.append_assoc] using start.append (first.append tail)

/-- Members with a separator between them. -/
theorem Lexes.intercalate (apart : ∀ rest, Separated (separator ++ rest))
    (bridge : ∀ rest, Visible rest → Lexes between separator rest) {items : List α}
    (nonempty : items ≠ []) (visible : ∀ item ∈ items, Visible (text item))
    (read : ∀ item ∈ items, ∀ rest, Separated rest → Lexes (lex item) (text item) rest)
    {rest : List Char} (separated : Separated rest) :
    Lexes (between.intercalate (items.map lex)) (separator.intercalate (items.map text)) rest := by
  cases items with
  | nil => exact absurd rfl nonempty
  | cons first others =>
    obtain ⟨next, tail⟩ := Lexes.members apart bridge
      (fun other member => visible other (List.mem_cons_of_mem first member))
      (fun other member => read other (List.mem_cons_of_mem first member)) separated
    rw [List.map_cons, List.map_cons, intercalate_cons, intercalate_cons, List.flatMap_map,
      List.flatMap_map]
    exact (read first (by simp) _ next).append tail

end Members

theorem separated_comma (rest : List Char) : Separated ([',', ' '] ++ rest) := by
  simp [Separated]

theorem separated_blank (rest : List Char) : Separated ([' '] ++ rest) := by
  simp [Separated]

theorem Lexes.spaces (rest : List Char) (visible : Visible rest) :
    Lexes (Lexeme.between .space) [' '] rest := by
  obtain ⟨c, more, rfl, nonblank⟩ := visible
  exact .blank (by simpa using nonblank)

theorem Lexes.commas (rest : List Char) (visible : Visible rest) :
    Lexes (Lexeme.between .comma) [',', ' '] rest :=
  (Lexes.comma _).cons (Lexes.spaces rest visible)

theorem allLexemes_eq (items : List Expr) : allLexemes items = items.map lexemes := by
  induction items with
  | nil => rfl
  | cons item rest ih => rw [allLexemes, ih, List.map_cons]

theorem pairLexemes_eq (pairs : List (Expr × Expr)) : pairLexemes pairs =
    pairs.map fun pair => lexemes pair.1 ++ .colon :: .blank :: lexemes pair.2 := by
  induction pairs with
  | nil => rfl
  | cons pair rest ih => rw [pairLexemes, ih, List.map_cons]

theorem printAll_eq (items : List Expr) : printAll items = items.map print := by
  induction items with
  | nil => rfl
  | cons item rest ih => rw [printAll, ih, List.map_cons]

theorem printPairs_eq (pairs : List (Expr × Expr)) :
    printPairs pairs = pairs.map fun pair => print pair.1 ++ ": " ++ print pair.2 := by
  induction pairs with
  | nil => rfl
  | cons pair rest ih => rw [printPairs, ih, List.map_cons]

/-- The text of a list, member by member. -/
theorem toList_join_cons (separator first : String) (others : List String) :
    (Text.join separator (first :: others)).toList =
      first.toList ++ others.flatMap fun text => separator.toList ++ text.toList := by
  rw [Text.join, String.toList_intercalate, List.map_cons, intercalate_cons, List.flatMap_map]

theorem toList_join_map {α : Type} (separator : String) (text : α → String) (items : List α) :
    (Text.join separator (items.map text)).toList =
      separator.toList.intercalate (items.map fun item => (text item).toList) := by
  rw [Text.join, String.toList_intercalate, List.map_map, Function.comp_def]

theorem signable_head {operand : Expr} (signable : isSignable operand = true) :
    ∃ c more, (print operand).toList = c :: more ∧ (c = '$' ∨ c = '(') := by
  cases operand with
  | var name line => exact ⟨'$', name.toList, by simp [print], .inl rfl⟩
  | paren inner line => exact ⟨'(', (print inner).toList ++ [')'], by simp [print], .inr rfl⟩
  | _ => simp [isSignable] at signable

/-- No expression starts with a blank. -/
theorem print_visible {rank : Rank} {expr : Expr} (printable : Printable rank expr) :
    Visible (print expr).toList := by
  induction printable with
  | var line nonempty letters => exact ⟨'$', _, by simp [print]; rfl, by decide⟩
  | paren line body ih => exact ⟨'(', _, by simp [print]; rfl, by decide⟩
  | @sign op operand line signs signable body ih =>
    cases op with
    | not => exact absurd rfl signs
    | plus => exact ⟨'+', _, by simp [print, UnaryOp.symbol]; rfl, by decide⟩
    | minus => exact ⟨'-', _, by simp [print, UnaryOp.symbol]; rfl, by decide⟩
  | negation line body ih => exact ⟨'n', _, by simp [print]; rfl, by decide⟩
  | map line nonempty keys values => exact ⟨'(', _, by simp [print]; rfl, by decide⟩
  | binary line ranked first second ih =>
    obtain ⟨c, more, shown, nonblank⟩ := ih
    exact ⟨c, _, by simp [print, shown]; rfl, nonblank⟩
  | @spaceList items line several members ih =>
    cases items with
    | nil => simp at several
    | cons item others =>
      obtain ⟨c, more, shown, nonblank⟩ := ih item (by simp)
      exact ⟨c, _, by rw [print, printAll, toList_join_cons, shown, List.cons_append], nonblank⟩
  | @commaList items line several members ih =>
    cases items with
    | nil => simp at several
    | cons item others =>
      obtain ⟨c, more, shown, nonblank⟩ := ih item (by simp)
      exact ⟨c, _, by rw [print, printAll, toList_join_cons, shown, List.cons_append], nonblank⟩
  | looser body ih => exact ih

theorem symbol_visible (op : BinaryOp) (rest : List Char) : Visible (op.symbol.toList ++ rest) := by
  cases op <;> exact ⟨_, _, rfl, by decide⟩

/-- The text of an expression is read as its lexemes, if a separator follows or nothing. -/
theorem lexes_print {rank : Rank} {expr : Expr} (printable : Printable rank expr) :
    ∀ rest, Separated rest → Lexes (lexemes expr) (print expr).toList rest := by
  induction printable with
  | @var name line nonempty letters =>
    intro rest separated
    simpa [lexemes, print] using Lexes.var nonempty letters separated
  | @paren inner line body ih =>
    intro rest separated
    have closed : Lexes (lexemes inner ++ [.closing]) ((print inner).toList ++ [')']) rest :=
      (ih _ (by simp [Separated])).append (.closing rest)
    simpa [lexemes, print] using (Lexes.opening _).cons closed
  | @sign op operand line signs signable body ih =>
    intro rest separated
    obtain ⟨c, more, shown, start⟩ := signable_head signable
    have signed : Lexes [.unary op] op.symbol.toList ((print operand).toList ++ rest) := by
      rw [shown, List.cons_append]
      exact .sign signs _ start
    have whole := signed.cons (ih rest separated)
    cases op with
    | not => exact absurd rfl signs
    | plus => simpa [lexemes, print] using whole
    | minus => simpa [lexemes, print] using whole
  | @negation operand line body ih =>
    intro rest separated
    obtain ⟨c, more, shown, nonblank⟩ := print_visible body
    have spaced : Lexes (.blank :: lexemes operand) ([' '] ++ (print operand).toList) rest :=
      (Lexes.spaces _ ⟨c, _, by rw [shown, List.cons_append], nonblank⟩).cons (ih rest separated)
    simpa [lexemes, print] using (Lexes.negation _).cons spaced
  | @map pairs line nonempty keys values ihKeys ihValues =>
    intro rest separated
    have read : ∀ pair ∈ pairs, ∀ rest, Separated rest →
        Lexes (lexemes pair.1 ++ .colon :: .blank :: lexemes pair.2)
          ((print pair.1).toList ++ (':' :: ' ' :: (print pair.2).toList)) rest := by
      intro pair member rest separated
      obtain ⟨c, more, shown, nonblank⟩ := print_visible (values pair member)
      have value : Lexes (.blank :: lexemes pair.2) ([' '] ++ (print pair.2).toList) rest :=
        (Lexes.spaces _ ⟨c, _, by rw [shown, List.cons_append], nonblank⟩).cons
          (ihValues pair member rest separated)
      exact (ihKeys pair member _ (by simp [Separated])).append ((Lexes.colon _).cons value)
    have visible : ∀ pair ∈ pairs,
        Visible ((print pair.1).toList ++ (':' :: ' ' :: (print pair.2).toList)) := by
      intro pair member
      obtain ⟨c, more, shown, nonblank⟩ := print_visible (keys pair member)
      exact ⟨c, _, by rw [shown, List.cons_append], nonblank⟩
    have closed := (Lexes.intercalate separated_comma Lexes.commas nonempty visible read
      (by simp [Separated])).append (.closing rest)
    have whole := (Lexes.opening _).cons closed
    rw [lexemes, pairLexemes_eq, print, printPairs_eq, String.toList_append, String.toList_append,
      toList_join_map]
    simpa using whole
  | @binary rank op left right line ranked first second ihFirst ihSecond =>
    intro rest separated
    obtain ⟨c, more, shown, nonblank⟩ := print_visible second
    have operand : Lexes (.blank :: lexemes right) ([' '] ++ (print right).toList) rest :=
      (Lexes.spaces _ ⟨c, _, by rw [shown, List.cons_append], nonblank⟩).cons
        (ihSecond rest separated)
    have operator : Lexes (.binary op :: .blank :: lexemes right)
        (op.symbol.toList ++ ([' '] ++ (print right).toList)) rest :=
      (Lexes.operator op _).cons operand
    have spaced : Lexes (.blank :: .binary op :: .blank :: lexemes right)
        ([' '] ++ (op.symbol.toList ++ ([' '] ++ (print right).toList))) rest :=
      (Lexes.spaces _ (by rw [List.append_assoc]; exact symbol_visible op _)).cons operator
    have whole := (ihFirst _ (by simp [Separated])).append spaced
    simpa [lexemes, print] using whole
  | @spaceList items line several members ih =>
    intro rest separated
    rw [lexemes, allLexemes_eq, print, printAll_eq, toList_join_map]
    exact Lexes.intercalate separated_blank Lexes.spaces (by rintro rfl; simp at several)
      (fun item member => print_visible (members item member)) ih separated
  | @commaList items line several members ih =>
    intro rest separated
    rw [lexemes, allLexemes_eq, print, printAll_eq, toList_join_map]
    exact Lexes.intercalate separated_comma Lexes.commas (by rintro rfl; simp at several)
      (fun item member => print_visible (members item member)) ih separated
  | looser body ih => exact ih

end Scss.Grammar
