import Scss.Proofs.Grammar.Faults
import Scss.Proofs.Nesting

/-! Statements that are read from a text have lines that count from one, because those of tokens do.
The grammar of statements is followed rule by rule. -/
namespace Scss

variable {torn : Prop}

/-- All statements of a block have lines that count from one. -/
def Numbered (nodes : List Statement) : Prop := ∀ node, Occurs nodes node → 1 ≤ node.line

namespace Numbered

variable {nodes more : List Statement} {node : Statement}

theorem nil : Numbered [] := by
  rintro node (⟨⟨⟩⟩ | ⟨⟨⟩, -⟩)

theorem append (first : Numbered nodes) (second : Numbered more) : Numbered (nodes ++ more) :=
  fun node occurs => occurs.append_cases.elim (first node) (second node)

theorem single (line : 1 ≤ node.line) (inside : Numbered node.children) : Numbered [node] := by
  intro inner occurs
  cases occurs with
  | here member => exact List.mem_singleton.mp member ▸ line
  | deeper member deep =>
    obtain rfl := List.mem_singleton.mp member
    exact inside inner deep

end Numbered

namespace Grammar

open Scss.Parser (Counts Clear)

theorem mem_dropFlags {tokens : List Token} {token : Token} (member : token ∈ (dropFlags tokens).2) :
    token ∈ tokens := by
  fun_induction dropFlags tokens with
  | case1 => exact member
  | case2 _ _ _ ih => exact List.mem_cons_of_mem _ (ih member)
  | case3 _ _ _ _ flags kept found ih =>
    rw [found] at ih
    exact List.mem_cons_of_mem _ (ih member)
  | case4 => exact member

theorem mem_splitFlags {tokens : List Token} {token : Token}
    (member : token ∈ (splitFlags tokens).2) : token ∈ tokens :=
  List.mem_reverse.mp (mem_dropFlags (List.mem_reverse.mp member))

theorem counts_takeTo (stops : List TokenKind) :
    Counts torn (fun tokens => ∀ token ∈ tokens, token.Intact torn) (takeTo stops) :=
  fun cursor intact => Counts.take _ cursor intact

section Raw

variable {self : Self} (inner : ∀ form, Clear torn (self form))

include inner

theorem clear_raw (stops : List TokenKind) (dollars : Bool) : Clear torn (raw self stops dollars) := by
  refine Counts.current.bind fun first _ => Counts.andThen (Counts.rounds fun state => ?_)
    fun template => .done _
  refine Counts.current.bind fun token intact => ?_
  have shifted : 1 ≤ (token.position.shift 1).line := intact.line
  have passing (next : Parser.Next RawState Template) :
      Clear torn (do Parser.advance 1; return next) := (Counts.advance 1).andThen fun _ => .done _
  split
  · exact .done _
  split
  · exact .done _
  split
  · exact (clear_embedded inner).andThen fun expr => .done _
  · exact passing _
  · exact passing _
  · have inside := intact.inside _ (Token.inside?_string ‹_›)
    refine (clear_quoted inner inside shifted).andThen fun content => ?_
    exact (Counts.advance 1).andThen fun _ => .done _
  · refine (Counts.advance 1).andThen fun _ => ?_
    split <;> exact .done _

end Raw

namespace Blocks

variable {b : Blocks} (inner : ∀ form, Clear torn (b.self form)) (blocks : Counts torn Numbered b.block)

include inner in
theorem clear_expression : Clear torn b.expression := clear_commaList inner []

include inner in
theorem clear_valueOf {tokens : List Token} (intact : ∀ token ∈ tokens, token.Intact torn) :
    Clear torn (b.valueOf tokens) :=
  .lift ((clear_complete (clear_expression inner)).onTokens intact)

include inner in
theorem clear_rawOf {tokens : List Token} (intact : ∀ token ∈ tokens, token.Intact torn) :
    Clear torn (b.rawOf tokens) :=
  .lift ((clear_raw inner [] false).onTokens intact)

theorem clear_finish : Clear torn finish :=
  Counts.skipTrivia.andThen fun _ => (Counts.accept _).andThen fun _ => .done _

theorem clear_scanTo (stops : List TokenKind) : Clear torn (scanTo stops) :=
  fun _ intact => ⟨trivial, intact⟩

theorem clear_startsDeclaration : Clear torn startsDeclaration := by
  refine Counts.get.bind fun cursor _ => (clear_scanTo _).andThen fun colon => ?_
  split
  · exact .done _
  · refine (clear_scanTo _).andThen fun final => ?_
    split <;> exact .done _

/-- A statement with nothing inside. -/
theorem numbered_leaf {node : Statement} (line : 1 ≤ node.line) (leaf : node.children = []) :
    Numbered [node] :=
  .single line (leaf ▸ .nil)

section Statements

include inner

theorem counts_assignment (qualifier : Option String) :
    Counts torn (fun node => Numbered [node]) (b.assignment qualifier) := by
  refine (Counts.expect _).bind fun name own => Counts.skipTrivia.andThen fun _ => ?_
  refine Counts.pass _ fun _ => Counts.skipTrivia.andThen fun _ => ?_
  refine (counts_takeTo _).bind fun tokens intact => ?_
  have kept : ∀ token ∈ (splitFlags tokens).2, token.Intact torn :=
    fun token member => intact token (mem_splitFlags member)
  refine (clear_valueOf inner kept).andThen fun value => ?_
  exact (Counts.accept _).andThen fun _ => .pure (numbered_leaf own.line rfl)

theorem clear_declarationValue {tokens : List Token} (intact : ∀ token ∈ tokens, token.Intact torn) :
    Clear torn (b.declarationValue tokens) := by
  have kept : ∀ token ∈ (splitFlags tokens).2, token.Intact torn :=
    fun token member => intact token (mem_splitFlags member)
  have read := (clear_complete (clear_expression inner)).onTokens kept
  unfold declarationValue
  dsimp only
  split
  · exact .done _
  · split
    · exact .done _
    · split
      · exact .throw trivial
      · exact (clear_rawOf inner kept).andThen fun value => .done _
    · rename_i fault _ failed
      exact .throw (read.textual failed)

include blocks

theorem counts_styleRule : Counts torn (fun node => Numbered [node]) b.styleRule := by
  refine Counts.current.bind fun token intact => (clear_raw inner _ _).andThen fun text => ?_
  split
  · exact .unexpected _
  · exact blocks.bind fun body inside => .pure (.single intact.line inside)

theorem counts_declaration : Counts torn (fun node => Numbered [node]) b.declaration := by
  refine Counts.current.bind fun token own => (clear_raw inner _ _).andThen fun property => ?_
  refine Counts.pass _ fun _ => Counts.skipTrivia.andThen fun _ => ?_
  refine (counts_takeTo _).bind fun tokens intact => ?_
  refine (clear_declarationValue inner intact).andThen fun value => ?_
  refine (Counts.at_ _).andThen fun opens => ?_
  split
  · exact blocks.bind fun body inside => .pure (.single own.line inside)
  · split
    · exact .unexpected _
    · exact (Counts.accept _).andThen fun _ => .pure (.single own.line .nil)

omit blocks in
theorem counts_customProperty : Counts torn (fun node => Numbered [node]) b.customProperty := by
  refine (Counts.expect _).bind fun name intact => Counts.skipTrivia.andThen fun _ => ?_
  refine Counts.pass _ fun _ => Counts.skipTrivia.andThen fun _ => ?_
  refine (clear_raw inner _ _).andThen fun value => ?_
  exact (Counts.accept _).andThen fun _ => .pure (numbered_leaf intact.line rfl)

theorem counts_ruleOrDeclaration : Counts torn (fun node => Numbered [node]) b.ruleOrDeclaration := by
  refine Counts.current.bind fun token _ => (Counts.significant 1).andThen fun next => ?_
  split
  · exact counts_customProperty inner
  · refine clear_startsDeclaration.andThen fun declares => ?_
    split
    · exact counts_declaration inner blocks
    · exact counts_styleRule inner blocks

theorem counts_elseBranches {first : Branch Statement} (start : Numbered first.body) :
    Counts torn (fun branches => Numbered (branches.flatMap Branch.body)) (b.elseBranches first) := by
  refine .loop (fun branches => Numbered (branches.flatMap Branch.body)) (by simpa using start) ?_
  intro branches numbered
  have longer {branch : Branch Statement} (last : Numbered branch.body) :
      Numbered ((branches ++ [branch]).flatMap Branch.body) := by
    rw [List.flatMap_append]
    exact numbered.append (by simpa using last)
  refine Counts.get.bind fun saved before => Counts.skipTrivia.andThen fun _ => ?_
  refine Counts.current.bind fun token intact => ?_
  split
  · exact (Counts.set before).andThen fun _ => .pure numbered
  · refine (Counts.advance 1).andThen fun _ => Counts.skipTrivia.andThen fun _ => ?_
    refine (Counts.acceptWord _).andThen fun tested => ?_
    split
    · refine (clear_expression inner).andThen fun test => ?_
      exact blocks.bind fun body inside => .pure (longer inside)
    · exact blocks.bind fun body inside => .pure (longer inside)

variable {line : Nat} (own : 1 ≤ line)

include own

theorem counts_ifStatement : Counts torn (fun node => Numbered [node]) (b.ifStatement line) := by
  refine (clear_expression inner).andThen fun test => blocks.bind fun body inside => ?_
  exact (counts_elseBranches inner blocks inside).bind fun branches all => .pure (.single own all)

omit inner blocks own in
theorem clear_expectWord (word : String) : Clear torn (expectWord word) := by
  refine (Counts.acceptWord word).andThen fun found => ?_
  split
  · exact .unexpected _
  · exact .done _

theorem counts_eachStatement : Counts torn (fun node => Numbered [node]) (b.eachStatement line) := by
  refine Counts.andThen (Counts.rounds fun names => ?_) fun targets => ?_
  · refine Counts.pass _ fun name => Counts.skipTrivia.andThen fun _ => ?_
    refine (Counts.accept _).andThen fun more => ?_
    split
    · exact Counts.skipTrivia.andThen fun _ => .done _
    · exact .done _
  · refine (clear_expectWord _).andThen fun _ => (clear_expression inner).andThen fun list => ?_
    exact blocks.bind fun body inside => .pure (.single own inside)

theorem counts_forStatement : Counts torn (fun node => Numbered [node]) (b.forStatement line) := by
  refine Counts.pass _ fun token => Counts.skipTrivia.andThen fun _ => ?_
  refine (clear_expectWord _).andThen fun _ => (clear_commaList inner _).andThen fun first => ?_
  refine Counts.skipTrivia.andThen fun _ => (Counts.atWord _).andThen fun inclusive => ?_
  refine (Counts.atWord _).andThen fun exclusive => ?_
  split
  · exact .unexpected _
  · refine (Counts.advance 1).andThen fun _ => Counts.skipTrivia.andThen fun _ => ?_
    refine (clear_expression inner).andThen fun last => ?_
    exact blocks.bind fun body inside => .pure (.single own inside)

omit blocks own in
theorem clear_optionalArguments : Clear torn b.optionalArguments := by
  refine (Counts.at_ _).andThen fun opens => ?_
  split
  · exact clear_callArguments inner
  · exact .done _

omit blocks own in
theorem clear_optionalParameters : Clear torn b.optionalParameters := by
  refine (Counts.at_ _).andThen fun opens => ?_
  split
  · exact clear_parameters inner
  · exact .done _

theorem counts_includeStatement : Counts torn (fun node => Numbered [node]) (b.includeStatement line) := by
  have ending (qualifier : Option String) (name : String) (args : List (Argument Expr))
      (params : Parameters) : Counts torn (fun node => Numbered [node]) (do
        if ← Parser.at_ .leftBrace then
          return .includeMixin qualifier name args (some ⟨params, ← b.block⟩) line
        else
          let _ ← Parser.accept .semicolon
          return .includeMixin qualifier name args none line) := by
    refine (Counts.at_ _).andThen fun opens => ?_
    split
    · exact blocks.bind fun body inside => .pure (.single own inside)
    · exact (Counts.accept _).andThen fun _ => .pure (.single own .nil)
  have arguments (qualifier : Option String) (name : String) :
      Counts torn (fun node => Numbered [node]) (do
        Parser.skipTrivia
        let args ← b.optionalArguments
        Parser.skipTrivia
        let mut params := Parameters.none
        if ← Parser.acceptWord "using" then
          params ← parameters b.self
          Parser.skipTrivia
        if ← Parser.at_ .leftBrace then
          return .includeMixin qualifier name args (some ⟨params, ← b.block⟩) line
        else
          let _ ← Parser.accept .semicolon
          return .includeMixin qualifier name args none line) := by
    refine Counts.skipTrivia.andThen fun _ => (clear_optionalArguments inner).andThen fun args => ?_
    refine Counts.skipTrivia.andThen fun _ => (Counts.acceptWord _).andThen fun using_ => ?_
    dsimp only
    split
    · refine (clear_parameters inner).andThen fun params => ?_
      exact Counts.skipTrivia.andThen fun _ => ending _ _ _ _
    · exact ending _ _ _ _
  refine Counts.pass _ fun token => (Counts.at_ _).andThen fun dotted => ?_
  refine (Counts.peek 1).andThen fun next => (Counts.peek 1).andThen fun second => ?_
  dsimp only
  split
  · exact (Counts.advance 2).andThen fun _ => arguments _ _
  · exact arguments _ _

omit inner blocks own in
theorem clear_address : Clear torn address :=
  Counts.pass _ fun _ => Counts.skipTrivia.andThen fun _ => .done _

omit blocks own in
theorem clear_configuration : Clear torn b.configuration := by
  refine Counts.pass _ fun _ => Counts.rounds fun config => ?_
  refine Counts.skipTrivia.andThen fun _ => (Counts.accept _).andThen fun closed => ?_
  split
  · exact .done _
  · refine Counts.pass _ fun token => Counts.skipTrivia.andThen fun _ => ?_
    refine Counts.pass _ fun _ => Counts.skipTrivia.andThen fun _ => ?_
    refine (inner .space).andThen fun value => Counts.skipTrivia.andThen fun _ => ?_
    refine (Counts.accept _).andThen fun more => ?_
    split
    · exact .done _
    · exact Counts.pass _ fun _ => .done _

omit blocks in
theorem counts_useStatement : Counts torn (fun node => Numbered [node]) (b.useStatement line) := by
  have ending (url : String) (name : Option String) (config : List (String × Expr)) :
      Counts torn (fun node => Numbered [node]) (do
        finish
        return .useModule url name config line) :=
    clear_finish.andThen fun _ => .pure (.single own .nil)
  have configured (url : String) (name : Option String) :
      Counts torn (fun node => Numbered [node]) (do
        let mut config : List (String × Expr) := []
        if ← Parser.acceptWord "with" then config ← b.configuration
        finish
        return .useModule url name config line) := by
    refine (Counts.acceptWord _).andThen fun given => ?_
    dsimp only
    split
    · exact (clear_configuration inner).andThen fun config => ending _ _ _
    · exact ending _ _ _
  refine clear_address.andThen fun url => (Counts.acceptWord _).andThen fun named => ?_
  dsimp only
  split
  · refine (Counts.accept _).andThen fun star => ?_
    split
    · exact Counts.skipTrivia.andThen fun _ => configured _ _
    · exact Counts.pass _ fun token => Counts.skipTrivia.andThen fun _ => configured _ _
  · exact configured _ _

omit inner blocks own in
theorem clear_affix : Clear torn affix := by
  refine Counts.andThen (Counts.rounds fun text => ?_) fun text => ?_
  · refine Counts.current.bind fun token _ => ?_
    split
    · exact .done _
    · exact (Counts.advance 1).andThen fun _ => .done _
  · exact Counts.pass _ fun _ => Counts.skipTrivia.andThen fun _ => .done _

omit inner blocks own in
theorem clear_memberNames : Clear torn memberNames := by
  refine Counts.rounds fun names => Counts.skipTrivia.andThen fun _ => ?_
  refine (Counts.expectAny _).bind fun token _ => Counts.skipTrivia.andThen fun _ => ?_
  refine (Counts.accept _).andThen fun more => ?_
  split <;> exact .done _

omit inner blocks in
theorem counts_forwardStatement : Counts torn (fun node => Numbered [node]) (forwardStatement line) := by
  have ending (url : String) (before : Option String) (filter : Option ForwardFilter) :
      Counts torn (fun node => Numbered [node]) (do
        finish
        return .forwardModule url before filter line) :=
    clear_finish.andThen fun _ => .pure (.single own .nil)
  have filtered (url : String) (before : Option String) :
      Counts torn (fun node => Numbered [node]) (do
        let mut filter : Option ForwardFilter := none
        if ← Parser.atWord "show" then
          Parser.advance 1
          filter := some (.only (← memberNames))
        else if ← Parser.atWord "hide" then
          Parser.advance 1
          filter := some (.allBut (← memberNames))
        finish
        return .forwardModule url before filter line) := by
    refine (Counts.atWord _).andThen fun shows => ?_
    dsimp only
    split
    · exact (Counts.advance 1).andThen fun _ => clear_memberNames.andThen fun _ => ending _ _ _
    · refine (Counts.atWord _).andThen fun hides => ?_
      split
      · exact (Counts.advance 1).andThen fun _ => clear_memberNames.andThen fun _ => ending _ _ _
      · exact ending _ _ _
  refine clear_address.andThen fun url => (Counts.acceptWord _).andThen fun named => ?_
  dsimp only
  split
  · exact clear_affix.andThen fun text => filtered _ _
  · exact filtered _ _

omit blocks in
theorem counts_importStatement : Counts torn (fun node => Numbered [node]) (b.importStatement line) := by
  refine (counts_takeTo _).bind fun tokens intact => (Counts.accept _).andThen fun _ => ?_
  dsimp only
  split
  · exact .pure (.single own .nil)
  · exact (clear_rawOf inner intact).andThen fun text => .pure (.single own .nil)

omit own in
theorem clear_keyframeBlock : Clear torn b.keyframeBlock := by
  refine Counts.current.bind fun token _ => (clear_raw inner _ _).andThen fun text => ?_
  split
  · exact .fail _
  · exact blocks.bind fun body _ => .done _

theorem counts_keyframesStatement (keyword : String) :
    Counts torn (fun node => Numbered [node]) (b.keyframesStatement keyword line) := by
  refine (clear_raw inner _ _).andThen fun name => Counts.pass _ fun _ => ?_
  refine Counts.andThen (Counts.rounds fun frames => ?_) fun frames => .pure (.single own .nil)
  refine Counts.skipTrivia.andThen fun _ => (Counts.accept _).andThen fun closed => ?_
  split
  · exact .done _
  · refine Counts.atEnd.andThen fun ended => ?_
    split
    · exact .unexpected _
    · exact (clear_keyframeBlock inner blocks).andThen fun frame => .done _

omit inner blocks own in
theorem clear_atRootQuery : Clear torn atRootQuery := by
  refine Counts.pass _ fun _ => Counts.skipTrivia.andThen fun _ => ?_
  refine Counts.pass _ fun keyword => Counts.skipTrivia.andThen fun _ => Counts.pass _ fun _ => ?_
  refine Counts.andThen (Counts.rounds fun names => ?_) fun names => ?_
  · refine Counts.skipTrivia.andThen fun _ => (Counts.accept _).andThen fun closed => ?_
    split
    · exact .done _
    · exact Counts.pass _ fun _ => .done _
  · split
    · exact .done _
    · split
      · exact .done _
      · exact .fail _

theorem counts_atRootStatement : Counts torn (fun node => Numbered [node]) (b.atRootStatement line) := by
  have ending (query : Option AtRootQuery) : Counts torn (fun node => Numbered [node]) (do
      Parser.skipTrivia
      if ← Parser.at_ .leftBrace then return .atRoot none query (← b.block) line
      else
        let selectorLine := (← Parser.current).line
        let text ← raw b.self headStops false
        return .atRoot (some ⟨text, selectorLine⟩) query (← b.block) line) := by
    refine Counts.skipTrivia.andThen fun _ => (Counts.at_ _).andThen fun opens => ?_
    split
    · exact blocks.bind fun body inside => .pure (.single own inside)
    · refine Counts.current.bind fun token _ => (clear_raw inner _ _).andThen fun text => ?_
      exact blocks.bind fun body inside => .pure (.single own inside)
  refine (Counts.at_ _).andThen fun asks => ?_
  dsimp only
  split
  · exact clear_atRootQuery.andThen fun query => ending _
  · exact ending _

omit blocks in
theorem counts_messageStatement (kind : MessageKind) :
    Counts torn (fun node => Numbered [node]) (b.messageStatement kind line) := by
  refine (clear_expression inner).andThen fun value => clear_finish.andThen fun _ => ?_
  exact .pure (.single own .nil)

omit blocks in
theorem counts_extendStatement : Counts torn (fun node => Numbered [node]) (b.extendStatement line) := by
  refine (counts_takeTo _).bind fun tokens intact => ?_
  have kept : ∀ token ∈ (splitFlags tokens).2, token.Intact torn :=
    fun token member => intact token (mem_splitFlags member)
  refine (clear_rawOf inner kept).andThen fun selector => ?_
  exact (Counts.accept _).andThen fun _ => .pure (.single own .nil)

theorem counts_otherAtRule (name : String) :
    Counts torn (fun node => Numbered [node]) (b.otherAtRule name line) := by
  refine (clear_raw inner _ _).andThen fun value => (Counts.at_ _).andThen fun opens => ?_
  split
  · exact blocks.bind fun body inside => .pure (.single own inside)
  · exact (Counts.accept _).andThen fun _ => .pure (.single own .nil)

omit own in
theorem counts_callable {build : String → Parameters → List Statement → Nat → Statement}
    (built : ∀ name params body, Numbered body → Numbered [build name params body line]) :
    Counts torn (fun node => Numbered [node]) (b.callable build line) := by
  refine Counts.pass _ fun token => Counts.skipTrivia.andThen fun _ => ?_
  refine (clear_optionalParameters inner).andThen fun params => ?_
  exact blocks.bind fun body inside => .pure (built _ _ _ inside)

omit own in
theorem counts_conditional {build : Template → List Statement → Nat → Statement}
    (built : ∀ text body, Numbered body → Numbered [build text body line]) :
    Counts torn (fun node => Numbered [node]) (b.conditional build line) :=
  (clear_raw inner _ _).andThen fun _ => blocks.bind fun _ inside => .pure (built _ _ inside)

omit own in
theorem counts_atStatement : Counts torn (fun node => Numbered [node]) b.atStatement := by
  refine (Counts.expect _).bind fun token intact => ?_
  have own := intact.line
  dsimp only
  -- Which keyword it is stays open, so that no text is looked into.
  generalize Text.lower token.name = lower
  refine Counts.skipTrivia.andThen fun _ => ?_
  split
  · exact counts_ifStatement inner blocks own
  · exact .fail _
  · exact counts_eachStatement inner blocks own
  · exact counts_forStatement inner blocks own
  · refine (clear_expression inner).andThen fun condition => ?_
    exact blocks.bind fun body inside => .pure (.single own inside)
  · exact counts_callable inner blocks fun _ _ _ inside => .single own inside
  · exact counts_callable inner blocks fun _ _ _ inside => .single own inside
  · refine (clear_expression inner).andThen fun value => clear_finish.andThen fun _ => ?_
    exact .pure (.single own .nil)
  · exact counts_includeStatement inner blocks own
  · refine (clear_optionalArguments inner).andThen fun args => clear_finish.andThen fun _ => ?_
    exact .pure (.single own .nil)
  · exact counts_useStatement inner own
  · exact counts_forwardStatement own
  · exact counts_importStatement inner own
  · exact counts_conditional inner blocks fun _ _ inside => .single own inside
  · exact counts_conditional inner blocks fun _ _ inside => .single own inside
  · exact counts_conditional inner blocks fun _ _ inside => .single own inside
  · exact counts_atRootStatement inner blocks own
  · exact counts_messageStatement inner own _
  · exact counts_messageStatement inner own _
  · exact counts_messageStatement inner own _
  · exact counts_extendStatement inner own
  · split
    · exact counts_keyframesStatement inner blocks own _
    · exact counts_otherAtRule inner blocks own _

omit inner blocks own in
/-- One more statement behind those that are read. -/
theorem counts_round {done : List Statement} (numbered : Numbered done) {parser : Parser Statement}
    (counts : Counts torn (fun node => Numbered [node]) parser) :
    Counts torn (Parser.Next.Holds Numbered Numbered)
      (do return (.again (done ++ [← parser]) : Parser.Next (List Statement) (List Statement))) :=
  counts.bind fun _ last => .pure (numbered.append last)

omit own in
theorem counts_statements (nested : Bool) : Counts torn Numbered (b.statements nested) := by
  refine .loop Numbered .nil fun done numbered => Counts.skipBlank.andThen fun _ => ?_
  refine Counts.current.bind fun token intact => ?_
  split
  · split
    · exact .unexpected _
    · exact .pure numbered
  · split
    · exact .pure numbered
    · exact .unexpected _
  · exact (Counts.advance 1).andThen fun _ => .pure numbered
  · refine (Counts.advance 1).andThen fun _ => .pure ?_
    dsimp only [Parser.Next.Holds]
    split
    · exact numbered
    · exact numbered.append (.single intact.line .nil)
  · exact counts_round numbered (counts_atStatement inner blocks)
  · exact counts_round numbered (counts_assignment inner _)
  · refine (Counts.peek 1).andThen fun next => (Counts.peek 2).andThen fun second => ?_
    split
    · refine (Counts.advance 2).andThen fun _ => ?_
      exact counts_round numbered (counts_assignment inner _)
    · exact counts_round numbered (counts_ruleOrDeclaration inner blocks)
  · exact counts_round numbered (counts_ruleOrDeclaration inner blocks)

omit own in
theorem counts_braced : Counts torn Numbered b.braced := by
  refine Counts.skipTrivia.andThen fun _ => Counts.pass _ fun _ => ?_
  refine (counts_statements inner blocks true).bind fun body inside => ?_
  exact Counts.pass _ fun _ => .pure inside

end Statements

end Blocks

theorem counts_bodyParser {self : Self} (inner : ∀ form, Clear torn (self form)) (depth : Nat) :
    Counts torn Numbered (bodyParser self depth) := by
  induction depth with
  | zero => exact .throw trivial
  | succ depth ih => exact Blocks.counts_braced inner ih

/-- The statements of a text have lines that count from one; and a text that cannot be read is a fault
that names no statement. -/
theorem sound_stylesheet (source : String) : Sound (Tears source.toList) Numbered (stylesheet source) := by
  refine (sound_cursorOf source).bind fun cursor intact => ?_
  have inner : ∀ form, Clear (Tears source.toList) (expressions source form) := clear_expressions _
  exact (Blocks.counts_statements inner (counts_bodyParser inner _) false).run intact

end Grammar

end Scss
