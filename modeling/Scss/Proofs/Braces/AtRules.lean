import Scss.AtRule.Strategy
import Scss.Proofs.Braces.Reading
import Scss.Proofs.Braces.Twins
import Scss.Proofs.Pieces

/-! Handlers of at-rules write flat text, and leave marks where they are. Only they put blocks into a
block, and the head of every such block starts with an at-sign. -/
namespace Scss

open Run (Cleanly Together)
open Text (Braceless Flat)

/-- Lines without braces, the same in both bodies, and flat blocks that differ in marks alone. -/
structure Body.Alike (body twin : Body) : Prop where
  clean : ∀ line ∈ body.declarations, Braceless line
  declarations : twin.declarations = body.declarations
  blocks : List.Forall₂ Text.Alike body.blocks twin.blocks

/-- Services for two runs side by side, which make no braces but those of flat text. -/
structure Services.Alike (services twin : Services Run) : Prop where
  capabilities : twin.capabilities = services.capabilities
  evaluate : ∀ expr, expr.Braceless →
    Cleanly Value.Braceless (services.evaluate expr) (twin.evaluate expr)
  formatDeclarations : ∀ lines level, (∀ line ∈ lines, Braceless line) →
    twin.formatDeclarations lines level = services.formatDeclarations lines level ∧
      Braceless (services.formatDeclarations lines level)
  compileBody : ∀ nodes selector level, (∀ node ∈ nodes, Statement.SelfContained node) →
    (∀ text ∈ selector, Braceless text) →
    Together Body.Alike (services.compileBody nodes selector level)
      (twin.compileBody nodes selector level)
  hoist : ∀ css marked, Text.Alike css marked →
    Cleanly (fun _ => True) (services.hoist css) (twin.hoist marked)
  interpolate : ∀ template, Template.Braceless template →
    Cleanly Braceless (services.interpolate template) (twin.interpolate template)
  format : ∀ value, value.Braceless →
    twin.format value = services.format value ∧ Braceless (services.format value)
  registerMixin : ∀ name params body, Parameters.Braceless params →
    (∀ node ∈ body, Statement.SelfContained node) →
    Cleanly (fun _ => True) (services.registerMixin name params body)
      (twin.registerMixin name params body)

structure Context.Alike (context twin : Context Run) : Prop where
  strategy : twin.strategy = context.strategy
  allowed : twin.allowed = context.allowed
  services : context.services.Alike twin.services

variable {context twin : Context Run}

namespace Context

theorem check_cleanly (lent : context.Alike twin) (capability : Capability) :
    Cleanly (fun _ => True) (context.check capability) (twin.check capability) := by
  unfold Context.check
  rw [lent.allowed, lent.strategy]
  split
  · exact Cleanly.pure trivial
  · exact Together.throw _

theorem evaluate_cleanly (lent : context.Alike twin) {expr : Expr} (clean : expr.Braceless) :
    Cleanly Value.Braceless (context.evaluate expr) (twin.evaluate expr) :=
  (check_cleanly lent _).bind fun _ _ => lent.services.evaluate expr clean

theorem compileBody_alike (lent : context.Alike twin) {nodes : List Statement}
    {selector : Option String} (level : Nat) (clean : ∀ node ∈ nodes, node.SelfContained)
    (around : ∀ text ∈ selector, Braceless text) :
    Together Body.Alike (context.compileBody nodes selector level)
      (twin.compileBody nodes selector level) :=
  (check_cleanly lent _).andThen fun _ _ => lent.services.compileBody nodes selector level clean around

theorem hoist_cleanly (lent : context.Alike twin) {css marked : String}
    (alike : Text.Alike css marked) :
    Cleanly (fun _ => True) (context.hoist css) (twin.hoist marked) :=
  (check_cleanly lent _).bind fun _ _ => lent.services.hoist css marked alike

theorem interpolate_cleanly (lent : context.Alike twin) {template : Template}
    (clean : template.Braceless) :
    Cleanly Braceless (context.interpolate template) (twin.interpolate template) :=
  (check_cleanly lent _).bind fun _ _ => lent.services.interpolate template clean

theorem format_cleanly (lent : context.Alike twin) {value : Value} (clean : value.Braceless) :
    Cleanly Braceless (context.format value) (twin.format value) :=
  (check_cleanly lent _).bind fun _ _ => Together.pure (lent.services.format value clean)

theorem registerMixin_cleanly (lent : context.Alike twin) (name : String) {params : Parameters}
    {body : List Statement} (defaults : params.Braceless)
    (clean : ∀ node ∈ body, node.SelfContained) :
    Cleanly (fun _ => True) (context.registerMixin name params body)
      (twin.registerMixin name params body) :=
  (check_cleanly lent _).bind fun _ _ => lent.services.registerMixin name params body defaults clean

theorem formatDeclarations_cleanly (lent : context.Alike twin) {lines : List String} (level : Nat)
    (clean : ∀ line ∈ lines, Braceless line) :
    Cleanly Braceless (context.formatDeclarations lines level)
      (twin.formatDeclarations lines level) :=
  (check_cleanly lent _).bind fun _ _ =>
    Together.pure (lent.services.formatDeclarations lines level clean)

theorem renderBody_alike (lent : context.Alike twin) {body other : Body} {selector : Option String}
    (level : Nat) (alike : body.Alike other) (around : ∀ text ∈ selector, Braceless text) :
    Together Text.Alike (context.renderBody body selector level)
      (twin.renderBody other selector level) := by
  have head : Braceless (selector.getD "") := by
    cases selector with
    | none => decide
    | some text => exact around text rfl
  have lines : Cleanly Flat
      (context.renderDeclarations body.declarations (selector.getD "") level)
      (twin.renderDeclarations other.declarations (selector.getD "") level) := by
    unfold Context.renderDeclarations
    rw [alike.declarations]
    split
    · exact Cleanly.pure (Text.flat_of_braceless (by decide))
    · split
      · exact (formatDeclarations_cleanly lent level alike.clean).weaken fun _ clean =>
          Text.flat_of_braceless clean
      · exact (formatDeclarations_cleanly lent _ alike.clean).bind fun _ clean =>
          Cleanly.pure (Text.flat_rule head clean level)
  exact lines.andThen fun text own => .pure (own.alike.append (Text.alike_join alike.blocks))

end Context

namespace Conditional

def Piece.Braceless : Piece → Prop
  | .text c => isBrace c = false
  | .test property value => Chars.Braceless property ∧ Chars.Braceless value

theorem Piece.Braceless.written {piece : Piece} (clean : piece.Braceless) :
    Chars.Braceless piece.written := by
  cases piece with
  | text c => exact (Chars.braceless_cons _ _).mpr ⟨clean, Chars.braceless_nil⟩
  | test property value =>
    obtain ⟨first, second⟩ := clean
    simpa +decide [Piece.written] using ⟨first, second⟩

theorem braceless_test {text property value : List Char} {length : Nat}
    (clean : Chars.Braceless text) (found : test? text = some (property, value, length)) :
    (Piece.test property value).Braceless := by
  unfold test? at found
  dsimp only at found
  split at found
  · rename_i more rest named behind
    split at found
    · have tail : Chars.Braceless (':' :: rest) := behind ▸ clean.drop _
      cases found
      refine ⟨clean.takeWhile _, Chars.Braceless.takeWhile ?_ _⟩
      exact ((Chars.braceless_cons _ _).mp tail).2
    · cases found
  · cases found

theorem braceless_piecesFrom (skip : Nat) {text : List Char} (clean : Chars.Braceless text) :
    ∀ piece ∈ piecesFrom skip text, piece.Braceless := by
  induction text generalizing skip with
  | nil => simp [piecesFrom]
  | cons c rest ih =>
    obtain ⟨first, others⟩ := (Chars.braceless_cons _ _).mp clean
    cases skip with
    | succ skip => exact ih skip others
    | zero =>
      rw [piecesFrom]
      split
      · rename_i property value length found
        refine List.forall_mem_cons.mpr ⟨?_, ih _ others⟩
        split at found
        · exact braceless_test others found
        · cases found
      · exact List.forall_mem_cons.mpr ⟨first, ih 0 others⟩

theorem evaluatePiece_cleanly (lent : context.Alike twin) {progress : Progress} {piece : Piece}
    (before : Chars.Braceless progress.text) (clean : piece.Braceless) :
    Cleanly (fun after => Chars.Braceless after.text) (evaluatePiece context progress piece)
      (evaluatePiece twin progress piece) := by
  have kept : Chars.Braceless (progress.text ++ piece.written) :=
    (Chars.braceless_append _ _).mpr ⟨before, clean.written⟩
  cases piece with
  | text c => exact .pure kept
  | test property value =>
    refine .tryCatch ?_ fun fault => ?_
    · have written := (Text.braceless_ofList _).mpr clean.2.trim
      refine .bind (Cleanly.ofExcept (Grammar.yields_expression written)) fun expr own => ?_
      refine .bind (Context.evaluate_cleanly lent own) fun value result => ?_
      refine .bind (Context.format_cleanly lent result) fun text formatted => Cleanly.pure ?_
      refine (Chars.braceless_append _ _).mpr ⟨before, ?_⟩
      split
      · exact clean.written
      · have inside : Chars.Braceless text.toList := formatted
        simpa +decide using ⟨clean.1, inside⟩
    · unfold Progress.leave
      split
      · exact .throw _
      · exact .pure kept

theorem evaluateTests_cleanly (lent : context.Alike twin) {condition : String}
    (clean : Braceless condition) :
    Cleanly Braceless (evaluateTests context condition) (evaluateTests twin condition) := by
  refine .bind (Cleanly.foldlM Chars.braceless_nil fun progress before piece member =>
    evaluatePiece_cleanly lent before (braceless_piecesFrom 0 clean piece member)) ?_
  intro progress result
  split
  · exact .throw _
  · exact .throw _
  · exact .pure ((Text.braceless_ofList _).mpr result)

theorem parts_cases {node : Statement} (clean : node.SelfContained) {keyword : String}
    {query : Template} {body : List Statement} (parts : parts? node = some (keyword, query, body)) :
    Braceless keyword ∧ query.Braceless ∧ ∀ inner ∈ body, inner.SelfContained := by
  cases clean with
  | media line head inner | supports line head inner | container line head inner =>
    obtain ⟨rfl, rfl, rfl⟩ := by simpa [parts?] using parts
    exact ⟨by decide, head, inner⟩
  | _ => cases parts

theorem finish_alike (lent : context.Alike twin) {keyword condition : String}
    {body : List Statement} {parent : Option String} (level : Nat) {change : String → String}
    (label : Braceless keyword) (tested : Braceless condition)
    (inner : ∀ node ∈ body, node.SelfContained) (around : ∀ text ∈ parent, Braceless text)
    (harmless : ∀ css marked, Text.Alike css marked → Text.Alike (change css) (change marked)) :
    Together Text.Alike (finish context keyword condition body parent level change)
      (finish twin keyword condition body parent level change) := by
  refine .bind (Context.compileBody_alike lent _ inner around) fun compiled other alike => ?_
  refine .bind (Context.renderBody_alike lent _ alike around) fun rendered marked css => ?_
  have contents := harmless _ _ css
  dsimp only
  rw [contents.marks.isBlank]
  split
  · exact .pure Text.alike_empty
  · refine .pure (contents.wrapBlock ?_ (by simp) level)
    simpa +decide using ⟨label, tested⟩

theorem compile_alike (lent : context.Alike twin) {node : Statement} (clean : node.SelfContained)
    {parent : Option String} (around : ∀ text ∈ parent, Braceless text) (level : Nat) :
    Together Text.Alike (compile context node parent level) (compile twin node parent level) := by
  unfold compile
  split
  · exact .pure Text.alike_empty
  · rename_i keyword query body parts
    obtain ⟨label, head, inner⟩ := parts_cases clean parts
    refine Cleanly.andThen (Context.interpolate_cleanly lent head) fun written text => ?_
    split
    · refine Cleanly.andThen (evaluateTests_cleanly lent text) fun condition tested => ?_
      exact finish_alike lent level label tested inner around fun _ _ css => css
    · exact finish_alike lent level label text inner around fun _ _ css => css.split

end Conditional

namespace Keyframes

theorem declaration_cleanly (lent : context.Alike twin) (level : Nat) {d : Declaration Statement}
    (clean : (Statement.property d).SelfContained) :
    Cleanly Braceless (declaration context level d) (declaration twin level d) := by
  cases clean with
  | property name value inner =>
    unfold declaration
    split
    · exact .pure (by decide)
    · rename_i expr found
      refine .bind (Context.interpolate_cleanly lent name) fun property label => ?_
      refine .bind (Context.evaluate_cleanly lent (value expr found)) fun result own => ?_
      refine .bind (Context.format_cleanly lent own) fun text formatted => ?_
      split
      · exact .pure (by decide)
      · have ending : Braceless (if d.important then " !important" else "") := by
          split <;> decide
        exact .pure (by simpa +decide using ⟨⟨⟨Text.braceless_indent _, label⟩, formatted⟩, ending⟩)

theorem keyframe_cleanly (lent : context.Alike twin) (level : Nat) {frame : KeyframeBlock Statement}
    (selectors : ∀ text ∈ frame.selectors, Braceless text)
    (inner : ∀ d ∈ frame.declarations, (Statement.property d).SelfContained) :
    Cleanly Flat (keyframe context level frame) (keyframe twin level frame) := by
  have head : Braceless (Text.join ", " frame.selectors) :=
    Text.braceless_intercalate (by decide) selectors
  refine .bind (Cleanly.mapM fun d member => declaration_cleanly lent _ (inner d member)) ?_
  exact fun lines clean => Cleanly.pure (Text.flat_rule head (Text.braceless_join clean) level)

theorem compile_cleanly (lent : context.Alike twin) {node : Statement} (clean : node.SelfContained)
    (level : Nat) : Cleanly Flat (compile context node level) (compile twin node level) := by
  unfold compile
  split
  · cases clean with
    | keyframes line label head selectors inner =>
      refine .bind (Context.interpolate_cleanly lent head) fun name text => ?_
      refine .bind (Cleanly.mapM fun frame member =>
        keyframe_cleanly lent _ (selectors frame member) (inner frame member)) fun frames each => ?_
      refine Cleanly.pure (Text.flat_group ?_ (by simp) (Text.flat_join each) level)
      simpa +decide using ⟨label, text⟩
  · exact .pure (Text.flat_of_braceless (by decide))

end Keyframes

namespace AtRoot

theorem braceless_cutAtMark {text before after : List Char} (clean : Chars.Braceless text)
    (cut : cutAtMark text = some (before, after)) :
    Chars.Braceless before ∧ Chars.Braceless after := by
  induction text generalizing before with
  | nil => cases cut
  | cons c rest ih =>
    obtain ⟨first, others⟩ := (Chars.braceless_cons _ _).mp clean
    rw [cutAtMark] at cut
    split at cut
    · obtain ⟨rfl, rfl⟩ := Prod.mk.inj (Option.some.inj cut)
      exact ⟨Chars.braceless_nil, clean⟩
    · obtain ⟨⟨inner, behind⟩, found, same⟩ := Option.map_eq_some_iff.mp cut
      obtain ⟨rfl, rfl⟩ := Prod.mk.inj same
      obtain ⟨left, right⟩ := ih others found
      exact ⟨(Chars.braceless_cons _ _).mpr ⟨first, left⟩, right⟩

theorem braceless_rule {group : String} (clean : Braceless group) :
    Braceless (Group.ofText group).rule := by
  unfold Group.ofText
  split
  · rename_i rule media cut
    exact Text.Braceless.trim ((Text.braceless_ofList _).mpr (braceless_cutAtMark clean cut).1)
  · exact clean

theorem braceless_filter {around : Option String} (clean : ∀ text ∈ around, Braceless text)
    (query : Option AtRootQuery) : Braceless (filter around query).1 := by
  unfold filter
  dsimp only
  split
  · decide
  · refine Text.braceless_intercalate (by decide) fun rule member => ?_
    obtain ⟨group, found, rfl⟩ := List.mem_map.mp (List.mem_of_mem_filter member)
    cases around with
    | none => cases found
    | some text =>
      obtain ⟨piece, inside, rfl⟩ := List.mem_map.mp found
      exact braceless_rule ((clean text rfl).splitTopLevel ',' piece (List.mem_of_mem_filter inside))

theorem braceless_effective {kept : String} {own : Option String} (outer : Braceless kept)
    (clean : ∀ text ∈ own, Braceless text) : Braceless (effective kept own) := by
  cases own with
  | none => exact outer
  | some own =>
    rw [effective]
    split
    · exact clean own rfl
    · exact Selector.braceless_nest outer (clean own rfl)

theorem finish_alike (lent : context.Alike twin) {around : Option String}
    (query : Option AtRootQuery) {body : List Statement} (level : Nat) {own : Option String}
    (outside : ∀ text ∈ around, Braceless text) (inner : ∀ node ∈ body, node.SelfContained)
    (label : ∀ text ∈ own, Braceless text) :
    Together Text.Alike (finish context around query body level own)
      (finish twin around query body level own) := by
  have whole := braceless_effective (braceless_filter outside query) label
  unfold finish
  dsimp only
  refine .bind (Context.compileBody_alike lent _ inner ?_) fun compiled other alike => ?_
  · split
    · simp
    · simpa using whole
  · refine .bind (Context.renderBody_alike lent _ alike (by simpa using whole)) ?_
    intro css marked own
    split
    · exact Cleanly.andThen (Context.hoist_cleanly lent own) fun _ _ => .pure Text.alike_empty
    · exact .pure own

theorem compile_alike (lent : context.Alike twin) {node : Statement} (clean : node.SelfContained)
    {around : Option String} (outside : ∀ text ∈ around, Braceless text) (level : Nat) :
    Together Text.Alike (compile context node around level) (compile twin node around level) := by
  cases clean with
  | @atRoot selector body query line head inner =>
    unfold compile
    dsimp only
    split
    · rename_i selector
      have own : Cleanly (fun own => ∀ text ∈ own, Braceless text)
          (some <$> context.interpolate selector.text) (some <$> twin.interpolate selector.text) := by
        refine Cleanly.map ((Context.interpolate_cleanly lent (head selector rfl)).weaken ?_)
        exact fun text label => by simpa using label
      exact Cleanly.andThen own fun text label => finish_alike lent query level outside inner label
    · exact finish_alike lent query level outside inner (by simp)
  | _ => exact .pure Text.alike_empty

end AtRoot

namespace Generic

theorem evaluateValue_cleanly (lent : context.Alike twin) {written : String}
    (clean : Braceless written) :
    Cleanly Braceless (evaluateValue context written) (evaluateValue twin written) := by
  unfold evaluateValue
  split
  · exact .pure (by decide)
  · refine .tryCatch ?_ fun fault => ?_
    · refine .bind (Cleanly.ofExcept (Grammar.yields_expression clean)) fun expr own => ?_
      exact .bind (Context.evaluate_cleanly lent own) fun value result =>
        Context.format_cleanly lent result
    · split
      · exact .throw _
      · exact .throw _
      · exact .throw _
      · exact .pure clean

theorem braceless_head {name value : String} (label : Braceless name) (clean : Braceless value) :
    Braceless (head name value) := by
  unfold head
  split
  · simpa +decide using label
  · simpa +decide using ⟨label, clean⟩

theorem sign_mem_head (name value : String) : '@' ∈ (head name value).toList := by
  unfold head
  split <;> simp

end Generic

/-- What an at-rule is written as: flat, and without braces if it has no body. -/
structure Statement.WrittenAs (node : Statement) (css twin : String) : Prop where
  alike : Text.Alike css twin
  braceless : ∀ name value line, node = .atRule name value none line → Text.Braceless css

theorem Statement.writtenAs_empty (node : Statement) : node.WrittenAs "" "" :=
  ⟨Text.alike_empty, fun _ _ _ _ => by decide⟩

theorem Generic.compile_alike (lent : context.Alike twin) {node : Statement}
    (clean : node.SelfContained) {parent : Option String} (around : ∀ text ∈ parent, Braceless text)
    (level : Nat) :
    Together node.WrittenAs (compile context node parent level) (compile twin node parent level) := by
  cases clean with
  | mixinDef name line defaults inner =>
    refine Cleanly.andThen (Context.registerMixin_cleanly lent name defaults inner) fun _ _ => ?_
    exact .pure (Statement.writtenAs_empty _)
  | @atRule name value body line label clean inner =>
    refine Cleanly.andThen (Context.interpolate_cleanly lent clean) fun written text => ?_
    split
    · refine Cleanly.andThen (Cleanly.ofExcept (Grammar.yields_signature text)) ?_
      rintro ⟨mixin, params⟩ defaults
      refine Cleanly.andThen (Context.registerMixin_cleanly lent mixin defaults ?_) fun _ _ =>
        .pure (Statement.writtenAs_empty _)
      cases body with
      | none => simp
      | some nodes => exact inner nodes rfl
    · refine Cleanly.andThen (evaluateValue_cleanly lent text) fun value result => ?_
      have head := braceless_head label result
      cases body with
      | none =>
        have css : Braceless (indent level ++ Generic.head name value ++ ";\n") := by
          simpa +decide using ⟨Text.braceless_indent level, head⟩
        exact .pure ⟨css.alike, fun _ _ _ _ => css⟩
      | some nodes =>
        refine .bind (Context.compileBody_alike lent _ (inner nodes rfl) around) ?_
        intro compiled other alike
        refine .bind (Context.renderBody_alike lent _ alike around) fun contents marked css => ?_
        refine .pure ⟨css.wrapBlock head (sign_mem_head name value) level, ?_⟩
        intro _ _ _ same
        cases same
  | _ => exact .pure (Statement.writtenAs_empty _)

theorem Strategy.dispatch_alike {services twin : Services Run} (lent : services.Alike twin)
    (strategies : List Strategy) {node : Statement} (clean : node.SelfContained)
    {parent : Option String} (around : ∀ text ∈ parent, Braceless text) (level : Nat) :
    Together node.WrittenAs (dispatch strategies services node parent level)
      (dispatch strategies twin node parent level) := by
  -- Only the last handler takes at-rules without a grammar of their own.
  have written {action other : Run String} (flat : Together Text.Alike action other)
      (apart : (∀ name value line, node ≠ .atRule name value none line) ∨
        action = pure "" ∧ other = pure "") :
      Together node.WrittenAs action other := by
    rcases apart with apart | ⟨rfl, rfl⟩
    · exact flat.weaken fun css marked own => ⟨own, fun _ _ _ same => absurd same (apart _ _ _)⟩
    · exact .pure (Statement.writtenAs_empty node)
  unfold dispatch
  split
  · exact .throw _
  · split
    · exact .throw _
    · rename_i strategy _
      unfold Strategy.run Context.create
      rw [lent.capabilities]
      cases Capability.missing? strategy.required services.capabilities with
      | some capability => exact .throw _
      | none =>
        have rights : Context.Alike ⟨strategy.name, strategy.required, services⟩
            ⟨strategy.name, strategy.required, twin⟩ := ⟨rfl, rfl, lent⟩
        cases strategy with
        | conditional =>
          refine written (Conditional.compile_alike rights clean around level) ?_
          cases node with
          | atRule => exact .inr ⟨rfl, rfl⟩
          | _ => exact .inl fun _ _ _ same => nomatch same
        | keyframes =>
          have frames := Keyframes.compile_cleanly rights clean level
          refine written (Together.weaken frames fun css _ own => own.1 ▸ own.2.alike) ?_
          cases node with
          | atRule => exact .inr ⟨rfl, rfl⟩
          | _ => exact .inl fun _ _ _ same => nomatch same
        | atRoot =>
          refine written (AtRoot.compile_alike rights clean around level) ?_
          cases node with
          | atRule => exact .inr ⟨rfl, rfl⟩
          | _ => exact .inl fun _ _ _ same => nomatch same
        | generic => exact Generic.compile_alike rights clean around level

end Scss
