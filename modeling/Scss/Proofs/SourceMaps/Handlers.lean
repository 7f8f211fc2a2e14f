import Scss.Proofs.SourceMaps.Runs

/-! Handlers of at-rules beside their twins. What they borrow comes to the same in both runs, but for
bodies, whose blocks have tags in one of them. So have the blocks that a handler makes of them. -/
namespace Scss

variable {tag : PendingMapping → String}

/-- Two bodies with the same lines, and blocks with tags in the second. -/
structure Body.Laid (tag : PendingMapping → String) (body twin : Body)
    (heads : Multiset PendingMapping) : Prop where
  declarations : twin.declarations = body.declarations
  blocks : Text.AllLaid tag body.blocks twin.blocks heads

namespace Body.Laid

variable {body twin other also : Body} {heads more : Multiset PendingMapping}

/-- A body without blocks. -/
theorem ofDeclarations (lines : List String) :
    Laid tag (.ofDeclarations lines) (.ofDeclarations lines) 0 :=
  ⟨rfl, .nil⟩

theorem empty : Laid tag .empty .empty 0 := ofDeclarations []

theorem append (first : Laid tag body twin heads) (second : Laid tag other also more) :
    Laid tag (body.append other) (twin.append also) (heads + more) := by
  refine ⟨?_, first.blocks.append second.blocks⟩
  rw [Body.append, Body.append, first.declarations, second.declarations]

theorem ofText {css twinCss : String} (laid : Text.Laid tag css twinCss heads) :
    Laid tag (.ofText css) (.ofText twinCss) heads := by
  unfold Body.ofText
  rw [laid.isEmpty]
  split
  · rename_i empty
    rw [laid.eq_zero_of_isEmpty empty]
    exact Laid.empty
  · exact ⟨rfl, .singleton laid⟩

end Body.Laid

namespace Run

/-- Outside of style blocks a run and its twin come to the same. -/
def Level (tag : PendingMapping → String) : Run.Relation :=
  fun realm _ twin action => realm ≠ .style → TaggedSame tag action twin

variable {α : Type} {action twin : Run α}

theorem Level.same (level : Level tag .value twin action) : TaggedSame tag action twin :=
  level nofun

end Run

open Run (Tagged TaggedSame Level)

/-- Runs that come to the same outside of style blocks go along with the evaluator's ways there. -/
theorem Eval.logic_level {setup : Setup} {self twin : Perform}
    (inner : ∀ {α : Type} (job : Job α), Level tag job.realm (twin job) (self job)) :
    Logic setup .free twin self (Level tag) where
  pure _ _ := .pure .same
  throw _ _ := .throw _
  bind first second plain := .andThen (first plain) fun value => second value plain
  tryCatch first second plain := .tryCatch (first plain) fun fault => second fault trivial plain
  located _ _ _ _ inside plain := .located _ (inside plain)
  raise _ _ _ _ _ _ := .look (fun _ _ => rfl) fun _ => .throw _
  value inside _ := inside.same
  look blind second plain :=
    .look (fun machine texts => by rw [Machine.withHoisted, blind]) fun machine => second machine plain
  change := by
    intro realm f change blind _ _ plain
    refine .change (fun machine texts => ?_) fun machine => ((change machine).steady plain).pending
    have kept : (f machine).contents = machine.contents := ((change machine).steady plain).contents
    rw [Machine.withHoisted, Machine.withHoisted, blind, kept]
  assignQualified _ _ _ _ _ := .assignQualified _ _ _
  withFrame _ _ _ _ _ inside plain := .withFrame _ (inside plain)
  hoist _ style := absurd rfl style
  withoutSelector _ style := absurd rfl style
  job job _ := inner job
  unhandled _ := trivial

/-- Services and their twins. What they compile has tags in the twin, and so may have what they put to
the end. -/
structure Services.Tagged (tag : PendingMapping → String) (services twin : Services Run) : Prop where
  level : twin.Related (Level tag) (fun _ _ => True) (fun _ => True) services
  contents : ∀ nodes selector level,
    Run.Tagged tag 0 (Text.Laid tag) (services.contents nodes selector level)
      (twin.contents nodes selector level)
  hoist : ∀ {css twinCss heads}, Text.Laid tag css twinCss heads →
    Run.Tagged tag heads Headless (services.hoist css) (twin.hoist twinCss)
  registerMixin : ∀ name params body,
    TaggedSame tag (services.registerMixin name params body) (twin.registerMixin name params body)

/-- Contexts of one handler over services and their twins, which allow what it requires. -/
structure Context.Tagged (tag : PendingMapping → String) (required : List Capability)
    (context twin : Context Run) : Prop where
  level : twin.Related (Level tag) (fun _ _ => True) (fun _ => True) required context
  services : context.services.Tagged tag twin.services

section Handlers

variable {setup : Setup} {self twinSelf : Perform} {context twin : Context Run}
  (logic : Eval.Logic setup .free twinSelf self (Level tag))

include logic

namespace Context

variable {required : List Capability} (lent : context.Tagged tag required twin)

include lent

theorem check_tagged {capability : Capability} (granted : required.contains capability = true) :
    TaggedSame tag (context.check capability) (twin.check capability) :=
  Level.same (check_related logic lent.level granted)

theorem interpolate_tagged (granted : required.contains .interpolation = true) (template : Template) :
    TaggedSame tag (context.interpolate template) (twin.interpolate template) :=
  Level.same (interpolate_related logic lent.level granted template)

theorem registerMixin_tagged (granted : required.contains .mixins = true) (name : String)
    (params : Parameters) (body : List Statement) :
    TaggedSame tag (context.registerMixin name params body) (twin.registerMixin name params body) :=
  .andThen (check_tagged logic lent granted) fun _ => lent.services.registerMixin name params body

theorem hoist_tagged (granted : required.contains .blocks = true) {css twinCss : String}
    {heads : Multiset PendingMapping} (laid : Text.Laid tag css twinCss heads) :
    Run.Tagged tag heads Headless (context.hoist css) (twin.hoist twinCss) :=
  .andThen (check_tagged logic lent granted) fun _ => lent.services.hoist laid

theorem contents_tagged {β : Type} {agree : β → β → Multiset PendingMapping → Prop}
    (declares : required.contains .declarations = true) (granted : required.contains .blocks = true)
    (nodes : List Statement) {selector shown : Option String}
    (same : shown.getD "" = selector.getD "") (level : Nat) {next nextTwin : String → Run β}
    (rest : ∀ {css twinCss heads}, Text.Laid tag css twinCss heads →
      Run.Tagged tag heads agree (next css) (nextTwin twinCss)) :
    Run.Tagged tag 0 agree
      (context.compileBody nodes selector level >>= fun body =>
        context.renderBody body shown level >>= next)
      (twin.compileBody nodes selector level >>= fun body =>
        twin.renderBody body shown level >>= nextTwin) := by
  rw [contents_bind (lent.level.allowed_other ▸ declares) nodes same,
    contents_bind (lent.level.allowed ▸ declares) nodes same]
  exact .andThen (check_tagged logic lent granted) fun _ =>
    .bind (lent.services.contents nodes selector level) rest

end Context

section Conditional

variable (lent : context.Tagged tag Conditional.required twin)

include lent

theorem Conditional.finish_tagged (keyword condition : String) (body : List Statement)
    (parent : Option String) (level : Nat) {change : String → String}
    (laid : ∀ {css twinCss heads}, Text.Laid tag css twinCss heads →
      Text.Laid tag (change css) (change twinCss) heads) :
    Run.Tagged tag 0 (Text.Laid tag)
      (Conditional.finish context keyword condition body parent level change)
      (Conditional.finish twin keyword condition body parent level change) := by
  apply Context.contents_tagged logic lent rfl rfl body rfl
  intro css twinCss heads shown
  dsimp only
  rw [(laid shown).isBlank]
  split
  · exact .weaken (.pure Text.Laid.empty) (Multiset.zero_le _)
  · exact .pure ((laid shown).wrapBlock _ _)

theorem Conditional.compile_tagged (plain : ∀ note, Text.Free isSyntax (tag note)) (node : Statement)
    (parent : Option String) (level : Nat) :
    Run.Tagged tag 0 (Text.Laid tag) (Conditional.compile context node parent level)
      (Conditional.compile twin node parent level) := by
  unfold Conditional.compile
  split
  · exact .pure Text.Laid.empty
  · refine .andThen (Context.interpolate_tagged logic lent rfl _) fun written => ?_
    split
    · exact .andThen (Level.same (evaluateTests_related logic lent.level written)) fun condition =>
        finish_tagged logic lent _ condition _ parent level fun laid => laid
    · exact finish_tagged logic lent _ written _ parent level fun laid => laid.split plain

end Conditional

section Keyframes

variable (lent : context.Tagged tag Keyframes.required twin)

include lent

theorem Keyframes.compile_tagged (node : Statement) (level : Nat) :
    Run.Tagged tag 0 (Text.Laid tag) (Keyframes.compile context node level)
      (Keyframes.compile twin node level) := by
  have frames (level : Nat) (blocks : List (KeyframeBlock Statement)) :
      Level tag .value (blocks.mapM (Keyframes.keyframe twin level))
        (blocks.mapM (Keyframes.keyframe context level)) :=
    logic.mapM blocks (keyframe_related logic lent.level level)
  unfold Keyframes.compile
  split
  · refine .andThen (Context.interpolate_tagged logic lent rfl _) fun name => ?_
    exact .andThen (frames _ _).same fun rows => .pure (Text.whole_block _ _ _).laid
  · exact .pure Text.Laid.empty

end Keyframes

section AtRoot

variable (lent : context.Tagged tag AtRoot.required twin)

include lent

theorem AtRoot.finish_tagged (around : Option String) (query : Option AtRootQuery)
    (body : List Statement) (level : Nat) (own : Option String) :
    Run.Tagged tag 0 (Text.Laid tag) (AtRoot.finish context around query body level own)
      (AtRoot.finish twin around query body level own) := by
  apply Context.contents_tagged logic lent rfl rfl body (AtRoot.getD_selector _)
  intro css twinCss heads laid
  split
  · exact .bind (Context.hoist_tagged logic lent rfl laid) fun | .same => .pure Text.Laid.empty
  · exact .pure laid

theorem AtRoot.compile_tagged (node : Statement) (around : Option String) (level : Nat) :
    Run.Tagged tag 0 (Text.Laid tag) (AtRoot.compile context node around level)
      (AtRoot.compile twin node around level) := by
  unfold AtRoot.compile
  split
  · dsimp only
    split
    · rw [map_eq_pure_bind, map_eq_pure_bind, bind_assoc, bind_assoc]
      refine .andThen (Context.interpolate_tagged logic lent rfl _) fun text => ?_
      rw [pure_bind, pure_bind]
      exact finish_tagged logic lent around _ _ level (some text)
    · exact finish_tagged logic lent around _ _ level none
  · exact .pure Text.Laid.empty

end AtRoot

section Generic

variable (lent : context.Tagged tag Generic.required twin)

include lent

theorem Generic.compile_tagged (node : Statement) (parent : Option String) (level : Nat) :
    Run.Tagged tag 0 (Text.Laid tag) (Generic.compile context node parent level)
      (Generic.compile twin node parent level) := by
  unfold Generic.compile
  split
  · exact .andThen (Context.registerMixin_tagged logic lent rfl _ _ _) fun _ => .pure Text.Laid.empty
  · rename_i body _
    refine .andThen (Context.interpolate_tagged logic lent rfl _) fun written => ?_
    split
    · refine .andThen (.ofExcept _) fun signature => ?_
      exact .andThen (Context.registerMixin_tagged logic lent rfl _ _ _) fun _ => .pure Text.Laid.empty
    · refine .andThen (Level.same (evaluateValue_related logic lent.level written)) fun value => ?_
      cases body with
      | none => exact .pure (Text.whole_ended _ (by decide)).laid
      | some nodes =>
        apply Context.contents_tagged logic lent rfl rfl nodes rfl
        intro css twinCss heads laid
        exact .pure (laid.wrapBlock _ _)
  · exact .pure Text.Laid.empty

/-- An at-rule without a block has no heads. -/
theorem Generic.compile_blockless (name : String) (value : Template) (line : Nat)
    (parent : Option String) (level : Nat) :
    TaggedSame tag (Generic.compile context (.atRule name value none line) parent level)
      (Generic.compile twin (.atRule name value none line) parent level) := by
  refine .andThen (Context.interpolate_tagged logic lent rfl value) fun written => ?_
  split
  · refine .andThen (.ofExcept _) fun signature => ?_
    exact .andThen (Context.registerMixin_tagged logic lent rfl _ _ _) fun _ => .pure .same
  · exact .andThen (Level.same (evaluateValue_related logic lent.level written)) fun value => .pure .same

end Generic

end Handlers

namespace Strategy

variable {setup : Setup} {self twinSelf : Perform} {services twin : Services Run}
  (lent : services.Tagged tag twin) (strategies : List Strategy)

include lent

/-- Both runs ask the same handler. -/
theorem dispatch_each {agree : String → String → Multiset PendingMapping → Prop} {node : Statement}
    {parent : Option String} {level : Nat}
    (each : ∀ strategy : Strategy, Run.Tagged tag 0 agree
      (strategy.compile ⟨strategy.name, strategy.required, services⟩ node parent level)
      (strategy.compile ⟨strategy.name, strategy.required, twin⟩ node parent level)) :
    Run.Tagged tag 0 agree (dispatch strategies services node parent level)
      (dispatch strategies twin node parent level) := by
  unfold dispatch
  split
  · exact .throw _
  · split
    · exact .throw _
    · rename_i strategy _
      unfold run Context.create
      rw [lent.level.capabilities]
      cases Capability.missing? strategy.required services.capabilities with
      | some capability => exact .throw _
      | none => exact each strategy

variable (logic : Eval.Logic setup .free twinSelf self (Level tag))

include logic

theorem dispatch_tagged (plain : ∀ note, Text.Free isSyntax (tag note)) (node : Statement)
    (parent : Option String) (level : Nat) :
    Run.Tagged tag 0 (Text.Laid tag) (dispatch strategies services node parent level)
      (dispatch strategies twin node parent level) := by
  refine dispatch_each lent strategies fun strategy => ?_
  have both : Context.Tagged tag strategy.required ⟨strategy.name, strategy.required, services⟩
      ⟨strategy.name, strategy.required, twin⟩ := ⟨⟨rfl, rfl, lent.level⟩, lent⟩
  cases strategy with
  | conditional => exact Conditional.compile_tagged logic both plain node parent level
  | keyframes => exact Keyframes.compile_tagged logic both node level
  | atRoot => exact AtRoot.compile_tagged logic both node parent level
  | generic => exact Generic.compile_tagged logic both node parent level

theorem dispatch_blockless (name : String) (value : Template) (line : Nat) (parent : Option String)
    (level : Nat) :
    TaggedSame tag (dispatch strategies services (.atRule name value none line) parent level)
      (dispatch strategies twin (.atRule name value none line) parent level) := by
  refine dispatch_each lent strategies fun strategy => ?_
  have both : Context.Tagged tag strategy.required ⟨strategy.name, strategy.required, services⟩
      ⟨strategy.name, strategy.required, twin⟩ := ⟨⟨rfl, rfl, lent.level⟩, lent⟩
  cases strategy with
  | conditional | keyframes | atRoot => exact .pure .same
  | generic => exact Generic.compile_blockless logic both name value line parent level

end Strategy

end Scss
