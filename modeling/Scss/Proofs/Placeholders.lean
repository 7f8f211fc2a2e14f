import Scss.Compiler
import Scss.Proofs.Characters
import Scss.Proofs.Dressing
import Scss.Proofs.Modules.Stock

/-! Placeholders in the heads of blocks. A style rule writes only those groups of its selector that have
none, whatever the selector is. An at-rule writes the selector around it as it is, so its lines can end
up under a placeholder; they do not if the rules with placeholders have no at-rules inside, and nothing
that puts one there. -/
namespace Scss

open Machine (Change Moves Place Stocked)
open Text (Free)

namespace Chars

/-- The first piece of a text is its start, and the others are parts of it. -/
theorem topLevelPieces_infix (separator : Char) (text : List Char) (enclosure : Enclosure) :
    ∃ first others, topLevelPieces separator enclosure text = first :: others ∧ first <+: text ∧
      ∀ piece ∈ others, piece <:+: text := by
  induction text generalizing enclosure with
  | nil => exact ⟨[], [], rfl, List.prefix_refl _, nofun⟩
  | cons c rest ih =>
    rw [topLevelPieces]
    split
    · obtain ⟨first, others, cut, start, within⟩ := ih enclosure
      refine ⟨[], first :: others, by rw [cut], List.nil_prefix, ?_⟩
      intro piece member
      rcases List.mem_cons.mp member with rfl | later
      · exact start.isInfix.trans (List.suffix_cons c rest).isInfix
      · exact (within piece later).trans (List.suffix_cons c rest).isInfix
    · obtain ⟨first, others, cut, start, within⟩ := ih (enclosure.next c)
      refine ⟨c :: first, others, by rw [cut]; rfl, (List.prefix_cons_inj c).mpr start, ?_⟩
      intro piece member
      exact (within piece member).trans (List.suffix_cons c rest).isInfix

theorem splitTopLevel_infix {separator : Char} {text : List Char} :
    ∀ piece ∈ splitTopLevel separator text, piece <:+: text := by
  intro piece member
  obtain ⟨whole, found, rfl⟩ := List.mem_map.mp member
  obtain ⟨first, others, cut, start, within⟩ := topLevelPieces_infix separator text .outside
  have part : whole <:+: text := by
    rw [cut] at found
    rcases List.mem_cons.mp found with rfl | later
    · exact start.isInfix
    · exact within whole later
  have trimmed : trim whole <:+: whole := by
    have front : trimStart whole <:+ whole := List.dropWhile_suffix _
    have back : trimEnd (trimStart whole) <+: trimStart whole := by
      have kept : ((trimStart whole).reverse.dropWhile isBlank) <:+ (trimStart whole).reverse :=
        List.dropWhile_suffix _
      rw [← List.reverse_prefix, List.reverse_reverse] at kept
      exact kept
    exact back.isInfix.trans front.isInfix
  exact trimmed.trans part

end Chars

namespace Selector

/-- No group of the selector has a placeholder. -/
def Tidy (selector : String) : Prop := ∀ group ∈ groups selector, hasPlaceholder group.toList = false

instance (selector : String) : Decidable (Tidy selector) :=
  inferInstanceAs (Decidable (∀ group ∈ groups selector, hasPlaceholder group.toList = false))

def startsName : List Char → Bool
  | [] => false
  | d :: _ => Chars.isWord d || d = '-'

theorem hasPlaceholder_cons (c : Char) (rest : List Char) :
    hasPlaceholder (c :: rest) = ((c = '%' && startsName rest) || hasPlaceholder rest) := by
  cases rest <;> rfl

theorem hasPlaceholder_iff {text : List Char} :
    hasPlaceholder text = true ↔ ∃ before name, text = before ++ '%' :: name ∧ startsName name = true := by
  induction text with
  | nil => simp [hasPlaceholder]
  | cons c rest ih =>
    simp only [hasPlaceholder_cons, Bool.or_eq_true, Bool.and_eq_true, decide_eq_true_eq, ih]
    constructor
    · rintro (⟨rfl, named⟩ | ⟨before, name, rfl, named⟩)
      · exact ⟨[], rest, rfl, named⟩
      · exact ⟨c :: before, name, rfl, named⟩
    · rintro ⟨before, name, cut, named⟩
      cases before with
      | nil =>
        obtain ⟨rfl, rfl⟩ := List.cons.inj cut
        exact .inl ⟨rfl, named⟩
      | cons d before =>
        obtain ⟨rfl, rfl⟩ := List.cons.inj cut
        exact .inr ⟨before, name, rfl, named⟩

/-- A part of a text without placeholders has none. -/
theorem hasPlaceholder_of_infix {part text : List Char} (within : part <:+: text)
    (tidy : hasPlaceholder text = false) : hasPlaceholder part = false := by
  contrapose! tidy
  simp only [ne_eq, Bool.not_eq_false, hasPlaceholder_iff] at tidy ⊢
  obtain ⟨front, back, rfl⟩ := within
  obtain ⟨before, name, rfl, named⟩ := tidy
  refine ⟨front ++ before, name ++ back, by simp, ?_⟩
  cases name with
  | nil => cases named
  | cons d rest => exact named

theorem hasPlaceholder_of_free {text : List Char} (free : Chars.Free (· = '%') text) :
    hasPlaceholder text = false := by
  by_contra found
  obtain ⟨before, name, rfl, -⟩ := hasPlaceholder_iff.mp (by simpa using found)
  have sign := free '%' (by simp)
  simp at sign

/-- What stands before a comma is no part of a placeholder behind it. -/
theorem hasPlaceholder_append_comma {first second : List Char}
    (one : hasPlaceholder first = false) (two : hasPlaceholder second = false) :
    hasPlaceholder (first ++ ", ".toList ++ second) = false := by
  induction first with
  | nil =>
    change hasPlaceholder (',' :: ' ' :: second) = false
    simp [hasPlaceholder_cons, two]
  | cons c rest ih =>
    have front : startsName (rest ++ ", ".toList ++ second) = startsName rest := by
      cases rest with
      | nil => exact (by decide : (Chars.isWord ',' || decide (',' = '-')) = false)
      | cons d rest => rfl
    rw [hasPlaceholder_cons, Bool.or_eq_false_iff] at one
    rw [List.cons_append, List.cons_append, hasPlaceholder_cons, front, one.1, Bool.false_or]
    exact ih one.2

theorem tidy_of_hasPlaceholder {selector : String} (tidy : hasPlaceholder selector.toList = false) :
    Tidy selector := by
  intro group member
  obtain ⟨piece, found, rfl⟩ := List.mem_map.mp member
  rw [String.toList_ofList]
  exact hasPlaceholder_of_infix (Chars.splitTopLevel_infix piece found) tidy

theorem tidy_of_free {selector : String} (free : Free (· = '%') selector) : Tidy selector :=
  tidy_of_hasPlaceholder (hasPlaceholder_of_free free)

/-- What is visible of a selector has no placeholder. -/
theorem tidy_visible (selector : String) : Tidy (visible selector) := by
  have joined (texts : List String) (tidy : ∀ text ∈ texts, hasPlaceholder text.toList = false) :
      hasPlaceholder (Text.join ", " texts).toList = false := by
    rw [Text.join, String.toList_intercalate]
    induction texts with
    | nil => rfl
    | cons first rest ih =>
      obtain ⟨here, behind⟩ := List.forall_mem_cons.mp tidy
      cases rest with
      | nil => simpa using here
      | cons second rest =>
        rw [List.map_cons, List.map_cons, List.intercalate_cons_cons]
        exact hasPlaceholder_append_comma here (ih behind)
  apply tidy_of_hasPlaceholder
  apply joined
  intro group member
  simpa using List.of_mem_filter member

end Selector

/-- A template that comes to a text without a percent sign, whatever the state is. -/
def Interpolation.isPercentless (template : Template) : Bool :=
  template.plain?.any fun text => !text.toList.contains '%'

theorem Interpolation.Yields.free {template : Template} {text : String} (yields : template.Yields text)
    (percentless : template.isPercentless = true) : Free (· = '%') text := by
  obtain ⟨own, plain, unsigned⟩ := (Option.any_eq_true _ _).mp percentless
  obtain rfl : text = own := yields own plain
  intro c member
  by_contra sign
  obtain rfl : c = '%' := by simpa using sign
  simp [member] at unsigned

namespace Statement

/-- A statement that may write the selector around it: by itself, or by what it puts in its place. -/
def wraps : Statement → Bool
  | media _ _ _ | supports _ _ _ | container _ _ _ | atRoot _ _ _ _ | atRule _ _ (some _) _
  | includeMixin _ _ _ _ _ | contentSlot _ _ | importSheets _ _ => true
  | _ => false

theorem block_of_not_wraps {node : Statement} (bare : node.wraps = false) (handled : node.kind? ≠ none) :
    node.block? = none := by
  rcases node with _ | _ | _ | _ | ⟨_, _, _ | _, _⟩ <;> simp_all [wraps, kind?, block?]

end Statement

/-- Statements that, at any depth, do not write the selector around them. -/
def Bare : List Statement → Prop := Throughout fun node => node.wraps = false

/-- A rule has no placeholder, or nothing inside writes its selector. What `@at-root` puts in place of
the rules has no placeholder. -/
def Statement.IsSheltered : Statement → Prop
  | rule selector body _ => selector.text.isPercentless = true ∨ Bare body
  | atRoot own query _ _ =>
    (∀ selector ∈ own, selector.text.isPercentless = true) ∧ AtRoot.leaves query .rule = true
  | _ => True

/-- Statements that, at any depth, put no at-rule under a placeholder. -/
def Sheltered : List Statement → Prop := Throughout Statement.IsSheltered

def Statement.isSheltered (depth : Nat) : Statement → Bool
  | rule selector body _ =>
    selector.text.isPercentless || everywhere (fun inner => !inner.wraps) depth body
  | atRoot own query _ _ =>
    own.all (fun selector => selector.text.isPercentless) && AtRoot.leaves query .rule
  | _ => true

theorem Sheltered.of_everywhere (depth : Nat) {nodes : List Statement}
    (passed : everywhere (Statement.isSheltered depth) depth nodes = true) : Sheltered nodes := by
  intro node occurs
  have checked := occurs.check passed
  cases node with
  | rule selector body =>
    rcases (Bool.or_eq_true _ _).mp checked with percentless | bare
    · exact .inl percentless
    · refine .inr fun inner inside => ?_
      simpa using inside.check bare
  | atRoot own query =>
    obtain ⟨percentless, leaves⟩ := (Bool.and_eq_true _ _).mp checked
    refine ⟨fun selector listed => ?_, leaves⟩
    rw [Option.mem_def.mp listed] at percentless
    exact percentless
  | _ => trivial

namespace Placeholders

/-- A state in which everything that is kept for later is sheltered. Where an at-rule may stand, there
is no placeholder around. -/
structure Screened (dirty : Bool) (realm : Realm) (machine : Machine) : Prop where
  stocked : machine.Stocked Sheltered Sheltered
  waiting : ∀ block, some block ∈ machine.contents.map ContentFrame.block → Sheltered block.body
  clean : realm = .style → dirty = false → ∀ selector ∈ machine.selector, Free (· = '%') selector

/-- Statements are sheltered; where there may be a placeholder around, they are bare. -/
def conduct : Conduct Bool where
  admits dirty node := Sheltered [node] ∧ (dirty = true → Bare [node])
  good := Screened
  fine _ := True
  within := by
    rintro dirty node ⟨sheltered, bare⟩ inner member
    have child := Statement.within_subset_children member
    exact ⟨sheltered.inside child, fun under => (bare under).inside child⟩
  bare _ := trivial

variable {setup : Setup} {dirty inside : Bool} {realm inner : Realm}
  {machine start after next : Machine} {exit : Machine → Machine → Prop}

/-- Moves keep the blocks that wait, and the selector. -/
theorem Screened.keep (screened : Screened dirty realm machine) (moves : Moves setup realm machine next)
    (stocked : next.Stocked Sheltered Sheltered) : Screened dirty realm next := by
  refine ⟨stocked, ?_, ?_⟩
  · have blocks : next.contents.map ContentFrame.block = machine.contents.map ContentFrame.block := by
      simpa only [List.map_map, Function.comp_def] using congrArg (List.map Prod.fst) moves.blocks_eq
    rw [blocks]
    exact screened.waiting
  · rw [moves.selector_eq]
    exact screened.clean

/-- A change leaves the blocks that wait, and the selector. -/
theorem Screened.change (screened : Screened dirty realm machine) (change : Change realm machine next)
    (stocked : next.Stocked Sheltered Sheltered) : Screened dirty realm next := by
  refine ⟨stocked, ?_, ?_⟩
  · rw [change.contents_eq]
    exact screened.waiting
  · rw [change.rest]
    exact screened.clean

theorem Screened.passage (screened : Screened dirty realm machine)
    (place : Place setup realm machine inner start exit) (entered : Screened inside inner start) :
    conduct.Passage setup dirty realm inside inner start exit where
  enter := entered
  leave moves within left :=
    screened.keep (.place place moves left) (within.stocked.congr (place.definitions_eq left))

/-- A place with the same modules. -/
theorem Screened.enter (screened : Screened dirty realm machine)
    (place : Place setup realm machine inner start exit)
    (environments : start.environments = machine.environments)
    (waiting : ∀ block, some block ∈ start.contents.map ContentFrame.block → Sheltered block.body)
    (clean : inner = .style → inside = false → ∀ selector ∈ start.selector, Free (· = '%') selector) :
    conduct.Passage setup dirty realm inside inner start exit := by
  have same : start.definitions = machine.definitions := by
    rw [Machine.definitions, environments, Machine.definitions]
  exact screened.passage place ⟨screened.stocked.congr same, waiting, clean⟩

/-- A place for the same statements. -/
theorem Screened.stay (screened : Screened dirty realm machine)
    (place : Place setup realm machine realm start exit)
    (environments : start.environments = machine.environments)
    (contents : start.contents = machine.contents) (selector : start.selector = machine.selector) :
    conduct.Passage setup dirty realm dirty realm start exit :=
  screened.enter place environments (contents ▸ screened.waiting) (selector ▸ screened.clean)

theorem admits_of_sheltered {nodes : List Statement} (sheltered : Sheltered nodes) :
    ∀ node ∈ nodes, conduct.admits false node :=
  fun _ member => ⟨sheltered.alone member, nofun⟩

theorem kept (files : ∀ address sheet nodes, setup.loader.load address = .ok sheet →
      Eval.statementsOf sheet = .ok nodes → Sheltered nodes) (right : Perform) :
    conduct.Kept setup right where
  value screened := ⟨screened.stocked, screened.waiting, nofun⟩
  behind moves screened within := screened.keep (moves.ofValue _) within.stocked
  located _ _ _ _ _ := trivial
  raised _ _ _ _ := trivial
  unhandled _ := trivial
  change change same screened := screened.change change (screened.stocked.congr same)
  defineFunction := by
    rintro dirty name params body line machine ⟨sheltered, -⟩ screened
    apply screened.change (.defineFunction machine name params body)
    exact screened.stocked.defineFunction name params (sheltered.child (List.mem_singleton_self _))
  defineMixin := by
    rintro dirty node body machine ⟨sheltered, -⟩ defined screened name params
    apply screened.change (.defineMixin machine name params body)
    apply screened.stocked.defineMixin
    exact (sheltered.child (List.mem_singleton_self _)).of_subset
      (Statement.mixin_subset_children defined)
  use := by
    intro dirty machine module_ offered screened name
    exact screened.change (.use offered name) (screened.stocked.useAs name module_)
  forward := by
    intro dirty url affix filter line machine module_ _ offered screened
    have passed : Change .style machine (machine.passOn ⟨module_, affix, filter⟩) := .forward offered
    exact screened.change passed (screened.stocked.passOn _)
  frame mode semiGlobal screened := screened.stay (.frame mode _ semiGlobal) rfl rfl rfl
  outside screened := screened.enter (.selector _ none) rfl screened.waiting nofun
  function := by
    intro dirty realm machine qualifier name function found screened
    refine ⟨false, admits_of_sheltered (screened.stocked.function? found), ?_⟩
    exact screened.enter (.function realm found) rfl screened.waiting nofun
  module := by
    intro dirty node url machine sheet nodes configured _ _ found unknown unopened parsed screened
    obtain ⟨address, loaded⟩ := Eval.findSheet_loads found
    refine ⟨false, admits_of_sheltered (files address sheet nodes loaded parsed), fun complete => ?_⟩
    apply screened.passage (.module found unknown unopened configured complete)
    exact ⟨screened.stocked.enterModule sheet.path configured, screened.waiting, nofun⟩
  file := by
    rintro dirty urls line url machine sheet nodes ⟨-, bare⟩ named found unopened parsed screened
    have outside : dirty = false := by
      by_contra under
      cases (bare (by simpa using under)).self
    subst outside
    obtain ⟨address, loaded⟩ := Eval.findSheet_loads found
    exact ⟨false, admits_of_sheltered (files address sheet nodes loaded parsed),
      screened.stay (.file found unopened) rfl rfl rfl⟩

theorem lawful (files : ∀ address sheet nodes, setup.loader.load address = .ok sheet →
      Eval.statementsOf sheet = .ok nodes → Sheltered nodes) : conduct.Lawful setup where
  kept _ := kept files _
  mixin := by
    rintro dirty machine qualifier name args content line mixin ⟨sheltered, bare⟩ found screened
    have outside : dirty = false := by
      by_contra under
      cases (bare (by simpa using under)).self
    subst outside
    refine ⟨false, admits_of_sheltered (screened.stocked.mixin? found), ?_⟩
    apply screened.enter (.mixin found content) rfl _ screened.clean
    intro block member
    rcases List.mem_cons.mp member with own | waiting
    · obtain rfl : content = some block := own.symm
      exact sheltered.child (List.mem_singleton_self _)
    · exact screened.waiting block waiting
  content := by
    rintro dirty args line machine content outer block ⟨-, bare⟩ handed given screened
    have outside : dirty = false := by
      by_contra under
      cases (bare (by simpa using under)).self
    subst outside
    have waiting := screened.waiting
    rw [handed, List.map_cons, given] at waiting
    refine ⟨false, admits_of_sheltered (waiting block (List.mem_cons_self ..)), ?_⟩
    apply screened.enter (.content handed given) rfl _ screened.clean
    intro other member
    exact waiting other (List.mem_cons_of_mem _ member)

/-- Statements have a role under every selector that they may stand under. -/
theorem hosts {nodes : List Statement} {selector : Option String}
    (admitted : ∀ node ∈ nodes, conduct.admits inside node)
    (clean : inside = false → ∀ text ∈ selector, Free (· = '%') text) :
    conduct.Hosts setup dirty nodes selector :=
  ⟨inside, admitted, fun screened =>
    screened.enter (.selector _ selector) rfl screened.waiting fun _ => clean⟩

/-- `@at-root` leaves the rules, so its body stands under its own selector, or under none. -/
theorem free_selector? {around : Option String} {own : Option SelectorText} {query : Option AtRootQuery}
    {text : Option String} (owns : AtRoot.Owns own text)
    (percentless : ∀ selector ∈ own, selector.text.isPercentless = true)
    (leaves : AtRoot.leaves query .rule = true) :
    ∀ selector ∈ AtRoot.selector? around query text, Free (· = '%') selector := by
  have dropped : (AtRoot.filter around query).1 = "" := if_pos leaves
  intro selector listed
  unfold AtRoot.selector? at listed
  rw [dropped] at listed
  cases owns with
  | none => simp [AtRoot.effective] at listed
  | some yields =>
    simp only [AtRoot.effective, if_true] at listed
    split at listed
    · cases listed
    · cases listed
      exact yields.free (percentless _ rfl)

variable {dress : String → String}

/-- Sheltered statements write tidy heads only. -/
theorem suits (fixed : ∀ selector, Selector.Tidy selector → dress selector = selector) :
    conduct.Suits setup ⟨fun head => dress head.selector, dress⟩ where
  head selector _ _ := fixed _ (Selector.tidy_visible selector)
  rule := by
    rintro dirty selector body line own machine ⟨sheltered, bare⟩ yields screened
    have children : Sheltered body := sheltered.child (List.mem_singleton_self _)
    have covered (bare : Bare body) (selector : Option String) :
        conduct.Hosts setup dirty body selector := by
      have admitted : ∀ node ∈ body, conduct.admits true node :=
        fun node member => ⟨children.alone member, fun _ => bare.alone member⟩
      exact hosts admitted nofun
    cases dirty with
    | true => exact covered ((bare rfl).child (List.mem_singleton_self _)) _
    | false =>
      rcases sheltered.self with percentless | bare
      · apply hosts (admits_of_sheltered children)
        rintro - _ ⟨rfl⟩
        apply Selector.free_resolve (by decide) (by decide) (screened.clean rfl rfl)
        exact yields.free percentless
      · exact covered bare _
  atRule := by
    rintro dirty node machine ⟨sheltered, bare⟩ handled screened
    cases dirty with
    | true =>
      have unwrapped := (bare rfl).self
      have blockless := Statement.block_of_not_wraps unwrapped handled
      cases node with
      | atRoot => cases unwrapped
      | _ =>
        intro body block
        rw [blockless] at block
        cases block
    | false =>
      have hosted {body : List Statement} {selector : Option String} (within : body ⊆ node.children)
          (clean : ∀ text ∈ selector, Free (· = '%') text) :
          dress (selector.getD "") = selector.getD "" ∧ conduct.Hosts setup false body selector := by
        constructor
        · apply fixed
          apply Selector.tidy_of_free
          cases selector with
          | none => exact Chars.Free.nil
          | some text => exact clean text rfl
        · apply hosts (admits_of_sheltered _) fun _ => clean
          exact (sheltered.child (List.mem_singleton_self _)).of_subset within
      cases node with
      | atRoot own query body =>
        intro text owns
        obtain ⟨percentless, leaves⟩ := sheltered.self
        exact hosted (List.Subset.refl _) (free_selector? owns percentless leaves)
      | _ =>
        intro body block
        exact hosted (Statement.block_subset_children block) (screened.clean rfl rfl)
  media query screened := screened.stay (.media _ query) rfl rfl rfl

/-- The heads of style rules are tidy whatever the statements are. -/
theorem suits_always (fixed : ∀ selector, Selector.Tidy selector → dress selector = selector) :
    (Conduct.ofGood fun _ _ => True).Suits setup ⟨fun head => dress head.selector, id⟩ := by
  have opened := (Eval.guard_always setup).opened
  have hosted (nodes : List Statement) (selector : Option String) :
      (Conduct.ofGood fun _ _ => True).Hosts setup () nodes selector :=
    ⟨(), fun _ _ => trivial, fun _ => opened.selector selector trivial⟩
  constructor
  · exact fun selector _ _ => fixed _ (Selector.tidy_visible selector)
  · exact fun _ _ _ => hosted _ _
  · intro role node machine _ _ _
    cases node with
    | atRoot own query body => exact fun _ _ => ⟨rfl, hosted _ _⟩
    | _ => exact fun _ _ => ⟨rfl, hosted _ _⟩
  · exact opened.media

end Placeholders

namespace Eval

/-- No head of a style rule has a placeholder: whatever is written in place of one, the output is the
same. If no at-rule stands under a placeholder, in the stylesheet or in a file that can be loaded, the
same is true of the selectors that at-rules write around their lines. -/
theorem placeholders_hidden (setup : Setup) (file : String) (nodes : List Statement)
    (dress : String → String) (fixed : ∀ selector, Selector.Tidy selector → dress selector = selector)
    (depth : Nat) :
    sheet (dressed setup ⟨fun head => dress head.selector, id⟩ depth) nodes (Machine.start file) =
      sheet (perform setup depth) nodes (Machine.start file) ∧
    (Sheltered nodes →
      (∀ address sheet inside, setup.loader.load address = .ok sheet →
        statementsOf sheet = .ok inside → Sheltered inside) →
      sheet (dressed setup ⟨fun head => dress head.selector, dress⟩ depth) nodes (Machine.start file) =
        sheet (perform setup depth) nodes (Machine.start file)) := by
  constructor
  · have admitted : ∀ node ∈ nodes, (Conduct.ofGood fun _ _ => True).admits () node :=
      fun _ _ => trivial
    exact sheet_dressed (guard_always setup).lawful (Placeholders.suits_always fixed) depth admitted trivial
  · intro sheltered files
    have screened : Placeholders.Screened false .style (Machine.start file) := ⟨.start file, nofun, nofun⟩
    exact sheet_dressed (Placeholders.lawful files) (Placeholders.suits fixed) depth
      (Placeholders.admits_of_sheltered sheltered) screened

/-- Rules for `%p` and `.a, %q`, and `@media` inside a rule for `.c`, with lines from a mixin and from
its block. -/
theorem placeholders_hidden_library :
    let files := [("lib.scss", "@mixin m \x7b top: auto; @content; \x7d")]
    let setup := (Compiler.create {} (Loader.memory files)).setup
    let nodes := ((Grammar.stylesheet ("@use \"lib\"; %p \x7b top: auto; .b \x7b left: auto; \x7d \x7d " ++
      ".a, %q \x7b left: auto; \x7d " ++
      ".c \x7b @media print \x7b @include lib.m \x7b right: auto; \x7d \x7d \x7d")).toOption).getD []
    let dress := fun selector => if selector = "%p" then ".p" else selector
    let css := ".a \x7b\n  left: auto;\n\x7d\n\n@media print \x7b\n  .c \x7b\n" ++
      "    top: auto;\n    right: auto;\n  \x7d\n\x7d\n"
    (∀ selector, Selector.Tidy selector → dress selector = selector) ∧ Sheltered nodes ∧
      (sheet (dressed setup ⟨fun head => dress head.selector, dress⟩ 50) nodes
        (Machine.start "a.scss")).1.toOption = some css := by
  intro files setup nodes dress css
  have fixed (selector : String) (tidy : Selector.Tidy selector) : dress selector = selector := by
    apply if_neg
    rintro rfl
    exact absurd tidy (by decide +kernel)
  have main : Sheltered nodes := .of_everywhere 6 (by decide +kernel)
  have checked : files.all (fun file => (statementsOf ⟨file.1, file.2⟩).toOption.all
      (everywhere (Statement.isSheltered 6) 6)) = true := by decide +kernel
  have library : ∀ address sheet inside, (Loader.memory files).load address = .ok sheet →
      statementsOf sheet = .ok inside → Sheltered inside :=
    fun _ _ _ loaded parsed => .of_everywhere 6 (check_of_memory checked loaded parsed)
  have same : setup.loader = Loader.memory files := rfl
  rw [← same] at library
  have written : (sheet (perform setup 50) nodes (Machine.start "a.scss")).1.toOption = some css := by
    decide +kernel
  obtain ⟨-, hidden⟩ := placeholders_hidden setup "a.scss" nodes dress fixed 50
  exact ⟨fixed, main, by rw [hidden main library, written]⟩

/-- `@media` inside a rule for a placeholder puts its lines under it. -/
theorem placeholder_shown :
    let setup := (Compiler.create {} (Loader.memory [])).setup
    let nodes := ((Grammar.stylesheet
      "%p \x7b\n  @media print \x7b\n    color: red;\n  \x7d\n\x7d\n").toOption).getD []
    (stylesheet setup nodes (Machine.start "input.scss")).1.toOption =
      some "@media print \x7b\n  %p \x7b\n    color: red;\n  \x7d\n\x7d\n" ∧
    ¬ Selector.Tidy "%p" := by
  intro setup nodes
  have written : (stylesheet setup nodes (Machine.start "input.scss")).1.toOption =
      some "@media print \x7b\n  %p \x7b\n    color: red;\n  \x7d\n\x7d\n" := by
    decide +kernel
  exact ⟨written, by decide +kernel⟩

end Eval

end Scss
