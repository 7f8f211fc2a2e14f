import Scss.Proofs.Conduct.Runs
import Scss.Proofs.Modules.Stock

/-! Where faults say that they are. The statement that a fault names stands in a file of the program;
the file that it names is the one that was running. The two are the same unless the statement stands in
the body of a function or a mixin, or in a block for `@content`: what is kept for later runs under the
file that needs it, so its line may be given to a file that it is not a line of. -/
namespace Scss

open Machine (Change Meets Moves Place Stocked)

/-- The files of a program with their statements: the main stylesheet, and what statements of the
program load from the file that runs. -/
inductive Source (loader : Loader) (main : String) (nodes : List Statement) :
    String → List Statement → Prop where
  | main : Source loader main nodes main nodes
  | loaded {file running url : String} {inside around loaded : List Statement} {node : Statement}
      {sheet : LoadedFile} (source : Source loader main nodes file inside)
      (occurs : Occurs inside node) (named : url ∈ node.urls)
      (runs : Source loader main nodes running around)
      (found : Eval.findSheet loader running url = .ok sheet)
      (parsed : Eval.statementsOf sheet = .ok loaded) : Source loader main nodes sheet.path loaded

/-- The lines of a program's statements count from one, if those of the main stylesheet do. -/
theorem Source.numbered {loader : Loader} {main file : String} {nodes inside : List Statement}
    (source : Source loader main nodes file inside) (numbered : Numbered nodes) : Numbered inside := by
  cases source with
  | main => exact numbered
  | @loaded _ _ _ _ _ _ _ sheet _ _ _ _ _ parsed =>
    have read : Sound _ Numbered (Eval.statementsOf sheet) := Grammar.sound_stylesheet _
    rw [parsed] at read
    exact read

/-- A statement fails in a state by itself: without a name for the fault, or as `@error` does. -/
inductive Eval.Fails (setup : Setup) (mode : Mode) (machine : Machine) : Statement → Cause → Prop where
  | unnamed {node : Statement} {cause : Cause} {depth : Nat} {after : Machine}
      (failed : execute setup (perform setup depth) mode node machine = (.error (.because cause), after)) :
      Fails setup mode machine node cause
  | raised (expr : Expr) (line : Nat) (text : String) :
      Fails setup mode machine (.message .error expr line) (.raised text)

/-- What a run is busy with: statements of a file, or some that the file has kept for later. -/
structure Origin where
  file : String
  nodes : List Statement
  deferred : Bool

namespace Sites

open Eval (Fails Seen)

variable (setup : Setup) (main : String) (nodes : List Statement)

/-- A statement of the program is to blame for a fault at a site: it stands at the line, and fails by
itself in a state that the compilation meets in the file. It stands in the file too, unless it was kept
for later. -/
structure Blamed (cause : Cause) (site : Site) (file : String) (inside : List Statement)
    (node : Statement) : Prop where
  source : Source setup.loader main nodes file inside
  occurs : Occurs inside node
  line : node.line = site.line
  home : ¬ Deferred inside node → file = site.file
  fails : ∃ mode machine, Meets setup .style (Machine.start main) mode.realm machine ∧
    machine.file = site.file ∧ Fails setup mode machine node cause

def Belongs (body : List Statement) : Prop :=
  ∃ file inside, Source setup.loader main nodes file inside ∧ ∀ node ∈ body, Deferred inside node

/-- A state in which statements of an origin run. -/
structure Placed (origin : Origin) (realm : Realm) (machine : Machine) : Prop where
  source : Source setup.loader main nodes origin.file origin.nodes
  home : origin.deferred = false → machine.file = origin.file
  running : ∃ around, Source setup.loader main nodes machine.file around
  stocked : machine.Stocked (Belongs setup main nodes) (Belongs setup main nodes)
  waiting : ∀ block, some block ∈ machine.contents.map ContentFrame.block →
    Belongs setup main nodes block.body
  seen : Seen setup .style (Machine.start main) realm machine

/-- Every statement runs where it belongs, and every fault that names one names one that is to blame.
-/
def conduct : Conduct Origin where
  admits origin node := Occurs origin.nodes node ∧ (origin.deferred = true → Deferred origin.nodes node)
  good := Placed setup main nodes
  fine fault := ∀ own site, fault = .evaluation own → own.site = some site →
    ∃ file inside node, Blamed setup main nodes own.cause site file inside node
  within admitted inner member :=
    have child := Statement.within_subset_children member
    ⟨admitted.1.child child, fun deferred => (admitted.2 deferred).child child⟩
  bare bare own site same named := by
    subst same
    cases named.symm.trans bare

variable {setup main nodes} {origin inside : Origin} {realm inner : Realm}
  {machine next start after : Machine} {exit : Machine → Machine → Prop}

/-- What a state is placed by depends on the file, the definitions and the blocks that wait. -/
theorem Placed.congr (placed : Placed setup main nodes origin realm machine)
    (file : next.file = machine.file) (definitions : next.definitions = machine.definitions)
    (waiting : next.contents = machine.contents)
    (seen : Seen setup .style (Machine.start main) inner next) :
    Placed setup main nodes origin inner next where
  source := placed.source
  home := file ▸ placed.home
  running := file ▸ placed.running
  stocked := placed.stocked.congr definitions
  waiting := waiting ▸ placed.waiting
  seen := seen

/-- Behind a place, the origin outside is in its file again, and its blocks wait. -/
theorem Placed.back (placed : Placed setup main nodes origin realm machine)
    (within : Placed setup main nodes inside inner after) (moves : Moves setup realm machine next)
    (definitions : next.definitions = after.definitions) : Placed setup main nodes origin realm next where
  source := placed.source
  home := moves.file_eq ▸ placed.home
  running := moves.file_eq ▸ placed.running
  stocked := within.stocked.congr definitions
  waiting := by
    have blocks : next.contents.map ContentFrame.block = machine.contents.map ContentFrame.block := by
      simpa only [List.map_map, Function.comp_def] using congrArg (List.map Prod.fst) moves.blocks_eq
    rw [blocks]
    exact placed.waiting
  seen := Eval.guard_seen.moves moves placed.seen

theorem Placed.passage (placed : Placed setup main nodes origin realm machine)
    (place : Place setup realm machine inner start exit)
    (entered : Placed setup main nodes inside inner start) :
    (conduct setup main nodes).Passage setup origin realm inside inner start exit where
  enter := entered
  leave moves within left := placed.back within (.place place moves left) (place.definitions_eq left)

/-- A place for the same statements. -/
theorem Placed.stay (placed : Placed setup main nodes origin realm machine)
    (place : Place setup realm machine inner start exit) (file : start.file = machine.file)
    (environments : start.environments = machine.environments)
    (waiting : start.contents = machine.contents) :
    (conduct setup main nodes).Passage setup origin realm origin inner start exit := by
  apply placed.passage place
  apply placed.congr file _ waiting (placed.seen.enter place)
  rw [Machine.definitions, environments, Machine.definitions]

/-- A place for statements that were kept for later. -/
theorem Placed.recall (placed : Placed setup main nodes origin realm machine)
    (place : Place setup realm machine inner start exit) {body : List Statement}
    (kept : Belongs setup main nodes body) (file : start.file = machine.file)
    (environments : start.environments = machine.environments)
    (waiting : ∀ block, some block ∈ start.contents.map ContentFrame.block →
      Belongs setup main nodes block.body) :
    ∃ inside, (∀ node ∈ body, (conduct setup main nodes).admits inside node) ∧
      (conduct setup main nodes).Passage setup origin realm inside inner start exit := by
  obtain ⟨home, around, source, deferred⟩ := kept
  refine ⟨⟨home, around, true⟩, ?_, placed.passage place ?_⟩
  · intro node member
    exact ⟨(deferred node member).occurs, fun _ => deferred node member⟩
  · have same : start.definitions = machine.definitions := by
      rw [Machine.definitions, environments, Machine.definitions]
    exact ⟨source, fun early => Bool.noConfusion early, file ▸ placed.running, placed.stocked.congr same, waiting,
      placed.seen.enter place⟩

/-- A place for the statements of a file that is loaded. -/
theorem Placed.load (placed : Placed setup main nodes origin .style machine)
    (place : Place setup .style machine .style start exit) {node : Statement} {url : String}
    {sheet : LoadedFile} {loaded : List Statement}
    (admitted : (conduct setup main nodes).admits origin node) (named : url ∈ node.urls)
    (found : Eval.findSheet setup.loader machine.file url = .ok sheet)
    (parsed : Eval.statementsOf sheet = .ok loaded) (file : start.file = sheet.path)
    (stocked : start.Stocked (Belongs setup main nodes) (Belongs setup main nodes))
    (waiting : start.contents = machine.contents) :
    (∀ node ∈ loaded, (conduct setup main nodes).admits ⟨sheet.path, loaded, false⟩ node) ∧
      (conduct setup main nodes).Passage setup origin .style ⟨sheet.path, loaded, false⟩ .style
        start exit := by
  obtain ⟨around, runs⟩ := placed.running
  have source : Source setup.loader main nodes sheet.path loaded :=
    .loaded placed.source admitted.1 named runs found parsed
  refine ⟨fun node member => ⟨.here member, nofun⟩, placed.passage place ?_⟩
  exact ⟨source, fun _ => file, ⟨loaded, file ▸ source⟩, stocked, waiting ▸ placed.waiting,
    placed.seen.enter place⟩

/-- What a statement of the program keeps for later belongs to the program. -/
theorem Placed.belongs (placed : Placed setup main nodes origin realm machine) {node : Statement}
    (admitted : (conduct setup main nodes).admits origin node) :
    Belongs setup main nodes node.kept :=
  ⟨origin.file, origin.nodes, placed.source, fun _ member => ⟨node, admitted.1, .here member⟩⟩

/-- The state in which a statement runs, in the file that it is in. -/
theorem Placed.blamed (mode : Mode) (placed : Placed setup main nodes origin mode.realm machine)
    {node : Statement} {cause : Cause} {line : Nat}
    (admitted : (conduct setup main nodes).admits origin node) (here : node.line = line)
    (fails : Fails setup mode machine node cause) :
    Blamed setup main nodes cause ⟨machine.file, line⟩ origin.file origin.nodes node where
  source := placed.source
  occurs := admitted.1
  line := here
  home := by
    intro kept
    apply Eq.symm
    apply placed.home
    by_contra deferred
    exact kept (admitted.2 (by simpa using deferred))
  fails := by
    obtain ⟨outer, met, value | rfl⟩ := placed.seen
    · cases mode <;> cases value
    · exact ⟨mode, machine, met, rfl, fails⟩

/-- A fault gets the name of the statement that it leaves, if it has none. -/
theorem fine_locate {fault : Fault} {file : String} {line : Nat}
    (fine : (conduct setup main nodes).fine fault)
    (blamed : ∀ cause, fault = .because cause →
      ∃ origin inside node, Blamed setup main nodes cause ⟨file, line⟩ origin inside node) :
    (conduct setup main nodes).fine (fault.locate file line) := by
  cases fault with
  | evaluation own =>
    obtain ⟨cause, site⟩ := own
    cases site with
    | some site => exact fine
    | none =>
      rintro _ site ⟨rfl⟩ named
      obtain ⟨origin, inside, node, blamed⟩ := blamed cause rfl
      rw [EvaluationFault.cause_locate]
      unfold EvaluationFault.locate at named
      dsimp only at named
      split at named
      · cases named
      · cases named
        exact ⟨origin, inside, node, blamed⟩
  | lexical | grammar | configuration | exhausted | torn => exact fine

theorem fine_located {mode : Mode} {node : Statement} {fault : Fault} {depth : Nat}
    (admitted : (conduct setup main nodes).admits origin node)
    (placed : Placed setup main nodes origin mode.realm machine)
    (failed : Eval.execute setup (Eval.perform setup depth) mode node machine = (.error fault, after))
    (moves : Moves setup mode.realm machine after) (fine : (conduct setup main nodes).fine fault) :
    (conduct setup main nodes).fine (fault.locate after.file node.line) := by
  apply fine_locate fine
  intro cause same
  subst same
  refine ⟨origin.file, origin.nodes, node, ?_⟩
  rw [moves.file_eq]
  exact placed.blamed mode admitted rfl (.unnamed failed)

theorem fine_raised {expr : Expr} {line : Nat} (mode : Mode)
    (admitted : (conduct setup main nodes).admits origin (.message .error expr line))
    (placed : Placed setup main nodes origin mode.realm machine) (text : String) :
    (conduct setup main nodes).fine ((Fault.because (.raised text)).locate machine.file line) := by
  have bare : (Fault.because (.raised text)).Bare := rfl
  apply fine_locate ((conduct setup main nodes).bare bare)
  intro cause same
  cases same
  exact ⟨origin.file, origin.nodes, _, placed.blamed mode admitted rfl (.raised expr line text)⟩

theorem kept (depth : Nat) :
    (conduct setup main nodes).Kept setup (fun job => Eval.perform setup depth job) where
  value placed := placed.congr rfl rfl rfl (Eval.guard_seen.value placed.seen)
  behind moves placed within := placed.back within (moves.ofValue _) rfl
  located := fine_located
  raised := fine_raised
  unhandled _ _ _ same := nomatch same
  change change same placed :=
    placed.congr (by rw [change.rest]) same change.contents_eq
      (Eval.guard_seen.moves (.change change) placed.seen)
  defineFunction := by
    intro origin name params body line machine admitted placed
    have change : Change .style machine _ := .defineFunction machine name params body
    have stocked := placed.stocked.defineFunction name params (placed.belongs admitted)
    exact ⟨placed.source, placed.home, placed.running, stocked, placed.waiting,
      Eval.guard_seen.moves (.change change) placed.seen⟩
  defineMixin := by
    intro origin node body machine admitted defined placed name params
    have change : Change .style machine _ := .defineMixin machine name params body
    have own := placed.belongs admitted
    rw [Statement.kept_of_mixin defined] at own
    exact ⟨placed.source, placed.home, placed.running, placed.stocked.defineMixin name params own,
      placed.waiting, Eval.guard_seen.moves (.change change) placed.seen⟩
  use := by
    intro origin machine module_ offered placed name
    have change : Change .style machine _ := .use offered name
    exact ⟨placed.source, placed.home, placed.running, placed.stocked.useAs name module_,
      placed.waiting, Eval.guard_seen.moves (.change change) placed.seen⟩
  forward := by
    intro origin url affix filter line machine module_ admitted offered placed
    have change : Change .style machine (machine.passOn ⟨module_, affix, filter⟩) := .forward offered
    exact ⟨placed.source, placed.home, placed.running, placed.stocked.passOn _, placed.waiting,
      Eval.guard_seen.moves (.change change) placed.seen⟩
  frame mode semiGlobal placed := placed.stay (.frame mode _ semiGlobal) rfl rfl rfl
  outside placed := placed.stay (.selector _ none) rfl rfl rfl
  function found placed :=
    placed.recall (.function _ found) (placed.stocked.function? found) rfl rfl placed.waiting
  module := by
    intro origin node url machine sheet loaded configured admitted named found unknown unopened parsed
      placed
    refine ⟨⟨sheet.path, loaded, false⟩, fun node member => ⟨.here member, nofun⟩, ?_⟩
    intro complete
    have place : Place setup .style machine .style _ _ :=
      .module found unknown unopened configured complete
    have stocked := placed.stocked.enterModule sheet.path configured
    exact (placed.load place admitted named found parsed rfl stocked rfl).2
  file := by
    intro origin urls line url machine sheet loaded admitted named found unopened parsed placed
    have place : Place setup .style machine .style _ _ := .file found unopened
    exact ⟨⟨sheet.path, loaded, false⟩,
      placed.load place admitted named found parsed rfl (placed.stocked.congr rfl) rfl⟩

theorem opened : (conduct setup main nodes).Open setup where
  inside admitted block _ member :=
    have child := Statement.block_subset_children block member
    ⟨admitted.1.child child, fun deferred => (admitted.2 deferred).child child⟩
  selector selector placed := placed.stay (.selector _ selector) rfl rfl rfl
  media query placed := placed.stay (.media _ query) rfl rfl rfl

theorem lawful : (conduct setup main nodes).Lawful setup where
  kept := kept
  mixin := by
    intro origin machine qualifier name args content line mixin admitted found placed
    apply placed.recall (.mixin found content) (placed.stocked.mixin? found) rfl rfl
    intro block member
    rcases List.mem_cons.mp member with own | waiting
    · obtain rfl : content = some block := own.symm
      exact placed.belongs admitted
    · exact placed.waiting block waiting
  content := by
    intro origin args line machine content outer block admitted handed given placed
    have waiting := placed.waiting
    rw [handed, List.map_cons, given] at waiting
    apply placed.recall (.content handed given) (waiting block (List.mem_cons_self ..)) rfl rfl
    intro other member
    exact waiting other (List.mem_cons_of_mem _ member)

end Sites

/-- A computation that fails in evaluation only in the name of a statement. -/
def Run.Names {α : Type} (action : Run α) : Prop :=
  ∀ before fault after, action before = (.error (.evaluation fault), after) → fault.site ≠ none

namespace Run.Names

variable {α β : Type} {action : Run α}

theorem pure (value : α) : Names (Pure.pure value) := by
  intro before fault after failed
  cases failed

theorem bind {next : α → Run β} (first : Names action) (second : ∀ value, Names (next value)) :
    Names (action >>= next) := by
  intro before fault after failed
  rw [bind_apply] at failed
  cases outcome : action before with
  | mk result middle =>
    rw [outcome] at failed
    cases result with
    | error own =>
      cases failed
      exact first before fault _ outcome
    | ok value => exact second value middle fault after failed

theorem enclosed {enter : Machine → Machine} {leave : Machine → Machine → Machine}
    (inside : Names action) : Names (Run.enclosed enter leave action) := by
  intro before fault after failed
  cases outcome : action (enter before) with
  | mk result middle =>
    simp only [Run.enclosed, outcome] at failed
    cases failed
    exact inside (enter before) fault middle outcome

theorem located {line : Nat} (counts : 1 ≤ line) : Names (Run.located line action) := by
  intro before fault after failed
  cases outcome : action before with
  | mk result middle =>
    simp only [Run.located, outcome] at failed
    cases result with
    | ok value => cases failed
    | error own =>
      cases own with
      | evaluation own =>
        cases failed
        unfold EvaluationFault.locate
        cases named : own.site with
        | some site => simp [named]
        | none => simp [show line ≠ 0 by omega]
      | lexical | grammar | configuration | exhausted | torn => cases failed

theorem mapM {step : α → Run β} {items : List α} (each : ∀ item ∈ items, Names (step item)) :
    Names (items.mapM step) := by
  induction items with
  | nil => exact pure []
  | cons item rest ih =>
    obtain ⟨first, others⟩ := List.forall_mem_cons.mp each
    rw [List.mapM_cons]
    apply first.bind
    intro value
    apply (ih others).bind
    intro values
    exact pure _

theorem untilReturn {step : α → Run Yield} {items : List α}
    (each : ∀ item ∈ items, Names (step item)) : Names (Run.untilReturn step items) := by
  induction items with
  | nil => exact pure _
  | cons item rest ih =>
    obtain ⟨here, behind⟩ := List.forall_mem_cons.mp each
    apply here.bind
    intro first
    split
    · exact pure first
    · apply (ih behind).bind
      intro others
      exact pure _

end Run.Names

namespace Eval

open Run (Names)

theorem names_block (setup : Setup) (depth : Nat) (mode : Mode) {nodes : List Statement}
    (numbered : ∀ node ∈ nodes, 1 ≤ node.line) : Names (perform setup depth (.block mode nodes)) := by
  cases depth with
  | zero =>
    intro before fault after failed
    cases failed
  | succ depth =>
    apply Names.untilReturn
    intro node member
    exact .located (numbered node member)

/-- A stylesheet fails in evaluation in the name of one of its statements, or of one inside. -/
theorem names_sheet (setup : Setup) (depth : Nat) {nodes : List Statement} (numbered : Numbered nodes) :
    Names (sheet (perform setup depth) nodes) := by
  apply Names.bind
  · apply Names.bind _ fun parts => .pure _
    apply Names.mapM
    intro node member
    apply Names.bind _ fun body => .pure _
    apply Names.bind _ fun outcome => .pure _
    apply Names.enclosed
    apply names_block
    intro other alone
    obtain rfl := List.mem_singleton.mp alone
    exact numbered other (.here member)
  · intro parts before fault after failed
    cases failed

/-- The faults of a stylesheet that name a statement name one that is to blame. -/
theorem sheet_blames (setup : Setup) (depth : Nat) {main : String} {nodes : List Statement}
    {fault : EvaluationFault} {site : Site} {after : Machine}
    (failed : sheet (perform setup depth) nodes (Machine.start main) =
      (.error (.evaluation fault), after)) (named : fault.site = some site) :
    ∃ file inside node, Sites.Blamed setup main nodes fault.cause site file inside node := by
  have placed : Sites.Placed setup main nodes ⟨main, nodes, false⟩ .style (Machine.start main) :=
    { source := .main
      home := fun _ => rfl
      running := ⟨nodes, .main⟩
      stocked := .start main
      waiting := nofun
      seen := ⟨.style, .here .style _, .inr rfl⟩ }
  have admitted : ∀ node ∈ nodes, (Sites.conduct setup main nodes).admits ⟨main, nodes, false⟩ node :=
    fun node member => ⟨.here member, nofun⟩
  have obeys : Run.Obeys setup (Sites.conduct setup main nodes) _ .style
      (chunks (observed setup (fun _ => True) (perform setup depth) depth) nodes) _ :=
    chunks_obeys Sites.lawful Sites.opened (fun _ => trivial) (perform setup depth) depth admitted
  have fine := (obeys (Machine.start main) placed).ends.fine
  unfold sheet at failed
  rw [Run.bind_apply] at failed
  cases outcome : chunks (perform setup depth) nodes (Machine.start main) with
  | mk result last =>
    rw [outcome] at failed fine
    cases result with
    | ok parts => cases failed
    | error own =>
      cases failed
      exact fine (.evaluation fault) rfl fault site rfl named

end Eval

/-- Where a compilation that fails says it fails: at a line that counts from one, in a file, and a
statement of the program stands at that line that failed by itself while that file was running.
The statement stands in that very file, unless it was kept for later: in the body of a function or a
mixin, or in a block for `@content`. -/
theorem Compiler.fault_site_blames (compiler : Compiler) (entry : Entry) (dialect : Dialect)
    (fault : EvaluationFault)
    (failed : (compiler.compile entry dialect).result = .error (.evaluation fault)) :
    ∃ nodes site, Grammar.stylesheet (dialect.toScss entry.text) = .ok nodes ∧
      fault.site = some site ∧ 1 ≤ site.line ∧
      ∃ file inside node, Source compiler.setup.loader entry.file nodes file inside ∧
        Occurs inside node ∧ node.line = site.line ∧ (¬ Deferred inside node → file = site.file) ∧
        ∃ mode machine, Machine.Meets compiler.setup .style (Machine.start entry.file) mode.realm machine ∧
          machine.file = site.file ∧ Eval.Fails compiler.setup mode machine node fault.cause := by
  have read : Sound _ Numbered (Grammar.stylesheet (dialect.toScss entry.text)) :=
    Grammar.sound_stylesheet _
  unfold compile at failed
  cases parsed : Grammar.stylesheet (dialect.toScss entry.text) with
  | error own =>
    rw [parsed] at read failed
    cases failed
    exact absurd read id
  | ok nodes =>
    rw [parsed] at read failed
    dsimp only at failed
    cases outcome : Eval.stylesheet compiler.setup nodes (Machine.start entry.file) with
    | mk result after =>
      rw [outcome] at failed
      cases result with
      | ok text => cases failed
      | error own =>
        cases failed
        have named : fault.site ≠ none :=
          Eval.names_sheet compiler.setup Eval.depthBound read _ fault after outcome
        obtain ⟨site, named⟩ := Option.ne_none_iff_exists'.mp named
        obtain ⟨file, inside, node, blamed⟩ :=
          Eval.sheet_blames compiler.setup Eval.depthBound outcome named
        refine ⟨nodes, site, rfl, named, ?_, file, inside, node, blamed.source, blamed.occurs,
          blamed.line, blamed.home, blamed.fails⟩
        rw [← blamed.line]
        exact blamed.source.numbered read node blamed.occurs

theorem Compiler.fault_site_blames_variable :
    let compiler := Compiler.create {} (Loader.memory [])
    let entry : Entry := ⟨"input.scss", ".a \x7b\n  top: $x;\n\x7d"⟩
    (compiler.compile entry .scss).result =
      .error (.evaluation ⟨.undefinedVariable "x", some ⟨"input.scss", 2⟩⟩) ∧
    ∃ nodes, Grammar.stylesheet entry.text = .ok nodes ∧
      ∃ file inside node, Source compiler.setup.loader "input.scss" nodes file inside ∧
        Occurs inside node ∧ node.line = 2 ∧ (¬ Deferred inside node → file = "input.scss") := by
  intro compiler entry
  have failed : (compiler.compile entry .scss).result =
      .error (.evaluation ⟨.undefinedVariable "x", some ⟨"input.scss", 2⟩⟩) := by decide +kernel
  obtain ⟨nodes, site, parsed, named, -, file, inside, node, source, occurs, line, home, -⟩ :=
    fault_site_blames compiler entry .scss _ failed
  cases named
  exact ⟨failed, nodes, parsed, file, inside, node, source, occurs, line, home⟩

/-- A function of another file fails, and the fault gives its line to the file that has called it,
which has no statement there. -/
theorem Compiler.fault_site_elsewhere :
    let compiler := Compiler.create {} (Loader.memory
      [("lib.scss", "\n\n\n\n\n@function f($x) \x7b\n\n  @return $undefined;\n\x7d\n")])
    let entry : Entry := ⟨"input.scss", "@use \"lib\";\n.a \x7b b: lib.f(1); \x7d\n"⟩
    (compiler.compile entry .scss).result =
      .error (.evaluation ⟨.undefinedVariable "undefined", some ⟨"input.scss", 8⟩⟩) ∧
    ∃ nodes, Grammar.stylesheet entry.text = .ok nodes ∧
      ∀ node, Occurs nodes node → node.line ≠ 8 := by
  intro compiler entry
  have failed : (compiler.compile entry .scss).result =
      .error (.evaluation ⟨.undefinedVariable "undefined", some ⟨"input.scss", 8⟩⟩) := by
    decide +kernel
  have checked : (Grammar.stylesheet entry.text).toOption.any
      (everywhere (fun node => node.line != 8) 5) = true := by decide +kernel
  refine ⟨failed, ?_⟩
  cases parsed : Grammar.stylesheet entry.text with
  | error fault =>
    rw [parsed] at checked
    cases checked
  | ok nodes =>
    rw [parsed] at checked
    refine ⟨nodes, rfl, fun node occurs => ?_⟩
    have apart := occurs.check checked
    simpa using apart

end Scss
