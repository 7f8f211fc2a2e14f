import Scss.Eval.Statement
import Scss.Proofs.Selectors

/-! What `@at-root` makes of the text that says what is around it: each group of the selector, with the media
query behind it. It finds the groups again, and that there is a query. Of a list of queries only the first
is found behind its group; the others stand behind commas as groups do, and are taken for rules. -/
namespace Scss.AtRoot

open Chars (splitTopLevel)
open Enclosure (outside)

variable {pattern text rest : List Char} {c : Char} {most deepest : Nat}

theorem prefix_of_prefix_append (absent : c ∉ pattern) (starts : pattern <+: text ++ c :: rest) :
    pattern <+: text := by
  rcases List.prefix_or_prefix_of_prefix starts (List.prefix_append text (c :: rest)) with whole | shorter
  · exact whole
  · obtain ⟨more, rfl⟩ := shorter
    cases more with
    | nil => simp
    | cons d more =>
      rw [List.prefix_append_right_inj] at starts
      obtain ⟨same, -⟩ := List.cons_prefix_cons.mp starts
      simp [same] at absent

/-- The mark is found at its first place. -/
theorem cutAtMark_eq (unmarked : ¬ mark <:+: text) (rest : List Char) :
    cutAtMark (text ++ ' ' :: (mark ++ rest)) = some (text ++ [' '], mark ++ rest) := by
  induction text with
  | nil => rfl
  | cons d text ih =>
    have later : ¬ mark <:+: text := fun inside => unmarked (inside.trans (List.suffix_cons d text).isInfix)
    have here : mark.isPrefixOf (d :: (text ++ ' ' :: (mark ++ rest))) = false := by
      rw [Bool.eq_false_iff, Ne, List.isPrefixOf_iff_prefix, ← List.cons_append]
      exact fun starts => unmarked (prefix_of_prefix_append (by decide) starts).isInfix
    rw [List.cons_append, cutAtMark, here, if_neg (by decide), ih later]
    rfl

theorem mark_eq : mark = ['@', 'm', 'e', 'd', 'i'] ++ ['a'] := rfl

def withMedia (query group : List Char) : List Char := group ++ (' ' :: (mark ++ [' '])) ++ query

/-- A query behind a group closes with it. The mark stays with the group, and so does the first part of the
query; its other parts are cut off. -/
theorem splitTopLevel_withMedia {query : List Char} (media : outside.Closed (fun _ => True) deepest query) :
    ∃ kept, ∀ group, Chars.Group (fun _ => True) most group → group ≠ [] →
      outside.after (withMedia query group) = outside ∧
      splitTopLevel ',' (withMedia query group) =
        (group ++ ' ' :: (mark ++ kept)) :: (splitTopLevel ',' query).tail := by
  obtain ⟨first, others, cut⟩ := Chars.exists_topLevelPieces ',' outside query
  -- the mark ends in a letter, so that trimming stops there
  obtain ⟨kept, trimmed⟩ := Chars.exists_trimEnd_cons (c := 'a') (by decide) (' ' :: first)
  refine ⟨kept, fun group alone some => ?_⟩
  obtain ⟨c, rest, rfl⟩ := List.exists_cons_of_ne_nil some
  have visible : Chars.isBlank c = false := alone.flush.head c rfl
  have ends : outside.after ((c :: rest) ++ ' ' :: (mark ++ [' '])) = outside := by
    rw [Enclosure.after_append, alone.closed.after_eq]
    rfl
  have uncut : Chars.Uncut ',' outside ((c :: rest) ++ ' ' :: (mark ++ [' '])) := by
    have behind : Chars.Uncut ',' outside (' ' :: (mark ++ [' '])) := rfl
    exact alone.uncut.append alone.closed behind
  refine ⟨by rw [withMedia, Enclosure.after_append, ends, media.after_eq], ?_⟩
  have piece : Chars.trim ((c :: rest) ++ ' ' :: (mark ++ [' ']) ++ first) =
      (c :: rest) ++ ' ' :: (mark ++ kept) := by
    have whole : (c :: rest) ++ ' ' :: (mark ++ [' ']) ++ first =
        ((c :: rest) ++ [' ', '@', 'm', 'e', 'd', 'i']) ++ 'a' :: ' ' :: first := by simp [mark_eq]
    calc
      Chars.trim ((c :: rest) ++ ' ' :: (mark ++ [' ']) ++ first) =
          Chars.trimEnd ((c :: rest) ++ ' ' :: (mark ++ [' ']) ++ first) := Chars.trim_of_visible visible _
      _ = ((c :: rest) ++ [' ', '@', 'm', 'e', 'd', 'i']) ++ 'a' :: kept := by
        rw [whole, Chars.trimEnd_behind _ (by decide), trimmed]
      _ = (c :: rest) ++ ' ' :: (mark ++ kept) := by simp [mark_eq]
  rw [splitTopLevel, withMedia, Chars.topLevelPieces_append uncut, ends, splitTopLevel, cut]
  exact congrArg (· :: others.map Chars.trim) piece

/-- What the further parts of a list of queries are taken for. -/
def strays (query : String) : List Group :=
  ((Selector.groups query).tail.filter (fun group => group ≠ "")).map Group.ofText

def strayRules (query : String) : List String :=
  ((strays query).map Group.rule).filter (fun rule => rule ≠ "")

theorem ofText_withMedia {group : String} (flush : Chars.Flush group.toList)
    (unmarked : ¬ mark <:+: group.toList) (kept : List Char) :
    Group.ofText (String.ofList (group.toList ++ ' ' :: (mark ++ kept))) =
      ⟨group, some (Text.trim (String.ofList (mark ++ kept)))⟩ := by
  have rule : Text.trim (String.ofList (group.toList ++ [' '])) = group := by
    rw [← String.toList_inj, Text.trim, Text.toList_mapChars, String.toList_ofList,
      Chars.trim_blanks (List.forall_mem_singleton.mpr rfl), flush.trim_eq]
  unfold Group.ofText
  rw [String.toList_ofList, cutAtMark_eq unmarked]
  dsimp only
  rw [rule]

section Context

variable {rules query : String}

/-- Every group is found again, with a query behind it, and then what is left of the list of queries. -/
theorem groups_atRootContext (around : Selector.Proper (fun _ => True) rules)
    (unmarked : ∀ group ∈ Selector.groups rules, ¬ mark <:+: group.toList)
    (media : Chars.WellNested (fun _ => True) query.toList)
    (few : Selector.openings rules < 2 ^ 31 ∧ Selector.openings query < 2 ^ 31) :
    ∃ context found, Eval.atRootContext (some query) (some rules) = some context ∧
      groups context = (Selector.groups rules).flatMap fun group => ⟨group, some found⟩ :: strays query := by
  obtain ⟨kept, split⟩ := splitTopLevel_withMedia (media.closed (fun _ _ => trivial) few.2)
  have each : ∀ group ∈ Selector.groups rules,
      Chars.Group (fun _ => True) (Selector.openings rules) group.toList ∧ group.toList ≠ [] :=
    fun _ => (around.settled few.1).group
  have sign : " @media ".toList = ' ' :: (mark ++ [' ']) := by decide +kernel
  have text : ∀ group, (group ++ " @media " ++ query).toList = withMedia query.toList group.toList := by
    intro group
    rw [String.toList_append, String.toList_append, sign, withMedia]
  have ends : ∀ text ∈ (Selector.groups rules).map fun group => group ++ " @media " ++ query,
      outside.after text.toList = outside := by
    intro _ member
    obtain ⟨group, inside, rfl⟩ := List.mem_map.mp member
    rw [text]
    exact (split _ (each group inside).1 (each group inside).2).1
  have cut : ∀ group ∈ Selector.groups rules, Selector.groups (group ++ " @media " ++ query) =
      String.ofList (group.toList ++ ' ' :: (mark ++ kept)) :: (Selector.groups query).tail := by
    intro group member
    rw [Selector.groups_eq_iff, text, (split _ (each group member).1 (each group member).2).2,
      List.map_cons, List.map_tail, Selector.map_toList_groups, String.toList_ofList]
  refine ⟨_, Text.trim (String.ofList (mark ++ kept)), rfl, ?_⟩
  rw [groups, Selector.groups_join (by simpa using Selector.groups_ne_nil rules) ends, List.flatMap_map,
    List.flatMap_congr cut, List.filter_flatMap, List.map_flatMap]
  refine List.flatMap_congr fun group member => ?_
  rw [List.filter_cons_of_pos (by simp), List.map_cons,
    ofText_withMedia (each group member).1.flush (unmarked group member)]
  rfl

theorem filter_atRootContext (around : Selector.Proper (fun _ => True) rules)
    (unmarked : ∀ group ∈ Selector.groups rules, ¬ mark <:+: group.toList)
    (media : Chars.WellNested (fun _ => True) query.toList)
    (few : Selector.openings rules < 2 ^ 31 ∧ Selector.openings query < 2 ^ 31)
    (removal : Option AtRootQuery) :
    filter (Eval.atRootContext (some query) (some rules)) removal =
      (if leaves removal .rule then ""
        else Text.join ", " ((Selector.groups rules).flatMap fun group => group :: strayRules query),
        leaves removal .media) := by
  obtain ⟨context, found, same, cut⟩ := groups_atRootContext around unmarked media few
  have inMedia : (groups context).any (fun group => group.media.isSome) = true := by
    obtain ⟨first, _, cons⟩ := List.exists_cons_of_ne_nil (Selector.groups_ne_nil rules)
    simp [cut, cons]
  have kept : ((groups context).map Group.rule).filter (fun rule => rule ≠ "") =
      (Selector.groups rules).flatMap fun group => group :: strayRules query := by
    rw [cut, List.map_flatMap, List.filter_flatMap]
    refine List.flatMap_congr fun group member => ?_
    have filled : group ≠ "" := fun empty => around.filled (empty ▸ member)
    rw [List.map_cons, List.filter_cons_of_pos (by simpa using filled)]
    rfl
  rw [same]
  unfold filter
  simp only [Option.map_some, Option.getD_some, inMedia, Bool.true_and, kept]

theorem strayRules_of_single (single : (Selector.groups query).length = 1) : strayRules query = [] := by
  obtain ⟨only, alone⟩ := List.length_eq_one_iff.mp single
  rw [strayRules, strays, alone]
  rfl

/-- `@at-root` finds every group of the rules around it, and that there is a media query. Behind each group
it finds the further parts of a list of queries; of a single query nothing is left. Neither text may open too
many brackets for a depth. -/
theorem context_decoded (around : Selector.Proper (fun _ => True) rules)
    (unmarked : ∀ group ∈ Selector.groups rules, ¬ mark <:+: group.toList)
    (media : Chars.WellNested (fun _ => True) query.toList)
    (few : Selector.openings rules < 2 ^ 31 ∧ Selector.openings query < 2 ^ 31)
    (removal : Option AtRootQuery) :
    filter (Eval.atRootContext (some query) (some rules)) removal =
      (if leaves removal .rule then ""
        else Text.join ", " ((Selector.groups rules).flatMap fun group => group :: strayRules query),
        leaves removal .media) ∧
      ((Selector.groups query).length = 1 →
        filter (Eval.atRootContext (some query) (some rules)) removal =
          (if leaves removal .rule then "" else Text.join ", " (Selector.groups rules),
            leaves removal .media)) := by
  have decoded := filter_atRootContext around unmarked media few removal
  refine ⟨decoded, fun single => ?_⟩
  rw [decoded, strayRules_of_single single, List.flatMap_singleton']

/-- Commas in brackets and quotes, and a single query in brackets. -/
theorem context_decoded_brackets :
    let rules := ".a, [b=\"c, d\"] :is(.e, .f)"
    let query := "screen and (min-width: 10px)"
    Selector.Proper (fun _ => True) rules ∧ (∀ group ∈ Selector.groups rules, ¬ mark <:+: group.toList) ∧
      Chars.WellNested (fun _ => True) query.toList ∧
      (Selector.openings rules < 2 ^ 31 ∧ Selector.openings query < 2 ^ 31) ∧
      (Selector.groups query).length = 1 ∧
      filter (Eval.atRootContext (some query) (some rules)) (some (.leave ["media"])) =
        (".a, [b=\"c, d\"] :is(.e, .f)", true) := by
  intro rules query
  have around : Selector.Proper (fun _ => True) rules := by
    refine ⟨?_, by decide +kernel⟩
    have same : rules.toList = ".a, ".toList ++ '[' :: (("b=".toList ++ '"' :: ("c, d".toList ++ '"' :: [])) ++
      ']' :: (" :is".toList ++ '(' :: (".e, .f".toList ++ [] ++ ')' :: []))) := by decide +kernel
    rw [same]
    exact .letters (by decide +kernel) (.bracketed (.inr rfl)
      (.letters (by decide +kernel) (.string (.inl rfl) (by decide +kernel) .nil))
      (.letters (by decide +kernel) (.bracketed (.inl rfl) (.letters (by decide +kernel) .nil) .nil)))
  have unmarked : ∀ group ∈ Selector.groups rules, ¬ mark <:+: group.toList := by decide +kernel
  have media : Chars.WellNested (fun _ => True) query.toList := by
    have same : query.toList = "screen and ".toList ++ '(' :: ("min-width: 10px".toList ++ [] ++ ')' :: []) := by
      decide +kernel
    rw [same]
    exact .letters (by decide +kernel)
      (.bracketed (.inl rfl) (.letters (by decide +kernel) .nil) .nil)
  have single : (Selector.groups query).length = 1 := by decide +kernel
  have few : Selector.openings rules < 2 ^ 31 ∧ Selector.openings query < 2 ^ 31 := by decide +kernel
  exact ⟨around, unmarked, media, few, single,
    ((context_decoded around unmarked media few (some (.leave ["media"]))).2 single).trans (by decide +kernel)⟩

/-- The second query of a list is taken for a rule. -/
theorem second_query_taken_for_rule :
    filter (Eval.atRootContext (some "screen, print") (some ".a")) (some (.leave ["media"])) =
      (".a, print", true) := by
  decide +kernel

end Context

end Scss.AtRoot
