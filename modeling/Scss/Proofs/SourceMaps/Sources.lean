import Scss.SourceMap
import Mathlib.Data.List.Nodup
import Mathlib.Data.List.Induction

/-! The sources of a source map. Names and texts are kept apart: a name is entered when it first comes up,
and its text behind the texts before it, if it has one. So each name is there once and keeps its index,
while a source without a text moves the texts of all later ones one place to the front. -/
namespace Scss

namespace SourceMap

/-- A source that is handed in: its name, and its text if there is one. -/
structure Registration where
  name : String
  text : Option String
deriving DecidableEq

def register (map : SourceMap) (registrations : List Registration) : SourceMap :=
  registrations.foldl (fun map source => map.addSource source.name source.text) map

def firstText (registrations : List Registration) (name : String) : Option String :=
  (registrations.find? fun source => source.name = name).bind Registration.text

def Aligned (map : SourceMap) (registrations : List Registration) : Prop :=
  ∀ (index : Nat) (text : String), map.contents[index]? = some text →
    ∃ name, map.sources[index]? = some name ∧ firstText registrations name = some text

section Lists

variable {α β : Type} {f : α → Option β}

/-- What a list is mapped to stands at the same places as in the list just if nothing that is left out stands
before something that is kept. -/
theorem filterMap_aligned_iff (list : List α) :
    (∀ (index : Nat) (b : β), (list.filterMap f)[index]? = some b →
        ∃ a, list[index]? = some a ∧ f a = some b) ↔
      list.Pairwise fun first second => f first = none → f second = none := by
  induction list with
  | nil => simp
  | cons a rest ih =>
    rw [List.pairwise_cons]
    cases left : f a with
    | some b =>
      rw [List.filterMap_cons_some left, ← ih]
      constructor
      · intro aligned
        exact ⟨fun _ _ => nofun, fun index => aligned (index + 1)⟩
      · rintro ⟨-, aligned⟩ (_ | index) other found
        · exact ⟨a, rfl, left.trans found⟩
        · exact aligned index other found
    | none =>
      -- Whatever is kept behind this member comes to stand at its place.
      rw [List.filterMap_cons_none left]
      constructor
      · intro aligned
        have empty : rest.filterMap f = [] := by
          cases kept : rest.filterMap f with
          | nil => rfl
          | cons b others =>
            obtain ⟨first, here, found⟩ := aligned 0 b (by rw [kept]; rfl)
            cases here
            exact nomatch left.symm.trans found
        have none_kept : ∀ second ∈ rest, f second = none := List.filterMap_eq_nil_iff.mp empty
        exact ⟨fun second member _ => none_kept second member,
          List.pairwise_of_forall_mem_list fun _ _ second member _ => none_kept second member⟩
      · rintro ⟨none_kept, -⟩ index b found
        rw [List.filterMap_eq_nil_iff.mpr fun second member => none_kept second member rfl] at found
        exact nomatch found

/-- A name is added behind the others if it is not among them. -/
theorem eraseDups_concat (names : List String) (name : String) :
    (names ++ [name]).eraseDups = if name ∈ names then names.eraseDups else names.eraseDups ++ [name] := by
  rw [List.eraseDups_append]
  split
  · rename_i known
    rw [List.removeAll, List.filter_cons_of_neg (by simpa using known)]
    simp
  · rename_i fresh
    rw [List.removeAll, List.filter_cons_of_pos (by simpa using fresh), List.filter_nil, List.eraseDups_cons]
    rfl

end Lists

variable {map : SourceMap} {registrations : List Registration} {source : Registration}

/-- The text of a name that is there stays what it was. -/
theorem firstText_of_mem {name : String} (known : name ∈ registrations.map Registration.name) :
    firstText (registrations ++ [source]) name = firstText registrations name := by
  obtain ⟨earlier, member, rfl⟩ := List.mem_map.mp known
  have found : (registrations.find? fun source => source.name = earlier.name).isSome = true :=
    List.find?_isSome.mpr ⟨earlier, member, decide_eq_true rfl⟩
  rw [firstText, firstText, List.find?_append, Option.or_of_isSome found]

theorem firstText_of_not_mem (fresh : source.name ∉ registrations.map Registration.name) :
    firstText (registrations ++ [source]) source.name = source.text := by
  have none : (registrations.find? fun other => other.name = source.name) = none := by
    refine List.find?_eq_none.mpr fun other member same => ?_
    exact fresh (List.mem_map.mpr ⟨other, member, of_decide_eq_true same⟩)
  rw [firstText, List.find?_append, none, Option.none_or, List.find?_singleton, if_pos (decide_eq_true rfl)]
  rfl

theorem addSource_of_mem {name : String} {text : Option String} (known : name ∈ map.sources) :
    map.addSource name text = map := by
  rw [addSource, if_pos (List.contains_iff_mem.mpr known)]

theorem addSource_of_not_mem {name : String} {text : Option String} (fresh : name ∉ map.sources) :
    map.addSource name text =
      { map with sources := map.sources ++ [name], contents := map.contents ++ text.toList } := by
  rw [addSource, if_neg (mt List.contains_iff_mem.mp fresh)]

/-- What registrations leave behind: the names in the order in which they came up, and the texts that came
with them. -/
structure Registered (map : SourceMap) (registrations : List Registration) : Prop where
  sources : map.sources = (registrations.map Registration.name).eraseDups
  distinct : map.sources.Nodup
  contents : map.contents = map.sources.filterMap (firstText registrations)

namespace Registered

theorem mem_iff (registered : Registered map registrations) {name : String} :
    name ∈ map.sources ↔ name ∈ registrations.map Registration.name := by
  rw [registered.sources, List.mem_eraseDups]

theorem step (registered : Registered map registrations) (source : Registration) :
    Registered (map.addSource source.name source.text) (registrations ++ [source]) := by
  have texts : map.sources.filterMap (firstText (registrations ++ [source])) = map.contents := by
    rw [registered.contents]
    exact List.filterMap_congr fun name member => firstText_of_mem (registered.mem_iff.mp member)
  by_cases known : source.name ∈ map.sources
  · rw [addSource_of_mem known]
    refine ⟨?_, registered.distinct, texts.symm⟩
    rw [List.map_append, List.map_singleton, eraseDups_concat, if_pos (registered.mem_iff.mp known)]
    exact registered.sources
  · have fresh := mt registered.mem_iff.mpr known
    rw [addSource_of_not_mem known]
    refine ⟨?_, ?_, ?_⟩
    · rw [List.map_append, List.map_singleton, eraseDups_concat, if_neg fresh, registered.sources]
    · rw [← List.concat_eq_append]
      exact List.Nodup.concat known registered.distinct
    · rw [List.filterMap_append, texts, List.filterMap_cons, firstText_of_not_mem fresh]
      cases source.text <;> rfl

end Registered

theorem register_append (map : SourceMap) (first second : List Registration) :
    map.register (first ++ second) = (map.register first).register second :=
  List.foldl_append

theorem registered_register (file : Option String) (registrations : List Registration) :
    Registered ((empty file).register registrations) registrations := by
  induction registrations using List.reverseRecOn with
  | nil => exact ⟨rfl, .nil, rfl⟩
  | append_singleton registrations source ih =>
    rw [register_append]
    exact ih.step source

/-- Sources are entered behind those that are there. -/
theorem sources_kept (map : SourceMap) (registrations : List Registration) :
    map.sources <+: (map.register registrations).sources := by
  induction registrations generalizing map with
  | nil => exact List.prefix_rfl
  | cons source rest ih =>
    have step : map.sources <+: (map.addSource source.name source.text).sources := by
      by_cases known : source.name ∈ map.sources
      · exact ⟨[], by rw [addSource_of_mem known, List.append_nil]⟩
      · exact ⟨[source.name], by rw [addSource_of_not_mem known]⟩
    exact step.trans (ih _)

theorem mem_addSource (map : SourceMap) (name : String) (text : Option String) :
    name ∈ (map.addSource name text).sources := by
  by_cases known : name ∈ map.sources
  · rwa [addSource_of_mem known]
  · rw [addSource_of_not_mem known]
    exact List.mem_append_right _ (List.mem_singleton_self name)

/-- The index that a registration gives is that of the name, whatever is registered later. -/
theorem getElem?_indexOf (map : SourceMap) (before after : List Registration) (source : Registration) :
    (map.register (before ++ source :: after)).sources[
      (map.register (before ++ [source])).indexOf source.name]? = some source.name := by
  have split : before ++ source :: after = (before ++ [source]) ++ after := by simp
  have entered : source.name ∈ (map.register (before ++ [source])).sources := by
    rw [register_append]
    exact mem_addSource _ source.name source.text
  have inside := List.idxOf_lt_length_of_mem entered
  rw [split, register_append, indexOf, List.prefix_iff_getElem?.mp (sources_kept _ after) _ inside,
    ← List.getElem?_eq_getElem inside]
  exact List.getElem?_idxOf entered

/-- For all registrations on an empty map: the sources are the names, each once and in the order in which they
came up; the index that each registration gave is that of its name; and the texts are those that came with
the names. They stand at the indices of their names just if no source without a text comes before one that
has a text. -/
theorem sources_line_up (file : Option String) (registrations : List Registration) :
    let map := (empty file).register registrations
    map.sources = (registrations.map Registration.name).eraseDups ∧ map.sources.Nodup ∧
      (∀ before source after, registrations = before ++ source :: after →
        map.sources[((empty file).register (before ++ [source])).indexOf source.name]? = some source.name) ∧
      map.contents = map.sources.filterMap (firstText registrations) ∧
      (map.Aligned registrations ↔ map.sources.Pairwise fun first second =>
        firstText registrations first = none → firstText registrations second = none) := by
  intro map
  have registered : Registered map registrations := registered_register file registrations
  refine ⟨registered.sources, registered.distinct, ?_, registered.contents, ?_⟩
  · rintro before source after rfl
    exact getElem?_indexOf (empty file) before after source
  · unfold Aligned
    rw [registered.contents]
    exact filterMap_aligned_iff map.sources

/-- A name that comes up again, and a source without a text behind those that have one. -/
theorem sources_line_up_again :
    let registrations : List Registration :=
      [⟨"a", some "x"⟩, ⟨"c", some ""⟩, ⟨"a", none⟩, ⟨"b", none⟩, ⟨"c", some "y"⟩]
    let map := (empty none).register registrations
    map.sources = ["a", "c", "b"] ∧ map.contents = ["x", ""] ∧ map.Aligned registrations ∧
      map.sources[1]? = some "c" := by
  intro registrations map
  obtain ⟨-, -, indices, -, aligned⟩ := sources_line_up none registrations
  exact ⟨by decide, by decide, aligned.mpr (by decide), indices (registrations.take 4) ⟨"c", some "y"⟩ [] rfl⟩

/-- A text that stands beside the name of a source without a text. -/
theorem text_beside_other_name :
    let registrations : List Registration := [⟨"b.scss", none⟩, ⟨"a.scss", some "x"⟩]
    let map := (empty none).register registrations
    map.sources = ["b.scss", "a.scss"] ∧ map.contents = ["x"] ∧ ¬ map.Aligned registrations := by
  refine ⟨by decide, by decide, fun aligned => ?_⟩
  obtain ⟨name, found, came⟩ := aligned 0 "x" (by decide)
  cases found
  exact absurd came (by decide)

end SourceMap

end Scss
