import Scss.Proofs.Maps.Sound

/-! Deep merges, by the paths through nested maps. At each path a deep merge has what the second map has
there, merged into what the first one has if both are maps; where the second map has nothing, it has what
the first one has, unless the second one has a value on the way that is no map. -/
namespace Scss

def Value.IsMap (value : Value) : Prop := ∃ entries, value = .map entries

namespace Entries

open Builtin.Map (lookup?)

/-- On the way along the path there is a value that is no map. -/
def Blocks (entries : Entries) (path : List Value) : Prop :=
  ∃ before key after value, path = before ++ key :: after ∧ lookup? entries before = some value ∧
    ¬ value.IsMap

/-- The map has an entry at the path, or a value on the way there that is no map. -/
def Overrides (entries : Entries) (path : List Value) : Prop :=
  (∃ value, lookup? entries path = some value) ∨ entries.Blocks path

def level? (entries : Entries) : List Value → Option Entries
  | [] => some entries
  | path =>
    match lookup? entries path with
    | some (.map inner) => some inner
    | _ => none

variable {entries other inner : Entries} {key value : Value} {path : List Value}

section Looking

theorem lookup?_cons (entries : Entries) (key next : Value) (rest : List Value) :
    lookup? entries (key :: next :: rest) =
      match entries.get? key with
      | some (.map inner) => lookup? inner (next :: rest)
      | _ => none := rfl

theorem lookup?_cons_of_map {next : Value} {rest : List Value}
    (found : entries.get? key = some (.map inner)) :
    lookup? entries (key :: next :: rest) = lookup? inner (next :: rest) := by
  rw [lookup?_cons, found]

theorem lookup?_cons_of_not_map (plain : ∀ inner, entries.get? key ≠ some (.map inner)) (next : Value)
    (rest : List Value) :
    lookup? entries (key :: next :: rest) = none := by
  rw [lookup?_cons]
  split
  · rename_i inner found
    exact absurd found (plain inner)
  · rfl

theorem Sound.lookup? (sound : entries.Sound) (found : lookup? entries path = some value) :
    value.Sound := by
  induction path generalizing entries with
  | nil => cases found
  | cons key rest ih =>
    rcases rest with _ | ⟨next, rest⟩
    · exact sound.get? found
    · rw [lookup?_cons] at found
      split at found
      · rename_i inner here
        exact ih (sound_map_iff.mp (sound.get? here)) found
      · cases found

theorem level?_eq_some_iff (longer : path ≠ []) :
    entries.level? path = some inner ↔ Builtin.Map.lookup? entries path = some (.map inner) := by
  rw [level?]
  · split
    · rename_i own found
      rw [found]
      simp
    · rename_i plain
      exact ⟨nofun, fun found => absurd found (plain inner)⟩
  · exact longer

end Looking

section Blocking

theorem not_blocks_singleton : ¬ entries.Blocks [key] := by
  rintro ⟨before, _, after, value, same, found, -⟩
  rcases before with _ | ⟨first, before⟩
  · cases found
  · simp at same

theorem blocks_of_get? {next : Value} {rest : List Value} (found : entries.get? key = some value)
    (plain : ¬ value.IsMap) : entries.Blocks (key :: next :: rest) :=
  ⟨[key], next, rest, value, rfl, found, plain⟩

theorem not_blocks_of_get?_eq_none (absent : entries.get? key = none) (next : Value) (rest : List Value) :
    ¬ entries.Blocks (key :: next :: rest) := by
  rintro ⟨before, _, after, value, same, found, -⟩
  rcases before with _ | ⟨first, _ | ⟨second, before⟩⟩
  · cases found
  · cases same
    cases absent.symm.trans found
  · obtain ⟨rfl, -⟩ := List.cons.inj same
    rw [lookup?_cons_of_not_map (fun inner here => nomatch absent.symm.trans here)] at found
    cases found

theorem blocks_cons_iff {next : Value} {rest : List Value} (found : entries.get? key = some (.map inner)) :
    entries.Blocks (key :: next :: rest) ↔ Entries.Blocks inner (next :: rest) := by
  constructor
  · rintro ⟨before, last, after, value, same, there, plain⟩
    rcases before with _ | ⟨first, _ | ⟨second, before⟩⟩
    · cases there
    · cases same
      exact absurd ⟨inner, (Option.some.inj (found.symm.trans there)).symm⟩ plain
    · obtain ⟨rfl, behind⟩ := List.cons.inj same
      rw [lookup?_cons_of_map found] at there
      exact ⟨second :: before, last, after, value, behind, there, plain⟩
  · rintro ⟨before, last, after, value, same, there, plain⟩
    rcases before with _ | ⟨second, before⟩
    · cases there
    · refine ⟨key :: second :: before, last, after, value, by rw [same]; rfl, ?_, plain⟩
      rwa [lookup?_cons_of_map found]

theorem not_overrides_iff :
    ¬ entries.Overrides path ↔ Builtin.Map.lookup? entries path = none ∧ ¬ entries.Blocks path := by
  rw [Overrides, not_or, not_exists, ← Option.eq_none_iff_forall_ne_some]

end Blocking

section Merging

/-- What a deep merge has at a path, by what the two maps have there. -/
theorem lookup?_deepMerge (entries : Entries) (sound : other.Sound) (path : List Value) :
    (∀ value, lookup? other path = some value →
      lookup? (entries.deepMerge other) path = some (deepValue (lookup? entries path) value)) ∧
    (lookup? other path = none → other.Blocks path → lookup? (entries.deepMerge other) path = none) ∧
    (lookup? other path = none → ¬ other.Blocks path →
      lookup? (entries.deepMerge other) path = lookup? entries path) := by
  induction path generalizing entries other with
  | nil => exact ⟨nofun, fun _ _ => rfl, fun _ _ => rfl⟩
  | cons key rest ih =>
    have here := sound.unique.get?_deepMerge entries key
    rcases rest with _ | ⟨next, rest⟩
    · refine ⟨fun value found => ?_, fun _ blocked => absurd blocked not_blocks_singleton,
        fun absent _ => ?_⟩
      · have own : other.get? key = some value := found
        rw [own] at here
        exact here
      · have own : other.get? key = none := absent
        rw [own] at here
        exact here
    cases own : other.get? key with
    | none =>
      have same : (entries.deepMerge other).get? key = entries.get? key := by rw [here, own]; rfl
      have unblocked := not_blocks_of_get?_eq_none own next rest
      have absent := lookup?_cons_of_not_map (fun inner found => nomatch own.symm.trans found) next rest
      refine ⟨fun value found => ?_, fun _ blocked => absurd blocked unblocked, fun _ _ => ?_⟩
      · cases absent.symm.trans found
      · rw [lookup?_cons, same, ← lookup?_cons]
    | some value =>
      have merged : (entries.deepMerge other).get? key = some (deepValue (entries.get? key) value) := by
        rw [here, own]; rfl
      by_cases nested : value.IsMap
      · obtain ⟨inner, rfl⟩ := nested
        have innerSound : Entries.Sound inner := sound_map_iff.mp (sound.get? own)
        rw [lookup?_cons_of_map own, blocks_cons_iff own]
        by_cases both : ∃ first, entries.get? key = some (.map first)
        · obtain ⟨first, mine⟩ := both
          rw [mine, deepValue_map] at merged
          rw [lookup?_cons_of_map merged, lookup?_cons_of_map mine]
          exact ih first innerSound
        · -- The first map has no map here, so it has nothing on the path, and the second has all.
          rw [not_exists] at both
          rw [deepValue_of_not_both fun first _ mine => absurd mine (both first)] at merged
          rw [lookup?_cons_of_map merged, lookup?_cons_of_not_map both]
          refine ⟨fun value found => ?_, fun absent _ => absent, fun absent _ => absent⟩
          have taken : deepValue none value = value := deepValue_of_not_both fun _ _ mine => nomatch mine
          rw [found, taken]
      · have plain (inner : Entries) : value ≠ .map inner := fun same => nested ⟨inner, same⟩
        rw [deepValue_of_not_both fun _ inner _ => plain inner] at merged
        have absent := lookup?_cons_of_not_map
          (fun inner found => plain inner (Option.some.inj (own.symm.trans found))) next rest
        refine ⟨fun value found => ?_, fun _ _ => ?_,
          fun _ free => absurd (blocks_of_get? own nested) free⟩
        · cases absent.symm.trans found
        · exact lookup?_cons_of_not_map
            (fun inner found => plain inner (Option.some.inj (merged.symm.trans found))) next rest

/-- What the second map has, other than a map, is there. -/
theorem lookup?_deepMerge_of_second (entries : Entries) (sound : other.Sound)
    (found : lookup? other path = some value) (plain : ¬ value.IsMap) :
    lookup? (entries.deepMerge other) path = some value := by
  have apart (first last : Entries) (_ : lookup? entries path = some (.map first)) : value ≠ .map last :=
    fun same => plain ⟨last, same⟩
  rw [(lookup?_deepMerge entries sound path).1 value found, deepValue_of_not_both apart]

/-- Where the second map overrides nothing, there is what the first one has. -/
theorem lookup?_deepMerge_of_first (entries : Entries) (sound : other.Sound)
    (free : ¬ other.Overrides path) :
    lookup? (entries.deepMerge other) path = lookup? entries path := by
  obtain ⟨absent, unblocked⟩ := not_overrides_iff.mp free
  exact (lookup?_deepMerge entries sound path).2.2 absent unblocked

/-- Whatever is there, other than a map, one of the two has. -/
theorem lookup?_deepMerge_cases (sound : other.Sound)
    (found : lookup? (entries.deepMerge other) path = some value) (plain : ¬ value.IsMap) :
    lookup? other path = some value ∨ lookup? entries path = some value ∧ ¬ other.Overrides path := by
  obtain ⟨present, blocked, -⟩ := lookup?_deepMerge entries sound path
  cases there : lookup? other path with
  | some own =>
    have joined := Option.some.inj ((present own there).symm.trans found)
    have apart (first last : Entries) (nested : lookup? entries path = some (.map first)) :
        own ≠ .map last := by
      rintro rfl
      rw [nested, deepValue_map] at joined
      exact plain ⟨_, joined.symm⟩
    rw [deepValue_of_not_both apart] at joined
    exact .inl (congrArg some joined)
  | none =>
    have free : ¬ other.Overrides path := by
      rw [not_overrides_iff]
      refine ⟨there, fun block => ?_⟩
      cases (blocked there block).symm.trans found
    exact .inr ⟨(lookup?_deepMerge_of_first entries sound free).symm.trans found, free⟩

/-- A sound value merged into itself is itself. -/
theorem deepValue_self (sound : value.Sound) : deepValue (some value) value = value := by
  induction sound with
  | @map entries unique keys values _ ih =>
    have same : Entries.joined entries entries = entries := by
      refine (List.map_congr_left fun entry member => ?_).trans (List.map_id _)
      rw [unique.get?_of_mem member, ih entry member]
      rfl
    rw [deepValue_map, unique.deepMerge_eq, same, unique.merge_self]
  | _ => exact deepValue_of_not_both nofun

theorem Sound.deepMerge_self (sound : entries.Sound) : entries.deepMerge entries = entries := by
  have same := deepValue_self (sound_map_iff.mpr sound)
  rw [deepValue_map] at same
  exact Value.map.inj same

/-- Where no key has a map on both sides, a deep merge is a merge. -/
theorem Unique.deepMerge_eq_merge (unique : other.Unique)
    (apart : ∀ key first second, entries.get? key = some (.map first) →
      other.get? key ≠ some (.map second)) : entries.deepMerge other = entries.merge other := by
  have same : entries.joined other = other := by
    refine (List.map_congr_left fun entry member => ?_).trans (List.map_id _)
    rw [deepValue_of_not_both fun first second own given =>
      apart entry.1 first second own (given ▸ unique.get?_of_mem member)]
    rfl
  rw [unique.deepMerge_eq, same]

end Merging

section Levels

/-- What a map of a deep merge holds under its names comes from the maps at the same place. -/
theorem names_level (sound : other.Sound) (reached : (entries.deepMerge other).level? path = some inner) :
    inner.names = ((entries.level? path).getD []).names ++
      ((other.level? path).getD []).names.filter (· ∉ ((entries.level? path).getD []).names) := by
  rcases path with _ | ⟨key, rest⟩
  · cases reached
    exact sound.unique.names_deepMerge entries
  have longer : key :: rest ≠ [] := List.cons_ne_nil _ _
  have level_of_map {own : Entries} {map : Entries} (found : lookup? own (key :: rest) = some (.map map)) :
      (own.level? (key :: rest)).getD [] = map := by
    rw [(level?_eq_some_iff longer).mpr found, Option.getD_some]
  have level_of_not_map {own : Entries}
      (plain : ∀ map, lookup? own (key :: rest) ≠ some (.map map)) :
      (own.level? (key :: rest)).getD [] = [] := by
    rw [Option.eq_none_iff_forall_ne_some.mpr fun map level =>
      plain map ((level?_eq_some_iff longer).mp level), Option.getD_none]
  have merged := (level?_eq_some_iff longer).mp reached
  obtain ⟨present, blocked, free⟩ := lookup?_deepMerge entries sound (key :: rest)
  cases second : lookup? other (key :: rest) with
  | none =>
    rw [level_of_not_map fun map found => nomatch second.symm.trans found]
    by_cases block : other.Blocks (key :: rest)
    · cases (blocked second block).symm.trans merged
    · rw [level_of_map ((free second block).symm.trans merged)]
      exact (List.append_nil _).symm
  | some value =>
    have joined := Option.some.inj ((present value second).symm.trans merged)
    by_cases both : ∃ first last, lookup? entries (key :: rest) = some (.map first) ∧ value = .map last
    · obtain ⟨first, last, mine, rfl⟩ := both
      have innerSound : Entries.Sound last := sound_map_iff.mp (sound.lookup? second)
      rw [mine, deepValue_map] at joined
      rw [level_of_map mine, level_of_map second, ← Value.map.inj joined]
      exact innerSound.unique.names_deepMerge first
    · have apart (first last : Entries) (mine : lookup? entries (key :: rest) = some (.map first)) :
          value ≠ .map last := fun same => both ⟨first, last, mine, same⟩
      rw [deepValue_of_not_both apart] at joined
      rw [level_of_not_map fun map found => apart map inner found joined,
        level_of_map (second.trans (congrArg some joined))]
      exact (List.filter_eq_self.mpr fun _ _ => by simp [names]).symm

end Levels

/-- A deep merge merges where both maps hold maps. What is no map comes, at each path, from the second map,
or from the first one where the second overrides nothing, and there is nothing else; each map lists the
names of the first and then the new ones of the second. A map merged into itself stays, and without maps on
both sides of a key the deep merge is a merge. -/
theorem deepMerge_by_paths (first : entries.Sound) (second : other.Sound) :
    (∀ path value, lookup? other path = some value → ¬ value.IsMap →
      lookup? (entries.deepMerge other) path = some value) ∧
    (∀ path value, lookup? entries path = some value → ¬ value.IsMap → ¬ other.Overrides path →
      lookup? (entries.deepMerge other) path = some value) ∧
    (∀ path value, lookup? (entries.deepMerge other) path = some value → ¬ value.IsMap →
      lookup? other path = some value ∨
        lookup? entries path = some value ∧ ¬ other.Overrides path) ∧
    (∀ path inner, (entries.deepMerge other).level? path = some inner →
      inner.names = ((entries.level? path).getD []).names ++
        ((other.level? path).getD []).names.filter (· ∉ ((entries.level? path).getD []).names)) ∧
    entries.deepMerge entries = entries ∧
    ((∀ key own added, entries.get? key = some (.map own) → other.get? key ≠ some (.map added)) →
      entries.deepMerge other = entries.merge other) := by
  refine ⟨?_, ?_, ?_, ?_, first.deepMerge_self, second.unique.deepMerge_eq_merge⟩
  · intro path value found plain
    exact lookup?_deepMerge_of_second entries second found plain
  · intro path value found _ free
    rw [lookup?_deepMerge_of_first entries second free, found]
  · intro path value found plain
    exact lookup?_deepMerge_cases second found plain
  · intro path inner reached
    exact names_level second reached

/-- Two themes: below two maps on both sides each of them has a value of its own. -/
theorem deepMerge_by_paths_theme :
    let theme : Entries :=
      [(.unquoted "colors", .map [(.unquoted "text", .map [(.unquoted "main", .unquoted "black")]),
        (.unquoted "line", .null)]), (.unquoted "size", .unquoted "small")]
    let dark : Entries :=
      [(.unquoted "size", .map [(.unquoted "line", .bool true)]),
        (.quoted "colors", .map [(.unquoted "line", .unquoted "white"),
          (.unquoted "text", .map [(.unquoted "soft", .unquoted "grey")])])]
    let main := [.unquoted "colors", .unquoted "text", .unquoted "main"]
    let soft := [.unquoted "colors", .unquoted "text", .unquoted "soft"]
    (theme.Sound ∧ dark.Sound) ∧ ¬ dark.Overrides main ∧
      lookup? (theme.deepMerge dark) main = some (.unquoted "black") ∧
      lookup? (theme.deepMerge dark) soft = some (.unquoted "grey") ∧ theme.deepMerge theme = theme := by
  intro theme dark main soft
  have sound : theme.Sound ∧ dark.Sound := by
    simp +decide [theme, dark, sound_iff, sound_map_iff, Value.unquoted, Value.quoted, Value.Sound.null,
      Value.Sound.bool, Value.Sound.string]
  have free : ¬ dark.Overrides main := by
    rintro (⟨value, found⟩ | block)
    · cases found
    · have inside := (blocks_cons_iff rfl).mp block
      exact not_blocks_singleton ((blocks_cons_iff rfl).mp inside)
  have plain (text : String) : ¬ (Value.unquoted text).IsMap := nofun
  obtain ⟨second, first, -, -, itself, -⟩ := deepMerge_by_paths sound.1 sound.2
  exact ⟨sound, free, first main _ (by rfl) (plain _) free, second soft _ (by rfl) (plain _), itself⟩

end Entries

end Scss
