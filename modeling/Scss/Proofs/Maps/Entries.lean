import Mathlib.Data.List.Basic
import Mathlib.Data.List.Nodup
import Mathlib.Data.List.Perm.Subperm
import Scss.Value.Map

/-! Maps by the names of their entries. A map with one entry for each name is given by the list of its names
and by the entry of each name, so an operation is described by what it does to these two. Merging reads
both maps only as they are at the start: what a map gets under a name does not depend on what it has
got under the others before. -/
namespace Scss.Entries

def names (entries : Entries) : List String := entries.map fun entry => entry.1.bare

def entryOf? (entries : Entries) (name : String) : Option (Value × Value) :=
  entries.find? fun entry => entry.1.bare = name

def Unique (entries : Entries) : Prop := entries.names.Nodup

instance (entries : Entries) : Decidable entries.Unique := inferInstanceAs (Decidable (List.Nodup _))

variable {entries other : Entries} {key value : Value} {name : String} {entry : Value × Value}

theorem get?_eq (entries : Entries) (key : Value) :
    entries.get? key = (entries.entryOf? key.bare).map Prod.snd := rfl

theorem names_cons (entry : Value × Value) (rest : Entries) :
    Entries.names (entry :: rest) = entry.1.bare :: rest.names := rfl

section Finding

theorem entryOf?_cons (entry : Value × Value) (rest : Entries) (name : String) :
    Entries.entryOf? (entry :: rest) name =
      if entry.1.bare = name then some entry else rest.entryOf? name := by
  by_cases same : entry.1.bare = name <;> simp [entryOf?, same]

theorem get?_cons (entry : Value × Value) (rest : Entries) (key : Value) :
    Entries.get? (entry :: rest) key =
      if entry.1.bare = key.bare then some entry.2 else rest.get? key := by
  rw [get?_eq, entryOf?_cons, get?_eq]
  split <;> rfl

theorem mem_of_entryOf? (found : entries.entryOf? name = some entry) : entry ∈ entries :=
  List.mem_of_find?_eq_some found

theorem bare_of_entryOf? (found : entries.entryOf? name = some entry) : entry.1.bare = name := by
  simpa using List.find?_some found

theorem entryOf?_eq_none_iff : entries.entryOf? name = none ↔ name ∉ entries.names := by
  simp [entryOf?, names]

theorem mem_names_of_mem (member : entry ∈ entries) : entry.1.bare ∈ entries.names :=
  List.mem_map_of_mem member

theorem unique_nil : Unique [] := List.nodup_nil

theorem unique_cons {rest : Entries} :
    Entries.Unique (entry :: rest) ↔ entry.1.bare ∉ rest.names ∧ rest.Unique := List.nodup_cons

/-- Each entry of a map is the one of its name. -/
theorem Unique.entryOf?_of_mem (unique : entries.Unique) (member : entry ∈ entries) :
    entries.entryOf? entry.1.bare = some entry := by
  induction entries with
  | nil => cases member
  | cons first rest ih =>
    obtain ⟨unlisted, others⟩ := unique_cons.mp unique
    rw [entryOf?_cons]
    rcases List.mem_cons.mp member with rfl | behind
    · rw [if_pos rfl]
    · have apart : first.1.bare ≠ entry.1.bare := fun same => unlisted (same ▸ mem_names_of_mem behind)
      rw [if_neg apart, ih others behind]

theorem Unique.entryOf?_eq_some_iff (unique : entries.Unique) :
    entries.entryOf? name = some entry ↔ entry ∈ entries ∧ entry.1.bare = name := by
  constructor
  · exact fun found => ⟨mem_of_entryOf? found, bare_of_entryOf? found⟩
  · rintro ⟨member, rfl⟩
    exact unique.entryOf?_of_mem member

theorem Unique.get?_of_mem (unique : entries.Unique) (member : entry ∈ entries) :
    entries.get? entry.1 = some entry.2 := by
  rw [get?_eq, unique.entryOf?_of_mem member, Option.map_some]

theorem exists_mem_of_get? (found : entries.get? key = some value) :
    ∃ own, own.bare = key.bare ∧ (own, value) ∈ entries := by
  obtain ⟨⟨own, _⟩, present, rfl⟩ := Option.map_eq_some_iff.mp found
  exact ⟨own, bare_of_entryOf? present, mem_of_entryOf? present⟩

theorem get?_congr {key other : Value} (same : key.bare = other.bare) :
    entries.get? key = entries.get? other := by
  rw [get?_eq, get?_eq, same]

/-- A map is the list of the entries of its names. -/
theorem Unique.filterMap_entryOf? (unique : entries.Unique) :
    entries.names.filterMap entries.entryOf? = entries := by
  rw [names, List.filterMap_map]
  exact (List.filterMap_congr fun entry member => unique.entryOf?_of_mem member).trans List.filterMap_some

/-- Maps with the same names in the same order and the same entry for each name are the same. -/
theorem Unique.ext (unique : entries.Unique) (named : entries.names = other.names)
    (found : entries.entryOf? = other.entryOf?) : entries = other := by
  have unique' : other.Unique := by rwa [Unique, ← named]
  rw [← unique.filterMap_entryOf?, ← unique'.filterMap_entryOf?, named, found]

/-- A map whose names are all in a map of the same size has the names of that map. -/
theorem Unique.names_perm (unique : entries.Unique) (size : entries.length = other.length)
    (found : ∀ entry ∈ entries, ∃ value, other.get? entry.1 = some value) :
    entries.names.Perm other.names := by
  have inside : entries.names ⊆ other.names := by
    intro name listed
    obtain ⟨entry, member, rfl⟩ := List.mem_map.mp listed
    obtain ⟨value, present⟩ := found entry member
    obtain ⟨own, same, there⟩ := exists_mem_of_get? present
    exact same ▸ mem_names_of_mem there
  refine (List.subperm_of_subset unique inside).perm_of_length_le (Nat.le_of_eq ?_)
  rw [names, names, List.length_map, List.length_map, size]

/-- Where each entry of a map finds a value in another map of the same size, each entry of the other one is
found, and by the entry that it finds. -/
theorem Unique.found_back (unique : entries.Unique) (alike : Value → Value → Bool)
    (size : entries.length = other.length)
    (found : ∀ entry ∈ entries, ∃ value, other.get? entry.1 = some value ∧ alike entry.2 value = true)
    {behind : Value × Value} (there : behind ∈ other) :
    ∃ entry ∈ entries, entries.get? behind.1 = some entry.2 ∧ alike entry.2 behind.2 = true := by
  have perm := unique.names_perm size fun entry member => (found entry member).imp fun _ => And.left
  have unique' : other.Unique := perm.nodup_iff.mp unique
  obtain ⟨entry, member, named⟩ := List.mem_map.mp (perm.mem_iff.mpr (mem_names_of_mem there))
  obtain ⟨value, present, close⟩ := found entry member
  rw [get?_congr named, unique'.get?_of_mem there] at present
  refine ⟨entry, member, ?_, Option.some.inj present ▸ close⟩
  rw [← get?_congr named, unique.get?_of_mem member]

end Finding

section Inserting

/-- A new name comes behind the others, and a name that is there keeps its place. -/
theorem names_insert (entries : Entries) (key value : Value) :
    (entries.insert key value).names =
      if key.bare ∈ entries.names then entries.names else entries.names ++ [key.bare] := by
  induction entries with
  | nil => rfl
  | cons entry rest ih =>
    rw [names_cons]
    by_cases same : entry.1.bare = key.bare
    · rw [insert, if_pos (by simpa [named] using same), names_cons, same,
        if_pos (List.mem_cons_self ..)]
    · rw [insert, if_neg (by simpa [named] using same), names_cons, ih]
      by_cases listed : key.bare ∈ Entries.names rest
      · rw [if_pos listed, if_pos (List.mem_cons_of_mem _ listed)]
      · rw [if_neg listed, List.cons_append,
          if_neg (List.not_mem_cons_of_ne_of_not_mem (Ne.symm same) listed)]

/-- The entry of a name becomes what was put in, key and value, and the others stay. -/
theorem entryOf?_insert (entries : Entries) (key value : Value) (name : String) :
    (entries.insert key value).entryOf? name =
      if key.bare = name then some (key, value) else entries.entryOf? name := by
  induction entries with
  | nil => rw [insert, entryOf?_cons]
  | cons entry rest ih =>
    by_cases same : entry.1.bare = key.bare
    · rw [insert, if_pos (by simpa [named] using same), entryOf?_cons, entryOf?_cons, same]
      split <;> rfl
    · rw [insert, if_neg (by simpa [named] using same), entryOf?_cons, entryOf?_cons, ih]
      by_cases here : entry.1.bare = name
      · rw [if_pos here, if_pos here, if_neg fun there => same (here.trans there.symm)]
      · rw [if_neg here, if_neg here]

theorem Unique.insert (unique : entries.Unique) (key value : Value) :
    (entries.insert key value).Unique := by
  rw [Unique, names_insert]
  split
  · exact unique
  · rename_i unlisted
    exact List.nodup_append.mpr ⟨unique, List.nodup_singleton _, by
      rintro name listed _ new rfl
      exact unlisted (List.mem_singleton.mp new ▸ listed)⟩

theorem mem_insert (member : entry ∈ entries.insert key value) :
    entry = (key, value) ∨ entry ∈ entries := by
  induction entries with
  | nil => exact .inl (List.mem_singleton.mp member)
  | cons first rest ih =>
    rw [Entries.insert] at member
    split at member
    · exact (List.mem_cons.mp member).imp_right (List.mem_cons_of_mem _)
    · rcases List.mem_cons.mp member with rfl | behind
      · exact .inr (List.mem_cons_self ..)
      · exact (ih behind).imp_right (List.mem_cons_of_mem _)

end Inserting

section Erasing

/-- The entry of a name is left out, and the others stay in their order. -/
theorem Unique.erase_eq_filter (unique : entries.Unique) (key : Value) :
    entries.erase key = entries.filter fun entry => !named key entry := by
  induction entries with
  | nil => rfl
  | cons entry rest ih =>
    obtain ⟨unlisted, others⟩ := unique_cons.mp unique
    rw [Entries.erase]
    by_cases same : named key entry
    · -- No entry behind the erased one has its name.
      have kept : ∀ behind ∈ rest, (!named key behind) = true := by
        intro behind member
        have here : entry.1.bare = key.bare := by simpa [named] using same
        have apart : behind.1.bare ≠ key.bare := fun there =>
          unlisted (here.trans there.symm ▸ mem_names_of_mem member)
        simpa [named] using apart
      rw [List.eraseP_cons_of_pos same, List.filter_cons_of_neg (by simpa using same),
        List.filter_eq_self.mpr kept]
    · rw [List.eraseP_cons_of_neg same, List.filter_cons_of_pos (by simpa using same)]
      exact congrArg _ (ih others)

theorem Unique.names_erase (unique : entries.Unique) (key : Value) :
    (entries.erase key).names = entries.names.filter (· ≠ key.bare) := by
  rw [unique.erase_eq_filter, names, names, List.filter_map]
  congr 1
  refine List.filter_congr fun entry _ => ?_
  simp [named]

theorem Unique.entryOf?_erase (unique : entries.Unique) (key : Value) (name : String) :
    (entries.erase key).entryOf? name = if key.bare = name then none else entries.entryOf? name := by
  rw [unique.erase_eq_filter, entryOf?, List.find?_filter, entryOf?]
  by_cases same : key.bare = name
  · rw [if_pos same, List.find?_eq_none]
    simp +contextual [named, same]
  · rw [if_neg same]
    congr 1
    funext entry
    by_cases here : entry.1.bare = name
    · simp [named, here, Ne.symm same]
    · simp [here]

theorem Unique.erase (unique : entries.Unique) (key : Value) : (entries.erase key).Unique := by
  rw [Unique, unique.names_erase]
  exact unique.filter _

end Erasing

section Merging

theorem merge_cons (entries : Entries) (entry : Value × Value) (rest : Entries) :
    entries.merge (entry :: rest) = (entries.insert entry.1 entry.2).merge rest := rfl

theorem Unique.merge (unique : entries.Unique) (other : Entries) : (entries.merge other).Unique := by
  induction other generalizing entries with
  | nil => exact unique
  | cons entry rest ih => exact ih (unique.insert entry.1 entry.2)

theorem Unique.ofPairs (pairs : List (Value × Value)) : (Entries.ofPairs pairs).Unique :=
  unique_nil.merge pairs

theorem mem_merge (member : entry ∈ entries.merge other) : entry ∈ entries ∨ entry ∈ other := by
  induction other generalizing entries with
  | nil => exact .inl member
  | cons first rest ih =>
    rw [merge_cons] at member
    rcases ih member with own | behind
    · rcases mem_insert own with rfl | before
      · exact .inr (List.mem_cons_self ..)
      · exact .inl before
    · exact .inr (List.mem_cons_of_mem _ behind)

/-- The names of the first map come in their places, and behind them the new names of the second. -/
theorem Unique.names_merge (unique : other.Unique) (entries : Entries) :
    (entries.merge other).names = entries.names ++ other.names.filter (· ∉ entries.names) := by
  induction other generalizing entries with
  | nil => exact (List.append_nil _).symm
  | cons entry rest ih =>
    obtain ⟨unlisted, others⟩ := unique_cons.mp unique
    rw [merge_cons, ih others, names_insert, names_cons]
    by_cases listed : entry.1.bare ∈ entries.names
    · rw [if_pos listed, List.filter_cons_of_neg (by simpa using listed)]
    · rw [if_neg listed, List.filter_cons_of_pos (by simpa using listed), List.append_assoc,
        List.singleton_append]
      congr 2
      refine List.filter_congr fun name member => ?_
      have apart : name ≠ entry.1.bare := by
        rintro rfl
        exact unlisted member
      simp [apart]

/-- The entry of a name is that of the second map, and otherwise that of the first. -/
theorem Unique.entryOf?_merge (unique : other.Unique) (entries : Entries) (name : String) :
    (entries.merge other).entryOf? name = (other.entryOf? name).or (entries.entryOf? name) := by
  induction other generalizing entries with
  | nil => rfl
  | cons entry rest ih =>
    obtain ⟨unlisted, others⟩ := unique_cons.mp unique
    rw [merge_cons, ih others, entryOf?_insert, entryOf?_cons]
    by_cases here : entry.1.bare = name
    · rw [if_pos here, if_pos here, entryOf?_eq_none_iff.mpr (here ▸ unlisted), Option.none_or,
        Option.some_or]
    · rw [if_neg here, if_neg here]

theorem Unique.get?_merge (unique : other.Unique) (entries : Entries) (key : Value) :
    (entries.merge other).get? key = (other.get? key).or (entries.get? key) := by
  rw [get?_eq, get?_eq, get?_eq, unique.entryOf?_merge, Option.map_or]

theorem Unique.nil_merge (unique : entries.Unique) : Entries.merge [] entries = entries := by
  have named : (Entries.merge [] entries).names = entries.names := by
    rw [unique.names_merge]
    exact List.filter_eq_self.mpr fun _ _ => by simp [names]
  refine Unique.ext (Unique.ofPairs entries) named (funext fun name => ?_)
  rw [unique.entryOf?_merge]
  exact Option.or_none

theorem Unique.merge_self (unique : entries.Unique) : entries.merge entries = entries := by
  have named : (entries.merge entries).names = entries.names := by
    rw [unique.names_merge, List.filter_eq_nil_iff.mpr (by simp), List.append_nil]
  refine Unique.ext (unique.merge _) named (funext fun name => ?_)
  rw [unique.entryOf?_merge, Option.or_self]

theorem Unique.merge_assoc {third : Entries} (first : entries.Unique) (second : other.Unique)
    (last : third.Unique) :
    (entries.merge other).merge third = entries.merge (other.merge third) := by
  have named : ((entries.merge other).merge third).names = (entries.merge (other.merge third)).names := by
    rw [last.names_merge, second.names_merge, (second.merge third).names_merge, last.names_merge,
      List.filter_append, List.filter_filter, List.append_assoc]
    congr 2
    refine List.filter_congr fun name _ => ?_
    by_cases own : name ∈ entries.names <;> simp [own]
  refine Unique.ext ((first.merge other).merge third) named (funext fun name => ?_)
  rw [last.entryOf?_merge, second.entryOf?_merge, (second.merge third).entryOf?_merge, last.entryOf?_merge,
    Option.or_assoc]

/-- A map of pairs that have different names is made of just these pairs. -/
theorem Unique.ofPairs_self (unique : entries.Unique) : Entries.ofPairs entries = entries :=
  unique.nil_merge

end Merging

section DeepMerging

/-- The entries of the second map as they come into the first one: the value under a key that both have
a map under is the two maps merged. -/
def joined (entries other : Entries) : Entries :=
  other.map fun entry => (entry.1, deepValue (entries.get? entry.1) entry.2)

theorem names_joined (entries other : Entries) : (entries.joined other).names = other.names := by
  simp [joined, names]

theorem Unique.joined (unique : other.Unique) (entries : Entries) : (entries.joined other).Unique := by
  rw [Unique, names_joined]
  exact unique

theorem get?_joined (entries other : Entries) (key : Value) :
    (entries.joined other).get? key = (other.get? key).map (deepValue (entries.get? key)) := by
  induction other with
  | nil => rfl
  | cons entry rest ih =>
    rw [joined, List.map_cons, get?_cons, get?_cons]
    by_cases here : entry.1.bare = key.bare
    · rw [if_pos here, if_pos here, get?_congr here]
      rfl
    · rw [if_neg here, if_neg here]
      exact ih

/-- What a deep merge reads in the map that it is changing is what the map had at the start. -/
theorem Unique.deepMerge_eq (unique : other.Unique) (entries : Entries) :
    entries.deepMerge other = entries.merge (entries.joined other) := by
  induction other generalizing entries with
  | nil => rw [deepMerge]; rfl
  | cons entry rest ih =>
    obtain ⟨key, value⟩ := entry
    obtain ⟨unlisted, others⟩ := unique_cons.mp unique
    rw [deepMerge, ih others]
    have same : (entries.insert key (deepValue (entries.get? key) value)).joined rest =
        entries.joined rest := by
      refine List.map_congr_left fun behind member => ?_
      have apart : key.bare ≠ behind.1.bare := fun same =>
        unlisted (same ▸ mem_names_of_mem member)
      simp only [get?_eq, entryOf?_insert, if_neg apart]
    rw [same]
    rfl

theorem deepValue_map (own other : Entries) :
    deepValue (some (.map own)) (.map other) = .map (own.deepMerge other) := by
  rw [deepValue]

/-- Unless both are maps, the value of the second map is taken as it is. -/
theorem deepValue_of_not_both {own : Option Value}
    (apart : ∀ entries other, own = some (.map entries) → value ≠ .map other) :
    deepValue own value = value := by
  cases value with
  | map other =>
    unfold deepValue
    split
    · exact absurd rfl (apart _ other rfl)
    · rfl
  | _ => unfold deepValue; rfl

theorem Unique.names_deepMerge (unique : other.Unique) (entries : Entries) :
    (entries.deepMerge other).names = entries.names ++ other.names.filter (· ∉ entries.names) := by
  rw [unique.deepMerge_eq, (unique.joined entries).names_merge, names_joined]

theorem Unique.get?_deepMerge (unique : other.Unique) (entries : Entries) (key : Value) :
    (entries.deepMerge other).get? key =
      ((other.get? key).map (deepValue (entries.get? key))).or (entries.get? key) := by
  rw [unique.deepMerge_eq, (unique.joined entries).get?_merge, get?_joined]

end DeepMerging

end Scss.Entries
