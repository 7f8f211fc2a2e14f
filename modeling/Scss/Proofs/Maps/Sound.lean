import Scss.Builtin.Map
import Scss.Proofs.Maps.History

/-! Values whose maps have one entry for each name, at any depth: in members of lists, in keys and in values
of maps. Making maps of such values comes to such values again. -/
namespace Scss

/-- Every map in the value has one entry for each name. -/
inductive Value.Sound : Value → Prop where
  | null : Sound .null
  | bool (value : Bool) : Sound (.bool value)
  | number (value : Number) : Sound (.number value)
  | string (text : String) (quoted : Bool) : Sound (.string text quoted)
  | color (value : Color) : Sound (.color value)
  | list {items : List Value} (separator : Separator) (bracketed : Bool)
      (members : ∀ item ∈ items, Sound item) : Sound (.list items separator bracketed)
  | map {entries : List (Value × Value)} (unique : Entries.Unique entries)
      (keys : ∀ entry ∈ entries, Sound entry.1) (values : ∀ entry ∈ entries, Sound entry.2) :
      Sound (.map entries)
  | function (reference : Reference) : Sound (.function reference)
  | mixin (reference : Reference) : Sound (.mixin reference)

namespace Entries

/-- One entry for each name, here and in the keys and values. -/
structure Sound (entries : Entries) : Prop where
  unique : entries.Unique
  keys : ∀ entry ∈ entries, entry.1.Sound
  values : ∀ entry ∈ entries, entry.2.Sound

variable {entries other : Entries} {key value : Value}

theorem sound_map_iff : (Value.map entries).Sound ↔ Sound entries := by
  constructor
  · rintro (_ | _ | _ | _ | _ | _ | ⟨unique, keys, values⟩)
    exact ⟨unique, keys, values⟩
  · exact fun sound => .map sound.unique sound.keys sound.values

theorem sound_iff :
    entries.Sound ↔ entries.Unique ∧ ∀ entry ∈ entries, entry.1.Sound ∧ entry.2.Sound :=
  ⟨fun sound => ⟨sound.unique, fun entry member => ⟨sound.keys entry member, sound.values entry member⟩⟩,
    fun ⟨unique, each⟩ => ⟨unique, fun entry member => (each entry member).1,
      fun entry member => (each entry member).2⟩⟩

theorem Sound.get? (sound : entries.Sound) (found : entries.get? key = some value) : value.Sound := by
  obtain ⟨own, -, member⟩ := exists_mem_of_get? found
  exact sound.values _ member

theorem Sound.insert (sound : entries.Sound) (name : key.Sound) (added : value.Sound) :
    (entries.insert key value).Sound := by
  refine sound_iff.mpr ⟨sound.unique.insert key value, fun entry member => ?_⟩
  rcases mem_insert member with rfl | own
  · exact ⟨name, added⟩
  · exact (sound_iff.mp sound).2 entry own

theorem Sound.erase (sound : entries.Sound) (key : Value) : (entries.erase key).Sound := by
  refine sound_iff.mpr ⟨sound.unique.erase key, fun entry member => ?_⟩
  exact (sound_iff.mp sound).2 entry (List.mem_of_mem_eraseP member)

theorem Sound.merge (sound : entries.Sound)
    (added : ∀ entry ∈ other, entry.1.Sound ∧ entry.2.Sound) : (entries.merge other).Sound := by
  refine sound_iff.mpr ⟨sound.unique.merge other, fun entry member => ?_⟩
  rcases mem_merge member with own | new
  · exact (sound_iff.mp sound).2 entry own
  · exact added entry new

theorem sound_nil : Sound [] := ⟨unique_nil, nofun, nofun⟩

theorem sound_ofPairs {pairs : List (Value × Value)}
    (given : ∀ pair ∈ pairs, pair.1.Sound ∧ pair.2.Sound) : (ofPairs pairs).Sound :=
  sound_nil.merge given

/-- What a sound value comes to in a deep merge is sound. -/
theorem sound_deepValue (sound : value.Sound) :
    ∀ own : Option Value, (∀ found ∈ own, found.Sound) → (deepValue own value).Sound := by
  induction sound with
  | @map other unique keys values _ ih =>
    intro own clean
    rcases own with _ | (_ | _ | _ | _ | _ | _ | entries | _ | _)
    case some.map =>
      have first : Entries.Sound entries := sound_map_iff.mp (clean _ rfl)
      rw [deepValue_map, sound_map_iff, unique.deepMerge_eq]
      refine first.merge fun entry member => ?_
      obtain ⟨pair, listed, rfl⟩ := List.mem_map.mp member
      exact ⟨keys pair listed, ih pair listed _ fun _ => first.get?⟩
    all_goals exact .map unique keys values
  | list separator bracketed members _ => exact fun _ _ => .list separator bracketed members
  | _ => intro _ _; constructor

theorem Sound.deepMerge (sound : entries.Sound) (second : other.Sound) :
    (entries.deepMerge other).Sound := by
  have merged := sound_deepValue (sound_map_iff.mpr second) (some (.map entries))
    fun _ same => Option.some.inj same ▸ sound_map_iff.mpr sound
  rwa [deepValue_map, sound_map_iff] at merged

def Construction.given : Construction → List Value
  | empty => []
  | insert made key value => key :: value :: made.given
  | erase made _ => made.given
  | merge made other | deepMerge made other => made.given ++ other.given
  | ofPairs pairs => pairs.flatMap fun pair => [pair.1, pair.2]

/-- Maps that are made of sound keys and values are sound. -/
theorem Construction.sound (made : Construction) (given : ∀ value ∈ made.given, value.Sound) :
    made.entries.Sound := by
  induction made with
  | empty => exact sound_nil
  | insert made key value ih =>
    obtain ⟨name, added, others⟩ : key.Sound ∧ value.Sound ∧ ∀ other ∈ made.given, other.Sound := by
      simpa [Construction.given] using given
    exact (ih others).insert name added
  | erase made key ih => exact (ih given).erase key
  | merge made other ih ih' =>
    obtain ⟨first, second⟩ := List.forall_mem_append.mp given
    exact (ih first).merge (sound_iff.mp (ih' second)).2
  | deepMerge made other ih ih' =>
    obtain ⟨first, second⟩ := List.forall_mem_append.mp given
    exact (ih first).deepMerge (ih' second)
  | ofPairs pairs =>
    refine sound_ofPairs fun pair member => ?_
    have each (value : Value) (inside : value ∈ [pair.1, pair.2]) : value.Sound :=
      given value (List.mem_flatMap.mpr ⟨pair, member, inside⟩)
    exact ⟨each _ (by simp), each _ (by simp)⟩

/-- The sound maps are those that are made of sound keys and values. -/
theorem sound_iff_constructed :
    entries.Sound ↔
      ∃ made : Construction, made.entries = entries ∧ ∀ value ∈ made.given, value.Sound := by
  constructor
  · intro sound
    refine ⟨.ofPairs entries, sound.unique.ofPairs_self, fun value given => ?_⟩
    obtain ⟨entry, member, part⟩ := List.mem_flatMap.mp given
    rcases List.mem_pair.mp part with rfl | rfl
    · exact sound.keys entry member
    · exact sound.values entry member
  · rintro ⟨made, rfl, given⟩
    exact made.sound given

end Entries

end Scss
