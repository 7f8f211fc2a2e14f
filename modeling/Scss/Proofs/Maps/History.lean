import Mathlib.Data.List.DropRight
import Scss.Proofs.Maps.Entries

/-! How maps come about. Every way to make a map comes to values put under keys and keys taken out, one
after the other, and the map is told by these: its entries are what was put in last and not taken out,
they stand in the order in which their names came in, and each is kept under the name of its own key. -/
namespace Scss.Entries

/-- How a map is made from the empty one. -/
inductive Construction where
  | empty
  | insert (made : Construction) (key value : Value)
  | erase (made : Construction) (key : Value)
  | merge (made other : Construction)
  | deepMerge (made other : Construction)
  | ofPairs (pairs : List (Value × Value))

inductive Event where
  | put (key value : Value)
  | drop (key : Value)

namespace Event

def name : Event → String
  | put key _ => key.bare
  | drop key => key.bare

def puts (name : String) : Event → Bool
  | put key _ => key.bare = name
  | drop _ => false

def drops (name : String) : Event → Bool
  | put _ _ => false
  | drop key => key.bare = name

def apply (entries : Entries) : Event → Entries
  | put key value => entries.insert key value
  | drop key => entries.erase key

def left : Event → Option (Value × Value)
  | put key value => some (key, value)
  | drop _ => none

def putAll (entries : Entries) : List Event := entries.map fun entry => put entry.1 entry.2

end Event

/-- A map with the name that each entry was made under kept beside it. -/
abbrev Index := List (String × (Value × Value))

namespace Index

/-- Put an entry under a name. A name that is there is kept, with its place. -/
def put : Index → String → Value × Value → Index
  | [], name, entry => [(name, entry)]
  | slot :: rest, name, entry =>
    if slot.1 = name then (slot.1, entry) :: rest else slot :: put rest name entry

def value? (index : Index) (name : String) : Option Value :=
  (index.find? fun slot => slot.1 = name).map fun slot => slot.2.2

def ofEntries (entries : Entries) : Index := entries.map fun entry => (entry.1.bare, entry)

end Index

namespace Construction

def entries : Construction → Entries
  | empty => []
  | insert made key value => made.entries.insert key value
  | erase made key => made.entries.erase key
  | merge made other => made.entries.merge other.entries
  | deepMerge made other => made.entries.deepMerge other.entries
  | ofPairs pairs => Entries.ofPairs pairs

def index : Construction → Index
  | empty => []
  | insert made key value => made.index.put key.bare (key, value)
  | erase made key => made.index.eraseP fun slot => slot.1 = key.bare
  | merge made other =>
    other.index.foldl (fun index slot => index.put slot.2.1.bare slot.2) made.index
  | deepMerge made other =>
    other.index.foldl (fun index slot => index.put slot.2.1.bare
      (slot.2.1, deepValue (index.value? slot.2.1.bare) slot.2.2)) made.index
  | ofPairs pairs => pairs.foldl (fun index pair => index.put pair.1.bare pair) []

/-- What happens while a map is made. A merge puts in the entries of the other map, and a deep one what
these come to with the values that are there. -/
def events : Construction → List Event
  | empty => []
  | insert made key value => made.events ++ [.put key value]
  | erase made key => made.events ++ [.drop key]
  | merge made other => made.events ++ Event.putAll other.entries
  | deepMerge made other => made.events ++ Event.putAll (made.entries.joined other.entries)
  | ofPairs pairs => Event.putAll pairs

end Construction

/-- The value was put under the key, and nothing happened to the name since. -/
def Latest (events : List Event) (key value : Value) : Prop :=
  ∃ before after, events = before ++ .put key value :: after ∧ ∀ event ∈ after, event.name ≠ key.bare

/-- What happened since the name was taken out for the last time, if it ever was. -/
def since (events : List Event) (name : String) : List Event :=
  events.rtakeWhile fun event => !event.drops name

/-- When the name was put in for the first time since it was taken out for the last time. -/
def arrival (events : List Event) (name : String) : Nat :=
  events.length - (since events name).length + (since events name).findIdx (·.puts name)

def replay (events : List Event) : Entries := events.foldl Event.apply []

section Replaying

variable {events : List Event} {event : Event} {key value : Value} {name : String}

theorem replay_concat (events : List Event) (event : Event) :
    replay (events ++ [event]) = event.apply (replay events) := by
  simp [replay]

theorem Unique.apply {entries : Entries} (unique : entries.Unique) (event : Event) :
    (event.apply entries).Unique := by
  cases event with
  | put key value => exact unique.insert key value
  | drop key => exact unique.erase key

theorem Unique.entryOf?_apply {entries : Entries} (unique : entries.Unique) (event : Event)
    (name : String) :
    (event.apply entries).entryOf? name =
      if event.name = name then event.left else entries.entryOf? name := by
  cases event with
  | put key value => exact entryOf?_insert ..
  | drop key => exact unique.entryOf?_erase ..

theorem Event.left_eq_some_iff : event.left = some (key, value) ↔ event = .put key value := by
  cases event <;> simp [left]

theorem unique_replay (events : List Event) : (replay events).Unique := by
  induction events using List.reverseRecOn with
  | nil => exact unique_nil
  | append_singleton events event ih =>
    rw [replay_concat]
    exact ih.apply event

/-- Putting in all entries of a map is merging it. -/
theorem replay_append_putAll (events : List Event) (other : Entries) :
    replay (events ++ Event.putAll other) = (replay events).merge other := by
  rw [replay, List.foldl_append, Event.putAll, List.foldl_map]
  rfl

/-- A map is what the events of its making come to. -/
theorem replay_events (made : Construction) : replay made.events = made.entries := by
  induction made with
  | empty => rfl
  | insert made key value ih => rw [Construction.events, replay_concat, ih]; rfl
  | erase made key ih => rw [Construction.events, replay_concat, ih]; rfl
  | merge made other ih _ => rw [Construction.events, replay_append_putAll, ih]; rfl
  | deepMerge made other ih ih' =>
    have unique : other.entries.Unique := ih' ▸ unique_replay other.events
    rw [Construction.events, replay_append_putAll, ih, ← unique.deepMerge_eq]
    rfl
  | ofPairs pairs => exact replay_append_putAll [] pairs

theorem Construction.unique (made : Construction) : made.entries.Unique :=
  replay_events made ▸ unique_replay made.events

end Replaying

section Latest

variable {events : List Event} {event : Event} {key value : Value} {name : String}

theorem latest_concat :
    Latest (events ++ [event]) key value ↔
      event = .put key value ∨ event.name ≠ key.bare ∧ Latest events key value := by
  constructor
  · rintro ⟨before, after, same, quiet⟩
    rcases List.eq_nil_or_concat' after with rfl | ⟨after, last, rfl⟩
    · exact .inl (by simpa using (List.append_inj' same rfl).2)
    · rw [← List.cons_append, ← List.append_assoc] at same
      obtain ⟨rfl, whole⟩ := List.append_inj' same rfl
      obtain rfl : event = last := by simpa using whole
      exact .inr ⟨quiet event (by simp), before, after, rfl, fun other member =>
        quiet other (by simp [member])⟩
  · rintro (rfl | ⟨apart, before, after, rfl, quiet⟩)
    · exact ⟨events, [], rfl, nofun⟩
    · refine ⟨before, after ++ [event], by simp, fun other member => ?_⟩
      rcases List.mem_append.mp member with earlier | last
      · exact quiet other earlier
      · exact List.mem_singleton.mp last ▸ apart

/-- The entry of a name is what was put under it last, if it was not taken out since. -/
theorem entryOf?_replay_iff :
    (replay events).entryOf? name = some (key, value) ↔ key.bare = name ∧ Latest events key value := by
  induction events using List.reverseRecOn with
  | nil => simp [replay, entryOf?, Latest]
  | append_singleton events event ih =>
    rw [replay_concat, latest_concat, (unique_replay events).entryOf?_apply]
    by_cases here : event.name = name
    · rw [if_pos here, Event.left_eq_some_iff]
      constructor
      · rintro rfl
        exact ⟨here, .inl rfl⟩
      · rintro ⟨named, same | ⟨apart, -⟩⟩
        · exact same
        · exact absurd (here.trans named.symm) apart
    · rw [if_neg here, ih]
      refine and_congr_right fun named => ⟨fun latest => .inr ⟨named ▸ here, latest⟩, ?_⟩
      rintro (rfl | ⟨-, latest⟩)
      · exact absurd named here
      · exact latest

end Latest

section Order

variable {events : List Event} {event : Event} {key value : Value} {name : String}

theorem since_concat_of_drops (dropped : event.drops name = true) :
    since (events ++ [event]) name = [] :=
  List.rtakeWhile_concat_neg _ _ _ (by simpa using dropped)

theorem since_concat (kept : event.drops name = false) :
    since (events ++ [event]) name = since events name ++ [event] :=
  List.rtakeWhile_concat_pos _ _ _ (by simpa using kept)

theorem length_since_le (events : List Event) (name : String) :
    (since events name).length ≤ events.length := (List.rtakeWhile_suffix _ _).length_le

/-- A name is in the map if it was put in since it was taken out for the last time. -/
theorem mem_names_replay_iff :
    name ∈ (replay events).names ↔ ∃ event ∈ since events name, event.puts name = true := by
  induction events using List.reverseRecOn with
  | nil => simp [replay, names, since]
  | append_singleton events event ih =>
    rw [replay_concat]
    cases event with
    | put own given =>
      have known : (∃ event ∈ since events name ++ [.put own given], event.puts name = true) ↔
          name ∈ (replay events).names ∨ own.bare = name := by
        simp [ih, or_and_right, exists_or, Event.puts]
      rw [Event.apply, names_insert, since_concat rfl, known]
      split
      · rename_i listed
        exact ⟨.inl, Or.rec id fun same => same ▸ listed⟩
      · rw [List.mem_append, List.mem_singleton, eq_comm (a := name)]
    | drop own =>
      rw [Event.apply, (unique_replay events).names_erase]
      by_cases here : own.bare = name
      · rw [since_concat_of_drops (by simpa [Event.drops] using here)]
        simp [here]
      · rw [since_concat (by simpa [Event.drops] using here)]
        simp [ih, or_and_right, exists_or, Event.puts, Ne.symm here]

theorem findIdx_lt_of_listed (listed : name ∈ (replay events).names) :
    (since events name).findIdx (·.puts name) < (since events name).length :=
  List.findIdx_lt_length.mpr (mem_names_replay_iff.mp listed)

theorem arrival_lt (listed : name ∈ (replay events).names) : arrival events name < events.length := by
  have first := findIdx_lt_of_listed listed
  have whole := length_since_le events name
  rw [arrival]
  omega

/-- A name that is in the map keeps its arrival until it is taken out. -/
theorem arrival_concat (listed : name ∈ (replay events).names) (kept : event.drops name = false) :
    arrival (events ++ [event]) name = arrival events name := by
  rw [arrival, arrival, since_concat kept, List.findIdx_append, if_pos (findIdx_lt_of_listed listed),
    List.length_append, List.length_append, Nat.add_sub_add_right]

/-- A new name arrives with the event that puts it in. -/
theorem arrival_put (unlisted : key.bare ∉ (replay events).names) :
    arrival (events ++ [.put key value]) key.bare = events.length := by
  have none_ : (since events key.bare).findIdx (·.puts key.bare) = (since events key.bare).length :=
    List.findIdx_eq_length.mpr fun event member => by
      simpa using fun puts => unlisted (mem_names_replay_iff.mpr ⟨event, member, puts⟩)
  have here : [Event.put key value].findIdx (·.puts key.bare) = 0 := by simp [Event.puts]
  have whole := length_since_le events key.bare
  rw [arrival, since_concat rfl, List.findIdx_append, none_, if_neg (lt_irrefl _), here,
    List.length_append, List.length_append, Nat.add_sub_add_right]
  omega

/-- The names of a map stand in the order of their arrival. -/
theorem pairwise_arrival (events : List Event) :
    (replay events).names.Pairwise (arrival events · < arrival events ·) := by
  induction events using List.reverseRecOn with
  | nil => exact .nil
  | append_singleton events event ih =>
    have kept {listed : List String} (inside : ∀ name ∈ listed, name ∈ (replay events).names)
        (apart : ∀ name ∈ listed, event.drops name = false)
        (ordered : listed.Pairwise (arrival events · < arrival events ·)) :
        listed.Pairwise (arrival (events ++ [event]) · < arrival (events ++ [event]) ·) :=
      ordered.imp_of_mem fun first second earlier => by
        rwa [arrival_concat (inside _ first) (apart _ first),
          arrival_concat (inside _ second) (apart _ second)]
    rw [replay_concat]
    cases event with
    | put key value =>
      have old := kept (fun _ => id) (fun _ _ => rfl) ih
      rw [Event.apply, names_insert]
      split
      · exact old
      · rename_i unlisted
        refine List.pairwise_append.mpr ⟨old, List.pairwise_singleton .., fun name listed new own => ?_⟩
        rw [List.mem_singleton.mp own, arrival_put unlisted, arrival_concat listed rfl]
        exact arrival_lt listed
    | drop key =>
      rw [Event.apply, (unique_replay events).names_erase]
      refine kept (fun name member => (List.mem_filter.mp member).1) (fun name member => ?_) (ih.filter _)
      have apart : name ≠ key.bare := by simpa using (List.mem_filter.mp member).2
      simpa [Event.drops] using apart.symm

end Order

section Indexing

theorem Index.ofEntries_insert (entries : Entries) (key value : Value) :
    ofEntries (entries.insert key value) = (ofEntries entries).put key.bare (key, value) := by
  induction entries with
  | nil => rfl
  | cons entry rest ih =>
    change _ = put ((entry.1.bare, entry) :: ofEntries rest) _ _
    rw [put]
    by_cases same : entry.1.bare = key.bare
    · rw [insert, if_pos (by simpa [named] using same), if_pos same, same]
      rfl
    · rw [insert, if_neg (by simpa [named] using same), if_neg same, ← ih]
      rfl

theorem Index.ofEntries_erase (entries : Entries) (key : Value) :
    ofEntries (entries.erase key) = (ofEntries entries).eraseP fun slot => slot.1 = key.bare := by
  rw [ofEntries, ofEntries, List.eraseP_map]
  rfl

theorem Index.value?_ofEntries (entries : Entries) (key : Value) :
    (ofEntries entries).value? key.bare = entries.get? key := by
  rw [value?, ofEntries, List.find?_map, Option.map_map]
  rfl

/-- Entries that come into an index one after the other come into it as they come into the map. -/
theorem Index.foldl_ofEntries {α : Type} (step : Entries → α → Entries) (place : Index → α → Index)
    (same : ∀ entries item, ofEntries (step entries item) = place (ofEntries entries) item)
    (items : List α) (entries : Entries) :
    items.foldl place (ofEntries entries) = ofEntries (items.foldl step entries) := by
  induction items generalizing entries with
  | nil => rfl
  | cons item rest ih => rw [List.foldl_cons, ← same, ih]; rfl

theorem deepMerge_eq_foldl (entries other : Entries) :
    entries.deepMerge other = other.foldl (fun merged entry =>
      merged.insert entry.1 (deepValue (merged.get? entry.1) entry.2)) entries := by
  induction other generalizing entries with
  | nil => rw [deepMerge]; rfl
  | cons entry rest ih => rw [deepMerge, ih]; rfl

/-- Each entry of a map is kept under the name of the key that it has. -/
theorem Construction.index_eq (made : Construction) : made.index = Index.ofEntries made.entries := by
  induction made with
  | empty => rfl
  | insert made key value ih => rw [index, ih, ← Index.ofEntries_insert]; rfl
  | erase made key ih => rw [index, ih, ← Index.ofEntries_erase]; rfl
  | merge made other ih ih' =>
    rw [index, ih, ih']
    refine List.foldl_map.trans ?_
    exact Index.foldl_ofEntries _ _ (fun entries entry => Index.ofEntries_insert ..) _ _
  | deepMerge made other ih ih' =>
    rw [index, ih, ih', entries, deepMerge_eq_foldl]
    refine List.foldl_map.trans ?_
    refine Index.foldl_ofEntries _ _ (fun entries entry => ?_) _ _
    rw [Index.ofEntries_insert, Index.value?_ofEntries]
  | ofPairs pairs =>
    exact Index.foldl_ofEntries _ _ (fun entries entry => Index.ofEntries_insert ..) pairs []

end Indexing

structure Construction.Ordered (made : Construction) : Prop where
  unique : made.entries.Unique
  indexed : made.index = made.entries.map fun entry => (entry.1.bare, entry)
  stored : ∀ key value, (key, value) ∈ made.entries ↔ Latest made.events key value
  found : ∀ key value, made.entries.get? key = some value ↔
    ∃ own, own.bare = key.bare ∧ Latest made.events own value
  ordered : made.entries.names.Pairwise (arrival made.events · < arrival made.events ·)

theorem Construction.entryOf?_iff (made : Construction) (name : String) (key value : Value) :
    made.entries.entryOf? name = some (key, value) ↔ key.bare = name ∧ Latest made.events key value := by
  rw [← replay_events, entryOf?_replay_iff]

theorem Construction.ordered (made : Construction) : made.Ordered where
  unique := made.unique
  indexed := made.index_eq
  stored key value := by
    have latest := made.entryOf?_iff key.bare key value
    rw [made.unique.entryOf?_eq_some_iff] at latest
    simpa using latest
  found key value := by
    simp only [get?_eq, Option.map_eq_some_iff, Prod.exists, made.entryOf?_iff, exists_eq_right]
  ordered := replay_events made ▸ pairwise_arrival made.events

/-- Every map has one entry for each name, under that name: what was put in last and not taken out, in the
order in which the names came in. Merging takes the entries of the second map and otherwise those of the
first, and lists the names of the first and then the new ones of the second; it is associative and
idempotent, and the empty map is neutral. -/
theorem constructed_maps_ordered :
    (∀ made : Construction, made.Ordered) ∧
    (∀ first second : Construction,
      (∀ key, (first.entries.merge second.entries).get? key =
        (second.entries.get? key).or (first.entries.get? key)) ∧
      (first.entries.merge second.entries).names =
        first.entries.names ++ second.entries.names.filter (· ∉ first.entries.names)) ∧
    (∀ first second third : Construction,
      (first.entries.merge second.entries).merge third.entries =
        first.entries.merge (second.entries.merge third.entries)) ∧
    ∀ made : Construction, made.entries.merge [] = made.entries ∧
      Entries.merge [] made.entries = made.entries ∧
      made.entries.merge made.entries = made.entries := by
  refine ⟨Construction.ordered, ?_, ?_, ?_⟩
  · intro first second
    exact ⟨fun key => second.unique.get?_merge _ key, second.unique.names_merge _⟩
  · intro first second third
    exact first.unique.merge_assoc second.unique third.unique
  · intro made
    exact ⟨rfl, made.unique.nil_merge, made.unique.merge_self⟩

end Scss.Entries
