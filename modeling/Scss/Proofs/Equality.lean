import Mathlib.Data.List.Forall2
import Scss.Builtin.List
import Scss.Compiler
import Scss.Proofs.Maps.Sound

/-! Equality of values without numbers and colours, which are equal only up to a tolerance. It does not depend
on the order of the two values, and every value equals itself, as maps have one entry for each name. It
is transitive but for one case: an empty map equals every empty list, while two empty lists differ by
their separators and brackets. -/
namespace Scss.Value

/-- No number and no colour is a member of a list or a value of a map, at any depth. Keys are compared by
their text and may be anything. -/
inductive Discrete : Value → Prop where
  | null : Discrete .null
  | bool (value : Bool) : Discrete (.bool value)
  | string (text : String) (quoted : Bool) : Discrete (.string text quoted)
  | list {items : List Value} (separator : Separator) (bracketed : Bool)
      (members : ∀ item ∈ items, Discrete item) : Discrete (.list items separator bracketed)
  | map {entries : List (Value × Value)} (values : ∀ entry ∈ entries, Discrete entry.2) :
      Discrete (.map entries)
  | function (reference : Reference) : Discrete (.function reference)
  | mixin (reference : Reference) : Discrete (.mixin reference)

theorem discrete_list_iff {items : List Value} {separator : Separator} {bracketed : Bool} :
    (Value.list items separator bracketed).Discrete ↔ ∀ item ∈ items, item.Discrete :=
  ⟨fun | .list _ _ members => members, .list separator bracketed⟩

theorem discrete_map_iff {entries : Entries} :
    (Value.map entries).Discrete ↔ ∀ entry ∈ entries, entry.2.Discrete :=
  ⟨fun | .map values => values, .map⟩

/-- How two values can be equal, one level deep. -/
inductive Matches : Value → Value → Prop where
  | null : Matches .null .null
  | bool (value : Bool) : Matches (.bool value) (.bool value)
  | number {m n : Number} (close : m.equals n = true) : Matches (.number m) (.number n)
  | string (text : String) (quoted quoted' : Bool) : Matches (.string text quoted) (.string text quoted')
  | color {c d : Color} (close : c.equals d = true) : Matches (.color c) (.color d)
  | list {items others : List Value} (separator : Separator) (bracketed : Bool)
      (members : List.Forall₂ (fun item other => item.equals other = true) items others) :
      Matches (.list items separator bracketed) (.list others separator bracketed)
  | map {entries others : Entries} (size : entries.length = others.length)
      (found : ∀ entry ∈ entries, ∃ value, others.get? entry.1 = some value ∧
        entry.2.equals value = true) : Matches (.map entries) (.map others)
  | emptyList (separator : Separator) (bracketed : Bool) :
      Matches (.list [] separator bracketed) (.map [])
  | emptyMap (separator : Separator) (bracketed : Bool) :
      Matches (.map []) (.list [] separator bracketed)
  | function (reference : Reference) : Matches (.function reference) (.function reference)
  | mixin (reference : Reference) : Matches (.mixin reference) (.mixin reference)

theorem allEqual_iff {items others : List Value} (size : items.length = others.length) :
    allEqual items others = true ↔
      List.Forall₂ (fun item other => item.equals other = true) items others := by
  induction items generalizing others with
  | nil =>
    obtain rfl := List.length_eq_zero_iff.mp size.symm
    exact iff_of_true (by rw [allEqual]; simp) .nil
  | cons item rest ih =>
    rcases others with _ | ⟨other, others⟩
    · cases size
    · rw [allEqual, Bool.and_eq_true, ih (Nat.succ.inj size), List.forall₂_cons]

theorem allFound_iff {entries : List (Value × Value)} {others : Entries} :
    allFound entries others = true ↔
      ∀ entry ∈ entries, ∃ value, others.get? entry.1 = some value ∧ entry.2.equals value = true := by
  induction entries with
  | nil => exact iff_of_true (by rw [allFound]) nofun
  | cons entry rest ih =>
    rw [allFound, Bool.and_eq_true, ih, List.forall_mem_cons]
    refine and_congr_left fun _ => ?_
    cases others.get? entry.1 <;> simp

theorem equals_iff {a b : Value} : a.equals b = true ↔ Matches a b := by
  constructor
  · intro same
    rw [equals.eq_def] at same
    split at same
    · exact .null
    · obtain rfl := of_decide_eq_true same
      exact .bool _
    · exact .number same
    · obtain rfl := of_decide_eq_true same
      exact .string ..
    · exact .color same
    · simp only [Bool.and_eq_true, decide_eq_true_eq] at same
      obtain ⟨⟨⟨rfl, rfl⟩, size⟩, members⟩ := same
      exact .list _ _ ((allEqual_iff size).mp members)
    · obtain ⟨size, found⟩ := Bool.and_eq_true_iff.mp same
      exact .map (of_decide_eq_true size) (allFound_iff.mp found)
    · simp only [Bool.and_eq_true, List.isEmpty_iff] at same
      obtain ⟨rfl, rfl⟩ := same
      exact .emptyList ..
    · simp only [Bool.and_eq_true, List.isEmpty_iff] at same
      obtain ⟨rfl, rfl⟩ := same
      exact .emptyMap ..
    · obtain rfl := of_decide_eq_true same
      exact .function _
    · obtain rfl := of_decide_eq_true same
      exact .mixin _
    · cases same
  · rintro (_ | _ | close | _ | close | ⟨_, _, members⟩ | ⟨size, found⟩ | _ | _ | _ | _)
    case list =>
      simp [equals, members.length_eq, (allEqual_iff members.length_eq).mpr members]
    case map => simp [equals, size, allFound_iff.mpr found]
    all_goals simp [equals, *]

theorem equals_refl {a : Value} (discrete : a.Discrete) (sound : a.Sound) : a.equals a = true := by
  rw [equals_iff]
  induction discrete with
  | null => exact .null
  | bool value => exact .bool value
  | string text quoted => exact .string text quoted quoted
  | list separator bracketed _ ih =>
    cases sound with
    | list _ _ members =>
      exact .list _ _ (List.forall₂_same.mpr fun item member =>
        equals_iff.mpr (ih item member (members item member)))
  | map _ ih =>
    cases sound with
    | map unique _ values =>
      exact .map rfl fun entry member => ⟨entry.2, unique.get?_of_mem member,
        equals_iff.mpr (ih entry member (values entry member))⟩
  | function reference => exact .function reference
  | mixin reference => exact .mixin reference

theorem equals_symm {a b : Value} (discrete : a.Discrete) (sound : a.Sound) (same : a.equals b = true) :
    b.equals a = true := by
  rw [equals_iff] at same ⊢
  induction discrete generalizing b with
  | null => cases same; exact .null
  | bool value => cases same; exact .bool value
  | string text quoted => cases same; exact .string ..
  | list separator bracketed _ ih =>
    cases sound with
    | list _ _ members =>
      cases same with
      | list _ _ both =>
        refine .list _ _ (List.Forall₂.flip ?_)
        refine ((List.forall₂_and_left _ _).mpr ⟨fun _ member => member, both⟩).imp fun item other pair => ?_
        exact equals_iff.mpr (ih item pair.1 (members item pair.1) (equals_iff.mp pair.2))
      | emptyList => exact .emptyMap ..
  | map _ ih =>
    cases sound with
    | map unique _ values =>
      cases same with
      | map size found =>
        refine .map size.symm fun other there => ?_
        obtain ⟨entry, member, present, close⟩ := unique.found_back (·.equals ·) size found there
        exact ⟨entry.2, present,
          equals_iff.mpr (ih entry member (values entry member) (equals_iff.mp close))⟩
      | emptyMap => exact .emptyList ..
  | function reference => cases same; exact .function reference
  | mixin reference => cases same; exact .mixin reference

/-- Every value equals itself, and which of two values comes first makes no difference, if maps have one
entry for each name. -/
theorem equality_reflexive_symmetric {a b : Value} (discrete : a.Discrete) (discrete' : b.Discrete)
    (sound : a.Sound) (sound' : b.Sound) : a.equals a = true ∧ a.equals b = b.equals a :=
  ⟨equals_refl discrete sound,
    Bool.eq_iff_iff.mpr ⟨equals_symm discrete sound, equals_symm discrete' sound'⟩⟩

/-- Two maps are equal whose entries stand in different orders, with a nested list whose strings differ by
their quotes and an empty map in place of an empty list. -/
theorem equality_reflexive_symmetric_maps :
    let first := Value.map
      [(.quoted "a", .listOf [.null, .unquoted "x"] .comma), (.unquoted "b", .map [])]
    let second := Value.map
      [(.unquoted "b", .listOf [] .space), (.unquoted "a", .listOf [.null, .quoted "x"] .comma)]
    (first.Discrete ∧ second.Discrete) ∧ (first.Sound ∧ second.Sound) ∧
      first.equals first = true ∧ first.equals second = second.equals first ∧
        second.equals first = true := by
  intro first second
  have discrete : first.Discrete ∧ second.Discrete := by
    simp [first, second, discrete_map_iff, discrete_list_iff, listOf, Discrete.null, unquoted, quoted,
      Discrete.string]
  have sound : first.Sound ∧ second.Sound := by
    constructor
    · refine .map (by decide) ?_ ?_ <;>
        simp [Sound.string, unquoted, quoted, listOf, Sound.null, Entries.sound_map_iff, Entries.sound_nil,
          Sound.list]
    · refine .map (by decide) ?_ ?_ <;>
        simp [Sound.string, unquoted, quoted, listOf, Sound.null, Sound.list]
  obtain ⟨itself, symmetric⟩ := equality_reflexive_symmetric discrete.1 discrete.2 sound.1 sound.2
  exact ⟨discrete, sound, itself, symmetric, by rfl⟩

section Transitivity

/-- At some place, which is the same in the three values, the middle one has an empty map and the outer
ones have empty lists that differ by separator or brackets. -/
inductive Bridged : Value → Value → Value → Prop where
  | here {separator separator' : Separator} {bracketed bracketed' : Bool}
      (differ : separator ≠ separator' ∨ bracketed ≠ bracketed') :
      Bridged (.list [] separator bracketed) (.map []) (.list [] separator' bracketed')
  | member {first middle last : List Value} {separator separator' separator'' : Separator}
      {bracketed bracketed' bracketed'' : Bool} {a b c : Value} (index : Nat)
      (left : first[index]? = some a) (between : middle[index]? = some b) (right : last[index]? = some c)
      (inner : Bridged a b c) :
      Bridged (.list first separator bracketed) (.list middle separator' bracketed')
        (.list last separator'' bracketed'')
  | entry {first middle last : Entries} {entry : Value × Value} {b c : Value} (left : entry ∈ first)
      (between : middle.get? entry.1 = some b) (right : last.get? entry.1 = some c)
      (inner : Bridged entry.2 b c) : Bridged (.map first) (.map middle) (.map last)

theorem forall₂_iff_getElem? {α β : Type} {R : α → β → Prop} {items : List α} {others : List β} :
    List.Forall₂ R items others ↔ items.length = others.length ∧
      ∀ (index : Nat) (a : α) (b : β), items[index]? = some a → others[index]? = some b → R a b := by
  rw [List.forall₂_iff_get]
  refine and_congr_right fun size => ⟨fun each index a b left right => ?_, fun each index h h' => ?_⟩
  · obtain ⟨inside, rfl⟩ := List.getElem?_eq_some_iff.mp left
    obtain ⟨inside', rfl⟩ := List.getElem?_eq_some_iff.mp right
    exact each index inside inside'
  · exact each index _ _ (List.getElem?_eq_getElem h) (List.getElem?_eq_getElem h')

/-- Lists by their members, which can be bridged each. -/
theorem matches_list_iff_not_bridged {first middle last : List Value} {separator : Separator}
    {bracketed : Bool} (before : List.Forall₂ (fun a b => a.equals b = true) first middle)
    (behind : List.Forall₂ (fun b c => b.equals c = true) middle last)
    (inner : ∀ b ∈ middle, ∀ a c, a.equals b = true → b.equals c = true →
      (a.equals c = true ↔ ¬ Bridged a b c)) :
    Matches (.list first separator bracketed) (.list last separator bracketed) ↔
      ¬ Bridged (.list first separator bracketed) (.list middle separator bracketed)
        (.list last separator bracketed) := by
  obtain ⟨size, before⟩ := forall₂_iff_getElem?.mp before
  obtain ⟨size', behind⟩ := forall₂_iff_getElem?.mp behind
  have each {index : Nat} {a b c : Value} (left : first[index]? = some a)
      (between : middle[index]? = some b) (right : last[index]? = some c) :
      a.equals c = true ↔ ¬ Bridged a b c :=
    inner b (List.mem_of_getElem? between) a c (before index a b left between)
      (behind index b c between right)
  constructor
  · rintro (_ | _ | _ | _ | _ | ⟨_, _, both⟩) (_ | ⟨index, left, between, right, bridge⟩)
    obtain ⟨-, both⟩ := forall₂_iff_getElem?.mp both
    exact (each left between right).mp (both index _ _ left right) bridge
  · intro apart
    refine .list _ _ (forall₂_iff_getElem?.mpr ⟨size.trans size', fun index a c left right => ?_⟩)
    obtain ⟨inside, -⟩ := List.getElem?_eq_some_iff.mp left
    have between := List.getElem?_eq_getElem (size ▸ inside : index < middle.length)
    exact (each left between right).mpr fun bridge => apart (.member index left between right bridge)

/-- Maps by the values under the names of the first one, which can be bridged each. -/
theorem matches_map_iff_not_bridged {first middle last : Entries} (size : first.length = last.length)
    (before : ∀ entry ∈ first, ∃ value, middle.get? entry.1 = some value ∧ entry.2.equals value = true)
    (behind : ∀ entry ∈ middle, ∃ value, last.get? entry.1 = some value ∧ entry.2.equals value = true)
    (inner : ∀ entry ∈ middle, ∀ a c, a.equals entry.2 = true → entry.2.equals c = true →
      (a.equals c = true ↔ ¬ Bridged a entry.2 c)) :
    Matches (.map first) (.map last) ↔ ¬ Bridged (.map first) (.map middle) (.map last) := by
  have each {entry : Value × Value} (left : entry ∈ first) :
      ∃ b c, middle.get? entry.1 = some b ∧ last.get? entry.1 = some c ∧
        (entry.2.equals c = true ↔ ¬ Bridged entry.2 b c) := by
    obtain ⟨b, between, close⟩ := before entry left
    obtain ⟨own, named, member⟩ := Entries.exists_mem_of_get? between
    obtain ⟨c, right, close'⟩ := behind _ member
    rw [Entries.get?_congr named] at right
    exact ⟨b, c, between, right, inner _ member _ _ close close'⟩
  constructor
  · rintro (_ | _ | _ | _ | _ | _ | ⟨-, found⟩) (_ | _ | ⟨left, between, right, bridge⟩)
    obtain ⟨b, c, between', right', alike⟩ := each left
    obtain ⟨_, present, close⟩ := found _ left
    cases between.symm.trans between'
    cases right.symm.trans right'
    cases right.symm.trans present
    exact alike.mp close bridge
  · intro apart
    refine .map size fun entry left => ?_
    obtain ⟨b, c, between, right, alike⟩ := each left
    exact ⟨c, right, alike.mpr fun bridge => apart (.entry left between right bridge)⟩

/-- What equals the same value is equal unless an empty map stands between different empty lists. -/
theorem equals_trans_iff {a b c : Value} (discrete : b.Discrete) (first : a.equals b = true)
    (second : b.equals c = true) : a.equals c = true ↔ ¬ Bridged a b c := by
  induction discrete generalizing a c with
  | null | bool _ | string _ _ | function _ | mixin _ =>
    rw [equals_iff] at first second ⊢
    cases first
    cases second
    exact iff_of_true (by constructor) nofun
  | list _ _ _ ih =>
    rw [equals_iff] at first second ⊢
    cases first with
    | list _ _ before =>
      cases second with
      | list _ _ behind => exact matches_list_iff_not_bridged before behind fun b member _ _ => ih b member
      | emptyList =>
        cases before
        exact iff_of_true (.emptyList ..) nofun
    | emptyMap =>
      cases second with
      | list _ _ behind =>
        cases behind
        exact iff_of_true (.emptyMap ..) nofun
      | emptyList => exact iff_of_true (.map rfl nofun) nofun
  | map _ ih =>
    rw [equals_iff] at first second ⊢
    cases first with
    | map size before =>
      cases second with
      | map size' behind =>
        exact matches_map_iff_not_bridged (size.trans size') before behind fun entry member _ _ =>
          ih entry member
      | emptyMap =>
        obtain rfl := List.length_eq_zero_iff.mp size
        exact iff_of_true (.emptyMap ..) nofun
    | emptyList =>
      cases second with
      | map size' _ =>
        obtain rfl := List.length_eq_zero_iff.mp size'.symm
        exact iff_of_true (.emptyList ..) nofun
      | emptyMap =>
        -- Only here the outer values are two empty lists, and nothing has compared these.
        constructor
        · rintro (_ | _ | _ | _ | _ | _) (differ | _)
          simp at differ
        · intro apart
          have same := not_or.mp (mt Bridged.here apart)
          rw [not_ne_iff, not_ne_iff] at same
          obtain ⟨rfl, rfl⟩ := same
          exact .list _ _ .nil

theorem index_list (items : List Value) (separator : Separator) (bracketed : Bool) (wanted : Value) :
    Builtin.List.index [.list items separator bracketed, wanted] =
      .ok ((items.findIdx? (·.equals wanted)).elim .null fun place => .ofNat (place + 1)) := by
  have given : Slots.required [.list items separator bracketed, wanted] 0 "list" =
      .ok (.list items separator bracketed) := rfl
  have sought : Slots.valueAt [.list items separator bracketed, wanted] 1 = wanted := rfl
  simp only [Builtin.List.index, given, sought, bind, Except.bind, toList]
  cases items.findIdx? (·.equals wanted) <;> rfl

/-- What is looked for in a list is found by the comparisons of the members with it. -/
theorem index_congr {items : List Value} {a b : Value} (separator : Separator) (bracketed : Bool)
    (alike : ∀ item ∈ items, item.equals a = item.equals b) :
    Builtin.List.index [.list items separator bracketed, a] =
      Builtin.List.index [.list items separator bracketed, b] := by
  have compared : items.map (·.equals a) = items.map (·.equals b) := List.map_congr_left alike
  have places : items.findIdx? (·.equals a) = items.findIdx? (·.equals b) := by
    simpa [List.findIdx?_map, Function.comp_def] using congrArg (List.findIdx? id) compared
  rw [index_list, index_list, places]

/-- Values that are equal to the same value are equal to each other, but for an empty map in between, and
then they are not. Otherwise it makes no difference which of two values that compare as equal is looked for
in a list. -/
theorem equality_transitive_unless_bridged {b : Value} (discrete : b.Discrete) :
    (∀ a c, a.equals b = true → b.equals c = true → (a.equals c = true ↔ ¬ Bridged a b c)) ∧
    ∀ (c : Value) (format : Format), c.Discrete → b.Sound →
      Operator.apply format .eq b c = .ok (.bool true) →
      ∀ items separator bracketed, (∀ item ∈ items, ¬ Bridged item b c ∧ ¬ Bridged item c b) →
        Builtin.List.index [.list items separator bracketed, b] =
          Builtin.List.index [.list items separator bracketed, c] := by
  refine ⟨fun a c => equals_trans_iff discrete, ?_⟩
  intro c format discrete' sound compared items separator bracketed apart
  have same : b.equals c = true := by simpa [Operator.apply] using compared
  have back : c.equals b = true := equals_symm discrete sound same
  refine index_congr separator bracketed fun item member => Bool.eq_iff_iff.mpr ?_
  constructor <;> intro first
  · exact (equals_trans_iff discrete first same).mpr (apart item member).1
  · exact (equals_trans_iff discrete' first back).mpr (apart item member).2

/-- A list and a map in it, with other quotes and another order each time, looked for in a list. -/
theorem equality_transitive_unless_bridged_list :
    let value (first second : Value × Value) := Value.list [.map [first, second], .null] .comma true
    let a := value (.unquoted "k", .unquoted "x") (.unquoted "l", .listOf [] .space)
    let b := value (.quoted "l", .map []) (.quoted "k", .quoted "x")
    let c := value (.unquoted "l", .listOf [] .space) (.quoted "k", .unquoted "x")
    (b.Discrete ∧ c.Discrete ∧ b.Sound) ∧ a.equals b = true ∧ b.equals c = true ∧ ¬ Bridged a b c ∧
      a.equals c = true ∧ Operator.apply ⟨false⟩ .eq b c = .ok (.bool true) ∧
      Builtin.List.index [.listOf [.null, a] .comma, b] =
        Builtin.List.index [.listOf [.null, a] .comma, c] := by
  intro value a b c
  have discrete : b.Discrete ∧ c.Discrete := by
    simp [b, c, value, discrete_map_iff, discrete_list_iff, Discrete.null, unquoted, quoted, listOf,
      Discrete.string]
  have sound : b.Sound := by
    refine .list _ _ (List.forall_mem_cons.mpr ⟨.map (by decide) ?_ ?_, ?_⟩) <;>
      simp [Sound.string, quoted, Sound.null, Entries.sound_map_iff, Entries.sound_nil]
  obtain ⟨whole, places⟩ := equality_transitive_unless_bridged discrete.1
  have apart : ¬ Bridged a b c := (whole a c (by rfl) (by rfl)).mp (by rfl)
  have apart' : ¬ Bridged a c b :=
    ((equality_transitive_unless_bridged discrete.2).1 a b (by rfl) (by rfl)).mp (by rfl)
  refine ⟨⟨discrete.1, discrete.2, sound⟩, by rfl, by rfl, apart, by rfl, by rfl, ?_⟩
  refine places c ⟨false⟩ discrete.2 sound (by rfl) _ _ _ fun item member => ?_
  rcases List.mem_pair.mp member with rfl | rfl
  · exact ⟨nofun, nofun⟩
  · exact ⟨apart, apart'⟩

/-- A map without entries equals the empty list with brackets and the one without, which differ. -/
theorem equality_not_transitive :
    let bracketed := Value.list [] .space true
    let nothing := Value.map (Entries.erase (Entries.ofPairs [(.unquoted "a", .unquoted "b")]) (.unquoted "a"))
    let plain := Value.list [] .space false
    (bracketed.Discrete ∧ nothing.Discrete ∧ plain.Discrete) ∧
      bracketed.equals nothing = true ∧ nothing.equals plain = true ∧ bracketed.equals plain = false ∧
      ((Compiler.create {} (Loader.memory [])).compile
          ⟨"input.scss", "$nothing: map-remove((a: b), a);\n.a \x7b\n  first: [] == $nothing;\n" ++
            "  second: $nothing == ();\n  both: [] == ();\n\x7d\n"⟩ .scss).result =
        .ok ".a \x7b\n  first: true;\n  second: true;\n  both: false;\n\x7d\n" := by
  exact ⟨⟨.list _ _ nofun, .map nofun, .list _ _ nofun⟩, by rfl, by rfl, by rfl, by decide +kernel⟩

end Transitivity

end Scss.Value
