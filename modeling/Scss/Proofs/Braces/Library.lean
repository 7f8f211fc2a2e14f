import Scss.Eval.Intrinsic
import Scss.Proofs.Braces.Values

/-! The functions of the library make no braces: each takes its result from its arguments, computes a
number or a colour, or writes out its own call. -/
namespace Scss

open Text (Braceless)

namespace Entries

def Braceless (entries : Entries) : Prop :=
  ∀ entry ∈ entries, entry.1.Braceless ∧ entry.2.Braceless

variable {entries other : Entries} {key value : Value}

theorem Braceless.map (clean : entries.Braceless) : (Value.map entries).Braceless :=
  .map (fun entry member => (clean entry member).1) fun entry member => (clean entry member).2

theorem braceless_of_map (clean : (Value.map entries).Braceless) : Entries.Braceless entries := by
  cases clean with
  | map keys values => exact fun entry member => ⟨keys entry member, values entry member⟩

theorem Braceless.get? (clean : entries.Braceless) (key : Value) :
    ∀ found ∈ entries.get? key, found.Braceless := by
  intro found same
  obtain ⟨entry, present, rfl⟩ := Option.map_eq_some_iff.mp same
  exact (clean entry (List.mem_of_find?_eq_some present)).2

theorem Braceless.insert (clean : entries.Braceless) (name : key.Braceless)
    (added : value.Braceless) : (entries.insert key value).Braceless := by
  induction entries with
  | nil => simpa [Entries.insert, Entries.Braceless] using ⟨name, added⟩
  | cons entry rest ih =>
    obtain ⟨first, others⟩ := List.forall_mem_cons.mp clean
    rw [Entries.insert]
    split
    · exact List.forall_mem_cons.mpr ⟨⟨name, added⟩, others⟩
    · exact List.forall_mem_cons.mpr ⟨first, ih others⟩

theorem Braceless.merge (clean : entries.Braceless) (second : Entries.Braceless other) :
    (entries.merge other).Braceless := by
  unfold Entries.merge
  induction other generalizing entries with
  | nil => exact clean
  | cons entry rest ih =>
    obtain ⟨first, others⟩ := List.forall_mem_cons.mp second
    exact ih (clean.insert first.1 first.2) others

theorem braceless_ofPairs {pairs : List (Value × Value)} (clean : Entries.Braceless pairs) :
    (ofPairs pairs).Braceless := by
  have nothing : Entries.Braceless [] := by simp [Entries.Braceless]
  exact nothing.merge clean

theorem Braceless.eraseAll (clean : entries.Braceless) (keys : List Value) :
    Entries.Braceless (keys.foldl Entries.erase entries) := by
  induction keys generalizing entries with
  | nil => exact clean
  | cons key rest ih => exact ih fun entry member => clean entry (List.mem_of_mem_eraseP member)

mutual

theorem braceless_deepMerge : (entries : Entries) → entries.Braceless →
    (other : List (Value × Value)) → Entries.Braceless other →
      (Entries.deepMerge entries other).Braceless
  | _, clean, [], _ => clean
  | entries, clean, (key, value) :: rest, second => by
    obtain ⟨first, others⟩ := List.forall_mem_cons.mp second
    have merged := braceless_deepValue (entries.get? key) (clean.get? key) value first.2
    exact braceless_deepMerge _ (clean.insert first.1 merged) rest others

theorem braceless_deepValue : (own : Option Value) → (∀ found ∈ own, found.Braceless) →
    (value : Value) → value.Braceless → (Entries.deepValue own value).Braceless
  | own, clean, .map other, second => by
    rcases own with _ | (_ | _ | _ | _ | _ | _ | entries | _ | _)
    case some.map =>
      have first := braceless_of_map (clean _ rfl)
      exact (braceless_deepMerge entries first other (braceless_of_map second)).map
    all_goals exact second
  | _, _, .null, second | _, _, .bool _, second | _, _, .number _, second
  | _, _, .string _ _, second | _, _, .color _, second | _, _, .list _ _ _, second
  | _, _, .function _, second | _, _, .mixin _, second => second

end

end Entries

def Slots.Braceless (args : Slots) : Prop := ∀ value ∈ args, value.Braceless

/-- Arguments without braces in names and values. -/
structure CallArgs.Braceless (args : CallArgs) : Prop where
  positional : Slots.Braceless args.positional
  named : ∀ entry ∈ args.named, Text.Braceless entry.1 ∧ entry.2.Braceless

theorem mem_of_lookup {α : Type} {entries : List (String × α)} {key : String} {value : α}
    (found : entries.lookup key = some value) : (key, value) ∈ entries := by
  obtain ⟨before, after, rfl, -⟩ := List.lookup_eq_some_iff.mp found
  simp

namespace CallArgs

variable {named : List (String × Value)}

theorem braceless_insertNamed {name : String} {value : Value}
    (clean : ∀ entry ∈ named, Text.Braceless entry.1 ∧ entry.2.Braceless)
    (label : Text.Braceless name) (added : value.Braceless) :
    ∀ entry ∈ insertNamed name value named, Text.Braceless entry.1 ∧ entry.2.Braceless := by
  induction named with
  | nil => simpa [insertNamed] using ⟨label, added⟩
  | cons entry rest ih =>
    obtain ⟨first, others⟩ := List.forall_mem_cons.mp clean
    rw [insertNamed]
    split
    · exact List.forall_mem_cons.mpr ⟨⟨label, added⟩, others⟩
    · exact List.forall_mem_cons.mpr ⟨first, ih others⟩

theorem yields_place {values : List Value} (params : List String) (index : Nat)
    (given : Slots.Braceless values) (clean : ∀ entry ∈ named, entry.2.Braceless) :
    Yields Slots.Braceless (place values named index params) := by
  induction params generalizing values named index with
  | nil =>
    cases named with
    | nil => exact .ok given
    | cons entry rest => exact .error _
  | cons param rest ih =>
    rw [place]
    split
    · exact ih (index + 1) given clean
    · rename_i value found
      split
      · exact .error _
      · refine ih (index + 1) ?_ fun entry member => clean entry (List.mem_of_mem_eraseP member)
        intro other member
        simp only [List.mem_append, List.mem_singleton] at member
        rcases member with (earlier | filler) | rfl
        · exact given other earlier
        · rw [List.eq_of_mem_replicate filler]
          exact .null
        · exact clean _ (mem_of_lookup found)

theorem Braceless.normalize {args : CallArgs} (clean : args.Braceless) (signature : List String) :
    Yields Slots.Braceless (args.normalize signature) :=
  yields_place signature 0 clean.positional fun entry member => (clean.named entry member).2

end CallArgs

namespace Slots.Braceless

variable {args : Slots}

theorem get? (clean : args.Braceless) (index : Nat) :
    ∀ value ∈ args.get? index, value.Braceless := by
  intro value found
  unfold Slots.get? at found
  split at found
  · cases found
  · exact clean value (List.mem_of_getElem? found)

theorem valueAt (clean : args.Braceless) (index : Nat) : (args.valueAt index).Braceless := by
  unfold Slots.valueAt
  cases found : args[index]? with
  | none => exact .null
  | some value => exact clean value (List.mem_of_getElem? found)

theorem required (clean : args.Braceless) (index : Nat) (param : String) :
    Yields Value.Braceless (args.required index param) := by
  unfold Slots.required
  split
  · rename_i value found
    exact .ok (clean.get? index value found)
  · exact .error _

theorem number (clean : args.Braceless) (index : Nat) (param : String) :
    Yields Number.Braceless (args.number index param) := by
  refine .bind (clean.required index param) fun value found => ?_
  split
  · cases found with
    | number clean => exact .ok clean
  · exact .error _

theorem map (clean : args.Braceless) (index : Nat) (param : String) :
    Yields Entries.Braceless (args.map index param) := by
  refine .bind (clean.required index param) fun value found => ?_
  split
  · exact .ok (Entries.braceless_of_map found)
  · exact .ok (by simp [Entries.Braceless])
  · exact .error _

theorem filter (clean : args.Braceless) (p : Value → Bool) : Slots.Braceless (List.filter p args) :=
  fun value member => clean value (List.mem_of_mem_filter member)

theorem css (clean : args.Braceless) : ∀ text ∈ List.map Value.css args, Text.Braceless text := by
  intro text member
  obtain ⟨value, found, rfl⟩ := List.mem_map.mp member
  exact (clean value found).css

end Slots.Braceless

/-- A call that is written out. -/
theorem braceless_callText {name : String} {texts : List String} (label : Braceless name)
    (clean : ∀ text ∈ texts, Braceless text) :
    Braceless (name ++ "(" ++ Text.join ", " texts ++ ")") := by
  simpa +decide using ⟨label, Text.braceless_intercalate (by decide) clean⟩

/-- The value that a function comes to has no braces; a number that is drawn has none anyway. -/
def Computed.Braceless : Computed → Prop
  | .value result _ => result.Braceless
  | .draw _ => True

namespace Builtin.Math

variable {args : Slots}

theorem yields_onValue (clean : args.Braceless) (f : Float → Float) :
    Yields Value.Braceless (onValue args f) :=
  .bind (clean.number 0 _) fun _ found => .ok (.number found)

theorem yields_best (wanted : Ordering) {found : Option Number}
    (start : ∀ n ∈ found, Number.Braceless n) (clean : args.Braceless) :
    Yields Value.Braceless (best wanted found args) := by
  induction args generalizing found with
  | nil =>
    cases found with
    | none => exact .ok .null
    | some n => exact .ok (.number (start n rfl))
  | cons value rest ih =>
    obtain ⟨first, others⟩ := List.forall_mem_cons.mp clean
    cases value with
    | number n =>
      cases first with
      | number own =>
        cases found with
        | none => exact ih (by simpa using own) others
        | some current =>
          refine .bind (.any _) fun order _ => ih ?_ others
          have kept := start current rfl
          split <;> simpa
    | _ => exact .error _

theorem yields_extremum (wanted : Ordering) (clean : args.Braceless) :
    Yields Value.Braceless (extremum wanted args) :=
  .bind (.any _) fun _ _ => yields_best wanted (by simp) clean

theorem yields_clamp (clean : args.Braceless) : Yields Value.Braceless (clamp args) := by
  refine .bind (clean.number 0 _) fun low least => ?_
  refine .bind (clean.number 1 _) fun n own => ?_
  refine .bind (clean.number 2 _) fun high most => ?_
  refine .bind (.any _) fun below _ => ?_
  split
  · exact .ok (.number least)
  · refine .bind (.any _) fun above _ => ?_
    split
    · exact .ok (.number most)
    · exact .ok (.number own)

theorem yields_logarithm : Yields Value.Braceless (logarithm args) := by
  refine .bind (.any _) fun n _ => ?_
  split
  · exact .bind (.any _) fun _ _ => .ok (Value.braceless_ofFloat _)
  · exact .ok (Value.braceless_ofFloat _)

theorem yields_hypot (clean : args.Braceless) : Yields Value.Braceless (hypot args) :=
  .bind (clean.number 0 _) fun _ found => .bind (.any _) fun _ _ => .ok (.number found)

theorem braceless_degrees (radians : Float) : (degrees radians).Braceless :=
  .number fun _ same => Option.some.inj same ▸ by decide

theorem yields_ofAngle (f : Float → Float) : Yields Value.Braceless (ofAngle args f) :=
  .bind (.any _) fun _ _ => .bind (.any _) fun _ _ => .ok (Value.braceless_ofFloat _)

theorem yields_toAngle (f : Float → Float) : Yields Value.Braceless (toAngle args f) :=
  .bind (.any _) fun _ _ => .ok (braceless_degrees _)

theorem yields_compute (name : String) (clean : args.Braceless) :
    Yields Value.Braceless (compute name args) := by
  unfold compute
  split
  case h_1 | h_2 | h_3 | h_4 => exact yields_onValue clean _
  case h_5 | h_6 => exact yields_extremum _ clean
  case h_7 => exact yields_clamp clean
  case h_8 =>
    refine .bind (clean.number 0 _) fun left own => .bind (.any _) fun right _ => ?_
    exact .bind own.div fun _ result => .ok (.number result)
  case h_9 => exact .bind (.any _) fun _ _ => .ok (.number fun _ same => Option.some.inj same ▸ by decide)
  case h_10 => exact .bind (.any _) fun _ _ => .ok (Value.braceless_ofFloat _)
  case h_11 =>
    exact .bind (.any _) fun _ _ => .bind (.any _) fun _ _ => .ok (Value.braceless_ofFloat _)
  case h_12 => exact yields_logarithm
  case h_13 => exact yields_hypot clean
  case h_14 | h_15 | h_16 => exact yields_ofAngle _
  case h_17 | h_18 | h_19 => exact yields_toAngle _
  case h_20 =>
    exact .bind (.any _) fun _ _ => .bind (.any _) fun _ _ => .bind (.any _) fun _ _ =>
      .ok (braceless_degrees _)
  case h_21 => exact .bind (clean.number 0 _) fun _ found => .ok (.string _ found.unitText)
  case h_22 => exact .bind (.any _) fun _ _ => .ok (.bool _)
  case h_23 => exact .bind (.any _) fun _ _ => .bind (.any _) fun _ _ => .ok (.bool _)
  case h_24 => exact .error _

theorem yields_run {name : String} (label : Text.Braceless name) (clean : args.Braceless) :
    Yields Computed.Braceless (run name args) := by
  unfold run
  split
  · split
    · exact .bind (.any _) fun _ _ => .ok trivial
    · exact .bind (yields_compute name clean) fun _ found => .ok found
  · exact .ok (Value.Braceless.unquoted (braceless_callText label (clean.filter _).css))

end Builtin.Math

namespace Builtin.List

variable {args : Slots}

theorem yields_join (clean : args.Braceless) : Yields Value.Braceless (join args) := by
  refine .bind (clean.required 0 _) fun first left => ?_
  refine .bind (clean.required 1 _) fun second right => ?_
  refine .bind (.any _) fun separator _ => .ok (.list _ _ fun item member => ?_)
  rcases List.mem_append.mp member with inFirst | inSecond
  · exact left.toList item inFirst
  · exact right.toList item inSecond

theorem yields_append (clean : args.Braceless) : Yields Value.Braceless (append args) := by
  refine .bind (clean.required 0 _) fun list found => ?_
  refine .bind (.any _) fun separator _ => .ok (.list _ _ fun item member => ?_)
  rcases List.mem_append.mp member with inside | last
  · exact found.toList item inside
  · rw [List.mem_singleton.mp last]
    exact clean.valueAt 1

theorem braceless_zip (clean : args.Braceless) : (zip args).Braceless := by
  refine .listOf (fun row member => ?_) .comma
  obtain ⟨place, -, rfl⟩ := List.mem_map.mp member
  refine .listOf (fun item inside => ?_) .space
  obtain ⟨list, among, found⟩ := List.mem_filterMap.mp inside
  obtain ⟨value, given, rfl⟩ := List.mem_map.mp among
  exact (clean value (List.mem_of_mem_filter given)).toList item (List.mem_of_getElem? found)

theorem yields_setNth (clean : args.Braceless) : Yields Value.Braceless (setNth args) := by
  refine .bind (clean.required 0 _) fun list found => ?_
  refine .bind (.any _) fun place _ => .ok (.list _ _ fun item member => ?_)
  rcases List.mem_or_eq_of_mem_set member with inside | rfl
  · exact found.toList item inside
  · exact clean.valueAt 2

theorem yields_index : Yields Value.Braceless (index args) := by
  refine .bind (.any _) fun list _ => ?_
  split
  · exact .ok (Value.braceless_ofFloat _)
  · exact .ok .null

theorem yields_slash (clean : args.Braceless) : Yields Value.Braceless (slash args) := by
  unfold slash
  dsimp only
  split
  · exact .error _
  · exact .ok (.listOf (clean.filter _) .slash)

theorem yields_compute (name : String) (clean : args.Braceless) :
    Yields Value.Braceless (compute name args) := by
  unfold compute
  split
  case h_1 => exact .bind (.any _) fun _ _ => .ok (Value.braceless_ofFloat _)
  case h_2 =>
    refine .bind (clean.required 0 _) fun list found => .bind (.any _) fun place _ => .ok ?_
    cases member : list.toList[place]? with
    | none => exact .null
    | some item => exact found.toList item (List.mem_of_getElem? member)
  case h_3 => exact yields_setNth clean
  case h_4 => exact yields_join clean
  case h_5 => exact yields_append clean
  case h_6 => exact .ok (braceless_zip clean)
  case h_7 => exact yields_index
  case h_8 =>
    refine .bind (.any _) fun list _ => .ok (.unquoted ?_)
    cases list.separator <;> decide
  case h_9 => exact .bind (.any _) fun _ _ => .ok (.bool _)
  case h_10 => exact yields_slash clean
  case h_11 => exact .error _

end Builtin.List

namespace Builtin.Map

variable {args : Slots}

theorem braceless_lookup (path : List Value) {entries : Entries} (clean : entries.Braceless) :
    ∀ found ∈ lookup? entries path, found.Braceless := by
  fun_induction lookup? entries path with
  | case1 => simp
  | case2 entries key => exact clean.get? key
  | case3 entries key rest more inner found ih =>
    exact ih (Entries.braceless_of_map (clean.get? key _ found))
  | case4 => simp

theorem yields_find (clean : args.Braceless) :
    Yields (fun found => ∀ value ∈ found, Value.Braceless value) (find args) :=
  .bind (clean.map 0 _) fun _ entries => .bind (.any _) fun _ _ =>
    .ok (braceless_lookup _ entries)

theorem yields_compute (name : String) (clean : args.Braceless) :
    Yields Value.Braceless (compute name args) := by
  unfold compute
  split
  case h_1 =>
    refine .bind (yields_find clean) fun found result => .ok ?_
    cases found with
    | none => exact .null
    | some value => exact result value rfl
  case h_2 => exact .bind (.any _) fun _ _ => .ok (.bool _)
  case h_3 =>
    exact .bind (clean.map 0 _) fun _ first => .bind (clean.map 1 _) fun _ second =>
      .ok (first.merge second).map
  case h_4 =>
    exact .bind (clean.map 0 _) fun _ first => .bind (clean.map 1 _) fun _ second =>
      .ok (Entries.braceless_deepMerge _ first _ second).map
  case h_5 => exact .bind (clean.map 0 _) fun _ entries => .ok (entries.eraseAll _).map
  case h_6 =>
    refine .bind (clean.map 0 _) fun entries found => .ok (.listOf (fun key member => ?_) .comma)
    obtain ⟨entry, inside, rfl⟩ := List.mem_map.mp member
    exact (found entry inside).1
  case h_7 =>
    refine .bind (clean.map 0 _) fun entries found => .ok (.listOf (fun key member => ?_) .comma)
    obtain ⟨entry, inside, rfl⟩ := List.mem_map.mp member
    exact (found entry inside).2
  case h_8 => exact .error _

end Builtin.Map

namespace Builtin.Color

variable {args : Slots}

/-- Any colour that is computed has no spelling. -/
theorem braceless_ofRgba (red green blue alpha : Float) :
    (Value.color (.ofRgba red green blue alpha)).Braceless :=
  .color (Scss.Color.braceless_ofRgba red green blue alpha)

theorem braceless_kept {name : String} (label : Text.Braceless name) (clean : args.Braceless) :
    (kept name args).Braceless :=
  .unquoted (braceless_callText label clean.css)

/-- The channels that `rgb()` is given, one by one or as one list. -/
def channels (given : Slots) : Slots :=
  match given with
  | [.list items _ _] => items
  | other => other

theorem braceless_channels {given : Slots} (clean : given.Braceless) : (channels given).Braceless := by
  unfold channels
  split
  · exact Value.Braceless.toList (clean _ List.mem_cons_self)
  · exact clean

theorem yields_rgb {name : String} (label : Text.Braceless name) (clean : args.Braceless) :
    Yields Value.Braceless (rgb name args) := by
  have spread := braceless_channels (clean.filter fun value => !value.isNull)
  unfold rgb
  dsimp only
  split
  · exact .ok (braceless_ofRgba _ _ _ _)
  · exact .ok (braceless_kept label spread)
  · split
    · exact .ok (braceless_ofRgba _ _ _ _)
    · exact .ok (braceless_ofRgba _ _ _ _)
    · exact .error _
    · exact .ok (braceless_kept label spread)

theorem yields_adjust : Yields Value.Braceless (adjust args) := by
  refine .bind (.any _) fun c _ => ?_
  refine .bind (.any _) fun red _ => .bind (.any _) fun green _ => .bind (.any _) fun blue _ => ?_
  refine .bind (.any _) fun alpha _ => .bind (.any _) fun hue _ => ?_
  refine .bind (.any _) fun saturation _ => .bind (.any _) fun lightness _ => ?_
  split
  · exact .ok (braceless_ofRgba _ _ _ _)
  · exact .ok (braceless_ofRgba _ _ _ _)

/-- A function that takes one colour, makes another and needs no more. -/
theorem yields_ofColor (index : Nat) (param : String) (f : Scss.Color → Value)
    (result : ∀ c, (f c).Braceless) :
    Yields Value.Braceless (do return f (← args.color index param)) :=
  .bind (.any _) fun c _ => .ok (result c)

theorem yields_shade (sign : Float) : Yields Value.Braceless (shade sign args) :=
  .bind (.any _) fun _ _ => .bind (.any _) fun _ _ => .ok (braceless_ofRgba _ _ _ _)

theorem yields_tone (sign : Float) : Yields Value.Braceless (tone sign args) :=
  .bind (.any _) fun _ _ => .bind (.any _) fun _ _ => .ok (braceless_ofRgba _ _ _ _)

theorem yields_fade (sign : Float) : Yields Value.Braceless (fade sign args) :=
  .bind (.any _) fun _ _ => .bind (.any _) fun _ _ => .ok (braceless_ofRgba _ _ _ _)

theorem yields_invert : Yields Value.Braceless (invert args) := by
  refine .bind (.any _) fun c _ => ?_
  split
  · exact .bind (.any _) fun _ _ => .ok (braceless_ofRgba _ _ _ _)
  · exact .ok (braceless_ofRgba _ _ _ _)

theorem yields_mixArgs : Yields Value.Braceless (mixArgs args) := by
  refine .bind (.any _) fun first _ => .bind (.any _) fun second _ => ?_
  split
  · exact .bind (.any _) fun _ _ => .ok (braceless_ofRgba _ _ _ _)
  · exact .ok (braceless_ofRgba _ _ _ _)

theorem yields_compute {name : String} (label : Text.Braceless name) (clean : args.Braceless) :
    Yields Value.Braceless (compute name args) := by
  unfold compute
  split
  case h_1 | h_2 => exact yields_rgb label clean
  case h_3 | h_4 | h_5 | h_6 => exact yields_ofColor _ _ _ fun _ => Value.braceless_ofFloat _
  case h_7 | h_8 => exact yields_shade _
  case h_9 | h_10 => exact yields_tone _
  case h_11 =>
    exact .bind (.any _) fun _ _ => .bind (.any _) fun _ _ => .ok (braceless_ofRgba _ _ _ _)
  case h_12 | h_13 => exact yields_ofColor _ _ _ fun _ => braceless_ofRgba _ _ _ _
  case h_14 => exact yields_invert
  case h_15 | h_16 => exact yields_fade _
  case h_17 => exact yields_mixArgs
  case h_18 => exact yields_adjust
  case h_19 => exact .error _

end Builtin.Color

namespace Gradient

theorem braceless_addSegment {before : List String} {segment : String}
    (clean : ∀ text ∈ before, Braceless text) (added : Braceless segment) :
    ∀ text ∈ addSegment before segment, Braceless text := by
  cases before with
  | nil => simpa [addSegment] using added
  | cons last rest =>
    obtain ⟨first, others⟩ := List.forall_mem_cons.mp clean
    rw [addSegment]
    split
    · refine List.forall_mem_cons.mpr ⟨?_, others⟩
      simpa +decide using ⟨first, added⟩
    · split
      · exact List.forall_mem_cons.mpr ⟨(Text.braceless_append _ _).mpr ⟨first, added⟩, others⟩
      · exact List.forall_mem_cons.mpr ⟨added, clean⟩

theorem braceless_segments {args : List String} (clean : ∀ text ∈ args, Braceless text) :
    ∀ text ∈ segments args, Braceless text := by
  have folded (pieces before : List String) (more : ∀ text ∈ pieces, Braceless text)
      (start : ∀ text ∈ before, Braceless text) :
      ∀ text ∈ pieces.foldl addSegment before, Braceless text := by
    induction pieces generalizing before with
    | nil => exact start
    | cons piece rest ih =>
      obtain ⟨first, others⟩ := List.forall_mem_cons.mp more
      exact ih _ others (braceless_addSegment start first)
  intro text member
  refine folded _ [] (fun piece found => ?_) (by simp) text (List.mem_reverse.mp member)
  obtain ⟨arg, given, inside⟩ := List.mem_flatMap.mp (List.mem_of_mem_filter found)
  exact (clean arg given).splitTopLevel ',' piece inside

end Gradient

namespace Builtin.Native

variable {args : Slots} {name : String}

theorem braceless_texts (clean : args.Braceless) : ∀ text ∈ texts args, Braceless text := by
  intro text member
  obtain ⟨value, found, rfl⟩ := List.mem_map.mp (List.mem_of_mem_filter member)
  exact (clean value found).bare

theorem braceless_parts {text : String} (clean : Braceless text) :
    ∀ part ∈ parts text, Braceless part := by
  intro part member
  obtain ⟨word, found, rfl⟩ := List.mem_map.mp member
  refine (Text.braceless_ofList _).mpr (Chars.Braceless.words ?_ word found)
  refine Chars.Braceless.map (fun c other => ?_) clean
  split
  · rfl
  · exact other

theorem braceless_opacity {text : String} (clean : Braceless text) : Braceless (opacity text) := by
  unfold opacity
  split
  · exact Decimal.braceless_text _
  · exact clean

theorem braceless_color (label : Braceless name) (clean : args.Braceless) :
    Braceless (color name args) := by
  have channels : ∀ part ∈ (texts args).flatMap parts, Braceless part := by
    intro part member
    obtain ⟨text, found, inside⟩ := List.mem_flatMap.mp member
    exact braceless_parts (braceless_texts clean text found) part inside
  unfold color
  dsimp only
  split
  · rename_i a b c split
    simp only [split, List.forall_mem_cons] at channels
    obtain ⟨first, second, third, -⟩ := channels
    split
    · simpa +decide using ⟨⟨first, second⟩, third⟩
    · simpa +decide using ⟨⟨⟨label, first⟩, second⟩, third⟩
  · rename_i a b c alpha split
    simp only [split, List.forall_mem_cons] at channels
    obtain ⟨first, second, third, fourth, -⟩ := channels
    have last := braceless_opacity fourth
    split
    · simpa +decide using ⟨⟨⟨first, second⟩, third⟩, last⟩
    · simpa +decide using ⟨⟨⟨⟨label, first⟩, second⟩, third⟩, last⟩
  · exact braceless_callText label (braceless_texts clean)

theorem braceless_gradient (label : Braceless name) (clean : args.Braceless) :
    Braceless (gradient name args) :=
  braceless_callText label (Gradient.braceless_segments (braceless_texts clean))

end Builtin.Native

/-- A family whose functions, names and variables have no braces. -/
structure Family.Braceless (family : Family) : Prop where
  run : ∀ name args, Text.Braceless name → Slots.Braceless args →
    Yields Computed.Braceless (family.run name args)
  constants : ∀ constant ∈ family.constants, constant.2.Braceless
  aliases : ∀ entry ∈ family.aliases, Text.Braceless entry.2

/-- A family that computes values, without a warning and without variables. -/
theorem Family.braceless_of_compute {family : Family}
    {compute : String → Slots → Except Cause Value}
    (runs : family.run = fun name args => (compute name args).map .plain)
    (computes : ∀ name args, Text.Braceless name → Slots.Braceless args →
      Yields Value.Braceless (compute name args))
    (constants : family.constants = [])
    (aliases : ∀ entry ∈ family.aliases, Text.Braceless entry.2) : family.Braceless where
  run name args label clean := by
    rw [runs]
    exact .map (computes name args label clean) fun _ result => result
  constants := by simp [constants]
  aliases := aliases

/-- A family that writes its calls out. -/
theorem Builtin.Native.braceless_family (globals : List String) {text : String → Slots → String}
    (writes : ∀ name args, Text.Braceless name → Slots.Braceless args →
      Text.Braceless (text name args)) : (family globals text).Braceless where
  run name args label clean := .ok (Value.Braceless.unquoted (writes name args label clean))
  constants := by simp [family]
  aliases := by simp [family]

namespace Registry

theorem braceless_builtin : ∀ family ∈ builtin.families, family.Braceless := by
  simp only [builtin, List.forall_mem_cons]
  refine ⟨⟨fun _ _ => Builtin.Math.yields_run, ?_, by decide⟩, ?_, ?_, ?_, ?_, ?_, by simp⟩
  · intro constant member
    fin_cases member <;> exact Value.braceless_ofFloat _
  · exact Family.braceless_of_compute rfl (fun name _ _ => Builtin.List.yields_compute name) rfl
      (by decide)
  · exact Family.braceless_of_compute rfl (fun name _ _ => Builtin.Map.yields_compute name) rfl
      (by decide)
  · exact Family.braceless_of_compute rfl (fun _ _ => Builtin.Color.yields_compute) rfl (by decide)
  · exact Builtin.Native.braceless_family _ fun _ _ => Builtin.Native.braceless_color
  · exact Builtin.Native.braceless_family _ fun _ _ => Builtin.Native.braceless_gradient

theorem braceless_constants (name : String) :
    ∀ constant ∈ builtin.constants name, constant.2.Braceless := by
  intro constant member
  obtain ⟨family, found, inside⟩ := List.mem_flatMap.mp member
  exact (braceless_builtin family (List.mem_of_mem_filter found)).constants constant inside

theorem yields_call {qualifier : Option String} {name : String} {args : CallArgs} {format : Format}
    (label : Braceless name) (clean : args.Braceless) :
    ∀ result ∈ builtin.call? qualifier name args format,
      Yields Computed.Braceless result := by
  intro result found
  obtain ⟨⟨family, called⟩, present, rfl⟩ := Option.map_eq_some_iff.mp found
  obtain ⟨owner, among, same⟩ := Option.map_eq_some_iff.mp present
  obtain ⟨rfl, rfl⟩ := Prod.mk.inj same
  have known := braceless_builtin owner (List.mem_of_find?_eq_some among)
  have named : Braceless ((owner.aliases.lookup (normalizeName name)).getD (normalizeName name)) := by
    cases other : owner.aliases.lookup (normalizeName name) with
    | none => exact label.normalizeName
    | some text => exact known.aliases _ (mem_of_lookup other)
  refine .bind (clean.normalize _) fun values given => known.run _ _ named ?_
  split
  · exact given
  · intro value member
    obtain ⟨original, inside, rfl⟩ := List.mem_map.mp member
    exact .unquoted (format.braceless_value (given original inside))

end Registry

namespace Intrinsic

theorem braceless_module {values : Slots} (clean : values.Braceless) (index : Nat) :
    ∀ text ∈ module? values index, Braceless text := by
  intro text found
  obtain ⟨value, inside, rfl⟩ := Option.map_eq_some_iff.mp found
  exact (clean.get? index value inside).bare

theorem yields_mapText {change : String → String} {value : Value}
    (harmless : ∀ text, Braceless text → Braceless (change text)) (clean : value.Braceless) :
    Yields Value.Braceless (mapText change value) := by
  cases clean with
  | string quoted clean => exact .ok (.string _ (harmless _ clean))
  | _ => exact .error _

theorem braceless_typeName (value : Value) : Braceless value.typeName := by
  cases value <;> (rw [Value.typeName]; decide)

theorem yields_apply (setup : Setup) (machine : Machine) (name : String) {first : Value}
    {values : Slots} (own : first.Braceless) (clean : values.Braceless) :
    Yields Value.Braceless (apply setup machine name first values) := by
  unfold apply
  split
  case h_1 => exact .ok (.unquoted (braceless_typeName first))
  case h_2 => exact .ok (.unquoted own.inspect)
  case h_3 | h_4 => exact .ok (.bool _)
  case h_5 | h_6 => exact .map (.any _) fun _ _ => .bool _
  case h_7 => exact .ok (.function ⟨braceless_module clean 2, own.bare⟩)
  case h_8 | h_9 => exact .ok (.string _ own.bare)
  case h_10 => exact yields_mapText (fun _ => Text.Braceless.upper) own
  case h_11 => exact yields_mapText (fun _ => Text.Braceless.lower) own
  case h_12 => exact .error _

theorem yields_run (setup : Setup) (machine : Machine) (name : String) {args : CallArgs}
    (clean : args.Braceless) : Yields Value.Braceless (run setup machine name args) := by
  refine .bind (clean.normalize _) fun values given => ?_
  cases values with
  | nil => exact .error _
  | cons first rest => exact yields_apply setup machine name (given _ List.mem_cons_self) given

end Intrinsic

end Scss
