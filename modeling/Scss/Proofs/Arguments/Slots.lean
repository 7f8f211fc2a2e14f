import Scss.Builtin.Arguments
import Scss.Proofs.Modules.Loading

/-! Named arguments in their places. Going through a signature moves one named value after the other
among the values by place, and each such move leaves what every place is to hold, how far the places
go, and whether all names fit as they are. So these can be said of the arguments as they are passed. -/
namespace Scss.CallArgs

/-- The value for a place: the one by place, or else the one by the name that the signature has there,
or else `null`. -/
def slot (args : CallArgs) (signature : List String) (index : Nat) : Value :=
  ((args.positional[index]?).or
    ((signature[index]?).bind fun name => args.named.lookup name)).getD .null

/-- How far the places go: up to the last value by place or by name. -/
def extent (args : CallArgs) (signature : List String) : Nat :=
  (args.named.map fun entry => signature.idxOf entry.1 + 1).foldr max args.positional.length

/-- Every name is in the signature, at a place behind the values by place. -/
def Fits (args : CallArgs) (signature : List String) : Prop :=
  ∀ entry ∈ args.named, ∃ index, args.positional.length ≤ index ∧ signature[index]? = some entry.1

def moved (args : CallArgs) (name : String) (value : Value) (index : Nat) : CallArgs where
  positional :=
    args.positional ++ List.replicate (index - args.positional.length) .null ++ [value]
  named := args.named.eraseP (fun entry => entry.1 = name)

section Erasing

variable {named : List (String × Value)} {name : String} {value : Value}

/-- A name that has a value comes with it once, and the others stay in their order. -/
theorem perm_eraseP (found : named.lookup name = some value) :
    named.Perm ((name, value) :: named.eraseP (fun entry => entry.1 = name)) := by
  induction named with
  | nil => cases found
  | cons entry rest ih =>
    obtain ⟨key, own⟩ := entry
    by_cases same : key = name
    · subst same
      obtain rfl : own = value := by simpa using found
      simp
    · have apart : (name == key) = false := by simpa using fun h => same h.symm
      rw [List.lookup_cons, apart] at found
      rw [List.eraseP_cons_of_neg (by simpa using same)]
      exact ((ih found).cons _).trans (.swap _ _ _)

theorem nodup_names_eraseP (once : (Bindings.names named).Nodup)
    (found : named.lookup name = some value) :
    name ∉ Bindings.names (named.eraseP (fun entry => entry.1 = name)) ∧
      (Bindings.names (named.eraseP (fun entry => entry.1 = name))).Nodup := by
  have names := (perm_eraseP found).map Prod.fst
  exact List.nodup_cons.mp (names.nodup_iff.mp once)

theorem lookup_eraseP_of_ne {other : String} (differs : other ≠ name) :
    (named.eraseP (fun entry => entry.1 = name)).lookup other = named.lookup other := by
  induction named with
  | nil => rfl
  | cons entry rest ih =>
    obtain ⟨key, own⟩ := entry
    by_cases same : key = name
    · subst same
      have apart : (other == key) = false := by simpa using differs
      simp [List.lookup_cons, apart]
    · rw [List.eraseP_cons_of_neg (by simpa using same), List.lookup_cons, List.lookup_cons, ih]

end Erasing

section Moving

variable {args : CallArgs} {done rest : List String} {name : String} {value : Value}
  (distinct : (done ++ name :: rest).Nodup) (once : (Bindings.names args.named).Nodup)
  (ahead : ∀ other ∈ Bindings.names args.named, other ∉ done)
  (room : args.positional.length ≤ done.length) (found : args.named.lookup name = some value)

include room in
theorem length_moved : (args.moved name value done.length).positional.length = done.length + 1 := by
  simp only [moved, List.length_append, List.length_replicate, List.length_singleton]
  omega

include distinct in
/-- A name stands in one place of a signature. -/
theorem eq_of_getElem?_append {index : Nat} (listed : (done ++ name :: rest)[index]? = some name) :
    index = done.length := by
  have first : (done ++ name :: rest)[done.length]? = some name := by simp
  exact (List.getElem?_inj (by simp) distinct).mp (first.trans listed.symm) |>.symm

include distinct ahead room found in
theorem slot_moved (index : Nat) :
    (args.moved name value done.length).slot (done ++ name :: rest) index =
      args.slot (done ++ name :: rest) index := by
  have whole : (args.moved name value done.length).positional.length = done.length + 1 :=
    length_moved room
  rcases lt_trichotomy index done.length with before | rfl | behind
  · by_cases own : index < args.positional.length
    · have same : (args.moved name value done.length).positional[index]? = args.positional[index]? := by
        simp [moved, List.getElem?_append, own]
      simp [slot, same, own]
    · -- The place is one of a name that is passed neither by place nor by name.
      have padded : (args.moved name value done.length).positional[index]? = some .null := by
        rw [moved, List.getElem?_append_left (by simp; omega), List.getElem?_append_right (by omega),
          List.getElem?_replicate, if_pos (by omega)]
      have listed : (done ++ name :: rest)[index]? = some done[index] := by
        rw [List.getElem?_append_left before, List.getElem?_eq_getElem before]
      have unnamed : args.named.lookup done[index] = none :=
        Bindings.get?_eq_none_iff.mpr fun member => ahead _ member (List.getElem_mem before)
      simp [slot, padded, listed, unnamed, own]
  · have here : (args.moved name value done.length).positional[done.length]? = some value := by
      rw [moved, List.getElem?_append_right (by simp; omega)]
      simp [room]
    have open_ : args.positional[done.length]? = none := List.getElem?_eq_none room
    simp [slot, here, open_, found]
  · have outside : (args.moved name value done.length).positional[index]? = none :=
      List.getElem?_eq_none (by omega)
    have open_ : args.positional[index]? = none := List.getElem?_eq_none (by omega)
    cases listed : (done ++ name :: rest)[index]? with
    | none => simp [slot, outside, open_, listed]
    | some other =>
      have differs : other ≠ name := by
        rintro rfl
        exact behind.ne' (eq_of_getElem?_append distinct listed)
      have same : (args.moved name value done.length).named.lookup other = args.named.lookup other :=
        lookup_eraseP_of_ne differs
      simp [slot, outside, open_, listed, same]

include distinct in
theorem idxOf_behind : (done ++ name :: rest).idxOf name = done.length := by
  have apart : name ∉ done := fun member =>
    (List.nodup_append.mp distinct).2.2 name member name (List.mem_cons_self ..) rfl
  rw [List.idxOf_append_of_notMem apart, List.idxOf_cons_self, Nat.add_zero]

include distinct room found in
theorem extent_moved :
    (args.moved name value done.length).extent (done ++ name :: rest) =
      args.extent (done ++ name :: rest) := by
  let reach (entry : String × Value) : Nat := (done ++ name :: rest).idxOf entry.1 + 1
  let others := args.named.eraseP (fun entry => entry.1 = name)
  have here : reach (name, value) = done.length + 1 := by simp only [reach, idxOf_behind distinct]
  -- The place of the name bounds the values by place, before and behind the move.
  calc (args.moved name value done.length).extent (done ++ name :: rest)
      = (others.map reach).foldr max (done.length + 1) := by
        rw [extent, length_moved room]
        rfl
    _ = (others.map reach).foldr max (max args.positional.length (done.length + 1)) := by
        rw [max_eq_right (by omega)]
    _ = ((others.map reach).foldr max args.positional.length) ⊔ (done.length + 1) :=
        List.foldr_assoc
    _ = (((name, value) :: others).map reach).foldr max args.positional.length := by
        rw [max_comm, List.map_cons, List.foldr_cons, here]
    _ = args.extent (done ++ name :: rest) := (((perm_eraseP found).map reach).foldr_eq _).symm

include distinct once ahead room found in
theorem fits_moved :
    (args.moved name value done.length).Fits (done ++ name :: rest) ↔
      args.Fits (done ++ name :: rest) := by
  have members {entry : String × Value} := @List.Perm.mem_iff _ entry _ _ (perm_eraseP found)
  constructor
  · intro fits entry member
    rcases List.mem_cons.mp (members.mp member) with rfl | other
    · exact ⟨done.length, room, by simp⟩
    · obtain ⟨index, behind, listed⟩ := fits entry other
      rw [length_moved room] at behind
      exact ⟨index, by omega, listed⟩
  · intro fits entry member
    have own : entry ∈ args.named := members.mpr (List.mem_cons_of_mem _ member)
    obtain ⟨index, -, listed⟩ := fits entry own
    refine ⟨index, ?_, listed⟩
    rw [length_moved room]
    have unmoved : index ≠ done.length := by
      rintro rfl
      obtain rfl : name = entry.1 := by simpa using listed
      exact (nodup_names_eraseP once found).1 (List.mem_map_of_mem member)
    have open_ : ¬ index < done.length := by
      intro before
      rw [List.getElem?_append_left before] at listed
      exact ahead entry.1 (List.mem_map_of_mem own) (List.mem_of_getElem? listed)
    omega

end Moving

/-- Arguments without names fill the places that their values are in. -/
theorem map_slot_of_unnamed (positional : List Value) (signature : List String) :
    (List.range (extent ⟨positional, []⟩ signature)).map (slot ⟨positional, []⟩ signature) =
      positional := by
  refine List.ext_getElem (by simp [extent]) fun index _ inside => ?_
  simp [slot, inside]

/-- Going on through a signature, all names find their places or one of them does not. -/
theorem place_spec {args : CallArgs} {done rest : List String} (distinct : (done ++ rest).Nodup)
    (once : (Bindings.names args.named).Nodup)
    (ahead : ∀ other ∈ Bindings.names args.named, other ∉ done) :
    (args.Fits (done ++ rest) → place args.positional args.named done.length rest =
      .ok ((List.range (args.extent (done ++ rest))).map (args.slot (done ++ rest)))) ∧
    (¬ args.Fits (done ++ rest) →
      ∃ cause, place args.positional args.named done.length rest = .error cause) := by
  induction rest generalizing args done with
  | nil =>
    obtain ⟨positional, named⟩ := args
    cases named with
    | nil =>
      have filled := (map_slot_of_unnamed positional (done ++ [])).symm
      exact ⟨fun _ => congrArg _ filled, fun unfit => absurd nofun unfit⟩
    | cons entry others =>
      refine ⟨fun fits => ?_, fun _ => ⟨_, rfl⟩⟩
      obtain ⟨index, -, listed⟩ := fits entry (List.mem_cons_self ..)
      rw [List.append_nil] at listed
      exact absurd (List.mem_of_getElem? listed) (ahead entry.1 (List.mem_cons_self ..))
  | cons name rest ih =>
    have step : done ++ name :: rest = (done ++ [name]) ++ rest := List.append_cons ..
    have further : (done ++ [name]).length = done.length + 1 := by simp
    unfold place
    cases found : args.named.lookup name with
    | none =>
      have unnamed : name ∉ Bindings.names args.named := Bindings.get?_eq_none_iff.mp found
      dsimp only
      rw [← further, step]
      refine ih (step ▸ distinct) once fun other member => ?_
      rw [List.mem_append, List.mem_singleton, not_or]
      exact ⟨ahead other member, fun same => unnamed (same ▸ member)⟩
    | some value =>
      dsimp only
      by_cases taken : done.length < args.positional.length
      · rw [if_pos taken]
        refine ⟨fun fits => ?_, fun _ => ⟨_, rfl⟩⟩
        have member : (name, value) ∈ args.named := Bindings.mem_of_get? found
        obtain ⟨index, behind, listed⟩ := fits _ member
        have here : index = done.length := eq_of_getElem?_append distinct listed
        omega
      · rw [if_neg taken]
        have room : args.positional.length ≤ done.length := not_lt.mp taken
        obtain ⟨unnamed, others⟩ := nodup_names_eraseP once found
        have next := @ih (args.moved name value done.length) (done ++ [name]) (step ▸ distinct) others
          (fun other member => by
            rw [List.mem_append, List.mem_singleton, not_or]
            have own : other ∈ Bindings.names args.named :=
              ((perm_eraseP found).map Prod.fst).mem_iff.mpr (List.mem_cons_of_mem _ member)
            exact ⟨ahead other own, fun same => unnamed (same ▸ member)⟩)
        rw [← step, further, fits_moved distinct once ahead room found,
          extent_moved distinct room found,
          funext (slot_moved distinct ahead room found)] at next
        exact next

section Signature

variable {args : CallArgs} {signature : List String} (distinct : signature.Nodup)
  (once : (Bindings.names args.named).Nodup)

include distinct once

/-- Arguments whose names fit come to one value for each place. -/
theorem normalize_of_fits (fits : args.Fits signature) :
    args.normalize signature =
      .ok ((List.range (args.extent signature)).map (args.slot signature)) := by
  have spec := @place_spec args [] signature distinct once fun _ _ => List.not_mem_nil
  exact spec.1 fits

theorem normalize_of_not_fits (unfit : ¬ args.Fits signature) :
    ∃ cause, args.normalize signature = .error cause := by
  have spec := @place_spec args [] signature distinct once fun _ _ => List.not_mem_nil
  exact spec.2 unfit

theorem normalize_isOk_iff : (∃ slots, args.normalize signature = .ok slots) ↔ args.Fits signature := by
  constructor
  · rintro ⟨slots, done⟩
    by_contra unfit
    obtain ⟨cause, failed⟩ := normalize_of_not_fits distinct once unfit
    cases done.symm.trans failed
  · exact fun fits => ⟨_, normalize_of_fits distinct once fits⟩

end Signature

section Order

variable {args other : CallArgs} {signature : List String}
  (positional : other.positional = args.positional) (named : other.named.Perm args.named)

include positional named

theorem fits_of_perm : other.Fits signature ↔ args.Fits signature := by
  simp only [Fits, positional, named.mem_iff]

theorem extent_of_perm : other.extent signature = args.extent signature := by
  rw [extent, extent, positional]
  exact (named.map _).foldr_eq _

theorem slot_of_perm (once : (Bindings.names args.named).Nodup) :
    other.slot signature = args.slot signature := by
  have onceOther : (Bindings.names other.named).Nodup := (named.map Prod.fst).nodup_iff.mpr once
  have same (name : String) : other.named.lookup name = args.named.lookup name := by
    cases found : args.named.lookup name with
    | none =>
      have unnamed : name ∉ Bindings.names args.named := Bindings.get?_eq_none_iff.mp found
      exact Bindings.get?_eq_none_iff.mpr fun member =>
        unnamed ((named.map Prod.fst).mem_iff.mp member)
    | some value =>
      have member : (name, value) ∈ args.named := Bindings.mem_of_get? found
      exact Bindings.get?_of_mem onceOther (named.mem_iff.mpr member)
  funext index
  simp only [slot, positional, same]

end Order

end Scss.CallArgs
