import Scss.Eval.Calc
import Scss.Proofs.Braces

/-! Values without braces in any of their texts. Formatting, operators and the functions of the
library keep to them: a number is written in digits, and everything else is text that was there. -/
namespace Scss

open Text (Braceless)

/-- A result is good if there is one. -/
def Yields {ε α : Type} (good : α → Prop) (result : Except ε α) : Prop :=
  ∀ value, result = .ok value → good value

namespace Yields

variable {ε α β : Type} {good : α → Prop} {fine : β → Prop}

theorem ok {value : α} (result : good value) : Yields good (.ok value : Except ε α) := by
  intro other same
  obtain rfl := Except.ok.inj same
  exact result

theorem error (fault : ε) : Yields good (.error fault : Except ε α) :=
  fun _ same => nomatch same

theorem bind {action : Except ε α} {next : α → Except ε β} (first : Yields good action)
    (second : ∀ value, good value → Yields fine (next value)) : Yields fine (action >>= next) := by
  cases action with
  | error fault => exact error fault
  | ok value => exact second value (first value rfl)

theorem map {action : Except ε α} {f : α → β} (first : Yields good action)
    (second : ∀ value, good value → fine (f value)) : Yields fine (f <$> action) := by
  cases action with
  | error fault => exact error fault
  | ok value => exact ok (second value (first value rfl))

theorem mapM {step : α → Except ε β} {items : List α}
    (each : ∀ item ∈ items, Yields fine (step item)) :
    Yields (fun results => ∀ result ∈ results, fine result) (items.mapM step) := by
  induction items with
  | nil => exact ok (by simp)
  | cons item rest ih =>
    rw [List.mapM_cons]
    refine bind (each item (by simp)) fun first head => ?_
    refine bind (ih fun other member => each other (by simp [member])) fun others tail => ?_
    exact ok (by simpa using ⟨head, tail⟩)

/-- Of some results nothing has to be known. -/
theorem any (result : Except ε α) : Yields (fun _ => True) result := fun _ _ => trivial

end Yields

section Digits

theorem isBrace_digitChar (digit : Nat) : isBrace digit.digitChar = false := by
  have letters : ∀ small < 16, isBrace (Nat.digitChar small) = false := by decide
  rcases Nat.lt_or_ge digit 16 with small | large
  · exact letters digit small
  · rw [Nat.digitChar_eq_star.mpr large]
    rfl

theorem braceless_toDigits (base n : Nat) : Chars.Braceless (Nat.toDigits base n) := by
  have core (fuel n : Nat) (digits : List Char) (clean : Chars.Braceless digits) :
      Chars.Braceless (Nat.toDigitsCore base fuel n digits) := by
    induction fuel generalizing n digits with
    | zero => exact clean
    | succ fuel ih =>
      have longer : Chars.Braceless ((n % base).digitChar :: digits) := by
        rw [Chars.braceless_cons]
        exact ⟨isBrace_digitChar _, clean⟩
      rw [Nat.toDigitsCore]
      split
      · exact longer
      · exact ih _ _ longer
  exact core _ n [] Chars.braceless_nil

theorem braceless_replicate (count : Nat) {c : Char} (other : isBrace c = false) :
    Chars.Braceless (List.replicate count c) := by
  intro d member
  rw [List.eq_of_mem_replicate member, other]

theorem braceless_nat (n : Nat) : Braceless (toString n) := by
  rw [Nat.toString_eq_ofList_toDigits, Text.braceless_ofList]
  exact braceless_toDigits 10 n

theorem braceless_int (n : Int) : Braceless (toString n) := by
  cases n with
  | ofNat n => exact braceless_nat n
  | negSucc n => exact (Text.braceless_append _ _).mpr ⟨by decide, braceless_nat _⟩

end Digits

namespace Decimal

theorem braceless_fixed (places : Nat) (x : Float) : Chars.Braceless (fixed places x) := by
  have digits (width value : Nat) : Chars.Braceless (padded width value) :=
    (Chars.braceless_append _ _).mpr
      ⟨braceless_replicate _ rfl, braceless_toDigits 10 value⟩
  have text (digits : List Char) (clean : Chars.Braceless digits) (place : Nat) :
      Chars.Braceless (digits.take place ++ '.' :: digits.drop place) := by
    simpa +decide using ⟨clean.take place, clean.drop place⟩
  unfold fixed
  dsimp only
  split
  · exact (Chars.braceless_cons _ _).mpr ⟨rfl, text _ (digits _ _) _⟩
  · exact text _ (digits _ _) _

theorem braceless_positional (x : Float) : Chars.Braceless (positional x) := by
  have text (digits exponent : Nat) :
      Chars.Braceless (Nat.toDigits 10 digits ++ List.replicate exponent '0') :=
    (Chars.braceless_append _ _).mpr ⟨braceless_toDigits 10 digits, braceless_replicate _ rfl⟩
  unfold positional
  dsimp only
  split
  · exact (Chars.braceless_cons _ _).mpr ⟨rfl, text _ _⟩
  · exact text _ _

theorem braceless_text (x : Float) : Braceless (text x) := by
  unfold text
  split
  · decide
  · split
    · split <;> decide
    · split
      · dsimp only
        split
        · exact braceless_int _
        · exact (Text.braceless_ofList _).mpr (braceless_positional _)
      · dsimp only
        split
        · decide
        · refine (Text.braceless_ofList _).mpr ?_
          exact (((braceless_fixed 10 x).reverse.dropWhile _).dropWhile _).reverse

end Decimal

def Number.Braceless (n : Number) : Prop := ∀ unit ∈ n.unit, Text.Braceless unit

namespace Number

variable {a b n : Number}

theorem Braceless.unitText (clean : n.Braceless) : Text.Braceless n.unitText := by
  unfold Number.unitText
  cases unit : n.unit with
  | none => decide
  | some text => exact clean text unit

theorem braceless_unitless (value : Float) : (Number.unitless value).Braceless := by
  intro unit same
  cases same

theorem braceless_ofUnit (value : Float) {unit : String} (clean : Text.Braceless unit) :
    (Number.ofUnit value unit).Braceless := by
  intro found same
  unfold ofUnit at same
  split at same
  · cases same
  · obtain rfl := Option.some.inj same
    exact clean

theorem Braceless.css (clean : n.Braceless) : Text.Braceless n.css :=
  (Text.braceless_append _ _).mpr ⟨Decimal.braceless_text _, clean.unitText⟩

theorem Braceless.compressed (clean : n.Braceless) : Text.Braceless n.compressed := by
  have whole : Chars.Braceless n.css.toList := clean.css
  unfold Number.compressed
  split
  · rename_i rest text
    rw [text] at whole
    simp only [Chars.braceless_cons] at whole
    simpa +decide using whole.2.2
  · rename_i rest text
    rw [text] at whole
    simp only [Chars.braceless_cons] at whole
    simpa +decide using whole.2.2.2
  · exact (Text.braceless_ofList _).mpr whole

theorem Braceless.resultUnit (left : a.Braceless) (right : b.Braceless) :
    ∀ unit ∈ a.resultUnit b, Text.Braceless unit := by
  intro unit found
  unfold Number.resultUnit at found
  cases own : a.unit with
  | some text =>
    rw [own] at found
    exact left unit (own.trans found)
  | none =>
    rw [own] at found
    exact right unit found

theorem Braceless.convert (clean : n.Braceless) {unit : String} (other : Text.Braceless unit) :
    Yields Number.Braceless (n.convert unit) := by
  unfold Number.convert
  split
  · exact .ok (braceless_ofUnit _ other)
  · split
    · exact .ok clean
    · split
      · split
        · exact .ok (braceless_ofUnit _ other)
        · exact .error _
      · exact .error _

theorem Braceless.add (left : a.Braceless) (right : b.Braceless) :
    Yields Number.Braceless (a.add b) :=
  .bind (.any _) fun _ _ => .ok (left.resultUnit right)

theorem Braceless.sub (left : a.Braceless) (right : b.Braceless) :
    Yields Number.Braceless (a.sub b) :=
  .bind (.any _) fun _ _ => .ok (left.resultUnit right)

theorem Braceless.mul (left : a.Braceless) (right : b.Braceless) : (a.mul b).Braceless :=
  left.resultUnit right

theorem Braceless.div (left : a.Braceless) : Yields Number.Braceless (a.div b) := by
  unfold Number.div
  split
  · exact .error _
  · split
    · exact .ok left
    · exact .ok (braceless_unitless _)
    · exact .bind (.any _) fun _ _ => .ok (braceless_unitless _)

theorem Braceless.mod (left : a.Braceless) (right : b.Braceless) :
    Yields Number.Braceless (a.mod b) := by
  unfold Number.mod
  split
  · exact .error _
  · exact .bind (.any _) fun _ _ => .ok (left.resultUnit right)

end Number

def Color.Braceless (color : Color) : Prop := ∀ spelling ∈ color.spelling, Text.Braceless spelling

namespace Color

theorem braceless_hexByte (value : UInt8) : Chars.Braceless (hexByte value) :=
  (Chars.braceless_append _ _).mpr ⟨braceless_replicate _ rfl, braceless_toDigits 16 _⟩

theorem braceless_ofRgba (red green blue alpha : Float) : (ofRgba red green blue alpha).Braceless :=
  fun _ same => nomatch same

theorem Braceless.css {color : Color} (clean : color.Braceless) : Text.Braceless color.css := by
  unfold Color.css
  split
  · rename_i spelling same
    exact clean spelling same
  · dsimp only
    split
    · simpa +decide using ⟨braceless_hexByte _, braceless_hexByte _, braceless_hexByte _⟩
    · have byte (value : UInt8) : Text.Braceless (toString value) := braceless_nat value.toNat
      simpa +decide using ⟨⟨⟨byte _, byte _⟩, byte _⟩, Decimal.braceless_text _⟩

end Color

structure Reference.Braceless (reference : Reference) : Prop where
  qualifier : ∀ text ∈ reference.qualifier, Text.Braceless text
  name : Text.Braceless reference.name

/-- A value without braces in the texts that it is made of. -/
inductive Value.Braceless : Value → Prop where
  | null : Braceless .null
  | bool (value : Bool) : Braceless (.bool value)
  | number {n : Number} (clean : n.Braceless) : Braceless (.number n)
  | string {text : String} (quoted : Bool) (clean : Text.Braceless text) :
      Braceless (.string text quoted)
  | color {c : Color} (clean : c.Braceless) : Braceless (.color c)
  | list {items : List Value} (separator : Separator) (bracketed : Bool)
      (clean : ∀ item ∈ items, Braceless item) : Braceless (.list items separator bracketed)
  | map {entries : List (Value × Value)} (keys : ∀ entry ∈ entries, Braceless entry.1)
      (values : ∀ entry ∈ entries, Braceless entry.2) : Braceless (.map entries)
  | function {reference : Reference} (clean : reference.Braceless) : Braceless (.function reference)
  | mixin {reference : Reference} (clean : reference.Braceless) : Braceless (.mixin reference)

theorem braceless_quoteText {text : String} (clean : Braceless text) : Braceless (quoteText text) := by
  unfold quoteText
  split
  · simpa +decide using clean
  · simpa +decide using clean.replace "\"" (by decide)

namespace Format

variable (format : Format)

theorem values_eq (items : List Value) : format.values items = items.map format.value := by
  induction items with
  | nil => rfl
  | cons item rest ih => rw [values, ih, List.map_cons]

theorem pairs_eq (entries : List (Value × Value)) : format.pairs entries =
    entries.map fun entry => s!"{format.value entry.1}: {format.value entry.2}" := by
  induction entries with
  | nil => rfl
  | cons entry rest ih => rw [pairs, ih, List.map_cons]

theorem braceless_separator (separator : Separator) : Braceless (format.separator separator) := by
  cases separator with
  | comma =>
    rw [Format.separator]
    split <;> decide
  | space => simp +decide [Format.separator]
  | slash => simp +decide [Format.separator]

theorem braceless_bracket (bracketed : Bool) {text : String} (clean : Braceless text) :
    Braceless (bracket bracketed text) := by
  cases bracketed with
  | false => exact clean
  | true => simpa +decide [bracket] using clean

theorem braceless_reference {reference : Reference} (clean : reference.Braceless) :
    Braceless reference.text := by
  unfold Reference.text
  split
  · rename_i qualifier same
    simpa +decide using ⟨clean.qualifier qualifier same, clean.name⟩
  · exact clean.name

/-- The text of a value has no brace that the value does not have. -/
theorem braceless_value {value : Value} (clean : value.Braceless) : Braceless (format.value value) := by
  induction clean with
  | null =>
    rw [Format.value]
    decide
  | bool value =>
    rw [Format.value]
    cases value <;> decide
  | number clean =>
    rw [Format.value, Format.number]
    split
    · exact clean.compressed
    · exact clean.css
  | string quoted clean =>
    rw [Format.value]
    split
    · exact braceless_quoteText clean
    · exact clean
  | color clean => exact clean.css
  | list separator bracketed clean ih =>
    rw [Format.value, values_eq]
    refine braceless_bracket bracketed (Text.braceless_intercalate (format.braceless_separator _) ?_)
    intro text member
    obtain ⟨item, found, rfl⟩ := List.mem_map.mp (List.mem_of_mem_filter member)
    exact ih item found
  | @map entries keys values ihKeys ihValues =>
    have pairs : Braceless (Text.join ", " (format.pairs entries)) := by
      refine Text.braceless_intercalate (by decide) fun text member => ?_
      rw [pairs_eq] at member
      obtain ⟨entry, found, rfl⟩ := List.mem_map.mp member
      simpa +decide using ⟨ihKeys entry found, ihValues entry found⟩
    simpa +decide [Format.value] using pairs
  | function clean => simpa +decide [Format.value] using braceless_reference clean
  | mixin clean => simpa +decide [Format.value] using braceless_reference clean

end Format

namespace Value

variable {value : Value}

theorem Braceless.css (clean : value.Braceless) : Text.Braceless value.css :=
  Format.braceless_value _ clean

theorem Braceless.bare (clean : value.Braceless) : Text.Braceless value.bare := by
  cases value with
  | string text quoted =>
    cases clean with
    | string quoted clean => exact clean
  | _ => exact clean.css

theorem inspectAll_eq (items : List Value) : inspectAll items = items.map inspect := by
  induction items with
  | nil => rfl
  | cons item rest ih => rw [inspectAll, ih, List.map_cons]

theorem inspectPairs_eq (entries : List (Value × Value)) : inspectPairs entries =
    entries.map fun entry => s!"{entry.1.inspect}: {entry.2.inspect}" := by
  induction entries with
  | nil => rfl
  | cons entry rest ih => rw [inspectPairs, ih, List.map_cons]

theorem Braceless.inspect (clean : value.Braceless) : Text.Braceless value.inspect := by
  induction clean with
  | null =>
    rw [Value.inspect]
    decide
  | @list items separator bracketed clean ih =>
    cases items with
    | nil =>
      rw [Value.inspect]
      cases bracketed <;> decide
    | cons item rest =>
      have between : Text.Braceless separator.text := by cases separator <;> decide
      rw [Value.inspect, inspectAll_eq]
      · refine Format.braceless_bracket bracketed (Text.braceless_intercalate between ?_)
        intro text member
        obtain ⟨item, found, rfl⟩ := List.mem_map.mp member
        exact ih item found
      · simp
  | @map entries keys values ihKeys ihValues =>
    have pairs : Text.Braceless (Text.join ", " (inspectPairs entries)) := by
      refine Text.braceless_intercalate (by decide) fun text member => ?_
      rw [inspectPairs_eq] at member
      obtain ⟨entry, found, rfl⟩ := List.mem_map.mp member
      simpa +decide using ⟨ihKeys entry found, ihValues entry found⟩
    simpa +decide [Value.inspect] using pairs
  | _ => exact Braceless.css (by constructor <;> assumption)

theorem Braceless.listOf {items : List Value} (clean : ∀ item ∈ items, item.Braceless)
    (separator : Separator) : (Value.listOf items separator).Braceless :=
  .list separator false clean

theorem braceless_ofFloat (value : Float) : (Value.ofFloat value).Braceless :=
  .number (Number.braceless_unitless value)

theorem Braceless.unquoted {text : String} (clean : Text.Braceless text) :
    (Value.unquoted text).Braceless :=
  .string false clean

/-- The members of a value. -/
theorem Braceless.toList (clean : value.Braceless) : ∀ item ∈ value.toList, item.Braceless := by
  cases value with
  | list items separator bracketed =>
    cases clean with
    | list separator bracketed clean => exact clean
  | map entries =>
    cases clean with
    | map keys values =>
      intro item member
      obtain ⟨entry, found, rfl⟩ := List.mem_map.mp member
      exact .listOf (by simpa using ⟨keys entry found, values entry found⟩) .space
  | _ => simpa [Value.toList] using clean

end Value

theorem BinaryOp.braceless_symbol (op : BinaryOp) : Text.Braceless op.symbol := by
  cases op <;> decide

theorem UnaryOp.braceless_symbol (op : UnaryOp) : Text.Braceless op.symbol := by
  cases op <;> decide

namespace Operator

variable {format : Format} {left right : Value}

theorem braceless_joined (op : BinaryOp) (first : left.Braceless) (second : right.Braceless) :
    (joined format op left right).Braceless := by
  refine .unquoted ?_
  simpa using ⟨⟨format.braceless_value first, op.braceless_symbol⟩, format.braceless_value second⟩

theorem yields_onNumbers (op : BinaryOp) {a b : Number} (first : a.Braceless)
    (second : b.Braceless) : Yields Value.Braceless (onNumbers format op a b) := by
  cases op with
  | add => exact .map (first.add second) fun _ clean => .number clean
  | sub => exact .map (first.sub second) fun _ clean => .number clean
  | mul => exact .ok (.number (first.mul second))
  | div => exact .map first.div fun _ clean => .number clean
  | mod => exact .map (first.mod second) fun _ clean => .number clean
  | lt | gt | le | ge => exact .map (.any _) fun _ _ => .bool _
  | eq | notEq | and | or => exact .error _

theorem yields_addTexts (first : left.Braceless) (second : right.Braceless) :
    Yields Value.Braceless (addTexts format left right) := by
  unfold addTexts
  split
  · cases first with
    | string _ clean =>
      exact .ok (.string _ ((Text.braceless_append _ _).mpr ⟨clean, second.bare⟩))
  · cases second with
    | string _ clean =>
      refine .ok (.string _ ((Text.braceless_append _ _).mpr ⟨?_, clean⟩))
      exact format.braceless_value first
  · exact .error _
  · exact .error _
  · exact .ok (braceless_joined .add first second)

theorem yields_apply (op : BinaryOp) (first : left.Braceless) (second : right.Braceless) :
    Yields Value.Braceless (apply format op left right) := by
  unfold apply
  split
  · exact .ok (.bool _)
  · exact .ok (.bool _)
  · cases first with
    | number clean =>
      cases second with
      | number other => exact yields_onNumbers op clean other
  · exact yields_addTexts first second
  · exact .ok (braceless_joined .sub first second)
  · exact .ok (braceless_joined .div first second)
  · exact .error _

theorem braceless_applyUnary (op : UnaryOp) {operand : Value} (clean : operand.Braceless) :
    (applyUnary format op operand).Braceless := by
  unfold applyUnary
  split
  · exact .bool _
  · cases clean with
    | number clean => exact .number clean
  · exact clean
  · refine .unquoted ((Text.braceless_append _ _).mpr ⟨op.braceless_symbol, ?_⟩)
    exact format.braceless_value clean

end Operator

/-- A term of `calc()` without braces in its text or unit. -/
def CalcTerm.Braceless : CalcTerm → Prop
  | .number n => n.Braceless
  | .text css => Text.Braceless css

namespace CalcTerm

variable {left right term : CalcTerm}

theorem Braceless.css (clean : term.Braceless) : Text.Braceless term.css := by
  cases term with
  | number n => exact Number.Braceless.css clean
  | text css => exact clean

theorem Braceless.grouped (clean : term.Braceless) : term.grouped.Braceless := by
  cases term with
  | number n => exact clean
  | text css => simpa +decide [CalcTerm.grouped, CalcTerm.Braceless] using clean

theorem yields_fold {a b : Number} (op : BinaryOp) (first : a.Braceless) (second : b.Braceless) :
    Yields (fun folded => ∀ n ∈ folded, Number.Braceless n) (fold? op a b) := by
  have kept {n : Number} (clean : n.Braceless) : ∀ m ∈ some n, Number.Braceless m := by
    simpa using clean
  unfold fold?
  split
  · split
    · exact .map (first.add second) fun _ => kept
    · exact .ok (by simp)
  · split
    · exact .map (first.sub second) fun _ => kept
    · exact .ok (by simp)
  · exact .ok (kept (first.mul second))
  · exact .map first.div fun _ => kept
  · exact .ok (by simp)

theorem yields_combine (op : BinaryOp) (first : left.Braceless) (second : right.Braceless) :
    Yields CalcTerm.Braceless (combine op left right) := by
  have text : CalcTerm.Braceless (.text (left.css ++ " " ++ op.symbol ++ " " ++ right.css)) := by
    simpa +decide [CalcTerm.Braceless] using ⟨⟨first.css, op.braceless_symbol⟩, second.css⟩
  unfold CalcTerm.combine
  split
  · refine .bind (yields_fold op first second) fun folded clean => ?_
    cases folded with
    | some n => exact .ok (clean n rfl)
    | none => exact .ok text
  · exact .ok text

end CalcTerm

end Scss
