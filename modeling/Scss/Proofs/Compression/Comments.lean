import Scss.Proofs.Pairs
import Scss.Reflow.Compress

/-! Comments in compressed output. A comment goes from its opening mark to the next closing mark, so the
text between two comments stays; but the character behind the opening mark is never taken for the start of
the closing one while another closing mark follows, and the inside of a comment that is kept is searched
for comments like any other text. -/
namespace Scss.Compress

/-- A comment, by the text between its marks, and the text behind it up to the next comment. -/
structure Comment where
  body : List Char
  after : List Char
deriving DecidableEq

namespace Comment

def text (comment : Comment) : List Char := '/' :: '*' :: (comment.body ++ ['*', '/'])

def isKept (comment : Comment) : Bool := comment.body.head? = some '!'

/-- What is left of a comment and the text behind it. -/
def remains (comment : Comment) : List Char :=
  (if comment.isKept then comment.text else []) ++ comment.after

end Comment

def written (comments : List Comment) : List Char :=
  comments.flatMap fun comment => comment.text ++ comment.after

def remaining (comments : List Comment) : List Char := comments.flatMap Comment.remains

/-- A comment that is to go is opened in the text, and closed there or in what follows. -/
def Opens (text behind : List Char) : Prop :=
  ∃ before rest, text = before ++ '/' :: '*' :: rest ∧ (rest ++ behind).head? ≠ some '!' ∧
    ['*', '/'] <:+: rest ++ behind

/-- A comment is delimited by its marks, whatever follows: no closing mark stands in it, an empty one has
none behind it, and no other comment is opened where a kept one stands. -/
structure Comment.Delimited (comment : Comment) (behind : List Char) : Prop where
  closed : ¬ ['*', '/'] <:+: comment.body
  apart : ¬ ['/', '*'] <:+: comment.after
  last : comment.body = [] → ¬ ['*', '/'] <:+: comment.after ++ behind
  alone : comment.isKept = true → ¬ Opens (comment.body ++ '*' :: '/' :: comment.after) behind

def Delimited : List Comment → Prop
  | [] => True
  | comment :: rest => comment.Delimited (written rest) ∧ Delimited rest

section Decide

variable {c : Char} {text behind : List Char}

theorem opens_cons : Opens (c :: text) behind ↔
    c = '/' ∧ text.head? = some '*' ∧ (text.tail ++ behind).head? ≠ some '!' ∧
      ['*', '/'] <:+: text.tail ++ behind ∨ Opens text behind := by
  constructor
  · rintro ⟨_ | ⟨d, before⟩, rest, same, opened⟩
    · obtain ⟨rfl, rfl⟩ := List.cons_eq_cons.mp same
      exact .inl ⟨rfl, rfl, opened⟩
    · exact .inr ⟨before, rest, (List.cons_eq_cons.mp same).2, opened⟩
  · rintro (⟨rfl, star, opened⟩ | ⟨before, rest, rfl, opened⟩)
    · obtain ⟨rest, rfl⟩ := List.head?_eq_some_iff.mp star
      exact ⟨[], rest, rfl, opened⟩
    · exact ⟨c :: before, rest, rfl, opened⟩

instance decidableOpens : (text behind : List Char) → Decidable (Opens text behind)
  | [], _ => isFalse (by rintro ⟨_ | ⟨d, before⟩, rest, same, -⟩ <;> cases same)
  | _ :: text, behind =>
    have := decidableOpens text behind
    decidable_of_iff _ opens_cons.symm

instance (comment : Comment) (behind : List Char) : Decidable (comment.Delimited behind) :=
  decidable_of_iff (¬ ['*', '/'] <:+: comment.body ∧ ¬ ['/', '*'] <:+: comment.after ∧
      (comment.body = [] → ¬ ['*', '/'] <:+: comment.after ++ behind) ∧
      (comment.isKept = true → ¬ Opens (comment.body ++ '*' :: '/' :: comment.after) behind))
    ⟨fun ⟨closed, apart, last, alone⟩ => ⟨closed, apart, last, alone⟩,
      fun ⟨closed, apart, last, alone⟩ => ⟨closed, apart, last, alone⟩⟩

instance decidableDelimited : (comments : List Comment) → Decidable (Delimited comments)
  | [] => .isTrue trivial
  | comment :: rest =>
    have := decidableDelimited rest
    inferInstanceAs (Decidable (comment.Delimited (written rest) ∧ Delimited rest))

end Decide

section Marks

variable {c : Char} {body text rest : List Char}

theorem closeLength_cons (c : Char) (rest : List Char) : closeLength (c :: rest) =
    if c = '*' ∧ rest.head? = some '/' then some 2 else (closeLength rest).map (· + 1) := by
  by_cases closes : c = '*' ∧ rest.head? = some '/'
  · obtain ⟨rfl, slash⟩ := closes
    obtain ⟨more, rfl⟩ := List.head?_eq_some_iff.mp slash
    rfl
  · rw [if_neg closes, closeLength]
    rintro more rfl rfl
    exact closes ⟨rfl, rfl⟩

theorem closeLength_append (closed : ¬ ['*', '/'] <:+: body) (rest : List Char) :
    closeLength (body ++ '*' :: '/' :: rest) = some (body.length + 2) := by
  induction body with
  | nil => rfl
  | cons c body ih =>
    rw [Chars.pair_infix_cons, not_or] at closed
    have other : ¬ (c = '*' ∧ (body ++ '*' :: '/' :: rest).head? = some '/') := by
      cases body with
      | nil => simp
      | cons d body => simpa using closed.1
    rw [List.cons_append, closeLength_cons, if_neg other, ih closed.2]
    rfl

theorem closeLength_eq_none_iff : closeLength text = none ↔ ¬ ['*', '/'] <:+: text := by
  induction text with
  | nil => simp [closeLength]
  | cons c text ih =>
    rw [closeLength_cons, Chars.pair_infix_cons]
    split
    · rename_i closes
      simp [closes]
    · rename_i other
      rw [Option.map_eq_none_iff, ih, or_iff_right other]

theorem commentLength_cons (plain : c ≠ '!') (rest : List Char) : commentLength (c :: rest) =
    match closeLength rest with
    | some length => some (length + 1)
    | none => if c = '*' ∧ rest.head? = some '/' then some 2 else none := by
  have pair : ['*', '/'].isPrefixOf (c :: rest) = true ↔ c = '*' ∧ rest.head? = some '/' := Chars.isPrefixOf_pair
  rw [commentLength]
  · cases closeLength rest with
    | none => exact if_congr pair rfl rfl
    | some length => rfl
  · exact plain

theorem commentLength_of_body (more : body ≠ []) (gone : body.head? ≠ some '!')
    (closed : ¬ ['*', '/'] <:+: body) (rest : List Char) :
    commentLength (body ++ '*' :: '/' :: rest) = some (body.length + 2) := by
  obtain ⟨c, body, rfl⟩ := List.exists_cons_of_ne_nil more
  rw [Chars.pair_infix_cons, not_or] at closed
  rw [List.cons_append, commentLength_cons fun same => gone (congrArg some same), closeLength_append closed.2]
  rfl

/-- An empty comment ends where it should if nothing else is closed behind it. -/
theorem commentLength_of_empty (last : ¬ ['*', '/'] <:+: rest) :
    commentLength ('*' :: '/' :: rest) = some 2 := by
  have none : closeLength ('/' :: rest) = none :=
    closeLength_eq_none_iff.mpr (by simpa [Chars.pair_infix_cons] using last)
  rw [commentLength_cons (by decide), none]
  rfl

theorem commentLength_eq_none (other : text.head? = some '!' ∨ ¬ ['*', '/'] <:+: text) :
    commentLength text = none := by
  cases text with
  | nil => rfl
  | cons c text =>
    by_cases marked : c = '!'
    · subst marked
      rfl
    · have unclosed := other.resolve_left fun same => marked (Option.some.inj same)
      rw [Chars.pair_infix_cons, not_or] at unclosed
      rw [commentLength_cons marked, closeLength_eq_none_iff.mpr unclosed.2]
      exact if_neg unclosed.1

end Marks

section Strip

variable {c : Char} {text body rest : List Char}

theorem strip_nil : strip [] = [] := rfl

theorem stripFrom_eq_strip (skip : Nat) (text : List Char) : stripFrom skip text = strip (text.drop skip) := by
  induction skip generalizing text with
  | zero => rfl
  | succ skip ih =>
    cases text with
    | nil => rfl
    | cons c text => rw [stripFrom, ih, List.drop_succ_cons]

/-- A character at which no comment is opened that is to go. -/
theorem strip_cons (other : c = '/' → ∀ more, rest = '*' :: more → commentLength more = none) :
    strip (c :: rest) = c :: strip rest := by
  by_cases opens : c = '/' ∧ rest.head? = some '*'
  · obtain ⟨rfl, star⟩ := opens
    obtain ⟨more, rfl⟩ := List.head?_eq_some_iff.mp star
    rw [strip, stripFrom]
    simp only [other rfl more rfl]
    rfl
  · rw [strip, stripFrom]
    · rfl
    · rintro more rfl rfl
      exact opens ⟨rfl, rfl⟩

theorem strip_comment {length : Nat} (found : commentLength text = some length) :
    strip ('/' :: '*' :: text) = strip (text.drop length) := by
  rw [strip, stripFrom]
  simp only [found]
  rw [stripFrom_eq_strip, List.drop_succ_cons]

/-- Text in which no comment is opened stays, up to the next comment. -/
theorem strip_append (still : ¬ Opens text rest) (next : rest.head? ≠ some '*') :
    strip (text ++ rest) = text ++ strip rest := by
  induction text with
  | nil => rfl
  | cons c text ih =>
    have later : ¬ Opens text rest := fun ⟨before, more, same, unmarked, closed⟩ =>
      still ⟨c :: before, more, by rw [same]; rfl, unmarked, closed⟩
    rw [List.cons_append, strip_cons, ih later]
    · rfl
    · rintro rfl more same
      cases text with
      | nil => exact absurd (congrArg List.head? same) next
      | cons d text =>
        obtain ⟨rfl, rfl⟩ := List.cons_eq_cons.mp same
        refine commentLength_eq_none ?_
        by_contra opens
        rw [not_or, not_not] at opens
        exact still ⟨[], text, rfl, opens⟩

theorem not_opens (apart : ¬ ['/', '*'] <:+: text) (behind : List Char) : ¬ Opens text behind := by
  rintro ⟨before, rest, rfl, -⟩
  exact apart ⟨before, rest, by simp⟩

end Strip

theorem head?_written (comments : List Comment) : (written comments).head? ≠ some '*' := by
  cases comments with
  | nil => exact nofun
  | cons comment rest => simp [written, Comment.text]

theorem written_cons (comment : Comment) (rest : List Comment) : written (comment :: rest) =
    '/' :: '*' :: (comment.body ++ '*' :: '/' :: (comment.after ++ written rest)) := by
  simp [written, Comment.text]

/-- A delimited comment goes or stays, and the text behind it stays. -/
theorem Comment.Delimited.strip_eq {comment : Comment} {rest : List Comment}
    (delimited : comment.Delimited (written rest)) :
    strip (written (comment :: rest)) = comment.remains ++ strip (written rest) := by
  obtain ⟨closed, apart, last, alone⟩ := delimited
  have after : strip (comment.after ++ written rest) = comment.after ++ strip (written rest) :=
    strip_append (not_opens apart _) (head?_written rest)
  rw [written_cons, remains]
  cases kept : comment.isKept with
  | false =>
    have gone : comment.body.head? ≠ some '!' := by simpa [isKept] using kept
    have length : commentLength (comment.body ++ '*' :: '/' :: (comment.after ++ written rest)) =
        some (comment.body.length + 2) := by
      by_cases more : comment.body = []
      · rw [more]
        exact commentLength_of_empty (last more)
      · exact commentLength_of_body more gone closed _
    have behind : (comment.body ++ '*' :: '/' :: (comment.after ++ written rest)).drop (comment.body.length + 2) =
        comment.after ++ written rest := by
      rw [List.drop_length_add_append]
      rfl
    rw [strip_comment length, behind, after]
    rfl
  | true =>
    obtain ⟨more, marked⟩ := List.head?_eq_some_iff.mp (of_decide_eq_true kept)
    have whole : comment.body ++ '*' :: '/' :: (comment.after ++ written rest) =
        comment.body ++ '*' :: '/' :: comment.after ++ written rest := by simp
    rw [whole, strip_cons, strip_cons (c := '*') (fun same => absurd same (by decide)),
      strip_append (alone kept) (head?_written rest)]
    · simp [text]
    · rintro - behind same
      obtain ⟨-, rfl⟩ := List.cons_eq_cons.mp same
      rw [marked]
      rfl

theorem strip_written {comments : List Comment} (delimited : Delimited comments) :
    strip (written comments) = remaining comments := by
  induction comments with
  | nil => rfl
  | cons comment rest ih =>
    obtain ⟨here, behind⟩ := delimited
    rw [here.strip_eq, ih behind]
    rfl

/-- Of text with comments that are delimited, just the comments go that no exclamation mark keeps. -/
theorem comments_stripped {front : List Char} {comments : List Comment} (apart : ¬ ['/', '*'] <:+: front)
    (delimited : Delimited comments) : strip (front ++ written comments) = front ++ remaining comments := by
  rw [strip_append (not_opens apart _) (head?_written comments), strip_written delimited]

/-- Comments of marks only, a kept comment with the opening mark of another kept one, and an empty comment
behind all others. -/
theorem comments_stripped_marks :
    let comments : List Comment := [⟨['*'], "b \x7b\x7d".toList⟩, ⟨['/'], []⟩,
      ⟨"! c /*! d".toList, "e \x7b\x7d".toList⟩, ⟨[], "f \x7b\x7d".toList⟩]
    ¬ ['/', '*'] <:+: "a \x7b\x7d".toList ∧ Delimited comments ∧
      strip ("a \x7b\x7d".toList ++ written comments) =
        "a \x7b\x7db \x7b\x7d/*! c /*! d*/e \x7b\x7df \x7b\x7d".toList := by
  intro comments
  have apart : ¬ ['/', '*'] <:+: "a \x7b\x7d".toList := by decide +kernel
  have delimited : Delimited comments := by decide +kernel
  exact ⟨apart, delimited, (comments_stripped apart delimited).trans (by decide +kernel)⟩

/-- A rule goes with the empty comment in front of it, and a kept comment loses a part. -/
theorem rule_between_comments_lost :
    let comments : List Comment := [⟨[], "a \x7b\x7d".toList⟩, ⟨" b ".toList, []⟩]
    let kept : Comment := ⟨"! c /* d ".toList, []⟩
    (∀ comment ∈ kept :: comments, ¬ ['*', '/'] <:+: comment.body ∧ ¬ ['/', '*'] <:+: comment.after) ∧
      remaining comments = "a \x7b\x7d".toList ∧ strip (written comments) = [] ∧
      remaining [kept] = "/*! c /* d */".toList ∧ strip (written [kept]) = "/*! c ".toList := by
  decide +kernel

end Scss.Compress
