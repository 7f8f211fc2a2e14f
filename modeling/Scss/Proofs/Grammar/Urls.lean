import Scss.Compiler
import Scss.Proofs.Grammar.Lookahead
import Scss.Proofs.Grammar.Reading

/-! Urls without quotes. A url ends at the parenthesis that closes its first one, and then it is read as what
stands between the two. Where nothing closes the first one, the url goes to the end of the source, and it is
read as what it has but for the last byte; there is no such text if this byte is not a character. -/
namespace Scss

namespace Lexer

/-- No parenthesis of the text closes more than is opened in it and before it. -/
def Within (before : Nat) (text : List Char) : Prop :=
  ∀ front, front <+: text → front.count ')' ≤ front.count '(' + before

section Parentheses

variable {before : Nat} {c : Char} {text : List Char}

theorem Within.nil : Within before [] := by
  intro front within
  simp [List.prefix_nil.mp within]

/-- One character more, behind which so many parentheses are open. -/
theorem Within.cons {behind : Nat} (within : Within behind text)
    (moved : behind + (if c = ')' then 1 else 0) = before + if c = '(' then 1 else 0) : Within before (c :: text) := by
  intro front shorter
  rcases List.prefix_cons_iff.mp shorter with rfl | ⟨rest, rfl, inside⟩
  · simp
  · have bound := within rest inside
    simp only [List.count_cons, beq_iff_eq]
    omega

/-- The body of a url up to the parenthesis that closes it, or to the end of the text. -/
theorem urlLength_cases (before : Nat) (text : List Char) :
    (∃ inside rest, text = inside ++ ')' :: rest ∧ urlLength (before + 1) text = inside.length + 1 ∧
        Within before inside ∧ inside.count ')' = inside.count '(' + before) ∨
      urlLength (before + 1) text = text.length ∧ Within before text := by
  induction text generalizing before with
  | nil => exact .inr ⟨rfl, .nil⟩
  | cons c text ih =>
    have step (behind : Nat) (moved : behind + (if c = ')' then 1 else 0) = before + if c = '(' then 1 else 0)
        (longer : urlLength (before + 1) (c :: text) = urlLength (behind + 1) text + 1) :
        (∃ inside rest, c :: text = inside ++ ')' :: rest ∧ urlLength (before + 1) (c :: text) = inside.length + 1 ∧
            Within before inside ∧ inside.count ')' = inside.count '(' + before) ∨
          urlLength (before + 1) (c :: text) = (c :: text).length ∧ Within before (c :: text) := by
      rw [longer]
      rcases ih behind with ⟨inside, rest, rfl, length, within, count⟩ | ⟨length, within⟩
      · refine .inl ⟨c :: inside, rest, rfl, by rw [length]; rfl, within.cons moved, ?_⟩
        simp only [List.count_cons, beq_iff_eq]
        omega
      · exact .inr ⟨by rw [length]; rfl, within.cons moved⟩
    by_cases opens : c = '('
    · subst opens
      exact step (before + 1) rfl (by rw [urlLength_cons, if_pos rfl])
    by_cases closes : c = ')'
    · subst closes
      cases before with
      | zero => exact .inl ⟨[], text, rfl, rfl, .nil, rfl⟩
      | succ before =>
        refine step before rfl ?_
        rw [urlLength_cons, if_neg opens, if_pos rfl, if_neg (by omega), Nat.add_sub_cancel]
    · exact step before (by rw [if_neg opens, if_neg closes]) (by rw [urlLength_cons, if_neg opens, if_neg closes])

end Parentheses

section Tokens

variable {position : Position} {c : Char} {rest : List Char} {length : Nat}

theorem punctuation_ne_url (c : Char) (rest : List Char) : (punctuation c rest).1 ≠ .url := by
  unfold punctuation
  dsimp only
  split <;> (try split) <;> (intro same; cases same)

/-- Only words make urls. -/
theorem wordToken_of_measure (measured : measure position c rest = .ok (.url, length)) :
    ∃ total, wordToken (c :: rest) = (.url, total) ∧ length = total - 1 := by
  cases rule_of_measure measured with
  | word word => exact ⟨_, word, rfl⟩
  | punctuation sign => exact absurd (congrArg Prod.fst sign) (punctuation_ne_url c rest)

theorem body_of_opensUrl {text : List Char} (opens : opensUrl text = true) :
    ∃ rest, text = '(' :: rest ∧ rest ≠ [] := by
  rw [opensUrl.eq_def] at opens
  split at opens
  next rest =>
    refine ⟨rest, rfl, ?_⟩
    rintro rfl
    cases opens
  next => cases opens

/-- A url is the word, a parenthesis and what belongs to it. -/
theorem wordToken_url {text : List Char} {total : Nat} (word : wordToken text = (.url, total)) :
    ∃ name rest, text = name ++ '(' :: rest ∧ rest ≠ [] ∧ Chars.lower name = ['u', 'r', 'l'] ∧
      total = name.length + (urlLength 1 rest + 1) := by
  unfold wordToken at word
  dsimp only at word
  split at word
  next found =>
    obtain ⟨named, opens⟩ := Bool.and_eq_true_iff.mp found
    obtain ⟨rest, behind, some⟩ := body_of_opensUrl opens
    have short : (text.take (nameLength text)).length = nameLength text :=
      List.length_take_of_le (nameLength_le text)
    refine ⟨text.take (nameLength text), rest, ?_, some, of_decide_eq_true named, ?_⟩
    · rw [← behind, List.take_append_drop]
    · rw [short, ← (Prod.mk.inj word).2, behind, urlLength_cons, if_pos rfl]
  next => exact absurd (Prod.mk.inj word).1 (by decide)

/-- The letters of the word are single bytes. -/
theorem utf8Size_of_named {name : List Char} (named : Chars.lower name = ['u', 'r', 'l']) :
    ∀ letter ∈ name, letter.utf8Size = 1 := by
  intro letter member
  have known : letter.toLower ∈ ['u', 'r', 'l'] := named ▸ List.mem_map_of_mem member
  have small : letter.toLower.utf8Size = 1 := by
    simp only [List.mem_cons, List.not_mem_nil, or_false] at known
    rcases known with same | same | same <;> rw [same] <;> rfl
  rw [Char.utf8Size_eq_one_iff] at small ⊢
  unfold Char.toLower at small
  split at small
  next capital => exact UInt32.le_trans capital.2 (by decide)
  next => exact small

theorem length_of_named {name : List Char} (named : Chars.lower name = ['u', 'r', 'l']) : name.length = 3 := by
  rw [← List.length_map Char.toLower]
  exact congrArg List.length named

/-- The word and its parenthesis are four bytes. -/
theorem size_of_opening {name : List Char} (named : Chars.lower name = ['u', 'r', 'l']) :
    Chars.size (name ++ ['(']) = 4 := by
  have single := utf8Size_of_named named
  obtain ⟨u, r, l, rfl⟩ := List.length_eq_three.mp (length_of_named named)
  have byte : '('.utf8Size = 1 := rfl
  simp [single, byte]

/-- The text of a url token, and where the tokens behind it begin. -/
theorem url_measured {text : List Char} {tokens before after : List Token} {token : Token}
    (lexed : tokensAt position text = .ok tokens) (cut : tokens = before ++ token :: after)
    (url : token.kind = .url) :
    ∃ name rest, rest ≠ [] ∧ Chars.lower name = ['u', 'r', 'l'] ∧
      token.text.toList = name ++ '(' :: rest.take (urlLength 1 rest) ∧
      tokensAt (token.position.after token.text.toList) (rest.drop (urlLength 1 rest)) = .ok after := by
  obtain ⟨c, behind, length, -, written, measured, later⟩ :=
    token_measured lexed cut (by rw [url]; decide)
  obtain ⟨total, word, rfl⟩ := wordToken_of_measure (url ▸ measured)
  obtain ⟨name, rest, whole, some, named, rfl⟩ := wordToken_url word
  have positive : name.length + (urlLength 1 rest + 1) = name.length + urlLength 1 rest + 1 := rfl
  rw [positive, Nat.add_sub_cancel] at written later
  refine ⟨name, rest, some, named, ?_, ?_⟩
  · rw [written, ← List.take_succ_cons, whole, ← positive, List.take_length_add_append, List.take_succ_cons]
  · have same : behind.drop (name.length + urlLength 1 rest) = rest.drop (urlLength 1 rest) := by
      rw [← List.drop_succ_cons (a := c), whole, ← positive, List.drop_length_add_append, List.drop_succ_cons]
    rwa [same] at later

end Tokens

end Lexer

namespace Grammar

open Scss.Parser
open Lexer (Within tokensAt urlLength urlLength_cases url_measured size_of_opening)

/-- What is between the parenthesis of a url and its last byte. -/
theorem urlContent?_eq {token : Token} {name content : List Char} {last : Char}
    (opening : Chars.size (name ++ ['(']) = 4) (text : token.text.toList = name ++ '(' :: (content ++ [last])) :
    token.urlContent? = if last.utf8Size = 1 then some (String.ofList content) else none := by
  have whole : token.text.toList = ((name ++ ['(']) ++ content) ++ [last] := by simp [text]
  have size : Chars.size token.text.toList = Chars.size ((name ++ ['(']) ++ content) + last.utf8Size := by
    rw [whole, Chars.size_append, Chars.size_cons, Chars.size_nil, Nat.add_zero]
  rw [Token.urlContent?, size, whole]
  split
  · rename_i single
    rw [single, Nat.add_sub_cancel, Chars.bytes?, Chars.takeBytes?_size, Option.bind_some, ← opening,
      Chars.dropBytes?_size, Option.map_some]
  · have several : 1 < last.utf8Size := Nat.lt_of_le_of_ne last.utf8Size_pos (Ne.symm ‹_›)
    rw [Nat.add_sub_assoc several.le, Chars.bytes?, Chars.takeBytes?_inside (by omega) (by omega),
      Option.bind_none, Option.map_none]

/-- A url is read as its body but for the last byte. -/
theorem primary_url {token : Token} {name content : List Char} {last : Char} (url : token.kind = .url)
    (opening : Chars.size (name ++ ['(']) = 4) (text : token.text.toList = name ++ '(' :: (content ++ [last]))
    (self : Self) {cursor : Cursor} (here : cursor.current = token) :
    primary self cursor =
      if last.utf8Size = 1 then
        (quoted self (String.ofList content) (token.position.shift 4)).map fun value =>
          (.url value token.line, cursor.advance 1)
      else .error .torn := by
  rw [primary, bind_of_ok current_apply, here, url]
  dsimp only
  rw [bind_of_ok (advance_apply 1), urlContent?_eq opening text]
  split
  · dsimp only
    cases quoted self (String.ofList content) (token.position.shift 4) <;> rfl
  · rfl

/-- A url token is its word in any case, a parenthesis and a body, which is read without its last byte; if the
last character has several bytes, the reading stops there. The body ends at the first parenthesis that closes
the one before it; if there is none, it is the rest of the source, and its last character is whatever stands
there. -/
theorem urls_read_without_last {start : Position} {source : String} {tokens before after : List Token}
    {token : Token} (lexed : tokensAt start source.toList = .ok tokens) (cut : tokens = before ++ token :: after)
    (url : token.kind = .url) :
    ∃ name content last, token.text.toList = name ++ '(' :: (content ++ [last]) ∧
      Chars.lower name = ['u', 'r', 'l'] ∧ Chars.size (name ++ ['(']) = 4 ∧
      (last = ')' ∧ Within 0 content ∧ content.count ')' = content.count '(' ∨
        Within 0 (content ++ [last]) ∧ ∃ ending, after = [ending] ∧ ending.kind = .endOfInput) ∧
      ∀ self cursor, cursor.current = token →
        primary self cursor =
          if last.utf8Size = 1 then
            (quoted self (String.ofList content) (token.position.shift 4)).map fun value =>
              (.url value token.line, cursor.advance 1)
          else .error .torn := by
  obtain ⟨name, rest, some, named, text, later⟩ := url_measured lexed cut url
  have opening := size_of_opening named
  rcases urlLength_cases 0 rest with ⟨inside, behind, rfl, length, within, count⟩ | ⟨length, within⟩
  · have body : (inside ++ ')' :: behind).take (urlLength 1 (inside ++ ')' :: behind)) = inside ++ [')'] := by
      rw [length, List.take_length_add_append]
      rfl
    rw [body] at text
    exact ⟨name, inside, ')', text, named, opening, .inl ⟨rfl, within, count⟩,
      fun self _ => primary_url url opening text self⟩
  · obtain ⟨content, last, rfl⟩ := List.eq_nil_or_concat' rest |>.resolve_left some
    rw [length, List.take_length] at text
    rw [length, List.drop_length, Lexer.tokensAt_nil] at later
    exact ⟨name, content, last, text, named, opening,
      .inr ⟨within, _, (Except.ok.inj later).symm, rfl⟩, fun self _ => primary_url url opening text self⟩

/-- The first of two urls is closed, and the other is not. -/
theorem urls_read_without_last_mixed :
    tokensAt .start "url(a(b))Url(c".toList =
        .ok [⟨.url, "url(a(b))", ⟨1, 1⟩⟩, ⟨.url, "Url(c", ⟨1, 10⟩⟩, ⟨.endOfInput, "", ⟨1, 15⟩⟩] ∧
      ∃ name content last, "Url(c".toList = name ++ '(' :: (content ++ [last]) ∧
        Chars.lower name = ['u', 'r', 'l'] ∧ Within 0 (content ++ [last]) := by
  have lexed : tokensAt .start "url(a(b))Url(c".toList =
      .ok [⟨.url, "url(a(b))", ⟨1, 1⟩⟩, ⟨.url, "Url(c", ⟨1, 10⟩⟩, ⟨.endOfInput, "", ⟨1, 15⟩⟩] := by decide +kernel
  obtain ⟨name, content, last, text, named, -, closed | ⟨within, -⟩, -⟩ :=
    @urls_read_without_last .start _ _ [⟨.url, "url(a(b))", ⟨1, 1⟩⟩] _ _ lexed rfl rfl
  · have whole : "Url(c".toList = (name ++ '(' :: content) ++ [last] := by
      rw [List.append_assoc]
      exact text
    have ends : "Url(c".toList.getLast? = some last := by rw [whole, List.getLast?_concat]
    rw [closed.1] at ends
    exact absurd ends (by decide)
  · exact ⟨lexed, name, content, last, text, named, within⟩

end Grammar

/-- A url that is not closed is accepted without its last letter, where a call that is not closed is not. -/
theorem Compiler.open_url_shortened :
    Lexer.tokensAt .start "url(abc".toList = .ok [⟨.url, "url(abc", ⟨1, 1⟩⟩, ⟨.endOfInput, "", ⟨1, 8⟩⟩] ∧
      let compiler := Compiler.create {} (Loader.memory [])
      (compiler.compileString "@import url(abc)" .scss).result = .ok "@import url(abc);\n" ∧
        (compiler.compileString "@import url(abc" .scss).result = .ok "@import url(ab);\n" ∧
        (compiler.compileString "@debug foo(abc" .scss).result.isOk = false ∧
        (compiler.compileString "@debug url(abc" .scss).result.isOk = true :=
  ⟨by decide +kernel, by decide +kernel, by decide +kernel, by decide +kernel, by decide +kernel⟩

end Scss
