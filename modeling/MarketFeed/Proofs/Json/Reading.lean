import MarketFeed.Json.Printer
import MarketFeed.Json.Typed
import Mathlib.Tactic.IntervalCases
import Mathlib.Tactic.Lemma

/-!
# Reading what was written

A reader takes the text of a value off the front of what remains. Readers are followed step by step;
texts in quotes come back as they were written.
-/

namespace MarketFeed.Json

/-- No value goes on with what follows: nothing, or what stands behind a value in a container. -/
def Ends (rest : List Char) : Prop :=
  rest = [] ∨ ∃ c tail, rest = c :: tail ∧ (c = ',' ∨ c = ']' ∨ c = '}')

lemma ends_nil : Ends [] := .inl rfl

lemma ends_comma (tail : List Char) : Ends (',' :: tail) := .inr ⟨',', tail, rfl, .inl rfl⟩

lemma ends_bracket (tail : List Char) : Ends (']' :: tail) :=
  .inr ⟨']', tail, rfl, .inr (.inl rfl)⟩

lemma ends_brace (tail : List Char) : Ends ('}' :: tail) := .inr ⟨'}', tail, rfl, .inr (.inr rfl)⟩

namespace Reader

variable {α β : Type} {reader : Reader α} {a : α} {b : β} {c : Char} {chars before rest : List Char}

/-- The reader takes the characters for `a`, whatever follows them. -/
def Takes (reader : Reader α) (chars : List Char) (a : α) : Prop :=
  ∀ rest, Ends rest → StateT.run reader (chars ++ rest) = .ok (a, rest)

lemma run_bind_ok (h : StateT.run reader before = .ok (a, rest)) (next : α → Reader β) :
    StateT.run (reader >>= next) before = StateT.run (next a) rest := by
  rw [StateT.run_bind, h]
  rfl

lemma run_of_bind_eq_ok {next : α → Reader β}
    (h : StateT.run (reader >>= next) before = .ok (b, rest)) :
    ∃ a between, StateT.run reader before = .ok (a, between) ∧
      StateT.run (next a) between = .ok (b, rest) := by
  rw [StateT.run_bind] at h
  cases hr : StateT.run reader before with
  | error fault =>
    rw [hr] at h
    exact absurd h (by simp [bind, Except.bind])
  | ok result =>
    rw [hr] at h
    exact ⟨result.1, result.2, rfl, h⟩

lemma run_get (rest : List Char) : StateT.run (get : Reader (List Char)) rest = .ok (rest, rest) :=
  rfl

lemma run_set (next rest : List Char) :
    StateT.run (set next : Reader PUnit) rest = .ok (⟨⟩, next) :=
  rfl

lemma run_skipOne (c : Char) (rest : List Char) :
    StateT.run skipOne (c :: rest) = .ok ((), rest) := rfl

lemma run_lookAhead (h : isBlank c = false) (rest : List Char) :
    StateT.run lookAhead (c :: rest) = .ok (some c, c :: rest) := by
  have hs : StateT.run skipBlanks (c :: rest) = .ok ((), c :: rest) := by
    change Except.ok ((), (c :: rest).dropWhile isBlank) = _
    rw [List.dropWhile_cons_of_neg (by simp [h])]
  rw [lookAhead, run_bind_ok hs]
  rfl

lemma run_word (expected rest : List Char) :
    StateT.run (word expected) (expected ++ rest) = .ok ((), rest) := by
  induction expected with
  | nil => rfl
  | cons c expected ih =>
    rw [word, run_bind_ok (run_get _)]
    simp only [List.cons_append, if_true]
    rw [run_bind_ok (run_set ..)]
    exact ih

/-! Texts in quotes. -/

lemma fourHex_control {n : Nat} (h : n < 0x20) (rest : List Char) :
    fourHex ('0' :: '0' :: hexDigit (n / 16) :: hexDigit n :: rest) = .ok n := by
  interval_cases n <;> rfl

/-- The escape of a control character stands for it. -/
lemma escape_control (h : c.toNat < 0x20) (rest : List Char) :
    escape ('u' :: '0' :: '0' :: hexDigit (c.toNat / 16) :: hexDigit c.toNat :: rest) =
      .ok (c, 5) := by
  rw [escape, fourHex_control h]
  have hlow : isLowSurrogate c.toNat = false := by
    rw [isLowSurrogate, Bool.and_eq_false_iff]
    exact .inl (decide_eq_false (by omega))
  have hhigh : isHighSurrogate c.toNat = false := by
    rw [isHighSurrogate, Bool.and_eq_false_iff]
    exact .inl (decide_eq_false (by omega))
  change (if isLowSurrogate c.toNat = true then throw Fault.malformed
    else if isHighSurrogate c.toNat = true then lowHalf c.toNat _ else _) = _
  rw [hlow, hhigh, if_neg (by simp), if_neg (by simp), Char.ofNat_toNat]
  rfl

/-- A character comes back from its written form. -/
lemma quotedTail_escapeChar (c : Char) (front rest : List Char) :
    quotedTail escape 0 front (escapeChar c ++ rest) = quotedTail escape 0 (c :: front) rest := by
  unfold escapeChar
  split_ifs with h1 h2 h3 h4 h5 h6 h7 h8
  · rw [h1]; rfl
  · rw [h2]; rfl
  · rw [h3]; rfl
  · rw [h4]; rfl
  · rw [h5]; rfl
  · rw [h6]; rfl
  · rw [h7]; rfl
  · change quotedTail escape 0 front
      ('\\' :: 'u' :: '0' :: '0' :: hexDigit (c.toNat / 16) :: hexDigit c.toNat :: rest) = _
    rw [quotedTail, if_neg (by decide), if_pos rfl, escape_control h8]
    rfl
  · change quotedTail escape 0 front (c :: rest) = _
    rw [quotedTail, if_neg h1, if_neg h2, if_neg h8]

lemma quotedTail_written (written front rest : List Char) :
    quotedTail escape 0 front (written.flatMap escapeChar ++ '"' :: rest) =
      .ok (front.reverse ++ written, rest) := by
  induction written generalizing front with
  | nil =>
    rw [List.flatMap_nil, List.nil_append, quotedTail, if_pos rfl, List.append_nil]
  | cons c written ih =>
    rw [List.flatMap_cons, List.append_assoc, quotedTail_escapeChar, ih, List.reverse_cons,
      List.append_assoc]
    rfl

lemma run_quotedRest (s : String) (rest : List Char) :
    StateT.run quotedRest (s.toList.flatMap escapeChar ++ '"' :: rest) = .ok (s, rest) := by
  have hq := quotedTail_written s.toList [] rest
  rw [quotedRest, run_bind_ok (run_get _)]
  rw [hq]
  change Except.ok (String.ofList s.toList, rest) = _
  rw [String.ofList_toList]

lemma quoted_append (s : String) (rest : List Char) :
    quoted s ++ rest = '"' :: (s.toList.flatMap escapeChar ++ '"' :: rest) := by
  rw [quoted, List.cons_append, List.cons_append, List.append_assoc]
  rfl

/-- The quote in front of a text. -/
lemma isBlank_quote : isBlank '"' = false := rfl

lemma takes_text (s : String) : Takes text (quoted s) s := by
  intro rest _
  rw [quoted_append, text, run_bind_ok (run_lookAhead isBlank_quote _)]
  exact (run_bind_ok (run_skipOne ..) _).trans (run_quotedRest s rest)

end Reader

end MarketFeed.Json
