import MarketFeed.Cache.Keyed
import Mathlib.Logic.Function.Basic
import Mathlib.Tactic.Lemma
import Mathlib.Tactic.SplitIfs

/-!
# Indexes of keys

An index is compared with what stands at the positions, one key at a time. It is sound for a key if
the entry of the key leads to a record that carries it, and complete if each record that carries the
key is found under it. Both survive that a record leaves its position together with its keys, and
that a record comes to an empty one.
-/

namespace MarketFeed

/-- The two sorts of keys that a record may have. -/
inductive KeyKind where
  | id
  | clientId
deriving DecidableEq, Repr

namespace RecordKeys

def key : KeyKind → RecordKeys → Option String
  | .id, keys => keys.id
  | .clientId, keys => keys.clientId

/-- The record has this key under this symbol. -/
def Carries (keys : RecordKeys) (kind : KeyKind) (symbol key : String) : Prop :=
  keys.symbol = symbol ∧ keys.key kind = some key

/-- The records share a symbol and a key of this sort. -/
def Clash (kind : KeyKind) (a b : RecordKeys) : Prop :=
  a.symbol = b.symbol ∧ ∃ key, a.key kind = some key ∧ b.key kind = some key

lemma Carries.clash {a b : RecordKeys} {kind : KeyKind} {symbol key : String}
    (ha : a.Carries kind symbol key) (hb : b.Carries kind symbol key) : Clash kind a b :=
  ⟨ha.1.trans hb.1.symm, key, ha.2, hb.2⟩

lemma Clash.symm {kind : KeyKind} {a b : RecordKeys} (h : Clash kind a b) :
    Clash kind b a := by
  obtain ⟨hs, key, ha, hb⟩ := h
  exact ⟨hs.symm, key, hb, ha⟩

instance (kind : KeyKind) (a b : RecordKeys) : Decidable (Clash kind a b) :=
  decidable_of_iff (a.symbol = b.symbol ∧ (a.key kind).isSome ∧ a.key kind = b.key kind) <| by
    rw [Clash, Option.isSome_iff_exists]
    constructor
    · rintro ⟨hs, ⟨key, hk⟩, he⟩
      exact ⟨hs, key, hk, he ▸ hk⟩
    · rintro ⟨hs, key, ha, hb⟩
      exact ⟨hs, ⟨key, ha⟩, ha.trans hb.symm⟩

end RecordKeys

namespace KeyIndex

/-- The keys of the records by their positions. -/
abbrev Occupancy := Nat → Option RecordKeys

/-- The entry of the key leads to a record that carries it. -/
def SoundAt (kind : KeyKind) (symbol key : String) (index : KeyIndex) (held : Occupancy) : Prop :=
  ∀ position, index.get? (symbol, key) = some position →
    ∃ keys, held position = some keys ∧ keys.Carries kind symbol key

/-- A record that carries the key is found under it. -/
def CompleteAt (kind : KeyKind) (symbol key : String) (index : KeyIndex) (held : Occupancy) :
    Prop :=
  ∀ position keys, held position = some keys → keys.Carries kind symbol key →
    index.get? (symbol, key) = some position

variable {kind : KeyKind} {symbol key : String} {index : KeyIndex} {held : Occupancy}
  {position : Nat} {keys : RecordKeys}

lemma get?_enter (index : KeyIndex) (symbol : String) (key : Option String) (position : Nat)
    (s k : String) : (index.enter symbol key position).get? (s, k) =
      if symbol = s ∧ key = some k then some position else index.get? (s, k) := by
  cases key with
  | none => simp [enter]
  | some key => simp [enter, Table.get?_insert]

lemma get?_leave (index : KeyIndex) (symbol : String) (key : Option String) (position : Nat)
    (s k : String) : (index.leave symbol key position).get? (s, k) =
      if (symbol = s ∧ key = some k) ∧ index.get? (s, k) = some position then none
      else index.get? (s, k) := by
  cases key with
  | none => simp [leave]
  | some key =>
    rw [leave, Option.elim_some]
    by_cases hk : symbol = s ∧ key = k
    · obtain ⟨rfl, rfl⟩ := hk
      by_cases hp : index.get? (symbol, key) = some position
      · simp [hp, Table.get?_erase]
      · simp [hp]
    · by_cases hp : index.get? (symbol, key) = some position
      · simp [hp, Table.get?_erase, hk]
      · simp [hp, hk]

lemma find?_eq_some {symbol : String} {key : Option String} :
    index.find? symbol key = some position ↔
      ∃ k, key = some k ∧ index.get? (symbol, k) = some position := by
  cases key <;> simp [find?]

lemma soundAt_empty (held : Occupancy) : SoundAt kind symbol key .empty held := by
  intro position h
  exact absurd h (by simp)

/-- No entry leads to an empty position. -/
lemma SoundAt.ne_of_none (h : SoundAt kind symbol key index held) (hp : held position = none) :
    index.get? (symbol, key) ≠ some position := by
  intro he
  obtain ⟨keys, hk, -⟩ := h position he
  rw [hp] at hk
  exact absurd hk (by simp)

lemma SoundAt.leave (h : SoundAt kind symbol key index held) (hp : held position = some keys) :
    SoundAt kind symbol key (index.leave keys.symbol (keys.key kind) position)
      (Function.update held position none) := by
  intro other he
  rw [get?_leave] at he
  split_ifs at he with hl
  have hne : other ≠ position := by
    rintro rfl
    obtain ⟨owner, ho, hc⟩ := h other he
    rw [hp, Option.some.injEq] at ho
    subst ho
    exact hl ⟨hc, he⟩
  rw [Function.update_of_ne hne]
  exact h other he

lemma SoundAt.enter (h : SoundAt kind symbol key index held) (hp : held position = none) :
    SoundAt kind symbol key (index.enter keys.symbol (keys.key kind) position)
      (Function.update held position (some keys)) := by
  intro other he
  rw [get?_enter] at he
  split_ifs at he with hl
  · obtain rfl := Option.some.inj he
    exact ⟨keys, Function.update_self .., hl⟩
  · have hne : other ≠ position := by
      rintro rfl
      exact h.ne_of_none hp he
    rw [Function.update_of_ne hne]
    exact h other he

/-- A record may get other keys behind the back of the index, as long as it does not lose this
one. -/
lemma SoundAt.update (h : SoundAt kind symbol key index held) {newer : RecordKeys}
    (hp : held position = some keys)
    (hk : keys.Carries kind symbol key → newer.Carries kind symbol key) :
    SoundAt kind symbol key index (Function.update held position (some newer)) := by
  intro other he
  obtain ⟨owner, ho, hc⟩ := h other he
  by_cases hne : other = position
  · subst hne
    obtain rfl : keys = owner := Option.some.inj (hp.symm.trans ho)
    exact ⟨newer, Function.update_self .., hk hc⟩
  · rw [Function.update_of_ne hne]
    exact ⟨owner, ho, hc⟩

lemma CompleteAt.leave (h : CompleteAt kind symbol key index held)
    (hp : held position = some keys) :
    CompleteAt kind symbol key (index.leave keys.symbol (keys.key kind) position)
      (Function.update held position none) := by
  intro other owner ho hc
  have hne : other ≠ position := by
    rintro rfl
    rw [Function.update_self] at ho
    exact absurd ho (by simp)
  rw [Function.update_of_ne hne] at ho
  have he := h other owner ho hc
  rw [get?_leave, if_neg, he]
  rintro ⟨-, hq⟩
  exact hne (Option.some.inj (he.symm.trans hq))

lemma CompleteAt.enter (h : CompleteAt kind symbol key index held)
    (hn : keys.Carries kind symbol key → ∀ other owner, held other = some owner →
      ¬ owner.Carries kind symbol key) :
    CompleteAt kind symbol key (index.enter keys.symbol (keys.key kind) position)
      (Function.update held position (some keys)) := by
  intro other owner ho hc
  rw [get?_enter]
  by_cases hne : other = position
  · subst hne
    rw [Function.update_self, Option.some.injEq] at ho
    subst ho
    exact if_pos hc
  · rw [Function.update_of_ne hne] at ho
    have hother : ¬ (keys.symbol = symbol ∧ keys.key kind = some key) :=
      fun hk => hn hk other owner ho hc
    rw [if_neg hother]
    exact h other owner ho hc

/-- A record may get other keys behind the back of the index, as long as this one is not new to
it. -/
lemma CompleteAt.update (h : CompleteAt kind symbol key index held) {newer : RecordKeys}
    (hp : held position = some keys)
    (hk : newer.Carries kind symbol key → keys.Carries kind symbol key) :
    CompleteAt kind symbol key index (Function.update held position (some newer)) := by
  intro other owner ho hc
  by_cases hne : other = position
  · subst hne
    rw [Function.update_self, Option.some.injEq] at ho
    subst ho
    exact h other keys hp (hk hc)
  · rw [Function.update_of_ne hne] at ho
    exact h other owner ho hc

end KeyIndex

end MarketFeed
