import MarketFeed.Decimal.Attempt
import Mathlib.Tactic.Lemma

/-!
# Runs of computations that an overflow can end

What a computation gives on a state, step by step. A step that overflows ends the computation and
leaves the state as it had made it.
-/

namespace MarketFeed.Attempt

variable {σ τ α β γ : Type}

@[simp] lemma runOn_pure (a : α) (state : σ) : runOn (pure a) state = (.ok a, state) := rfl

@[simp] lemma runOn_get (state : σ) : runOn get state = (.ok state, state) := rfl

@[simp] lemma runOn_set (state other : σ) : runOn (set other) state = (.ok (), other) := rfl

@[simp] lemma runOn_modify (f : σ → σ) (state : σ) :
    runOn (modify f) state = (.ok (), f state) := rfl

@[simp] lemma runOn_of (result : Except Decimal.Overflow α) (state : σ) :
    (of result).runOn state = (result, state) := rfl

@[simp] lemma runOn_onPart (part : τ) (put : τ → σ → σ) (attempt : Attempt τ α) (state : σ) :
    (onPart part put attempt).runOn state =
      ((attempt.runOn part).1, put (attempt.runOn part).2 state) := rfl

lemma runOn_bind (first : Attempt σ α) (next : α → Attempt σ β) (state : σ) :
    (first >>= next).runOn state =
      match first.runOn state with
      | (.ok a, after) => (next a).runOn after
      | (.error overflow, after) => (.error overflow, after) := by
  rw [runOn, ExceptT.run_bind, StateT.run_bind]
  change _ = match StateT.run (ExceptT.run first) state with
    | (.ok a, after) => (next a).runOn after
    | (.error overflow, after) => (.error overflow, after)
  rcases StateT.run (ExceptT.run first) state with ⟨result | result, after⟩ <;> rfl

lemma runOn_bind_ok {first : Attempt σ α} {next : α → Attempt σ β} {state after : σ} {a : α}
    (h : first.runOn state = (.ok a, after)) :
    (first >>= next).runOn state = (next a).runOn after := by
  rw [runOn_bind, h]

lemma runOn_bind_error {first : Attempt σ α} {next : α → Attempt σ β} {state after : σ}
    {overflow : Decimal.Overflow} (h : first.runOn state = (.error overflow, after)) :
    (first >>= next).runOn state = (.error overflow, after) := by
  rw [runOn_bind, h]

/-- What a computation in two steps gives without an overflow, it gives step by step. -/
lemma runOn_bind_eq_ok {first : Attempt σ α} {next : α → Attempt σ β} {state after : σ} {b : β}
    (h : (first >>= next).runOn state = (.ok b, after)) : ∃ a between,
      first.runOn state = (.ok a, between) ∧ (next a).runOn between = (.ok b, after) := by
  rw [runOn_bind] at h
  rcases hf : first.runOn state with ⟨overflow | a, between⟩
  · rw [hf] at h
    exact absurd h (by simp)
  · rw [hf] at h
    exact ⟨a, between, rfl, h⟩

lemma runOn_of_bind_eq_ok {result : Except Decimal.Overflow α} {next : α → Attempt σ β}
    {state after : σ} {b : β} (h : (of result >>= next).runOn state = (.ok b, after)) :
    ∃ a, result = .ok a ∧ (next a).runOn state = (.ok b, after) := by
  obtain ⟨a, between, hf, hn⟩ := runOn_bind_eq_ok h
  obtain ⟨hr, rfl⟩ := Prod.mk.inj hf
  exact ⟨a, hr, hn⟩

/-- What ends a computation in two steps ends the first step, or the second one after the first. -/
lemma runOn_bind_eq_error {first : Attempt σ α} {next : α → Attempt σ β} {state after : σ}
    {overflow : Decimal.Overflow} (h : (first >>= next).runOn state = (.error overflow, after)) :
    first.runOn state = (.error overflow, after) ∨ ∃ a between,
      first.runOn state = (.ok a, between) ∧ (next a).runOn between = (.error overflow, after) := by
  rw [runOn_bind] at h
  rcases hf : first.runOn state with ⟨result | a, between⟩
  · rw [hf] at h
    obtain ⟨hresult, rfl⟩ := Prod.mk.inj h
    rw [Except.error.inj hresult]
    exact .inl rfl
  · rw [hf] at h
    exact .inr ⟨a, between, rfl, h⟩

lemma runOn_of_bind_eq_error {result : Except Decimal.Overflow α} {next : α → Attempt σ β}
    {state after : σ} {overflow : Decimal.Overflow}
    (h : (of result >>= next).runOn state = (.error overflow, after)) :
    (result = .error overflow ∧ after = state) ∨
      ∃ a, result = .ok a ∧ (next a).runOn state = (.error overflow, after) := by
  rcases runOn_bind_eq_error h with hr | ⟨a, between, hr, hn⟩
  · obtain ⟨hresult, hsame⟩ := Prod.mk.inj hr
    exact .inl ⟨hresult, hsame.symm⟩
  · obtain ⟨hresult, rfl⟩ := Prod.mk.inj hr
    exact .inr ⟨a, hresult, hn⟩

lemma runOn_bind_pure (first : Attempt σ α) (f : α → β) (state : σ) :
    (first >>= fun a => pure (f a)).runOn state =
      ((first.runOn state).1.map f, (first.runOn state).2) := by
  rw [runOn_bind]
  rcases first.runOn state with ⟨overflow | a, after⟩ <;> rfl

lemma runOn_discard (attempt : Attempt σ α) (state : σ) : (discard attempt).runOn state =
    ((attempt.runOn state).1.map fun _ => (), (attempt.runOn state).2) :=
  runOn_bind_pure attempt (fun _ => ()) state

lemma runOn_discard_eq_ok {attempt : Attempt σ α} {state after : σ}
    (h : (discard attempt).runOn state = (.ok (), after)) :
    ∃ a, attempt.runOn state = (.ok a, after) := by
  rw [runOn_discard] at h
  rcases hr : attempt.runOn state with ⟨overflow | a, between⟩
  · rw [hr] at h
    exact absurd (Prod.mk.inj h).1 (by simp [Except.map])
  · rw [hr] at h
    exact ⟨a, Prod.ext rfl (Prod.mk.inj h).2⟩

lemma runOn_discards_eq_ok {first : Attempt σ α} {second : Attempt σ β} {state after : σ}
    (h : (do discard first; discard second).runOn state = (.ok (), after)) :
    ∃ a between b, first.runOn state = (.ok a, between) ∧ second.runOn between = (.ok b, after) := by
  obtain ⟨⟨⟩, between, hfirst, hsecond⟩ := runOn_bind_eq_ok h
  obtain ⟨a, hfirst⟩ := runOn_discard_eq_ok hfirst
  obtain ⟨b, hsecond⟩ := runOn_discard_eq_ok hsecond
  exact ⟨a, between, b, hfirst, hsecond⟩

lemma runOn_mapM_concat_eq_ok {f : α → Attempt σ β} {as : List α} {a : α} {bs : List β}
    {state after : σ} (h : ((as ++ [a]).mapM f).runOn state = (.ok bs, after)) :
    ∃ earlier between last, (as.mapM f).runOn state = (.ok earlier, between) ∧
      (f a).runOn between = (.ok last, after) ∧ bs = earlier ++ [last] := by
  rw [List.mapM_append] at h
  obtain ⟨earlier, between, hearlier, h⟩ := runOn_bind_eq_ok h
  obtain ⟨rest, final, hrest, h⟩ := runOn_bind_eq_ok h
  obtain ⟨hbs, rfl⟩ := Prod.mk.inj h
  rw [List.mapM_cons] at hrest
  obtain ⟨last, ended, hlast, hnil⟩ := runOn_bind_eq_ok hrest
  obtain ⟨hlone, rfl⟩ := Prod.mk.inj hnil
  obtain rfl : [last] = rest := Except.ok.inj hlone
  exact ⟨earlier, between, last, hearlier, hlast, (Except.ok.inj hbs).symm⟩

variable {part : σ → γ}

/-- The computation leaves a part of the state alone, also when it ends early. -/
def Keeps (part : σ → γ) (attempt : Attempt σ α) : Prop :=
  ∀ state, part (attempt.runOn state).2 = part state

lemma keeps_pure (a : α) : Keeps part (pure a : Attempt σ α) := fun _ => rfl

lemma keeps_get : Keeps part get := fun _ => rfl

lemma keeps_of (result : Except Decimal.Overflow α) : Keeps part (of result) := fun _ => rfl

lemma keeps_modify {f : σ → σ} (h : ∀ state, part (f state) = part state) :
    Keeps part (modify f) := h

lemma keeps_onPart {piece : τ} {put : τ → σ → σ}
    (h : ∀ piece state, part (put piece state) = part state) (attempt : Attempt τ α) :
    Keeps part (onPart piece put attempt) := by
  intro state
  rw [runOn_onPart]
  exact h _ state

lemma Keeps.bind {first : Attempt σ α} {next : α → Attempt σ β} (hf : Keeps part first)
    (hn : ∀ a, Keeps part (next a)) : Keeps part (first >>= next) := by
  intro state
  have h := hf state
  rw [runOn_bind]
  rcases hr : first.runOn state with ⟨overflow | a, after⟩
  · rw [hr] at h
    exact h
  · rw [hr] at h
    exact (hn a after).trans h

lemma Keeps.foldlM {f : β → α → Attempt σ β} (h : ∀ b a, Keeps part (f b a)) (as : List α) (b : β) :
    Keeps part (as.foldlM f b) := by
  induction as generalizing b with
  | nil => exact keeps_pure b
  | cons a rest ih =>
    rw [List.foldlM_cons]
    exact (h b a).bind fun b => ih b

/-- What holds of the state goes on to hold, also when the computation ends early. -/
def Maintains (P : σ → Prop) (attempt : Attempt σ α) : Prop :=
  ∀ state, P state → P (attempt.runOn state).2

variable {P : σ → Prop}

lemma maintains_modify {f : σ → σ} (h : ∀ state, P state → P (f state)) :
    Maintains P (modify f) := h

lemma Keeps.maintains {attempt : Attempt σ α} (h : Keeps P attempt) : Maintains P attempt :=
  fun state hs => (h state).mpr hs

lemma Maintains.bind {first : Attempt σ α} {next : α → Attempt σ β} (hf : Maintains P first)
    (hn : ∀ a, Maintains P (next a)) : Maintains P (first >>= next) := by
  intro state hs
  have h := hf state hs
  rw [runOn_bind]
  rcases hr : first.runOn state with ⟨overflow | a, after⟩
  · rw [hr] at h
    exact h
  · rw [hr] at h
    exact hn a after h

end MarketFeed.Attempt
