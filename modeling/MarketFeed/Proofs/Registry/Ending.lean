import MarketFeed.Proofs.Registry.Channels
import MarketFeed.Proofs.Registry.OneShot

/-!
# The last delivery to a waiter

When everything is rejected, every waiter that is entered gets the rejection as its last delivery.
No later step of any caller takes this from it, unless its holder drops a ticket.
-/

namespace MarketFeed

variable {ν : Type}

namespace Registry

open Traffic

/-- None of the tickets that were given out is held by the waiter. -/
def IsNew (registry : Registry ν) (waiter : Waiter) : Prop :=
  ∀ number, waiter.claim = .ticket (some number) → registry.tickets.length ≤ number

/-- Uninterrupted calls lead from one registry to the other. Of the waiters that there were before
they drop these ones only, and they register waiters on these hashes only. -/
def Leads (registry : Registry ν) (drops : List Waiter) (joins : List String)
    (after : Registry ν) : Prop :=
  ∃ steps, (quiet registry).run steps = quiet after ∧
    (∀ waiter, .drop waiter ∈ steps → waiter ∈ drops ∨ registry.IsNew waiter) ∧
    ∀ hash kind, .register hash kind ∈ steps → hash ∈ joins

/-- The waiter is entered under its hash, and what it waits for has not come. -/
def Enters (registry : Registry ν) (waiter : Waiter) : Prop :=
  match waiter.claim with
  | .receiver number _ => registry.line waiter.hash = some number
  | .ticket (some number) =>
    number ∈ registry.queue waiter.hash ∧ registry.tickets[number]? = some .waiting
  | .ticket none => False

/-- The delivery is the last one that there will ever be for the waiter. -/
def EndsWith (registry : Registry ν) (waiter : Waiter) (delivery : Delivery ν) : Prop :=
  match waiter.claim with
  | .receiver number _ => ∃ channel, registry.content number = some channel ∧
      channel.isOpen = false ∧ channel.latest = some delivery
  | .ticket (some number) => registry.tickets[number]? = some (.delivered delivery)
  | .ticket none => False

end Registry

namespace Traffic

open Registry

variable {traffic : Traffic ν} {step : Step ν} {steps : List (Step ν)} {waiter : Waiter}
  {delivery : Delivery ν} {number : Nat}

lemma issued_run (traffic : Traffic ν) (steps : List (Step ν)) :
    traffic.registry.tickets.length ≤ (traffic.run steps).registry.tickets.length := by
  induction steps generalizing traffic with
  | nil => exact Nat.le_refl _
  | cons step rest ih => exact Nat.le_trans (issued_after traffic step) (ih _)

/-- A channel that has ended stays as it is. -/
lemma content_of_ended {channel : Channel ν} (h : traffic.registry.Wired)
    (hc : traffic.registry.content number = some channel) (ho : channel.isOpen = false)
    (step : Step ν) : (traffic.after step).registry.content number = some channel := by
  have hline : ∀ hash, traffic.registry.line hash ≠ some number := by
    intro hash hl
    obtain ⟨found, hfound, hopen⟩ := h.isOpen hash number hl
    rw [hc, Option.some.injEq] at hfound
    rw [hfound, hopen] at ho
    exact absurd ho (by simp)
  have heffect := channelEffect traffic step
  generalize (traffic.after step).registry = after at heffect
  cases heffect with
  | untouched _ _ _ hsame => exact (hsame number).trans hc
  | joined _ hjoined =>
    rw [hjoined, if_neg fun hnew => Nat.ne_of_lt (lt_of_content hc) hnew.2]
    exact hc
  | struck own _ _ _ _ _ hstruck =>
    rw [hstruck, if_neg (hline own)]
    exact hc

lemma endsWith_after (hw : traffic.registry.Wired) (h : traffic.registry.EndsWith waiter delivery)
    (hs : waiter.kind = .oneShot → ∀ dropped, step = .drop dropped → dropped.claim ≠ waiter.claim) :
    (traffic.after step).registry.EndsWith waiter delivery := by
  obtain ⟨hash, claim⟩ := waiter
  cases claim with
  | receiver number seen =>
    obtain ⟨channel, hchannel, hopen, hlatest⟩ := h
    exact ⟨channel, content_of_ended hw hchannel hopen step, hopen, hlatest⟩
  | ticket number =>
    cases number with
    | none => exact h
    | some number => exact delivered_after h (hs rfl)

lemma endsWith_run (hw : traffic.registry.Wired) (h : traffic.registry.EndsWith waiter delivery)
    (hs : waiter.kind = .oneShot →
      ∀ dropped, .drop dropped ∈ steps → dropped.claim ≠ waiter.claim) :
    (traffic.run steps).registry.EndsWith waiter delivery := by
  induction steps generalizing traffic with
  | nil => exact h
  | cons step rest ih =>
    apply ih (wired_after hw step)
    · exact endsWith_after hw h fun hk dropped hd => hs hk dropped (hd ▸ List.mem_cons_self ..)
    · exact fun hk dropped hm => hs hk dropped (List.mem_cons_of_mem _ hm)

lemma get?_after_eq_none {hash : String} (hg : traffic.registry.entries.get? hash = none)
    (hj : ∀ kind, step ≠ .register hash kind) :
    (traffic.after step).registry.entries.get? hash = none := by
  have hchanged : ∀ (own : String) (change : Option Entry → Option Entry) (after : Registry ν),
      traffic.registry.Changes own change after → (own = hash → change none = none) →
      after.entries.get? hash = none := by
    intro own change after hc hnone
    rw [hc hash, hg]
    split_ifs with he
    · exact hnone he
    · rfl
  cases step with
  | register own kind =>
    have hne : own ≠ hash := fun he => hj kind (he ▸ rfl)
    cases kind with
    | oneShot => exact hchanged own _ _ (changes_register_oneShot _ own) fun he => absurd he hne
    | persistent =>
      obtain ⟨-, channel, hc⟩ := register_persistent traffic.registry own
      exact hchanged own _ _ hc fun he => absurd he hne
  | settle own delivery => exact hchanged own _ _ (changes_deliver _ own delivery) fun _ => rfl
  | unsubscribe own => exact hchanged own _ _ (changes_dropChannel _ own) fun _ => rfl
  | rejectAll fault => exact hg
  | prune own =>
    rw [after]
    split_ifs
    · exact hchanged own _ _ (changes_removeIfIdle _ own) fun _ => rfl
    · exact hg
  | remove index =>
    rw [after]
    split
    · exact hchanged _ _ _ (changes_rejectAndRemove _ _ _) fun _ => rfl
    · exact hg
  | drop waiter =>
    rw [after, entries_discard]
    exact hg

lemma get?_run_eq_none {hash : String} (hg : traffic.registry.entries.get? hash = none)
    (hj : ∀ kind, .register hash kind ∉ steps) :
    (traffic.run steps).registry.entries.get? hash = none := by
  induction steps generalizing traffic with
  | nil => exact hg
  | cons step rest ih =>
    apply ih
    · exact get?_after_eq_none hg fun kind he => hj kind (he ▸ List.mem_cons_self ..)
    · exact fun kind hm => hj kind (List.mem_cons_of_mem _ hm)

end Traffic

namespace Registry

open Traffic

variable {registry middle after : Registry ν} {drops others : List Waiter}
  {joins names : List String} {waiter : Waiter} {hash : String} {delivery : Delivery ν}

lemma EndsWith.claim_ne {other : Waiter} (h : registry.EndsWith waiter delivery)
    (hk : waiter.kind = .oneShot) (hn : registry.IsNew other) : other.claim ≠ waiter.claim := by
  obtain ⟨hash, claim⟩ := waiter
  intro hc
  cases claim with
  | receiver number seen => exact absurd hk (by simp [Waiter.kind])
  | ticket number =>
    cases number with
    | none => exact h
    | some number =>
      obtain ⟨hlt, -⟩ := List.getElem?_eq_some_iff.mp h
      exact absurd (hn number hc) (Nat.not_le_of_lt hlt)

/-! Calls that nobody interrupts. -/

lemma Leads.refl (registry : Registry ν) : registry.Leads [] [] registry :=
  ⟨[], rfl, fun _ hm => absurd hm List.not_mem_nil, fun _ _ hm => absurd hm List.not_mem_nil⟩

lemma Leads.issued (h : registry.Leads drops joins after) :
    registry.tickets.length ≤ after.tickets.length := by
  obtain ⟨steps, hrun, -⟩ := h
  have hissued := issued_run (quiet registry) steps
  rw [hrun] at hissued
  exact hissued

lemma Leads.trans (h : registry.Leads drops joins middle) (h' : middle.Leads others names after) :
    registry.Leads (drops ++ others) (joins ++ names) after := by
  have hissued := h.issued
  obtain ⟨early, hearly, hdrops, hjoins⟩ := h
  obtain ⟨late, hlate, hothers, hnames⟩ := h'
  refine ⟨early ++ late, ?_, fun waiter hm => ?_, fun hash kind hm => ?_⟩
  · rw [Traffic.run, List.foldl_append]
    exact (congrArg (Traffic.run · late) hearly).trans hlate
  · rcases List.mem_append.mp hm with hfirst | hlast
    · exact (hdrops waiter hfirst).imp_left (List.mem_append_left _)
    · refine (hothers waiter hlast).imp (List.mem_append_right _) fun hnew number hclaim => ?_
      exact Nat.le_trans hissued (hnew number hclaim)
  · exact List.mem_append.mpr ((List.mem_append.mp hm).imp (hjoins hash kind) (hnames hash kind))

lemma Leads.mono (h : registry.Leads drops joins after) (hd : ∀ waiter ∈ drops, waiter ∈ others)
    (hj : ∀ hash ∈ joins, hash ∈ names) : registry.Leads others names after := by
  obtain ⟨steps, hrun, hdrops, hjoins⟩ := h
  exact ⟨steps, hrun, fun waiter hm => (hdrops waiter hm).imp_left (hd waiter),
    fun hash kind hm => hj hash (hjoins hash kind hm)⟩

/-- To drop waiters that are new does not count. -/
lemma Leads.of_new (h : registry.Leads drops joins after)
    (hn : ∀ waiter ∈ drops, registry.IsNew waiter) : registry.Leads [] joins after := by
  obtain ⟨steps, hrun, hdrops, hjoins⟩ := h
  exact ⟨steps, hrun, fun waiter hm => .inr ((hdrops waiter hm).elim (hn waiter) id), hjoins⟩

lemma leads_register (registry : Registry ν) (hash : String) (kind : WaiterKind) :
    registry.Leads [] [hash] (registry.register hash kind).2 :=
  ⟨[.register hash kind], rfl, by simp, by simp⟩

lemma isNew_register (registry : Registry ν) (hash : String) (kind : WaiterKind) :
    registry.IsNew (registry.register hash kind).1 := by
  intro number hc
  cases kind with
  | oneShot =>
    rw [register_oneShot] at hc
    obtain rfl : registry.tickets.length = number := by simpa using hc
    exact Nat.le_refl _
  | persistent =>
    cases hl : registry.line hash with
    | none =>
      rw [register_persistent_of_none hl] at hc
      exact absurd hc (by simp)
    | some joined =>
      rw [register_persistent_of_line hl] at hc
      exact absurd hc (by simp)

/-- A waiter that has taken a delivery holds no ticket any more. -/
lemma isNew_of_take {taken : Waiter} (h : registry.take waiter = (.delivery delivery, taken)) :
    registry.IsNew taken := by
  intro number hc
  unfold take at h
  split at h
  · exact absurd h (by simp)
  · split at h
    · obtain ⟨-, rfl⟩ := Prod.mk.inj h
      exact absurd hc (by simp)
    · exact absurd h (by simp)
    · exact absurd h (by simp)
  · split at h
    · exact absurd h (by simp)
    · split at h
      · obtain ⟨-, rfl⟩ := Prod.mk.inj h
        exact absurd hc (by simp)
      · exact absurd h (by split_ifs <;> simp)

lemma leads_settle (registry : Registry ν) (hash : String) (delivery : Delivery ν) :
    registry.Leads [] [] (registry.settle hash delivery).2 :=
  ⟨_, run_settle registry hash delivery, by simp, by simp⟩

lemma leads_unsubscribe (registry : Registry ν) (hash : String) :
    registry.Leads [] [] (registry.unsubscribe hash).2 :=
  ⟨_, run_unsubscribe registry hash, by simp, by simp⟩

lemma leads_rejectAll (registry : Registry ν) (fault : Fault) :
    registry.Leads [] [] (registry.rejectAll fault).2 :=
  ⟨_, run_rejectAll registry fault, by simp, by simp⟩

lemma leads_discard (registry : Registry ν) (waiter : Waiter) :
    registry.Leads [waiter] [] (registry.discard waiter) :=
  ⟨[.drop waiter], rfl, fun _ hm => .inl (by simpa using hm), by simp⟩

lemma Leads.wired (h : registry.Leads drops joins after) (hw : registry.Wired) : after.Wired := by
  obtain ⟨steps, hrun, -⟩ := h
  have hwired : ((quiet registry).run steps).registry.Wired := wired_run hw steps
  rw [hrun] at hwired
  exact hwired

lemma Leads.endsWith (h : registry.Leads drops joins after) (hw : registry.Wired)
    (he : registry.EndsWith waiter delivery)
    (hs : waiter.kind = .oneShot → ∀ other ∈ drops, other.claim ≠ waiter.claim) :
    after.EndsWith waiter delivery := by
  obtain ⟨steps, hrun, hdrops, -⟩ := h
  have hends : ((quiet registry).run steps).registry.EndsWith waiter delivery := by
    apply endsWith_run hw he
    intro hk other hm
    rcases hdrops other hm with hmem | hnew
    · exact hs hk other hmem
    · exact he.claim_ne hk hnew
  rw [hrun] at hends
  exact hends

lemma Enters.mem_keys (h : registry.Enters waiter) : waiter.hash ∈ registry.entries.keys := by
  have hentry : registry.entries.get? waiter.hash ≠ none := by
    intro hnone
    have hempty : registry.entry waiter.hash = .empty := by rw [entry, hnone, Option.getD_none]
    unfold Enters line queue at h
    rw [hempty] at h
    split at h
    · exact absurd h (by simp [Entry.empty])
    · exact absurd h.1 List.not_mem_nil
    · exact h
  obtain ⟨entry, hg⟩ := Option.ne_none_iff_exists'.mp hentry
  exact Table.mem_keys_of_find? hg

lemma contains_register (registry : Registry ν) (hash : String) (kind : WaiterKind) :
    (registry.register hash kind).2.contains hash = true := by
  rw [contains_eq]
  cases kind with
  | oneShot =>
    rw [changes_register_oneShot registry hash hash, if_pos rfl]
    rfl
  | persistent =>
    obtain ⟨-, channel, hc⟩ := register_persistent registry hash
    rw [hc hash, if_pos rfl]
    rfl

lemma enters_register (registry : Registry ν) (hash : String) :
    (registry.register hash .persistent).1.hash = hash ∧
      (registry.register hash .persistent).2.Enters (registry.register hash .persistent).1 := by
  have hline := line_register_persistent registry hash hash
  rw [if_pos rfl] at hline
  cases hl : registry.line hash with
  | none =>
    rw [hl, register_persistent_of_none hl] at hline
    rw [register_persistent_of_none hl]
    exact ⟨rfl, hline⟩
  | some joined =>
    rw [hl, register_persistent_of_line hl] at hline
    rw [register_persistent_of_line hl]
    exact ⟨rfl, hline⟩

/-- A waiter that is rejected gets the rejection as its last delivery; the others stay entered. -/
lemma endsWith_or_enters (hw : registry.Wired) (h : registry.Enters waiter) (key : String)
    (fault : Fault) :
    (registry.rejectAndRemove key fault).2.EndsWith waiter (.error fault) ∨
      key ≠ waiter.hash ∧ (registry.rejectAndRemove key fault).2.Enters waiter := by
  obtain ⟨hash, claim⟩ := waiter
  cases claim with
  | receiver number seen =>
    have hl : registry.line hash = some number := h
    by_cases hk : key = hash
    · subst hk
      obtain ⟨channel, hchannel, hopen⟩ := hw.isOpen key number hl
      refine .inl ⟨channel.struck (some (.error fault)) true, ?_, ?_, ?_⟩
      · rw [content_rejectAndRemove, if_pos hl, hchannel]
        rfl
      · rw [Channel.isOpen_struck, Bool.not_true, Bool.and_false]
      · rw [Channel.latest_struck]
        rfl
    · refine .inr ⟨hk, ?_⟩
      change (registry.rejectAndRemove key fault).2.line hash = some number
      rw [line_rejectAndRemove, if_neg hk]
      exact hl
  | ticket number =>
    cases number with
    | none => exact h.elim
    | some number =>
      obtain ⟨hm, hwaiting⟩ := h
      by_cases hq : number ∈ registry.queue key
      · left
        change (registry.rejectAndRemove key fault).2.tickets[number]? = _
        rw [tickets_rejectAndRemove, if_pos hq, hwaiting]
        rfl
      · have hk : key ≠ hash := fun he => hq (he ▸ hm)
        refine .inr ⟨hk, ?_, ?_⟩
        · change number ∈ (registry.rejectAndRemove key fault).2.queue hash
          rw [queue_rejectAndRemove, if_neg hk]
          exact hm
        · rw [tickets_rejectAndRemove, if_neg hq]
          exact hwaiting

/-- A hash without an entry gets one only if somebody registers on it. -/
lemma Leads.get?_eq_none (h : registry.Leads drops joins after)
    (hg : registry.entries.get? hash = none) (hj : hash ∉ joins) :
    after.entries.get? hash = none := by
  obtain ⟨steps, hrun, -, hjoins⟩ := h
  have hnone : ((quiet registry).run steps).registry.entries.get? hash = none :=
    get?_run_eq_none hg fun kind hm => hj (hjoins hash kind hm)
  rw [hrun] at hnone
  exact hnone

/-! Everything is rejected. -/

/-- To reject everything comes to some end for a hash with an entry if each removal either brings it
about or leaves everything as it was for the hash, and no removal undoes it. -/
lemma rejectAll_brings (waits ended : Registry ν → Prop) {fault : Fault}
    (hk : ∀ registry : Registry ν, registry.Wired → ended registry →
      ∀ key, ended (registry.rejectAndRemove key fault).2)
    (hs : ∀ registry : Registry ν, registry.Wired → waits registry → ∀ key,
      ended (registry.rejectAndRemove key fault).2 ∨
        key ≠ hash ∧ waits (registry.rejectAndRemove key fault).2)
    (hw : registry.Wired) (h : waits registry) (hm : hash ∈ registry.entries.keys) :
    ended (registry.rejectAll fault).2 := by
  suffices hall : ∀ (keys : List String) (registry : Registry ν), registry.Wired →
      ended registry ∨ hash ∈ keys ∧ waits registry →
      ended (keys.foldl (fun registry key => (registry.rejectAndRemove key fault).2) registry) by
    rw [rejectAll_snd]
    exact hall _ registry hw (.inr ⟨hm, h⟩)
  intro keys
  induction keys with
  | nil =>
    intro registry _ h
    exact h.resolve_right fun hm => List.not_mem_nil hm.1
  | cons key rest ih =>
    intro registry hw h
    let traffic : Traffic ν := ⟨registry, [], [(key, fault)]⟩
    apply ih _ (wired_after hw (.remove 0) : (traffic.after (.remove 0)).registry.Wired)
    rcases h with hended | ⟨hm, hwaits⟩
    · exact .inl (hk registry hw hended key)
    · refine (hs registry hw hwaits key).imp_right fun ⟨hne, hstays⟩ => ?_
      exact ⟨(List.mem_cons.mp hm).resolve_left (Ne.symm hne), hstays⟩

lemma endsWith_rejectAll (hw : registry.Wired) (h : registry.Enters waiter) (fault : Fault) :
    (registry.rejectAll fault).2.EndsWith waiter (.error fault) := by
  refine rejectAll_brings (·.Enters waiter) (·.EndsWith waiter (.error fault))
    (fun registry hw hends key => ?_)
    (fun registry hw henters key => endsWith_or_enters hw henters key fault) hw h h.mem_keys
  let traffic : Traffic ν := ⟨registry, [], [(key, fault)]⟩
  have hlast : (traffic.after (.remove 0)).registry.EndsWith waiter (.error fault) :=
    endsWith_after hw hends fun _ _ hd => absurd hd (by simp)
  exact hlast

/-- The channel of a hash ends with the rejection. -/
lemma content_rejectAll {number : Nat} (hw : registry.Wired) (h : registry.line hash = some number)
    (fault : Fault) : (registry.rejectAll fault).2.content number =
      (registry.content number).map (.struck (some (.error fault)) true) := by
  obtain ⟨channel, hchannel, -⟩ := hw.isOpen hash number h
  have henters : registry.Enters ⟨hash, .receiver number 0⟩ := h
  rw [hchannel]
  refine rejectAll_brings
    (fun registry => registry.line hash = some number ∧ registry.content number = some channel)
    (·.content number = some (channel.struck (some (.error fault)) true))
    (fun registry hw hended key => ?_) (fun registry hw hwaits key => ?_) hw ⟨h, hchannel⟩
    henters.mem_keys
  · let traffic : Traffic ν := ⟨registry, [], [(key, fault)]⟩
    have hclosed : (channel.struck (some (.error fault)) true).isOpen = false := by
      rw [Channel.isOpen_struck, Bool.not_true, Bool.and_false]
    have hkept : (traffic.after (.remove 0)).registry.content number =
        some (channel.struck (some (.error fault)) true) :=
      content_of_ended hw hended hclosed (.remove 0)
    exact hkept
  · obtain ⟨hline, hcontent⟩ := hwaits
    rw [content_rejectAndRemove, line_rejectAndRemove]
    by_cases hl : registry.line key = some number
    · rw [if_pos hl, hcontent]
      exact .inl rfl
    · have hne : key ≠ hash := fun he => hl (he ▸ hline)
      rw [if_neg hl, if_neg hne]
      exact .inr ⟨hne, hline, hcontent⟩

lemma get?_rejectAll (registry : Registry ν) (fault : Fault) (hash : String) :
    (registry.rejectAll fault).2.entries.get? hash = none := by
  suffices hall : ∀ (keys : List String) (registry : Registry ν),
      (hash ∉ keys → registry.entries.get? hash = none) →
      (keys.foldl (fun registry hash => (registry.rejectAndRemove hash fault).2)
        registry).entries.get? hash = none by
    rw [rejectAll_snd]
    apply hall
    intro hm
    cases hg : registry.entries.get? hash with
    | none => rfl
    | some entry => exact absurd (Table.mem_keys_of_find? hg) hm
  intro keys
  induction keys with
  | nil => exact fun registry h => h List.not_mem_nil
  | cons key rest ih =>
    intro registry h
    apply ih
    intro hm
    rw [changes_rejectAndRemove registry key fault hash]
    split_ifs with hk
    · rfl
    · exact h (by simp [hm, Ne.symm hk])

end Registry

end MarketFeed
