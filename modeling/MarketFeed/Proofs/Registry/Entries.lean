import MarketFeed.Registry.Basic
import Mathlib.Tactic.Lemma
import Mathlib.Tactic.SplitIfs

/-!
# What happens to entries and tickets

Each operation on a registry changes the entry of its own hash at most. Only a delivery to the entry
of a ticket and the holder of the ticket change what became of the ticket. Removing an idle entry
makes no difference to what is entered.
-/

namespace MarketFeed

variable {ν : Type}

/-- The ticket after a delivery to its holder. -/
def Ticket.given (delivery : Delivery ν) : Ticket ν → Ticket ν
  | .waiting => .delivered delivery
  | ticket => ticket

lemma Ticket.given_comp_given (delivery : Delivery ν) :
    Ticket.given delivery ∘ Ticket.given delivery = Ticket.given delivery := by
  funext ticket
  cases ticket <;> rfl

namespace Registry

/-- The tickets that wait on a hash. -/
def queue (registry : Registry ν) (hash : String) : List Nat := (registry.entry hash).tickets

/-- Entries change at one hash only, and there in this way. -/
def Changes (registry : Registry ν) (hash : String) (change : Option Entry → Option Entry)
    (after : Registry ν) : Prop :=
  ∀ other, after.entries.get? other =
    if hash = other then change (registry.entries.get? other) else registry.entries.get? other

variable {registry after : Registry ν} {hash other : String} {delivery : Delivery ν}
  {fault : Fault} {number : Nat} {change : Option Entry → Option Entry}

lemma contains_eq (registry : Registry ν) (hash : String) :
    registry.contains hash = (registry.entries.get? hash).isSome := rfl

/-- What a change makes of a part of entries, it makes of this part of the entry of the hash. -/
lemma Changes.part {α : Type} (h : registry.Changes hash change after) (part : Entry → α)
    {f : α → α} (hf : ∀ entry, part ((change entry).getD .empty) = f (part (entry.getD .empty)))
    (other : String) : part (after.entry other) =
      if hash = other then f (part (registry.entry other)) else part (registry.entry other) := by
  rw [entry, h other]
  split_ifs
  · exact hf _
  · rfl

lemma Changes.queue (h : registry.Changes hash change after) {f : List Nat → List Nat}
    (hf : ∀ entry, ((change entry).getD .empty).tickets = f (entry.getD .empty).tickets)
    (other : String) : after.queue other =
      if hash = other then f (registry.queue other) else registry.queue other :=
  h.part Entry.tickets hf other

/-! Registering. -/

lemma register_oneShot (registry : Registry ν) (hash : String) :
    registry.register hash .oneShot = (⟨hash, .ticket registry.tickets.length⟩,
      { registry with tickets := registry.tickets ++ [Ticket.waiting] }.putEntry hash
        { registry.entry hash with
          tickets := (registry.entry hash).tickets ++ [registry.tickets.length] }) := rfl

lemma changes_register_oneShot (registry : Registry ν) (hash : String) :
    registry.Changes hash
      (fun entry => some { entry.getD .empty with
        tickets := (entry.getD .empty).tickets ++ [registry.tickets.length] })
      (registry.register hash .oneShot).2 := by
  intro other
  rw [register_oneShot]
  refine (Table.get?_insert ..).trans ?_
  split_ifs with he
  · rw [he]
    rfl
  · rfl

lemma queue_register_oneShot (registry : Registry ν) (hash other : String) :
    (registry.register hash .oneShot).2.queue other =
      if hash = other then registry.queue other ++ [registry.tickets.length]
      else registry.queue other :=
  (changes_register_oneShot registry hash).queue
    (f := fun tickets => tickets ++ [registry.tickets.length]) (fun _ => rfl) other

/-- A persistent waiter joins the channel of its hash or brings a new one, and takes no ticket. -/
lemma register_persistent (registry : Registry ν) (hash : String) :
    (registry.register hash .persistent).2.tickets = registry.tickets ∧ ∃ channel,
      registry.Changes hash (fun entry => some { entry.getD .empty with channel := some channel })
        (registry.register hash .persistent).2 := by
  cases hc : (registry.entry hash).channel with
  | none =>
    have hr : (registry.register hash .persistent).2 =
        { registry with channels := registry.channels ++ [Channel.new] }.putEntry hash
          { registry.entry hash with channel := some registry.channels.length } := by
      simp only [register, hc]
    rw [hr]
    refine ⟨rfl, registry.channels.length, fun other => (Table.get?_insert ..).trans ?_⟩
    split_ifs with he
    · rw [he]
      rfl
    · rfl
  | some number =>
    have hr : (registry.register hash .persistent).2 =
        registry.changeChannel number Channel.join := by
      simp only [register, hc]
    rw [hr]
    refine ⟨rfl, number, fun other => ?_⟩
    change registry.entries.get? other = _
    split_ifs with he
    · subst he
      rw [entry] at hc
      cases hg : registry.entries.get? hash with
      | none =>
        rw [hg] at hc
        exact absurd hc (by simp [Entry.empty])
      | some entry =>
        rw [hg] at hc
        obtain ⟨channel, tickets⟩ := entry
        obtain rfl : channel = some number := hc
        rfl
    · rfl

lemma queue_register_persistent (registry : Registry ν) (hash other : String) :
    (registry.register hash .persistent).2.queue other = registry.queue other := by
  obtain ⟨-, channel, hc⟩ := register_persistent registry hash
  rw [hc.queue (f := id) (fun _ => rfl), id, ite_self]

/-! Delivering. -/

lemma tickets_hand (registry : Registry ν) (number other : Nat) (delivery : Delivery ν) :
    (registry.hand number delivery).2.tickets[other]? =
      if number = other then registry.tickets[other]?.map (Ticket.given delivery)
      else registry.tickets[other]? := by
  rw [hand]
  split
  · rename_i ht
    change (registry.tickets.set number (.delivered delivery))[other]? = _
    obtain ⟨hl, -⟩ := List.getElem?_eq_some_iff.mp ht
    rw [List.getElem?_set]
    split_ifs with he
    · subst he
      rw [ht]
      rfl
    · rfl
  · rename_i hn
    split_ifs with he
    · subst he
      cases ht : registry.tickets[number]? with
      | none => rfl
      | some ticket =>
        cases ticket with
        | waiting => exact absurd ht hn
        | delivered => rfl
        | abandoned => rfl
    · rfl

lemma entries_hand (registry : Registry ν) (number : Nat) (delivery : Delivery ν) :
    (registry.hand number delivery).2.entries = registry.entries := by
  rw [hand]
  split <;> rfl

lemma handAll_snd (registry : Registry ν) (numbers : List Nat) (delivery : Delivery ν) :
    (registry.handAll numbers delivery).2 =
      numbers.foldl (fun registry number => (registry.hand number delivery).2) registry :=
  (List.foldl_hom Prod.snd fun _ _ => rfl).symm

lemma entries_handAll (registry : Registry ν) (numbers : List Nat) (delivery : Delivery ν) :
    (registry.handAll numbers delivery).2.entries = registry.entries := by
  rw [handAll_snd]
  induction numbers generalizing registry with
  | nil => rfl
  | cons number rest ih => exact (ih _).trans (entries_hand ..)

lemma tickets_handAll (registry : Registry ν) (numbers : List Nat) (other : Nat)
    (delivery : Delivery ν) : (registry.handAll numbers delivery).2.tickets[other]? =
      if other ∈ numbers then registry.tickets[other]?.map (Ticket.given delivery)
      else registry.tickets[other]? := by
  rw [handAll_snd]
  induction numbers generalizing registry with
  | nil => simp
  | cons number rest ih =>
    rw [List.foldl_cons, ih, tickets_hand]
    simp only [List.mem_cons]
    by_cases he : other = number
    · subst he
      simp [Ticket.given_comp_given]
    · simp [he, Ne.symm he]

lemma broadcast_eq (registry : Registry ν) (channel : Option Nat) (delivery : Delivery ν) :
    (registry.broadcast channel delivery).2 =
      { registry with channels := (registry.broadcast channel delivery).2.channels } := by
  cases channel <;> rfl

lemma deliverTo_snd (registry : Registry ν) (entry : Entry) (delivery : Delivery ν) :
    (registry.deliverTo entry delivery).2 =
      ((registry.handAll entry.tickets delivery).2.broadcast entry.channel delivery).2 := rfl

lemma entries_deliverTo (registry : Registry ν) (entry : Entry) (delivery : Delivery ν) :
    (registry.deliverTo entry delivery).2.entries = registry.entries := by
  rw [deliverTo_snd, broadcast_eq]
  exact entries_handAll ..

lemma tickets_deliverTo (registry : Registry ν) (entry : Entry) (number : Nat)
    (delivery : Delivery ν) : (registry.deliverTo entry delivery).2.tickets[number]? =
      if number ∈ entry.tickets then registry.tickets[number]?.map (Ticket.given delivery)
      else registry.tickets[number]? := by
  rw [deliverTo_snd, broadcast_eq]
  exact tickets_handAll ..

lemma deliver_of_none (h : registry.entries.get? hash = none) (delivery : Delivery ν) :
    registry.deliver hash delivery = (none, registry) := by
  rw [deliver, h]

lemma deliver_of_some {entry : Entry} (h : registry.entries.get? hash = some entry)
    (delivery : Delivery ν) : (registry.deliver hash delivery).2 =
      (registry.deliverTo entry delivery).2.putEntry hash { entry with tickets := [] } := by
  rw [deliver, h]

/-- A delivery uses up the tickets of the entry. -/
lemma changes_deliver (registry : Registry ν) (hash : String) (delivery : Delivery ν) :
    registry.Changes hash (Option.map ({ · with tickets := [] }))
      (registry.deliver hash delivery).2 := by
  intro other
  cases hg : registry.entries.get? hash with
  | none =>
    rw [deliver_of_none hg]
    split_ifs with he
    · rw [← he, hg]
      rfl
    · rfl
  | some entry =>
    rw [deliver_of_some hg]
    refine (Table.get?_insert ..).trans ?_
    rw [entries_deliverTo]
    split_ifs with he
    · rw [← he, hg]
      rfl
    · rfl

lemma queue_deliver (registry : Registry ν) (hash other : String) (delivery : Delivery ν) :
    (registry.deliver hash delivery).2.queue other =
      if hash = other then [] else registry.queue other := by
  refine (changes_deliver registry hash delivery).queue (f := fun _ => []) (fun entry => ?_) other
  cases entry <;> rfl

lemma tickets_deliver (registry : Registry ν) (hash : String) (number : Nat)
    (delivery : Delivery ν) : (registry.deliver hash delivery).2.tickets[number]? =
      if number ∈ registry.queue hash then registry.tickets[number]?.map (Ticket.given delivery)
      else registry.tickets[number]? := by
  cases hg : registry.entries.get? hash with
  | none =>
    rw [deliver_of_none hg, queue, entry, hg]
    simp [Entry.empty]
  | some entry =>
    rw [deliver_of_some hg, queue, Registry.entry, hg]
    exact tickets_deliverTo ..

/-! Removing. -/

lemma closeChannel_eq (registry : Registry ν) (channel : Option Nat) :
    registry.closeChannel channel =
      { registry with channels := (registry.closeChannel channel).channels } := by
  cases channel <;> rfl

lemma rejectAndRemove_of_none (h : registry.entries.get? hash = none) (fault : Fault) :
    registry.rejectAndRemove hash fault = (0, registry) := by
  rw [rejectAndRemove, h]

lemma rejectAndRemove_of_some {entry : Entry} (h : registry.entries.get? hash = some entry)
    (fault : Fault) : (registry.rejectAndRemove hash fault).2 =
      ({ registry with entries := registry.entries.erase hash }.deliverTo entry
        (.error fault)).2.closeChannel entry.channel := by
  rw [rejectAndRemove, h]

lemma changes_rejectAndRemove (registry : Registry ν) (hash : String) (fault : Fault) :
    registry.Changes hash (fun _ => none) (registry.rejectAndRemove hash fault).2 := by
  intro other
  cases hg : registry.entries.get? hash with
  | none =>
    rw [rejectAndRemove_of_none hg]
    split_ifs with he
    · rw [← he, hg]
    · rfl
  | some entry =>
    rw [rejectAndRemove_of_some hg, closeChannel_eq]
    dsimp only
    rw [entries_deliverTo]
    exact Table.get?_erase ..

lemma queue_rejectAndRemove (registry : Registry ν) (hash other : String) (fault : Fault) :
    (registry.rejectAndRemove hash fault).2.queue other =
      if hash = other then [] else registry.queue other :=
  (changes_rejectAndRemove registry hash fault).queue (f := fun _ => []) (fun _ => rfl) other

lemma tickets_rejectAndRemove (registry : Registry ν) (hash : String) (number : Nat)
    (fault : Fault) : (registry.rejectAndRemove hash fault).2.tickets[number]? =
      if number ∈ registry.queue hash then registry.tickets[number]?.map (Ticket.given (.error fault))
      else registry.tickets[number]? := by
  cases hg : registry.entries.get? hash with
  | none =>
    rw [rejectAndRemove_of_none hg, queue, entry, hg]
    simp [Entry.empty]
  | some entry =>
    rw [rejectAndRemove_of_some hg, closeChannel_eq, queue, Registry.entry, hg]
    exact tickets_deliverTo ..

/-- Everything is rejected hash by hash. -/
lemma rejectAll_snd (registry : Registry ν) (fault : Fault) :
    (registry.rejectAll fault).2 = registry.entries.keys.foldl
      (fun registry hash => (registry.rejectAndRemove hash fault).2) registry :=
  (List.foldl_hom Prod.snd fun _ _ => rfl).symm

/-- Only an entry that is idle is removed. -/
lemma changes_removeIfIdle (registry : Registry ν) (hash : String) :
    registry.Changes hash (Option.filter fun entry => !entry.isIdle)
      (registry.removeIfIdle hash) := by
  intro other
  rw [removeIfIdle]
  cases hg : registry.entries.get? hash with
  | none =>
    rw [Option.any_none, if_neg (by simp)]
    split_ifs with he
    · rw [← he, hg]
      rfl
    · rfl
  | some entry =>
    rw [Option.any_some]
    cases hi : entry.isIdle with
    | true =>
      rw [if_pos rfl]
      refine (Table.get?_erase ..).trans ?_
      split_ifs with he
      · rw [← he, hg]
        simp [Option.filter, hi]
      · rfl
    | false =>
      rw [if_neg (by simp)]
      split_ifs with he
      · rw [← he, hg]
        simp [Option.filter, hi]
      · rfl

lemma queue_removeIfIdle (registry : Registry ν) (hash other : String) :
    (registry.removeIfIdle hash).queue other = registry.queue other := by
  rw [(changes_removeIfIdle registry hash).queue (f := id) (fun entry => ?_), id, ite_self]
  cases entry with
  | none => rfl
  | some entry =>
    rw [Option.filter_some]
    split_ifs with hi
    · rfl
    · have hidle : entry.tickets = [] := by
        have hparts : entry.channel = none ∧ entry.tickets = [] := by
          simpa [Entry.isIdle] using hi
        exact hparts.2
      exact hidle.symm

lemma tickets_removeIfIdle (registry : Registry ν) (hash : String) :
    (registry.removeIfIdle hash).tickets = registry.tickets := by
  rw [removeIfIdle]
  split <;> rfl

lemma changes_dropChannel (registry : Registry ν) (hash : String) :
    registry.Changes hash (Option.map ({ · with channel := none }))
      (registry.dropChannel hash).2 := by
  intro other
  rw [dropChannel]
  cases hg : registry.entries.get? hash with
  | none =>
    split_ifs with he
    · rw [← he, hg]
      rfl
    · rfl
  | some entry =>
    dsimp only
    rw [closeChannel_eq]
    refine (Table.get?_insert ..).trans ?_
    split_ifs with he
    · rw [← he, hg]
      rfl
    · rfl

lemma queue_dropChannel (registry : Registry ν) (hash other : String) :
    (registry.dropChannel hash).2.queue other = registry.queue other := by
  rw [(changes_dropChannel registry hash).queue (f := id) (fun entry => ?_), id, ite_self]
  cases entry <;> rfl

lemma tickets_dropChannel (registry : Registry ν) (hash : String) :
    (registry.dropChannel hash).2.tickets = registry.tickets := by
  rw [dropChannel]
  cases registry.entries.get? hash with
  | none => rfl
  | some entry =>
    dsimp only
    rw [closeChannel_eq]
    rfl

lemma entries_discard (registry : Registry ν) (waiter : Waiter) :
    (registry.discard waiter).entries = registry.entries := by
  rw [discard]
  split <;> rfl

lemma queue_discard (registry : Registry ν) (waiter : Waiter) (hash : String) :
    (registry.discard waiter).queue hash = registry.queue hash := by
  rw [queue, entry, entries_discard]
  rfl

lemma length_tickets_discard (registry : Registry ν) (waiter : Waiter) :
    (registry.discard waiter).tickets.length = registry.tickets.length := by
  rw [discard]
  split
  · exact List.length_set
  · rfl
  · rfl

/-- A waiter that is dropped leaves the tickets of others alone. -/
lemma tickets_discard {waiter : Waiter} (h : waiter.claim ≠ .ticket (some number)) :
    (registry.discard waiter).tickets[number]? = registry.tickets[number]? := by
  rw [discard]
  split
  · rename_i other hw
    have hne : other ≠ number := fun he => h (he ▸ hw)
    exact List.getElem?_set_ne hne
  · rfl
  · rfl

end Registry

end MarketFeed
