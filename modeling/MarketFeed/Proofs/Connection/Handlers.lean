import MarketFeed.Connection.Action
import MarketFeed.Proofs.Book.Shelf
import MarketFeed.Proofs.Decimal.Attempt

/-!
# What handlers write

A handler writes to a book by way of its connection, which answers for the book from then on. It may
do much else, but it changes no book past the connection, and takes none back that it has named.
-/

namespace MarketFeed

/-- The books that a handler has named are still named later on, and no other book has changed. -/
structure Dispatch.Ties (before after : Dispatch) : Prop where
  named : before.books ⊆ after.books
  others : ∀ symbol ∉ after.books,
    after.store.books.book? symbol = before.store.books.book? symbol

namespace Dispatch

variable {before middle after : Dispatch}

lemma Ties.of_eq (hb : after.books = before.books)
    (hs : after.store.books = before.store.books) : before.Ties after :=
  ⟨fun _ hm => hb ▸ hm, fun _ _ => hs ▸ rfl⟩

lemma Ties.trans (h : before.Ties middle) (h' : middle.Ties after) : before.Ties after :=
  ⟨fun _ hm => h'.named (h.named hm), fun symbol hn =>
    (h'.others symbol hn).trans (h.others symbol fun hm => hn (h'.named hm))⟩

lemma ties_addAffected (dispatch : Dispatch) (hash : String) :
    dispatch.Ties (dispatch.addAffected hash) := by
  unfold addAffected
  split <;> exact .of_eq rfl rfl

lemma ties_queue (dispatch : Dispatch) (hash : String) (delivery : Delivery Update) :
    dispatch.Ties (dispatch.queue hash delivery) :=
  (dispatch.ties_addAffected hash).trans (.of_eq rfl rfl)

lemma mem_books_addBook {dispatch : Dispatch} {symbol other : String} :
    other ∈ (dispatch.addBook symbol).books ↔ other ∈ dispatch.books ∨ other = symbol := by
  unfold addBook
  split
  · rename_i hm
    have hm : symbol ∈ dispatch.books := List.contains_iff_mem.mp hm
    exact ⟨.inl, fun h => h.elim id fun he => he ▸ hm⟩
  · exact List.mem_append.trans (or_congr_right List.mem_singleton)

lemma store_addBook (dispatch : Dispatch) (symbol : String) :
    (dispatch.addBook symbol).store = dispatch.store := by
  unfold addBook
  split <;> rfl

end Dispatch

namespace Handling

variable {α β : Type}

/-- What a part of a handler gives, and what it leaves. -/
def runOn (handling : Handling α) (dispatch : Dispatch) : Except Stop α × Dispatch :=
  StateT.run (ExceptT.run handling) dispatch

@[simp] lemma runOn_get (dispatch : Dispatch) : runOn get dispatch = (.ok dispatch, dispatch) := rfl

@[simp] lemma runOn_modify (f : Dispatch → Dispatch) (dispatch : Dispatch) :
    runOn (modify f) dispatch = (.ok (), f dispatch) := rfl

lemma runOn_bind (first : Handling α) (next : α → Handling β) (dispatch : Dispatch) :
    runOn (first >>= next) dispatch =
      match first.runOn dispatch with
      | (.ok a, after) => (next a).runOn after
      | (.error stop, after) => (.error stop, after) := by
  rw [runOn, ExceptT.run_bind, StateT.run_bind]
  change _ = match StateT.run (ExceptT.run first) dispatch with
    | (.ok a, after) => (next a).runOn after
    | (.error stop, after) => (.error stop, after)
  rcases StateT.run (ExceptT.run first) dispatch with ⟨stop | a, after⟩ <;> rfl

lemma runOn_onStore (change : Attempt FeedStore α) (dispatch : Dispatch) :
    ((onStore change).runOn dispatch).2 =
      { dispatch with store := (change.runOn dispatch.store).2 } := by
  rw [onStore, runOn_bind, runOn_get]
  dsimp only
  rw [runOn_bind, runOn_modify]
  rcases change.runOn dispatch.store with ⟨overflow | a, store⟩ <;> rfl

lemma runOn_onBooks (symbol : String) (change : BookStore → Except Fault α × BookStore)
    (dispatch : Dispatch) : ((onBooks symbol change).runOn dispatch).2 =
      { dispatch.addBook symbol with
        store := { dispatch.store with books := (change dispatch.store.books).2 } } := by
  rw [onBooks, runOn_bind, runOn_modify]
  dsimp only
  rw [runOn_bind, runOn_get]
  dsimp only
  rw [runOn_bind, runOn_modify, Dispatch.store_addBook]
  rcases change dispatch.store.books with ⟨fault | a, books⟩ <;> rfl

/-! What every part of a handler does, the whole of it does. -/

lemma bind_of_trans (R : Dispatch → Dispatch → Prop) {first : Handling α}
    {next : α → Handling β}
    (ht : ∀ {before middle after}, R before middle → R middle after → R before after)
    (hf : ∀ dispatch, R dispatch (first.runOn dispatch).2)
    (hn : ∀ a dispatch, R dispatch ((next a).runOn dispatch).2) (dispatch : Dispatch) :
    R dispatch ((first >>= next).runOn dispatch).2 := by
  have h := hf dispatch
  rw [runOn_bind]
  rcases hr : first.runOn dispatch with ⟨stop | a, after⟩
  · rw [hr] at h
    exact h
  · rw [hr] at h
    exact ht h (hn a after)

lemma forM_of_trans (R : Dispatch → Dispatch → Prop) {f : α → Handling Unit}
    (ht : ∀ {before middle after}, R before middle → R middle after → R before after)
    (hp : ∀ a : Unit, ∀ dispatch, R dispatch ((pure a : Handling Unit).runOn dispatch).2)
    (h : ∀ a dispatch, R dispatch ((f a).runOn dispatch).2) (as : List α) (dispatch : Dispatch) :
    R dispatch ((as.forM f).runOn dispatch).2 := by
  induction as generalizing dispatch with
  | nil => exact hp () dispatch
  | cons a rest ih => exact bind_of_trans R ht (h a) (fun _ => ih) dispatch

/-- Whatever a part of a handler comes to, the connection knows of the books that it has changed. -/
def Ties (handling : Handling α) : Prop :=
  ∀ dispatch : Dispatch, dispatch.Ties (handling.runOn dispatch).2

lemma ties_pure (a : α) : Ties (pure a : Handling α) := fun _ => .of_eq rfl rfl

lemma ties_get : Ties get := fun _ => .of_eq rfl rfl

lemma ties_throw (stop : Stop) : Ties (throw stop : Handling α) := fun _ => .of_eq rfl rfl

lemma ties_modify {f : Dispatch → Dispatch}
    (h : ∀ dispatch : Dispatch, dispatch.Ties (f dispatch)) : Ties (modify f) := h

lemma Ties.bind {first : Handling α} {next : α → Handling β} (hf : Ties first)
    (hn : ∀ a, Ties (next a)) : Ties (first >>= next) :=
  bind_of_trans Dispatch.Ties Dispatch.Ties.trans hf hn

lemma Ties.forM {f : α → Handling Unit} (h : ∀ a, Ties (f a)) (as : List α) : Ties (as.forM f) :=
  forM_of_trans Dispatch.Ties Dispatch.Ties.trans ties_pure h as

lemma ties_onStore {change : Attempt FeedStore α} (h : Attempt.Keeps FeedStore.books change) :
    Ties (onStore change) := by
  intro dispatch
  rw [runOn_onStore]
  exact .of_eq rfl (h dispatch.store)

lemma ties_onBooks {symbol : String} {change : BookStore → Except Fault α × BookStore}
    (h : ∀ books other, symbol ≠ other → (change books).2.book? other = books.book? other) :
    Ties (onBooks symbol change) := by
  intro dispatch
  rw [runOn_onBooks]
  refine ⟨fun other hm => Dispatch.mem_books_addBook.mpr (.inl hm), fun other hn => ?_⟩
  have hother : symbol ≠ other := fun he => hn (Dispatch.mem_books_addBook.mpr (.inr he.symm))
  exact h dispatch.store.books other hother

end Handling

namespace FeedStore

/-! What concerns one's own orders and trades leaves the books alone. -/

lemma keeps_books_upsertOrder (order : Order) : Attempt.Keeps books (upsertOrder order) := by
  refine Attempt.keeps_get.bind fun store => ?_
  apply Attempt.keeps_onPart
  intro orders store
  rfl

lemma keeps_books_applyFill (fill : Trade) : Attempt.Keeps books (applyFill fill) := by
  refine Attempt.keeps_get.bind fun store => Attempt.Keeps.bind ?_ fun _ => ?_
  · apply Attempt.keeps_onPart
    intro ownTrades store
    rfl
  · refine Attempt.keeps_get.bind fun store => ?_
    apply Attempt.keeps_onPart
    intro orders store
    rfl

end FeedStore

namespace Action

open Handling

lemma ties_send (hash : String) (read : FeedStore → Update) : Ties (send hash read) :=
  ties_get.bind fun _ => ties_modify fun dispatch => dispatch.ties_queue hash _

/-- Whatever an action does, the connection knows of the books that it has changed. -/
lemma ties_run (action : Action) : Ties action.run := by
  cases action with
  | affects hash => exact ties_modify fun dispatch => dispatch.ties_addAffected hash
  | resolve hash message => exact ties_modify fun dispatch => dispatch.ties_queue hash _
  | reject hash fault => exact ties_modify fun dispatch => dispatch.ties_queue hash _
  | fail fault => exact ties_throw _
  | snapshot symbol bids asks sequence =>
    have hbooks := ties_onBooks fun books other (hn : symbol ≠ other) =>
      BookStore.book?_onBook_of_ne hn (·.applySnapshot bids asks sequence)
    exact hbooks.bind fun _ => ties_pure _
  | batch symbol changes =>
    have hbooks := ties_onBooks fun books other (hn : symbol ≠ other) =>
      BookStore.book?_onBook_of_ne hn (·.applyBatch changes)
    exact hbooks.bind fun _ => ties_pure _
  | addTrades symbol trades =>
    have hkept : ∀ store : FeedStore, (store.appendTrades symbol trades).books = store.books :=
      fun _ => rfl
    rw [run]
    exact ties_onStore (Attempt.keeps_modify hkept)
  | addCandle symbol timeframe candle =>
    have hkept : ∀ store : FeedStore,
        (store.appendCandle symbol timeframe candle).books = store.books := fun _ => rfl
    rw [run]
    exact ties_onStore (Attempt.keeps_modify hkept)
  | addOrder order =>
    rw [run]
    exact (ties_onStore (FeedStore.keeps_books_upsertOrder order)).bind fun _ => ties_pure _
  | addFill fill =>
    rw [run]
    refine (ties_onStore (FeedStore.keeps_books_applyFill fill)).bind fun result => ?_
    cases result with
    | ok => exact ties_pure _
    | error => exact ties_throw _
  | sendBook symbol depth hash =>
    refine ties_get.bind fun dispatch => ?_
    cases dispatch.store.book? symbol depth with
    | none => exact ties_pure _
    | some book => exact ties_modify fun dispatch => dispatch.ties_queue hash _
  | sendTrades symbol limit hash =>
    rw [run]
    exact ties_send hash _
  | sendCandles symbol timeframe limit hash =>
    rw [run]
    exact ties_send hash _
  | sendOrders symbol limit hash =>
    rw [run]
    exact ties_send hash _
  | sendOwnTrades symbol limit hash =>
    rw [run]
    exact ties_send hash _

end Action

end MarketFeed
