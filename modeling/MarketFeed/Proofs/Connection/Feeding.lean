import MarketFeed.Proofs.Book.Shelf
import MarketFeed.Proofs.Connection.Desk
import MarketFeed.Proofs.Connection.Handlers

/-!
# Books that a connection feeds

A connection answers for the books that its frames have written. It gives them up when it ends,
since nobody knows what they miss from then on. That holds for the frame that ends it as well: what
its handler has written is taken over before anything is made of its fault.
-/

namespace MarketFeed

lemma Circuit.book?_invalidateBooks (books : BookStore) (symbols : List String) (symbol : String) :
    (invalidateBooks books symbols).book? symbol =
      if symbol ∈ symbols then (books.book? symbol).map OrderBook.invalidate
      else books.book? symbol := by
  induction symbols generalizing books with
  | nil => rfl
  | cons first rest ih =>
    change (invalidateBooks (books.invalidate first).2 rest).book? symbol = _
    rw [ih, BookStore.book?_invalidate]
    by_cases hf : first = symbol
    · have hm : symbol ∈ first :: rest := hf ▸ List.mem_cons_self ..
      rw [if_pos hf, Option.map_map]
      exact (ite_self _).trans (if_pos hm).symm
    · have hm : symbol ∈ first :: rest ↔ symbol ∈ rest :=
        List.mem_cons.trans (or_iff_right (Ne.symm hf))
      rw [if_neg hf]
      simp only [hm]

namespace Station

variable {adapter : Adapter} {station : Station} {step : Step} {steps : List Step} {symbol : String}

lemma bookSymbols_deskAfter (adapter : Adapter) (station : Station) (step : Step) :
    (station.deskAfter adapter step).bookSymbols = station.symbolsAfter adapter step := by
  rcases step.eq_unsubscribe_or with ⟨hash, rfl⟩ | hs
  · rfl
  · rw [deskAfter_eq hs]

/-- Until the connection has ended, it answers for every book that a frame may have written. -/
lemma mem_bookSymbols_after (h : (station.after adapter step).connection.state ≠ .closed) :
    symbol ∈ (station.after adapter step).connection.bookSymbols ↔
      symbol ∈ station.connection.bookSymbols ∨ symbol ∈ station.fed adapter step := by
  have hfed : ∀ fed : List String, symbol ∈ (station.desk.feed fed).bookSymbols ↔
      symbol ∈ station.connection.bookSymbols ∨ symbol ∈ fed := fun fed => mem_foldl_insertNew
  change symbol ∈ (station.after adapter step).desk.bookSymbols ↔ _
  rw [desk_after, bookSymbols_deskAfter]
  cases step with
  | finish =>
    -- symbols are forgotten only if the connection ends with this step
    have hopen : station.connection.state ≠ .closing := fun hc => h (by
      rw [connection, circuit_after_finish, if_pos hc]
      rfl)
    rw [symbolsAfter, if_neg hopen]
    exact hfed []
  | _ => exact hfed _

lemma closed_after (hs : station.Sound) (h : station.connection.state = .closed)
    (adapter : Adapter) (step : Step) : (station.after adapter step).connection.state = .closed := by
  rcases moves_after hs adapter step with hsame | hmoves
  · exact hsame.trans h
  · rw [h] at hmoves
    nomatch hmoves

lemma closed_run (hs : station.Sound) (h : station.connection.state = .closed) (adapter : Adapter)
    (steps : List Step) : (station.run adapter steps).connection.state = .closed := by
  induction steps generalizing station with
  | nil => exact h
  | cons step rest ih => exact ih (sound_after hs step) (closed_after hs h adapter step)

lemma mem_bookSymbols_run (hs : station.Sound)
    (h : (station.run adapter steps).connection.state ≠ .closed) :
    symbol ∈ (station.run adapter steps).connection.bookSymbols ↔
      symbol ∈ station.connection.bookSymbols ∨ symbol ∈ station.fedAll adapter steps := by
  induction steps generalizing station with
  | nil => exact (or_iff_left List.not_mem_nil).symm
  | cons step rest ih =>
    have hlive : (station.after adapter step).connection.state ≠ .closed :=
      fun hc => h (closed_run (sound_after hs step) hc adapter rest)
    change symbol ∈ ((station.after adapter step).run adapter rest).connection.bookSymbols ↔ _
    rw [ih (sound_after hs step) h, mem_bookSymbols_after hlive, fedAll, List.mem_append, or_assoc]

lemma mem_fedAll {early late : List Step}
    (h : symbol ∈ (station.run adapter early).fed adapter step) :
    symbol ∈ station.fedAll adapter (early ++ step :: late) := by
  induction early generalizing station with
  | nil => exact List.mem_append_left _ h
  | cons first rest ih => exact List.mem_append_right _ (ih h)

end Station

/-! No frame changes a book that it does not name. -/

/-- The handlers write to books by way of the connection only. -/
def Adapter.TiesBooks (adapter : Adapter) : Prop :=
  ∀ kind handler, adapter.handlers.get? kind = some handler →
    ∀ frame, Handling.Ties (handler frame)

namespace Circuit

lemma store_conclude (circuit : Circuit) (dispatch : Dispatch) (result : Except Stop Unit) :
    (circuit.conclude dispatch result).2.store = dispatch.store := by
  unfold conclude
  cases result with
  | ok => rfl
  | error stop =>
    cases stop with
    | overflow => rfl
    | fault fault =>
      dsimp only
      split <;> rfl

lemma store_applyFrameError (circuit : Circuit) (error : FrameError) :
    (circuit.applyFrameError error).2.store = circuit.store := by
  unfold applyFrameError
  cases error.scope <;> rfl

/-- A handler that has not overflowed has named the books that it has changed. -/
lemma book?_conclude {circuit : Circuit} {dispatch : Dispatch} {result : Except Stop Unit}
    {symbol : String} (ht : (Dispatch.new circuit.connection.url circuit.store).Ties dispatch)
    (hd : (circuit.conclude dispatch result).2.connection.isDeaf = false)
    (hn : symbol ∉ dispatch.fed result) :
    (circuit.conclude dispatch result).2.store.books.book? symbol =
      circuit.store.books.book? symbol := by
  have hunnamed : symbol ∉ dispatch.books := by
    cases result with
    | ok => exact hn
    | error stop =>
      cases stop with
      | fault => exact hn
      -- a handler that overflows leaves nobody who listens
      | overflow => exact absurd (show true = false from hd) (by simp)
  rw [store_conclude]
  exact ht.others symbol hunnamed

lemma book?_dispatch {adapter : Adapter} (ht : adapter.TiesBooks) {circuit : Circuit} {now : Int}
    {frame : Json} {symbol : String}
    (hd : (circuit.dispatch adapter now frame).2.connection.isDeaf = false)
    (hn : symbol ∉ circuit.fedBy adapter frame) :
    (circuit.dispatch adapter now frame).2.store.books.book? symbol =
      circuit.store.books.book? symbol := by
  unfold dispatch at hd ⊢
  cases hpong : adapter.isPong frame with
  | true => rfl
  | false =>
    rw [hpong, if_neg (by simp)] at hd
    rw [if_neg (by simp)]
    cases hclass : adapter.classify frame with
    | some error => exact congrArg (·.books.book? symbol) (circuit.store_applyFrameError error)
    | none =>
      rw [fedBy, handled_of_kind hpong hclass] at hn
      rw [hclass] at hd
      dsimp only at hd ⊢
      cases hhandler : (adapter.streamKind frame).bind adapter.handlers.get? with
      | none => rfl
      | some handler =>
        rw [hhandler] at hd hn
        obtain ⟨kind, -, hget⟩ := Option.bind_eq_some_iff.mp hhandler
        exact book?_conclude (ht kind handler hget frame _) hd hn

lemma beginTeardown_frame (circuit : Circuit) (fault : Fault) :
    (circuit.beginTeardown fault).2.store = circuit.store ∧
      (circuit.beginTeardown fault).2.connection.isDeaf = circuit.connection.isDeaf := by
  unfold beginTeardown
  split <;> exact ⟨rfl, rfl⟩

end Circuit

namespace Station

variable {adapter : Adapter} {station : Station} {step : Step} {steps : List Step} {symbol : String}
  {frame : Json}

lemma frame_after (adapter : Adapter) (station : Station) (step : Step) :
    (station.after adapter step).circuit.store = (station.work adapter step).2.circuit.store ∧
      (station.after adapter step).connection.isDeaf =
        (station.work adapter step).2.connection.isDeaf := by
  unfold after
  cases station.work adapter step with
  | mk fault worked =>
    cases fault with
    | none => exact ⟨rfl, rfl⟩
    | some fault => exact worked.circuit.beginTeardown_frame fault

lemma book?_after_of_frame (ht : adapter.TiesBooks) (hf : step.frame? = some frame)
    (hd : (station.after adapter step).connection.isDeaf = false)
    (hn : symbol ∉ station.fed adapter step) :
    (station.after adapter step).circuit.store.books.book? symbol =
      station.circuit.store.books.book? symbol := by
  obtain ⟨now, size, hwork⟩ := work_of_frame adapter station hf
  obtain ⟨hstore, hdeaf⟩ := frame_after adapter station step
  rw [hdeaf, hwork] at hd
  rw [hstore, hwork]
  rw [fed, hf] at hn
  exact Circuit.book?_dispatch ht hd hn

/-- When a connection ends, whatever it has been closed for, the books that its frames have named
are given up, and no others. From then on a book that was given up refuses every batch and keeps its
levels, whoever writes to the store, until a snapshot comes or another book takes its place. If the
handlers write to books by way of the connection only, the frames have named every book that they
have changed. -/
theorem books_given_up_with_connection (adapter : Adapter) (url : String)
    (settings : ConnectionSettings) (records : List SubscriptionRecord) (store : FeedStore)
    (steps : List Step) :
    let start := new url settings records store
    let reached := start.run adapter steps
    let ended := reached.after adapter .finish
    let books := ended.circuit.store.books
    reached.connection.state = .closing →
    ended.connection.state = .closed ∧
    (∀ symbol, books.book? symbol =
      if symbol ∈ start.fedAll adapter steps
        then (reached.circuit.store.books.book? symbol).map OrderBook.invalidate
        else reached.circuit.store.books.book? symbol) ∧
    (∀ symbol ∈ start.fedAll adapter steps, ∀ lost, books.book? symbol = some lost →
      lost.needsResync = true ∧ lost.buffered = [] ∧
      ∀ operations : List (String × BookStore.Operation),
        (∀ entry ∈ operations, entry.1 = symbol → entry.2.endsBook = false) →
        (books.run operations).Refuses symbol lost) ∧
    (adapter.TiesBooks → ∀ early step late, steps = early ++ step :: late →
      step.frame?.isSome = true →
      let earlier := start.run adapter early
      let later := earlier.after adapter step
      later.connection.isDeaf = false → ∀ symbol,
      later.circuit.store.books.book? symbol ≠ earlier.circuit.store.books.book? symbol →
      symbol ∈ start.fedAll adapter steps) := by
  intro start reached ended books hclosing
  have hcircuit : ended.circuit = reached.circuit.finishClosing reached.connection.closeReason := by
    rw [circuit_after_finish, if_pos hclosing]
  have hbooks : ∀ symbol, books.book? symbol =
      if symbol ∈ start.fedAll adapter steps
        then (reached.circuit.store.books.book? symbol).map OrderBook.invalidate
        else reached.circuit.store.books.book? symbol := by
    intro symbol
    have hfed : symbol ∈ reached.connection.bookSymbols ↔ symbol ∈ start.fedAll adapter steps := by
      have hopen : reached.connection.state ≠ .closed := by simp [hclosing]
      rw [mem_bookSymbols_run (sound_new url settings records store) hopen]
      exact or_iff_right List.not_mem_nil
    have hgiven : books = Circuit.invalidateBooks reached.circuit.store.books
        reached.connection.bookSymbols := congrArg (·.store.books) hcircuit
    rw [hgiven, Circuit.book?_invalidateBooks]
    simp only [hfed]
  refine ⟨congrArg (·.connection.state) hcircuit, hbooks, fun symbol hm lost hlost => ?_, ?_⟩
  · obtain ⟨book, -, rfl⟩ : ∃ book, reached.circuit.store.books.book? symbol = some book ∧
        book.invalidate = lost := by
      rw [hbooks, if_pos hm] at hlost
      exact Option.map_eq_some_iff.mp hlost
    exact ⟨rfl, rfl, fun operations hs => BookStore.refuses_run hlost rfl rfl hs⟩
  · rintro hties early step late rfl hframe earlier later hdeaf symbol hchanged
    obtain ⟨frame, hframe⟩ := Option.isSome_iff_exists.mp hframe
    by_contra hn
    exact hchanged (book?_after_of_frame hties hframe hdeaf fun hm => hn (mem_fedAll hm))

/-- A frame is a snapshot of one book, or a batch for another one that ends the connection. -/
def bookActions : Json → List Action
  | .null => [.snapshot "BTC/USDT" [] [] (some 5)]
  | _ => [.batch "ETH/USDT" ⟨none, some 1, none, []⟩, .fail (.connectionClosed "gone")]

def bookAdapter : Adapter :=
  { Adapter.plain with
    streamKind := fun _ => some .orderBook
    handlers := Table.empty.insert .orderBook fun frame => (bookActions frame).forM Action.run }

lemma tiesBooks_bookAdapter : bookAdapter.TiesBooks := by
  intro kind handler hget frame
  have hinserted : (if StreamKind.orderBook = kind then
      some fun frame => (bookActions frame).forM Action.run else none) = some handler :=
    (Table.get?_insert ..).symm.trans hget
  split at hinserted
  · rw [← Option.some.inj hinserted]
    exact Handling.Ties.forM Action.ties_run _
  · exact absurd hinserted (by simp)

def endingFrames : List Step := [.opened 0, .text 0 "null", .text 1 "true"]

def endingFeed : Station := new "ws://feed" .standard [] (.new .standard .strict)

/-- The book of the frame that ends the connection is given up as well, with the batch that was held
back. A snapshot that brings it back is of no use to the other one. -/
theorem last_frame_gives_up_books :
    let reached := endingFeed.run bookAdapter endingFrames
    let ended := reached.after bookAdapter .finish
    let later := ended.circuit.store.books.run
      [("ETH/USDT", .snapshot [] [] (some 7)), ("BTC/USDT", .batch ⟨none, some 6, none, []⟩)]
    reached.connection.state = .closing ∧ ended.connection.state = .closed ∧
    endingFeed.fedAll bookAdapter endingFrames = ["BTC/USDT", "ETH/USDT"] ∧
    (∃ lost, ended.circuit.store.books.book? "ETH/USDT" = some lost ∧
      lost.needsResync = true ∧ lost.buffered = []) ∧
    ∀ batch, later.applyBatch "BTC/USDT" batch =
      (.error (.outOfSync ⟨"BTC/USDT", .awaitingSnapshot⟩), later) := by
  intro reached ended later
  have hclosing : (endingFeed.run bookAdapter endingFrames).connection.state = .closing := rfl
  have hfed : endingFeed.fedAll bookAdapter endingFrames = ["BTC/USDT", "ETH/USDT"] := rfl
  have hlast : "ETH/USDT" ∈ endingFeed.fedAll bookAdapter endingFrames := hfed ▸ by simp
  have hsymbols : ∀ symbol ∈ ["BTC/USDT", "ETH/USDT"],
      ((endingFeed.run bookAdapter endingFrames).circuit.store.books.book? symbol).map
        OrderBook.symbol = some symbol := by
    decide +kernel
  obtain ⟨hclosed, hbooks, hgiven, hnames⟩ := books_given_up_with_connection bookAdapter "ws://feed"
    .standard [] (.new .standard .strict) endingFrames hclosing
  have hfirst : "BTC/USDT" ∈ endingFeed.fedAll bookAdapter endingFrames := by
    apply hnames tiesBooks_bookAdapter [.opened 0] (.text 0 "null") [.text 1 "true"] rfl rfl rfl
    exact fun hsame => absurd (congrArg Option.isSome hsame) (by decide +kernel)
  have hlost : ∀ symbol ∈ ["BTC/USDT", "ETH/USDT"], ∃ lost : OrderBook,
      ended.circuit.store.books.book? symbol = some lost ∧ lost.symbol = symbol := by
    intro symbol hm
    obtain ⟨book, hbook, hsymbol⟩ := Option.map_eq_some_iff.mp (hsymbols symbol hm)
    have hnamed : symbol ∈ endingFeed.fedAll bookAdapter endingFrames := hfed ▸ hm
    have hgone := (hbooks symbol).trans (if_pos hnamed)
    exact ⟨book.invalidate, hgone.trans (congrArg (Option.map _) hbook), hsymbol⟩
  obtain ⟨btc, hbtc, hsymbol⟩ := hlost "BTC/USDT" (by simp)
  obtain ⟨eth, heth, -⟩ := hlost "ETH/USDT" (by simp)
  obtain ⟨hresync, hbuffered, -⟩ := hgiven "ETH/USDT" hlast eth heth
  obtain ⟨-, -, hrefuses⟩ := hgiven "BTC/USDT" hfirst btc hbtc
  have hrefused := (hrefuses [("ETH/USDT", .snapshot [] [] (some 7)),
    ("BTC/USDT", .batch ⟨none, some 6, none, []⟩)] (by decide)).batch
  rw [OrderBook.syncFault, hsymbol] at hrefused
  exact ⟨hclosing, hclosed, hfed, ⟨eth, heth, hresync, hbuffered⟩, hrefused⟩

end Station

end MarketFeed
