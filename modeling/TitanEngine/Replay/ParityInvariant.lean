import TitanEngine.Replay.Budget
import TitanEngine.Replay.Following
import TitanEngine.Spec.Market

/-!
# The parity invariant

The feed's book of each locate follows the ledger of its symbol. The ids an instrument knows are
references that were introduced and synthetic ids that were handed out, which is why a new
reference and the next synthetic id are never refused.
-/

namespace Titan

open Library Std

/-- What the invariant remembers of the messages. -/
structure History where
  /-- Locates registered, with their symbols. -/
  registrations : List (StockLocate × Symbol)
  /-- References introduced. -/
  introduced : List OrderRefNumber
  /-- References executed. -/
  executed : List OrderRefNumber

namespace History

/-- One message more. -/
def extend (history : History) (message : ItchMessage) : History where
  registrations := history.registrations ++ message.registration.toList
  introduced := history.introduced ++ message.introduction.toList
  executed := history.executed ++ message.execution.toList

/-- An id that an instrument may know: a reference or a synthetic id handed out. -/
def Knows (history : History) (nextSyntheticId id : OrderId) : Prop :=
  (id < firstSyntheticId ∧ id ∈ history.introduced) ∨
    (firstSyntheticId ≤ id ∧ id < nextSyntheticId)

/-- A new reference makes no id unknown. -/
theorem Knows.introduce {history : History} {nextSyntheticId id : OrderId}
    (knows : history.Knows nextSyntheticId id) (ref : OrderRefNumber) :
    ({ history with introduced := history.introduced ++ [ref] } : History).Knows
      nextSyntheticId id := by
  rcases knows with ⟨small, inside⟩ | synthetic
  · exact .inl ⟨small, List.mem_append_left _ inside⟩
  · exact .inr synthetic

end History

namespace ItchEngineAdapter

/-- A reference that was mapped has the id it was mapped to. -/
theorem engineIdFor_insert_self (adapter : ItchEngineAdapter) (ref : OrderRefNumber)
    (id : OrderId) (registry : InstrumentRegistry) :
    ({ adapter with
      registry := registry
      engineIdForRef := adapter.engineIdForRef.insert ref id } :
      ItchEngineAdapter).engineIdFor ref = id :=
  ExtTreeMap.getD_insert_self

/-- Mapping a reference maps no other. -/
theorem engineIdFor_insert_of_ne (adapter : ItchEngineAdapter) {ref other : OrderRefNumber}
    (apart : ref ≠ other) (id : OrderId) (registry : InstrumentRegistry) :
    ({ adapter with
      registry := registry
      engineIdForRef := adapter.engineIdForRef.insert ref id } :
      ItchEngineAdapter).engineIdFor other = adapter.engineIdFor other := by
  show (adapter.engineIdForRef.insert ref id).getD other other = adapter.engineIdForRef.getD _ _
  rw [ExtTreeMap.getD_insert, if_neg (by simpa using apart)]

end ItchEngineAdapter

/-- The history of a session. -/
def Session.history (session : Session) : History where
  registrations := session.registrations
  introduced := session.introduced
  executed := session.executed

/-- A step extends the history by its message. -/
theorem Session.history_step (session : Session) (message : ItchMessage) :
    (session.step message).2.history = session.history.extend message := by
  have one : ∀ {β : Type} (part : ItchMessage → Option β),
      [message].filterMap part = (part message).toList := by
    intro β part
    cases answer : part message <;> simp [answer]
  simp [Session.history, Session.step, registrations, introduced, executed, History.extend,
    List.filterMap_append, one]

/-- The book of a locate follows the ledger of a symbol. -/
def SymbolBook.FollowsSymbol (ids : OrderRefNumber → OrderId) (market : Market) (book : SymbolBook)
    (symbol : Symbol) : Prop :=
  book.symbol = symbol ∧
    ∃ listing, market.listings symbol = some listing ∧ book.Follows ids listing.ledger

/-- The feed's books follow the engine's ledgers. -/
structure InParity (history : History) (builder : ItchBookBuilder) (adapter : ItchEngineAdapter)
    (market : Market) : Prop where
  /-- The engine keeps the market. -/
  mirrors : adapter.registry.Mirrors market
  /-- Both know the same locates, and each book follows the ledger of its symbol. -/
  books : ∀ locate : StockLocate,
    Option.Rel (SymbolBook.FollowsSymbol adapter.engineIdFor market)
      builder.books[locate]? adapter.symbols[locate]?
  /-- Every listed symbol belongs to a locate. -/
  owned : ∀ symbol listing, market.listings symbol = some listing →
    ∃ locate : StockLocate, adapter.symbols[locate]? = some symbol
  /-- A symbol belongs to one locate. -/
  single : ∀ (left right : StockLocate) symbol, adapter.symbols[left]? = some symbol →
    adapter.symbols[right]? = some symbol → left = right
  /-- What is registered was. -/
  registered : ∀ (locate : StockLocate) symbol, adapter.symbols[locate]? = some symbol →
    (locate, symbol) ∈ history.registrations
  /-- The references keep their budget. -/
  budget : Budgeted history.introduced history.executed builder
  /-- Every id that an instrument knows was introduced or handed out. -/
  known : ∀ symbol listing, market.listings symbol = some listing →
    ∀ id ∈ listing.ledger.known, history.Knows adapter.nextSyntheticId id
  /-- A synthetic id was handed out for each execution at most. -/
  handedOut : firstSyntheticId.toNat ≤ adapter.nextSyntheticId.toNat ∧
    adapter.nextSyntheticId.toNat ≤ firstSyntheticId.toNat + history.executed.length

namespace InParity

variable {history : History} {builder : ItchBookBuilder} {adapter : ItchEngineAdapter}
  {market : Market}

/-- A locate without a book has no symbol. -/
theorem unregistered (parity : InParity history builder adapter market) {locate : StockLocate}
    (absent : builder.books[locate]? = none) : adapter.symbols[locate]? = none := by
  have related := parity.books locate
  rw [absent] at related
  generalize adapter.symbols[locate]? = entry at related
  cases related
  rfl

/-- The book of a locate follows the ledger of its symbol. -/
theorem book (parity : InParity history builder adapter market) {locate : StockLocate}
    {book : SymbolBook} (found : builder.books[locate]? = some book) :
    adapter.symbols[locate]? = some book.symbol ∧
      ∃ listing, market.listings book.symbol = some listing ∧ listing.ledger.Consistent ∧
        book.Follows adapter.engineIdFor listing.ledger := by
  have related := parity.books locate
  rw [found] at related
  generalize adapter.symbols[locate]? = entry at related
  cases related with
  | some kept =>
    obtain ⟨rfl, listing, listed, follows⟩ := kept
    obtain ⟨instrument, _, keeps⟩ := parity.mirrors.instrument listed
    exact ⟨rfl, listing, listed, keeps.manager.consistent, follows⟩

/-- A symbol of a locate has a book. -/
theorem symbol (parity : InParity history builder adapter market) {locate : StockLocate}
    {symbol : Symbol} (registered : adapter.symbols[locate]? = some symbol) :
    ∃ book, builder.books[locate]? = some book ∧ book.symbol = symbol := by
  cases found : builder.books[locate]? with
  | none => rw [parity.unregistered found] at registered; nomatch registered
  | some book =>
    rw [(parity.book found).1, Option.some.injEq] at registered
    exact ⟨book, rfl, registered⟩

/-- One book and the ledger of its symbol move together; all others stay. -/
theorem advance (parity : InParity history builder adapter market) {locate : StockLocate}
    {book later : SymbolBook} {listing : Listing} (found : builder.books[locate]? = some book)
    (listed : market.listings book.symbol = some listing) {extended : History}
    (moved : ItchEngineAdapter) (request : ManagerCall) (symbols : moved.symbols = adapter.symbols)
    (mirrors : moved.registry.Mirrors (market.call book.symbol request).2)
    (renamed : later.symbol = book.symbol)
    (follows : later.Follows moved.engineIdFor (callLedger listing.ledger request).2)
    (names : ∀ ref ∈ history.introduced, moved.engineIdFor ref = adapter.engineIdFor ref)
    (registrations : extended.registrations = history.registrations)
    (budget : Budgeted extended.introduced extended.executed
      { builder with books := builder.books.insert locate later })
    (remembers : ∀ id, history.Knows adapter.nextSyntheticId id →
      extended.Knows moved.nextSyntheticId id)
    (known : ∀ id ∈ (callLedger listing.ledger request).2.known,
      id ∈ listing.ledger.known ∨ extended.Knows moved.nextSyntheticId id)
    (handedOut : firstSyntheticId.toNat ≤ moved.nextSyntheticId.toNat ∧
      moved.nextSyntheticId.toNat ≤ firstSyntheticId.toNat + extended.executed.length) :
    InParity extended { builder with books := builder.books.insert locate later } moved
      (market.call book.symbol request).2 := by
  have registered := (parity.book found).1
  have listings := (Market.call_listed listed request).2
  have own : (market.call book.symbol request).2.listings book.symbol =
      some { listing with ledger := (callLedger listing.ledger request).2 } := by
    rw [listings, Function.update_self]
  have others : ∀ symbol, symbol ≠ book.symbol →
      (market.call book.symbol request).2.listings symbol = market.listings symbol := by
    intro symbol other
    rw [listings, Function.update_of_ne other]
  constructor
  · exact mirrors
  · intro other
    show Option.Rel _ (builder.books.insert locate later)[other]? moved.symbols[other]?
    rw [symbols, ExtTreeMap.getElem?_insert]
    by_cases same : locate = other
    · subst same
      rw [if_pos ReflCmp.compare_self, registered]
      exact .some ⟨renamed, _, own, follows⟩
    · rw [if_neg (by simpa using same)]
      cases entry : builder.books[other]? with
      | none =>
        rw [parity.unregistered entry]
        exact .none
      | some old =>
        obtain ⟨named, kept, present, _, before⟩ := parity.book entry
        have apart : old.symbol ≠ book.symbol := by
          intro equal
          rw [equal] at named
          exact same (parity.single locate other book.symbol registered named)
        have unchanged := before.congr moved.engineIdFor (fun ref member =>
          names ref (parity.budget.introduced_of_mem entry ref member))
        rw [named]
        exact .some ⟨rfl, kept, by rw [others _ apart]; exact present, unchanged⟩
  · intro symbol entry present
    rw [symbols]
    by_cases same : symbol = book.symbol
    · exact ⟨locate, by rw [same]; exact registered⟩
    · rw [others symbol same] at present
      exact parity.owned symbol entry present
  · rw [symbols]
    exact parity.single
  · rw [symbols, registrations]
    exact parity.registered
  · exact budget
  · intro symbol entry present id member
    by_cases same : symbol = book.symbol
    · rw [same, own, Option.some.injEq] at present
      subst present
      rcases known id member with old | new
      · exact remembers id (parity.known book.symbol listing listed id old)
      · exact new
    · rw [others symbol same] at present
      exact remembers id (parity.known symbol entry present id member)
  · exact handedOut

/-- Nothing was applied yet. -/
theorem init (allocator : SlabAllocator) (backend : MatcherBackend) :
    InParity { registrations := [], introduced := [], executed := [] } ItchBookBuilder.init
      (ItchEngineAdapter.init (InstrumentRegistry.init allocator backend)) Market.empty where
  mirrors := InstrumentRegistry.mirrors_init allocator backend
  books locate := by
    simp only [ItchBookBuilder.init, ItchEngineAdapter.init, ExtTreeMap.getElem?_empty]
    exact .none
  owned symbol listing listed := nomatch listed
  single left right symbol registered := by simp [ItchEngineAdapter.init] at registered
  registered locate symbol registered := by simp [ItchEngineAdapter.init] at registered
  budget := Budgeted.init
  known symbol listing listed := nomatch listed
  handedOut := ⟨Nat.le_refl _, Nat.le_refl _⟩

/-- The end of messages drops everything. -/
theorem reset (parity : InParity history builder adapter market) :
    InParity history builder.reset adapter.reset Market.empty where
  mirrors := InstrumentRegistry.Mirrors.reset adapter.registry
  books locate := by
    simp only [ItchBookBuilder.reset, ItchEngineAdapter.reset, ExtTreeMap.getElem?_empty]
    exact .none
  owned symbol listing listed := nomatch listed
  single left right symbol registered := by simp [ItchEngineAdapter.reset] at registered
  registered locate symbol registered := by simp [ItchEngineAdapter.reset] at registered
  budget := parity.budget.shrink (by
    intro locate ref left found
    simp [ItchBookBuilder.liveOrder, ItchBookBuilder.reset] at found)
  known symbol listing listed := nomatch listed
  handedOut := ⟨Nat.le_refl _, Nat.le_add_right _ _⟩

/-- A reference that was introduced on a locate without a book is remembered. -/
theorem remember (parity : InParity history builder adapter market) {ref : OrderRefNumber}
    (below : ref < firstSyntheticId) :
    InParity { history with introduced := history.introduced ++ [ref] } builder adapter market where
  mirrors := parity.mirrors
  books := parity.books
  owned := parity.owned
  single := parity.single
  registered := parity.registered
  budget := parity.budget.remember below
  known symbol listing listed id member :=
    (parity.known symbol listing listed id member).introduce ref
  handedOut := parity.handedOut

/-- No live reference of a book names an id that was never introduced. -/
theorem unnamed (parity : InParity history builder adapter market) {locate : StockLocate}
    {book : SymbolBook} (found : builder.books[locate]? = some book) {id : OrderId}
    (new : id ∉ history.introduced) :
    ∀ other ∈ book.orders, adapter.engineIdFor other ≠ id := by
  intro other member equal
  obtain ⟨_, listing, listed, consistent, follows⟩ := parity.book found
  obtain ⟨resting, live⟩ := Option.isSome_iff_exists.mp
    (ExtTreeMap.mem_iff_isSome_getElem?.mp member)
  obtain ⟨target, inside, fed, named, _⟩ := follows.target live
  have listedId := parity.known book.symbol listing listed target.id
    (consistent.known resting.side target inside)
  rw [named, equal] at listedId
  rcases listedId with ⟨_, introduced⟩ | ⟨synthetic, _⟩
  · exact new introduced
  · have below := fed.below
    rw [named, equal] at below
    have above := UInt64.le_iff_toNat_le.mp synthetic
    have first : firstSyntheticId.toNat = 1000000000 := by decide
    omega

/-- An instrument knows no id that was never introduced, unless it is a synthetic one. -/
theorem unknown (parity : InParity history builder adapter market) {symbol : Symbol}
    {listing : Listing} (listed : market.listings symbol = some listing) {ref : OrderRefNumber}
    (new : ref ∉ history.introduced) (below : ref < firstSyntheticId) :
    ref ∉ listing.ledger.known := by
  intro member
  rcases parity.known symbol listing listed ref member with ⟨_, inside⟩ | ⟨above, _⟩
  · exact new inside
  · exact UInt64.not_le.mpr below above

/-- A live reference, the order it names and the record the engine finds for it. -/
structure Names (adapter : ItchEngineAdapter) (market : Market) (book : SymbolBook)
    (ref : OrderRefNumber) (resting : RestingOrder) (listing : Listing) (target record : Order) :
    Prop where
  /-- The symbol is listed. -/
  listed : market.listings book.symbol = some listing
  /-- Its ledger is consistent. -/
  consistent : listing.ledger.Consistent
  /-- The book follows it. -/
  follows : book.Follows adapter.engineIdFor listing.ledger
  /-- The order rests on the side of the reference. -/
  member : target ∈ listing.ledger.book.side resting.side
  /-- It was fed. -/
  fed : target.Fed
  /-- The engine maps the reference to it. -/
  named : target.id = adapter.engineIdFor ref
  /-- The prices are the same. -/
  price : target.price = resting.price
  /-- The shares are the same. -/
  quantity : target.quantity = resting.remainingShares
  /-- The engine finds its record. -/
  found : adapter.registry.findOrder book.symbol (adapter.engineIdFor ref) = some record
  /-- The record agrees with it. -/
  agrees : record.Agrees target

/-- Every live reference names an order. -/
theorem names (parity : InParity history builder adapter market) {locate : StockLocate}
    {book : SymbolBook} (found : builder.books[locate]? = some book) {ref : OrderRefNumber}
    {resting : RestingOrder} (live : book.orders[ref]? = some resting) :
    ∃ listing target record, Names adapter market book ref resting listing target record := by
  obtain ⟨_, listing, listed, consistent, follows⟩ := parity.book found
  obtain ⟨target, member, fed, named, price, quantity⟩ := follows.target live
  obtain ⟨record, recorded, agrees⟩ := consistent.covers resting.side target member
  refine ⟨listing, target, record, listed, consistent, follows, member, fed, named, price, quantity,
    ?_, agrees⟩
  rw [parity.mirrors.findOrder, Market.findOrder, listed, ← named]
  exact recorded

end InParity

end Titan
