import TitanEngine.Library.Tally
import TitanEngine.Replay.Session

/-!
# The budget of a session

A reference is introduced once, with fewer than `2 ^ 32` shares, and every execution takes a
share off it at least. So a session has fewer executions than synthetic ids, and these never run
out.
-/

namespace Titan

open Library Std

/-- A live order is an order of the book of its locate. -/
theorem ItchBookBuilder.book_of_live {builder : ItchBookBuilder} {locate : StockLocate}
    {ref : OrderRefNumber} {order : RestingOrder}
    (live : builder.liveOrder locate ref = some order) :
    ∃ book, builder.books[locate]? = some book ∧ book.orders[ref]? = some order :=
  Option.bind_eq_some_iff.mp live

/-- The live orders after a book was replaced. -/
theorem ItchBookBuilder.liveOrder_insert (builder : ItchBookBuilder) (locate : StockLocate)
    (book : SymbolBook) (other : StockLocate) (ref : OrderRefNumber) :
    ({ builder with books := builder.books.insert locate book } : ItchBookBuilder).liveOrder
        other ref =
      if locate = other then book.orders[ref]? else builder.liveOrder other ref := by
  unfold ItchBookBuilder.liveOrder
  show ((builder.books.insert locate book)[other]?).bind _ = _
  rw [ExtTreeMap.getElem?_insert]
  by_cases same : locate = other
  · rw [if_pos (by simpa using same), if_pos same]
    rfl
  · rw [if_neg (by simpa using same), if_neg same]

/-- Whatever is live was live, with at least as many shares. -/
def ItchBookBuilder.Shrinks (before after : ItchBookBuilder) : Prop :=
  ∀ locate ref left, after.liveOrder locate ref = some left →
    ∃ order, before.liveOrder locate ref = some order ∧
      left.remainingShares ≤ order.remainingShares

/-- A book whose orders shrink makes the live orders shrink. -/
theorem ItchBookBuilder.shrinks_insert {builder : ItchBookBuilder} {locate : StockLocate}
    {book later : SymbolBook} (found : builder.books[locate]? = some book)
    (fewer : ∀ (ref : OrderRefNumber) (left : RestingOrder), later.orders[ref]? = some left →
      ∃ order, book.orders[ref]? = some order ∧ left.remainingShares ≤ order.remainingShares) :
    builder.Shrinks { builder with books := builder.books.insert locate later } := by
  intro other ref left live
  rw [ItchBookBuilder.liveOrder_insert] at live
  by_cases here : locate = other
  · rw [if_pos here] at live
    rw [← here, ItchBookBuilder.liveOrder, found]
    exact fewer ref left live
  · rw [if_neg here] at live
    exact ⟨left, live, UInt64.le_refl _⟩

/-- What the references so far say about the live orders. -/
structure Budgeted (introduced executed : List OrderRefNumber) (builder : ItchBookBuilder) :
    Prop where
  /-- No reference is a synthetic id. -/
  below : ∀ ref ∈ introduced, ref < firstSyntheticId
  /-- A live reference was introduced, and what was executed and what is left of it fit the
  field of a message. -/
  live : ∀ locate ref order, builder.liveOrder locate ref = some order →
    ref ∈ introduced ∧ executed.count ref + order.remainingShares.toNat < 2 ^ 32
  /-- A reference is live on one locate. -/
  alone : ∀ left right ref, (builder.liveOrder left ref).isSome →
    (builder.liveOrder right ref).isSome → left = right
  /-- What is executed was introduced. -/
  known : ∀ ref ∈ executed, ref ∈ introduced
  /-- No reference is executed more often than it had shares. -/
  spent : ∀ ref, executed.count ref < 2 ^ 32

namespace Budgeted

variable {introduced executed : List OrderRefNumber} {builder after : ItchBookBuilder}

/-- Nothing was introduced yet. -/
theorem init : Budgeted [] [] ItchBookBuilder.init where
  below ref member := by simp at member
  live locate ref order found := by
    simp [ItchBookBuilder.liveOrder, ItchBookBuilder.init] at found
  alone left right ref found := by
    simp [ItchBookBuilder.liveOrder, ItchBookBuilder.init] at found
  known ref member := by simp at member
  spent ref := by simp

/-- The executions of a session are fewer than the synthetic ids. -/
theorem length_executed (budgeted : Budgeted introduced executed builder) :
    executed.length ≤ 1000000000 * 2 ^ 32 := by
  apply length_le_of_count
  · intro ref member
    exact UInt64.lt_iff_toNat_lt.mp (budgeted.below ref (budgeted.known ref member))
  · intro ref
    exact Nat.le_of_lt (budgeted.spent ref)

/-- The live references of a book were introduced. -/
theorem introduced_of_mem (budgeted : Budgeted introduced executed builder)
    {locate : StockLocate} {book : SymbolBook} (found : builder.books[locate]? = some book) :
    ∀ ref ∈ book.orders, ref ∈ introduced := by
  intro ref member
  obtain ⟨resting, entry⟩ := Option.isSome_iff_exists.mp
    (ExtTreeMap.mem_iff_isSome_getElem?.mp member)
  have live : builder.liveOrder locate ref = some resting := by
    rw [ItchBookBuilder.liveOrder, found]
    exact entry
  exact (budgeted.live locate ref resting live).1

/-- Fewer live orders keep the budget. -/
theorem shrink (budgeted : Budgeted introduced executed builder)
    (shrinks : builder.Shrinks after) : Budgeted introduced executed after where
  below := budgeted.below
  live locate ref left found := by
    obtain ⟨order, old, fewer⟩ := shrinks locate ref left found
    obtain ⟨member, bound⟩ := budgeted.live locate ref order old
    have least := UInt64.le_iff_toNat_le.mp fewer
    exact ⟨member, by omega⟩
  alone left right ref onLeft onRight := by
    obtain ⟨first, foundLeft⟩ := Option.isSome_iff_exists.mp onLeft
    obtain ⟨second, foundRight⟩ := Option.isSome_iff_exists.mp onRight
    obtain ⟨_, oldLeft, _⟩ := shrinks left ref first foundLeft
    obtain ⟨_, oldRight, _⟩ := shrinks right ref second foundRight
    exact budgeted.alone left right ref (by rw [oldLeft]; rfl) (by rw [oldRight]; rfl)
  known := budgeted.known
  spent := budgeted.spent

/-- A reference that is not used keeps the budget of the others. -/
theorem remember (budgeted : Budgeted introduced executed builder) {ref : OrderRefNumber}
    (below : ref < firstSyntheticId) : Budgeted (introduced ++ [ref]) executed builder where
  below name member := by
    rcases List.mem_append.mp member with inside | inside
    · exact budgeted.below name inside
    · rw [List.mem_singleton.mp inside]
      exact below
  live other name order found := by
    obtain ⟨member, bound⟩ := budgeted.live other name order found
    exact ⟨List.mem_append_left _ member, bound⟩
  alone := budgeted.alone
  known name member := List.mem_append_left _ (budgeted.known name member)
  spent := budgeted.spent

/-- A new reference brings its own budget. -/
theorem introduce (budgeted : Budgeted introduced executed builder) {locate : StockLocate}
    {book later : SymbolBook} (found : builder.books[locate]? = some book) {ref : OrderRefNumber}
    (new : ref ∉ introduced) (below : ref < firstSyntheticId)
    (added : ∀ (name : OrderRefNumber) (order : RestingOrder), later.orders[name]? = some order →
      (name = ref ∧ order.remainingShares.toNat < 2 ^ 32) ∨ book.orders[name]? = some order) :
    Budgeted (introduced ++ [ref]) executed
      { builder with books := builder.books.insert locate later } := by
  have kept := budgeted.remember below
  have live : ∀ other name order,
      ({ builder with books := builder.books.insert locate later } : ItchBookBuilder).liveOrder
        other name = some order →
      (other = locate ∧ name = ref ∧ order.remainingShares.toNat < 2 ^ 32) ∨
        builder.liveOrder other name = some order := by
    intro other name order entry
    rw [ItchBookBuilder.liveOrder_insert] at entry
    by_cases here : locate = other
    · rw [if_pos here] at entry
      subst here
      rcases added name order entry with own | old
      · exact .inl ⟨rfl, own⟩
      · rw [ItchBookBuilder.liveOrder, found]
        exact .inr old
    · rw [if_neg here] at entry
      exact .inr entry
  constructor
  · exact kept.below
  · intro other name order entry
    rcases live other name order entry with ⟨_, rfl, light⟩ | old
    · have unspent : executed.count name = 0 :=
        List.count_eq_zero.mpr (fun member => new (budgeted.known name member))
      exact ⟨List.mem_append_right _ List.mem_cons_self, by omega⟩
    · exact kept.live other name order old
  · intro left right name onLeft onRight
    obtain ⟨first, foundLeft⟩ := Option.isSome_iff_exists.mp onLeft
    obtain ⟨second, foundRight⟩ := Option.isSome_iff_exists.mp onRight
    rcases live left name first foundLeft with ⟨atLeft, named, _⟩ | oldLeft <;>
      rcases live right name second foundRight with ⟨atRight, renamed, _⟩ | oldRight
    · rw [atLeft, atRight]
    · exact absurd (budgeted.live right name second oldRight).1 (named ▸ new)
    · exact absurd (budgeted.live left name first oldLeft).1 (renamed ▸ new)
    · exact budgeted.alone left right name (by rw [oldLeft]; rfl) (by rw [oldRight]; rfl)
  · exact kept.known
  · exact kept.spent

/-- An execution spends a share at least. -/
theorem execute (budgeted : Budgeted introduced executed builder) {locate : StockLocate}
    {ref : OrderRefNumber} {order : RestingOrder} (live : builder.liveOrder locate ref = some order)
    (shrinks : builder.Shrinks after) (some_ : order.remainingShares ≠ 0)
    (fewer : ∀ left, after.liveOrder locate ref = some left →
      left.remainingShares < order.remainingShares) :
    Budgeted introduced (executed ++ [ref]) after := by
  have kept := budgeted.shrink shrinks
  obtain ⟨member, bound⟩ := budgeted.live locate ref order live
  have positive : order.remainingShares.toNat ≠ 0 :=
    fun zero => some_ (UInt64.toNat_inj.mp zero)
  have counted : ∀ name, (executed ++ [ref]).count name =
      executed.count name + if ref = name then 1 else 0 := by
    intro name
    rw [List.count_append, List.count_singleton]
    simp only [beq_iff_eq]
  constructor
  · exact kept.below
  · intro other name left found
    obtain ⟨inside, room⟩ := kept.live other name left found
    refine ⟨inside, ?_⟩
    rw [counted]
    by_cases same : ref = name
    · subst same
      obtain ⟨old, before, _⟩ := shrinks other ref left found
      have here : other = locate :=
        budgeted.alone other locate ref (by rw [before]; rfl) (by rw [live]; rfl)
      subst here
      have less := UInt64.lt_iff_toNat_lt.mp (fewer left found)
      rw [if_pos rfl]
      omega
    · rw [if_neg same]
      exact room
  · exact kept.alone
  · intro name inside
    rcases List.mem_append.mp inside with inside | inside
    · exact budgeted.known name inside
    · rw [List.mem_singleton.mp inside]
      exact member
  · intro name
    rw [counted]
    have spent := budgeted.spent name
    by_cases same : ref = name
    · subst same
      rw [if_pos rfl]
      omega
    · rw [if_neg same]
      exact spent

end Budgeted

end Titan
