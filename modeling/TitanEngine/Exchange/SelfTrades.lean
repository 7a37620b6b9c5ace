import TitanEngine.Exchange.ManagerRuns

/-!
# Whose orders trade with each other

Every trade the matcher executes is on the tape under it, also those inside `addOrder`. An audit
follows a run of the manager and notes, for each executed trade, the accounts of its two orders.
An order's account is the one it was entered under; `cancelReplace` stores the replacement as a
whole, so an accepted amendment may change it. Self-trade prevention looks at the account an
order has when it would be traded with.
-/

namespace Titan

open Library Std

namespace Recorded

variable {M : Type} [IMatcher M]

@[simp] theorem executed_addOrder (recorded : Recorded M) (order : Order) :
    (IMatcher.addOrder recorded order).executed =
      recorded.executed ++ (IMatcher.matchOrder recorded.matcher order).1 := by
  change (recorded.tape ++ [_]).flatMap Prod.snd = _
  simp [executed]

@[simp] theorem executed_cancelOrder (recorded : Recorded M) (id : OrderId) :
    (IMatcher.cancelOrder recorded id).executed = recorded.executed := by
  change (recorded.tape ++ [_]).flatMap Prod.snd = _
  simp [executed]

@[simp] theorem executed_matchOrder (recorded : Recorded M) (order : Order) :
    (IMatcher.matchOrder recorded order).2.executed =
      recorded.executed ++ (IMatcher.matchOrder recorded order).1 := by
  change (recorded.tape ++ [_]).flatMap Prod.snd = recorded.executed ++ _
  simp only [List.flatMap_append, List.flatMap_cons, List.flatMap_nil, List.append_nil]
  rfl

/-- Cancelling executes nothing, however often. -/
theorem executed_cancelAll (recorded : Recorded M) (ids : List OrderId) :
    (ids.foldl IMatcher.cancelOrder recorded).executed = recorded.executed := by
  induction ids generalizing recorded with
  | nil => rfl
  | cons id rest ih => rw [List.foldl_cons, ih, executed_cancelOrder]

/-- Adding orders that do not trade executes nothing. -/
theorem executed_addAll (recorded : Recorded M) (orders : List Order)
    (quiet : ∀ front order back, orders = front ++ order :: back →
      (IMatcher.matchOrder (front.foldl IMatcher.addOrder recorded) order).1 = []) :
    (orders.foldl IMatcher.addOrder recorded).executed = recorded.executed := by
  induction orders generalizing recorded with
  | nil => rfl
  | cons first rest ih =>
    have silent : (IMatcher.matchOrder recorded first).1 = [] := quiet [] first rest rfl
    have later := ih (IMatcher.addOrder recorded first) (by
      intro front order back parts
      exact quiet (first :: front) order back (by rw [parts]; rfl))
    rw [List.foldl_cons, later, executed_addOrder]
    change recorded.executed ++ (IMatcher.matchOrder recorded first).1 = _
    rw [silent, List.append_nil]

end Recorded

namespace OrderManager

section Tape

variable {M : Type} [IMatcher M]

omit [IMatcher M] in
@[simp] theorem matcher_settleTrade (manager : OrderManager M) (trade : Trade) :
    (manager.settleTrade trade).matcher = manager.matcher := by
  unfold settleTrade
  split
  · rfl
  · simp only
    split
    · rw [matcher_untrackResting]
    · rfl

omit [IMatcher M] in
/-- Recording trades touches the list of trades and not the matcher. -/
theorem foldl_recordTrade (trades : List Trade) (state : StpState M) :
    (trades.foldl recordTrade state).manager.matcher = state.manager.matcher ∧
      (trades.foldl recordTrade state).allTrades = state.allTrades ++ trades := by
  induction trades generalizing state with
  | nil => simp
  | cons trade rest ih =>
    obtain ⟨matcher, collected⟩ := ih (recordTrade state trade)
    rw [List.foldl_cons]
    refine ⟨matcher.trans ?_, ?_⟩
    · simp [recordTrade]
    · rw [collected]
      simp [recordTrade]

/-- The state of the loop of `matchWithStp` after a probe, before its trades are recorded. -/
def probed {M : Type} [IMatcher M] (state : StpState M) (probe : Order) : StpState M :=
  { state with manager := { state.manager with
      matcher := (IMatcher.matchOrder state.manager.matcher probe).2 } }

/-- Everything a pass of the loop of `matchWithStp` can do. -/
theorem stpPass_cases (incoming : Order) (state : StpState M) :
    stpPass incoming state = .done state ∨
    (∃ side levels, stpPass incoming state =
      .yield { state with manager := state.manager.setShadow side levels }) ∨
    ∃ probe, let trades := (IMatcher.matchOrder state.manager.matcher probe).1
      (trades = [] ∧ stpPass incoming state = .done (probed state probe)) ∨
      stpPass incoming state = .yield (trades.foldl recordTrade (probed state probe)) := by
  unfold stpPass
  simp only
  split
  case isFalse => exact .inl rfl
  split
  case h_1 => exact .inl rfl
  split
  case isFalse => exact .inl rfl
  split
  case h_1 => exact .inr (.inl ⟨_, _, rfl⟩)
  split
  case isTrue => exact .inl rfl
  split
  case isTrue empty => exact .inr (.inr ⟨_, .inl ⟨List.isEmpty_iff.mp empty, rfl⟩⟩)
  case isFalse => exact .inr (.inr ⟨_, .inr rfl⟩)

/-- What `matchWithStp` collects is what the matcher executes meanwhile. -/
theorem executed_matchWithStp (manager : OrderManager (Recorded M)) (incoming : Order) :
    (manager.matchWithStp incoming).manager.matcher.executed =
      manager.matcher.executed ++ (manager.matchWithStp incoming).allTrades := by
  let Inv : StpState (Recorded M) → Prop := fun state =>
    state.manager.matcher.executed = manager.matcher.executed ++ state.allTrades
  have afterProbe : ∀ (state : StpState (Recorded M)) (probe : Order), Inv state →
      (probed state probe).manager.matcher.executed = manager.matcher.executed ++
        (state.allTrades ++ (IMatcher.matchOrder state.manager.matcher probe).1) := by
    intro state probe inv
    have tape := Recorded.executed_matchOrder state.manager.matcher probe
    rw [show state.manager.matcher.executed = _ from inv, List.append_assoc] at tape
    exact tape
  have kept : ∀ state next, Inv state → stpPass incoming state = .yield next → Inv next := by
    intro state next inv step
    rcases stpPass_cases incoming state with same | ⟨side, levels, pruned⟩ | ⟨probe, stop | trades⟩
    · rw [same] at step
      cases step
    · rw [pruned] at step
      cases step
      simp only [Inv, matcher_setShadow]
      exact inv
    · rw [stop.2] at step
      cases step
    · rw [trades] at step
      cases step
      have folded := foldl_recordTrade
        (IMatcher.matchOrder state.manager.matcher probe).1 (probed state probe)
      simp only [Inv]
      rw [folded.1, folded.2]
      exact afterProbe state probe inv
  have broken : ∀ state final, Inv state → stpPass incoming state = .done final → Inv final := by
    intro state final inv step
    rcases stpPass_cases incoming state with same | ⟨side, levels, pruned⟩ | ⟨probe, stop | trades⟩
    · rw [same] at step
      cases step
      exact inv
    · rw [pruned] at step
      cases step
    · rw [stop.2] at step
      cases step
      have tape := afterProbe state probe inv
      rw [stop.1, List.append_nil] at tape
      exact tape
    · rw [trades] at step
      cases step
  exact loop_invariant Inv kept broken _ (List.append_nil _).symm

end Tape

section Lawful

variable {M : Type} [LawfulMatcher M] {manager : OrderManager (Recorded M)} {ledger : Ledger}

/-- An order that crosses nothing is added without a trade. -/
theorem Tracks.executed_addOrder {book : Book} (tracks : manager.Tracks book)
    (sound : book.Sound) {order : Order} (fresh : book.Fresh order.id)
    (positive : order.quantity ≠ 0) (clear : Ledger.wouldCross book order = false) :
    (IMatcher.addOrder manager.matcher order).executed = manager.matcher.executed := by
  have enters : EntersClear manager.matcher book order :=
    ⟨tracks.represents, sound, fresh, positive, clear⟩
  rw [Recorded.executed_addOrder]
  change manager.matcher.executed ++ (IMatcher.matchOrder manager.matcher order).1 = _
  rw [enters.trades, List.append_nil]

/-- An accepted order executes the trades of its sweep. -/
theorem Mirrors.executed_matchOrder (mirrors : manager.Mirrors ledger) {order : Order}
    (accepted : validateNewOrder order ledger.known = .none) :
    (manager.matchOrder order).2.matcher.executed =
      manager.matcher.executed ++ (ledger.fillOf order).trades := by
  obtain ⟨final, matched⟩ := mirrors.matched accepted
  have tape : final.manager.matcher.executed =
      manager.matcher.executed ++ (ledger.fillOf order).trades := by
    rw [← matched.trades, matched.ended]
    exact executed_matchWithStp _ _
  rw [matched.result, finishMatch_eq matched.filled matched.decided]
  cases resting : ledger.rests order with
  | false => exact tape
  | true =>
    simp only [Ledger.rests, Bool.and_eq_true, decide_eq_true_eq, Bool.not_eq_true'] at resting
    obtain ⟨⟨_, left⟩, clear⟩ := resting
    have sweeping := matched.sweeping
    have fresh : (ledger.swept order).Fresh (ledger.remainder order).id := sweeping.fresh
    have quiet := sweeping.tracks.executed_addOrder sweeping.sound fresh left clear
    simp only [↓reduceIte, matcher_trackResting]
    exact quiet.trans tape

/-- An accepted amendment executes nothing. -/
theorem Mirrors.executed_amend (mirrors : manager.Mirrors ledger) {newOrder : Order}
    (held : ledger.holds newOrder.id = true) (positive : newOrder.quantity ≠ 0)
    (clear : Ledger.wouldCross ledger.book newOrder = false) :
    (manager.amended newOrder).matcher.executed = manager.matcher.executed := by
  have sound := mirrors.consistent.sound
  rcases mirrors.amended_cases held clear with
    ⟨_, inPlace, target, member, own, price⟩ | ⟨_, moved⟩
  · obtain ⟨_, _, clearly⟩ := mirrors.represents_reread positive member own price clear
    rw [inPlace, mirrors.matcher_rebuildLevel member price]
    rw [Recorded.executed_addAll, Recorded.executed_cancelAll]
    intro front order back parts
    obtain ⟨between, enters⟩ := clearly front order back parts
    exact enters.trades
  · have tracks := mirrors.tracks.cancel sound newOrder.id
    have fresh : (ledger.book.cancel newOrder.id).Fresh newOrder.id :=
      Book.fresh_cancel.mpr (.inl rfl)
    have quiet := tracks.executed_addOrder (sound.cancel newOrder.id) fresh positive
      (wouldCross_cancel clear newOrder.id)
    rw [matcher_untrackResting] at quiet
    rw [moved, matcher_moveOrder, quiet, Recorded.executed_cancelOrder]

/-- The order a call enters, if the call is accepted and enters one. -/
def enteredBy (ledger : Ledger) (call : ManagerCall) : Option Order :=
  match call with
  | .addOrder order =>
    if order.isMarketOrIoc = false ∧ validateNewOrder order ledger.known = .none then some order
    else none
  | .matchOrder order => if validateNewOrder order ledger.known = .none then some order else none
  | .cancelOrder _ => none
  | .cancelReplace _ _ => none

/-- The trades a call executes, read off the ledger. -/
def tradesOf (ledger : Ledger) (call : ManagerCall) : List Trade :=
  match enteredBy ledger call with
  | some order => (ledger.fillOf order).trades
  | none => []

/-- Every call executes the trades of the sweep of the order it enters, and no others. -/
theorem Mirrors.executed_call (mirrors : manager.Mirrors ledger) (call : ManagerCall) :
    (callManager manager call).2.matcher.executed =
      manager.matcher.executed ++ tradesOf ledger call := by
  cases call with
  | addOrder order =>
    simp only [callManager, tradesOf, enteredBy, OrderManager.addOrder, mirrors.known]
    cases refused : order.isMarketOrIoc with
    | true => simp
    | false =>
      cases reason : validateNewOrder order ledger.known with
      | none => simpa using mirrors.executed_matchOrder reason
      | _ => simp
  | matchOrder order =>
    simp only [callManager, tradesOf, enteredBy]
    cases reason : validateNewOrder order ledger.known with
    | none => simpa using mirrors.executed_matchOrder reason
    | _ => simp [OrderManager.matchOrder, mirrors.known, reason]
  | cancelOrder id =>
    simp only [callManager, tradesOf, enteredBy, OrderManager.cancelOrder, validateCancel,
      List.append_nil]
    cases manager.activeOrderIds.contains id with
    | false => rfl
    | true => simp
  | cancelReplace oldId newOrder =>
    simp only [callManager, tradesOf, enteredBy, List.append_nil]
    rcases mirrors.cancelReplace_cases oldId newOrder with
      ⟨reason, refused, _⟩ | ⟨_, held, positive, clear, accepted, _⟩
    · rw [refused]
    · have executed : (manager.amended { newOrder with status := .new }).matcher.executed =
          manager.matcher.executed := mirrors.executed_amend held positive clear
      rw [accepted]
      exact executed

end Lawful

end OrderManager

/-- Which account an audit takes an order to have: the one it was entered under, or the one of
its latest accepted amendment. -/
inductive AccountView where
  | atEntry
  | latest
  deriving DecidableEq, Repr

/-- A manager with the accounts of its orders and the accounts of the two orders of every trade
executed so far. -/
structure Audit (M : Type) where
  /-- The manager, over a matcher with a tape. -/
  manager : OrderManager (Recorded M)
  /-- The account of each accepted order. -/
  accounts : IdMap AccountId
  /-- Incoming and resting account of each trade, oldest first. -/
  pairs : List (AccountId × AccountId)

namespace Audit

variable {M : Type}

/-- The audit of a new manager. -/
def start (matcher : M) : Audit M where
  manager := OrderManager.init (Recorded.start matcher)
  accounts := ∅
  pairs := []

/-- The accounts after a call. -/
def noteAccount (view : AccountView) (accounts : IdMap AccountId) (call : ManagerCall)
    (accepted : Bool) : IdMap AccountId :=
  if accepted then
    match call with
    | .addOrder order => accounts.insert order.id order.accountId
    | .matchOrder order => accounts.insert order.id order.accountId
    | .cancelOrder _ => accounts
    | .cancelReplace oldId newOrder =>
      match view with
      | .atEntry => accounts
      | .latest => accounts.insert oldId newOrder.accountId
  else accounts

/-- The accounts of the two orders of a trade. -/
def pairOf (accounts : IdMap AccountId) (trade : Trade) : AccountId × AccountId :=
  (accounts.getD trade.incomingOrderId 0, accounts.getD trade.restingOrderId 0)

/-- Issue one call and note the accounts of the trades it executed. -/
def call [IMatcher M] (view : AccountView) (audit : Audit M) (call : ManagerCall) :
    MatchResult × Audit M :=
  let (result, next) := callManager audit.manager call
  let accounts := noteAccount view audit.accounts call result.accept.accepted
  let executed := next.matcher.executed.drop audit.manager.matcher.executed.length
  (result,
    { manager := next, accounts := accounts
      pairs := audit.pairs ++ executed.map (pairOf accounts) })

/-- No trade paired two orders of one account. -/
def SelfTradeFree (audit : Audit M) : Prop :=
  ∀ pair ∈ audit.pairs, ¬ (pair.1 ≠ 0 ∧ pair.1 = pair.2)

instance (audit : Audit M) : Decidable audit.SelfTradeFree :=
  List.decidableBAll (fun pair : AccountId × AccountId => ¬ (pair.1 ≠ 0 ∧ pair.1 = pair.2))
    audit.pairs

/-- The accounts are those of the records. -/
def Agree (accounts : IdMap AccountId) (records : IdMap Order) : Prop :=
  ∀ (id : OrderId) (record : Order), records[id]? = some record →
    accounts.getD id 0 = record.accountId

/-- Inserting a record and its account keeps the two in agreement. -/
theorem Agree.insert {accounts : IdMap AccountId} {records : IdMap Order}
    (agree : Agree accounts records) (id : OrderId) (record : Order) :
    Agree (accounts.insert id record.accountId) (records.insert id record) := by
  intro other stored found
  rw [ExtTreeMap.getElem?_insert] at found
  rw [ExtTreeMap.getD_insert]
  split at found
  · rename_i same
    obtain rfl := Option.some.inj found
    rw [if_pos same]
  · rename_i apart
    rw [if_neg apart]
    exact agree other stored found

/-- A record with the old account may replace the old record. -/
theorem Agree.update {accounts : IdMap AccountId} {records : IdMap Order}
    (agree : Agree accounts records) {id : OrderId} {old record : Order}
    (found : records[id]? = some old) (same : record.accountId = old.accountId) :
    Agree accounts (records.insert id record) := by
  intro other stored lookup
  rw [ExtTreeMap.getElem?_insert] at lookup
  split at lookup
  · rename_i equal
    obtain rfl := Option.some.inj lookup
    obtain rfl : id = other := by simpa using equal
    rw [same]
    exact agree id old found
  · exact agree other stored lookup

/-- Settling a trade changes no account. -/
theorem Agree.settle {accounts : IdMap AccountId} {records : IdMap Order}
    (agree : Agree accounts records) (trades : List Trade) :
    Agree accounts (trades.foldl Titan.settle records) := by
  induction trades generalizing records with
  | nil => exact agree
  | cons trade rest ih =>
    rw [List.foldl_cons]
    apply ih
    unfold Titan.settle
    cases found : records[trade.restingOrderId]? with
    | none => exact agree
    | some record => exact agree.update found rfl

end Audit

/-- The trades of a greedy fill are between the taker and the orders it is filled from. -/
theorem mem_fill_trades {taker : OrderId} {quantity : Quantity} {makers : List Order}
    {trade : Trade} (member : trade ∈ (fill taker quantity makers).trades) :
    trade.incomingOrderId = taker ∧ ∃ maker ∈ makers, trade.restingOrderId = maker.id := by
  induction makers generalizing quantity with
  | nil => simp [fill] at member
  | cons maker rest ih =>
    unfold fill at member
    by_cases zero : quantity = 0
    · simp [zero] at member
    by_cases fits : maker.quantity ≤ quantity
    · simp only [zero, fits, ↓reduceIte, List.mem_cons] at member
      rcases member with rfl | later
      · exact ⟨rfl, maker, List.mem_cons_self, rfl⟩
      · obtain ⟨own, other, inside, equal⟩ := ih later
        exact ⟨own, other, List.mem_cons_of_mem _ inside, equal⟩
    · simp only [zero, fits, ↓reduceIte, List.mem_singleton] at member
      subst member
      exact ⟨rfl, maker, List.mem_cons_self, rfl⟩

namespace Audit

variable {M : Type} [LawfulMatcher M] {audit : Audit M} {ledger : Ledger}

/-- The invariant of an audit that follows amendments. -/
structure Follows (audit : Audit M) (ledger : Ledger) : Prop where
  /-- The manager keeps the ledger. -/
  mirrors : audit.manager.Mirrors ledger
  /-- The accounts are those of the records. -/
  agree : Agree audit.accounts ledger.records
  /-- No trade so far paired two orders of one account. -/
  free : audit.SelfTradeFree

/-- The trades of an entered order are with orders of other accounts. -/
theorem Follows.pairs_free (follows : audit.Follows ledger) {order : Order}
    (accepted : validateNewOrder order ledger.known = .none) :
    ∀ trade ∈ (ledger.fillOf order).trades,
      let pair := pairOf (audit.accounts.insert order.id order.accountId) trade
      ¬ (pair.1 ≠ 0 ∧ pair.1 = pair.2) := by
  intro trade member pair
  have fresh := follows.mirrors.fresh_of_unknown
    (OrderManager.validateNewOrder_none accepted).2.2
  obtain ⟨own, maker, inside, resting⟩ := mem_fill_trades member
  have open_ : order.stoppedBy maker = false := by
    have kept := List.mem_takeWhile_imp inside
    simpa using kept
  have listed : maker ∈ ledger.book.side order.side.opposite :=
    (List.takeWhile_sublist _).subset inside
  obtain ⟨record, found, agrees⟩ := follows.mirrors.consistent.covers _ maker listed
  have account := follows.agree maker.id record found
  have apart : order.id ≠ maker.id := (fresh _ maker listed).symm
  have incoming : pair.1 = order.accountId := by
    simp only [pair, pairOf, own, ExtTreeMap.getD_insert_self]
  have other : pair.2 = maker.accountId := by
    simp only [pair, pairOf, resting]
    rw [ExtTreeMap.getD_insert, if_neg (by simpa using apart), account, agrees.accountId]
  rw [incoming, other]
  rintro ⟨nonzero, equal⟩
  simp only [Order.stoppedBy, Bool.or_eq_false_iff, Bool.and_eq_false_imp, decide_eq_true_eq,
    decide_eq_false_iff_not] at open_
  exact open_.2 nonzero equal.symm

/-- A call that enters an order is accepted and enters it into the ledger. -/
theorem entered_call {call : ManagerCall} {order : Order}
    (entered : OrderManager.enteredBy ledger call = some order) :
    validateNewOrder order ledger.known = .none ∧
      (callLedger ledger call).1.accept.accepted = true ∧
      (callLedger ledger call).2 = ledger.enter order ∧
      ∀ view accounts, noteAccount view accounts call true =
        accounts.insert order.id order.accountId := by
  cases call with
  | addOrder candidate =>
    simp only [OrderManager.enteredBy] at entered
    split at entered
    · rename_i accepts
      obtain rfl := Option.some.inj entered
      refine ⟨accepts.2, ?_, ?_, fun _ _ => rfl⟩
      · simp [callLedger, Ledger.addOrder, accepts.1, accepts.2, AcceptResult.ok]
      · simp [callLedger, Ledger.addOrder, accepts.1, accepts.2]
    · simp at entered
  | matchOrder candidate =>
    simp only [OrderManager.enteredBy] at entered
    split at entered
    · rename_i accepts
      obtain rfl := Option.some.inj entered
      refine ⟨accepts, ?_, ?_, fun _ _ => rfl⟩
      · simp [callLedger, Ledger.matchOrder, accepts, AcceptResult.ok]
      · simp [callLedger, Ledger.matchOrder, accepts]
    · simp at entered
  | cancelOrder id => simp [OrderManager.enteredBy] at entered
  | cancelReplace oldId newOrder => simp [OrderManager.enteredBy] at entered

/-- After every call the accounts are those of the records. -/
theorem Follows.agree_call (follows : audit.Follows ledger) (call : ManagerCall) :
    Agree (noteAccount .latest audit.accounts call (callLedger ledger call).1.accept.accepted)
      (callLedger ledger call).2.records := by
  have agree := follows.agree
  have enter : ∀ order, Agree (audit.accounts.insert order.id order.accountId)
      (ledger.enter order).records := fun order => (agree.settle _).insert order.id _
  cases call with
  | addOrder order =>
    simp only [callLedger, Ledger.addOrder]
    cases refused : order.isMarketOrIoc with
    | true => exact agree
    | false =>
      cases reason : validateNewOrder order ledger.known with
      | none => exact enter order
      | _ => exact agree
  | matchOrder order =>
    simp only [callLedger, Ledger.matchOrder]
    cases reason : validateNewOrder order ledger.known with
    | none => exact enter order
    | _ => exact agree
  | cancelOrder id =>
    simp only [callLedger, Ledger.cancelOrder]
    cases held : ledger.holds id with
    | false => exact agree
    | true =>
      obtain ⟨side, order, member, same, _⟩ := follows.mirrors.resting_of_holds held
      obtain ⟨record, found, _⟩ := follows.mirrors.consistent.covers side order member
      rw [same] at found
      have recorded : ledger.recordOf id = record := by
        rw [Ledger.recordOf, ExtTreeMap.getD_eq_getD_getElem?, found]
        rfl
      refine agree.update found ?_
      rw [recorded]
  | cancelReplace oldId newOrder =>
    simp only [callLedger]
    rcases follows.mirrors.cancelReplace_cases oldId newOrder with
      ⟨reason, _, refused⟩ | ⟨same, _, _, _, _, accepted⟩
    · rw [refused]
      exact agree
    · rw [accepted, ← same]
      exact agree.insert newOrder.id { newOrder with status := .new }

/-- A call keeps the invariant. -/
theorem Follows.call (follows : audit.Follows ledger) (call : ManagerCall) :
    (audit.call .latest call).2.Follows (callLedger ledger call).2 := by
  have step := follows.mirrors.call call
  have tape := follows.mirrors.executed_call call
  refine ⟨step.2, ?_, ?_⟩
  · have agree := follows.agree_call call
    rw [← step.1] at agree
    exact agree
  · intro pair member
    simp only [Audit.call, tape, List.drop_left, List.mem_append, List.mem_map] at member
    rcases member with old | ⟨trade, traded, rfl⟩
    · exact follows.free pair old
    · rw [step.1]
      simp only [OrderManager.tradesOf] at traded
      cases entered : OrderManager.enteredBy ledger call with
      | none => simp [entered] at traded
      | some order =>
        rw [entered] at traded
        obtain ⟨accepted, ok, _, noted⟩ := entered_call entered
        rw [ok, noted]
        exact follows.pairs_free accepted trade traded

/-- Along every run, over either matcher, no executed trade pairs two orders that carry the same
nonzero account, an amended order carrying the account of its latest amendment. -/
theorem no_trade_within_account (allocator : SlabAllocator) (backend : MatcherBackend)
    (calls : List ManagerCall) :
    (run (call .latest) (start (makeMatcher allocator backend)) calls).2.SelfTradeFree := by
  let Inv : Audit Matcher → Prop := fun audit => ∃ ledger, audit.Follows ledger
  have begins : Inv (start (makeMatcher allocator backend)) := by
    have represents : Represents (Recorded.start (makeMatcher allocator backend)) Book.empty :=
      Matcher.holds_makeMatcher allocator backend
    refine ⟨Ledger.empty, OrderManager.mirrors_init represents, ?_, ?_⟩
    · intro id record found
      simp [Ledger.empty] at found
    · intro pair member
      simp [start] at member
  have kept : ∀ (audit : Audit Matcher) (next : ManagerCall), Inv audit → True →
      Inv (call .latest audit next).2 := by
    rintro audit next ⟨ledger, follows⟩ _
    exact ⟨_, follows.call next⟩
  obtain ⟨_, follows⟩ := run_invariant Inv kept begins (admissible_true _ _ calls)
  exact follows.free

/-- An order entered under account 7 and amended to account 8 trades with a later order of
account 7. -/
theorem amended_order_trades_with_entry_account :
    ¬ (run (call .atEntry) (start (makeMatcher (.consecutive 2 (by decide)) .optimized))
      [.addOrder { id := 1, side := .buy, price := 10, quantity := 5, accountId := 7 },
        .cancelReplace 1 { id := 1, side := .buy, price := 10, quantity := 4, accountId := 8 },
        .matchOrder
          { id := 2, side := .sell, price := 10, quantity := 4, accountId := 7 }]).2.SelfTradeFree := by
  decide

end Audit

end Titan
