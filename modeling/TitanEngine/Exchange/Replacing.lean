import TitanEngine.Exchange.SelfTrades
import TitanEngine.Spec.Moves

/-!
# What an amendment does to the queues

`cancelReplace` read off the queues of the matcher. A rejected call changes nothing. An accepted
one executes no trade and leaves every other order where it stands among the others; the amended
order keeps its place when its price stays and its quantity does not grow, and otherwise stands
last in the level of its new price. Orders are compared without their lifecycle status, which a
level that is entered again takes from the records.
-/

namespace Titan

open Library Std

section Queues

variable {M : Type} [RestingLevels M]

/-- Every other order is as before, and stands as before among the others of its level. -/
def KeepsOthers (before after : M) (id : OrderId) : Prop :=
  ∀ side price,
    ((queueAt after side price).filter (fun order => order.id != id)).map Order.face =
      ((queueAt before side price).filter (fun order => order.id != id)).map Order.face

/-- The amended order stands where the order of its id stood, and nothing else changes. -/
def KeepsPlace (before after : M) (renewed : Order) : Prop :=
  ∀ side price, (queueAt after side price).map Order.face =
    (queueAt before side price).map
      (fun order => if order.id = renewed.id then renewed.face else order.face)

/-- The order of its id is gone and the amended order stands last in its level. -/
def MovesToBack (before after : M) (renewed : Order) : Prop :=
  ∀ side price, (queueAt after side price).map Order.face =
    ((queueAt before side price).filter (fun order => order.id != renewed.id)).map Order.face ++
      if side = renewed.side ∧ price = renewed.price then [renewed.face] else []

/-- The book is uncrossed: every bid is below every ask. -/
def Uncrossed (matcher : M) : Prop :=
  ∀ bid ∈ resting matcher .buy, ∀ ask ∈ resting matcher .sell, bid.price < ask.price

end Queues

namespace Ledger

variable {ledger : Ledger} {newOrder target : Order}

/-- The queues of a level that is read back: the amended order in the place of the old one. -/
theorem Consistent.group_reread (consistent : ledger.Consistent)
    (inside : target ∈ ledger.book.side newOrder.side) (own : target.id = newOrder.id)
    (samePrice : target.price = newOrder.price) (side : Side) (price : Price) :
    (group (fun order : Order => order.price) ((reread ledger.book
      (ledger.records.insert newOrder.id newOrder) newOrder.side newOrder.price).side side)
        price).map Order.face =
      (group (fun order : Order => order.price) (ledger.book.side side) price).map
        (fun order => if order.id = newOrder.id then newOrder.face else order.face) := by
  let change := rereadOrder (ledger.records.insert newOrder.id newOrder) newOrder.price
  have sound := consistent.sound
  have amended : change target = newOrder := by
    simp only [change, rereadOrder, samePrice, ↓reduceIte, own, ExtTreeMap.getD_insert_self]
  have faces : ∀ order ∈ ledger.book.side newOrder.side, (change order).face =
      if order.id = newOrder.id then newOrder.face else order.face := by
    intro order member
    by_cases same : order.id = newOrder.id
    · obtain rfl : order = target := sound.eq_of_id_eq member inside (same.trans own.symm)
      rw [if_pos same, amended]
    · rw [if_neg same]
      exact consistent.face_rereadOrder member same newOrder.price
  have prices : ∀ order ∈ ledger.book.side newOrder.side,
      (change order).price = order.price := by
    intro order member
    by_cases same : order.id = newOrder.id
    · obtain rfl : order = target := sound.eq_of_id_eq member inside (same.trans own.symm)
      rw [amended, samePrice]
    · have kept := congrArg Order.price
        (consistent.face_rereadOrder member same newOrder.price)
      exact kept
  revert side
  refine Book.forall_side newOrder.side ?_ ?_
  · rw [reread, Book.side_setSide_same, group_map prices, List.map_map]
    apply List.map_congr_left
    intro order member
    exact faces order (mem_group.mp member).1
  · rw [reread, Book.side_opposite_setSide]
    apply List.map_congr_left
    intro order member
    have apart : order.id ≠ newOrder.id := by
      rw [← own]
      exact (sound.id_ne inside (mem_group.mp member).1).symm
    rw [if_neg apart]

/-- The queues once an order was taken out and another rests: the latter stands last. -/
theorem group_cancel_rest (sound : ledger.book.Sound) (newOrder : Order) (side : Side)
    (price : Price) :
    group (fun order : Order => order.price)
        (((ledger.book.cancel newOrder.id).rest newOrder).side side) price =
      (group (fun order : Order => order.price) (ledger.book.side side) price).filter
          (fun order => order.id != newOrder.id) ++
        if side = newOrder.side ∧ price = newOrder.price then [newOrder] else [] := by
  have ranked := (sound.cancel newOrder.id).ranked newOrder.side
  revert side
  refine Book.forall_side newOrder.side ?_ ?_
  · rw [Book.rest, Book.side_setSide_same, Book.group_arrive ranked, Book.side_cancel,
      group_filter]
    by_cases here : newOrder.price = price
    · rw [if_pos here, if_pos ⟨rfl, here.symm⟩]
    · rw [if_neg here, if_neg (fun both => here both.2.symm), List.append_nil]
  · have apart : newOrder.side.opposite ≠ newOrder.side := by cases newOrder.side <;> decide
    rw [Book.side_opposite_rest, Book.side_cancel, group_filter,
      if_neg (fun both => apart both.1), List.append_nil]

/-- What an accepted amendment does to the queues. -/
theorem Consistent.group_amend (consistent : ledger.Consistent) {own : Side}
    (inside : target ∈ ledger.book.side own) (sameId : target.id = newOrder.id)
    (clear : wouldCross ledger.book newOrder = false) :
    if newOrder.price = target.price ∧ newOrder.quantity ≤ target.quantity then
      newOrder.side = own ∧ ∀ side price,
        (group (fun order : Order => order.price) ((ledger.amend newOrder).book.side side)
          price).map Order.face =
            (group (fun order : Order => order.price) (ledger.book.side side) price).map
              (fun order => if order.id = newOrder.id then newOrder.face else order.face)
    else ∀ side price,
      group (fun order : Order => order.price) ((ledger.amend newOrder).book.side side) price =
        (group (fun order : Order => order.price) (ledger.book.side side) price).filter
            (fun order => order.id != newOrder.id) ++
          if side = newOrder.side ∧ price = newOrder.price then [newOrder] else [] := by
  have agrees := consistent.recordOf_face inside
  rw [sameId] at agrees
  have book : (ledger.amend newOrder).book =
      if newOrder.price = target.price ∧ newOrder.quantity ≤ target.quantity then
        reread ledger.book (ledger.records.insert newOrder.id newOrder) newOrder.side
          newOrder.price
      else (ledger.book.cancel newOrder.id).rest newOrder := by
    simp only [amend, agrees.price, agrees.quantity]
  rw [book]
  split
  · rename_i keeps
    have sameSide := OrderManager.side_eq_of_clear inside keeps.1 clear
    subst sameSide
    exact ⟨rfl, consistent.group_reread inside sameId keeps.1.symm⟩
  · exact group_cancel_rest consistent.sound newOrder

end Ledger

section Others

variable {M : Type} [RestingLevels M] {before after : M} {renewed : Order}

/-- An order with another id is an order of another face. -/
theorem map_face_filter (orders : List Order) (id : OrderId) :
    (orders.filter (fun order => order.id != id)).map Order.face =
      (orders.map Order.face).filter (fun order => order.id != id) := by
  rw [List.filter_map]
  rfl

/-- Keeping the place of one order keeps the others. -/
theorem KeepsPlace.keepsOthers (keeps : KeepsPlace before after renewed) :
    KeepsOthers before after renewed.id := by
  intro side price
  rw [map_face_filter, keeps side price, List.filter_map]
  have same : (fun order : Order => order.id != renewed.id) ∘
      (fun order : Order => if order.id = renewed.id then renewed.face else order.face) =
        fun order : Order => order.id != renewed.id := by
    funext order
    by_cases own : order.id = renewed.id
    · simp [own, Order.face]
    · simp [own, Order.face]
  rw [same]
  apply List.map_congr_left
  intro order member
  exact if_neg (by simpa using (List.mem_filter.mp member).2)

/-- Moving one order keeps the others. -/
theorem MovesToBack.keepsOthers (moves : MovesToBack before after renewed) :
    KeepsOthers before after renewed.id := by
  intro side price
  have gone : ([renewed.face] : List Order).filter (fun order => order.id != renewed.id) = [] := by
    simp [Order.face]
  rw [map_face_filter, moves side price, map_face_filter, List.filter_append, List.filter_filter]
  split
  · rw [gone]
    simp
  · simp

end Others

namespace OrderManager

section Lawful

variable {M : Type} [LawfulMatcher M] {manager : OrderManager M} {ledger : Ledger}

/-- A manager that keeps a ledger has an uncrossed book. -/
theorem Mirrors.uncrossed (mirrors : manager.Mirrors ledger) : Uncrossed manager.matcher := by
  have sound := mirrors.consistent.sound
  intro bid memberBid ask memberAsk
  rw [resting_eq mirrors.tracks.represents sound] at memberBid memberAsk
  exact sound.uncrossed bid memberBid ask memberAsk

/-- What an accepted amendment does to the queues. -/
theorem Mirrors.queues_amend (mirrors : manager.Mirrors ledger) {newOrder : Order}
    (held : ledger.holds newOrder.id = true) (positive : newOrder.quantity ≠ 0)
    (clear : Ledger.wouldCross ledger.book newOrder = false) :
    ∃ side, ∃ old ∈ resting manager.matcher side, old.id = newOrder.id ∧
      if newOrder.price = old.price ∧ newOrder.quantity ≤ old.quantity then
        newOrder.side = side ∧
          KeepsPlace manager.matcher (manager.amended newOrder).matcher newOrder
      else MovesToBack manager.matcher (manager.amended newOrder).matcher newOrder := by
  have sound := mirrors.consistent.sound
  have after := (mirrors.amend held positive clear).tracks.represents
  obtain ⟨side, target, member, own, _⟩ := mirrors.resting_of_holds held
  have queues := mirrors.consistent.group_amend member own clear
  refine ⟨side, target, ?_, own, ?_⟩
  · rw [resting_eq mirrors.tracks.represents sound]
    exact member
  · split
    · rename_i keeps
      rw [if_pos keeps] at queues
      refine ⟨queues.1, ?_⟩
      intro side price
      rw [queueAt_eq after, queueAt_eq mirrors.tracks.represents]
      exact queues.2 side price
    · rename_i moves
      rw [if_neg moves] at queues
      intro side price
      rw [queueAt_eq after, queueAt_eq mirrors.tracks.represents, queues, List.map_append]
      congr 1
      split <;> rfl

/-- The amended order rests under its new side and price. -/
theorem Mirrors.rests_amend (mirrors : manager.Mirrors ledger) {newOrder : Order}
    (held : ledger.holds newOrder.id = true) (positive : newOrder.quantity ≠ 0)
    (clear : Ledger.wouldCross ledger.book newOrder = false) :
    newOrder.face ∈ (queueAt (manager.amended newOrder).matcher newOrder.side
      newOrder.price).map Order.face := by
  have sound := mirrors.consistent.sound
  obtain ⟨side, old, member, own, queues⟩ := mirrors.queues_amend held positive clear
  split at queues
  · rename_i keeps
    obtain ⟨rfl, place⟩ := queues
    rw [place]
    rw [resting_eq mirrors.tracks.represents sound] at member
    refine List.mem_map.mpr ⟨old, ?_, if_pos own⟩
    rw [queueAt_eq mirrors.tracks.represents]
    exact mem_group.mpr ⟨member, keeps.1.symm⟩
  · rw [queues]
    simp

end Lawful

/-- `cancelReplace`, in every reachable state and over either matcher. A rejected call leaves the
manager and its matcher as they were. An accepted one executes no trade, keeps the other orders
and their order within each level, and leaves the book uncrossed; the order rests with what the
replacement asks for, where it stood when its price stays and its quantity is at most what was
left of it, and last in its new level otherwise. -/
theorem cancelReplace_semantics (allocator : SlabAllocator) (backend : MatcherBackend)
    (calls : List ManagerCall) (oldId : OrderId) (newOrder : Order) :
    let manager := (run callManager (init (Recorded.start (makeMatcher allocator backend)))
      calls).2
    let result := (manager.cancelReplace oldId newOrder).1
    let after := (manager.cancelReplace oldId newOrder).2
    (result.accepted = false → after = manager) ∧
      (result.accepted = true →
        after.matcher.executed = manager.matcher.executed ∧
        Uncrossed after.matcher ∧
        KeepsOthers manager.matcher after.matcher oldId ∧
        newOrder.id = oldId ∧
        newOrder.face ∈
          (queueAt after.matcher newOrder.side newOrder.price).map Order.face ∧
        ∃ side, ∃ old ∈ resting manager.matcher side, old.id = oldId ∧
          if newOrder.price = old.price ∧ newOrder.quantity ≤ old.quantity then
            newOrder.side = side ∧ KeepsPlace manager.matcher after.matcher newOrder
          else MovesToBack manager.matcher after.matcher newOrder) := by
  intro manager result after
  have mirrors : manager.Mirrors (run callLedger Ledger.empty calls).2 :=
    mirrors_run (M := Recorded Matcher) (Matcher.holds_makeMatcher allocator backend) calls
  rcases mirrors.cancelReplace_cases oldId newOrder with
    ⟨reason, refused, _⟩ | ⟨own, held, positive, clear, accepted, _⟩
  · have same : after = manager := congrArg Prod.snd refused
    have answer : result = .reject reason := congrArg Prod.fst refused
    refine ⟨fun _ => same, ?_⟩
    intro agreed
    rw [answer] at agreed
    simp [AcceptResult.reject] at agreed
  · subst own
    -- the replacement enters with a new status, which none of the facts below depends on
    let renewed : Order := { newOrder with status := .new }
    have same : after = manager.amended renewed := congrArg Prod.snd accepted
    have answer : result = .ok := congrArg Prod.fst accepted
    have amended : (manager.amended renewed).Mirrors _ := mirrors.amend held positive clear
    have rests : renewed.face ∈ (queueAt (manager.amended renewed).matcher renewed.side
        renewed.price).map Order.face := mirrors.rests_amend held positive clear
    have quiet : (manager.amended renewed).matcher.executed = manager.matcher.executed :=
      mirrors.executed_amend held positive clear
    obtain ⟨side, old, member, sameId, queues⟩ : ∃ side, ∃ old ∈ resting manager.matcher side,
        old.id = renewed.id ∧ if renewed.price = old.price ∧ renewed.quantity ≤ old.quantity then
          renewed.side = side ∧
            KeepsPlace manager.matcher (manager.amended renewed).matcher renewed
        else MovesToBack manager.matcher (manager.amended renewed).matcher renewed :=
      mirrors.queues_amend held positive clear
    have others : KeepsOthers manager.matcher (manager.amended renewed).matcher renewed.id := by
      split at queues
      · exact queues.2.keepsOthers
      · exact queues.keepsOthers
    rw [same]
    refine ⟨fun disagreed => by simp [answer, AcceptResult.ok] at disagreed, fun _ => ?_⟩
    exact ⟨quiet, amended.uncrossed, others, rfl, rests, side, old, member, sameId, queues⟩

/-- The first of two orders of a level is reduced: the call is accepted, and the reduced order keeps
its place before the second one. -/
theorem cancelReplace_semantics_reduced :
    let calls : List ManagerCall :=
      [.addOrder { id := 1, side := .sell, price := 10, quantity := 5, accountId := 7 },
        .addOrder { id := 2, side := .sell, price := 10, quantity := 4, accountId := 8 }]
    let manager := (run callManager (init (Recorded.start
      (makeMatcher (.consecutive 2 (by decide)) .optimized))) calls).2
    let reduced : Order := { id := 1, side := .sell, price := 10, quantity := 3, accountId := 9 }
    let answered := manager.cancelReplace 1 reduced
    answered.1.accepted = true ∧ answered.2.matcher.executed = manager.matcher.executed ∧
      Uncrossed answered.2.matcher ∧ KeepsOthers manager.matcher answered.2.matcher 1 ∧
      KeepsPlace manager.matcher answered.2.matcher reduced := by
  intro calls manager reduced answered
  have accepted : answered.1.accepted = true := by decide +kernel
  have stood : ∀ side, ∀ old ∈ resting manager.matcher side, old.id = 1 →
      reduced.price = old.price ∧ reduced.quantity ≤ old.quantity := by
    intro side
    cases side <;> decide +kernel
  obtain ⟨quiet, uncrossed, others, _, _, side, old, member, own, queues⟩ :=
    (cancelReplace_semantics (.consecutive 2 (by decide)) .optimized calls 1 reduced).2 accepted
  rw [if_pos (stood side old member own)] at queues
  exact ⟨accepted, quiet, uncrossed, others, queues.2⟩

end OrderManager

end Titan
