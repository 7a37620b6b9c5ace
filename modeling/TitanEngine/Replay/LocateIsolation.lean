import TitanEngine.Replay.AdapterCalls
import TitanEngine.Replay.ParityInvariant
import TitanEngine.Spec.Quotes
import TitanEngine.Spec.Twins

/-!
# Locates apart

All locates share one map from references to ids and one counter of synthetic ids. A session of
many locates shows of one locate what its own messages show, as long as no reference that is
introduced by a replacement on one locate appears on another, and no reference is a synthetic id.
Under that condition the instrument of the locate and its copy in the session of its own messages
are twins: they differ in the synthetic ids of executions, which never rest.
-/

namespace Titan

open Library Std

namespace ItchMessage

/-- The references of a message. -/
def references : ItchMessage → List OrderRefNumber
  | addOrder message => [message.orderReferenceNumber]
  | addOrderMpid message => [message.base.orderReferenceNumber]
  | orderExecuted message => [message.orderReferenceNumber]
  | orderExecutedWithPrice message => [message.base.orderReferenceNumber]
  | orderCancel message => [message.orderReferenceNumber]
  | orderDelete message => [message.orderReferenceNumber]
  | orderReplace message => [message.originalOrderReferenceNumber, message.newOrderReferenceNumber]
  | _ => []

/-- The reference a replacement introduces. -/
def replacementRef : ItchMessage → Option OrderRefNumber
  | orderReplace message => some message.newOrderReferenceNumber
  | _ => none

/-- A message of the locate, or a system event. -/
def seenBy (locate : StockLocate) : ItchMessage → Bool
  | systemEvent _ => true
  | message => extractLocate message == some locate

end ItchMessage

/-- Executions among some messages. -/
def executions (messages : List ItchMessage) : Nat :=
  (messages.filterMap ItchMessage.execution).length

/-- An id that no execution is entered under, when there are this many of them. -/
def Unsynthetic (count : Nat) (id : OrderId) : Prop :=
  id.toNat < firstSyntheticId.toNat ∨ firstSyntheticId.toNat + count ≤ id.toNat

instance (count : Nat) (id : OrderId) : Decidable (Unsynthetic count id) :=
  @instDecidableOr _ _ (Nat.decLt _ _) (Nat.decLe _ _)

/-- Each locate has one symbol, and no two share one. -/
def DistinctSymbols (messages : List ItchMessage) : Prop :=
  ∀ left ∈ messages.filterMap ItchMessage.registration,
    ∀ right ∈ messages.filterMap ItchMessage.registration, left.1 = right.1 ↔ left.2 = right.2

instance (messages : List ItchMessage) : Decidable (DistinctSymbols messages) :=
  inferInstanceAs (Decidable (∀ left ∈ messages.filterMap ItchMessage.registration,
    ∀ right ∈ messages.filterMap ItchMessage.registration, _))

/-- No locate introduces a reference twice. -/
def UniqueReferences (messages : List ItchMessage) : Prop :=
  (messages.filterMap (fun message =>
    message.introduction.map (fun ref => (extractLocate message, ref)))).Nodup

instance (messages : List ItchMessage) : Decidable (UniqueReferences messages) :=
  inferInstanceAs (Decidable (List.Nodup _))

/-- The references of each locate are apart from what the locates share. Only the messages are
looked at: a replacement that the engine refuses counts like any other, and so does a reference of
one instrument that is a synthetic id of another, so some sessions are left out in which the locates
do not meet. -/
structure ApartReferences (messages : List ItchMessage) : Prop where
  /-- A reference that a replacement introduces on one locate appears on no other. -/
  renamed : ∀ message ∈ messages, ∀ other ∈ messages,
    extractLocate message ≠ extractLocate other →
      ∀ ref ∈ message.replacementRef, ref ∉ other.references
  /-- No reference is a synthetic id. -/
  unsynthetic : ∀ message ∈ messages, ∀ ref ∈ message.references,
    Unsynthetic (executions messages) ref
  /-- The synthetic ids do not wrap. -/
  few : firstSyntheticId.toNat + executions messages < 2 ^ 64

instance (messages : List ItchMessage) : Decidable (ApartReferences messages) :=
  have renamed (message other : ItchMessage) :
      Decidable (extractLocate message ≠ extractLocate other →
        ∀ ref ∈ message.replacementRef, ref ∉ other.references) :=
    have : Decidable (∀ ref ∈ message.replacementRef, ref ∉ other.references) :=
      Option.decidableForallMem message.replacementRef
    inferInstanceAs (Decidable (_ → _))
  have : Decidable (∀ message ∈ messages, ∀ other ∈ messages,
      extractLocate message ≠ extractLocate other →
        ∀ ref ∈ message.replacementRef, ref ∉ other.references) :=
    @List.decidableBAll _ _ (fun message => @List.decidableBAll _ _ (renamed message) messages)
      messages
  have : Decidable (∀ message ∈ messages, ∀ ref ∈ message.references,
      Unsynthetic (executions messages) ref) :=
    @List.decidableBAll _ _
      (fun message => @List.decidableBAll _ _ inferInstance message.references) messages
  have : Decidable (firstSyntheticId.toNat + executions messages < 2 ^ 64) := Nat.decLt _ _
  decidable_of_iff (_ ∧ _ ∧ _)
    ⟨fun ⟨renamed, unsynthetic, few⟩ => ⟨renamed, unsynthetic, few⟩,
      fun apart => ⟨apart.renamed, apart.unsynthetic, apart.few⟩⟩

/-- Listings that are twins, whose ids are of the kind or below a bound. -/
structure Paired (own : OrderId → Prop) (below belowOther : Nat) (left right : Listing) : Prop where
  /-- The ledgers are twins. -/
  twins : Ledger.Twins own left.ledger right.ledger
  /-- The ids known on the left. -/
  known : ∀ id ∈ left.ledger.known, own id ∨ id.toNat < below
  /-- The ids known on the right. -/
  knownOther : ∀ id ∈ right.ledger.known, own id ∨ id.toNat < belowOther

/-- The bounds may grow. -/
theorem Paired.mono {own : OrderId → Prop} {below belowOther more moreOther : Nat}
    {left right : Listing} (pair : Paired own below belowOther left right) (le : below ≤ more)
    (leOther : belowOther ≤ moreOther) : Paired own more moreOther left right where
  twins := pair.twins
  known id member := (pair.known id member).imp_right (by omega)
  knownOther id member := (pair.knownOther id member).imp_right (by omega)

/-- So they may for listings that may be missing. -/
theorem rel_paired_mono {own : OrderId → Prop} {below belowOther more moreOther : Nat}
    {left right : Option Listing} (paired : Option.Rel (Paired own below belowOther) left right)
    (le : below ≤ more) (leOther : belowOther ≤ moreOther) :
    Option.Rel (Paired own more moreOther) left right := by
  cases paired with
  | none => exact .none
  | some pair => exact .some (pair.mono le leOther)

/-- A call that changes the book and, if it enters an id, enters one of the kind. -/
def RegistryCall.Enters (own : OrderId → Prop) : RegistryCall → Prop
  | createInstrument _ => True
  | submitOrder _ order => own order.id
  | cancelOrder _ _ => True
  | cancelReplace _ _ _ => True
  | matchOrder _ _ => False
  | snapshot _ _ => False

section Requests

variable {own : OrderId → Prop} {below belowOther : Nat} {left right : Option Listing}
  (paired : Option.Rel (Paired own below belowOther) left right)
  (consistent : ∀ listing, left = some listing → listing.ledger.Consistent)

include paired consistent

/-- A request that enters an id of the kind, or none, is answered alike. -/
theorem requestListing_paired (symbol : Symbol) (request : ManagerCall)
    (entered : ∀ id ∈ request.entry, own id) :
    (requestListing symbol left request).1 = (requestListing symbol right request).1 ∧
      Option.Rel (Paired own below belowOther) (requestListing symbol left request).2.1
        (requestListing symbol right request).2.1 := by
  cases paired with
  | none => exact ⟨rfl, .none⟩
  | some pair =>
    rename_i first second
    have step := pair.twins.call (consistent first rfl) request entered
    refine ⟨step.1, .some ⟨step.2, ?_, ?_⟩⟩
    · intro id member
      rcases ((first.ledger.step_of_call request).mem_known id).mp member with old | ⟨new, _⟩
      · exact pair.known id old
      · exact .inl (entered id new)
    · intro id member
      rcases ((second.ledger.step_of_call request).mem_known id).mp member with old | ⟨new, _⟩
      · exact pair.knownOther id old
      · exact .inl (entered id new)

/-- A call that enters an id of the kind, or none, is answered alike. -/
theorem callListing_paired (call : RegistryCall) (enters : call.Enters own) :
    (callListing left call).1 = (callListing right call).1 ∧
      Option.Rel (Paired own below belowOther) (callListing left call).2.1
        (callListing right call).2.1 := by
  cases call with
  | createInstrument symbol =>
    refine ⟨rfl, ?_⟩
    cases paired with
    | none =>
      refine .some ⟨Ledger.Twins.empty, ?_, ?_⟩
      · simp [Ledger.empty]
      · simp [Ledger.empty]
    | some pair => exact .some pair
  | submitOrder symbol order =>
    have entered : ∀ id ∈ (ManagerCall.addOrder order).entry, own id := by
      rintro id ⟨⟩
      exact enters
    have step := requestListing_paired paired consistent symbol (.addOrder order) entered
    exact ⟨congrArg (fun result => RegistryAnswer.accept (MatchResult.accept result)) step.1,
      step.2⟩
  | cancelOrder symbol id =>
    have enters_ : ∀ entered ∈ (ManagerCall.cancelOrder id).entry, own entered := by
      intro entered inside
      cases inside
    have step := requestListing_paired paired consistent symbol (.cancelOrder id) enters_
    exact ⟨congrArg (fun result => RegistryAnswer.accept (MatchResult.accept result)) step.1,
      step.2⟩
  | cancelReplace symbol oldId newOrder =>
    have enters_ : ∀ entered ∈ (ManagerCall.cancelReplace oldId newOrder).entry, own entered := by
      intro entered inside
      cases inside
    have step := requestListing_paired paired consistent symbol (.cancelReplace oldId newOrder)
      enters_
    exact ⟨congrArg (fun result => RegistryAnswer.accept (MatchResult.accept result)) step.1,
      step.2⟩
  | matchOrder symbol order => exact absurd enters id
  | snapshot symbol depth => exact absurd enters id

/-- An order that never rests is matched alike under the next foreign id of each. -/
theorem requestListing_foreign (symbol : Symbol) {order : Order} (never : order.mayRest = false)
    (foreign : ¬ own order.id) (next : order.id.toNat = below) {other : OrderId}
    (foreignOther : ¬ own other) (nextOther : other.toNat = belowOther) :
    let request := ManagerCall.matchOrder order
    let renamed := ManagerCall.matchOrder { order with id := other }
    ((requestListing symbol left request).1.trades.isEmpty =
        (requestListing symbol right renamed).1.trades.isEmpty) ∧
      Option.Rel (Paired own (below + 1) (belowOther + 1))
        (requestListing symbol left request).2.1 (requestListing symbol right renamed).2.1 := by
  intro request renamed
  cases paired with
  | none => exact ⟨rfl, .none⟩
  | some pair =>
    rename_i first second
    have new : order.id ∉ first.ledger.known := by
      intro member
      rcases pair.known order.id member with mine | less
      · exact foreign mine
      · omega
    have newOther : other ∉ second.ledger.known := by
      intro member
      rcases pair.knownOther other member with mine | less
      · exact foreignOther mine
      · omega
    have step := pair.twins.match_foreign (consistent first rfl) never foreign new foreignOther
      newOther
    refine ⟨step.1, .some ⟨step.2, ?_, ?_⟩⟩
    · intro id member
      rcases ((first.ledger.step_of_call request).mem_known id).mp member with old | ⟨same, _⟩
      · exact (pair.known id old).imp_right (by omega)
      · rw [← Option.some.inj same]
        exact .inr (by omega)
    · intro id member
      rcases ((second.ledger.step_of_call renamed).mem_known id).mp member with old | ⟨same, _⟩
      · exact (pair.knownOther id old).imp_right (by omega)
      · rw [← Option.some.inj same]
        exact .inr (by show other.toNat < _; omega)

end Requests

/-- The session, one of its locates and the symbol of that locate. -/
structure Place where
  /-- All messages of the session. -/
  messages : List ItchMessage
  /-- The locate. -/
  locate : StockLocate
  /-- Its symbol. -/
  symbol : Symbol
  /-- The locate is registered under the symbol. -/
  registered : (locate, symbol) ∈ messages.filterMap ItchMessage.registration
  /-- The symbols are distinct. -/
  distinct : DistinctSymbols messages
  /-- The references are apart. -/
  apart : ApartReferences messages

namespace Place

variable (place : Place)

/-- An id of the locate's own orders. -/
def Own (id : OrderId) : Prop := Unsynthetic (executions place.messages) id

/-- A message of the locate. -/
def Has (message : ItchMessage) : Prop :=
  message ∈ place.messages ∧ extractLocate message = some place.locate

/-- A reference that appears on the locate. -/
def Mine (ref : OrderRefNumber) : Prop := ∃ message, place.Has message ∧ ref ∈ message.references

/-- A reference that a replacement introduces on the locate. -/
def Renamed (ref : OrderRefNumber) : Prop :=
  ∃ message, place.Has message ∧ ref ∈ message.replacementRef

/-- The engine of the whole session and that of the locate's own messages agree on the locate. -/
structure Isolated (whole part : ItchEngineAdapter) (full own : Market) : Prop where
  /-- The one engine keeps its market. -/
  mirrors : whole.registry.Mirrors full
  /-- So does the other. -/
  mirrorsPart : part.registry.Mirrors own
  /-- The locate is registered in both or in neither. -/
  symbols : whole.symbols[place.locate]? = part.symbols[place.locate]?
  /-- It has no symbol but its own. -/
  named : ∀ symbol, part.symbols[place.locate]? = some symbol → symbol = place.symbol
  /-- No other locate has that symbol. -/
  others : ∀ other : StockLocate, other ≠ place.locate →
    whole.symbols[other]? ≠ some place.symbol
  /-- The instruments are twins. -/
  paired : Option.Rel
    (Paired place.Own whole.nextSyntheticId.toNat part.nextSyntheticId.toNat)
    (full.listings place.symbol) (own.listings place.symbol)
  /-- The references of the locate are mapped alike. -/
  ids : ∀ ref, place.Mine ref → whole.engineIdFor ref = part.engineIdFor ref
  /-- They are mapped to ids of its own orders. -/
  range : ∀ ref, place.Mine ref → place.Own (part.engineIdFor ref)
  /-- A reference that no replacement introduced on the locate is mapped to itself. -/
  plain : ∀ ref, ¬ place.Renamed ref → part.engineIdFor ref = ref
  /-- The synthetic ids of the part are not behind the first. -/
  first : firstSyntheticId.toNat ≤ part.nextSyntheticId.toNat
  /-- They are not ahead of those of the whole. -/
  ahead : part.nextSyntheticId.toNat ≤ whole.nextSyntheticId.toNat

/-- A message of the session; the synthetic ids are not used up when it executes. -/
def Admits (whole : ItchEngineAdapter) (message : ItchMessage) : Prop :=
  message ∈ place.messages ∧ (message.execution.isSome →
    whole.nextSyntheticId.toNat < firstSyntheticId.toNat + executions place.messages)

variable {place}

/-- Two engines without messages agree. -/
theorem isolated_init {registry registryPart : InstrumentRegistry}
    (mirrors : registry.Mirrors Market.empty) (mirrorsPart : registryPart.Mirrors Market.empty) :
    place.Isolated (ItchEngineAdapter.init registry) (ItchEngineAdapter.init registryPart)
      Market.empty Market.empty where
  mirrors := mirrors
  mirrorsPart := mirrorsPart
  symbols := by simp [ItchEngineAdapter.init]
  named symbol registered := by simp [ItchEngineAdapter.init] at registered
  others other _ := by simp [ItchEngineAdapter.init]
  paired := .none
  ids ref _ := rfl
  range ref mine := by
    obtain ⟨message, has, member⟩ := mine
    have same : (ItchEngineAdapter.init registryPart).engineIdFor ref = ref := by
      simp [ItchEngineAdapter.init, ItchEngineAdapter.engineIdFor]
    rw [same]
    exact place.apart.unsynthetic message has.1 ref member
  plain ref _ := by simp [ItchEngineAdapter.init, ItchEngineAdapter.engineIdFor]
  first := Nat.le_refl _
  ahead := Nat.le_refl _

/-- The locate is registered under its symbol, and no other locate is. -/
theorem registration_iff {message : StockDirectoryMessage}
    (listed : .stockDirectory message ∈ place.messages) :
    message.stockLocate = place.locate ↔ trimTrailingSpaces message.stock = place.symbol := by
  have member : (message.stockLocate, trimTrailingSpaces message.stock) ∈
      place.messages.filterMap ItchMessage.registration :=
    List.mem_filterMap.mpr ⟨_, listed, rfl⟩
  exact place.distinct _ member _ place.registered

/-- An id that is not the last one has a successor. -/
theorem toNat_succ {id : OrderId} (inside : id.toNat + 1 < 2 ^ 64) :
    UInt64.toNat (id + 1) = id.toNat + 1 := by
  rw [UInt64.toNat_add]
  exact Nat.mod_eq_of_lt inside

/-- What a reference is mapped to once another was mapped. -/
theorem getD_insert_ref (ids : IdMap OrderId) (ref : OrderRefNumber) (id : OrderId)
    (other : OrderRefNumber) :
    (ids.insert ref id).getD other other = if ref = other then id else ids.getD other other := by
  rw [ExtTreeMap.getD_insert]
  by_cases same : ref = other
  · rw [if_pos (by simpa using same), if_pos same]
  · rw [if_neg (by simpa using same), if_neg same]

namespace Isolated

variable {whole part : ItchEngineAdapter} {full own : Market}

/-- A reference of the locate has one record. -/
theorem findOrder (isolated : place.Isolated whole part full own) {ref : OrderRefNumber}
    (mine : place.Mine ref) {symbol : Symbol}
    (registered : part.symbols[place.locate]? = some symbol) :
    whole.registry.findOrder symbol (whole.engineIdFor ref) =
      part.registry.findOrder symbol (part.engineIdFor ref) := by
  rw [isolated.named symbol registered, isolated.ids ref mine, isolated.mirrors.findOrder,
    isolated.mirrorsPart.findOrder, Market.findOrder, Market.findOrder]
  have paired := isolated.paired
  revert paired
  generalize full.listings place.symbol = left
  generalize own.listings place.symbol = right
  intro paired
  cases paired with
  | none => rfl
  | some pair => exact pair.twins.records _ (isolated.range ref mine)

/-- A message of the locate maps its references alike. -/
theorem idsAfter_eq (isolated : place.Isolated whole part full own) {message : ItchMessage}
    (has : place.Has message) {ref : OrderRefNumber} (mine : place.Mine ref) (succeeded : Bool) :
    (whole.idsAfter message succeeded).getD ref ref =
      (part.idsAfter message succeeded).getD ref ref := by
  have same : whole.engineIdForRef.getD ref ref = part.engineIdForRef.getD ref ref :=
    isolated.ids ref mine
  cases message with
  | addOrder message =>
    simp only [ItchEngineAdapter.idsAfter, getD_insert_ref, same]
  | addOrderMpid message =>
    simp only [ItchEngineAdapter.idsAfter, getD_insert_ref, same]
  | orderReplace message =>
    have original := isolated.ids message.originalOrderReferenceNumber
      ⟨_, has, List.mem_cons_self⟩
    cases succeeded with
    | true => simp only [ItchEngineAdapter.idsAfter, ↓reduceIte, getD_insert_ref, original, same]
    | false => exact same
  | _ => exact same

/-- They are mapped to ids of its own orders. -/
theorem idsAfter_own (isolated : place.Isolated whole part full own) {message : ItchMessage}
    (has : place.Has message) {ref : OrderRefNumber} (mine : place.Mine ref) (succeeded : Bool) :
    place.Own ((part.idsAfter message succeeded).getD ref ref) := by
  have old : place.Own (part.engineIdForRef.getD ref ref) := isolated.range ref mine
  cases message with
  | addOrder message =>
    simp only [ItchEngineAdapter.idsAfter, getD_insert_ref]
    split
    · exact place.apart.unsynthetic _ has.1 _ List.mem_cons_self
    · exact old
  | addOrderMpid message =>
    simp only [ItchEngineAdapter.idsAfter, getD_insert_ref]
    split
    · exact place.apart.unsynthetic _ has.1 _ List.mem_cons_self
    · exact old
  | orderReplace message =>
    cases succeeded with
    | true =>
      simp only [ItchEngineAdapter.idsAfter, ↓reduceIte, getD_insert_ref]
      split
      · exact isolated.range _ ⟨_, has, List.mem_cons_self⟩
      · exact old
    | false => exact old
  | _ => exact old

/-- A reference that no replacement introduces stays mapped to itself. -/
theorem idsAfter_plain (isolated : place.Isolated whole part full own) {message : ItchMessage}
    (has : place.Has message) {ref : OrderRefNumber} (unnamed : ¬ place.Renamed ref)
    (succeeded : Bool) : (part.idsAfter message succeeded).getD ref ref = ref := by
  have old : part.engineIdForRef.getD ref ref = ref := isolated.plain ref unnamed
  cases message with
  | addOrder message => simp [ItchEngineAdapter.idsAfter, getD_insert_ref, old]
  | addOrderMpid message => simp [ItchEngineAdapter.idsAfter, getD_insert_ref, old]
  | orderReplace message =>
    have other : message.newOrderReferenceNumber ≠ ref :=
      fun same => unnamed ⟨_, has, congrArg some same⟩
    cases succeeded with
    | true => simp [ItchEngineAdapter.idsAfter, getD_insert_ref, old, other]
    | false => exact old
  | _ => exact old

/-- Both engines made a call for the symbol of the locate and it was answered alike. -/
theorem called (isolated : place.Isolated whole part full own) {message : ItchMessage}
    (has : place.Has message) {call callPart : RegistryCall} (symbol : call.symbol = place.symbol)
    (symbolPart : callPart.symbol = place.symbol)
    (succeeded : (callRegistry whole.registry call).1.succeeded =
      (callRegistry part.registry callPart).1.succeeded)
    (paired : Option.Rel
      (Paired place.Own (whole.nextIdAfter call).toNat (part.nextIdAfter callPart).toNat)
      (callListing (full.listings place.symbol) call).2.1
      (callListing (own.listings place.symbol) callPart).2.1)
    (first : firstSyntheticId.toNat ≤ (part.nextIdAfter callPart).toNat)
    (ahead : (part.nextIdAfter callPart).toNat ≤ (whole.nextIdAfter call).toNat) :
    place.Isolated (whole.called message call).2 (part.called message callPart).2
      (callMarket full call).2 (callMarket own callPart).2 := by
  obtain ⟨listed, located⟩ := has
  constructor
  · exact (isolated.mirrors.call call).2
  · exact (isolated.mirrorsPart.call callPart).2
  · show (whole.symbolsAfter message)[place.locate]? = (part.symbolsAfter message)[place.locate]?
    cases message with
    | stockDirectory message =>
      simp only [ItchEngineAdapter.symbolsAfter, ExtTreeMap.getElem?_insert, isolated.symbols]
    | _ => exact isolated.symbols
  · intro name
    show (part.symbolsAfter message)[place.locate]? = some name → name = place.symbol
    cases message with
    | stockDirectory message =>
      intro present
      have here : message.stockLocate = place.locate := Option.some.inj located
      rw [ItchEngineAdapter.symbolsAfter, here, ExtTreeMap.getElem?_insert_self,
        Option.some.injEq] at present
      rw [← present]
      exact (registration_iff listed).mp here
    | _ => exact isolated.named name
  · intro other different
    show (whole.symbolsAfter message)[other]? ≠ some place.symbol
    cases message with
    | stockDirectory message =>
      have here : message.stockLocate = place.locate := Option.some.inj located
      rw [ItchEngineAdapter.symbolsAfter, here, ExtTreeMap.getElem?_insert,
        if_neg (by simpa using Ne.symm different)]
      exact isolated.others other different
    | _ => exact isolated.others other different
  · have moves := (full.callMarket_moves call).2.listings
    have movesPart := (own.callMarket_moves callPart).2.listings
    rw [symbol] at moves
    rw [symbolPart] at movesPart
    rw [moves, movesPart, Function.update_self, Function.update_self]
    exact paired
  · intro ref mine
    show (whole.idsAfter message (callRegistry whole.registry call).1.succeeded).getD ref ref =
      (part.idsAfter message (callRegistry part.registry callPart).1.succeeded).getD ref ref
    rw [succeeded]
    exact isolated.idsAfter_eq ⟨listed, located⟩ mine _
  · intro ref mine
    exact isolated.idsAfter_own ⟨listed, located⟩ mine _
  · intro ref unnamed
    exact isolated.idsAfter_plain ⟨listed, located⟩ unnamed _
  · exact first
  · exact ahead

/-- The listing of the locate's symbol is consistent. -/
theorem consistent (isolated : place.Isolated whole part full own) (listing : Listing)
    (listed : full.listings place.symbol = some listing) : listing.ledger.Consistent :=
  isolated.mirrors.consistent listed

/-- Both engines made the same call, which enters an id of the locate's own orders or none. -/
theorem same_call (isolated : place.Isolated whole part full own) {message : ItchMessage}
    (has : place.Has message) {call : RegistryCall} (symbol : call.symbol = place.symbol)
    (enters : call.Enters place.Own) :
    (callRegistry whole.registry call).1 = (callRegistry part.registry call).1 ∧
      place.Isolated (whole.called message call).2 (part.called message call).2
        (callMarket full call).2 (callMarket own call).2 := by
  have alike := callListing_paired isolated.paired isolated.consistent call enters
  have answer : (callRegistry whole.registry call).1 = (callRegistry part.registry call).1 := by
    rw [(isolated.mirrors.call call).1, (isolated.mirrorsPart.call call).1,
      (full.callMarket_moves call).1, (own.callMarket_moves call).1, symbol]
    exact alike.1
  have next : ∀ adapter : ItchEngineAdapter,
      adapter.nextIdAfter call = adapter.nextSyntheticId := by
    intro adapter
    cases call <;> first | rfl | exact absurd enters id
  refine ⟨answer, isolated.called has symbol symbol (by rw [answer]) ?_ ?_ ?_⟩
  · rw [next, next]
    exact alike.2
  · rw [next]
    exact isolated.first
  · rw [next, next]
    exact isolated.ahead

/-- The engines answered a message alike and agree afterwards. -/
def Follows (place : Place) (whole part : ItchEngineAdapter) (message : ItchMessage) : Prop :=
  (whole.apply message).1 = (part.apply message).1 ∧
    ∃ full own, place.Isolated (whole.apply message).2 (part.apply message).2 full own

/-- A message that makes the same call of both engines, or none. -/
theorem follows_same (isolated : place.Isolated whole part full own) {message : ItchMessage}
    (has : place.Has message) (same : whole.callFor message = part.callFor message)
    (continues : message.endsSession = false)
    (enters : ∀ call ∈ part.callFor message, call.Enters place.Own) :
    Follows place whole part message := by
  unfold Follows
  cases makes : part.callFor message with
  | none =>
    rw [makes] at same
    rw [whole.apply_idle_eq same, part.apply_idle_eq makes, continues]
    exact ⟨rfl, full, own, isolated⟩
  | some call =>
    rw [makes] at same
    have symbol : call.symbol = place.symbol := by
      obtain ⟨locate, located, registered⟩ := ItchEngineAdapter.symbol_callFor makes
      rw [has.2, Option.some.injEq] at located
      subst located
      cases message with
      | stockDirectory message =>
        have here : message.stockLocate = place.locate := Option.some.inj has.2
        rw [ItchEngineAdapter.symbolsAfter, here, ExtTreeMap.getElem?_insert_self,
          Option.some.injEq] at registered
        rw [← registered]
        exact (registration_iff has.1).mp here
      | _ => exact isolated.named _ registered
    have step := isolated.same_call has symbol (enters call makes)
    rw [whole.apply_call same, part.apply_call makes]
    exact ⟨congrArg RegistryAnswer.succeeded step.1, _, _, step.2⟩

/-- An add of the locate. -/
theorem addCall_same (isolated : place.Isolated whole part full own) {message : AddOrderMessage}
    (here : message.stockLocate = place.locate) :
    whole.addCall message = part.addCall message := by
  simp only [ItchEngineAdapter.addCall, here, isolated.symbols]

/-- An add of the locate enters its reference. -/
theorem addCall_enters (adapter : ItchEngineAdapter) {message : AddOrderMessage}
    {whole : ItchMessage} (has : place.Has whole)
    (named : whole.references = [message.orderReferenceNumber]) :
    ∀ call ∈ adapter.addCall message, call.Enters place.Own := by
  intro call makes
  obtain ⟨symbol, _, rfl⟩ := ItchEngineAdapter.addCall_eq_some_iff.mp makes
  exact place.apart.unsynthetic whole has.1 _ (by rw [named]; exact List.mem_cons_self)

/-- A message of the locate that executes nothing. -/
theorem follows_unexecuted (isolated : place.Isolated whole part full own)
    {message : ItchMessage} (has : place.Has message) (unexecuted : message.execution = none)
    (continues : message.endsSession = false) : Follows place whole part message := by
  have ids : ∀ ref ∈ message.references, whole.engineIdFor ref = part.engineIdFor ref :=
    fun ref member => isolated.ids ref ⟨message, has, member⟩
  have record : ∀ ref ∈ message.references, ∀ symbol, part.symbols[place.locate]? = some symbol →
      whole.registry.findOrder symbol (part.engineIdFor ref) =
        part.registry.findOrder symbol (part.engineIdFor ref) := by
    intro ref member symbol registered
    rw [← isolated.findOrder ⟨message, has, member⟩ registered, ids ref member]
  cases message with
  | systemEvent message => exact isolated.follows_same has rfl continues nofun
  | timestampSeconds message => exact isolated.follows_same has rfl continues nofun
  | stockDirectory message =>
    refine isolated.follows_same has rfl continues ?_
    rintro call ⟨⟩
    trivial
  | addOrder message =>
    exact isolated.follows_same has (isolated.addCall_same (Option.some.inj has.2)) continues
      (addCall_enters part has rfl)
  | addOrderMpid message =>
    exact isolated.follows_same has (isolated.addCall_same (Option.some.inj has.2)) continues
      (addCall_enters part has rfl)
  | orderExecuted message => simp [ItchMessage.execution] at unexecuted
  | orderExecutedWithPrice message => simp [ItchMessage.execution] at unexecuted
  | orderCancel message =>
    have here : message.stockLocate = place.locate := Option.some.inj has.2
    refine isolated.follows_same has ?_ continues ?_
    · simp only [ItchEngineAdapter.callFor, ItchEngineAdapter.cancelCall, here, isolated.symbols,
        ids message.orderReferenceNumber List.mem_cons_self]
      refine Option.bind_congr (fun symbol registered => ?_)
      rw [record _ List.mem_cons_self symbol registered]
    · intro call makes
      obtain ⟨symbol, _, existing, _, rfl⟩ := ItchEngineAdapter.cancelCall_eq_some_iff.mp makes
      split <;> trivial
  | orderDelete message =>
    have here : message.stockLocate = place.locate := Option.some.inj has.2
    refine isolated.follows_same has ?_ continues ?_
    · simp only [ItchEngineAdapter.callFor, ItchEngineAdapter.deleteCall, here, isolated.symbols,
        ids message.orderReferenceNumber List.mem_cons_self]
    · intro call makes
      obtain ⟨symbol, _, rfl⟩ := ItchEngineAdapter.deleteCall_eq_some_iff.mp makes
      trivial
  | orderReplace message =>
    have here : message.stockLocate = place.locate := Option.some.inj has.2
    refine isolated.follows_same has ?_ continues ?_
    · simp only [ItchEngineAdapter.callFor, ItchEngineAdapter.replaceCall, here, isolated.symbols,
        ids message.originalOrderReferenceNumber List.mem_cons_self]
      refine Option.bind_congr (fun symbol registered => ?_)
      rw [record _ List.mem_cons_self symbol registered]
    · intro call makes
      obtain ⟨symbol, _, existing, _, rfl⟩ := ItchEngineAdapter.replaceCall_eq_some_iff.mp makes
      trivial

/-- An execution of the locate is carried out alike. -/
theorem follows_executed (isolated : place.Isolated whole part full own) {message : ItchMessage}
    (has : place.Has message) {ref : OrderRefNumber} (member : ref ∈ message.references)
    {executedShares : UInt32} {executionPrice : Option UInt32}
    (makes : ∀ adapter : ItchEngineAdapter, adapter.callFor message =
      adapter.executionCall place.locate ref executedShares executionPrice)
    (continues : message.endsSession = false)
    (left : whole.nextSyntheticId.toNat <
      firstSyntheticId.toNat + executions place.messages) :
    Follows place whole part message := by
  have mine : place.Mine ref := ⟨message, has, member⟩
  have first := isolated.first
  have ahead := isolated.ahead
  have few := place.apart.few
  have wholeCall := makes whole
  have partCall := makes part
  unfold Follows
  cases registered : part.symbols[place.locate]? with
  | none =>
    simp only [ItchEngineAdapter.executionCall, isolated.symbols, registered] at wholeCall partCall
    rw [whole.apply_idle_eq wholeCall, part.apply_idle_eq partCall, continues]
    exact ⟨rfl, full, own, isolated⟩
  | some symbol =>
    have same := isolated.findOrder mine registered
    simp only [ItchEngineAdapter.executionCall, isolated.symbols, registered, same,
      Option.bind_eq_bind, Option.bind_some, Option.pure_def] at wholeCall partCall
    cases found : part.registry.findOrder symbol (part.engineIdFor ref) with
    | none =>
      simp only [found, Option.bind_none] at wholeCall partCall
      rw [whole.apply_idle_eq wholeCall, part.apply_idle_eq partCall, continues]
      exact ⟨rfl, full, own, isolated⟩
    | some existing =>
      simp only [found, Option.bind_some] at wholeCall partCall
      obtain rfl := isolated.named symbol registered
      let taker := ItchEngineAdapter.syntheticOrder whole.nextSyntheticId existing executedShares
        executionPrice
      have foreign : ¬ place.Own taker.id := by
        show ¬ Unsynthetic _ whole.nextSyntheticId
        unfold Unsynthetic
        omega
      have foreignPart : ¬ place.Own part.nextSyntheticId := by
        show ¬ Unsynthetic _ part.nextSyntheticId
        unfold Unsynthetic
        omega
      have step := requestListing_foreign isolated.paired isolated.consistent place.symbol rfl
        foreign rfl foreignPart rfl
      have answer := (isolated.mirrors.matchOrder place.symbol taker).1
      have answerPart := (isolated.mirrorsPart.matchOrder place.symbol
        { taker with id := part.nextSyntheticId }).1
      rw [(full.call_moves _ _).1] at answer
      rw [(own.call_moves _ _).1] at answerPart
      have succeeded : (callRegistry whole.registry (.matchOrder place.symbol taker)).1.succeeded =
          (callRegistry part.registry (.matchOrder place.symbol
            { taker with id := part.nextSyntheticId })).1.succeeded := by
        show (!(whole.registry.matchOrder place.symbol taker).1.isEmpty) =
          !(part.registry.matchOrder place.symbol { taker with id := part.nextSyntheticId }).1.isEmpty
        rw [answer, answerPart, step.1]
      have next : (whole.nextSyntheticId + 1).toNat = whole.nextSyntheticId.toNat + 1 :=
        toNat_succ (by omega)
      have nextPart : (part.nextSyntheticId + 1).toNat = part.nextSyntheticId.toNat + 1 :=
        toNat_succ (by omega)
      rw [whole.apply_call wholeCall, part.apply_call partCall]
      refine ⟨succeeded, _, _, isolated.called has rfl rfl succeeded ?_ ?_ ?_⟩
      · show Option.Rel (Paired place.Own (whole.nextSyntheticId + 1).toNat
          (part.nextSyntheticId + 1).toNat) _ _
        rw [next, nextPart]
        exact step.2
      · show firstSyntheticId.toNat ≤ (part.nextSyntheticId + 1).toNat
        omega
      · show (part.nextSyntheticId + 1).toNat ≤ (whole.nextSyntheticId + 1).toNat
        omega

/-- A message that the locate sees. -/
theorem follows_seen (isolated : place.Isolated whole part full own) {message : ItchMessage}
    (admitted : place.Admits whole message) (seen : message.seenBy place.locate = true) :
    Follows place whole part message := by
  obtain ⟨listed, left⟩ := admitted
  cases message with
  | systemEvent message =>
    unfold Follows
    rw [whole.apply_idle_eq rfl, part.apply_idle_eq rfl]
    refine ⟨rfl, ?_⟩
    dsimp only
    split
    · exact ⟨_, _, isolated_init (InstrumentRegistry.Mirrors.reset whole.registry)
        (InstrumentRegistry.Mirrors.reset part.registry)⟩
    · exact ⟨full, own, isolated⟩
  | orderExecuted message =>
    have has : place.Has (.orderExecuted message) := ⟨listed, eq_of_beq seen⟩
    have here : message.stockLocate = place.locate := Option.some.inj has.2
    have makes : ∀ adapter : ItchEngineAdapter, adapter.callFor (.orderExecuted message) =
        adapter.executionCall place.locate message.orderReferenceNumber message.executedShares
          none := by
      intro adapter
      rw [← here]
      rfl
    exact isolated.follows_executed has List.mem_cons_self makes rfl (left rfl)
  | orderExecutedWithPrice message =>
    have has : place.Has (.orderExecutedWithPrice message) := ⟨listed, eq_of_beq seen⟩
    have here : message.base.stockLocate = place.locate := Option.some.inj has.2
    have makes : ∀ adapter : ItchEngineAdapter, adapter.callFor (.orderExecutedWithPrice message) =
        adapter.executionCall place.locate message.base.orderReferenceNumber message.base.executedShares
          (some message.executionPrice) := by
      intro adapter
      rw [← here]
      rfl
    exact isolated.follows_executed has List.mem_cons_self makes rfl (left rfl)
  | _ => exact isolated.follows_unexecuted ⟨listed, eq_of_beq seen⟩ rfl rfl

/-- A message of another locate maps no reference of this one. -/
theorem idsAfter_other (isolated : place.Isolated whole part full own) {message : ItchMessage}
    (listed : message ∈ place.messages) (elsewhere : extractLocate message ≠ some place.locate)
    {ref : OrderRefNumber} (mine : place.Mine ref) (succeeded : Bool) :
    (whole.idsAfter message succeeded).getD ref ref = part.engineIdFor ref := by
  have old : whole.engineIdForRef.getD ref ref = part.engineIdFor ref := isolated.ids ref mine
  -- a reference that another locate names was introduced by no replacement of this one
  have plain : ref ∈ message.references → part.engineIdFor ref = ref := by
    intro named
    refine isolated.plain ref ?_
    rintro ⟨replacement, has, introduces⟩
    refine place.apart.renamed replacement has.1 message listed ?_ ref introduces named
    rw [has.2]
    exact Ne.symm elsewhere
  cases message with
  | addOrder message =>
    simp only [ItchEngineAdapter.idsAfter, getD_insert_ref]
    split
    · rename_i same
      rw [same, plain (by rw [← same]; exact List.mem_cons_self)]
    · exact old
  | addOrderMpid message =>
    simp only [ItchEngineAdapter.idsAfter, getD_insert_ref]
    split
    · rename_i same
      rw [same, plain (by rw [← same]; exact List.mem_cons_self)]
    · exact old
  | orderReplace message =>
    obtain ⟨naming, has, member⟩ := mine
    have other : message.newOrderReferenceNumber ≠ ref := by
      intro same
      refine place.apart.renamed _ listed naming has.1 ?_ ref (congrArg some same) member
      rw [has.2]
      exact elsewhere
    cases succeeded with
    | true =>
      simp only [ItchEngineAdapter.idsAfter, ↓reduceIte, getD_insert_ref, other]
      exact old
    | false => exact old
  | _ => exact old

/-- A message that the locate does not see changes nothing of it. -/
theorem unseen (isolated : place.Isolated whole part full own) {message : ItchMessage}
    (admitted : place.Admits whole message) (unseen : message.seenBy place.locate = false) :
    ∃ full', place.Isolated (whole.apply message).2 part full' own := by
  obtain ⟨listed, left⟩ := admitted
  have few := place.apart.few
  have continues : message.endsSession = false := by
    cases message with
    | systemEvent message => nomatch unseen
    | _ => rfl
  have elsewhere : extractLocate message ≠ some place.locate := by
    cases message with
    | systemEvent message => nomatch unseen
    | _ => exact ne_of_beq_false unseen
  cases makes : whole.callFor message with
  | none =>
    rw [whole.apply_idle makes, continues]
    exact ⟨full, isolated⟩
  | some call =>
    obtain ⟨locate, located, registered⟩ := ItchEngineAdapter.symbol_callFor makes
    have away : locate ≠ place.locate := by
      intro same
      rw [located, same] at elsewhere
      exact elsewhere rfl
    have others : ∀ other : StockLocate, other ≠ place.locate →
        (whole.symbolsAfter message)[other]? ≠ some place.symbol := by
      intro other different
      cases message with
      | stockDirectory message =>
        rw [ItchEngineAdapter.symbolsAfter, ExtTreeMap.getElem?_insert]
        split
        · intro named
          rw [Option.some.injEq, ← registration_iff listed] at named
          exact elsewhere (congrArg some named)
        · exact isolated.others other different
      | _ => exact isolated.others other different
    have symbol : call.symbol ≠ place.symbol := by
      intro same
      rw [same] at registered
      exact others locate away registered
    have moves := (full.callMarket_moves call).2.listings
    have next : whole.nextSyntheticId.toNat ≤ (whole.nextIdAfter call).toNat := by
      rw [ItchEngineAdapter.nextIdAfter_callFor makes]
      split
      · rename_i executes
        have before := left executes
        rw [toNat_succ (by omega)]
        omega
      · exact Nat.le_refl _
    rw [whole.apply_call makes]
    refine ⟨(callMarket full call).2, ?_⟩
    constructor
    · exact (isolated.mirrors.call call).2
    · exact isolated.mirrorsPart
    · show (whole.symbolsAfter message)[place.locate]? = part.symbols[place.locate]?
      cases message with
      | stockDirectory message =>
        have apart : message.stockLocate ≠ place.locate :=
          fun same => elsewhere (congrArg some same)
        rw [ItchEngineAdapter.symbolsAfter, ExtTreeMap.getElem?_insert,
          if_neg (by simpa using apart)]
        exact isolated.symbols
      | _ => exact isolated.symbols
    · exact isolated.named
    · exact others
    · rw [moves, Function.update_of_ne (Ne.symm symbol)]
      exact rel_paired_mono isolated.paired next (Nat.le_refl _)
    · exact fun ref mine => isolated.idsAfter_other listed elsewhere mine _
    · exact isolated.range
    · exact isolated.plain
    · exact isolated.first
    · exact Nat.le_trans isolated.ahead next

/-- Engines that agree on the locate show the same levels of it. -/
theorem snapshot (isolated : place.Isolated whole part full own) (depth : Nat) :
    (whole.snapshot place.locate depth).1.bids = (part.snapshot place.locate depth).1.bids ∧
      (whole.snapshot place.locate depth).1.asks = (part.snapshot place.locate depth).1.asks := by
  unfold ItchEngineAdapter.snapshot
  rw [isolated.symbols]
  cases registered : part.symbols[place.locate]? with
  | none => exact ⟨rfl, rfl⟩
  | some symbol =>
    obtain rfl := isolated.named symbol registered
    show (whole.registry.snapshot place.symbol depth).1.bids =
        (part.registry.snapshot place.symbol depth).1.bids ∧
      (whole.registry.snapshot place.symbol depth).1.asks =
        (part.registry.snapshot place.symbol depth).1.asks
    rw [(isolated.mirrors.snapshot _ _).1, (isolated.mirrorsPart.snapshot _ _).1, Market.snapshot,
      Market.snapshot]
    have paired := isolated.paired
    revert paired
    generalize full.listings place.symbol = left
    generalize own.listings place.symbol = right
    intro paired
    cases paired with
    | none => exact ⟨rfl, rfl⟩
    | some pair => exact ⟨by simp only [pair.twins.book], by simp only [pair.twins.book]⟩

end Isolated

/-- The synthetic ids last for the executions of the session. -/
theorem admits_run (place : Place) {rest : List ItchMessage}
    (inside : ∀ message ∈ rest, message ∈ place.messages) {adapter : ItchEngineAdapter}
    (count : adapter.nextSyntheticId.toNat + executions rest ≤
      firstSyntheticId.toNat + executions place.messages)
    (fewer : executions rest ≤ executions place.messages) :
    Admissible place.Admits ItchEngineAdapter.apply adapter rest := by
  induction rest generalizing adapter with
  | nil => trivial
  | cons message rest ih =>
    have few := place.apart.few
    have more : executions (message :: rest) =
        (if message.execution.isSome then 1 else 0) + executions rest := by
      cases executes : message.execution <;> simp [executions, executes, Nat.add_comm]
    refine ⟨⟨inside message List.mem_cons_self, ?_⟩,
      ih (fun later member => inside later (List.mem_cons_of_mem message member)) ?_ (by omega)⟩
    · intro executes
      rw [more, if_pos executes] at count
      omega
    · cases makes : adapter.callFor message with
      | none =>
        rw [adapter.apply_idle makes]
        split
        · show firstSyntheticId.toNat + _ ≤ _
          omega
        · omega
      | some call =>
        rw [adapter.apply_call makes]
        show (adapter.nextIdAfter call).toNat + _ ≤ _
        rw [ItchEngineAdapter.nextIdAfter_callFor makes]
        split
        · rename_i executes
          rw [more, if_pos executes] at count
          rw [toNat_succ (by omega)]
          omega
        · omega

end Place

namespace ItchEngineAdapter

/-- A message that does not register a locate gives it no symbol. -/
theorem unregistered_apply {adapter : ItchEngineAdapter} {message : ItchMessage}
    {locate : StockLocate} (never : ∀ symbol, message.registration ≠ some (locate, symbol))
    (absent : adapter.symbols[locate]? = none) :
    (adapter.apply message).2.symbols[locate]? = none := by
  cases makes : adapter.callFor message with
  | none =>
    rw [adapter.apply_idle makes]
    split
    · simp [reset]
    · exact absent
  | some call =>
    rw [adapter.apply_call makes]
    show (adapter.symbolsAfter message)[locate]? = none
    cases message with
    | stockDirectory message =>
      have apart : message.stockLocate ≠ locate := by
        intro same
        exact never (trimTrailingSpaces message.stock) (by rw [ItchMessage.registration, same])
      rw [symbolsAfter, ExtTreeMap.getElem?_insert, if_neg (by simpa using apart)]
      exact absent
    | _ => exact absent

/-- A locate that is never registered has no symbol. -/
theorem unregistered_run {adapter : ItchEngineAdapter} {messages : List ItchMessage}
    {locate : StockLocate}
    (never : ∀ message ∈ messages, ∀ symbol, message.registration ≠ some (locate, symbol))
    (absent : adapter.symbols[locate]? = none) :
    (run apply adapter messages).2.symbols[locate]? = none := by
  induction messages generalizing adapter with
  | nil => exact absent
  | cons message rest ih =>
    exact ih (fun later member => never later (List.mem_cons_of_mem message member))
      (unregistered_apply (never message List.mem_cons_self) absent)

/-- A session of several locates, whose references are apart from what the locates share, shows of
each locate what its own messages and the system events show. -/
theorem locate_isolation (allocator otherAllocator : SlabAllocator) (backend : MatcherBackend)
    (messages : List ItchMessage) (distinct : DistinctSymbols messages)
    (apart : ApartReferences messages) (locate : StockLocate) (depth : Nat) :
    let whole := (run apply (init (InstrumentRegistry.init allocator backend)) messages).2
    let own := (run apply (init (InstrumentRegistry.init otherAllocator backend))
      (messages.filter (ItchMessage.seenBy locate))).2
    (whole.snapshot locate depth).1.bids = (own.snapshot locate depth).1.bids ∧
      (whole.snapshot locate depth).1.asks = (own.snapshot locate depth).1.asks := by
  intro whole own
  by_cases known : ∃ symbol, (locate, symbol) ∈ messages.filterMap ItchMessage.registration
  · obtain ⟨symbol, registered⟩ := known
    let place : Place := { messages, locate, symbol, registered, distinct, apart }
    have start : ∃ full part, place.Isolated (init (InstrumentRegistry.init allocator backend))
        (init (InstrumentRegistry.init otherAllocator backend)) full part :=
      ⟨_, _, Place.isolated_init (InstrumentRegistry.mirrors_init allocator backend)
        (InstrumentRegistry.mirrors_init otherAllocator backend)⟩
    have admitted : Admissible place.Admits apply (init (InstrumentRegistry.init allocator backend))
        messages :=
      place.admits_run (fun _ member => member) (Nat.le_refl _) (Nat.le_refl _)
    have seen : ∀ left right message, (∃ full part, place.Isolated left right full part) →
        place.Admits left message → message.seenBy locate = true →
        Place.Isolated.Follows place left right message := by
      rintro left right message ⟨full, part, isolated⟩ admits seen
      exact isolated.follows_seen admits seen
    have unseen : ∀ left right message, (∃ full part, place.Isolated left right full part) →
        place.Admits left message → message.seenBy locate = false →
        ∃ full part, place.Isolated (apply left message).2 right full part := by
      rintro left right message ⟨full, part, isolated⟩ admits hidden
      obtain ⟨moved, kept⟩ := isolated.unseen admits hidden
      exact ⟨moved, part, kept⟩
    obtain ⟨_, full, part, isolated⟩ := run_filter (ItchMessage.seenBy locate)
      (fun whole own => ∃ full part, place.Isolated whole own full part) seen unseen start admitted
    exact isolated.snapshot depth
  · have never : ∀ message ∈ messages, ∀ symbol,
        message.registration ≠ some (locate, symbol) :=
      fun message member symbol same => known ⟨symbol, List.mem_filterMap.mpr ⟨_, member, same⟩⟩
    have absent : whole.symbols[locate]? = none := unregistered_run never (by simp [init])
    have absentOwn : own.symbols[locate]? = none :=
      unregistered_run (fun message member => never message (List.mem_of_mem_filter member))
        (by simp [init])
    simp only [snapshot, absent, absentOwn]
    exact ⟨trivial, trivial⟩

/-- A bid of ten shares at 100. -/
def bidOn (locate : StockLocate) (ref : OrderRefNumber) : ItchMessage :=
  .addOrder { (default : AddOrderMessage) with
    stockLocate := locate, orderReferenceNumber := ref, buySellIndicator := 0x42, shares := 10,
    price := 100 }

/-- Locates 1 and 2 are registered, and an order of locate 1 is replaced: reference 5 becomes 7. -/
def replacedOnOne : List ItchMessage :=
  [listingOf 1 65,
    listingOf 2 66,
    bidOn 1 5,
    .orderReplace { (default : OrderReplaceMessage) with
      stockLocate := 1, originalOrderReferenceNumber := 5, newOrderReferenceNumber := 7,
      shares := 3, price := 99 }]

/-- The replaced order is deleted. -/
def deleteOnOne : ItchMessage :=
  .orderDelete { (default : OrderDeleteMessage) with stockLocate := 1, orderReferenceNumber := 7 }

/-- Both locates use reference 5, and orders of both are executed. -/
def sharedReference : List ItchMessage :=
  replacedOnOne ++ [bidOn 2 5,
    .orderExecuted { (default : OrderExecutedMessage) with
      stockLocate := 1, orderReferenceNumber := 7, executedShares := 1 },
    .orderExecuted { (default : OrderExecutedMessage) with
      stockLocate := 2, orderReferenceNumber := 5, executedShares := 4 }, deleteOnOne]

/-- Locate 2 shows the six shares that are left of its order. -/
theorem locate_isolation_shared_reference :
    ((run apply (init (InstrumentRegistry.init (.consecutive 2 (by decide)) .optimized))
        sharedReference).2.snapshot 2 5).1.bids = [⟨100, 6⟩] ∧
      ((run apply (init (InstrumentRegistry.init (.consecutive 2 (by decide)) .optimized))
          sharedReference).2.snapshot 2 5).1.bids =
        ((run apply (init (InstrumentRegistry.init (.consecutive 2 (by decide)) .optimized))
          (sharedReference.filter (ItchMessage.seenBy 2))).2.snapshot 2 5).1.bids := by
  have apart : ApartReferences sharedReference := by decide
  refine ⟨by decide, ?_⟩
  exact (locate_isolation (.consecutive 2 (by decide)) (.consecutive 2 (by decide)) .optimized
    sharedReference (by decide) apart 2 5).1

/-- An add on locate 2 under the reference of the replaced order: the delete on locate 1 no longer
finds that order. -/
theorem add_elsewhere_hides_replaced_order :
    let messages := replacedOnOne ++ [bidOn 2 7, deleteOnOne]
    let start := init (InstrumentRegistry.init (.consecutive 2 (by decide)) .reference)
    DistinctSymbols messages ∧ UniqueReferences messages ∧
      ((run apply start messages).2.snapshot 1 5).1.bids = [⟨99, 3⟩] ∧
      ((run apply start (messages.filter (ItchMessage.seenBy 1))).2.snapshot 1 5).1.bids = [] := by
  intro messages start
  refine ⟨by decide, by decide, by decide, by decide⟩

end ItchEngineAdapter

end Titan
