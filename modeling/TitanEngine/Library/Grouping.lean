import Std.Data.ExtTreeMap
import Mathlib.Data.List.Induction

/-!
# Lists grouped into ordered maps

An ordered map from keys to queues is one way to store a list: each key that occurs is
mapped to the entries with that key, in list order, and no key is mapped to an empty queue.
`Groups` says that a map stores a list in this way, after a view of each queue. Such a map is
determined by the list. When the list is ordered by key, walking the map in key order and
each queue from its front gives the list back, and the first entry of the map holds the head
of the list. Both directions of the key order are covered.
-/

namespace Library

open Std

variable {α β κ : Type*}

/-- The entries with one key, in list order. -/
def group [DecidableEq κ] (key : α → κ) (entries : List α) (k : κ) : List α :=
  entries.filter (fun entry => decide (key entry = k))

/-- A queue a map would store: an empty one is left out. -/
def occupied : List α → Option (List α)
  | [] => none
  | first :: rest => some (first :: rest)

@[simp] theorem occupied_nil : occupied ([] : List α) = none := rfl

@[simp] theorem occupied_cons (first : α) (rest : List α) :
    occupied (first :: rest) = some (first :: rest) := rfl

/-- A stored queue is nonempty. -/
theorem occupied_eq_some_iff {queue stored : List α} :
    occupied queue = some stored ↔ queue = stored ∧ stored ≠ [] := by
  cases queue with
  | nil => simp
  | cons first rest =>
    simp only [occupied_cons, Option.some.injEq]
    constructor
    · rintro rfl
      exact ⟨rfl, List.cons_ne_nil _ _⟩
    · exact fun both => both.1

/-- A nonempty queue is stored as it is. -/
theorem occupied_of_ne_nil {queue : List α} (nonempty : queue ≠ []) :
    occupied queue = some queue := occupied_eq_some_iff.mpr ⟨rfl, nonempty⟩

/-- Reading a stored queue back, with the empty queue for an absent one. -/
@[simp] theorem getD_occupied (queue : List α) : (occupied queue).getD [] = queue := by
  cases queue <;> rfl

/-- Whether a queue is stored does not depend on what it holds. -/
theorem occupied_map (f : α → β) (queue : List α) :
    occupied (queue.map f) = (occupied queue).map (List.map f) := by
  cases queue <;> rfl

section Group

variable [DecidableEq κ] {key : α → κ}

@[simp] theorem mem_group {entries : List α} {entry : α} {k : κ} :
    entry ∈ group key entries k ↔ entry ∈ entries ∧ key entry = k := by
  simp [group]

@[simp] theorem group_nil (k : κ) : group key [] k = [] := rfl

/-- The head of a list is the head of its own group. -/
theorem group_cons_self (key : α → κ) (first : α) (rest : List α) :
    group key (first :: rest) (key first) = first :: group key rest (key first) := by
  simp [group]

/-- The head of a list is in no other group. -/
theorem group_cons_of_ne (key : α → κ) {first : α} {k : κ} (other : key first ≠ k) (rest : List α) :
    group key (first :: rest) k = group key rest k := by
  simp [group, other]

theorem group_append (front back : List α) (k : κ) :
    group key (front ++ back) k = group key front k ++ group key back k := by
  simp [group]

/-- Dropping entries by a filter commutes with taking a group. -/
theorem group_filter (keep : α → Bool) (entries : List α) (k : κ) :
    group key (entries.filter keep) k = (group key entries k).filter keep := by
  simp [group, List.filter_filter, Bool.and_comm]

/-- A map of the entries that keeps their keys acts on each group. -/
theorem group_map {change : α → α} {entries : List α}
    (same : ∀ entry ∈ entries, key (change entry) = key entry) (k : κ) :
    group key (entries.map change) k = (group key entries k).map change := by
  rw [group, List.filter_map, group]
  congr 1
  apply List.filter_congr
  intro entry member
  simp only [Function.comp_apply, same entry member]

/-- Entries of one key in front of all others split off as a prefix. -/
private theorem filter_append_filter_not (keep : α → Bool) (entries : List α)
    (ordered : entries.Pairwise (fun first later => keep later = true → keep first = true)) :
    entries.filter keep ++ entries.filter (fun entry => !keep entry) = entries := by
  induction entries with
  | nil => rfl
  | cons first rest ih =>
    obtain ⟨front, tail⟩ := List.pairwise_cons.mp ordered
    cases choice : keep first with
    | true => simp [choice, ih tail]
    | false =>
      have none : rest.filter keep = [] := by
        rw [List.filter_eq_nil_iff]
        intro other member kept
        simpa [choice] using front other member kept
      have all : rest.filter (fun entry => !keep entry) = rest := by
        rw [List.filter_eq_self]
        intro other member
        cases kept : keep other with
        | false => rfl
        | true => simpa [choice] using front other member kept
      simp [choice, none, all]

/-- Walking the keys in an order that the list respects, each group in turn, gives the list. -/
theorem flatMap_group (before : κ → κ → Prop) (strict : ∀ k, ¬ before k k) {keys : List κ}
    (sorted : keys.Pairwise before) {entries : List α}
    (ordered : entries.Pairwise (fun first later => ¬ before (key later) (key first)))
    (covered : ∀ entry ∈ entries, key entry ∈ keys) :
    keys.flatMap (group key entries) = entries := by
  induction keys generalizing entries with
  | nil =>
    cases entries with
    | nil => rfl
    | cons first rest => exact absurd (covered first List.mem_cons_self) List.not_mem_nil
  | cons k keys ih =>
    obtain ⟨least, tail⟩ := List.pairwise_cons.mp sorted
    have behind : ∀ entry ∈ entries, key entry ≠ k → before k (key entry) := by
      intro entry member other
      rcases List.mem_cons.mp (covered entry member) with equal | inside
      · exact absurd equal other
      · exact least _ inside
    have split := filter_append_filter_not (fun entry => decide (key entry = k)) entries (by
        refine List.Pairwise.imp_of_mem ?_ ordered
        intro first later memberFirst _ apart equal
        simp only [decide_eq_true_eq] at equal ⊢
        by_contra other
        exact apart (equal ▸ behind first memberFirst other))
    let others := entries.filter (fun entry => !decide (key entry = k))
    have rest : keys.flatMap (group key others) = others := by
      refine ih tail (List.Pairwise.sublist List.filter_sublist ordered) ?_
      intro entry member
      simp only [others, List.mem_filter, Bool.not_eq_true', decide_eq_false_iff_not] at member
      rcases List.mem_cons.mp (covered entry member.1) with equal | inside
      · exact absurd equal member.2
      · exact inside
    have same : keys.flatMap (group key entries) = keys.flatMap (group key others) := by
      rw [List.flatMap_def, List.flatMap_def]
      congr 1
      refine List.map_congr_left ?_
      intro other inside
      have apart : other ≠ k := fun equal => strict k (equal ▸ least other inside)
      simp only [others, group_filter]
      rw [List.filter_eq_self.mpr]
      intro entry member
      simp [(mem_group.mp member).2, apart]
    rw [List.flatMap_cons, same, rest]
    exact split

end Group

section Maps

variable [DecidableEq κ] [Ord κ] [TransOrd κ] [LawfulEqOrd κ]

/-- The map stores the list, each queue seen through a view. -/
def Groups (key : α → κ) (view : List α → β) (entries : List α) (levels : ExtTreeMap κ β) : Prop :=
  ∀ k, levels[k]? = (occupied (group key entries k)).map view

variable {key : α → κ} {view : List α → β} {entries : List α} {levels : ExtTreeMap κ β}

/-- A list and a view determine the map that stores it. -/
theorem Groups.unique {other : ExtTreeMap κ β} (left : Groups key view entries levels)
    (right : Groups key view entries other) : levels = other :=
  ExtTreeMap.ext_getElem? (fun k => by rw [left k, right k])

/-- The empty list is stored by the empty map only. -/
theorem Groups.eq_empty (grouped : Groups key view [] levels) : levels = ∅ := by
  apply ExtTreeMap.ext_getElem?
  intro k
  rw [grouped k]
  simp

/-- A map that stores the list stores any further view of its queues. -/
theorem Groups.map {γ : Type*} (grouped : Groups key view entries levels) (further : β → γ) :
    Groups key (further ∘ view) entries (levels.map (fun _ queue => further queue)) := by
  intro k
  rw [ExtTreeMap.getElem?_map, grouped k, Option.map_map]

omit [LawfulEqOrd κ] in
/-- Only keys that occur in the list are in the map. -/
theorem Groups.mem_iff (grouped : Groups key view entries levels) (k : κ) :
    k ∈ levels ↔ ∃ entry ∈ entries, key entry = k := by
  rw [ExtTreeMap.mem_iff_isSome_getElem?, grouped k, Option.isSome_map]
  cases queue : group key entries k with
  | nil =>
    simp only [occupied_nil, Option.isSome_none, Bool.false_eq_true, false_iff, not_exists]
    rintro entry ⟨member, equal⟩
    have inside : entry ∈ group key entries k := mem_group.mpr ⟨member, equal⟩
    simp [queue] at inside
  | cons first rest =>
    simp only [occupied_cons, Option.isSome_some, true_iff]
    exact ⟨first, mem_group.mp (queue ▸ List.mem_cons_self)⟩

/-- Every walked entry is a key of the list with its viewed queue. -/
theorem Groups.mem_toList (grouped : Groups key view entries levels) {k : κ} {queue : β} :
    (k, queue) ∈ levels.toList ↔
      group key entries k ≠ [] ∧ view (group key entries k) = queue := by
  rw [ExtTreeMap.mem_toList_iff_getElem?_eq_some, grouped k]
  cases group key entries k <;> simp

/-- The first entry of a map that stores a list ordered by key holds the head's queue. -/
theorem Groups.head?_toList {first : α} {rest : List α}
    (grouped : Groups key view (first :: rest) levels)
    (least : ∀ entry ∈ rest, compare (key entry) (key first) ≠ .lt) :
    levels.toList.head? = some (key first, view (group key (first :: rest) (key first))) := by
  have stored : (key first, view (group key (first :: rest) (key first))) ∈ levels.toList :=
    grouped.mem_toList.mpr ⟨by simp [group_cons_self], rfl⟩
  have sorted := ExtTreeMap.ordered_keys_toList (t := levels)
  cases walk : levels.toList with
  | nil => simp [walk] at stored
  | cons head tail =>
    rw [walk] at stored sorted
    rcases List.mem_cons.mp stored with equal | inside
    · rw [← equal]; rfl
    · -- a smaller key at the front would have to occur in the list behind its least key
      exfalso
      have smaller := (List.pairwise_cons.mp sorted).1 _ inside
      have occurs : head.1 ∈ levels := by
        rw [← ExtTreeMap.mem_keys, ← ExtTreeMap.map_fst_toList_eq_keys, walk]
        simp
      obtain ⟨entry, member, equal⟩ := (grouped.mem_iff head.1).mp occurs
      rw [← equal] at smaller
      rcases List.mem_cons.mp member with rfl | member
      · simp at smaller
      · exact least entry member smaller

/-- The last entry of a map that stores a list ordered backwards by key holds the head's
queue. -/
theorem Groups.getLast?_toList {first : α} {rest : List α}
    (grouped : Groups key view (first :: rest) levels)
    (greatest : ∀ entry ∈ rest, compare (key first) (key entry) ≠ .lt) :
    levels.toList.getLast? =
      some (key first, view (group key (first :: rest) (key first))) := by
  have stored : (key first, view (group key (first :: rest) (key first))) ∈ levels.toList :=
    grouped.mem_toList.mpr ⟨by simp [group_cons_self], rfl⟩
  have sorted := List.pairwise_reverse.mpr (ExtTreeMap.ordered_keys_toList (t := levels))
  rw [← List.head?_reverse]
  rw [← List.mem_reverse] at stored
  cases walk : levels.toList.reverse with
  | nil => simp [walk] at stored
  | cons head tail =>
    rw [walk] at stored sorted
    rcases List.mem_cons.mp stored with equal | inside
    · rw [← equal]; rfl
    · exfalso
      have greater := (List.pairwise_cons.mp sorted).1 _ inside
      have occurs : head.1 ∈ levels := by
        rw [← ExtTreeMap.mem_keys, ← ExtTreeMap.map_fst_toList_eq_keys, ← List.mem_reverse,
          ← List.map_reverse, walk]
        simp
      obtain ⟨entry, member, equal⟩ := (grouped.mem_iff head.1).mp occurs
      rw [← equal] at greater
      rcases List.mem_cons.mp member with rfl | member
      · simp at greater
      · exact greatest entry member greater

/-- The walked queues are the groups of the walked keys. -/
private theorem Groups.flatMap_walk {queues : ExtTreeMap κ (List α)}
    (grouped : Groups key id entries queues) {walk : List (κ × List α)}
    (inside : ∀ entry ∈ walk, entry ∈ queues.toList) :
    walk.flatMap Prod.snd = (walk.map Prod.fst).flatMap (group key entries) := by
  rw [List.flatMap_map, List.flatMap_def, List.flatMap_def]
  congr 1
  refine List.map_congr_left ?_
  rintro ⟨k, queue⟩ member
  exact ((grouped.mem_toList.mp (inside _ member)).2).symm

/-- Walking a map of queues upwards gives back a list ordered by key. -/
theorem Groups.flatMap_toList {queues : ExtTreeMap κ (List α)}
    (grouped : Groups key id entries queues)
    (ordered : entries.Pairwise
      (fun first later => compare (key later) (key first) ≠ .lt)) :
    queues.toList.flatMap Prod.snd = entries := by
  rw [grouped.flatMap_walk (fun entry member => member)]
  refine flatMap_group (fun a b => compare a b = .lt) (by simp) ?_ ordered ?_
  · exact List.pairwise_map.mpr ExtTreeMap.ordered_keys_toList
  · intro entry member
    rw [ExtTreeMap.map_fst_toList_eq_keys, ExtTreeMap.mem_keys]
    exact (grouped.mem_iff _).mpr ⟨entry, member, rfl⟩

/-- Walking a map of queues downwards gives back a list ordered backwards by key. -/
theorem Groups.flatMap_reverse_toList {queues : ExtTreeMap κ (List α)}
    (grouped : Groups key id entries queues)
    (ordered : entries.Pairwise
      (fun first later => compare (key first) (key later) ≠ .lt)) :
    queues.toList.reverse.flatMap Prod.snd = entries := by
  rw [grouped.flatMap_walk (fun entry member => List.mem_reverse.mp member)]
  refine flatMap_group (fun a b => compare b a = .lt) (by simp) ?_ ordered ?_
  · rw [List.pairwise_map, List.pairwise_reverse]
    exact ExtTreeMap.ordered_keys_toList
  · intro entry member
    rw [List.map_reverse, List.mem_reverse, ExtTreeMap.map_fst_toList_eq_keys,
      ExtTreeMap.mem_keys]
    exact (grouped.mem_iff _).mpr ⟨entry, member, rfl⟩

omit [DecidableEq κ] [LawfulEqOrd κ] in
/-- Store a queue under its key, dropping the key when the queue is empty. -/
def store (queues : ExtTreeMap κ (List α)) (k : κ) (queue : List α) : ExtTreeMap κ (List α) :=
  if queue.isEmpty then queues.erase k else queues.insert k queue

/-- What is stored under a key after a queue was stored. -/
theorem getElem?_store (queues : ExtTreeMap κ (List α)) (k : κ) (queue : List α) (other : κ) :
    (store queues k queue)[other]? = if k = other then occupied queue else queues[other]? := by
  cases queue with
  | nil => simp [store, ExtTreeMap.getElem?_erase]
  | cons first rest => simp [store, ExtTreeMap.getElem?_insert]

/-- The map that stores a list, built from its front. -/
def collect (key : α → κ) (entries : List α) : ExtTreeMap κ (List α) :=
  entries.foldl (fun levels entry =>
    levels.insert (key entry) (levels.getD (key entry) [] ++ [entry])) ∅

/-- Appending an entry to its queue stores the list with the entry at its end. -/
theorem Groups.insert_append {queues : ExtTreeMap κ (List α)}
    (grouped : Groups key id entries queues) (entry : α) :
    Groups key id (entries ++ [entry])
      (queues.insert (key entry) (queues.getD (key entry) [] ++ [entry])) := by
  intro k
  rw [ExtTreeMap.getElem?_insert, group_append]
  by_cases equal : key entry = k
  · subst equal
    have queue : queues.getD (key entry) [] = group key entries (key entry) := by
      rw [ExtTreeMap.getD_eq_getD_getElem?, grouped]
      simp
    simp [queue, group, occupied_of_ne_nil]
  · have other : group key [entry] k = [] := by simp [group, equal]
    rw [if_neg (by simpa using equal), other, List.append_nil]
    exact grouped k

/-- The collected map stores the list. -/
theorem groups_collect (key : α → κ) (entries : List α) :
    Groups key id entries (collect key entries) := by
  induction entries using List.reverseRecOn with
  | nil =>
    intro k
    simp [collect]
  | append_singleton entries entry ih =>
    rw [collect, List.foldl_append]
    exact ih.insert_append entry

end Maps

end Library
