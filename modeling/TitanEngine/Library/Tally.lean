import Mathlib.Algebra.Order.BigOperators.Group.Finset
import Mathlib.Algebra.Order.BigOperators.Group.List
import Mathlib.Algebra.Order.Monoid.Canonical.Defs
import Mathlib.Algebra.Order.Ring.Nat
import Mathlib.Data.List.Nodup
import Mathlib.Data.List.Perm.Subperm
import Mathlib.Data.UInt
import TitanEngine.Library.Grouping

/-!
# Tallies in ordered maps

An ordered map from keys to 64-bit words tallies the counts of its keys when it stores every
nonzero count and nothing else. Counts are raised and lowered one key at a time. A list of
weighted entries has a tally: the total weight of each key. It does not depend on the order of
the list, and a map that keeps it is a view of the queues of the list.
-/

namespace Library

open Std

variable {α κ : Type*}

section Counts

variable [DecidableEq κ] [Ord κ] [TransOrd κ] [LawfulEqOrd κ]

/-- The map stores the nonzero counts. -/
def Tallies (counts : κ → Nat) (entries : ExtTreeMap κ UInt64) : Prop :=
  ∀ k, entries[k]? = if counts k = 0 then none else some (UInt64.ofNat (counts k))

variable {counts : κ → Nat} {entries : ExtTreeMap κ UInt64}

omit [DecidableEq κ] [LawfulEqOrd κ] in
/-- The empty map tallies nothing. -/
theorem tallies_empty : Tallies (fun _ : κ => 0) (∅ : ExtTreeMap κ UInt64) := by
  intro k
  simp

/-- A nonzero count is stored under its key. -/
theorem Tallies.insert (tallies : Tallies counts entries) (k : κ) {count : Nat}
    (nonzero : count ≠ 0) :
    Tallies (Function.update counts k count) (entries.insert k (UInt64.ofNat count)) := by
  intro other
  rw [ExtTreeMap.getElem?_insert]
  by_cases same : k = other
  · subst same
    simp [nonzero]
  · rw [if_neg (by simpa using same), Function.update_of_ne (Ne.symm same)]
    exact tallies other

/-- A key whose count is zero is dropped. -/
theorem Tallies.erase (tallies : Tallies counts entries) (k : κ) :
    Tallies (Function.update counts k 0) (entries.erase k) := by
  intro other
  rw [ExtTreeMap.getElem?_erase]
  by_cases same : k = other
  · subst same
    simp
  · rw [if_neg (by simpa using same), Function.update_of_ne (Ne.symm same)]
    exact tallies other

omit [DecidableEq κ] [LawfulEqOrd κ] in
/-- Reading a key, with zero for an absent one, reads its count. -/
theorem Tallies.getD (tallies : Tallies counts entries) (k : κ) :
    entries.getD k 0 = UInt64.ofNat (counts k) := by
  rw [ExtTreeMap.getD_eq_getD_getElem?, tallies k]
  by_cases zero : counts k = 0
  · rw [if_pos zero, zero]
    rfl
  · rw [if_neg zero]
    rfl

/-- Adding to a stored word raises the count. -/
theorem Tallies.raise (tallies : Tallies counts entries) (k : κ) {amount : UInt64}
    (positive : amount ≠ 0) :
    Tallies (Function.update counts k (counts k + amount.toNat))
      (entries.insert k (entries.getD k 0 + amount)) := by
  have nonzero : counts k + amount.toNat ≠ 0 := by
    have some : amount.toNat ≠ 0 := fun zero => positive (UInt64.toNat_inj.mp zero)
    omega
  have stored : entries.getD k 0 + amount = UInt64.ofNat (counts k + amount.toNat) := by
    rw [tallies.getD k, UInt64.ofNat_add, UInt64.ofNat_toNat]
  rw [stored]
  exact tallies.insert k nonzero

/-- Taking an amount off a stored word lowers the count; nothing is stored for zero. -/
theorem Tallies.lower (tallies : Tallies counts entries) (k : κ) {amount : UInt64}
    (covered : amount.toNat ≤ counts k) (bounded : counts k < 2 ^ 64) :
    Tallies (Function.update counts k (counts k - amount.toNat))
      (match entries[k]? with
      | none => entries
      | some held =>
        if amount ≥ held then entries.erase k else entries.insert k (held - amount)) := by
  rw [tallies k]
  by_cases zero : counts k = 0
  · rw [if_pos zero]
    have same : Function.update counts k (counts k - amount.toNat) = counts := by
      rw [zero, Nat.zero_sub, ← zero, Function.update_eq_self]
    rw [same]
    exact tallies
  · have held : (UInt64.ofNat (counts k)).toNat = counts k := UInt64.toNat_ofNat_of_lt' bounded
    rw [if_neg zero]
    show Tallies _ (if amount ≥ UInt64.ofNat (counts k) then _ else _)
    by_cases all : amount ≥ UInt64.ofNat (counts k)
    · have reached := UInt64.le_iff_toNat_le.mp all
      rw [if_pos all, show counts k - amount.toNat = 0 by omega]
      exact tallies.erase k
    · have short : amount.toNat < counts k := by
        have below := UInt64.lt_iff_toNat_lt.mp (UInt64.not_le.mp all)
        omega
      have left : UInt64.ofNat (counts k) - amount = UInt64.ofNat (counts k - amount.toNat) := by
        rw [UInt64.ofNat_sub covered, UInt64.ofNat_toNat]
      rw [if_neg all, left]
      exact tallies.insert k (by omega)

/-- The map reads as the counts, with zero for an absent key. A key whose count is zero may be
stored. -/
def Reads (counts : κ → Nat) (entries : ExtTreeMap κ UInt64) : Prop :=
  ∀ k, (entries.getD k 0).toNat = counts k

omit [DecidableEq κ] [LawfulEqOrd κ] in
/-- The empty map reads as zero. -/
theorem reads_empty : Reads (fun _ : κ => 0) (∅ : ExtTreeMap κ UInt64) := by
  intro k
  rw [ExtTreeMap.getD_empty]
  rfl

/-- What is stored under a key is read from it alone. -/
theorem Reads.insert (reads : Reads counts entries) (k : κ) (word : UInt64) :
    Reads (Function.update counts k word.toNat) (entries.insert k word) := by
  intro other
  rw [ExtTreeMap.getD_insert]
  by_cases same : k = other
  · subst same
    simp
  · rw [if_neg (by simpa using same), Function.update_of_ne (Ne.symm same)]
    exact reads other

/-- A key that is dropped reads as zero. -/
theorem Reads.erase (reads : Reads counts entries) (k : κ) :
    Reads (Function.update counts k 0) (entries.erase k) := by
  intro other
  rw [ExtTreeMap.getD_erase]
  by_cases same : k = other
  · subst same
    simp
  · rw [if_neg (by simpa using same), Function.update_of_ne (Ne.symm same)]
    exact reads other

/-- Adding to a word that has room raises its count. -/
theorem Reads.raise (reads : Reads counts entries) (k : κ) {amount : UInt64}
    (room : counts k + amount.toNat < 2 ^ 64) :
    Reads (Function.update counts k (counts k + amount.toNat))
      (entries.insert k (entries.getD k 0 + amount)) := by
  have exact_ : (entries.getD k 0 + amount).toNat = counts k + amount.toNat := by
    rw [UInt64.toNat_add, reads k, Nat.mod_eq_of_lt room]
  rw [← exact_]
  exact reads.insert k _

/-- Taking off a word no more than it reads lowers its count. -/
theorem Reads.lower (reads : Reads counts entries) (k : κ) {amount : UInt64}
    (covered : amount.toNat ≤ counts k) :
    Reads (Function.update counts k (counts k - amount.toNat))
      (match entries[k]? with
      | none => entries
      | some held =>
        if amount ≥ held then entries.erase k else entries.insert k (held - amount)) := by
  have read := reads k
  rw [ExtTreeMap.getD_eq_getD_getElem?] at read
  cases stored : entries[k]? with
  | none =>
    rw [stored] at read
    have zero : counts k = 0 := read.symm
    have same : Function.update counts k (counts k - amount.toNat) = counts := by
      rw [zero, Nat.zero_sub, ← zero, Function.update_eq_self]
    rw [same]
    exact reads
  | some held =>
    rw [stored] at read
    have whole : held.toNat = counts k := read
    show Reads _ (if amount ≥ held then _ else _)
    by_cases all : amount ≥ held
    · have reached := UInt64.le_iff_toNat_le.mp all
      rw [if_pos all, show counts k - amount.toNat = 0 by omega]
      exact reads.erase k
    · have short : amount ≤ held := UInt64.le_of_lt (UInt64.not_le.mp all)
      rw [if_neg all, ← whole, ← UInt64.toNat_sub_of_le _ _ short]
      exact reads.insert k _

end Counts

section Weights

variable [DecidableEq κ]

/-- The total weight of each key of a list. -/
def tally (key : α → κ) (weight : α → UInt64) (entries : List α) (k : κ) : Nat :=
  ((group key entries k).map (fun entry => (weight entry).toNat)).sum

variable {key : α → κ} {weight : α → UInt64}

/-- Without entries no key has a weight. -/
@[simp] theorem tally_nil : tally key weight [] = fun _ => 0 := rfl

/-- One more entry adds its weight to its key. -/
theorem tally_cons (entry : α) (entries : List α) :
    tally key weight (entry :: entries) =
      Function.update (tally key weight entries) (key entry)
        (tally key weight entries (key entry) + (weight entry).toNat) := by
  funext k
  by_cases same : key entry = k
  · subst same
    rw [Function.update_self, tally, group_cons_self, List.map_cons, List.sum_cons, Nat.add_comm]
    rfl
  · rw [Function.update_of_ne (Ne.symm same), tally, group_cons_of_ne key same]
    rfl

/-- A tally does not depend on the order of the list. -/
theorem tally_perm {left right : List α} (same : left.Perm right) :
    tally key weight left = tally key weight right := by
  funext k
  exact ((same.filter _).map _).sum_eq

/-- Entries that are read through a function are tallied as what it gives. -/
theorem tally_comp {β : Type*} (read : β → α) (entries : List β) :
    tally (fun entry => key (read entry)) (fun entry => weight (read entry)) entries =
      tally key weight (entries.map read) := by
  funext k
  rw [tally, tally, group, group, List.filter_map, List.map_map]
  rfl

/-- A tally depends on the entries through their keys and weights. -/
theorem tally_map {change : α → α} (keys : ∀ entry, key (change entry) = key entry)
    (weights : ∀ entry, weight (change entry) = weight entry) (entries : List α) :
    tally key weight (entries.map change) = tally key weight entries := by
  induction entries with
  | nil => rfl
  | cons entry entries ih => rw [List.map_cons, tally_cons, tally_cons, ih, keys, weights]

/-- Entries of bounded weight have a tally bounded by their number. -/
theorem tally_le_length {entries : List α} {most : Nat}
    (light : ∀ entry ∈ entries, (weight entry).toNat ≤ most) (k : κ) :
    tally key weight entries k ≤ entries.length * most := by
  have each := List.sum_le_card_nsmul
    ((group key entries k).map (fun entry => (weight entry).toNat)) most (by
      intro amount member
      obtain ⟨entry, present, rfl⟩ := List.mem_map.mp member
      exact light entry (mem_group.mp present).1)
  rw [List.length_map, Nat.nsmul_eq_mul] at each
  calc
    tally key weight entries k ≤ (group key entries k).length * most := each
    _ ≤ entries.length * most := Nat.mul_le_mul_right _ (List.length_filter_le _ _)

/-- Entries with distinct names below a bound have a bounded tally. -/
theorem tally_le {name : α → UInt64} {entries : List α} {names most : Nat}
    (distinct : (entries.map name).Nodup) (named : ∀ entry ∈ entries, (name entry).toNat < names)
    (light : ∀ entry ∈ entries, (weight entry).toNat ≤ most) (k : κ) :
    tally key weight entries k ≤ names * most := by
  have few : entries.length ≤ names := by
    have numbers : (entries.map (fun entry => (name entry).toNat)).Nodup := by
      have mapped := distinct.map (f := UInt64.toNat) (fun _ _ same => UInt64.toNat_inj.mp same)
      rw [List.map_map] at mapped
      exact mapped
    have inside : entries.map (fun entry => (name entry).toNat) ⊆ List.range names := by
      intro number member
      obtain ⟨entry, present, rfl⟩ := List.mem_map.mp member
      exact List.mem_range.mpr (named entry present)
    have bound := (numbers.subperm inside).length_le
    rw [List.length_map, List.length_range] at bound
    exact bound
  calc
    tally key weight entries k ≤ entries.length * most := tally_le_length light k
    _ ≤ names * most := Nat.mul_le_mul_right _ few

/-- Words below a bound that repeat at most so often make a short list. -/
theorem length_le_of_count {words : List UInt64} {names most : Nat}
    (below : ∀ word ∈ words, word.toNat < names) (seldom : ∀ word, words.count word ≤ most) :
    words.length ≤ names * most := by
  have few : words.toFinset.card ≤ names := by
    have inside : ∀ word ∈ words.toFinset, word.toNat ∈ Finset.range names := by
      intro word member
      exact Finset.mem_range.mpr (below word (List.mem_toFinset.mp member))
    have bound := Finset.card_le_card_of_injOn UInt64.toNat inside
      (fun _ _ _ _ same => UInt64.toNat_inj.mp same)
    rw [Finset.card_range] at bound
    exact bound
  calc
    words.length = ∑ word ∈ words.toFinset, words.count word :=
      (List.sum_toFinset_count_eq_length words).symm
    _ ≤ words.toFinset.card • most :=
      Finset.sum_le_card_nsmul _ _ _ (fun word _ => seldom word)
    _ ≤ names * most := Nat.mul_le_mul_right _ few

/-- Entries of positive weight give a key a weight exactly when one of them has it. -/
theorem tally_ne_zero_iff {entries : List α} (positive : ∀ entry ∈ entries, weight entry ≠ 0)
    (k : κ) : tally key weight entries k ≠ 0 ↔ ∃ entry ∈ entries, key entry = k := by
  unfold tally
  cases queue : group key entries k with
  | nil =>
    refine iff_of_false (by simp) ?_
    rintro ⟨entry, member, own⟩
    have inside : entry ∈ group key entries k := mem_group.mpr ⟨member, own⟩
    rw [queue] at inside
    nomatch inside
  | cons first rest =>
    have inside := mem_group.mp (queue ▸ List.mem_cons_self : first ∈ group key entries k)
    have nonzero : (weight first).toNat ≠ 0 := fun zero =>
      positive first inside.1 (UInt64.toNat_inj.mp zero)
    refine iff_of_true ?_ ⟨first, inside⟩
    rw [List.map_cons, List.sum_cons]
    omega

/-- The word of a sum is the wrapping sum of the words. -/
theorem ofNat_sum_toNat (words : List UInt64) :
    UInt64.ofNat (words.map UInt64.toNat).sum = words.sum := by
  induction words with
  | nil => rfl
  | cons word words ih =>
    rw [List.map_cons, List.sum_cons, List.sum_cons, UInt64.ofNat_add, ih, UInt64.ofNat_toNat]

/-- A map that tallies entries of positive weight is a view of their queues. -/
theorem Tallies.groups [Ord κ] [TransOrd κ] {entries : List α} {levels : ExtTreeMap κ UInt64}
    (tallies : Tallies (tally key weight entries) levels)
    (positive : ∀ entry ∈ entries, weight entry ≠ 0) :
    Groups key (fun queue => (queue.map weight).sum) entries levels := by
  intro k
  rw [tallies k]
  have total : tally key weight entries k =
      (((group key entries k).map weight).map UInt64.toNat).sum := by
    rw [List.map_map]
    rfl
  cases queue : group key entries k with
  | nil =>
    rw [total, queue]
    rfl
  | cons first rest =>
    have inside : first ∈ group key entries k := queue ▸ List.mem_cons_self
    have counted : tally key weight entries k ≠ 0 :=
      (tally_ne_zero_iff positive k).mpr ⟨first, mem_group.mp inside⟩
    rw [if_neg counted, total, queue, ofNat_sum_toNat]
    rfl

end Weights

section Entries

variable {β : Type*} [Ord κ] [TransOrd κ] [LawfulEqOrd κ] {entries : ExtTreeMap κ β} {k : κ}
  {v : β}

/-- The entries of a map are distinct. -/
theorem nodup_toList (entries : ExtTreeMap κ β) : entries.toList.Nodup := by
  refine ExtTreeMap.distinct_keys_toList.imp ?_
  intro left right apart same
  rw [same] at apart
  exact apart ReflCmp.compare_self

/-- A new key adds its entry. -/
theorem toList_insert_perm (new : k ∉ entries) :
    (entries.insert k v).toList.Perm ((k, v) :: entries.toList) := by
  have absent : (k, v) ∉ entries.toList := by
    rw [ExtTreeMap.mem_toList_iff_getElem?_eq_some, ExtTreeMap.getElem?_eq_none new]
    exact fun found => nomatch found
  rw [List.perm_ext_iff_of_nodup (nodup_toList _)
    (List.nodup_cons.mpr ⟨absent, nodup_toList entries⟩)]
  rintro ⟨other, value⟩
  rw [List.mem_cons, ExtTreeMap.mem_toList_iff_getElem?_eq_some,
    ExtTreeMap.mem_toList_iff_getElem?_eq_some, ExtTreeMap.getElem?_insert, Prod.mk.injEq]
  by_cases same : k = other
  · subst same
    rw [if_pos ReflCmp.compare_self, ExtTreeMap.getElem?_eq_none new]
    simp [eq_comm]
  · rw [if_neg (by simpa using same)]
    simp [Ne.symm same]

/-- Storing under a key forgets what it held. -/
theorem insert_erase (entries : ExtTreeMap κ β) (k : κ) (v : β) :
    (entries.erase k).insert k v = entries.insert k v := by
  apply ExtTreeMap.ext_getElem?
  intro other
  rw [ExtTreeMap.getElem?_insert, ExtTreeMap.getElem?_insert, ExtTreeMap.getElem?_erase]
  by_cases same : k = other
  · rw [if_pos (by simpa using same), if_pos (by simpa using same)]
  · rw [if_neg (by simpa using same), if_neg (by simpa using same), if_neg (by simpa using same)]

/-- An entry stands beside those that are left without its key. -/
theorem toList_perm_erase (stored : entries[k]? = some v) :
    entries.toList.Perm ((k, v) :: (entries.erase k).toList) := by
  have gone : k ∉ entries.erase k := by simp
  have whole : entries.insert k v = entries := by
    apply ExtTreeMap.ext_getElem?
    intro other
    rw [ExtTreeMap.getElem?_insert]
    by_cases same : k = other
    · subst same
      rw [if_pos ReflCmp.compare_self, stored]
    · rw [if_neg (by simpa using same)]
  have apart := toList_insert_perm (v := v) gone
  rw [insert_erase, whole] at apart
  exact apart

end Entries

end Library
