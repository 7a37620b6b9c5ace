import Std.Data.ExtTreeMap
import Mathlib.Data.Option.Basic

/-!
# Maps seen through a view

A view forgets part of each value of a map, such as a counter that only an observer reads. A map
seen through a view changes with the values stored in it, and does not when the stored value looks
the same.
-/

namespace Library

open Std

variable {κ α β : Type*} {cmp : κ → κ → Ordering} [TransCmp cmp] [LawfulEqCmp cmp]

/-- Storing a value stores its view. -/
theorem map_insert (view : α → β) (entries : ExtTreeMap κ α cmp) (key : κ) (value : α) :
    (entries.insert key value).map (fun _ => view) =
      (entries.map (fun _ => view)).insert key (view value) := by
  apply ExtTreeMap.ext_getElem?
  intro other
  rw [ExtTreeMap.getElem?_map, ExtTreeMap.getElem?_insert, ExtTreeMap.getElem?_insert,
    ExtTreeMap.getElem?_map]
  split <;> rfl

/-- Storing a value that looks like the stored one changes nothing that is seen. -/
theorem map_insert_of_same {view : α → β} {entries : ExtTreeMap κ α cmp} {key : κ}
    {value stored : α} (found : entries[key]? = some stored) (same : view value = view stored) :
    (entries.insert key value).map (fun _ => view) = entries.map (fun _ => view) := by
  apply ExtTreeMap.ext_getElem?
  intro other
  rw [ExtTreeMap.getElem?_map, ExtTreeMap.getElem?_insert, ExtTreeMap.getElem?_map]
  split
  · rename_i here
    rw [← LawfulEqCmp.eq_of_compare here, found, Option.map_some, Option.map_some, same]
  · rfl

end Library
