import Mathlib.Data.List.Basic
import Mathlib.Data.List.Perm.Basic
import Mathlib.Order.Lattice

/-!
# Ranked lists

A ranked list is served from the front: no entry has a smaller rank than one before it, and
entries of one rank stand in order of arrival. An arriving entry goes behind every entry of
its own rank or better, so arrival order within a rank is never lost. The lemmas say what an
arrival does to the members, the order and the part of the list with one rank.
-/

namespace Library

variable {α κ : Type*} [LinearOrder κ] (rank : α → κ)

/-- No entry has a smaller rank than an entry before it. -/
def Ranked (entries : List α) : Prop :=
  entries.Pairwise (fun first later => rank first ≤ rank later)

/-- Put an entry behind every entry of its own rank or better. -/
def arrive (entry : α) : List α → List α
  | [] => [entry]
  | first :: rest =>
    if rank first ≤ rank entry then first :: arrive entry rest else entry :: first :: rest

variable {rank}

/-- An arrival adds its entry and moves none. -/
theorem arrive_perm (entry : α) (entries : List α) :
    (arrive rank entry entries).Perm (entry :: entries) := by
  induction entries with
  | nil => exact List.Perm.refl _
  | cons first rest ih =>
    unfold arrive
    split
    · exact (ih.cons first).trans (List.Perm.swap entry first rest)
    · exact List.Perm.refl _

/-- The members after an arrival are the new entry and the old ones. -/
@[simp] theorem mem_arrive {entry other : α} {entries : List α} :
    other ∈ arrive rank entry entries ↔ other = entry ∨ other ∈ entries := by
  rw [(arrive_perm entry entries).mem_iff, List.mem_cons]

/-- An arrival keeps the order of the others. -/
theorem sublist_arrive (entry : α) (entries : List α) :
    entries.Sublist (arrive rank entry entries) := by
  induction entries with
  | nil => exact List.nil_sublist _
  | cons first rest ih =>
    unfold arrive
    split
    · exact ih.cons_cons first
    · exact List.sublist_cons_self _ _

/-- An arrival keeps the list ranked. -/
theorem Ranked.arrive {entries : List α} (ranked : Ranked rank entries) (entry : α) :
    Ranked rank (arrive rank entry entries) := by
  induction entries with
  | nil => simp [Ranked, Library.arrive]
  | cons first rest ih =>
    obtain ⟨front, tail⟩ := List.pairwise_cons.mp ranked
    unfold Library.arrive
    split
    · rename_i better
      refine List.pairwise_cons.mpr ⟨?_, ih tail⟩
      intro other member
      rcases mem_arrive.mp member with rfl | member
      · exact better
      · exact front other member
    · rename_i worse
      refine List.pairwise_cons.mpr ⟨?_, ranked⟩
      intro other member
      rcases List.mem_cons.mp member with rfl | member
      · exact le_of_not_ge worse
      · exact le_trans (le_of_not_ge worse) (front other member)

/-- An arrival that a filter refuses leaves what the filter keeps. -/
theorem filter_arrive_of_not {keep : α → Bool} {entry : α} (refused : keep entry = false)
    (entries : List α) :
    (arrive rank entry entries).filter keep = entries.filter keep := by
  induction entries with
  | nil => simp [arrive, refused]
  | cons first rest ih =>
    unfold arrive
    split
    · simp only [List.filter_cons, ih]
    · simp [List.filter_cons, refused]

/-- Among the entries of its own rank an arrival stands last. -/
theorem filter_arrive_of_same {keep : α → Bool} {entry : α} {entries : List α}
    (ranked : Ranked rank entries) (kept : keep entry = true)
    (same : ∀ other ∈ entries, keep other = true → rank other = rank entry) :
    (arrive rank entry entries).filter keep = entries.filter keep ++ [entry] := by
  induction entries with
  | nil => simp [arrive, kept]
  | cons first rest ih =>
    obtain ⟨front, tail⟩ := List.pairwise_cons.mp ranked
    have inner := ih tail (fun other member => same other (List.mem_cons_of_mem first member))
    unfold arrive
    split
    · cases choice : keep first <;> simp [choice, inner]
    · rename_i worse
      -- every entry from `first` on ranks behind the arrival, so the filter keeps none of them
      have none : (first :: rest).filter keep = [] := by
        rw [List.filter_eq_nil_iff]
        intro other member chosen
        have equal := same other member chosen
        have bound : rank first ≤ rank other := by
          rcases List.mem_cons.mp member with rfl | member
          · exact le_refl _
          · exact front other member
        exact worse (equal ▸ bound)
      rw [List.filter_cons, if_pos kept, none]
      rfl

/-- Any sublist of a ranked list is ranked. -/
theorem Ranked.sublist {entries fewer : List α} (ranked : Ranked rank entries)
    (sub : fewer.Sublist entries) : Ranked rank fewer := List.Pairwise.sublist sub ranked

/-- In a ranked list the entries that rank within a bound are a prefix. -/
theorem Ranked.filter_le_eq_takeWhile {entries : List α} (ranked : Ranked rank entries)
    (bound : κ) :
    entries.filter (fun entry => decide (rank entry ≤ bound)) =
      entries.takeWhile (fun entry => decide (rank entry ≤ bound)) := by
  induction entries with
  | nil => rfl
  | cons first rest ih =>
    obtain ⟨front, tail⟩ := List.pairwise_cons.mp ranked
    by_cases within : rank first ≤ bound
    · simp [within, ih tail]
    · have none : rest.filter (fun entry => decide (rank entry ≤ bound)) = [] := by
        rw [List.filter_eq_nil_iff]
        intro other member
        simpa using lt_of_lt_of_le (lt_of_not_ge within) (front other member)
      simp [within, none]

end Library
