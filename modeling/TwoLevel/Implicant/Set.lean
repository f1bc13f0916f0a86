import Std.Data.HashSet.Lemmas
import TwoLevel.Implicant.Basic

/-!
# Sets of implicants in order of insertion

Primes are generated into a set, and ties between them are decided by their position in it, so the
set keeps the order in which its members came. Beside the members in order it holds an index of them
for the membership test; the fields `mem_index` and `nodup` say that the two agree.
-/
namespace TwoLevel

/-- Distinct implicants in the order in which they were first inserted. -/
structure ImplicantSet where
  items : Array Implicant
  index : Std.HashSet Implicant
  mem_index : ∀ p, p ∈ index ↔ p ∈ items
  nodup : items.toList.Nodup

namespace ImplicantSet

/-- The set without members. -/
def empty : ImplicantSet where
  items := #[]
  index := ∅
  mem_index := by simp
  nodup := by simp

/-- Membership by value. -/
def contains (set : ImplicantSet) (p : Implicant) : Bool := set.index.contains p

theorem contains_iff (set : ImplicantSet) (p : Implicant) :
    set.contains p = true ↔ p ∈ set.items := by
  rw [contains, Std.HashSet.contains_iff_mem]
  exact set.mem_index p

/-- Appends an implicant, unless it is a member already. -/
def insert (set : ImplicantSet) (p : Implicant) : ImplicantSet :=
  if present : set.contains p then set
  else
    { items := set.items.push p
      index := set.index.insert p
      mem_index := fun q => by
        simp only [Std.HashSet.mem_insert, Array.mem_push, set.mem_index, beq_iff_eq]
        grind
      nodup := by
        have absent : p ∉ set.items := fun member => present ((set.contains_iff p).mpr member)
        simp only [Array.toList_push, List.nodup_append, List.mem_singleton, forall_eq]
        refine ⟨set.nodup, by simp, fun q member same => absent ?_⟩
        subst same
        simpa using member }

/-- Appends an implicant, unless it is a member already, and tells whether it was appended. -/
def insertNew (set : ImplicantSet) (p : Implicant) : Bool × ImplicantSet :=
  if set.contains p then (false, set) else (true, set.insert p)

/-- Inserts the members of a list from left to right. -/
def insertAll (set : ImplicantSet) (added : List Implicant) : ImplicantSet :=
  added.foldl insert set

/-- The set of the members of a list. -/
def ofList (members : List Implicant) : ImplicantSet := empty.insertAll members

/-- The members in the order of insertion. -/
def toList (set : ImplicantSet) : List Implicant := set.items.toList

/-- The number of members. -/
def size (set : ImplicantSet) : Nat := set.items.size

/-- The set has no member. -/
def isEmpty (set : ImplicantSet) : Bool := set.items.isEmpty

/-- The member at a position, counted in the order of insertion. -/
def get? (set : ImplicantSet) (position : Nat) : Option Implicant := set.items[position]?

/-- Sets are equal if they have the same members in the same order. -/
instance : BEq ImplicantSet where
  beq left right := left.items == right.items

@[simp] theorem toList_empty : empty.toList = [] := rfl

theorem contains_iff_mem_toList (set : ImplicantSet) (p : Implicant) :
    set.contains p = true ↔ p ∈ set.toList := by
  rw [contains_iff, toList, Array.mem_toList_iff]

theorem toList_insert (set : ImplicantSet) (p : Implicant) :
    (set.insert p).toList = if p ∈ set.toList then set.toList else set.toList ++ [p] := by
  unfold insert
  split
  case isTrue present => rw [if_pos ((contains_iff_mem_toList set p).mp present)]
  case isFalse absent =>
    rw [if_neg fun member => absent ((contains_iff_mem_toList set p).mpr member)]
    simp [toList]

end ImplicantSet

end TwoLevel
