import Mathlib.Algebra.GroupWithZero.Nat
import Mathlib.Data.List.Basic
import GraphClient.Mutation.Loading

/-!
Pieces of a list, and what pieces have done together. Cutting a list loses and repeats nothing and fills every piece but
the last; the summaries of pieces merge to one whose ids stand in their order and whose counters add up.
-/
namespace GraphClient

/-- Pieces of a list, in its order. All are full except that the last may be shorter, and none is empty. -/
structure Cut {α : Type} (size : Nat) (l : List α) (pieces : List (List α)) : Prop where
  whole : pieces.flatten = l
  filled : ∀ p ∈ pieces, p ≠ []
  full : ∀ p ∈ pieces.dropLast, p.length = size
  fits : ∀ p ∈ pieces, p.length ≤ size
  count : pieces.length = (l.length + size - 1) / size

section
variable {α : Type} {size : Nat} {l : List α}

theorem Cut.nil (positive : 0 < size) : Cut size ([] : List α) [] where
  whole := rfl
  filled := nofun
  full := nofun
  fits := nofun
  count := by
    rw [List.length_nil, List.length_nil, Nat.div_eq_of_lt]
    omega

theorem Cut.cons {pieces : List (List α)} (positive : 0 < size) (some : l ≠ []) (rest : Cut size (l.drop size) pieces) :
    Cut size l (l.take size :: pieces) where
  whole := by rw [List.flatten_cons, rest.whole, List.take_append_drop]
  filled := by
    refine List.forall_mem_cons.mpr ⟨fun none => ?_, rest.filled⟩
    rcases List.take_eq_nil_iff.mp none with zero | empty
    · exact Nat.ne_of_gt positive zero
    · exact some empty
  full := by
    cases pieces with
    | nil => exact nofun
    | cons p pieces =>
        refine List.forall_mem_cons.mpr ⟨?_, rest.full⟩
        -- something is left over for the next piece, so this one is full
        have left : l.drop size ≠ [] := by
          rw [← rest.whole]
          exact fun none => rest.filled p List.mem_cons_self (List.flatten_eq_nil_iff.mp none p List.mem_cons_self)
        rw [List.length_take]
        have := List.length_pos_iff.mpr left
        rw [List.length_drop] at this
        omega
  fits := List.forall_mem_cons.mpr ⟨List.length_take_le _ _, rest.fits⟩
  count := by
    have long := List.length_pos_iff.mpr some
    rw [List.length_cons, rest.count, List.length_drop, ← Nat.add_div_right _ positive]
    -- a piece that takes all there is leaves nothing, and then both quotients are one
    rcases Nat.le_total size l.length with more | last
    · congr 1
      omega
    · have one {n : Nat} (least : size ≤ n) (most : n < 2 * size) : n / size = 1 :=
        Nat.div_eq_of_lt_le (by omega) most
      rw [one (by omega) (by omega), one (by omega) (by omega)]

theorem chunks_cut (positive : 0 < size) (l : List α) : Cut size l (chunks size l) := by
  fun_induction chunks size l with
  | case1 l stop =>
      obtain rfl : l = [] := stop.resolve_right (Nat.ne_of_gt positive)
      exact .nil positive
  | case2 l more ih => exact .cons positive (not_or.mp more).1 ih

end

namespace Mutation.Summary

def merged (parts : List Summary) : Summary := parts.foldl merge .empty

def counters : List (Summary → UInt64) := [updatedNodes, updatedEdges, deletedNodes, deletedEdges]

/-- What several scripts have done together: ids in the order of the scripts, and counters that add up unless a sum is
too large for one. -/
structure Totals (parts : List Summary) (total : Summary) : Prop where
  createdNodes : total.createdNodes = parts.flatMap createdNodes
  createdEdges : total.createdEdges = parts.flatMap createdEdges
  counted : ∀ count ∈ counters, (parts.map fun s => (count s).toNat).sum < UInt64.size →
    (count total).toNat = (parts.map fun s => (count s).toNat).sum

theorem empty_merge (s : Summary) : empty.merge s = s := by
  simp [empty, merge]

theorem merge_empty (s : Summary) : s.merge empty = s := by
  simp [empty, merge]

theorem merge_assoc (a b c : Summary) : (a.merge b).merge c = a.merge (b.merge c) := by
  simp [merge, UInt64.add_assoc]

theorem foldl_merge (total : Summary) (parts : List Summary) : parts.foldl merge total = total.merge (merged parts) := by
  induction parts generalizing total with
  | nil => exact (merge_empty total).symm
  | cons s parts ih =>
      rw [merged, List.foldl_cons, List.foldl_cons, ih, ih (empty.merge s), empty_merge, merge_assoc]

theorem merged_cons (s : Summary) (parts : List Summary) : merged (s :: parts) = s.merge (merged parts) := by
  rw [merged, List.foldl_cons, foldl_merge, empty_merge]

theorem merged_append (first later : List Summary) : merged (first ++ later) = (merged first).merge (merged later) := by
  rw [merged, List.foldl_append, foldl_merge]
  rfl

theorem counter_merge {count : Summary → UInt64} (counter : count ∈ counters) (a b : Summary) :
    count (a.merge b) = count a + count b := by
  simp only [counters, List.mem_cons, List.not_mem_nil, or_false] at counter
  rcases counter with rfl | rfl | rfl | rfl <;> rfl

theorem counter_empty {count : Summary → UInt64} (counter : count ∈ counters) : count empty = 0 := by
  simp only [counters, List.mem_cons, List.not_mem_nil, or_false] at counter
  rcases counter with rfl | rfl | rfl | rfl <;> rfl

theorem counter_merged {count : Summary → UInt64} (counter : count ∈ counters) (parts : List Summary) :
    (count (merged parts)).toNat = (parts.map fun s => (count s).toNat).sum % UInt64.size := by
  induction parts with
  | nil =>
      change (count empty).toNat = 0
      rw [counter_empty counter, UInt64.toNat_zero]
  | cons s parts ih =>
      have add (a b : UInt64) : (a + b).toNat = (a.toNat + b.toNat) % UInt64.size := UInt64.toNat_add a b
      rw [merged_cons, counter_merge counter, add, ih, Nat.add_mod_mod, List.map_cons, List.sum_cons]

theorem merged_totals (parts : List Summary) : Totals parts (merged parts) where
  createdNodes := by
    induction parts with
    | nil => rfl
    | cons s parts ih =>
        rw [merged_cons, List.flatMap_cons, ← ih]
        rfl
  createdEdges := by
    induction parts with
    | nil => rfl
    | cons s parts ih =>
        rw [merged_cons, List.flatMap_cons, ← ih]
        rfl
  counted count counter small := by rw [counter_merged counter, Nat.mod_eq_of_lt small]

end Mutation.Summary
end GraphClient
