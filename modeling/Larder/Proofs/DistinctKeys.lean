import Mathlib.Data.List.Nodup

/-!
# Lists whose entries have different keys

Where all entries of a list have different keys, taking out the keys of its front leaves its back,
and taking out the keys of its back leaves its front.
-/

namespace Larder.DistinctKeys

variable {Entry Key : Type} {key : Entry → Key} {front back : List Entry}

theorem filter_eq_nil (entries : List Entry) [∀ other, Decidable (other ∈ entries.map key)] :
    (entries.filter fun entry => key entry ∉ entries.map key) = [] := by
  apply List.filter_eq_nil_iff.mpr
  intro entry present
  rw [decide_eq_true_eq, not_not]
  exact List.mem_map_of_mem present

theorem filter_eq_self {keys : List Key} [∀ other, Decidable (other ∈ keys)]
    (apart : ∀ entry ∈ front, key entry ∉ keys) :
    (front.filter fun entry => key entry ∉ keys) = front := by
  apply List.filter_eq_self.mpr
  intro entry present
  rw [decide_eq_true_eq]
  exact apart entry present

theorem filter_front [∀ other, Decidable (other ∈ front.map key)]
    (distinct : ((front ++ back).map key).Nodup) :
    ((front ++ back).filter fun entry => key entry ∉ front.map key) = back := by
  rw [List.map_append, List.nodup_append'] at distinct
  rw [List.filter_append, filter_eq_nil, List.nil_append]
  apply filter_eq_self
  intro entry inBack inFront
  exact distinct.2.2 inFront (List.mem_map_of_mem inBack)

theorem filter_back [∀ other, Decidable (other ∈ back.map key)]
    (distinct : ((front ++ back).map key).Nodup) :
    ((front ++ back).filter fun entry => key entry ∉ back.map key) = front := by
  rw [List.map_append, List.nodup_append'] at distinct
  rw [List.filter_append, filter_eq_nil, List.append_nil]
  apply filter_eq_self
  intro entry inFront inBack
  exact distinct.2.2 (List.mem_map_of_mem inFront) inBack

end Larder.DistinctKeys
