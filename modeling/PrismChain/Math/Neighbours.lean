import Mathlib.Tactic

namespace PrismChain.Neighbours

open List

variable {α : Type} {r : α → α → Prop} {l : List α}

/-- In a sorted list equal elements are neighbours. -/
theorem nodup_of_isChain_ne (hanti : ∀ a b,r a b → r b a → a=b) (hsorted : l.Pairwise r)
    (h : l.IsChain (·≠·)) : l.Nodup := by
  induction l with
  | nil => exact nodup_nil
  | cons a l ih =>
    cases l with
    | nil => exact nodup_singleton a
    | cons b l =>
      obtain ⟨hfirst,htail⟩ := pairwise_cons.mp hsorted
      obtain ⟨hne,hrest⟩ := isChain_cons_cons.mp h
      refine nodup_cons.mpr ⟨fun ha => ?_,ih htail hrest⟩
      obtain rfl | ha := mem_cons.mp ha
      · exact hne rfl
      · exact hne (hanti a b (hfirst b mem_cons_self) ((pairwise_cons.mp htail).1 a ha))

/-- Looking at neighbours of a sorted copy finds every duplicate. -/
theorem isChain_ne_sort [DecidableRel r] [Std.Total r] [IsTrans α r]
    (hanti : ∀ a b,r a b → r b a → a=b) (l : List α) :
    (l.insertionSort r).IsChain (·≠·) ↔ l.Nodup := by
  rw [← (perm_insertionSort r l).nodup_iff]
  exact ⟨nodup_of_isChain_ne hanti (pairwise_insertionSort r l),Pairwise.isChain⟩

end PrismChain.Neighbours
