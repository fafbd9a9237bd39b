import Mathlib.Tactic

namespace PrismChain

instance bitVecFintype (w : Nat) : Fintype (BitVec w) :=
  Fintype.ofEquiv (Fin (2^w)) ⟨BitVec.ofFin,BitVec.toFin,fun _ => rfl,fun _ => rfl⟩

namespace Aggregate

open Finset

variable {κ α : Type} [Fintype κ]

/-- What a book of optional entries amounts to, entry by entry under `g`. Books range over all
addresses, so the sum must never be computed by unfolding. -/
@[irreducible] def sumOver (g : α → Nat) (book : κ → Option α) : Nat := ∑ k,(book k).elim 0 g

theorem le_sumOver {book : κ → Option α} (h : book k=some a) : g a≤ sumOver g book := by
  have hs := single_le_sum (f := fun k => (book k).elim 0 g) (fun _ _ => Nat.zero_le _) (mem_univ k)
  simpa [sumOver,h] using hs

theorem sumOver_replace [DecidableEq κ] (k : κ) (h : ∀ j,j≠k → book' j=book j) :
    sumOver g book'+(book k).elim 0 g=sumOver g book+(book' k).elim 0 g := by
  have hrest : ∑ j∈univ.erase k,(book' j).elim 0 g=∑ j∈univ.erase k,(book j).elim 0 g := by
    refine sum_congr rfl fun j hj => ?_
    rw [h j (ne_of_mem_erase hj)]
  unfold sumOver
  rw [← add_sum_erase univ _ (mem_univ k),← add_sum_erase univ _ (mem_univ k),hrest]
  omega

theorem sumOver_insert [DecidableEq κ] {book : κ → Option α} (hnone : book k=none)
    (hsome : book' k=some a)
    (h : ∀ j,j≠k → book' j=book j) : sumOver g book'= sumOver g book+g a := by
  have hs := sumOver_replace (g := g) k h
  rw [hnone,hsome,Option.elim_none,Option.elim_some] at hs
  omega

theorem sumOver_change [DecidableEq κ] {book : κ → Option α} (hbefore : book k=some a)
    (hafter : book' k=some a') (h : ∀ j,j≠k → book' j=book j) :
    sumOver g book'+g a= sumOver g book+g a' := by
  have hs := sumOver_replace (g := g) k h
  rw [hbefore,hafter,Option.elim_some,Option.elim_some] at hs
  exact hs

theorem sumOver_add [DecidableEq κ] {book : κ → Option α} (hnone : book k=none) :
    sumOver g (Function.update book k (some a))= sumOver g book+g a :=
  sumOver_insert hnone (Function.update_self ..) fun _ hj => Function.update_of_ne hj ..

theorem sumOver_update [DecidableEq κ] {book : κ → Option α} (ha : book k=some a) :
    sumOver g (Function.update book k (some a'))+g a= sumOver g book+g a' :=
  sumOver_change ha (Function.update_self ..) fun _ hj => Function.update_of_ne hj ..

theorem sumOver_congr {book : κ → Option α} (h : ∀ j,book' j=book j) :
    sumOver g book'=sumOver g book := by
  unfold sumOver
  exact sum_congr rfl fun j _ => by rw [h j]

theorem sumOver_le {book : κ → Option α} (h : ∀ k a,book k=some a → f a≤g a) :
    sumOver f book≤ sumOver g book := by
  unfold sumOver
  refine sum_le_sum fun k _ => ?_
  cases hk : book k with
  | none => exact le_rfl
  | some a => exact h k a hk

/-- A book that has lost an entry, and maybe others. -/
theorem sumOver_drop [DecidableEq κ] {book : κ → Option α} (ha : book k=some a)
    (hnone : book' k=none) (h : ∀ j x,book' j=some x → book j=some x) :
    sumOver g book'+g a≤ sumOver g book := by
  have hwhole : sumOver g book=sumOver g (Function.update book k none)+g a :=
    sumOver_insert (Function.update_self ..) ha fun j hj => (Function.update_of_ne hj ..).symm
  rw [hwhole]
  apply Nat.add_le_add_right
  unfold sumOver
  refine sum_le_sum fun j _ => ?_
  cases hj : book' j with
  | none => exact Nat.zero_le _
  | some x =>
    have hne : j≠k := by
      rintro rfl
      rw [hnone] at hj
      cases hj
    rw [Function.update_of_ne hne,h j x hj]

theorem sumOver_zero {book : κ → Option α} (h : ∀ k a,book k=some a → g a=0) :
    sumOver g book=0 := by
  unfold sumOver
  refine sum_eq_zero fun k _ => ?_
  cases hk : book k with
  | none => rfl
  | some a => exact h k a hk

theorem sumOver_empty {book : κ → Option α} (h : ∀ j,book j=none) :
    sumOver g book=0 := sumOver_zero fun j a ha => absurd ((h j).symm.trans ha) (by simp)

theorem sum_le_sumOver [DecidableEq κ] {book : κ → Option α} {shares : List (κ×Nat)}
    (hdistinct : (shares.map Prod.fst).Nodup) (hbacked : ∀ x∈shares,∃ a,book x.1=some a ∧ x.2≤g a) :
    (shares.map Prod.snd).sum≤ sumOver g book := by
  induction shares generalizing book with
  | nil => exact Nat.zero_le _
  | cons x shares ih =>
    obtain ⟨hnew,hrest⟩ := List.nodup_cons.mp hdistinct
    obtain ⟨a,ha,_⟩ := hbacked x List.mem_cons_self
    -- the first entry is taken out of the book; the other shares do not use it
    have hout : (shares.map Prod.snd).sum≤ sumOver g (Function.update book x.1 none) := by
      refine ih hrest fun y hy => ?_
      have hne : y.1≠x.1 := fun heq => hnew (heq ▸ List.mem_map_of_mem hy)
      rw [Function.update_of_ne hne]
      exact hbacked y (List.mem_cons_of_mem _ hy)
    have hwhole : sumOver g book=sumOver g (Function.update book x.1 none)+g a :=
      sumOver_insert (Function.update_self ..) ha fun j hj => (Function.update_of_ne hj ..).symm
    rw [List.map_cons,List.sum_cons,hwhole]
    omega

/-- Parts that are rounded down one by one stay within the whole. -/
theorem sum_floor_le (a n : Nat) (f : α → Nat) (l : List α) :
    (l.map fun x => a*f x/n).sum≤a*(l.map f).sum/n := by
  induction l with
  | nil => simp
  | cons x l ih =>
    simp only [List.map_cons,List.sum_cons]
    calc a*f x/n+(l.map fun x => a*f x/n).sum≤a*f x/n+a*(l.map f).sum/n :=
          Nat.add_le_add_left ih _
      _ ≤ (a*f x+a*(l.map f).sum)/n := Nat.div_add_div_le_add_div
      _ = a*(f x+(l.map f).sum)/n := by rw [Nat.mul_add]

end Aggregate
end PrismChain
