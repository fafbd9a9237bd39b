import PrismChain.Math.Aggregate

namespace PrismChain.Aggregate

open Option

variable {κ α : Type} [Fintype κ]

theorem sumOver_plus (f g : α → Nat) (book : κ → Option α) :
    sumOver (fun a => f a+g a) book= sumOver f book+sumOver g book := by
  unfold sumOver
  rw [← Finset.sum_add_distrib]
  refine Finset.sum_congr rfl fun k _ => ?_
  cases book k <;> rfl

theorem sumOver_scale (n : Nat) (f : α → Nat) (book : κ → Option α) :
    sumOver (fun a => n*f a) book=n*sumOver f book := by
  unfold sumOver
  rw [Finset.mul_sum]
  refine Finset.sum_congr rfl fun k _ => ?_
  cases book k with
  | none => rfl
  | some a => rfl

theorem sumOver_floor_le (n : Nat) (f : α → Nat) (book : κ → Option α) :
    n*sumOver (fun a => f a/n) book≤ sumOver f book := by
  rw [← sumOver_scale]
  exact sumOver_le fun _ a _ => Nat.mul_div_le (f a) n

theorem sumOver_set [DecidableEq κ] {g : α → Nat} {book book' : κ → Option α} {k : κ} {a' d : α}
    (hd : g d=0) (hafter : book' k=some a') (h : ∀ j,j≠k → book' j=book j) :
    sumOver g book'+g ((book k).getD d)= sumOver g book+g a' := by
  have hs := sumOver_replace (g := g) k h
  rw [hafter,elim_some] at hs
  cases hk : book k with
  | none =>
    rw [hk,elim_none] at hs
    rw [getD_none,hd]
    exact hs
  | some =>
    rw [hk,elim_some] at hs
    exact hs

end PrismChain.Aggregate
