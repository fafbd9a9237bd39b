import PrismChain.Math.Aggregate

/-! Balances that are settled lazily against a growing index, next to a total that grows by the
interest on the whole. Both are rounded down, the total once for each accrual, so the balances can
come to more than the total. The results bound by how much. -/

namespace PrismChain.InterestIndex

open Finset Aggregate Option Nat

structure Balance where
  amount : Nat
  snapshot : Nat

/-- What the balance comes to at `index`, in whole units. -/
def Balance.worth (v : Balance) (index : Nat) : Nat := v.amount*index/v.snapshot

def Balance.shares (v : Balance) : ℚ := v.amount/v.snapshot

theorem Balance.worth_le (v : Balance) (index : Nat) : (v.worth index : ℚ)≤v.shares*index := by
  have hfloor : ((v.amount*index/v.snapshot : Nat) : ℚ)≤(v.amount*index : Nat)/v.snapshot :=
    cast_div_le
  unfold worth shares
  rw [cast_mul,mul_div_right_comm] at hfloor
  exact hfloor

theorem Balance.shares_settled (amount : Nat) {index : Nat} (h : 0< index) :
    (⟨amount,index⟩ : Balance).shares*index=amount :=
  div_mul_cancel₀ _ (cast_ne_zero.mpr h.ne')

section Books

variable {κ α : Type} [Fintype κ] {part : α → Balance} {book book' : κ → Option α}
    {k : κ} {a a' : α}

@[irreducible] def sharesOver (part : α → Balance) (book : κ → Option α) : ℚ :=
  ∑ k,(book k).elim 0 fun a => (part a).shares

theorem sharesOver_congr (h : ∀ j,book' j=book j) : sharesOver part book'=sharesOver part book := by
  unfold sharesOver
  exact sum_congr rfl fun j _ => by rw [h j]

theorem sharesOver_empty (h : ∀ j a,book j=some a → (part a).amount=0) :
    sharesOver part book=0 := by
  unfold sharesOver
  refine sum_eq_zero fun j _ => ?_
  cases hj : book j with
  | none => rfl
  | some a => simp [Balance.shares,h j a hj]

theorem sharesOver_replace [DecidableEq κ] (part : α → Balance) (k : κ)
    (h : ∀ j,j≠k → book' j=book j) :
    sharesOver part book'+((book k).elim 0 fun a => (part a).shares)=
      sharesOver part book+((book' k).elim 0 fun a => (part a).shares) := by
  have hrest : ∑ j∈univ.erase k,((book' j).elim 0 fun a => (part a).shares)=
      ∑ j∈univ.erase k,((book j).elim 0 fun a => (part a).shares) := by
    refine sum_congr rfl fun j hj => ?_
    rw [h j (ne_of_mem_erase hj)]
  unfold sharesOver
  rw [← add_sum_erase univ _ (mem_univ k),← add_sum_erase univ _ (mem_univ k),hrest]
  ring

theorem sharesOver_insert [DecidableEq κ] (part : α → Balance) (hnone : book k=none)
    (hsome : book' k=some a) (h : ∀ j,j≠k → book' j=book j) :
    sharesOver part book'=sharesOver part book+(part a).shares := by
  have hs := sharesOver_replace part k h
  rw [hnone,hsome,elim_none,elim_some,add_zero] at hs
  exact hs

theorem sharesOver_change [DecidableEq κ] (part : α → Balance) (hbefore : book k=some a)
    (hafter : book' k=some a') (h : ∀ j,j≠k → book' j=book j) :
    sharesOver part book'+(part a).shares=sharesOver part book+(part a').shares := by
  have hs := sharesOver_replace part k h
  rw [hbefore,hafter,elim_some,elim_some] at hs
  exact hs

/-- Rounding every balance down never adds up to more than the shares are worth. -/
theorem sumOver_worth_le (part : α → Balance) (book : κ → Option α) (index : Nat) :
    (sumOver (fun a => (part a).worth index) book : ℚ)≤ sharesOver part book*index := by
  unfold sumOver sharesOver
  rw [cast_sum,sum_mul]
  refine sum_le_sum fun k _ => ?_
  cases book k with
  | none => simp
  | some a => exact (part a).worth_le index

end Books

/-- The shares are worth at most the total and what `accruals` roundings can have lost: each at most
one unit at the index of its time, which was `scale` or more. -/
def Covered (scale : Nat) (shares : ℚ) (index total accruals : Nat) : Prop :=
  shares*index≤total+accruals*(index/scale)

namespace Covered

variable {scale index index' total total' accruals : Nat} {shares shares' : ℚ}

theorem empty (scale index total accruals : Nat) : Covered scale 0 index total accruals := by
  unfold Covered
  rw [zero_mul]
  positivity

theorem move (h : Covered scale shares index total accruals)
    (hmove : shares'*index-shares*index≤total'-total) :
    Covered scale shares' index total' accruals := by
  unfold Covered at h ⊢
  linarith

theorem settle {v : Balance} {settled amount : Nat} (h : Covered scale shares index total accruals)
    (hpos : 0< index) (hshares : shares'+v.shares=shares+(⟨amount,index⟩ : Balance).shares)
    (hsettled : (settled : ℚ)≤v.shares*index) (htotal : total+amount≤total'+settled) :
    Covered scale shares' index total' accruals := by
  apply h.move
  have hvalue := Balance.shares_settled amount hpos
  have hcast : (total : ℚ)+amount≤total'+settled := by exact_mod_cast htotal
  calc shares'*index-shares*index
      = (⟨amount,index⟩ : Balance).shares*index-v.shares*index := by
        rw [eq_sub_of_add_eq hshares]
        ring
    _ ≤ total'-total := by
        rw [hvalue]
        linarith

theorem grow (h : Covered scale shares index total accruals) (hle : total≤total') :
    Covered scale shares index total' accruals := by
  refine h.move ?_
  have hcast : (total : ℚ)≤total' := cast_le.mpr hle
  linarith

/-- One accrual by the fraction `x/d`: the index grows by at most it and the total falls short of it
by less than one unit. -/
theorem accrue {d x : Nat} (h : Covered scale shares index total accruals) (hd : 0<d)
    (hpos : 0< index) (hscale : 0< scale) (hle : scale≤ index') (hindex : index'*d≤ index*(d+x))
    (htotal : total*(d+x)≤(total'+1)*d) : Covered scale shares index' total' (accruals+1) := by
  have hpos' : (0 : ℚ)< index := cast_pos.mpr hpos
  have hd' : (0 : ℚ)<d := cast_pos.mpr hd
  have hscale' : (0 : ℚ)< scale := cast_pos.mpr hscale
  have hgrowth : (index' : ℚ)/index≤(d+x)/d := by
    rw [div_le_div_iff₀ hpos' hd']
    exact_mod_cast hindex.trans_eq (Nat.mul_comm _ _)
  have hshort : (total : ℚ)*((d+x)/d)≤total'+1 := by
    rw [mul_div_assoc',div_le_iff₀ hd']
    exact_mod_cast htotal
  have hone : (1 : ℚ)≤ index'/scale := by
    rw [one_le_div hscale']
    exact_mod_cast hle
  have hratio : (0 : ℚ)≤ index'/index := by positivity
  unfold Covered at h ⊢
  calc shares*index'=shares*index*(index'/index) := by field_simp
    _ ≤ (total+accruals*(index/scale))*(index'/index) := mul_le_mul_of_nonneg_right h hratio
    _ = total*(index'/index)+accruals*(index'/scale) := by field_simp
    _ ≤ total*((d+x)/d)+accruals*(index'/scale) :=
        add_le_add_left (mul_le_mul_of_nonneg_left hgrowth (cast_nonneg _)) _
    _ ≤ total'+1+accruals*(index'/scale) := add_le_add_left hshort _
    _ ≤ total'+((accruals+1 : Nat) : ℚ)*(index'/scale) := by
        rw [cast_add,cast_one,add_mul,one_mul]
        linarith

theorem worth {κ α : Type} [Fintype κ] {part : α → Balance} {book : κ → Option α}
    (h : Covered scale (sharesOver part book) index total accruals) (hscale : 0< scale) :
    sumOver (fun a => (part a).worth index) book*scale≤total*scale+accruals*index := by
  have hscale' : (0 : ℚ)< scale := cast_pos.mpr hscale
  have hsum := (sumOver_worth_le part book index).trans h
  have hcleared :
      (sumOver (fun a => (part a).worth index) book : ℚ)*scale≤total*scale+accruals*index := by
    calc (sumOver (fun a => (part a).worth index) book : ℚ)*scale
        ≤ (total+accruals*(index/scale))*scale := mul_le_mul_of_nonneg_right hsum hscale'.le
      _ = total*scale+accruals*index := by field_simp
  exact_mod_cast hcleared

end Covered

end PrismChain.InterestIndex
