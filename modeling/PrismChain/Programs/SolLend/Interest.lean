import PrismChain.Math.InterestIndex
import PrismChain.Programs.SolLend.Processor

namespace PrismChain.SolLend

open FixedWidth InterestIndex Option BitVec Nat

/-- What a rate in basis points times a number of slots is divided by. -/
def accrualBase : Nat := 788400000000

theorem denominator_eq : checkedMul bps slotsPerYear=some 788400000000#64 := by decide

theorem divisor_toNat : (bps*slotsPerYear).toNat=accrualBase := by decide

section Settlement

variable {amount index snapshot : U64}

theorem settledAmount_zero : settledAmount 0#64 index snapshot=0#64 := if_neg (by simp)

theorem settledAmount_same : settledAmount amount index index=amount := by
  unfold settledAmount
  split_ifs with hpos
  · cases hm : checkedMul amount index with
    | none => rfl
    | some =>
      have hv := checkedMul_eq_some.mp hm
      refine eq_of_toNat_eq ?_
      rw [map_some,getD_some,toNat_udiv,hv]
      exact Nat.mul_div_cancel _ hpos.1
  · rfl

theorem settledAmount_le (h : amount=0#64 ∨ 0< snapshot.toNat ∧ snapshot.toNat≤ index.toNat) :
    (settledAmount amount index snapshot).toNat≤
      (⟨amount.toNat,snapshot.toNat⟩ : Balance).worth index.toNat := by
  obtain rfl | ⟨hpos,hle⟩ := h
  · rw [settledAmount_zero]
    exact Nat.zero_le _
  have hkept : amount.toNat≤amount.toNat*index.toNat/snapshot.toNat := by
    rw [Nat.le_div_iff_mul_le hpos]
    exact Nat.mul_le_mul_left _ hle
  unfold settledAmount Balance.worth
  split_ifs
  · cases hm : checkedMul amount index with
    | none => exact hkept
    | some =>
      rw [map_some,getD_some,toNat_udiv,checkedMul_eq_some.mp hm]
  · exact hkept

end Settlement

theorem product_eq_some {a b c : U64} (hc : 0<c.toNat) (h : a.toNat*b.toNat*c.toNat<2^64) :
    ∃ n : U64,((checkedMul a b).bind fun v => checkedMul v c)=some n ∧
      n.toNat=a.toNat*b.toNat*c.toNat := by
  obtain ⟨v,hv⟩ := exists_toNat ((Nat.le_mul_of_pos_right _ hc).trans_lt h)
  obtain ⟨n,hn⟩ := exists_toNat h
  refine ⟨n,?_,hn⟩
  rw [checkedMul_eq_some.mpr hv,bind_some]
  apply checkedMul_eq_some.mpr
  rw [hn,hv]

section Indices

variable {index rate slots : U64}

theorem compoundIndex_eq (index rate slots : U64) : compoundIndex index rate slots=index ∨
    ∃ n : U64,n.toNat=index.toNat*rate.toNat*slots.toNat ∧
      compoundIndex index rate slots=saturatingAdd index (n/788400000000#64) := by
  unfold compoundIndex
  rw [denominator_eq]
  cases hn : (checkedMul index rate).bind fun v => checkedMul v slots with
  | none => exact Or.inl rfl
  | some n =>
    obtain ⟨v,hv,hn⟩ := bind_eq_some_iff.mp hn
    refine Or.inr ⟨n,?_,if_pos (by decide)⟩
    rw [checkedMul_eq_some.mp hn,checkedMul_eq_some.mp hv]

theorem le_compoundIndex : index.toNat≤(compoundIndex index rate slots).toNat := by
  obtain hsame | ⟨n,-,hadd⟩ := compoundIndex_eq index rate slots
  · rw [hsame]
  · have hlt := index.isLt
    rw [hadd,toNat_saturatingAdd]
    omega

theorem compoundIndex_le : (compoundIndex index rate slots).toNat*accrualBase≤
    index.toNat*(accrualBase+rate.toNat*slots.toNat) := by
  rw [Nat.mul_add,← Nat.mul_assoc]
  obtain hsame | ⟨n,hn,hadd⟩ := compoundIndex_eq index rate slots
  · rw [hsame]
    exact Nat.le_add_right _ _
  have hfloor := div_mul_le_self n.toNat accrualBase
  rw [hadd,toNat_saturatingAdd,toNat_udiv,← hn]
  calc min (index.toNat+n.toNat/(788400000000#64).toNat) (2^64-1)*accrualBase
      ≤ (index.toNat+n.toNat/accrualBase)*accrualBase :=
        Nat.mul_le_mul_right _ (min_le_left _ _)
    _ ≤ index.toNat*accrualBase+n.toNat := by
        rw [Nat.add_mul]
        exact Nat.add_le_add_left hfloor _

theorem compoundIndex_fits (hproduct : index.toNat*rate.toNat*slots.toNat<2^64) :
    (compoundIndex index rate slots).toNat=
      min (index.toNat+index.toNat*rate.toNat*slots.toNat/accrualBase) (2^64-1) := by
  have hgrown {n : U64} (hn : n.toNat=index.toNat*rate.toNat*slots.toNat) :
      (saturatingAdd index (n/788400000000#64)).toNat=
        min (index.toNat+index.toNat*rate.toNat*slots.toNat/accrualBase) (2^64-1) := by
    rw [toNat_saturatingAdd,toNat_udiv,hn]
    rfl
  by_cases hs : slots.toNat=0
  · obtain hsame | ⟨n,hn,hadd⟩ := compoundIndex_eq index rate slots
    · have hlt := index.isLt
      rw [hsame,hs,Nat.mul_zero,Nat.zero_div,Nat.add_zero]
      omega
    · rw [hadd,hgrown hn]
  · obtain ⟨n,hn,hvalue⟩ := product_eq_some (Nat.pos_of_ne_zero hs) hproduct
    rw [← hgrown hvalue,compoundIndex,denominator_eq,hn]
    rfl

theorem compoundIndex_exact (hproduct : index.toNat*rate.toNat*slots.toNat<2^64)
    (hsum : index.toNat+index.toNat*rate.toNat*slots.toNat/accrualBase<2^64) :
    (compoundIndex index rate slots).toNat=
    index.toNat+index.toNat*rate.toNat*slots.toNat/accrualBase := by
  rw [compoundIndex_fits hproduct]
  exact min_eq_left (le_sub_one_of_lt hsum)

end Indices

section Rates

theorem toNat_saturatingMul (a b : BitVec w) :
    ((checkedMul a b).getD (allOnes w)).toNat=min (a.toNat*b.toNat) (2^w-1) := by
  unfold checkedMul
  split_ifs with hfits
  · rw [getD_some,toNat_mul,mod_eq_of_lt hfits]
    omega
  · rw [getD_none,toNat_allOnes]
    omega

/-- Lenders are promised at most what borrowers pay. -/
def Fair (m : LendingMarket) : Prop :=
  m.depositRate.toNat*m.totalDeposits.toNat≤ m.borrowRate.toNat*m.totalBorrows.toNat

theorem calculateUtilization_le (totalDeposits totalBorrows : U64) :
    (calculateUtilization totalDeposits totalBorrows).toNat*totalDeposits.toNat≤
      totalBorrows.toNat*bps.toNat := by
  unfold calculateUtilization
  split_ifs with hzero
  · rw [hzero]
    exact Nat.zero_le _
  rw [toNat_udiv]
  refine (div_mul_le_self _ _).trans ?_
  rw [toNat_saturatingMul]
  exact Nat.min_le_left _ _

theorem recalculateRates_fair (m : LendingMarket) : Fair (recalculateRates m) := by
  have hutil := calculateUtilization_le m.totalDeposits m.totalBorrows
  unfold Fair recalculateRates
  dsimp only
  generalize hu : calculateUtilization m.totalDeposits m.totalBorrows=u at hutil ⊢
  generalize calculateInterestRate u=r
  have hrate : ((checkedMul r u).getD 0#64/bps).toNat*bps.toNat≤ r.toNat*u.toNat := by
    rw [toNat_udiv]
    refine (div_mul_le_self _ _).trans ?_
    cases hm : checkedMul r u with
    | none => exact Nat.zero_le _
    | some => rw [getD_some,checkedMul_eq_some.mp hm]
  refine Nat.le_of_mul_le_mul_right ?_ (show 0<bps.toNat by decide)
  calc ((checkedMul r u).getD 0#64/bps).toNat*m.totalDeposits.toNat*bps.toNat
      = ((checkedMul r u).getD 0#64/bps).toNat*bps.toNat*m.totalDeposits.toNat :=
        Nat.mul_right_comm _ _ _
    _ ≤ r.toNat*u.toNat*m.totalDeposits.toNat := Nat.mul_le_mul_right _ hrate
    _ = r.toNat*(u.toNat*m.totalDeposits.toNat) := Nat.mul_assoc _ _ _
    _ ≤ r.toNat*(m.totalBorrows.toNat*bps.toNat) := Nat.mul_le_mul_left _ hutil
    _ = r.toNat*m.totalBorrows.toNat*bps.toNat := (Nat.mul_assoc _ _ _).symm

theorem toNat_checkedAdd_getD (h : a.toNat+b.toNat<2^w) (d : BitVec w) :
    ((checkedAdd a b).getD d).toNat=a.toNat+b.toNat := by
  rw [checkedAdd,if_pos h,getD_some,toNat_add,mod_eq_of_lt h]

/-- The curve on numbers: two lines that meet at the kink, the steep one flat where its product
no longer fits. -/
theorem calculateInterestRate_value (u : U64) : (calculateInterestRate u).toNat=
    if u.toNat≤optimalUtilizationBps.toNat then 200+400*u.toNat/8000
    else 600+min (7500*(u.toNat-8000)) (2^64-1)/2000 := by
  have hlow := toNat_saturatingMul slope1Bps u
  have hhigh := toNat_saturatingMul slope2Bps (saturatingSub u optimalUtilizationBps)
  rw [toNat_saturatingSub] at hhigh
  change _=min (400*u.toNat) _ at hlow
  change _=min (7500*(u.toNat-8000)) _ at hhigh
  unfold calculateInterestRate
  by_cases hzero : u=0#64
  · rw [if_pos hzero,hzero]
    rfl
  rw [if_neg hzero]
  by_cases hkink : u.toNat≤optimalUtilizationBps.toNat
  · have hbelow : u.toNat≤8000 := hkink
    rw [if_pos hkink,if_pos hkink,toNat_checkedAdd_getD,toNat_udiv,hlow]
    · change 200+_/8000=_
      omega
    · rw [toNat_udiv,hlow]
      change 200+_/8000<_
      omega
  · rw [if_neg hkink,if_neg hkink]
    change ((checkedAdd 600#64 _).getD _).toNat=_
    rw [toNat_checkedAdd_getD,toNat_udiv,hhigh]
    · rfl
    · rw [toNat_udiv,hhigh]
      change 600+_/2000<_
      omega

theorem calculateInterestRate_mono {u u' : U64} (h : u.toNat≤u'.toNat) :
    (calculateInterestRate u).toNat≤(calculateInterestRate u').toNat := by
  rw [calculateInterestRate_value,calculateInterestRate_value,
    show optimalUtilizationBps.toNat=8000 from rfl]
  split_ifs <;> omega

theorem calculateUtilization_mono {d d' w w' : U64} (hd : 0<d'.toNat) (hle : d'.toNat≤d.toNat)
    (hw : w.toNat≤w'.toNat) :
    (calculateUtilization d w).toNat≤(calculateUtilization d' w').toNat := by
  unfold calculateUtilization
  rw [if_neg (toNat_pos.mp hd),if_neg (toNat_pos.mp (hd.trans_le hle)),toNat_udiv,toNat_udiv,
    toNat_saturatingMul,toNat_saturatingMul]
  refine Nat.div_le_div ?_ hle hd.ne'
  exact min_le_min_right _ (Nat.mul_le_mul_right _ hw)

/-- More borrowed, or less deposited, never lowers the rate. -/
theorem rate_curve_monotone {d d' w w' : U64} (hd : 0<d'.toNat) (hle : d'.toNat≤d.toNat)
    (hw : w.toNat≤w'.toNat) : (calculateInterestRate (calculateUtilization d w)).toNat≤
      (calculateInterestRate (calculateUtilization d' w')).toNat :=
  calculateInterestRate_mono (calculateUtilization_mono hd hle hw)

/-- Across the kink, and to a product that does not fit. -/
theorem rate_curve_across_kink : (calculateInterestRate (calculateUtilization 10#64 8#64)).toNat≤
      (calculateInterestRate (calculateUtilization 1#64 (allOnes 64))).toNat :=
  rate_curve_monotone (by decide) (by decide) (by decide)

end Rates

def exactInterest (m : LendingMarket) (slots : U64) : Nat :=
  m.totalBorrows.toNat*m.borrowRate.toNat*slots.toNat

theorem interestAccrued_eq (h : exactInterest m slots<2^64) :
    (interestAccrued m slots).toNat=exactInterest m slots/accrualBase := by
  unfold exactInterest at h ⊢
  by_cases hs : slots.toNat=0
  · rw [hs,Nat.mul_zero,Nat.zero_div,interestAccrued]
    cases hn : (checkedMul m.totalBorrows m.borrowRate).bind fun v => checkedMul v slots with
    | none => rfl
    | some n =>
      obtain ⟨v,-,hn⟩ := bind_eq_some_iff.mp hn
      rw [map_some,getD_some,toNat_udiv,checkedMul_eq_some.mp hn,hs,Nat.mul_zero,Nat.zero_div]
  · obtain ⟨n,hn,hvalue⟩ := product_eq_some (Nat.pos_of_ne_zero hs) h
    rw [interestAccrued,hn,map_some,getD_some,toNat_udiv,divisor_toNat,hvalue]

end PrismChain.SolLend
