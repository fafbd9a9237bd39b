import PrismChain.Math.Compounding
import PrismChain.Programs.Scusd.Liquidation

namespace PrismChain.Scusd

open FixedWidth Nat

section Quote

variable {collateral debt price minRatio : U64}

theorem scaledValue (hfits : collateral.toNat*price.toNat*10000<2^128) :
    ((checkedMul ((checkedMul (collateral.setWidth 128) (price.setWidth 128)).getD 0#128)
      10000#128).getD 0#128).toNat=collateral.toNat*price.toNat*10000 := by
  obtain ⟨x,hx,hvalue⟩ := checkedMul_wide collateral price
  obtain ⟨y,hy⟩ := exists_toNat hfits
  have hscaled : checkedMul x 10000#128=some y := checkedMul_eq_some.mpr (by rw [hy,hvalue]; rfl)
  rw [hx,Option.getD_some,hscaled,Option.getD_some,hy]

theorem collateralRatio_eq (hdebt : 0<debt.toNat) (hfits : collateral.toNat*price.toNat*10000<2^128)
    (huncut : collateral.toNat*price.toNat*10000/(debt.toNat*priceDecimals.toNat)<2^64) :
    (calculateCollateralRatio collateral debt price).toNat=
      collateral.toNat*price.toNat*10000/(debt.toNat*priceDecimals.toNat) := by
  obtain ⟨x,hx,hvalue⟩ := checkedMul_wide debt priceDecimals
  rw [calculateCollateralRatio,if_neg (toNat_pos.mp hdebt),hx,Option.getD_some,
    BitVec.toNat_setWidth,BitVec.toNat_udiv,scaledValue hfits,hvalue,mod_eq_of_lt huncut]

theorem maxMint_eq (hmin : 0< minRatio.toNat) (hfits : collateral.toNat*price.toNat*10000<2^128)
    (huncut : collateral.toNat*price.toNat*10000/(priceDecimals.toNat*minRatio.toNat)<2^64) :
    ∃ quote,calculateMaxMint collateral debt price minRatio=.ok quote ∧ quote.toNat=
      collateral.toNat*price.toNat*10000/(priceDecimals.toNat*minRatio.toNat)-debt.toNat := by
  have hunit : (priceDecimals.setWidth 128*minRatio.setWidth 128).toNat=
      priceDecimals.toNat*minRatio.toNat := by
    rw [BitVec.toNat_mul,toNat_widen (by decide),toNat_widen (by decide)]
    refine mod_eq_of_lt ((Nat.mul_lt_mul'' priceDecimals.isLt minRatio.isLt).trans_eq ?_)
    norm_num
  have hpos : 0<(priceDecimals.setWidth 128*minRatio.setWidth 128).toNat := by
    rw [hunit]
    exact Nat.mul_pos (by decide) hmin
  rw [calculateMaxMint,checkedDiv_of_pos hpos]
  refine ⟨_,rfl,?_⟩
  rw [toNat_saturatingSub,BitVec.toNat_setWidth,BitVec.toNat_udiv,scaledValue hfits,hunit,
    mod_eq_of_lt huncut]

end Quote

/-- A loan keeps the minimum ratio exactly when it is within the quote. -/
theorem quote_matches_check {collateral debt price minRatio amount newDebt : U64}
    (hnew : checkedAdd debt amount=some newDebt) (hmin : 0< minRatio.toNat)
    (hamount : 0<amount.toNat) (hfits : collateral.toNat*price.toNat*10000<2^128)
    (hratio : collateral.toNat*price.toNat*10000/(newDebt.toNat*priceDecimals.toNat)<2^64)
    (hmax : collateral.toNat*price.toNat*10000/(priceDecimals.toNat*minRatio.toNat)<2^64) :
    ∃ quote,calculateMaxMint collateral debt price minRatio=.ok quote ∧
      (minRatio.toNat≤(calculateCollateralRatio collateral newDebt price).toNat ↔
        amount.toNat≤quote.toNat) := by
  obtain ⟨quote,hquote,hvalue⟩ := @maxMint_eq _ debt _ _ hmin hfits hmax
  have hsum := checkedAdd_eq_some.mp hnew
  have hdebt : 0<newDebt.toNat := by omega
  have hdecimals : 0<priceDecimals.toNat := by decide
  refine ⟨quote,hquote,?_⟩
  rw [collateralRatio_eq hdebt hfits hratio,hvalue,
    Nat.le_div_iff_mul_le (Nat.mul_pos hdebt hdecimals)]
  have hswap : minRatio.toNat*(newDebt.toNat*priceDecimals.toNat)=
      newDebt.toNat*(priceDecimals.toNat*minRatio.toNat) := by ring
  rw [hswap,← Nat.le_div_iff_mul_le (Nat.mul_pos hdecimals hmin),hsum]
  omega

/-- 3000 units at a dollar carry a loan of 2000 at 150 per cent, not one of 2001. -/
theorem quote_of_two_thousand : ∃ quote,
    calculateMaxMint 3000#64 0#64 100000000#64 15000#64=.ok quote ∧ quote.toNat=2000 ∧
    (15000≤(calculateCollateralRatio 3000#64 2001#64 100000000#64).toNat ↔ 2001≤quote.toNat) := by
  obtain ⟨quote,hquote,hiff⟩ := @quote_matches_check 3000#64 0#64 100000000#64 15000#64 2001#64
    2001#64 (by decide) (by decide) (by decide) (by decide) (by decide) (by decide)
  refine ⟨quote,hquote,?_,hiff⟩
  have hvalue : calculateMaxMint 3000#64 0#64 100000000#64 15000#64=.ok 2000#64 := by decide
  rw [Except.ok.inj (hquote.symm.trans hvalue)]
  rfl

/-- Rates are in basis points a year. -/
def feeUnit : Nat := 10000*secondsPerYear.toNat

/-- The seconds until `now` for which the vault has not been charged. -/
def Vault.age (v : Vault) (now : I64) : Nat := (now.toInt-v.lastUpdate.toInt).toNat

/-- The exact fee at `now` is within a word. -/
def FeeFits (v : Vault) (rate : U64) (now : I64) : Prop :=
  v.debtAmount.toNat*rate.toNat*v.age now/feeUnit<2^64

/-- `v` is what `n` deposits by its owner, of any amounts, have made of the vault `v₀`. -/
inductive Touched (rate : U64) (v₀ : Vault) : Nat → Vault → Prop
  | start : Touched rate v₀ 0 v₀
  | deposit {n : Nat} {v : Vault} {g : GlobalState} {amount : U64} {now : I64}
      {x : Vault×GlobalState} (before : Touched rate v₀ n v) (hrate : g.stabilityFeeRate=rate)
      (hfits : FeeFits v rate now)
      (hx : deposited (accrueStabilityFee v g now) g amount now=.ok x) : Touched rate v₀ (n+1) x.1

/-- The debt of `v` is what the debt of `v₀` had to grow to until the last update, but for less than
a unit in each of `n` accruals. -/
structure Charged (v₀ : Vault) (rate : U64) (n : Nat) (v : Vault) : Prop where
  grows : v₀.debtAmount.toNat≤v.debtAmount.toNat
  charged : v.debtAmount.toNat=2^64-1 ∨
    v₀.debtAmount.toNat*feeUnit+v₀.debtAmount.toNat*(rate.toNat*v₀.age v.lastUpdate)≤
      v.debtAmount.toNat*feeUnit+n*(feeUnit-1)

section Accruals

variable {g : GlobalState} {rate : U64}

theorem stabilityFee_eq {debt elapsed : U64}
    (hfits : debt.toNat*rate.toNat*elapsed.toNat/feeUnit<2^64) :
    (calculateStabilityFee debt rate elapsed).toNat=
    debt.toNat*rate.toNat*elapsed.toNat/feeUnit := by
  unfold calculateStabilityFee
  split_ifs with hzero
  · obtain rfl | rfl := hzero <;> simp
  obtain ⟨x,hx,hvalue⟩ := checkedMul_wide debt rate
  have hproduct : debt.toNat*rate.toNat*elapsed.toNat<2^128 :=
    ((Nat.div_lt_iff_lt_mul (by decide)).mp hfits).trans (by decide)
  obtain ⟨y,hy⟩ := exists_toNat hproduct
  have hmul : checkedMul x (elapsed.setWidth 128)=some y :=
    checkedMul_eq_some.mpr (by rw [hy,hvalue,toNat_widen (by decide)])
  have hunit : (10000#128*secondsPerYear.setWidth 128).toNat=feeUnit := by decide
  dsimp only
  rw [hx,Option.getD_some,hmul,Option.getD_some,BitVec.toNat_setWidth,BitVec.toNat_udiv,hy,hunit,
    mod_eq_of_lt hfits]

/-- Nothing accrues on a vault without debt or before its last update, and nothing is due. -/
theorem accrue_debt (hfits : FeeFits v g.stabilityFeeRate now) :
    (accrueStabilityFee v g now).debtAmount.toNat=min (v.debtAmount.toNat+
      v.debtAmount.toNat*g.stabilityFeeRate.toNat*v.age now/feeUnit) (2^64-1) := by
  have hle := le_sub_one_of_lt v.debtAmount.isLt
  unfold accrueStabilityFee
  by_cases hskip : v.debtAmount=0#64 ∨ now.toInt≤v.lastUpdate.toInt
  · have hnone : v.debtAmount.toNat*g.stabilityFeeRate.toNat*v.age now=0 := by
      obtain hzero | _ := hskip
      · rw [hzero]
        simp
      · rw [Vault.age,Int.toNat_eq_zero.mpr (by omega),Nat.mul_zero]
    rw [if_pos hskip,hnone,Nat.zero_div,Nat.add_zero,min_eq_left hle]
  · have hage : v.age now=(now-v.lastUpdate).toNat := by
      have hexact := toNat_sub_of_slt (not_le.mp (not_or.mp hskip).2)
      rw [Vault.age]
      omega
    rw [FeeFits,hage] at hfits
    have hfee := stabilityFee_eq hfits
    rw [if_neg hskip,hage]
    dsimp only
    split_ifs with hpos
    · rw [toNat_saturatingAdd,hfee]
    · rw [← hfee,Nat.eq_zero_of_not_pos hpos,Nat.add_zero,min_eq_left hle]

/-- One more accrual, by which the vault is stamped with the present. -/
theorem Charged.accrue {v' : Vault} (h : Charged v0 rate n v) (hrate : g.stabilityFeeRate=rate)
    (hfits : FeeFits v rate now) (hdebt : v'.debtAmount=(accrueStabilityFee v g now).debtAmount)
    (hstamped : v'.lastUpdate=now) : Charged v0 rate (n+1) v' := by
  subst hrate
  obtain ⟨hgrows,hcharged⟩ := h
  have hsum := accrue_debt hfits
  rw [← hdebt] at hsum
  by_cases hfull : v'.debtAmount.toNat=2^64-1
  · exact ⟨hfull ▸ le_sub_one_of_lt v0.debtAmount.isLt,.inl hfull⟩
  have hexact : v.debtAmount.toNat+v.debtAmount.toNat*g.stabilityFeeRate.toNat*v.age now/feeUnit≤
      v'.debtAmount.toNat := by omega
  have hmore : v.debtAmount.toNat≤v'.debtAmount.toNat := (Nat.le_add_right _ _).trans hexact
  refine ⟨hgrows.trans hmore,.inr ?_⟩
  have hcharged := hcharged.resolve_left fun hfull' =>
    hfull (le_antisymm (le_sub_one_of_lt v'.debtAmount.isLt) (hfull' ▸ hmore))
  have hstep := Compounding.step_lower (by decide) hgrows hexact
  have hage : v0.age v'.lastUpdate≤v0.age v.lastUpdate+v.age now := by
    rw [hstamped,Vault.age,Vault.age,Vault.age]
    omega
  have hlonger := Nat.mul_le_mul_left (v0.debtAmount.toNat)
    (Nat.mul_le_mul_left g.stabilityFeeRate.toNat hage)
  rw [Nat.mul_add,Nat.mul_add] at hlonger
  rw [Nat.add_mul,Nat.one_mul]
  omega

/-- A single accrual takes no more than the exact fee. -/
theorem Charged.single {v' : Vault} (h : Charged v0 rate (n+1) v') (hrate : g.stabilityFeeRate=rate)
    (hstamped : v'.lastUpdate=now) :
    (accrueStabilityFee v0 g now).debtAmount.toNat≤v'.debtAmount.toNat+n := by
  subst hrate
  obtain hfull | hcharged := h.charged
  · rw [hfull]
    exact (le_sub_one_of_lt (BitVec.isLt _)).trans (Nat.le_add_right _ _)
  refine Compounding.units_lost (n := n+1) (show 0<feeUnit by decide) (le_trans ?_ hcharged)
  rw [hstamped,← Nat.mul_assoc]
  have hfloor := div_mul_le_self (v0.debtAmount.toNat*g.stabilityFeeRate.toNat*v0.age now) feeUnit
  have hle : (accrueStabilityFee v0 g now).debtAmount.toNat≤v0.debtAmount.toNat+
      v0.debtAmount.toNat*g.stabilityFeeRate.toNat*v0.age now/feeUnit := by
    by_cases hfits : FeeFits v0 g.stabilityFeeRate now
    · exact (accrue_debt hfits).le.trans (min_le_left _ _)
    · exact ((BitVec.isLt _).le.trans (not_lt.mp hfits)).trans (Nat.le_add_left _ _)
  have hscaled := Nat.mul_le_mul_right feeUnit hle
  rw [Nat.add_mul] at hscaled
  omega

theorem Touched.charged (h : Touched rate v0 n v) : Charged v0 rate n v := by
  induction h with
  | start => exact ⟨le_rfl,.inr (by simp [Vault.age])⟩
  | deposit _ hrate hfits hx ih =>
    simp only [deposited,steps_ok] at hx
    obtain ⟨_,-,_,-,rfl⟩ := hx
    exact ih.accrue hrate hfits rfl rfl

/-- An accepted `DepositCollateral` touches its vault once more. -/
theorem Touched.executed {e : Env} {c : Call Instruction} {b b' : Bank} {k : Pubkey} {amount : U64}
    (h : Touched rate v0 n v) (hc : c.instruction=.depositCollateral amount)
    (hk : c.key? 1=some k) (hv : (b k).data=vaultCodec.encode v)
    (hrate : ∀ gk g,c.key? 2=some gk → (b gk).data=globalCodec.encode g → g.stabilityFeeRate=rate)
    (hfits : FeeFits v rate c.clock.unixTimestamp) (hx : (program e).execute c b=.ok b') :
    ∃ v',(b' k).data=vaultCodec.encode v' ∧ Touched rate v0 (n+1) v' := by
  cases execute_spec hx with
  | initialized hi =>
    rw [hc] at hi
    cases hi
  | opened ho =>
    rw [hc] at ho
    cases ho
  | updated u =>
    cases u.vaultKey.symm.trans hk
    obtain rfl := vaultCodec.encode_inj (u.written.vault.symm.trans hv)
    have heffect := u.effect
    rw [hc] at heffect
    cases heffect with
    | deposited hx =>
      exact ⟨_,u.written.vault',h.deposit (hrate _ _ u.globalKey u.written.global) hfits hx⟩

end Accruals

/-- Touching a vault saves its owner less than one unit a time against a single accrual. -/
theorem touched_debt_lower {rate : U64} {n : Nat} {v₀ v : Vault} {g : GlobalState} {finish : I64}
    (htouched : Touched rate v₀ n v) (hrate : g.stabilityFeeRate=rate)
    (hfits : FeeFits v rate finish) :
    (accrueStabilityFee v₀ g finish).debtAmount.toNat≤
      (accrueStabilityFee v g finish).debtAmount.toNat+n := by
  have hlast : Charged v₀ rate (n+1) {accrueStabilityFee v g finish with lastUpdate := finish} :=
    htouched.charged.accrue hrate hfits rfl rfl
  exact hlast.single hrate rfl

/-- Nine days after a loan of 2000 the fee is just below a unit, and the owner touches the vault. -/
theorem nineDays_touched : Touched 200#64 (loanVault 3000#64 2000#64) 1
    {loanVault 3000#64 2000#64 with lastUpdate := 789939#64} :=
  .deposit (g := loanGlobal 3000#64 2000#64) (v := loanVault 3000#64 2000#64) .start rfl
    (by unfold FeeFits; decide +kernel)
    (show deposited _ _ 0#64 789939#64=.ok (_,loanGlobal 3000#64 2000#64) by decide +kernel)

theorem nineDays_charged : 2001≤(accrueStabilityFee {loanVault 3000#64 2000#64 with
    lastUpdate := 789939#64} (loanGlobal 3000#64 2000#64) 1578878#64).debtAmount.toNat+1 := by
  have hsingle : (accrueStabilityFee (loanVault 3000#64 2000#64) (loanGlobal 3000#64 2000#64)
      1578878#64).debtAmount.toNat=2001 := by decide +kernel
  rw [← hsingle]
  exact touched_debt_lower nineDays_touched rfl (by unfold FeeFits; decide +kernel)

/-- After eighteen days the debt is 2000 still, where a single accrual asks for 2001. -/
theorem fee_avoided : ∃ v₀ v g finish,Touched 200#64 v₀ 1 v ∧ 0<v₀.debtAmount.toNat ∧
    g.stabilityFeeRate=200#64 ∧ (accrueStabilityFee v g finish).debtAmount.toNat<
      (accrueStabilityFee v₀ g finish).debtAmount.toNat :=
  ⟨_,_,loanGlobal 3000#64 2000#64,1578878#64,nineDays_touched,by decide,rfl,by decide +kernel⟩

end PrismChain.Scusd
