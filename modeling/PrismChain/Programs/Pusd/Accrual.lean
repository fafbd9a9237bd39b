import PrismChain.Programs.Pusd.Fees

namespace PrismChain.Pusd

open FixedWidth List Option BitVec Nat

namespace Vault

def feeProduct (v : Vault) (now : I64) : Nat :=
  v.debt.toNat*stabilityFeeAnnualBps.toNat*secondsBetween v.lastFeeUpdate now

/-- An accrual at `now` overflows neither the product in 128 bits nor the fee in 64. -/
structure Accruable (v : Vault) (now : I64) : Prop where
  product : v.feeProduct now<2^128
  fee : v.accruedFee.toNat+v.feeProduct now/secondsPerYear.toNat/bpsDenominator.toNat<2^64

end Vault

section Floors

theorem fee_floor_add (a b : Nat) : a/feeUnit+b/feeUnit≤(a+b)/feeUnit ∧
    (a+b)/feeUnit≤a/feeUnit+b/feeUnit+1 := by
  rw [Nat.add_div (show 0<feeUnit by decide)]
  split <;> omega

variable {v : Vault} {now t : I64}

theorem fee_floor (x : Nat) : x/secondsPerYear.toNat/bpsDenominator.toNat=x/feeUnit :=
  Nat.div_div_eq_div_mul x _ _

theorem feeFor_exact {debt elapsed : U64}
    (hproduct : debt.toNat*stabilityFeeAnnualBps.toNat*elapsed.toNat<2^128)
    (hfee : debt.toNat*stabilityFeeAnnualBps.toNat*elapsed.toNat/feeUnit<2^64) :
    (Vault.feeFor debt elapsed).toNat=
    debt.toNat*stabilityFeeAnnualBps.toNat*elapsed.toNat/feeUnit := by
  have hwide (x : U64) : (x.setWidth 128).toNat=x.toNat := toNat_widen (show 64≤128 by decide) x
  obtain ⟨yearly,hyearly,hyearlyValue⟩ := checkedMul_wide debt stabilityFeeAnnualBps
  have htotal : checkedMul yearly (elapsed.setWidth 128)=
      some (BitVec.ofNat 128 (debt.toNat*stabilityFeeAnnualBps.toNat*elapsed.toNat)) := by
    rw [checkedMul_eq_some,hwide,hyearlyValue,toNat_ofNat,mod_eq_of_lt hproduct]
  have hyear : 0<(secondsPerYear.setWidth 128).toNat := by decide
  have hbps : 0<(bpsDenominator.setWidth 128).toNat := by decide
  unfold Vault.feeFor
  rw [hyearly,bind_some,htotal,bind_some,checkedDiv_of_pos hyear,bind_some,
    checkedDiv_of_pos hbps,getD_some,toNat_setWidth,toNat_udiv,
    toNat_udiv,toNat_ofNat,mod_eq_of_lt hproduct,hwide,hwide,fee_floor,
    mod_eq_of_lt hfee]

theorem accrueFee_exact (hdebt : v.debt≠0#64) (hlater : v.lastFeeUpdate.toInt<now.toInt)
    (hfits : v.Accruable now) : (v.accrueFee now).lastFeeUpdate=now ∧
      (v.accrueFee now).accruedFee.toNat=v.accruedFee.toNat+v.feeProduct now/feeUnit := by
  have hcharged : v.accrueFee now={v with
      accruedFee := saturatingAdd v.accruedFee (Vault.feeFor v.debt (now-v.lastFeeUpdate))
      lastFeeUpdate := now} := if_neg (by simp [hdebt,hlater])
  have helapsed : (now-v.lastFeeUpdate).toNat= secondsBetween v.lastFeeUpdate now := by
    have hsub := toNat_sub_of_slt hlater
    unfold secondsBetween
    omega
  have hsum := hfits.fee
  rw [fee_floor] at hsum
  have hfee : (Vault.feeFor v.debt (now-v.lastFeeUpdate)).toNat=v.feeProduct now/feeUnit := by
    unfold Vault.feeProduct at hsum ⊢
    rw [← helapsed] at hsum ⊢
    refine feeFor_exact ?_ (by omega)
    rw [helapsed]
    exact hfits.product
  rw [hcharged]
  refine ⟨rfl,?_⟩
  change (saturatingAdd _ _).toNat=_
  rw [toNat_saturatingAdd,hfee]
  omega

theorem feeProduct_split (hdebt : v.debt≠0#64) (hlater : v.lastFeeUpdate.toInt<t.toInt)
    (hlast : t.toInt≤now.toInt) (hfits : v.Accruable t) :
    v.feeProduct now=v.feeProduct t+(v.accrueFee t).feeProduct now := by
  unfold Vault.feeProduct
  rw [(accrueFee_exact hdebt hlater hfits).1,Vault.accrueFee_debt,
    secondsBetween_add hlater.le hlast,Nat.mul_add]

theorem Vault.Accruable.earlier (hfits : v.Accruable now) (hle : t.toInt≤now.toInt) :
    v.Accruable t := by
  have hproduct : v.feeProduct t≤v.feeProduct now := by
    refine Nat.mul_le_mul_left _ ?_
    unfold secondsBetween
    omega
  have hfloor := Nat.div_le_div_right (c := feeUnit) hproduct
  have hsum := hfits.fee
  rw [fee_floor] at hsum
  refine ⟨hproduct.trans_lt hfits.product,?_⟩
  rw [fee_floor]
  omega

theorem Vault.Accruable.after (hdebt : v.debt≠0#64) (hfits : v.Accruable now)
    (hlater : v.lastFeeUpdate.toInt<t.toInt) (hle : t.toInt≤now.toInt) :
    (v.accrueFee t).Accruable now := by
  have hsplit := feeProduct_split hdebt hlater hle (hfits.earlier hle)
  have hvalue := (accrueFee_exact hdebt hlater (hfits.earlier hle)).2
  have hfloors := (fee_floor_add (v.feeProduct t) ((v.accrueFee t).feeProduct now)).1
  have hproduct := hfits.product
  have hsum := hfits.fee
  rw [fee_floor,hsplit] at hsum
  refine ⟨by omega,?_⟩
  rw [fee_floor,hvalue]
  omega

end Floors

/-- Accruing at the times `ts` one after the other charges what one accrual at the last of them
does, up to one unit for each of the others. -/
theorem accrual_path_independent {v : Vault} {ts : List I64} (hdebt : v.debt≠0#64) (hne : ts≠[])
    (htimes : (v.lastFeeUpdate::ts).Pairwise fun a b => a.toInt<b.toInt)
    (hfits : v.Accruable (ts.getLast hne)) :
    (ts.foldl Vault.accrueFee v).accruedFee.toNat≤(v.accrueFee (ts.getLast hne)).accruedFee.toNat ∧
      (v.accrueFee (ts.getLast hne)).accruedFee.toNat≤
        (ts.foldl Vault.accrueFee v).accruedFee.toNat+(ts.length-1) ∧
      (ts.foldl Vault.accrueFee v).lastFeeUpdate=(v.accrueFee (ts.getLast hne)).lastFeeUpdate := by
  -- the first accrual is split off; the rest starts from the vault it leaves
  induction ts generalizing v with
  | nil => exact absurd rfl hne
  | cons t ts ih =>
    obtain ⟨hafter,hrest⟩ := pairwise_cons.mp htimes
    have hlater := hafter t mem_cons_self
    by_cases hnext : ts=[]
    · subst hnext
      exact ⟨le_rfl,Nat.le_add_right _ _,rfl⟩
    have hend : (t::ts).getLast hne=ts.getLast hnext := getLast_cons hnext
    rw [hend] at hfits ⊢
    have hlt : t.toInt<(ts.getLast hnext).toInt :=
      (pairwise_cons.mp hrest).1 _ (getLast_mem hnext)
    have hle := hlt.le
    obtain ⟨hstamp,hvalue⟩ := accrueFee_exact hdebt hlater (hfits.earlier hle)
    have hsplit := feeProduct_split hdebt hlater hle (hfits.earlier hle)
    have hfits' := hfits.after hdebt hlater hle
    have hdebt' : (v.accrueFee t).debt≠0#64 := by
      rw [Vault.accrueFee_debt]
      exact hdebt
    obtain ⟨hupper,hlower,hlast⟩ := ih hdebt' hnext (by rw [hstamp]; exact hrest) hfits'
    have hone := accrueFee_exact hdebt (hlater.trans hlt) hfits
    have htwo := accrueFee_exact hdebt' (by rw [hstamp]; exact hlt) hfits'
    obtain ⟨_,_⟩ := fee_floor_add (v.feeProduct t) ((v.accrueFee t).feeProduct (ts.getLast hnext))
    have hlength : 0<ts.length := length_pos_iff.mpr hnext
    rw [htwo.2,hvalue] at hupper hlower
    rw [hone.2,hsplit,foldl_cons,length_cons]
    refine ⟨by omega,by omega,?_⟩
    rw [hlast,hone.1,htwo.1]

def accrualVault : Vault := ⟨true,2#256,0#64,100000000#64,0#64,0#64,0#64,255#8,0#64⟩

theorem accrual_in_four_steps :
    let ts : List I64 := [15#64,30#64,45#64,48#64]
    (ts.foldl Vault.accrueFee accrualVault).accruedFee.toNat=0 ∧
      (accrualVault.accrueFee 48#64).accruedFee.toNat=3 ∧
      (accrualVault.accrueFee 48#64).accruedFee.toNat≤
        (ts.foldl Vault.accrueFee accrualVault).accruedFee.toNat+3 := by
  have htimes : (accrualVault.lastFeeUpdate::[15#64,30#64,45#64,48#64]).Pairwise
      fun a b => a.toInt<b.toInt := by decide
  refine ⟨by decide,by decide,?_⟩
  exact (accrual_path_independent (by decide) (by decide) htimes ⟨by decide,by decide⟩).2.1

end PrismChain.Pusd
