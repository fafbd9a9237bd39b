import PrismChain.Programs.SolLend.Totals

namespace PrismChain.SolLend

open FixedWidth Option BitVec Program

def Healthy (deposited borrowed threshold : U64) : Prop :=
  bps.toNat≤(calculateHealthFactor deposited borrowed threshold).toNat

section Arithmetic

variable {deposited borrowed threshold ltv : U64}

theorem healthy_of_debtless : Healthy deposited 0#64 threshold := by
  show bps.toNat≤(calculateHealthFactor deposited 0#64 threshold).toNat
  rw [calculateHealthFactor,if_pos rfl]
  decide

/-- The product that does not fit is replaced by the largest word, and a debt within the limit is at
most a ten thousandth of that. -/
theorem healthy_of_limit (hltv : ltv.toNat≤threshold.toNat)
    (hlimit : borrowed.toNat≤((checkedMul deposited ltv).getD 0#64/bps).toNat) :
    Healthy deposited borrowed threshold := by
  by_cases hzero : borrowed=0#64
  · rw [hzero]
    exact healthy_of_debtless
  have hpos : 0<borrowed.toNat := toNat_pos.mpr hzero
  rw [toNat_udiv] at hlimit
  unfold Healthy calculateHealthFactor
  rw [if_neg hzero,toNat_udiv,Nat.le_div_iff_mul_le hpos]
  cases hm : checkedMul deposited ltv with
  | none =>
    -- nothing may be borrowed against a product that does not fit
    rw [hm,getD_none,toNat_zero,Nat.zero_div] at hlimit
    omega
  | some v =>
    rw [hm,getD_some] at hlimit
    have hscaled : bps.toNat*borrowed.toNat≤v.toNat := by
      rw [Nat.mul_comm]
      exact (Nat.mul_le_mul_right _ hlimit).trans (Nat.div_mul_le_self _ _)
    have hv := checkedMul_eq_some.mp hm
    cases hp : checkedMul deposited threshold with
    | none =>
      have hlt := v.isLt
      rw [getD_none,toNat_allOnes]
      omega
    | some =>
      rw [getD_some,checkedMul_eq_some.mp hp]
      calc bps.toNat*borrowed.toNat≤v.toNat := hscaled
        _ = deposited.toNat*ltv.toNat := hv
        _ ≤ deposited.toNat*threshold.toNat := Nat.mul_le_mul_left _ hltv

end Arithmetic

section Changes

variable {m : LendingMarket}

theorem borrowed_healthy (hltv : m.ltvRatio.toNat≤ m.liquidationThreshold.toNat)
    (h : borrowed amount m p=.ok x) :
    Healthy x.2.depositedAmount x.2.borrowedAmount x.1.liquidationThreshold := by
  simp only [borrowed,steps_ok] at h
  obtain ⟨_,-,-,hlimit,_,-,rfl⟩ := h
  exact healthy_of_limit hltv hlimit

theorem withdrawn_healthy (h : withdrawn amount m p=.ok x) :
    Healthy x.2.depositedAmount x.2.borrowedAmount x.1.liquidationThreshold := by
  simp only [withdrawn,steps_ok] at h
  obtain ⟨-,-,-,hhealth,rfl⟩ := h
  obtain hzero | hhealth := hhealth
  · show Healthy _ (settleUserInterest p m).borrowedAmount _
    rw [hzero]
    exact healthy_of_debtless
  · exact hhealth

theorem liquidated_refused (hsnapshot : ∀ q : Side,q.snapshot p=q.index m)
    (hhealth : Healthy p.depositedAmount p.borrowedAmount m.liquidationThreshold) :
    liquidated amount m p=.error (err .positionHealthy) := by
  have hsame (q : Side) : q.amount (settleUserInterest p m)=q.amount p := by
    rw [q.amount_settle,hsnapshot q,settledAmount_same]
  have hdeposited : (settleUserInterest p m).depositedAmount=p.depositedAmount := hsame .deposits
  have hborrowed : (settleUserInterest p m).borrowedAmount=p.borrowedAmount := hsame .borrows
  unfold liquidated
  dsimp only
  rw [hdeposited,hborrowed,require_neg (Nat.not_lt.mpr hhealth),error_bind]

end Changes

structure LiquidationAccounts where
  market : AccountInfo
  position : AccountInfo
  liquidator : AccountInfo
  rest : List AccountInfo

def LiquidationAccounts.call (l : LiquidationAccounts) (clock : Clock) (amount : U64) :
    Call Instruction :=
  ⟨clock,l.market::l.position::l.liquidator::l.rest,.liquidate amount⟩

/-- After a `Borrow` or a `Withdraw` nobody can liquidate the position, whatever fits into 64 bits
or does not. -/
theorem not_liquidatable_at_once {id mk k : Pubkey} {c : Call Instruction} {b b' : Bank}
    {m : LendingMarket} (hc : (∃ amount,c.instruction=.borrow amount) ∨
      ∃ amount,c.instruction=.withdraw amount)
    (hmk : c.key? 0=some mk) (hk : c.key? 1=some k)
    (hm : marketCodec.tryFromSlice (b mk).data=some m)
    (hltv : m.ltvRatio.toNat≤ m.liquidationThreshold.toNat)
    (hx : (program id).execute c b=.ok b') (l : LiquidationAccounts) (hlm : l.market.key=mk)
    (hlk : l.position.key=k) (hsigner : l.liquidator.isSigner=true) (clock : Clock) (amount : U64) :
    (program id).execute (l.call clock amount) b'=.error (err .positionHealthy) := by
  have hon : c.instruction.onPosition=true := by
    obtain ⟨_,hc⟩ | ⟨_,hc⟩ := hc <;> rw [hc] <;> rfl
  obtain ⟨_,p,x,u⟩ := execute_onPosition hx hon hmk hk
  obtain rfl :=
    marketCodec.encode_inj (u.market.symm.trans ((marketCodec.tryFromSlice_eq_some).mp hm))
  -- both handlers have read the position, so it fills its account
  have hresult : (b k).data=positionCodec.encode p ∧
      Healthy x.2.depositedAmount x.2.borrowedAmount x.1.liquidationThreshold := by
    have heffect := u.effect
    rcases hc with ⟨a,hc⟩ | ⟨a,hc⟩ <;> rw [hc] at heffect
    · cases heffect with
      | borrowed hp hx => exact ⟨hp,borrowed_healthy hltv hx⟩
    · cases heffect with
      | withdrawn hp hx => exact ⟨hp,withdrawn_healthy hx⟩
  have hposition := u.stored (length_of_position hresult.1)
  have hmoves := u.effect.moves
  have hprocess : (program id).process clock (l.call clock amount).accounts (.liquidate amount)
      ⟨b',b'⟩=.error (err .positionHealthy) := by
    have hload : loadMarket ⟨b',b'⟩ l.market.key=.ok x.1 := by
      rw [hlm,loadMarket_eq_ok]
      exact ⟨u.market',hmoves.market.trans u.live⟩
    have hloadp : loadPosition ⟨b',b'⟩ l.position.key=.ok x.2 := by
      rw [hlk,loadPosition_eq_ok]
      exact hposition
    show liquidate (l.market::l.position::l.liquidator::l.rest) amount ⟨b',b'⟩=_
    have hrefused : liquidated amount x.1 x.2=.error (err .positionHealthy) := by
      apply liquidated_refused _ hresult.2
      intro q
      rw [hmoves.snapshot q,hmoves.index q]
    simp only [liquidate,require_pos hsigner,ok_bind,hload,hloadp,hrefused,error_bind]
  exact execute_error hprocess

theorem full_loan_not_liquidatable : ∃ tr t b',Run ((program 1#256).Step anyCall) sampleStart tr t ∧
    (program 1#256).execute ⟨⟨5#64,0#64⟩,
      [⟨3#256,false,true⟩,⟨6#256,false,true⟩,⟨2#256,true,false⟩],.borrow 80#64⟩ t.bank=.ok b' ∧
    (program 1#256).execute ⟨⟨5#64,0#64⟩,
      [⟨3#256,false,true⟩,⟨6#256,false,true⟩,⟨8#256,true,false⟩],.liquidate 80#64⟩ b'=
        .error (err .positionHealthy) := by
  obtain ⟨⟨tr,t⟩,hhistory,m,hm,hratios,hok⟩ :
      ∃ x,(program 1#256).history (sampleCalls.take 1) sampleStart=some x ∧
      ∃ m,marketCodec.tryFromSlice (x.2.bank 3#256).data=some m ∧
      m.ltvRatio.toNat≤ m.liquidationThreshold.toNat ∧ ((program 1#256).execute ⟨⟨5#64,0#64⟩,
        [⟨3#256,false,true⟩,⟨6#256,false,true⟩,⟨2#256,true,false⟩],.borrow 80#64⟩
        x.2.bank).isOk=true := by decide +kernel
  have hx := eq_ok_of_isOk t.bank hok
  exact ⟨tr,t,_,history_anyCall hhistory,hx,not_liquidatable_at_once (.inl ⟨_,rfl⟩) rfl rfl hm
    hratios hx ⟨⟨3#256,false,true⟩,⟨6#256,false,true⟩,⟨8#256,true,false⟩,[]⟩ rfl rfl rfl ⟨5#64,0#64⟩
    80#64⟩

end PrismChain.SolLend
