import PrismChain.Programs.Pusd.Fees

namespace PrismChain.Pusd

open FixedWidth Option BitVec Program

theorem vault_keeps {h : Host} {Q : Vault → Prop} {ok : Bank → Call Instruction → Prop}
    {s t : Ledger} {a : Action Instruction} (hs : (program h).Step ok s a t)
    (hopen : ∀ {v},v.debt=0#64 → v.accruedFee=0#64 → Q v)
    (heffect : ∀ {c k v v' g g' oracle pool out},ok s.bank c →
      c.instruction.vaultIndex.bind c.key?=some k → vaultAt h s.bank k=some v →
      Effect c.clock.unixTimestamp oracle pool c.instruction v g v' g' out → Q v → Q v')
    (hQ : ∀ k v,vaultAt h s.bank k=some v → Q v) : ∀ k v,vaultAt h t.bank k=some v → Q v := by
  intro k v hv
  cases hs with
  | outside _ hout => exact hQ k v ((outside_book hout k).symm.trans hv)
  | @call c b _ hok he =>
    cases execute_spec he with
    | initialized hi => exact hQ k v ((hi.book k).symm.trans hv)
    | @opened vk _ _ w _ _ ho =>
      obtain ⟨-,hsome,hrest⟩ := ho.book
      by_cases hk : k=vk
      · subst hk
        cases hsome.symm.trans hv
        exact hopen ho.values.2.2.1 ho.values.2.2.2.1
      · exact hQ k v ((hrest k hk).symm.trans hv)
    | @updated vk _ w _ _ _ _ hu =>
      obtain ⟨hbefore,hafter,hrest⟩ := hu.book
      by_cases hk : k=vk
      · subst hk
        cases hafter.symm.trans hv
        exact heffect hok hu.vaultKey hbefore hu.effect (hQ k w hbefore)
      · exact hQ k v ((hrest k hk).symm.trans hv)

def Vault.Clear (v : Vault) : Prop := v.debt=0#64 → v.accruedFee=0#64

section Payments

variable {now : I64} {amount : U64} {v : Vault}

theorem Vault.Clear.accrue (hv : v.Clear) (now : I64) : (v.accrueFee now).Clear := by
  intro hdebt
  rw [Vault.accrueFee_debt] at hdebt
  have hsame : v.accrueFee now=v := if_pos (.inl hdebt)
  rw [hsame]
  exact hv hdebt

theorem Vault.Clear.pay (hv : v.Clear) (hpay : v.pay subtract amount=.ok w) : w.Clear := by
  unfold Vault.pay at hpay
  split at hpay
  case isTrue hle =>
    simp only [steps_ok] at hpay
    obtain ⟨fee,hfee,rfl⟩ := hpay
    intro hdebt
    have hzero := congrArg BitVec.toNat (hv hdebt)
    have hsub := checkedSub_eq_some.mp hfee
    change v.accruedFee.toNat=0 at hzero
    exact eq_of_toNat_eq (show fee.toNat=0 by omega)
  case isFalse =>
    simp only [steps_ok] at hpay
    obtain ⟨_,-,_,-,rfl⟩ := hpay
    exact fun _ => rfl

theorem Effect.clear (he : Effect now oracle pool i v g v' g' out) (hv : v.Clear) : v'.Clear := by
  cases he with
  | deposit => exact hv
  | @mint _ _ _ debt _ _ _ _ _ _ _ _ hdust =>
    intro hdebt
    obtain rfl : debt=0#64 := hdebt
    cases hdust
  | burn _ _ hpay => exact (hv.accrue now).pay hpay
  | withdraw => exact hv.accrue now
  | liquidate => exact fun _ => rfl
  | redeem _ _ _ _ _ _ hpay =>
    have hpaid := (hv.accrue now).pay hpay
    exact fun hdebt => hpaid hdebt

theorem pay_ne_failed (hle : amount.toNat≤v.totalDebt.toNat)
    (hsub : ∀ a b,b.toNat≤a.toNat → ∃ c,subtract a b=some c) :
    v.pay subtract amount≠.error .programFailedToComplete := by
  have htotal := totalDebt_le v
  unfold Vault.pay
  split
  case isTrue hfee =>
    rw [show checkedSub v.accruedFee amount=some (v.accruedFee-amount) from if_pos hfee]
    exact nofun
  case isFalse hfee =>
    have hrest : checkedSub amount v.accruedFee=some (amount-v.accruedFee) := if_pos (by omega)
    have hvalue := checkedSub_eq_some.mp hrest
    obtain ⟨debt,hdebt⟩ := hsub v.debt (amount-v.accruedFee) (by omega)
    rw [hrest,okOr_some,ok_bind,hdebt]
    exact nofun

end Payments

section Handlers

variable {f : Frame}

theorem lift_ne_failed {α : Type} (x : Except PusdError α) :
    lift x≠.error .programFailedToComplete := by
  cases x <;> exact nofun

theorem payOut_ne_failed : payOut pool payee amount f≠.error .programFailedToComplete :=
  bind_ne_error (okOr_ne_error nofun) fun _ => bind_ne_error (okOr_ne_error nofun) fun _ => nofun

theorem loadVault_ne_failed : loadVault h f k≠.error .programFailedToComplete :=
  bind_ne_error (require_ne_error nofun) fun _ => bind_ne_error (okOr_ne_error nofun) fun _ =>
    bind_ne_error (require_ne_error nofun) fun _ => nofun

theorem checkWithdrawal_ne_failed :
    checkWithdrawal v amount oracle≠.error .programFailedToComplete := by
  unfold checkWithdrawal
  split
  · exact bind_ne_error (lift_ne_failed _) fun _ =>
    bind_ne_error (okOr_ne_error (by decide)) fun _ =>
      bind_ne_error (lift_ne_failed _) fun _ => require_ne_error (by decide)
  · simp

theorem stores_ne_failed {v : Vault} {vk ck : Pubkey} {g : PusdConfig → PusdConfig} : (do
      let f ← f.store vaultCodec v vk
      let config ← loadConfig f ck
      f.store configCodec (g config) ck :
        ProgramResult)≠.error .programFailedToComplete :=
  bind_ne_error (Frame.store_ne_error nofun) fun _ => bind_ne_error (okOr_ne_error nofun) fun _ =>
    Frame.store_ne_error nofun

theorem burn_ne_failed :
    processBurnPusd h clock accounts amount f≠.error .programFailedToComplete := by
  unfold processBurnPusd
  split
  case h_2 => exact nofun
  refine bind_ne_error (require_ne_error nofun) fun _ => ?_
  refine bind_ne_error (require_ne_error nofun) fun _ => ?_
  refine bind_ne_error loadVault_ne_failed fun _ => ?_
  refine bind_ne_error (require_ne_error nofun) fun _ => ?_
  refine bind_ne_error (require_ne_error nofun) fun hle => ?_
  refine bind_ne_error
    (pay_ne_failed (require_eq_ok.mp hle) fun a b hb => ⟨_,if_pos hb⟩) fun _ => ?_
  exact bind_ne_error (require_ne_error nofun) fun _ => stores_ne_failed

theorem redeem_ne_failed :
    processRedeem h clock accounts amount f≠.error .programFailedToComplete := by
  unfold processRedeem
  split
  case h_2 => exact nofun
  refine bind_ne_error (require_ne_error nofun) fun _ => ?_
  refine bind_ne_error (require_ne_error nofun) fun _ => ?_
  refine bind_ne_error loadVault_ne_failed fun _ => ?_
  refine bind_ne_error (require_ne_error nofun) fun hle => ?_
  refine bind_ne_error (lift_ne_failed _) fun _ => bind_ne_error (lift_ne_failed _) fun _ => ?_
  refine bind_ne_error (require_ne_error nofun) fun _ => ?_
  refine bind_ne_error (require_ne_error nofun) fun _ => ?_
  refine bind_ne_error payOut_ne_failed fun _ => ?_
  exact bind_ne_error (pay_ne_failed (require_eq_ok.mp hle) fun a b _ => ⟨_,rfl⟩) fun _ =>
    stores_ne_failed

theorem withdraw_ne_failed :
    processWithdrawCollateral h clock accounts amount f≠.error .programFailedToComplete := by
  unfold processWithdrawCollateral
  split
  case h_2 => exact nofun
  refine bind_ne_error (require_ne_error nofun) fun _ => ?_
  refine bind_ne_error (require_ne_error nofun) fun _ => ?_
  refine bind_ne_error loadVault_ne_failed fun _ => ?_
  refine bind_ne_error (require_ne_error nofun) fun _ => ?_
  refine bind_ne_error (require_ne_error nofun) fun hle => ?_
  refine bind_ne_error checkWithdrawal_ne_failed fun _ => ?_
  refine bind_ne_error (require_ne_error nofun) fun _ => ?_
  refine bind_ne_error payOut_ne_failed fun _ => ?_
  -- the amount was compared with the collateral before the accrual, which leaves it alone
  have hcollateral := require_eq_ok.mp hle
  rw [← Vault.accrueFee_collateral _ clock.unixTimestamp] at hcollateral
  rw [show checkedSub _ amount=some _ from if_pos hcollateral,okOr_some,ok_bind]
  exact stores_ne_failed

end Handlers

theorem infinite_ratio {v : Vault} (hdebt : v.debt≠0#64)
    (hratio : v.collateralRatioBps price=.ok (allOnes 64)) :
    2^64-1≤v.collateral.toNat*price.toNat*10000/(v.totalDebt.toNat*10^9) := by
  obtain ⟨-,hvalue⟩ := (collateralRatioBps_eq_ok hdebt).mp hratio
  rw [toNat_allOnes] at hvalue
  rw [hvalue]
  exact Nat.mod_le _ _

/-- A fee never outlives the principal, and no payment or withdrawal gets stuck halfway. The ratio
of a debt is reported as infinite only at a price at which it is that high. -/
theorem no_fee_without_debt {h : Host} {s t : Ledger} {tr : Trace Instruction}
    (h0 : Untouched h.programId s.bank)
    (hrun : Run ((program h).Step anyCall) s tr t) :
    (∀ k v,vaultAt h t.bank k=some v → (v.debt=0#64 → v.accruedFee=0#64 ∧ v.totalDebt=0#64) ∧
      ∀ price,v.collateralRatioBps price=.ok (allOnes 64) → v.totalDebt=0#64 ∨
        2^64-1≤v.collateral.toNat*price.toNat*10000/(v.totalDebt.toNat*10^9)) ∧
    ∀ clock accounts amount i,i=.burnPusd amount ∨ i=.redeem amount ∨ i=.withdrawCollateral amount →
        (program h).process clock accounts i ⟨t.bank,t.bank⟩≠.error .programFailedToComplete := by
  refine ⟨fun k v hv => ?_,?_⟩
  · have hclear : v.Clear :=
      hrun.invariant (I := fun t => ∀ k v,vaultAt h t.bank k=some v → v.Clear)
        (fun k v hv => by rw [untouched_book h0 k] at hv; cases hv)
        (fun hI hs => vault_keeps (Q := Vault.Clear) hs (fun _ hfee _ => hfee)
          (fun _ _ _ he => he.clear) hI) k v hv
    have htotal (hdebt : v.debt=0#64) : v.totalDebt=0#64 := by
      rw [Vault.totalDebt,hdebt,hclear hdebt]
      rfl
    refine ⟨fun hdebt => ⟨hclear hdebt,htotal hdebt⟩,fun price hinfinite => ?_⟩
    by_cases hdebt : v.debt=0#64
    · exact .inl (htotal hdebt)
    · exact .inr (infinite_ratio hdebt hinfinite)
  · rintro clock accounts amount i (rfl|rfl|rfl)
    · exact burn_ne_failed
    · exact redeem_ne_failed
    · exact withdraw_ne_failed

def closeHistory : Option (Trace Instruction×Ledger) :=
  (program sampleHost).history [initCall,openCall 2#256 sampleVault samplePool,healthyMint,
    burnCall 102000000#64] genesis

theorem no_fee_after_repayment : ∃ tr t v,Run ((program sampleHost).Step anyCall) genesis tr t ∧
      vaultAt sampleHost t.bank sampleVault=some v ∧ v.debt=0#64 ∧ v.accruedFee=0#64 ∧
      v.totalDebt=0#64 := by
  obtain ⟨⟨tr,t⟩,hhistory,v,hv,hdebt⟩ : ∃ x,closeHistory=some x ∧
      ∃ v,vaultAt sampleHost x.2.bank sampleVault=some v ∧ v.debt=0#64 := by decide +kernel
  have hrun := history_anyCall hhistory
  exact ⟨tr,t,v,hrun,hv,hdebt,((no_fee_without_debt genesis_untouched hrun).1 _ v hv).1 hdebt⟩

def wealthyStart : Ledger :=
  {genesis with bank := fun k =>
    if k=2#256 then ⟨2000000000000#64,[],systemProgram⟩ else genesis.bank k}

theorem wealthyStart_untouched : Untouched sampleHost.programId wealthyStart.bank := by
  refine untouched_of_foreign fun k => ?_
  unfold wealthyStart genesis
  dsimp only
  split_ifs <;> decide

/-- A thousand PRISM for ten pUSD: at the largest price the ratio is the largest number, and ten
pUSD are owed. -/
theorem infinite_ratio_with_debt : ∃ tr t v,Untouched sampleHost.programId wealthyStart.bank ∧
      Run ((program sampleHost).Step anyCall) wealthyStart tr t ∧
      vaultAt sampleHost t.bank sampleVault=some v ∧ v.totalDebt=10000000#64 ∧
      v.collateralRatioBps (allOnes 64)=.ok (allOnes 64) := by
  simp only [exists_and_left]
  exact ⟨wealthyStart_untouched,exists_run_any [initCall,
    {openCall 2#256 sampleVault samplePool with instruction := .openVault 1000000000000#64 0#64},
    {healthyMint with instruction := .mintPusd 10000000#64}] (by decide +kernel)⟩

def Vault.redeemed (v : Vault) (amount : U64) (now : I64) : Nat :=
  v.debt.toNat-(amount.toNat-(v.accrueFee now).accruedFee.toNat)

def CleanRedeem (h : Host) (b : Bank) (c : Call Instruction) : Prop :=
  ∀ amount k v,c.instruction=.redeem amount → c.instruction.vaultIndex.bind c.key?=some k →
    vaultAt h b k=some v → v.redeemed amount c.clock.unixTimestamp=0 ∨
      minDebt.toNat≤v.redeemed amount c.clock.unixTimestamp

def Vault.Dustless (v : Vault) : Prop := v.debt=0#64 ∨ minDebt.toNat≤v.debt.toNat

theorem Effect.dustless (he : Effect now oracle pool i v g v' g' out)
    (hclean : ∀ amount,i=.redeem amount →
      v.redeemed amount now=0 ∨ minDebt.toNat≤v.redeemed amount now) (hv : v.Dustless) :
    v'.Dustless := by
  cases he with
  | deposit => exact hv
  | mint _ _ _ _ _ hdust => exact .inr hdust
  | burn _ _ _ hdust => exact hdust
  | withdraw =>
    change (v.accrueFee now).debt=0#64 ∨ minDebt.toNat≤(v.accrueFee now).debt.toNat
    rw [Vault.accrueFee_debt]
    exact hv
  | liquidate => exact .inl rfl
  | redeem _ hle _ _ _ _ hpay =>
    have hleft := (pay_split hle saturatingSub_exact hpay).1
    rw [Vault.accrueFee_debt] at hleft
    have hdust := hclean _ rfl
    unfold Vault.redeemed at hdust
    rw [← hleft] at hdust
    exact hdust.imp_left fun hzero => eq_of_toNat_eq hzero

/-- As long as no redemption leaves a smaller rest, debts are zero or worth liquidating. -/
theorem debt_zero_or_minimum {h : Host} {s t : Ledger} {tr : Trace Instruction}
    (h0 : Untouched h.programId s.bank) (hrun : Run ((program h).Step (CleanRedeem h)) s tr t)
    {k : Pubkey} {v : Vault} (hv : vaultAt h t.bank k=some v) :
    v.debt=0#64 ∨ minDebt.toNat≤v.debt.toNat := by
  refine hrun.invariant (I := fun t => ∀ k v,vaultAt h t.bank k=some v → v.Dustless)
    (fun k v hv => ?_) (fun hI hs => ?_) k v hv
  · rw [untouched_book h0 k] at hv
    cases hv
  · refine vault_keeps hs (fun hdebt _ => .inl hdebt) (fun hok hkey hbefore he => ?_) hI
    exact he.dustless fun amount hi => hok amount _ _ hi hkey hbefore

def redeemCall (amount : U64) : Call Instruction where
  clock := ⟨6#64,1000#64⟩
  accounts := [⟨3#256,true,true⟩,⟨sampleVault,false,true⟩,⟨sampleConfig,false,true⟩,
    ⟨samplePool,false,true⟩,⟨5#256,false,false⟩,⟨7#256,false,true⟩,⟨6#256,false,true⟩,
    ⟨9#256,false,false⟩,systemInfo]
  instruction := .redeem amount

def redeemHistory (amount : U64) : Option (Trace Instruction×Ledger) :=
  (program sampleHost).history [initCall,openCall 2#256 sampleVault samplePool,healthyMint,
    redeemCall amount] genesis

def cleanRedeems (tr : Trace Instruction) : Bool :=
  tr.all fun x =>
    match x.label with
    | .outside => true
    | .call c =>
      match c.instruction,c.instruction.vaultIndex.bind c.key? with
      | .redeem amount,some k => (vaultAt sampleHost x.pre.bank k).all fun v =>
          decide (v.redeemed amount c.clock.unixTimestamp=0 ∨
            minDebt.toNat≤v.redeemed amount c.clock.unixTimestamp)
      | _,_ => true

theorem cleanRedeems_ok (hc : cleanRedeems tr=true) :
    ∀ x∈tr,∀ c,x.label=.call c → CleanRedeem sampleHost x.pre.bank c := by
  intro x hx c hlabel amount k v hi hkey hv
  have hcheck := List.all_eq_true.mp hc x hx
  rw [hi] at hkey
  simp only [hlabel,hi,hkey,hv,all_some,decide_eq_true_eq] at hcheck
  exact hcheck

def debtAfter (x : Trace Instruction×Ledger) : Option U64 :=
  (vaultAt sampleHost x.2.bank sampleVault).map fun v => v.debt

theorem debt_after_clean_redeem : ∃ tr t v,
    Run ((program sampleHost).Step (CleanRedeem sampleHost)) genesis tr t ∧
      vaultAt sampleHost t.bank sampleVault=some v ∧ v.debt=10000000#64 ∧
      (v.debt=0#64 ∨ minDebt.toNat≤v.debt.toNat) := by
  obtain ⟨⟨tr,t⟩,hhistory,hdebt,hclean⟩ : ∃ x,redeemHistory 90000000#64=some x ∧
      debtAfter x=some 10000000#64 ∧ cleanRedeems x.1=true := by decide +kernel
  obtain ⟨v,hv,hdebt⟩ := map_eq_some_iff.mp hdebt
  have hrun := history_run hhistory (cleanRedeems_ok hclean)
  exact ⟨tr,t,v,hrun,hv,hdebt,debt_zero_or_minimum genesis_untouched hrun hv⟩

/-- Redeeming ninety-five leaves half of that. -/
theorem redeem_leaves_dust : ∃ tr t v,Untouched sampleHost.programId genesis.bank ∧
      Run ((program sampleHost).Step anyCall) genesis tr t ∧
      vaultAt sampleHost t.bank sampleVault=some v ∧ v.debt=5000000#64 ∧
      ¬(v.debt=0#64 ∨ minDebt.toNat≤v.debt.toNat) := by
  simp only [exists_and_left]
  exact ⟨genesis_untouched,exists_run_any _
    (show ∃ x,redeemHistory 95000000#64=some x ∧ _ by decide +kernel)⟩

end PrismChain.Pusd
