import PrismChain.Programs.Pusd.Accounting

namespace PrismChain.Pusd

open FixedWidth Option BitVec Nat Program

def secondsBetween (a b : I64) : Nat := (b.toInt-a.toInt).toNat

theorem secondsBetween_add {a b c : I64} (hab : a.toInt≤b.toInt) (hbc : b.toInt≤c.toInt) :
    secondsBetween a c= secondsBetween a b+secondsBetween b c := by
  unfold secondsBetween
  omega

theorem secondsBetween_self (a : I64) : secondsBetween a a=0 := by
  unfold secondsBetween
  omega

def feeUnit : Nat := secondsPerYear.toNat*bpsDenominator.toNat

section Charge

variable {now : I64} {i : Instruction} {v : Vault}

theorem feeFor_le (debt elapsed : U64) :
    (Vault.feeFor debt elapsed).toNat*feeUnit≤200*(debt.toNat*elapsed.toNat) := by
  unfold Vault.feeFor
  cases hfee : ((((checkedMul (debt.setWidth 128) (stabilityFeeAnnualBps.setWidth 128)).bind
      fun x => checkedMul x (elapsed.setWidth 128)).bind fun x =>
        checkedDiv x (secondsPerYear.setWidth 128)).bind fun x =>
          checkedDiv x (bpsDenominator.setWidth 128)) with
  | none => simp
  | some fee =>
    simp only [bind_eq_some_iff,checkedMul_eq_some,checkedDiv_eq_some,
      toNat_widen (show 64≤128 by decide)] at hfee
    obtain ⟨perYear,⟨product,⟨_,hyearly,hproduct⟩,-,hperYear⟩,-,hvalue⟩ := hfee
    have hcut : (fee.setWidth 64).toNat≤fee.toNat := by
      rw [toNat_setWidth]
      exact mod_le _ _
    have hbps : fee.toNat*bpsDenominator.toNat≤perYear.toNat := by
      rw [hvalue]
      exact div_mul_le_self _ _
    have hyear : perYear.toNat*secondsPerYear.toNat≤product.toNat := by
      rw [hperYear]
      exact div_mul_le_self _ _
    have hrate : stabilityFeeAnnualBps.toNat=200 := rfl
    calc (fee.setWidth 64).toNat*feeUnit
        ≤fee.toNat*feeUnit := Nat.mul_le_mul_right _ hcut
      _ = fee.toNat*bpsDenominator.toNat*secondsPerYear.toNat := by unfold feeUnit; ring
      _ ≤ perYear.toNat*secondsPerYear.toNat := Nat.mul_le_mul_right _ hbps
      _ ≤ product.toNat := hyear
      _ = 200*(debt.toNat*elapsed.toNat) := by rw [hproduct,hyearly,hrate]; ring

theorem accrueFee_charge (hstamp : v.lastFeeUpdate.toInt≤now.toInt) :
    ((v.accrueFee now).accruedFee.toNat-v.accruedFee.toNat)*feeUnit≤
        200*(v.debt.toNat*secondsBetween v.lastFeeUpdate now) ∧
      (v.accrueFee now).lastFeeUpdate.toInt≤now.toInt ∧
      ((v.accrueFee now).lastFeeUpdate=now ∨ v.accrueFee now=v ∧ v.debt=0#64) := by
  by_cases hdebt : v.debt=0#64
  · have hsame : v.accrueFee now=v := if_pos (.inl hdebt)
    rw [hsame]
    exact ⟨by simp,hstamp,.inr ⟨rfl,hdebt⟩⟩
  · by_cases hnow : now.toInt≤v.lastFeeUpdate.toInt
    · have hsame : v.accrueFee now=v := if_pos (.inr hnow)
      rw [hsame]
      exact ⟨by simp,hstamp,.inl (eq_of_toInt_eq (le_antisymm hstamp hnow))⟩
    · have hcharged : v.accrueFee now={v with
          accruedFee := saturatingAdd v.accruedFee (Vault.feeFor v.debt (now-v.lastFeeUpdate))
          lastFeeUpdate := now} := if_neg (by simp [hdebt,hnow])
      rw [hcharged]
      have helapsed : (now-v.lastFeeUpdate).toNat= secondsBetween v.lastFeeUpdate now := by
        have hsub := toNat_sub_of_slt (not_le.mp hnow)
        unfold secondsBetween
        omega
      refine ⟨?_,le_rfl,.inl rfl⟩
      have hle : (saturatingAdd v.accruedFee
          (Vault.feeFor v.debt (now-v.lastFeeUpdate))).toNat-v.accruedFee.toNat≤
            (Vault.feeFor v.debt (now-v.lastFeeUpdate)).toNat := by
        rw [toNat_saturatingAdd]
        omega
      have hfee := feeFor_le v.debt (now-v.lastFeeUpdate)
      rw [helapsed] at hfee
      exact (Nat.mul_le_mul_right _ hle).trans hfee

def feeAdded (now : I64) (i : Instruction) (v _ : Vault) : Nat :=
  match i with
  | .depositCollateral _ => 0
  | _ => (v.accrueFee now).accruedFee.toNat-v.accruedFee.toNat

def Minting (i : Instruction) : Prop := ∃ amount,i=.mintPusd amount

theorem Effect.debt_le (he : Effect now oracle pool i v g v' g' out) (hi : ¬Minting i) :
    v'.debt.toNat≤v.debt.toNat := by
  cases he with
  | deposit => exact le_rfl
  | mint => exact absurd ⟨_,rfl⟩ hi
  | burn _ hle hpay =>
    have hsplit := (pay_split hle checkedSub_exact hpay).2.1
    rw [Vault.accrueFee_debt] at hsplit
    exact hsplit
  | withdraw => exact (congrArg BitVec.toNat (v.accrueFee_debt now)).le
  | liquidate => exact Nat.zero_le _
  | redeem _ hle _ _ _ _ hpay =>
    have hsplit := (pay_split hle saturatingSub_exact hpay).2.1
    rw [Vault.accrueFee_debt] at hsplit
    exact hsplit

theorem Effect.stamp (he : Effect now oracle pool i v g v' g' out) :
    (v'.lastFeeUpdate=v.lastFeeUpdate ∧ v'.debt=v.debt ∧ feeAdded now i v v'=0) ∨
      (v'.lastFeeUpdate=(v.accrueFee now).lastFeeUpdate ∧
        feeAdded now i v v'=(v.accrueFee now).accruedFee.toNat-v.accruedFee.toNat) := by
  cases he with
  | deposit => exact .inl ⟨rfl,rfl,rfl⟩
  | mint => exact .inr ⟨rfl,rfl⟩
  | burn _ _ hpay => exact .inr ⟨(pay_spec hpay).2.2,rfl⟩
  | withdraw => exact .inr ⟨rfl,rfl⟩
  | liquidate => exact .inr ⟨rfl,rfl⟩
  | redeem _ _ _ _ _ _ hpay => exact .inr ⟨(pay_spec hpay).2.2,rfl⟩

def chargeable (now : I64) (v : Vault) : Nat :=
  200*(v.debt.toNat*secondsBetween v.lastFeeUpdate now)

/-- What an instruction adds comes out of what could still be charged, unless it mints on a vault
without debt whose stamp is in the past. -/
theorem Effect.charge (he : Effect now oracle pool i v g v' g' out)
    (hstamp : v.lastFeeUpdate.toInt≤now.toInt)
    (hmint : Minting i → v.debt=0#64 → now.toInt≤v.lastFeeUpdate.toInt) :
    feeAdded now i v v'*feeUnit+chargeable now v'≤chargeable now v ∧
      v'.lastFeeUpdate.toInt≤now.toInt := by
  obtain ⟨hcharge,hstamp',hlast⟩ := accrueFee_charge hstamp
  unfold chargeable
  obtain ⟨heq,hdebt,hzero⟩ | ⟨heq,hadded⟩ := he.stamp
  · rw [heq,hdebt,hzero]
    exact ⟨by omega,hstamp⟩
  rw [heq,hadded]
  refine ⟨?_,hstamp'⟩
  obtain hnow | ⟨hsame,hnodebt⟩ := hlast
  · rw [hnow,secondsBetween_self]
    omega
  rw [hsame] at hcharge ⊢
  have hrest : v'.debt.toNat*secondsBetween v.lastFeeUpdate now=0 := by
    by_cases hi : Minting i
    · have hequal := hmint hi hnodebt
      have hzero : secondsBetween v.lastFeeUpdate now=0 := by
        unfold secondsBetween
        omega
      rw [hzero,Nat.mul_zero]
    · have hle := he.debt_le hi
      have hzero : v'.debt.toNat=0 := by
        rw [hnodebt] at hle
        exact le_zero.mp hle
      rw [hzero,Nat.zero_mul]
  omega

end Charge

def onVaultOf (h : Host) (k : Pubkey) (f : I64 → Instruction → Vault → Vault → Nat)
    (x : LogEntry Instruction) : Nat :=
  match x.label with
  | .outside => 0
  | .call c => if c.instruction.vaultIndex.bind c.key?=some k then onVault h f x else 0

inductive Entry (h : Host) (k : Pubkey) (ok : Bank → Call Instruction → Prop) (s t : Ledger)
    (a : Action Instruction) : Prop
  | same (hsame : vaultAt h t.bank k=vaultAt h s.bank k) (hzero : ∀ f,onVaultOf h k f ⟨s,a,t⟩=0)
  | opened {v : Vault} (hnone : vaultAt h s.bank k=none) (hsome : vaultAt h t.bank k=some v)
      (hdebt : v.debt=0#64) (hstamp : v.lastFeeUpdate=t.clock.unixTimestamp)
      (hzero : ∀ f,onVaultOf h k f ⟨s,a,t⟩=0)
  | updated {v v' : Vault} {g g' : PusdConfig} {oracle : List Byte} {pool out : U64}
      {c : Call Instruction} (hok : ok s.bank c)
      (hkey : c.instruction.vaultIndex.bind c.key?=some k)
      (hbefore : vaultAt h s.bank k=some v) (hafter : vaultAt h t.bank k=some v')
      (heffect : Effect t.clock.unixTimestamp oracle pool c.instruction v g v' g' out)
      (hvalue : ∀ f,onVaultOf h k f ⟨s,a,t⟩=f t.clock.unixTimestamp c.instruction v v')

theorem entry_of_step (hs : (program h).Step ok s a t) : Entry h k ok s t a := by
  cases hs with
  | outside _ hout => exact .same (outside_book hout k) fun _ => rfl
  | @call c b _ hok he =>
    cases execute_spec he with
    | initialized hi =>
      obtain ⟨o,m,hinstr⟩ := hi.instruction
      refine .same (hi.book k) fun f => if_neg ?_
      rw [hinstr]
      exact nofun
    | @opened vk _ _ v _ _ ho =>
      obtain ⟨hnone,hsome,hrest⟩ := ho.book
      by_cases hk : k=vk
      · subst hk
        refine .opened hnone hsome ho.values.2.2.1 ho.values.2.2.2.2 fun f => ?_
        change (if _ then _ else 0)=0
        rw [if_pos ho.vaultKey]
        simp only [onVault,ho.vaultKey,hnone]
      · refine .same (hrest k hk) fun f => if_neg ?_
        rw [ho.vaultKey]
        exact fun heq => hk (some.inj heq).symm
    | @updated vk _ v _ _ _ _ hu =>
      obtain ⟨hbefore,hafter,hrest⟩ := hu.book
      by_cases hk : k=vk
      · subst hk
        refine .updated hok hu.vaultKey hbefore hafter hu.effect fun f => ?_
        change (if _ then _ else 0)=_
        rw [if_pos hu.vaultKey]
        exact onVault_updated hu.vaultKey hbefore hafter
      · refine .same (hrest k hk) fun f => if_neg ?_
        rw [hu.vaultKey]
        exact fun heq => hk (some.inj heq).symm

def feesAdded (h : Host) (k : Pubkey) (tr : Trace Instruction) : Nat :=
  total (onVaultOf h k feeAdded) tr

/-- The debt that the vault `k` had, times how long it had it. Debt changes at steps only, so
each step closes an interval of constant debt. -/
def debtSeconds (h : Host) (k : Pubkey) (tr : Trace Instruction) : Nat :=
  total (fun x => (vaultAt h x.pre.bank k).elim 0 fun v => v.debt.toNat*
    secondsBetween x.pre.clock.unixTimestamp x.post.clock.unixTimestamp) tr

def PromptMint (h : Host) (b : Bank) (c : Call Instruction) : Prop :=
  ∀ vk v,Minting c.instruction → c.instruction.vaultIndex.bind c.key?=some vk →
    vaultAt h b vk=some v → v.debt=0#64 → c.clock.unixTimestamp.toInt≤v.lastFeeUpdate.toInt

structure Charged (h : Host) (k : Pubkey) (tr : Trace Instruction) (t : Ledger) : Prop where
  covered : feesAdded h k tr*feeUnit+
    (vaultAt h t.bank k).elim 0 (chargeable t.clock.unixTimestamp)≤200*debtSeconds h k tr
  stamp : ∀ v,vaultAt h t.bank k=some v → v.lastFeeUpdate.toInt≤t.clock.unixTimestamp.toInt

theorem chargeable_advance {v : Vault} {a b : I64} (hstamp : v.lastFeeUpdate.toInt≤a.toInt)
    (hab : a.toInt≤b.toInt) :
    chargeable b v=chargeable a v+200*(v.debt.toNat*secondsBetween a b) := by
  unfold chargeable
  rw [secondsBetween_add hstamp hab]
  ring

theorem Charged.step {t : Ledger} (hc : Charged h k tr s)
    (hs : (program h).Step (fun b c => PromptMint h b c ∧ c.clock=t.clock) s a t) :
    Charged h k (tr++[⟨s,a,t⟩]) t := by
  have htime := hs.before.2
  have hadd : feesAdded h k (tr++[⟨s,a,t⟩])=feesAdded h k tr+onVaultOf h k feeAdded ⟨s,a,t⟩ :=
    total_append_one _ _ _
  have hsec : debtSeconds h k (tr++[⟨s,a,t⟩])=debtSeconds h k tr+
      (vaultAt h s.bank k).elim 0 (fun v => v.debt.toNat*
        secondsBetween s.clock.unixTimestamp t.clock.unixTimestamp) := total_append_one _ _ _
  have hcov := hc.covered
  cases entry_of_step (k := k) hs with
  | same hsame hzero =>
    have hz := hzero feeAdded
    cases hv : vaultAt h s.bank k with
    | none =>
      rw [hv] at hcov hsec hsame
      simp only [elim_none] at hcov hsec
      refine ⟨?_,fun v hv' => by rw [hsame] at hv'; cases hv'⟩
      rw [hsame,elim_none,hadd,hz,Nat.add_zero,hsec]
      omega
    | some v =>
      rw [hv] at hcov hsec hsame
      simp only [elim_some] at hcov hsec
      have hstamp := hc.stamp v hv
      have hadvance := chargeable_advance hstamp htime
      refine ⟨?_,fun w hw => ?_⟩
      · rw [hsame,elim_some,hadd,hz,Nat.add_zero,hsec,hadvance]
        omega
      · rw [hsame] at hw
        cases hw
        exact hstamp.trans htime
  | @opened v hnone hsome _ hstamp hzero =>
    have hz := hzero feeAdded
    rw [hnone] at hcov hsec
    simp only [elim_none] at hcov hsec
    refine ⟨?_,fun w hw => ?_⟩
    · have hnothing : chargeable t.clock.unixTimestamp v=0 := by
        unfold chargeable
        rw [hstamp,secondsBetween_self,Nat.mul_zero,Nat.mul_zero]
      rw [hsome,elim_some,hadd,hz,Nat.add_zero,hsec,hnothing]
      omega
    · rw [hsome] at hw
      cases hw
      rw [hstamp]
  | @updated v _ _ _ _ _ _ c hok hkey hbefore hafter heffect hvalue =>
    have hz := hvalue feeAdded
    have hstamp := hc.stamp v hbefore
    have hadvance := chargeable_advance hstamp htime
    rw [hbefore] at hcov hsec
    simp only [elim_some] at hcov hsec
    have hmint (hi : Minting c.instruction) (hnodebt : v.debt=0#64) :
        t.clock.unixTimestamp.toInt≤v.lastFeeUpdate.toInt := by
      rw [← hok.2]
      exact hok.1 k v hi hkey hbefore hnodebt
    obtain ⟨_,hstamp'⟩ := heffect.charge (hstamp.trans htime) hmint
    refine ⟨?_,fun w hw => ?_⟩
    · rw [hafter,elim_some,hadd,hz,hsec,Nat.add_mul]
      omega
    · rw [hafter] at hw
      cases hw
      exact hstamp'

theorem step_clock (hs : (program h).Step ok s a t) :
    (program h).Step (fun b c => ok b c ∧ c.clock=t.clock) s a t := by
  cases hs with
  | call hclock hok he => exact .call hclock ⟨hok,rfl⟩ he
  | outside hclock hout => exact .outside hclock hout

/-- As long as nobody mints on a vault without debt behind whose stamp time has passed, the fees
added to a vault are paid for by debt that was outstanding. -/
theorem fees_covered_by_debt_seconds {h : Host} {s t : Ledger} {tr : Trace Instruction}
    (h0 : Untouched h.programId s.bank) (hrun : Run ((program h).Step (PromptMint h)) s tr t)
    (k : Pubkey) :
    feesAdded h k tr*(secondsPerYear.toNat*bpsDenominator.toNat)≤
      stabilityFeeAnnualBps.toNat*debtSeconds h k tr := by
  have hcharged : Charged h k tr t := by
    refine hrun.traced (I := fun tr t => Charged h k tr t) ⟨?_,?_⟩ ?_
    · rw [untouched_book h0 k]
      exact Nat.le_of_eq (by simp [feesAdded,debtSeconds])
    · intro v hv
      rw [untouched_book h0 k] at hv
      cases hv
    · intro tr t a u _ hc hs
      exact hc.step (step_clock hs)
  have hcov := hcharged.covered
  have hrate : stabilityFeeAnnualBps.toNat=200 := rfl
  rw [hrate]
  exact (Nat.le_add_right _ _).trans hcov

def lateMint : Call Instruction := {mintCall with clock := ⟨5#64,31558600#64⟩}

def lateHistory : Option (Trace Instruction×Ledger) :=
  (program sampleHost).history [initCall,openCall 2#256 sampleVault samplePool,lateMint,
    burnCall 12000000#64] genesis

def promptHistory : Option (Trace Instruction×Ledger) :=
  (program sampleHost).history [initCall,openCall 2#256 sampleVault samplePool,healthyMint,
    burnCall 12000000#64] genesis

def feesAndSeconds (x : Trace Instruction×Ledger) : Nat×Nat :=
  (feesAdded sampleHost sampleVault x.1,debtSeconds sampleHost sampleVault x.1)

def promptMints (tr : Trace Instruction) : Bool :=
  tr.all fun x =>
    match x.label with
    | .outside => true
    | .call c =>
      match c.instruction.vaultIndex.bind c.key? with
      | none => true
      | some vk => (vaultAt sampleHost x.pre.bank vk).all fun v =>
          decide (c.clock.unixTimestamp.toInt≤v.lastFeeUpdate.toInt) ||
            !decide (v.debt=0#64)

theorem promptMints_ok (hp : promptMints tr=true) :
    ∀ x∈tr,∀ c,x.label=.call c → PromptMint sampleHost x.pre.bank c := by
  intro x hx c hc vk v _ hkey hv hdebt
  have hcheck := List.all_eq_true.mp hp x hx
  simp only [hc,hkey,hv,all_some,Bool.or_eq_true,decide_eq_true_eq,hdebt,
    Bool.not_eq_true',decide_eq_false_iff_not,not_true,or_false] at hcheck
  exact hcheck

theorem fees_after_prompt_mint : ∃ tr t,
    Run ((program sampleHost).Step (PromptMint sampleHost)) genesis tr t ∧
      feesAdded sampleHost sampleVault tr=2000000 ∧
      feesAdded sampleHost sampleVault tr*(secondsPerYear.toNat*bpsDenominator.toNat)≤
        stabilityFeeAnnualBps.toNat*debtSeconds sampleHost sampleVault tr := by
  obtain ⟨⟨tr,t⟩,hhistory,hfees,hprompt⟩ : ∃ x,promptHistory=some x ∧
      feesAndSeconds x=(2000000,3155760000000000) ∧ promptMints x.1=true := by decide +kernel
  have hrun := history_run hhistory (promptMints_ok hprompt)
  exact ⟨tr,t,hrun,(Prod.mk.inj hfees).1,
    fees_covered_by_debt_seconds genesis_untouched hrun sampleVault⟩

/-- Minted late, the same debt is charged for the year before it existed. -/
theorem late_mint_charged_without_debt : ∃ tr t,Untouched sampleHost.programId genesis.bank ∧
      Run ((program sampleHost).Step anyCall) genesis tr t ∧
      feesAdded sampleHost sampleVault tr=2000000 ∧ debtSeconds sampleHost sampleVault tr=0 ∧
      ¬feesAdded sampleHost sampleVault tr*(secondsPerYear.toNat*bpsDenominator.toNat)≤
        stabilityFeeAnnualBps.toNat*debtSeconds sampleHost sampleVault tr := by
  simp only [exists_and_left]
  exact ⟨genesis_untouched,exists_run_any _ (show ∃ x,lateHistory=some x ∧ _ by decide +kernel)⟩

end PrismChain.Pusd
