import PrismChain.Programs.Pusd.Backing
import PrismChain.Programs.Pusd.System

namespace PrismChain.Pusd

open FixedWidth Aggregate Option List

section Collateral

theorem Effect.out_le (he : Effect now oracle pool i v g v' g' out) :
    out.toNat≤v.collateral.toNat := by
  cases he with
  | deposit => exact Nat.zero_le _
  | mint => exact Nat.zero_le _
  | burn => exact Nat.zero_le _
  | withdraw _ hle => exact hle
  | @liquidate _ _ _ _ _ _ _ _ hseize =>
    have hle := totalSeize_le hseize
    rw [Vault.accrueFee_collateral] at hle
    rw [toNat_umin]
    exact (min_le_left _ _).trans hle
  | redeem _ _ _ _ hcollateral =>
    rw [Vault.accrueFee_collateral] at hcollateral
    exact hcollateral

theorem Effect.locked (he : Effect now oracle pool i v g v' g' out)
    (hcover : v.collateral.toNat≤g.totalCollateralLocked.toNat) :
    g'.totalCollateralLocked.toNat+out.toNat=g.totalCollateralLocked.toNat+i.paidIn.toNat := by
  have hout := he.out_le.trans hcover
  cases he with
  | deposit _ _ hlocked => exact checkedAdd_eq_some.mp hlocked
  | mint => rfl
  | burn => rfl
  | withdraw =>
    change (saturatingSub _ _).toNat+_=_+0
    rw [toNat_saturatingSub]
    omega
  | liquidate =>
    change (saturatingSub _ _).toNat+_=_+0
    rw [toNat_saturatingSub]
    omega
  | redeem =>
    change (saturatingSub _ _).toNat+_=_+0
    rw [toNat_saturatingSub]
    omega

end Collateral

def System.Locked (S : System) : Prop :=
  ∃ g,S.config=some g ∧ g.totalCollateralLocked.toNat=S.sum fun v => v.collateral.toNat

theorem System.Locked.step {S : System} (hl : S.Locked) (hs : System.Step a S T) : T.Locked := by
  obtain ⟨g0,hg,hsum⟩ := hl
  cases hs with
  | quiet hconfig hvaults => exact ⟨g0,hconfig.trans hg,by rw [sum_congr hvaults]; exact hsum⟩
  | initialized hnone =>
    rw [hnone] at hg
    cases hg
  | @opened _ _ c vk v g g' hconfig hconfig' hnone hsome _ _ hlocked _ hrest =>
    rw [hconfig] at hg
    cases hg
    refine ⟨g',hconfig',?_⟩
    rw [hlocked,hsum,sum_opened hnone hsome hrest]
  | @updated _ _ c vk v _ g g' _ _ _ _ hconfig hconfig' hbefore hafter heffect hrest =>
    rw [hconfig] at hg
    cases hg
    refine ⟨g',hconfig',?_⟩
    have hle : v.collateral.toNat≤S.sum fun v => v.collateral.toNat :=
      le_sum (f := fun v => v.collateral.toNat) hbefore
    have htotal := heffect.locked (by rw [hsum]; exact hle)
    have hvault := heffect.collateral
    have hchange := sum_updated (f := fun v => v.collateral.toNat) hbefore hafter hrest
    omega

theorem locked_run {h : Host} {s₀ s t : Ledger} {tr : Trace Instruction} {c₀ : Call Instruction}
    (h0 : Untouched h.programId s₀.bank)
    (hi : ∃ oracleFeed pusdMint,c₀.instruction=.initializeSystem oracleFeed pusdMint)
    (hinit : (program h).Step (AtConfig h) s₀ (.call c₀) s)
    (hrun : Run ((program h).Settling (AtConfig h) (Funded h)) s tr t) :
    (systemOf h t.bank).Locked := by
  obtain ⟨hf,hempty,g₀,hg₀,-,hzero⟩ := initialize_refines h0 hi hinit
  have hstart : (systemOf h s.bank).Locked := by
    refine ⟨g₀,hg₀,?_⟩
    have hsum : (systemOf h s.bank).sum (fun v => v.collateral.toNat)=0 := sumOver_empty hempty
    rw [hzero,hsum]
    rfl
  exact (run_refines (J := fun _ S => S.Locked) hf hstart (fun hl _ hs => hl.step hs) hrun).1

/-- From `Initialize` on, the total of locked collateral is exact as long as no end of a
transaction drops a vault or the config, and so no subtraction that stops at zero ever has to:
neither on the total nor on the vault. -/
theorem locked_collateral_exact {h : Host} {s₀ s t : Ledger} {tr : Trace Instruction}
    {c₀ : Call Instruction} (h0 : Untouched h.programId s₀.bank)
    (hi : ∃ oracleFeed pusdMint,c₀.instruction=.initializeSystem oracleFeed pusdMint)
    (hinit : (program h).Step (AtConfig h) s₀ (.call c₀) s)
    (hrun : Run ((program h).Settling (AtConfig h) (Funded h)) s tr t) :
    ∃ g,configAt h t.bank=some g ∧ g.totalCollateralLocked.toNat=
        sumOver (fun v : Vault => v.collateral.toNat) (vaultAt h t.bank) ∧
      ∀ c b' vk ck v v' g₁ g' out,(program h).execute c t.bank=.ok b' → AtConfig h t.bank c →
        Updated h c t.bank b' vk ck v v' g₁ g' out →
        g₁=g ∧ out.toNat≤g.totalCollateralLocked.toNat ∧ out.toNat≤v.collateral.toNat ∧
          g'.totalCollateralLocked.toNat+out.toNat=
            g.totalCollateralLocked.toNat+c.instruction.paidIn.toNat ∧
          v'.collateral.toNat+out.toNat=v.collateral.toNat+c.instruction.paidIn.toNat := by
  obtain ⟨g,hg,hsum⟩ := locked_run h0 hi hinit hrun
  refine ⟨g,hg,hsum,?_⟩
  intro c b' vk ck v v' g₁ g' out _ hok hu
  have hck := some.inj (hu.configKey.symm.trans hok)
  subst hck
  have heq : g₁=g :=
    configCodec.encode_inj (hu.config.symm.trans (configAt_eq_some.mp hg).2.1)
  subst heq
  have hle : v.collateral.toNat≤g₁.totalCollateralLocked.toNat := by
    rw [hsum]
    exact System.le_sum (f := fun v => v.collateral.toNat) (S := systemOf h t.bank) hu.book.1
  exact ⟨rfl,hu.effect.out_le.trans hle,hu.effect.out_le,hu.effect.locked hle,hu.effect.collateral⟩

section Supply

variable {now : I64} {amount : U64} {i : Instruction} {v v' : Vault} {g g' : PusdConfig}

def feeCleared (now : I64) (i : Instruction) (v v' : Vault) : Nat :=
  if i.repays then (v.accrueFee now).accruedFee.toNat-v'.accruedFee.toNat else 0

def repaid (now : I64) (i : Instruction) (v v' : Vault) : Nat :=
  feeCleared now i v v'+(if i.repays then v.debt.toNat-v'.debt.toNat else 0)

theorem repaid_of_repays (now : I64) (v v' : Vault) (hi : i.repays=true) :
    feeCleared now i v v'=(v.accrueFee now).accruedFee.toNat-v'.accruedFee.toNat ∧
      repaid now i v v'=feeCleared now i v v'+(v.debt.toNat-v'.debt.toNat) := by
  unfold repaid feeCleared
  rw [if_pos hi,if_pos hi]
  exact ⟨rfl,rfl⟩

theorem repaid_of_not (hi : i.repays=false) : feeCleared now i v v'=0 ∧ repaid now i v v'=0 := by
  have hno : ¬i.repays=true := by rw [hi]; decide
  unfold repaid feeCleared
  rw [if_neg hno,if_neg hno]
  exact ⟨rfl,rfl⟩

theorem totalDebt_le (v : Vault) : v.totalDebt.toNat≤v.debt.toNat+v.accruedFee.toNat := by
  rw [Vault.totalDebt,toNat_saturatingAdd]
  exact min_le_left _ _

theorem pay_split (hle : amount.toNat≤v.totalDebt.toNat)
    (hsub : ∀ {a b c},subtract a b=some c → b.toNat≤a.toNat → a.toNat=c.toNat+b.toNat)
    (hpay : v.pay subtract amount=.ok w) :
    w.debt.toNat=v.debt.toNat-(amount.toNat-v.accruedFee.toNat) ∧ w.debt.toNat≤v.debt.toNat ∧
      (v.accruedFee.toNat-w.accruedFee.toNat)+(v.debt.toNat-w.debt.toNat)=amount.toNat := by
  have hdebt := totalDebt_le v
  unfold Vault.pay at hpay
  split at hpay
  · simp only [steps_ok] at hpay
    obtain ⟨_,hfee,rfl⟩ := hpay
    have := checkedSub_eq_some.mp hfee
    dsimp only
    omega
  · simp only [steps_ok] at hpay
    obtain ⟨_,hremaining,debt,hdebt',rfl⟩ := hpay
    have hr := checkedSub_eq_some.mp hremaining
    have hd := hsub hdebt' (by omega)
    have hzero : (0#64).toNat=0 := rfl
    dsimp only
    omega

theorem checkedSub_exact (hs : checkedSub a b=some c) (_ : b.toNat≤a.toNat) :
    a.toNat=c.toNat+b.toNat :=
  checkedSub_eq_some.mp hs

theorem saturatingSub_exact (hs : some (saturatingSub a b)=some c) (hle : b.toNat≤a.toNat) :
    a.toNat=c.toNat+b.toNat := by
  rw [← some.inj hs,toNat_saturatingSub]
  omega

/-- How debt and supply change: `minted` is added and `sub` is taken from the supply, one of them
being zero. `sub` is at least the principal and at most principal and fee, and exactly that
unless it is the largest word. -/
structure Supplied (minted sub fee paid : Nat) (v v' : Vault) (g g' : PusdConfig) : Prop where
  one : minted=0 ∨ sub=0
  supply : g'.totalPusdSupply.toNat=g.totalPusdSupply.toNat+minted-sub
  debt : v'.debt.toNat+(paid-fee)=v.debt.toNat+minted
  lower : paid-fee≤ sub
  upper : sub≤paid
  exact : sub=paid ∨ 2^64≤ sub+1
  fee_le : fee≤paid

theorem supplied_still (hsupply : g'.totalPusdSupply=g.totalPusdSupply) (hdebt : v'.debt=v.debt) :
    Supplied 0 0 0 0 v v' g g' :=
  ⟨.inl rfl,by rw [hsupply]; rfl,by rw [hdebt],le_rfl,le_rfl,.inl rfl,le_rfl⟩

theorem supplied_paid (hsupply : g'.totalPusdSupply=saturatingSub g.totalPusdSupply amount)
    (hdebt : v'.debt.toNat≤v.debt.toNat) (hsplit : fee+(v.debt.toNat-v'.debt.toNat)=amount.toNat) :
    Supplied 0 amount.toNat fee amount.toNat v v' g g' := by
  refine ⟨.inl rfl,?_,?_,?_,le_rfl,.inl rfl,?_⟩
  · rw [hsupply,toNat_saturatingSub]
    rfl
  · omega
  · omega
  · omega

theorem Effect.supply (he : Effect now oracle pool i v g v' g' out) :
    ∃ minted sub,Supplied minted sub (feeCleared now i v v') (repaid now i v v') v v' g g' := by
  cases he with
  | deposit =>
    rw [(repaid_of_not rfl).1,(repaid_of_not rfl).2]
    exact ⟨0,0,supplied_still rfl rfl⟩
  | withdraw =>
    rw [(repaid_of_not rfl).1,(repaid_of_not rfl).2]
    exact ⟨0,0,supplied_still rfl (v.accrueFee_debt now)⟩
  | @mint _ _ amount debt _ _ supply _ hdebt _ _ _ _ hsupply =>
    have hd := checkedAdd_eq_some.mp hdebt
    have hs := checkedAdd_eq_some.mp hsupply
    rw [Vault.accrueFee_debt] at hd
    rw [(repaid_of_not rfl).1,(repaid_of_not rfl).2]
    exact ⟨amount.toNat,0,.inr rfl,hs,hd,le_rfl,le_rfl,.inl rfl,le_rfl⟩
  | @burn _ _ _ amount _ hle hpay =>
    obtain ⟨-,hdebt,hsplit⟩ := pay_split hle checkedSub_exact hpay
    rw [Vault.accrueFee_debt] at hdebt hsplit
    obtain ⟨hfee,hpaid⟩ := repaid_of_repays (i := .burnPusd amount) now v v' rfl
    rw [← hfee] at hsplit
    rw [hpaid,hsplit]
    exact ⟨0,amount.toNat,supplied_paid rfl hdebt hsplit⟩
  | @redeem _ w _ amount _ _ _ hle _ _ _ _ hpay =>
    obtain ⟨-,hdebt,hsplit⟩ := pay_split hle saturatingSub_exact hpay
    rw [Vault.accrueFee_debt] at hdebt hsplit
    obtain ⟨hfee,hpaid⟩ := repaid_of_repays (i := .redeem amount) now v
      {w with collateral := saturatingSub w.collateral out} rfl
    change _=_-w.accruedFee.toNat at hfee
    rw [← hfee] at hsplit
    rw [hpaid]
    change ∃ minted sub,Supplied minted sub _ (_+(_-w.debt.toNat)) _ _ _ _
    rw [hsplit]
    exact ⟨0,amount.toNat,supplied_paid rfl hdebt hsplit⟩
  | liquidate =>
    have htotal : (v.accrueFee now).totalDebt.toNat=
        min (v.debt.toNat+(v.accrueFee now).accruedFee.toNat) (2^64-1) := by
      rw [Vault.totalDebt,toNat_saturatingAdd,Vault.accrueFee_debt]
    have hfit := v.debt.isLt
    have hzero : (0#64).toNat=0 := rfl
    refine ⟨0,(v.accrueFee now).totalDebt.toNat,.inl rfl,?_,?_,?_,?_,?_,?_⟩
    · exact toNat_saturatingSub _ _
    all_goals
      simp only [(repaid_of_repays (i := .liquidate) now v _ rfl).2,
        (repaid_of_repays (i := .liquidate) now v _ rfl).1]
      omega

end Supply

def onVault (h : Host) (f : I64 → Instruction → Vault → Vault → Nat)
    (x : LogEntry Instruction) : Nat :=
  match x.label with
  | .outside => 0
  | .call c =>
    match c.instruction.vaultIndex.bind c.key? with
    | none => 0
    | some vk =>
      match vaultAt h x.pre.bank vk,vaultAt h x.post.bank vk with
      | some v,some v' => f c.clock.unixTimestamp c.instruction v v'
      | _,_ => 0

theorem onVault_zero {c : Call Instruction} (hf : ∀ now v v',f now c.instruction v v'=0) :
    onVault h f ⟨t,.call c,u⟩=0 := by
  unfold onVault
  dsimp only
  split
  · rfl
  · split
    · exact hf _ _ _
    · rfl

theorem onVault_updated {t u : Ledger} {c : Call Instruction}
    (hkey : c.instruction.vaultIndex.bind c.key?=some vk) (hbefore : vaultAt h t.bank vk=some v)
    (hafter : vaultAt h u.bank vk=some v') :
    onVault h f ⟨t,.call c,u⟩=f c.clock.unixTimestamp c.instruction v v' := by
  simp only [onVault,hkey,hbefore,hafter]

def feesCleared (h : Host) (tr : Trace Instruction) : Nat := total (onVault h feeCleared) tr

def Unclipped (h : Host) (tr : Trace Instruction) : Prop :=
  ∀ x∈tr,∀ g,configAt h x.pre.bank=some g → onVault h repaid x≤g.totalPusdSupply.toNat

def Circulating (h : Host) (tr : Trace Instruction) (S : System) : Prop :=
  ∃ g,S.config=some g ∧ g.totalPusdSupply.toNat≤S.sum (fun v => v.debt.toNat) ∧
    S.sum (fun v => v.debt.toNat)≤g.totalPusdSupply.toNat+feesCleared h tr ∧
    (Unclipped h tr → g.totalPusdSupply.toNat+feesCleared h tr=S.sum fun v => v.debt.toNat)

theorem Unclipped.init (hu : Unclipped h (tr++[x])) :
    Unclipped h tr ∧ ∀ g,configAt h x.pre.bank=some g →
      onVault h repaid x≤g.totalPusdSupply.toNat :=
  ⟨fun y hy => hu y (mem_append_left _ hy),hu x (mem_append_right _ (mem_singleton.mpr rfl))⟩

theorem Circulating.step {t u : Ledger} (hc : Circulating h tr (systemOf h t.bank))
    (hs : System.Step a (systemOf h t.bank) (systemOf h u.bank)) :
    Circulating h (tr++[⟨t,a,u⟩]) (systemOf h u.bank) := by
  obtain ⟨g0,hg,_,_,hexact⟩ := hc
  have htotal : feesCleared h (tr++[⟨t,a,u⟩])=feesCleared h tr+onVault h feeCleared ⟨t,a,u⟩ :=
    total_append_one _ _ _
  cases hs with
  | quiet hconfig hvaults =>
    have hsame := System.sum_congr (f := fun v => v.debt.toNat) hvaults
    have hzero : onVault h feeCleared ⟨t,.outside,u⟩=0 := rfl
    refine ⟨g0,hconfig.trans hg,?_,?_,fun hu => ?_⟩
    · omega
    · omega
    · have := hexact hu.init.1
      omega
  | initialized hnone =>
    rw [hnone] at hg
    cases hg
  | @opened _ _ c vk v g g' hconfig hconfig' hnone hsome hdebt hi _ hsupply hrest =>
    rw [hconfig] at hg
    cases hg
    have hadd := System.sum_opened (f := fun v => v.debt.toNat) hnone hsome hrest
    have hv : v.debt.toNat=0 := by rw [hdebt]; rfl
    have hzero : onVault h feeCleared ⟨t,.call c,u⟩=0 := by
      obtain ⟨_,_,hinstr⟩ := hi
      exact onVault_zero fun _ _ _ => (repaid_of_not (by rw [hinstr]; rfl)).1
    refine ⟨g',hconfig',?_,?_,fun hu => ?_⟩
    · rw [hsupply]
      omega
    · rw [hsupply]
      omega
    · have := hexact hu.init.1
      rw [hsupply]
      omega
  | @updated _ _ c vk v _ g g' _ _ _ hkey hconfig hconfig' hbefore hafter heffect hrest =>
    rw [hconfig] at hg
    cases hg
    have hchange := System.sum_updated (f := fun v => v.debt.toNat) hbefore hafter hrest
    have hle := System.le_sum (f := fun v => v.debt.toNat) hbefore
    obtain ⟨_,_,hsup⟩ := heffect.supply
    have hfee := onVault_updated (f := feeCleared) hkey hbefore hafter
    have hpaid := onVault_updated (f := repaid) hkey hbefore hafter
    have hone := hsup.one
    have hs := hsup.supply
    have hd := hsup.debt
    have hlo := hsup.lower
    have hup := hsup.upper
    have hfp := hsup.fee_le
    refine ⟨g',hconfig',?_,?_,fun hu => ?_⟩
    · omega
    · omega
    · have hrec := hexact hu.init.1
      have hclip := hu.init.2 g0 hconfig
      have hfit := g0.totalPusdSupply.isLt
      have hex := hsup.exact
      omega

/-- From `Initialize` on, the supply on record is at most the debt of all vaults and at least that
debt less the fees that repayments have cleared, as long as no end of a transaction drops a vault
or the config. It is exactly the latter as long as no repayment is for more than the supply. -/
theorem supply_between_debt_and_fees {h : Host} {s₀ s t : Ledger} {tr : Trace Instruction}
    {c₀ : Call Instruction} (h0 : Untouched h.programId s₀.bank)
    (hi : ∃ oracleFeed pusdMint,c₀.instruction=.initializeSystem oracleFeed pusdMint)
    (hinit : (program h).Step (AtConfig h) s₀ (.call c₀) s)
    (hrun : Run ((program h).Settling (AtConfig h) (Funded h)) s tr t) :
    ∃ g,configAt h t.bank=some g ∧
      g.totalPusdSupply.toNat≤ sumOver (fun v : Vault => v.debt.toNat) (vaultAt h t.bank) ∧
      sumOver (fun v : Vault => v.debt.toNat)
        (vaultAt h t.bank)≤g.totalPusdSupply.toNat+feesCleared h tr ∧
      (Unclipped h tr → g.totalPusdSupply.toNat+feesCleared h tr=
        sumOver (fun v : Vault => v.debt.toNat) (vaultAt h t.bank)) := by
  obtain ⟨hf,hempty,g₀,hg₀,hzero,-⟩ := initialize_refines h0 hi hinit
  have hstart : Circulating h [] (systemOf h s.bank) := by
    have hsum : (systemOf h s.bank).sum (fun v => v.debt.toNat)=0 := sumOver_empty hempty
    have hsupply : g₀.totalPusdSupply.toNat=0 := by rw [hzero]; rfl
    have hfees : feesCleared h []=0 := rfl
    exact ⟨g₀,hg₀,by omega,by omega,fun _ => by omega⟩
  exact (run_refines (J := Circulating h) hf hstart (fun hc _ hs => hc.step hs) hrun).1

def founded : Ledger :=
  ⟨((program sampleHost).execute initCall genesis.bank).toOption.getD genesis.bank,initCall.clock⟩

theorem founded_step :
    (program sampleHost).Step (AtConfig sampleHost) genesis (.call initCall) founded :=
  .call (by decide) (by decide +kernel) (eq_ok_of_isOk genesis.bank (by decide +kernel))

def healthyMint : Call Instruction := {mintCall with clock := ⟨5#64,1000#64⟩}

def burnCall (amount : U64) : Call Instruction where
  clock := ⟨6#64,31558600#64⟩
  accounts := [⟨2#256,true,true⟩,⟨sampleVault,false,true⟩,⟨sampleConfig,false,true⟩,
    ⟨7#256,false,true⟩,⟨6#256,false,true⟩,⟨9#256,false,false⟩]
  instruction := .burnPusd amount

def burnCalls : List (Call Instruction) :=
  [openCall 2#256 sampleVault samplePool,healthyMint,burnCall 12000000#64]

def booksOf (x : Trace Instruction×Ledger) : Option (U64×U64×U64)×Option U64×Nat×Bool :=
  ((configAt sampleHost x.2.bank).map fun g =>
      (g.totalCollateralLocked,g.totalPusdSupply,g.totalFeesCollected),
    (vaultAt sampleHost x.2.bank sampleVault).map fun v => v.debt,feesCleared sampleHost x.1,
    ((program sampleHost).execute (burnCall 90000000#64) x.2.bank).isOk)

theorem atConfig_of_all {cs : List (Call Instruction)} (h : (cs.all fun c =>
      c.key? c.instruction.configIndex==some (configPda sampleHost))=true) :
    ∀ c∈cs,∀ b,AtConfig sampleHost b c :=
  fun c hc _ => beq_iff_eq.mp (all_eq_true.mp h c hc)

def burnBooks : Option (U64×U64×U64)×Option U64×Nat×Bool :=
  (some (1000000000#64,88000000#64,12000000#64),some 90000000#64,2000000,true)

theorem burn_run
    (hbooks : ((program sampleHost).history burnCalls s).map booksOf=some burnBooks) :
    ∃ tr t,booksOf (tr,t)=burnBooks ∧
      Run ((program sampleHost).Step (AtConfig sampleHost)) s tr t := by
  obtain ⟨⟨tr,t⟩,hhistory,hbooks⟩ := map_eq_some_iff.mp hbooks
  exact ⟨tr,t,hbooks,Program.history_run_calls hhistory (atConfig_of_all (by decide +kernel))⟩

def settled : Ledger := ⟨founded.bank.settle,founded.clock⟩

/-- The transaction of `Initialize` ends before the next one starts. -/
theorem founded_settles : (program sampleHost).Settling (AtConfig sampleHost) (Funded sampleHost)
    founded .outside settled := by
  obtain ⟨-,hempty,-⟩ :=
    initialize_refines genesis_untouched ⟨5#256,6#256,rfl⟩ founded_step
  exact .settle (.of_empty hempty (by decide +kernel))

theorem settled_run (h : Run ((program sampleHost).Step (AtConfig sampleHost)) settled tr t) :
    Run ((program sampleHost).Settling (AtConfig sampleHost) (Funded sampleHost)) founded
      (⟨founded,.outside,settled⟩::tr) t :=
  (Run.start.next founded_settles).append (Program.settling_run h)

theorem locked_after_burn : ∃ tr t g,
    Run ((program sampleHost).Settling (AtConfig sampleHost) (Funded sampleHost)) founded tr t ∧
      configAt sampleHost t.bank=some g ∧
      g.totalCollateralLocked.toNat=
        sumOver (fun v : Vault => v.collateral.toNat) (vaultAt sampleHost t.bank) := by
  obtain ⟨tr,t,-,hrun⟩ := burn_run (s := settled) (by decide +kernel)
  obtain ⟨g,hg,hsum,-⟩ :=
    locked_collateral_exact genesis_untouched ⟨5#256,6#256,rfl⟩ founded_step (settled_run hrun)
  exact ⟨_,t,g,settled_run hrun,hg,hsum⟩

def drainCall : Call Instruction where
  clock := ⟨4#64,1000#64⟩
  accounts := [⟨3#256,true,true⟩,⟨otherVault,false,true⟩,⟨sampleConfig,false,true⟩,
    ⟨sampleVault,false,true⟩,⟨5#256,false,false⟩,systemInfo]
  instruction := .withdrawCollateral (sampleHost.minimumBalance vaultSpace)

def drainCalls : List (Call Instruction) :=
  [openCall 2#256 sampleVault samplePool,openCall 3#256 otherVault otherPool,drainCall]

/-- The second user takes the collateral out of the first one's vault account instead of a pool.
The account is left without lamports and is gone when the transaction ends, with a vault that
is still counted. -/
theorem drained_vault_dropped : ∃ tr t g,Untouched sampleHost.programId genesis.bank ∧
      (program sampleHost).Step (AtConfig sampleHost) genesis (.call initCall) founded ∧
      Run ((program sampleHost).Settling (AtConfig sampleHost) fun _ => True) founded tr t ∧
      tr.map Transition.label=drainCalls.map Action.call++[.outside] ∧
      configAt sampleHost t.bank=some g ∧ vaultAt sampleHost t.bank sampleVault=none ∧
      sumOver (fun v : Vault => v.collateral.toNat) (vaultAt sampleHost t.bank)<
        g.totalCollateralLocked.toNat := by
  obtain ⟨⟨tr,t⟩,hhistory,v,hv,hcollateral,hempty,hconfig,hlabels⟩ :
      ∃ x,(program sampleHost).history drainCalls founded=some x ∧
      ∃ v,vaultAt sampleHost x.2.bank sampleVault=some v ∧ v.collateral=1000000000#64 ∧
        (x.2.bank sampleVault).lamports=0#64 ∧
        (x.2.bank (configPda sampleHost)).lamports≠0#64 ∧
        x.1.map Transition.label=drainCalls.map Action.call := by decide +kernel
  have hrun := Program.history_run_calls hhistory (atConfig_of_all (by decide +kernel))
  obtain ⟨g,hg,hsum⟩ :=
    locked_run genesis_untouched ⟨5#256,6#256,rfl⟩ founded_step (Program.settling_run hrun)
  have hnone : vaultAt sampleHost t.bank.settle sampleVault=none :=
    vaultAt_of_empty (by rw [Bank.settle_of_zero hempty])
  have hdropped : sumOver (fun v : Vault => v.collateral.toNat) (vaultAt sampleHost t.bank.settle)+
      v.collateral.toNat≤ sumOver (fun v : Vault => v.collateral.toNat)
        (vaultAt sampleHost t.bank) :=
    sumOver_drop (g := fun v : Vault => v.collateral.toNat) hv hnone
      fun _ _ h => (recordAt_settle vault_size (by decide) h).2
  refine ⟨tr++[⟨t,.outside,⟨t.bank.settle,t.clock⟩⟩],_,g,genesis_untouched,founded_step,
    (Program.settling_run hrun).next (.settle trivial),?_,?_,hnone,?_⟩
  · rw [map_append,hlabels]
    rfl
  · exact (recordAt_settle_of config_size (by decide) fun _ _ => hconfig).trans hg
  · have hpositive : v.collateral.toNat=1000000000 := by rw [hcollateral]; rfl
    have hlocked : g.totalCollateralLocked.toNat=
      sumOver (fun v : Vault => v.collateral.toNat) (vaultAt sampleHost t.bank) := hsum
    dsimp only
    omega

theorem supply_after_burn : ∃ tr t g,
    Run ((program sampleHost).Settling (AtConfig sampleHost) (Funded sampleHost)) founded tr t ∧
      configAt sampleHost t.bank=some g ∧
      g.totalPusdSupply.toNat≤ sumOver (fun v : Vault => v.debt.toNat) (vaultAt sampleHost t.bank) ∧
      sumOver (fun v : Vault => v.debt.toNat) (vaultAt sampleHost t.bank)≤
        g.totalPusdSupply.toNat+feesCleared sampleHost tr := by
  obtain ⟨tr,t,-,hrun⟩ := burn_run (s := settled) (by decide +kernel)
  obtain ⟨g,hg,hupper,hlower,-⟩ :=
    supply_between_debt_and_fees genesis_untouched ⟨5#256,6#256,rfl⟩ founded_step
      (settled_run hrun)
  exact ⟨_,t,g,settled_run hrun,hg,hupper,hlower⟩

/-- Of twelve dollars repaid, two were fees: the supply is below the debt, all twelve count as
fees collected, and repaying the rest takes more than the supply. -/
theorem burn_separates_supply_from_debt : ∃ tr t g,Untouched sampleHost.programId genesis.bank ∧
      (program sampleHost).Step (AtConfig sampleHost) genesis (.call initCall) founded ∧
      Run ((program sampleHost).Step (AtConfig sampleHost)) founded tr t ∧
      configAt sampleHost t.bank=some g ∧
      g.totalPusdSupply.toNat≠sumOver (fun v : Vault => v.debt.toNat) (vaultAt sampleHost t.bank) ∧
      feesCleared sampleHost tr=2000000 ∧ g.totalFeesCollected=12000000#64 ∧
      ((program sampleHost).execute (burnCall 90000000#64) t.bank).isOk=true ∧
      g.totalPusdSupply.toNat<(90000000#64).toNat := by
  obtain ⟨tr,t,hbooks,hrun⟩ := burn_run (s := founded) (by decide +kernel)
  simp only [booksOf,burnBooks,Prod.mk.injEq,map_eq_some_iff] at hbooks
  obtain ⟨⟨g,hg,-,hsupply,hcollected⟩,⟨v,hv,hdebt⟩,hfees,hnext⟩ := hbooks
  have hle : v.debt.toNat≤ sumOver (fun v : Vault => v.debt.toNat) (vaultAt sampleHost t.bank) :=
    le_sumOver (g := fun v : Vault => v.debt.toNat) hv
  have hs : g.totalPusdSupply.toNat=88000000 := by rw [hsupply]; rfl
  have hd : v.debt.toNat=90000000 := by rw [hdebt]; rfl
  refine ⟨tr,t,g,genesis_untouched,founded_step,hrun,hg,by omega,hfees,hcollected,hnext,?_⟩
  rw [hs]
  decide

end PrismChain.Pusd
