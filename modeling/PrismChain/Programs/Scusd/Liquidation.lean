import PrismChain.Programs.Scusd.Debt

namespace PrismChain.Scusd

open FixedWidth Option Program

structure Liquidatable (v : Vault) (g : GlobalState) (price : U64) : Prop where
  priceFits : price.toNat*9500<2^64
  priceCounts : 2≤price.toNat
  debtFits : v.debtAmount.toNat*100000000<2^64
  debtCounted : v.debtAmount.toNat≤g.totalDebt.toNat
  collateralCounted :
    min (v.debtAmount.toNat*100000000/(price.toNat*9500/10000)) v.collateralAmount.toNat≤
      g.totalCollateral.toNat

section Arithmetic

variable {v : Vault} {g : GlobalState} {price seized : U64} {now : I64}

theorem discount_toNat : (10000#64-liquidationDiscountBps).toNat=9500 := by decide

theorem decimals_toNat : priceDecimals.toNat=100000000 := by decide

theorem checkedMul_const {a b : U64} (hb : b.toNat=n) (h : a.toNat*n<2^64) :
    checkedMul a b=some (a*b) ∧ (a*b).toNat=a.toNat*n := by
  subst hb
  exact ⟨if_pos h,by rw [BitVec.toNat_mul,Nat.mod_eq_of_lt h]⟩

theorem checkedMul_overflow {a b : U64} (hb : b.toNat=n) (h : ¬a.toNat*n<2^64) :
    checkedMul a b=none := by
  subst hb
  exact if_neg h

theorem discounted_toNat {scaled : U64} (h : scaled.toNat=price.toNat*9500) :
    (scaled/10000#64).toNat=price.toNat*9500/10000 := by
  rw [BitVec.toNat_udiv,h,BitVec.toNat_ofNat]

theorem collateralToLiquidate_ok (hprice : price.toNat*9500<2^64) (hcounts : 2≤price.toNat)
    (hdebt : v.debtAmount.toNat*100000000<2^64) :
    ∃ seized,collateralToLiquidate v price=.ok seized ∧
      seized.toNat=min (v.debtAmount.toNat*100000000/(price.toNat*9500/10000))
        v.collateralAmount.toNat := by
  obtain ⟨hscaled,hscaledNat⟩ := checkedMul_const discount_toNat hprice
  obtain ⟨hvalue,hvalueNat⟩ := checkedMul_const decimals_toNat hdebt
  have hdiscounted := discounted_toNat hscaledNat
  have hpos : (price*(10000#64-liquidationDiscountBps)/10000#64).toNat≠0 := by
    rw [hdiscounted]
    omega
  refine ⟨umin (v.debtAmount*priceDecimals/(price*(10000#64-liquidationDiscountBps)/10000#64))
    v.collateralAmount,?_,?_⟩
  · simp only [collateralToLiquidate,hscaled,hvalue,okOr_some,ok_bind,checkedDiv,if_neg hpos]
    rfl
  · rw [toNat_umin,BitVec.toNat_udiv,hvalueNat,hdiscounted]

theorem collateralToLiquidate_error
    (h : ¬(price.toNat*9500<2^64 ∧ 2≤price.toNat ∧ v.debtAmount.toNat*100000000<2^64)) :
    collateralToLiquidate v price=.error .arithmeticOverflow := by
  unfold collateralToLiquidate
  by_cases hprice : price.toNat*9500<2^64
  · obtain ⟨hscaled,hscaledNat⟩ := checkedMul_const discount_toNat hprice
    rw [hscaled,okOr_some,ok_bind]
    by_cases hdebt : v.debtAmount.toNat*100000000<2^64
    · have hzero : (price*(10000#64-liquidationDiscountBps)/10000#64).toNat=0 := by
        rw [discounted_toNat hscaledNat]
        have hsmall : price.toNat<2 := Nat.not_le.mp fun hcounts => h ⟨hprice,hcounts,hdebt⟩
        omega
      rw [(checkedMul_const decimals_toNat hdebt).1]
      simp only [okOr_some,ok_bind,checkedDiv,if_pos hzero,okOr_none,error_bind]
    · rw [checkedMul_overflow decimals_toNat hdebt]
      rfl
  · rw [checkedMul_overflow discount_toNat hprice]
    rfl

theorem liquidated_ok (hseized : seized.toNat≤v.collateralAmount.toNat)
    (hdebt : v.debtAmount.toNat≤g.totalDebt.toNat)
    (htotal : seized.toNat≤g.totalCollateral.toNat) : ∃ x,liquidated v g seized now=.ok x := by
  simp only [liquidated,checkedSub_of_le hseized,checkedSub_of_le hdebt,checkedSub_of_le htotal,
    okOr_some,ok_bind]
  exact ⟨_,rfl⟩

theorem liquidated_error (hseized : seized.toNat≤v.collateralAmount.toNat)
    (h : g.totalDebt.toNat<v.debtAmount.toNat ∨ g.totalCollateral.toNat< seized.toNat) :
    liquidated v g seized now=.error .arithmeticOverflow := by
  unfold liquidated
  rw [checkedSub_of_le hseized,okOr_some,ok_bind]
  by_cases hdebt : v.debtAmount.toNat≤g.totalDebt.toNat
  · have htotal : g.totalCollateral.toNat< seized.toNat := by omega
    rw [checkedSub_of_le hdebt,okOr_some,ok_bind,checkedSub_of_lt htotal,okOr_none,error_bind]
  · rw [checkedSub_of_lt (Nat.not_le.mp hdebt),okOr_none,error_bind]

end Arithmetic

structure Liquidation where
  liquidator : AccountInfo
  vault : AccountInfo
  globalState : AccountInfo
  scusdMint : AccountInfo
  liquidatorScusd : AccountInfo
  liquidatorPrism : AccountInfo
  collateralPool : AccountInfo
  oracle : AccountInfo
  tokenProgram : AccountInfo
  clockSysvar : AccountInfo
  rest : List AccountInfo

namespace Liquidation

def accounts (l : Liquidation) : List AccountInfo :=
  l.liquidator::l.vault::l.globalState::l.scusdMint::l.liquidatorScusd::l.liquidatorPrism::
    l.collateralPool::l.oracle::l.tokenProgram::l.clockSysvar::l.rest

def call (l : Liquidation) (clock : Clock) : Call Instruction := ⟨clock,l.accounts,.liquidateVault⟩

/-- Somebody who holds the debt in scUSD asks for a vault that is below the liquidation ratio
after accrual, and the token program carries out what it is asked for. -/
structure Ready (l : Liquidation) (e : Env) (b : Bank) (clock : Clock) (v : Vault)
    (g : GlobalState) (price : U64) : Prop where
  signer : l.liquidator.isSigner=true
  vault : vaultAt e b l.vault.key=some v
  passed : l.globalState.key=globalPda e
  global : globalAt e b=some g
  oracle : readOraclePrice (b l.oracle.key).data=.ok price
  unsound : (calculateCollateralRatio v.collateralAmount
    (accrueStabilityFee v g clock.unixTimestamp).debtAmount price).toNat<g.liquidationRatio.toNat
  token : l.tokenProgram.key=e.tokenProgram
  writable : l.vault.isWritable=true ∧ l.globalState.isWritable=true
  burnWritable : l.liquidatorScusd.isWritable=true ∧ l.scusdMint.isWritable=true
  payWritable : l.collateralPool.isWritable=true ∧ l.liquidatorPrism.isWritable=true
  tokens : ∃ b₁,e.tokenCall [] (TokenOp.burn.index::leBytes 8
      (accrueStabilityFee v g clock.unixTimestamp).debtAmount.toNat)
      [l.liquidatorScusd.key,l.scusdMint.key,l.liquidator.key] b=.ok b₁ ∧
    ∀ amount : U64,amount.toNat≤v.collateralAmount.toNat → ∃ b₂,
      e.tokenCall (globalSeeds g) (TokenOp.transfer.index::leBytes 8 amount.toNat)
        [l.collateralPool.key,l.liquidatorPrism.key,l.globalState.key] b₁=.ok b₂

variable {l : Liquidation} {e : Env} {b : Bank} {v : Vault}

theorem Ready.process (hr : l.Ready e b clock v g price) :
    processLiquidateVault e clock l.accounts ⟨b,b⟩=(do
      let v := accrueStabilityFee v g clock.unixTimestamp
      let seized ← collateralToLiquidate v price
      let f ← invokeToken e ⟨e.programId,l.accounts⟩ .burn [] l.tokenProgram.key
        l.liquidatorScusd.key l.scusdMint.key l.liquidator.key v.debtAmount ⟨b,b⟩
      let f ← invokeToken e ⟨e.programId,l.accounts⟩ .transfer (globalSeeds g) l.tokenProgram.key
        l.collateralPool.key l.liquidatorPrism.key l.globalState.key seized f
      let x ← liquidated v g seized clock.unixTimestamp
      storeBoth x l.vault.key l.globalState.key f) := by
  obtain ⟨-,hv,hlive⟩ := recordAt_eq_some.mp hr.vault
  obtain ⟨-,hg,-⟩ := recordAt_eq_some.mp hr.global
  rw [← hr.passed] at hg
  have hload : loadVault ⟨b,b⟩ l.vault.key=.ok v := loadVault_eq_ok.mpr hv
  have hglobal : loadGlobal ⟨b,b⟩ l.globalState.key=.ok g := loadGlobal_eq_ok.mpr hg
  have hunsound := hr.unsound
  rw [← accrueStabilityFee_collateral v g clock.unixTimestamp] at hunsound
  unfold processLiquidateVault accounts
  simp only
    [require_pos hr.signer,hload,require_pos hlive,hglobal,hr.oracle,require_pos hunsound,ok_bind]

theorem Ready.process_seized (hr : l.Ready e b clock v g price)
    (hseized : collateralToLiquidate (accrueStabilityFee v g clock.unixTimestamp) price=.ok seized)
    (hle : seized.toNat≤v.collateralAmount.toNat) :
    ∃ b2,TokenStep e b b2 ∧ processLiquidateVault e clock l.accounts ⟨b,b⟩=(do
      let x ← liquidated (accrueStabilityFee v g clock.unixTimestamp) g seized clock.unixTimestamp
      storeBoth x l.vault.key l.globalState.key ⟨b2,b2⟩) := by
  obtain ⟨_,hcall1,hpay⟩ := hr.tokens
  obtain ⟨b2,hcall2⟩ := hpay seized hle
  have hburn := @invokeToken_ok e ⟨e.programId,l.accounts⟩ _ _ _ _ _ _ _ _ _ hr.token
    ⟨writable_of_mem (by simp [accounts]) hr.burnWritable.1,
      writable_of_mem (by simp [accounts]) hr.burnWritable.2⟩ hcall1
  have htransfer := @invokeToken_ok e ⟨e.programId,l.accounts⟩ _ _ _ _ _ _ _ _ _ hr.token
    ⟨writable_of_mem (by simp [accounts]) hr.payWritable.1,
      writable_of_mem (by simp [accounts]) hr.payWritable.2⟩ hcall2
  obtain ⟨_,he1,ht1⟩ := invokeToken_spec hburn
  obtain ⟨_,he2,ht2⟩ := invokeToken_spec htransfer
  cases he1
  cases he2
  refine ⟨b2,ht1.trans ht2,?_⟩
  rw [hr.process]
  simp only [hseized,hburn,htransfer,ok_bind]

theorem execute_of_error (h : processLiquidateVault e clock l.accounts ⟨b,b⟩=.error err) :
    (program e).execute (l.call clock) b=.error err := by
  change (processLiquidateVault e clock l.accounts ⟨b,b⟩ >>= _)=_
  rw [h]
  rfl

theorem Ready.executes (hr : l.Ready e b clock v g price)
    (hl : Liquidatable (accrueStabilityFee v g clock.unixTimestamp) g price) :
    ∃ b',(program e).execute (l.call clock) b=.ok b' := by
  obtain ⟨hvowned,hv,-⟩ := recordAt_eq_some.mp hr.vault
  obtain ⟨hgowned,hg,-⟩ := recordAt_eq_some.mp hr.global
  rw [← hr.passed] at hgowned hg
  obtain ⟨seized,hseized,hvalue⟩ := collateralToLiquidate_ok hl.priceFits hl.priceCounts hl.debtFits
  have hcollateral := accrueStabilityFee_collateral v g clock.unixTimestamp
  have hle : seized.toNat≤(accrueStabilityFee v g clock.unixTimestamp).collateralAmount.toNat := by
    rw [hvalue]
    exact min_le_right _ _
  have htotal : seized.toNat≤g.totalCollateral.toNat := by
    rw [hvalue]
    exact hl.collateralCounted
  obtain ⟨_,ht,hprocess⟩ := hr.process_seized hseized (by rw [← hcollateral]; exact hle)
  obtain ⟨x,hx⟩ := @liquidated_ok _ g seized clock.unixTimestamp hle hl.debtCounted htotal
  obtain ⟨f,hstore,hsync⟩ := commit_ok l.accounts x hv hg ht hvowned hgowned
    (writable_of_mem (by simp [accounts]) hr.writable.1)
    (writable_of_mem (by simp [accounts]) hr.writable.2)
  refine ⟨f.view,execute_eq_ok.mpr ⟨f,?_,hsync,rfl⟩⟩
  change processLiquidateVault e clock l.accounts ⟨b,b⟩=.ok f
  rw [hprocess,hx,ok_bind]
  exact hstore

theorem Ready.fails (hr : l.Ready e b clock v g price)
    (hl : ¬Liquidatable (accrueStabilityFee v g clock.unixTimestamp) g price) :
    (program e).execute (l.call clock) b=.error .arithmeticOverflow := by
  refine execute_of_error ?_
  by_cases hfits : price.toNat*9500<2^64 ∧ 2≤price.toNat ∧
      (accrueStabilityFee v g clock.unixTimestamp).debtAmount.toNat*100000000<2^64
  · obtain ⟨hprice,hcounts,hdebt⟩ := hfits
    obtain ⟨seized,hseized,hvalue⟩ := collateralToLiquidate_ok hprice hcounts hdebt
    have hcollateral := accrueStabilityFee_collateral v g clock.unixTimestamp
    have hle :
        seized.toNat≤(accrueStabilityFee v g clock.unixTimestamp).collateralAmount.toNat := by
      rw [hvalue]
      exact min_le_right _ _
    obtain ⟨_,-,hprocess⟩ := hr.process_seized hseized (by rw [← hcollateral]; exact hle)
    rw [hprocess,liquidated_error hle,error_bind]
    -- one of the two totals is too small
    by_contra hno
    rw [not_or,Nat.not_lt,Nat.not_lt,hvalue] at hno
    exact hl ⟨hprice,hcounts,hdebt,hno.1,hno.2⟩
  · rw [hr.process]
    simp only [collateralToLiquidate_error hfits,error_bind]

end Liquidation

/-- A liquidation of an unsound vault returns exactly when its arithmetic goes through, and fails
with an overflow otherwise. -/
theorem liquidation_succeeds_iff {l : Liquidation} {e : Env} {b : Bank} {clock : Clock} {v : Vault}
    {g : GlobalState} {price : U64} (hr : l.Ready e b clock v g price) :
    ((∃ b',(program e).execute (l.call clock) b=.ok b') ↔
      Liquidatable (accrueStabilityFee v g clock.unixTimestamp) g price) ∧
    ((program e).execute (l.call clock) b=.error .arithmeticOverflow ↔
      ¬Liquidatable (accrueStabilityFee v g clock.unixTimestamp) g price) := by
  by_cases hl : Liquidatable (accrueStabilityFee v g clock.unixTimestamp) g price
  · obtain ⟨b',hb'⟩ := hr.executes hl
    rw [hb']
    exact ⟨⟨fun _ => hl,fun _ => ⟨b',rfl⟩⟩,⟨nofun,fun hno => absurd hl hno⟩⟩
  · rw [hr.fails hl]
    exact ⟨⟨nofun,fun h => absurd h hl⟩,⟨fun _ => hl,fun _ => rfl⟩⟩

def sampleLiquidation : Liquidation :=
  ⟨⟨3#256,true,true⟩,⟨sampleVault,false,true⟩,⟨sampleGlobal,false,true⟩,⟨11#256,false,true⟩,
    ⟨16#256,false,true⟩,⟨17#256,false,true⟩,⟨13#256,false,true⟩,⟨8#256,false,false⟩,
    ⟨9#256,false,false⟩,⟨5#256,false,false⟩,[]⟩

def loanVault (collateral debt : U64) : Vault :=
  ⟨2#256,collateral,debt,15000#64,1000#64,253#8,true⟩

def loanGlobal (collateral debt : U64) : GlobalState :=
  ⟨2#256,11#256,12#256,13#256,collateral,debt,15000#64,12000#64,200#64,255#8,true⟩

theorem loan_uncharged (collateral debt : U64) :
    accrueStabilityFee (loanVault collateral debt) (loanGlobal collateral debt) 1000#64=
      loanVault collateral debt :=
  accrue_stamped rfl

theorem sample_ready (hv : vaultAt sampleEnv b sampleVault=some (loanVault collateral debt))
    (hg : globalAt sampleEnv b=some (loanGlobal collateral debt))
    (hprice : (readOraclePrice (b 8#256).data).toOption=some 50000000#64)
    (hratio : (calculateCollateralRatio collateral debt 50000000#64).toNat<12000) :
    sampleLiquidation.Ready sampleEnv b ⟨2#64,1000#64⟩ (loanVault collateral debt)
      (loanGlobal collateral debt) 50000000#64 := by
  refine ⟨rfl,hv,rfl,hg,toOption_eq_some.mp hprice,?_,rfl,⟨rfl,rfl⟩,⟨rfl,rfl⟩,⟨rfl,rfl⟩,
    ⟨_,rfl,fun _ _ => ⟨_,rfl⟩⟩⟩
  dsimp only
  rw [loan_uncharged]
  exact hratio

theorem small_vault_liquidated : ∃ tr t b',
    Run ((program sampleEnv).Step (PassedGlobal sampleEnv)) genesis tr t ∧
      sampleLiquidation.Ready sampleEnv t.bank ⟨2#64,1000#64⟩ (loanVault 3000#64 2000#64)
        (loanGlobal 3000#64 2000#64) 50000000#64 ∧
      Liquidatable (loanVault 3000#64 2000#64) (loanGlobal 3000#64 2000#64) 50000000#64 ∧
      (program sampleEnv).execute (sampleLiquidation.call ⟨2#64,1000#64⟩) t.bank=.ok b' := by
  obtain ⟨⟨tr,t⟩,hhistory,hv,hg,hprice⟩ :
      ∃ x,(program sampleEnv).history (loanCalls 3000#64 2000#64) genesis=some x ∧
      vaultAt sampleEnv x.2.bank sampleVault=some (loanVault 3000#64 2000#64) ∧
      globalAt sampleEnv x.2.bank=some (loanGlobal 3000#64 2000#64) ∧
      (readOraclePrice (x.2.bank 8#256).data).toOption=some 50000000#64 := by decide +kernel
  have hrun : Run ((program sampleEnv).Step (PassedGlobal sampleEnv)) genesis tr t :=
    history_run_calls hhistory fun c hc b => passed_of_keys (by decide) hc b
  have hready := sample_ready hv hg hprice (by decide)
  have hl : Liquidatable (loanVault 3000#64 2000#64) (loanGlobal 3000#64 2000#64) 50000000#64 :=
    ⟨by decide,by decide,by decide,by decide,by decide⟩
  obtain ⟨b',hb'⟩ := (liquidation_succeeds_iff hready).1.mpr (by
    dsimp only
    rw [loan_uncharged]
    exact hl)
  exact ⟨tr,t,b',hrun,hready,hl,hb'⟩

/-- A vault that owes 200 billion units is below the ratio at half a dollar and cannot be
liquidated: the debt times the decimals of the price does not fit. -/
theorem large_vault_stuck :
    ∃ tr t,Run ((program sampleEnv).Step (PassedGlobal sampleEnv)) genesis tr t ∧
      sampleLiquidation.Ready sampleEnv t.bank ⟨2#64,1000#64⟩
        (loanVault 300000000000#64 200000000000#64) (loanGlobal 300000000000#64 200000000000#64)
        50000000#64 ∧
      (program sampleEnv).execute (sampleLiquidation.call ⟨2#64,1000#64⟩) t.bank=
        .error .arithmeticOverflow := by
  obtain ⟨⟨tr,t⟩,hhistory,hv,hg,hprice,hfails⟩ :
      ∃ x,(program sampleEnv).history (loanCalls 300000000000#64 200000000000#64) genesis=some x ∧
      vaultAt sampleEnv x.2.bank sampleVault=some (loanVault 300000000000#64 200000000000#64) ∧
      globalAt sampleEnv x.2.bank=some (loanGlobal 300000000000#64 200000000000#64) ∧
      (readOraclePrice (x.2.bank 8#256).data).toOption=some 50000000#64 ∧
      (program sampleEnv).execute (sampleLiquidation.call ⟨2#64,1000#64⟩) x.2.bank=
        .error .arithmeticOverflow := by decide +kernel
  have hrun : Run ((program sampleEnv).Step (PassedGlobal sampleEnv)) genesis tr t :=
    history_run_calls hhistory fun c hc b => passed_of_keys (by decide) hc b
  exact ⟨tr,t,hrun,sample_ready hv hg hprice (by decide),hfails⟩

end PrismChain.Scusd
