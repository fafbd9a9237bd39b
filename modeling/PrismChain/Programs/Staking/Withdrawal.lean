import PrismChain.Programs.Staking.Tally

namespace PrismChain.Staking

open FixedWidth Aggregate Option List BitVec Nat Program Invocation Bank

/-- Settling the position against the pool cannot get stuck: its debt is covered, and the
validator takes at most everything. -/
structure Settleable (s : StakeAccount) (p : StakingPool) : Prop where
  debt : s.stakedAmount=0#64 ∨
    s.rewardDebt.toNat≤ s.stakedAmount.toNat*p.accumulatedRewardPerToken.toNat
  commission : s.delegatedValidator=0#256 ∨ s.validatorCommissionBps.toNat≤10000

def owedRewards (s : StakeAccount) (p : StakingPool) : Nat :=
  let multiplied := (s.stakedAmount.toNat*p.accumulatedRewardPerToken.toNat-s.rewardDebt.toNat)/
    10^12*s.lockTier.rewardMultiplierBps.toNat/10000
  if s.delegatedValidator=0#256 then multiplied
  else multiplied-multiplied*s.validatorCommissionBps.toNat/10000

section Settlement

variable {s : StakeAccount}

theorem multiplier_le (t : LockTier) : t.rewardMultiplierBps.toNat≤50000 := by
  cases t <;> decide

theorem deductCommission_ok {multiplied : U128}
    (hc : s.delegatedValidator=0#256 ∨ s.validatorCommissionBps.toNat≤10000)
    (hfits : multiplied.toNat*10000<2^128) :
    ∃ after,deductCommission s multiplied=.ok after ∧ after.toNat=
      if s.delegatedValidator=0#256 then multiplied.toNat
      else multiplied.toNat-multiplied.toNat*s.validatorCommissionBps.toNat/10000 := by
  unfold deductCommission
  by_cases hv : s.delegatedValidator=0#256
  · rw [if_neg (fun h => h.1 hv),if_pos hv]
    exact ⟨_,rfl,rfl⟩
  rw [if_neg hv]
  by_cases hpos : 0< s.validatorCommissionBps.toNat
  · rw [if_pos ⟨hv,hpos⟩]
    have hle := hc.resolve_left hv
    have hproduct : multiplied.toNat*s.validatorCommissionBps.toNat≤ multiplied.toNat*10000 :=
      Nat.mul_le_mul_left _ hle
    obtain ⟨product,hmul⟩ : ∃ x : U128,
        x.toNat=multiplied.toNat*(s.validatorCommissionBps.setWidth 128).toNat := by
      apply exists_toNat
      rw [toNat_widen (by decide)]
      exact hproduct.trans_lt hfits
    have hcut : (product/bpsDenominator.setWidth 128).toNat=
        multiplied.toNat*s.validatorCommissionBps.toNat/10000 := by
      rw [toNat_udiv,hmul,toNat_widen (by decide)]
      rfl
    have hcutle : (product/bpsDenominator.setWidth 128).toNat≤ multiplied.toNat := by
      rw [hcut]
      exact Nat.div_le_of_le_mul (by omega)
    have hsub : checkedSub multiplied (product/bpsDenominator.setWidth 128)=
        some (multiplied-product/bpsDenominator.setWidth 128) := by
      unfold checkedSub
      rw [if_pos hcutle]
    refine ⟨multiplied-product/bpsDenominator.setWidth 128,?_,?_⟩
    · simp only [steps_ok]
      exact ⟨product,checkedMul_eq_some.mpr hmul,hsub⟩
    · rw [toNat_sub_of_le (le_def.mpr hcutle),hcut]
  · rw [if_neg (fun h => hpos h.2)]
    refine ⟨_,rfl,?_⟩
    have hzero : s.validatorCommissionBps.toNat=0 := by omega
    rw [hzero]
    simp

theorem Settleable.pending (hs : Settleable s p)
    (hfits : s.stakedAmount.toNat*p.accumulatedRewardPerToken.toNat<2^128) :
    ∃ x,calculatePendingRewards s p=.ok x ∧ x.toNat=owedRewards s p%2^64 := by
  unfold calculatePendingRewards
  by_cases hzero : s.stakedAmount=0#64
  · rw [if_pos hzero]
    refine ⟨_,rfl,?_⟩
    simp [owedRewards,hzero]
  · rw [if_neg hzero]
    have hdebt := hs.debt.resolve_left hzero
    obtain ⟨accumulated,ha⟩ : ∃ x : U128,
        x.toNat=(s.stakedAmount.setWidth 128).toNat*p.accumulatedRewardPerToken.toNat := by
      apply exists_toNat
      rw [toNat_widen (by decide)]
      exact hfits
    have ha' : accumulated.toNat=s.stakedAmount.toNat*p.accumulatedRewardPerToken.toNat := by
      rw [ha,toNat_widen (by decide)]
    obtain ⟨earned,he⟩ : ∃ x : U128,accumulated.toNat=x.toNat+s.rewardDebt.toNat := by
      refine ⟨accumulated-s.rewardDebt,?_⟩
      rw [toNat_sub_of_le (le_def.mpr (by rw [ha']; exact hdebt))]
      omega
    have hraw : (earned/rewardScale).toNat=(s.stakedAmount.toNat*
        p.accumulatedRewardPerToken.toNat-s.rewardDebt.toNat)/10^12 := by
      rw [toNat_udiv,← ha',he,Nat.add_sub_cancel]
      rfl
    -- the scale that is divided out leaves room for the multiplier
    have hroom : (earned/rewardScale).toNat*s.lockTier.rewardMultiplierBps.toNat<2^128 := by
      have hscale : (earned/rewardScale).toNat*10^12≤earned.toNat := by
        rw [toNat_udiv]
        exact div_mul_le_self _ _
      have hmul := Nat.mul_le_mul_left (earned/rewardScale).toNat (multiplier_le s.lockTier)
      have := earned.isLt
      omega
    obtain ⟨product,hp⟩ : ∃ x : U128,x.toNat=(earned/rewardScale).toNat*
        (s.lockTier.rewardMultiplierBps.setWidth 128).toNat := by
      apply exists_toNat
      rw [toNat_widen (by decide)]
      exact hroom
    have hmultiplied : (product/bpsDenominator.setWidth 128).toNat=product.toNat/10000 := by
      rw [toNat_udiv,toNat_widen (by decide)]
      rfl
    have hfits' : (product/bpsDenominator.setWidth 128).toNat*10000<2^128 := by
      rw [hmultiplied]
      exact (div_mul_le_self _ _).trans_lt product.isLt
    obtain ⟨after,hafter,hvalue⟩ := deductCommission_ok hs.commission hfits'
    refine ⟨after.setWidth 64,?_,?_⟩
    · simp only [steps_ok]
      exact ⟨accumulated,checkedMul_eq_some.mpr ha,earned,checkedSub_eq_some.mpr he,product,
        checkedMul_eq_some.mpr hp,after,hafter,rfl⟩
    · rw [toNat_setWidth,hvalue,hmultiplied,hp,toNat_widen (by decide),hraw]
      rfl

end Settlement

def uncovered (amount : U64) (s : StakeAccount) (p : StakingPool) : Nat :=
  min amount.toNat s.stakedAmount.toNat-p.insuranceBalance.toNat

/-- Instructions that keep every position in a state that can be settled. The handlers check
none of this but the pool's address, and that only when it is initialized. -/
structure Careful (e : Env) (b : Bank) (c : Call Instruction) : Prop where
  pool : PoolPassed e b c
  token : c.instruction.callsToken=true → ∀ sk∈c.key? 1,(b sk).owner=e.programId
  commission : ∀ {validator commissionBps},c.instruction=.delegate validator commissionBps →
    validator=0#256 ∨ commissionBps.toNat≤10000
  slash : ∀ {amount},c.instruction=.slash amount → ∀ sk∈c.key? 1,∀ s∈stakeAt e b sk,
    ∀ p∈poolAt e b,s.stakedAmount.toNat=uncovered amount s p ∨
      s.rewardDebt.toNat≤(s.stakedAmount.toNat-uncovered amount s
        p)*p.accumulatedRewardPerToken.toNat

/-- The pool counts every position, and each can be settled. -/
structure Sound (e : Env) (b : Bank) (p : StakingPool) : Prop where
  pool : poolAt e b=some p
  total : sumOver (fun s : StakeAccount => s.stakedAmount.toNat) (stakeAt e b)=p.totalStaked.toNat
  positions : ∀ {k s},stakeAt e b k=some s → Settleable s p

section Steps

variable {e : Env} {c : Call Instruction} {s : StakeAccount} {p' : StakingPool}

theorem rewardDebtFor_eq_ok {staked : U64} (h : rewardDebtFor staked p=.ok debt) :
    debt.toNat=staked.toNat*p.accumulatedRewardPerToken.toNat := by
  have hmul := checkedMul_eq_some.mp (okOr_eq_ok.mp h)
  rw [toNat_widen (by decide)] at hmul
  exact hmul

theorem Settleable.mono (hs : Settleable s p)
    (hle : p.accumulatedRewardPerToken.toNat≤p'.accumulatedRewardPerToken.toNat) :
    Settleable s p' :=
  ⟨hs.debt.imp_right fun h => h.trans (Nat.mul_le_mul_left _ hle),hs.commission⟩

theorem Effect.settleable (he : Effect now i s p s' p' out claimed) (hs : Settleable s p)
    (hslash : ∀ {amount},i=.slash amount → s.stakedAmount.toNat=uncovered amount s p ∨
      s.rewardDebt.toNat≤(s.stakedAmount.toNat-uncovered amount s p)*
        p.accumulatedRewardPerToken.toNat) : Settleable s' p' := by
  cases he with
  | topUp _ _ hdebt => exact ⟨.inr (rewardDebtFor_eq_ok hdebt).le,hs.commission⟩
  | unstake _ _ _ _ hdebt => exact ⟨.inr (rewardDebtFor_eq_ok hdebt).le,hs.commission⟩
  | compound _ _ _ _ _ _ _ _ hdebt => exact ⟨.inr (rewardDebtFor_eq_ok hdebt).le,hs.commission⟩
  | payout _ _ _ _ _ _ hdebt => exact ⟨.inr (rewardDebtFor_eq_ok hdebt).le,hs.commission⟩
  | @slash _ _ amount _ _ staked _ _ hactual _ hstaked =>
    refine ⟨?_,hs.commission⟩
    have h1 := checkedSub_eq_some.mp hactual
    have h2 := checkedSub_eq_some.mp hstaked
    simp only [toNat_umin] at h1
    have hleft : staked.toNat=s.stakedAmount.toNat-uncovered amount s p := by
      unfold uncovered
      omega
    obtain hall | hdebt := hslash rfl
    · left
      apply eq_of_toNat_eq
      rw [hleft,hall]
      simp
    · right
      rw [hleft]
      exact hdebt

theorem Sound.rewrite (hsound : Sound e b p) (hpool : poolAt e b'=some p')
    (hle : p.accumulatedRewardPerToken.toNat≤p'.accumulatedRewardPerToken.toNat)
    (hbook : BookChange e b b' sk s s')
    (htotal : p'.totalStaked.toNat+s.stakedAmount.toNat=p.totalStaked.toNat+s'.stakedAmount.toNat)
    (hset : stakeAt e b sk=some s → Settleable s' p') : Sound e b' p' := by
  have hbefore := hsound.total
  have hsum := hbook.stakeSum
  simp only [stakeSum] at hsum
  refine ⟨hpool,by omega,?_⟩
  intro k w hw
  cases hbook with
  | foreign hsame hbook =>
    subst hsame
    rw [hbook k] at hw
    exact (hsound.positions hw).mono hle
  | own hfound hafter hothers =>
    by_cases hk : k=sk
    · subst hk
      cases hafter.symm.trans hw
      exact hset hfound
    · rw [hothers k hk] at hw
      exact (hsound.positions hw).mono hle

theorem Sound.same_book (hsound : Sound e b p) (hpool : poolAt e b'=some p')
    (hle : p.accumulatedRewardPerToken.toNat≤p'.accumulatedRewardPerToken.toNat)
    (hbook : ∀ k,stakeAt e b' k=stakeAt e b k) (htotal : p'.totalStaked=p.totalStaked) :
    Sound e b' p' := by
  refine ⟨hpool,?_,?_⟩
  · rw [sumOver_congr hbook,hsound.total,htotal]
  · intro k w hw
    rw [hbook k] at hw
    exact (hsound.positions hw).mono hle

theorem Reposition.settleable (hr : Reposition i s s') (hs : Settleable s p)
    (hcommission : ∀ {validator commissionBps},i=.delegate validator commissionBps →
      validator=0#256 ∨ commissionBps.toNat≤10000) : Settleable s' p := by
  cases hr with
  | delegate => exact ⟨hs.debt,hcommission rfl⟩
  | toggle => exact ⟨hs.debt,hs.commission⟩
  | mintNothing => exact hs
  | mint => exact ⟨hs.debt,hs.commission⟩
  | burn => exact ⟨hs.debt,hs.commission⟩

theorem Sound.call (hsound : Sound e b p) (hok : Careful e b c)
    (hx : (program e).execute c b=.ok b') : ∃ p',Sound e b' p' := by
  cases execute_spec hx with
  | initialized hi =>
    have hp := hsound.pool
    rw [hi.pool.1] at hp
    cases hp
  | @opened staker _ amount w _ _ ho =>
    obtain ⟨rfl,hafter⟩ := ho.pool_change.passed hsound.pool (hok.pool _ ho.poolKey)
    have hsum := ho.stakeSum
    obtain ⟨-,hsome,hothers⟩ := ho.book
    obtain ⟨total,htotal,rfl⟩ := ho.total
    obtain ⟨_,_,_,_,-,hw⟩ := ho.instruction
    refine ⟨_,hafter,?_,?_⟩
    · have hadd := checkedAdd_eq_some.mp htotal
      have hbefore := hsound.total
      simp only [stakeSum] at hsum
      dsimp only
      omega
    · intro k v hv
      by_cases hk : k=stakePda e staker
      · subst hk
        cases hsome.symm.trans hv
        subst hw
        exact ⟨.inr (Nat.zero_le _),.inl rfl⟩
      · rw [hothers k hk] at hv
        exact (hsound.positions hv).mono le_rfl
  | updated hu =>
    obtain ⟨rfl,hafter⟩ := hu.pool_change.passed hsound.pool (hok.pool _ hu.poolKey)
    refine ⟨_,hsound.rewrite hafter (by rw [hu.effect.accumulator]) hu.book hu.effect.staked
      fun hfound => hu.effect.settleable (hsound.positions hfound) ?_⟩
    intro amount hi
    have hkey := hu.stakeKey
    rw [hi] at hkey
    exact hok.slash hi _ hkey _ hfound _ hsound.pool
  | repositioned hr =>
    refine ⟨p,hsound.rewrite (hr.pool.1.trans hsound.pool) le_rfl (hr.book (hr.owned hok.token))
      (by rw [hr.change.staked]) fun hfound =>
        hr.change.settleable (hsound.positions hfound) hok.commission⟩
  | cranked hc =>
    obtain ⟨rfl,hafter⟩ := hc.pool_change.passed hsound.pool (hok.pool _ hc.poolKey)
    have hcrank := hc.crank
    refine ⟨_,hsound.same_book hafter ?_ hc.book hcrank.staked⟩
    cases hcrank with
    | empty => exact le_rfl
    | early => exact le_rfl
    | emit _ _ _ haccumulated => exact (accumulate_le haccumulated).1

theorem Sound.step {s : Ledger} (hsound : Sound e s.bank p)
    (hstep : (program e).Settling (Careful e) (Stocked e) s a t) : ∃ p',Sound e t.bank p' := by
  cases hstep with
  | settle hkept =>
    obtain ⟨hpool,hbook⟩ := hkept.settle
    exact ⟨p,hsound.same_book (hpool.trans hsound.pool) le_rfl hbook rfl⟩
  | step hstep =>
    cases hstep with
    | call _ hok hx => exact hsound.call hok hx
    | outside _ hout =>
      exact ⟨p,hsound.same_book ((outside_pool hout).1.trans hsound.pool) le_rfl
        (fun k => hout.records stake_marked k) rfl⟩

theorem Sound.start (h0 : Untouched e.programId b) (hc : c.instruction=.initializePool r)
    (hx : (program e).execute c b=.ok b') : ∃ p',Sound e b' p' := by
  obtain ⟨p',ht,hnone⟩ := Tallied.start h0 hc hx
  refine ⟨p',ht.pool,ht.total,?_⟩
  intro k s hs
  rw [hnone k] at hs
  cases hs

theorem Sound.run {s : Ledger} (hsound : Sound e s.bank p)
    (hrun : Run ((program e).Settling (Careful e) (Stocked e)) s tr t) :
    ∃ p',Sound e t.bank p' :=
  hrun.invariant (I := fun t => ∃ p',Sound e t.bank p') ⟨p,hsound⟩
    (fun ⟨_,hs⟩ hstep => hs.step hstep)

end Steps

section Success

variable {e : Env} {pool : Pubkey} {amount : U64}

theorem payFrom_moved (f : Frame) (hle : amount.toNat≤(f.view pool).lamports.toNat)
    (hsupply : lamportsIn f.view [staker,pool]<2^64) :
    Moved f.view (payFrom pool staker amount f).view pool staker amount.toNat := by
  refine moved_of_debit_credit hle ?_
  unfold checkedAdd
  refine if_pos ?_
  rw [setLamports_lamports]
  by_cases heq : staker=pool
  · rw [if_pos heq,toNat_sub_of_le (le_def.mpr hle)]
    have := (f.view pool).lamports.isLt
    omega
  · rw [if_neg heq]
    have hsum : lamportsIn f.view [staker,pool]=
        (f.view staker).lamports.toNat+(f.view pool).lamports.toNat := by
      simp [lamportsIn,dedup_cons_of_notMem,heq]
    omega

theorem sync_paid {accounts : List AccountInfo}
    (hstaker : (⟨e.programId,accounts⟩ : Invocation).writable staker)
    (hstake : (⟨e.programId,accounts⟩ : Invocation).writable sk)
    (hpool : (⟨e.programId,accounts⟩ : Invocation).writable pool)
    (hstakerMem : staker∈accounts.map AccountInfo.key)
    (hpoolMem : pool∈accounts.map AccountInfo.key) (hstakeOwned : (b sk).owner=e.programId)
    (hpoolOwned : (b pool).owner=e.programId) (hmoved : Moved b view pool staker amount.toNat)
    (hothers : ∀ k,k≠sk → k≠pool → (view k).data=(b k).data) :
    Synced e.programId accounts ⟨b,view⟩ := by
  refine sync_eq_ok.mpr ⟨fun k _ => checkAccount_eq_ok.mpr ?_,
    (lamportsIn_moved hmoved hpoolMem hstakerMem).symm⟩
  have hm := hmoved k
  have hdata : (b k).data=(view k).data ∨ k=sk ∨ k=pool := by
    by_cases hs : k=sk
    · exact .inr (.inl hs)
    · by_cases hp : k=pool
      · exact .inr (.inr hp)
      · exact .inl (hothers k hs hp).symm
  refine ⟨?_,?_,?_,?_⟩
  · by_cases hp : k=pool
    · subst hp
      exact .inl hpoolOwned
    · right
      rw [if_neg hp] at hm
      dsimp only
      omega
  · by_cases hp : k=pool
    · subst hp
      exact .inr hpool
    by_cases hs : k=staker
    · subst hs
      exact .inr hstaker
    · left
      rw [if_neg hp,if_neg hs] at hm
      exact (eq_of_toNat_eq hm).symm
  · obtain hsame | rfl | rfl := hdata
    · exact .inl hsame
    · exact .inr hstake
    · exact .inr hpool
  · obtain hsame | rfl | rfl := hdata
    · exact .inl hsame
    · exact .inr hstakeOwned
    · exact .inr hpoolOwned

end Success

def unstakeView (b : Bank) (sk pk staker : Pubkey) (amount : U64) (s : StakeAccount)
    (p : StakingPool) : Bank :=
  (payFrom pk staker amount ⟨b,b.setData sk (stakeCodec.encode s)⟩).view.setData pk
    (poolCodec.encode p)

section Unstake

variable {e : Env} {s : StakeAccount} {p : StakingPool}
    {amount pending staked total : U64} {debt : U128}

theorem unstakeView_saved (hne : sk≠pk) :
    Saved b (unstakeView b sk pk staker amount s' p') sk pk s' p' :=
  saved hne (SameState.refl b) (payFrom_same _ pk staker amount)

theorem unstakeView_moved (hle : amount.toNat≤(b pk).lamports.toNat)
    (hroom : lamportsIn b [staker,pk]<2^64) :
    Moved b (unstakeView b sk pk staker amount s' p') pk staker amount.toNat := by
  let f : Frame := ⟨b,b.setData sk (stakeCodec.encode s')⟩
  have henough : amount.toNat≤(f.view pk).lamports.toNat := by
    simpa only [f,setData_lamports] using hle
  have hfits : lamportsIn f.view [staker,pk]<2^64 := by
    simpa only [f,lamportsIn,setData_lamports] using hroom
  intro k
  have hk := payFrom_moved f henough hfits k
  simp only [f,setData_lamports] at hk
  simp only [unstakeView,setData_lamports]
  exact hk

theorem settle_ok (hx : calculatePendingRewards s p=.ok x)
    (hroom : s.pendingRewards.toNat+x.toNat<2^64) : ∃ pending,settle s p=.ok pending := by
  refine ⟨s.pendingRewards+x,?_⟩
  simp only [settle,steps_ok]
  exact ⟨x,hx,if_pos hroom⟩

theorem Sound.unstake_amounts (hsound : Sound e b p) (hs : stakeAt e b sk=some s)
    (hfits : s.stakedAmount.toNat*p.accumulatedRewardPerToken.toNat<2^128)
    (hle : amount.toNat≤ s.stakedAmount.toNat) :
    ∃ staked debt total,checkedSub s.stakedAmount amount=some staked ∧
      rewardDebtFor staked p=.ok debt ∧ checkedSub p.totalStaked amount=some total := by
  have hstaked : checkedSub s.stakedAmount amount=some (s.stakedAmount-amount) := if_pos hle
  have hleft := checkedSub_eq_some.mp hstaked
  refine ⟨_,_,_,hstaked,okOr_eq_ok.mpr (if_pos ?_),if_pos ?_⟩
  · rw [toNat_widen (by decide)]
    exact (Nat.mul_le_mul_right _ (by omega)).trans_lt hfits
  · rw [← hsound.total]
    exact hle.trans (le_sumOver (g := fun s : StakeAccount => s.stakedAmount.toNat) hs)

theorem processUnstake_ok {clock : Clock} {staker stake pool clk : AccountInfo}
    (system : AccountInfo)
    (rest : List AccountInfo) (hsigner : staker.isSigner=true) (hclk : clk.key=e.clockSysvar)
    (hstakeKey : stake.key=sk) (hpoolKey : pool.key=pk) (hne : sk≠pk)
    (hsdata : (b sk).data=stakeCodec.encode s) (hlive : s.isInitialized=true)
    (howner : s.owner=staker.key)
    (hpdata : (b pk).data=poolCodec.encode p)
    (hunlocked : ¬(0< s.unlockTimestamp.toInt ∧ clock.unixTimestamp.toInt< s.unlockTimestamp.toInt))
    (hle : amount.toNat≤ s.stakedAmount.toNat) (hsettle : settle s p=.ok pending)
    (hstaked : checkedSub s.stakedAmount amount=some staked)
    (hdebt : rewardDebtFor staked p=.ok debt)
    (htotal : checkedSub p.totalStaked amount=some total) :
    processUnstake e clock (staker::stake::pool::clk::system::rest) amount ⟨b,b⟩=
      .ok ⟨b,unstakeView b sk pk staker.key amount
        {s with pendingRewards := pending, stakedAmount := staked, rewardDebt := debt}
        {p with totalStaked := total}⟩ := by
  unfold processUnstake
  simp only [steps_ok,loadPool_eq_ok,loadOwnStake_eq_ok]
  rw [hstakeKey,hpoolKey]
  refine ⟨(),hsigner,(),hclk,s,⟨hsdata,hlive,howner⟩,(),hunlocked,(),hle,p,hpdata,pending,
    hsettle,staked,hstaked,debt,hdebt,⟨b,b.setData sk (stakeCodec.encode
      {s with pendingRewards := pending, stakedAmount := staked, rewardDebt := debt})⟩,?_,
    total,htotal,?_⟩
  · exact (Frame.store_eq_ok stake_size (stake_length hsdata (SameState.refl b))).mpr rfl
  · exact (Frame.store_eq_ok pool_size (pool_length hpdata hne (SameState.refl b)
      (payFrom_same _ pk staker.key amount))).mpr rfl

theorem unstakeView_sync {staker stake pool : AccountInfo}
    (hstakerWritable : staker.isWritable=true)
    (hstakeKey : stake.key=sk) (hstakeWritable : stake.isWritable=true) (hpoolKey : pool.key=pk)
    (hpoolWritable : pool.isWritable=true) (hstakeOwned : (b sk).owner=e.programId)
    (hpoolOwned : (b pk).owner=e.programId) (hne : sk≠pk) (hle : amount.toNat≤(b pk).lamports.toNat)
    (hroom : lamportsIn b [staker.key,pk]<2^64) : sync ⟨e.programId,staker::stake::pool::rest⟩
      ((staker::stake::pool::rest).map AccountInfo.key)
      ⟨b,unstakeView b sk pk staker.key amount s' p'⟩=.ok () := by
  have hwritable {a : AccountInfo} (ha : a∈staker::stake::pool::rest) (hw : a.isWritable=true) :
      (⟨e.programId,staker::stake::pool::rest⟩ : Invocation).writable a.key := by
    refine any_eq_true.mpr ⟨a,ha,?_⟩
    simp [hw]
  have hstakerMem : staker∈staker::stake::pool::rest := by simp
  have hstakeMem : stake∈staker::stake::pool::rest := by simp
  have hpoolMem : pool∈staker::stake::pool::rest := by simp
  subst hstakeKey hpoolKey
  exact sync_paid (hwritable hstakerMem hstakerWritable) (hwritable hstakeMem hstakeWritable)
    (hwritable hpoolMem hpoolWritable) (mem_map_of_mem hstakerMem)
    (mem_map_of_mem hpoolMem) hstakeOwned hpoolOwned (unstakeView_moved hle hroom)
    (unstakeView_saved hne).others

end Unstake

/-- After any run of careful instructions that never empties the pool, settlement never gets stuck,
and the owner of an unlocked position can take out any part of it that the pool can pay. -/
theorem unlocked_stake_withdrawable {e : Env} {s₀ t : Ledger} {c₀ : Call Instruction} {b₀ : Bank}
    {r : U64} {tr : Trace Instruction} (h0 : Untouched e.programId s₀.bank)
    (hc₀ : c₀.instruction=.initializePool r) (hx₀ : (program e).execute c₀ s₀.bank=.ok b₀)
    (hrun : Run ((program e).Settling (Careful e) (Stocked e)) ⟨b₀,c₀.clock⟩ tr t) {sk : Pubkey}
    {s : StakeAccount} (hs : stakeAt e t.bank sk=some s) :
    ∃ p,poolAt e t.bank=some p ∧ (s.stakedAmount.toNat*p.accumulatedRewardPerToken.toNat<2^128 →
        (∃ x,calculatePendingRewards s p=.ok x) ∧
        ∀ (clock : Clock) (amount : U64) (staker stake pool clk system : AccountInfo)
          (rest : List AccountInfo),
          s.unlockTimestamp=0#64 ∨ s.unlockTimestamp.toInt≤clock.unixTimestamp.toInt →
          amount.toNat≤ s.stakedAmount.toNat →
          (e.minimumBalance poolLen).toNat+amount.toNat≤(t.bank (poolPda e)).lamports.toNat →
          s.pendingRewards.toNat+owedRewards s p<2^64 →
          lamportsIn t.bank [staker.key,poolPda e]<2^64 →
          staker.key=s.owner → staker.isSigner=true → staker.isWritable=true →
          stake.key=sk → stake.isWritable=true →
          pool.key=poolPda e → pool.isWritable=true → clk.key=e.clockSysvar →
          ∃ b',(program e).execute ⟨clock,staker::stake::pool::clk::system::rest,.unstake amount⟩
            t.bank=.ok b') := by
  obtain ⟨_,hstart⟩ := Sound.start h0 hc₀ hx₀
  obtain ⟨p,hsound⟩ := Sound.run (s := ⟨b₀,c₀.clock⟩) hstart hrun
  obtain ⟨hstakeOwned,hsdata,hlive⟩ := stakeAt_eq_some.mp hs
  obtain ⟨hpoolOwned,hpdata,-⟩ := poolAt_eq_some.mp hsound.pool
  refine ⟨p,hsound.pool,fun hfits => ?_⟩
  obtain ⟨x,hx,hvalue⟩ := (hsound.positions hs).pending hfits
  refine ⟨⟨x,hx⟩,?_⟩
  intro clock amount staker stake pool clk system rest hlock hle hfunds hpending hsupply howner
    hsigner hstakerW hstakeKey hstakeW hpoolKey hpoolW hclk
  have hne : sk≠poolPda e := keys_ne hsdata hpdata
  have hroom : s.pendingRewards.toNat+x.toNat<2^64 := by
    rw [hvalue]
    exact (Nat.add_le_add_left (mod_le _ _) _).trans_lt hpending
  have hunlocked :
      ¬(0< s.unlockTimestamp.toInt ∧ clock.unixTimestamp.toInt< s.unlockTimestamp.toInt) := by
    intro hlocked
    obtain hzero | _ := hlock
    · rw [hzero] at hlocked
      cases hlocked.1
    · omega
  -- every checked operation of the handler returns, and so do the checks of the runtime
  obtain ⟨pending,hsettle⟩ := settle_ok hx hroom
  obtain ⟨_,_,_,hstaked,hdebt,htotal⟩ := hsound.unstake_amounts hs hfits hle
  have henough : amount.toNat≤(t.bank (poolPda e)).lamports.toNat := by omega
  exact ⟨_,execute_eq_ok.mpr ⟨_,
    processUnstake_ok system rest hsigner hclk hstakeKey hpoolKey hne hsdata hlive
      howner.symm hpdata
      hunlocked hle hsettle hstaked hdebt htotal,
    unstakeView_sync hstakerW hstakeKey hstakeW hpoolKey hpoolW hstakeOwned hpoolOwned hne henough
      hsupply,rfl⟩⟩

def unstakeCall (amount : U64) : Call Instruction where
  clock := ⟨63072003#64,1000#64⟩
  accounts := [⟨2#256,true,true⟩,⟨sampleStake,false,true⟩,⟨samplePool,false,true⟩,
    ⟨4#256,false,false⟩,systemInfo]
  instruction := .unstake amount

theorem yearCalls_careful (hc : c∈yearCalls) : Careful sampleEnv b c := by
  have hown := yearCalls_own (b := b) hc
  simp only [yearCalls,mem_cons,not_mem_nil,or_false] at hc
  obtain rfl | rfl | rfl := hc <;>
  exact ⟨hown.pool,hown.token,(fun h => by cases h),fun h => by cases h⟩

def withdrawalTerms (amount : U64) (x : Trace Instruction×Ledger) : Option (Bool×Bool×U64) :=
  (stakeAt sampleEnv x.2.bank sampleStake).bind fun s =>
    (poolAt sampleEnv x.2.bank).map fun p =>
      (decide (s.owner=2#256 ∧ s.unlockTimestamp=0#64 ∧ amount.toNat≤ s.stakedAmount.toNat ∧
        s.pendingRewards.toNat+owedRewards s p<2^64 ∧
        s.stakedAmount.toNat*p.accumulatedRewardPerToken.toNat<2^128),
      decide ((sampleEnv.minimumBalance poolLen).toNat+amount.toNat≤
          (x.2.bank (poolPda sampleEnv)).lamports.toNat ∧
        Invocation.lamportsIn x.2.bank [2#256,poolPda sampleEnv]<2^64),
      s.stakedAmount)

theorem stake_withdrawn_after_year : ∃ tr t s b',
    Run ((program sampleEnv).Settling (Careful sampleEnv) (Stocked sampleEnv))
        ⟨initBank,(initCall 2#64).clock⟩ tr t ∧
      stakeAt sampleEnv t.bank sampleStake=some s ∧ s.stakedAmount=1000000000#64 ∧
      (program sampleEnv).execute (unstakeCall 1000000000#64) t.bank=.ok b' := by
  obtain ⟨⟨tr,t⟩,hhistory,hterms⟩ : ∃ x,
      (program sampleEnv).history yearCalls ⟨initBank.settle,(initCall 2#64).clock⟩=some x ∧
      withdrawalTerms 1000000000#64 x=some (true,true,1000000000#64) := by decide +kernel
  obtain ⟨s,hs,hpool⟩ := bind_eq_some_iff.mp hterms
  obtain ⟨p,hp,hvalues⟩ := map_eq_some_iff.mp hpool
  simp only [Prod.mk.injEq,decide_eq_true_eq] at hvalues
  obtain ⟨⟨howner,hunlock,hle,hpending,hfits⟩,⟨hrent,hsupply⟩,hstaked⟩ := hvalues
  have hrun : Run ((program sampleEnv).Settling (Careful sampleEnv) (Stocked sampleEnv))
      ⟨initBank,(initCall 2#64).clock⟩ _ t :=
    settling_after initBank_stocked
      (history_run_calls hhistory fun c hc b => yearCalls_careful hc)
  obtain ⟨q,hq,hall⟩ :=
    unlocked_stake_withdrawable genesis_untouched rfl init_executes hrun hs
  cases hp.symm.trans hq
  obtain ⟨b',hb'⟩ := (hall hfits).2 ⟨63072003#64,1000#64⟩ 1000000000#64 ⟨2#256,true,true⟩
    ⟨sampleStake,false,true⟩ ⟨samplePool,false,true⟩ ⟨4#256,false,false⟩
    systemInfo [] (.inl hunlock) hle hrent hpending hsupply howner.symm rfl rfl
    rfl rfl (by decide +kernel) rfl rfl
  exact ⟨_,t,s,b',hrun,hs,hstaked,hb'⟩

def slashCall : Call Instruction where
  clock := ⟨63072003#64,1000#64⟩
  accounts := [⟨2#256,true,true⟩,⟨sampleStake,false,true⟩,⟨samplePool,false,true⟩]
  instruction := .slash 500000000#64

def slashCalls : List (Call Instruction) := claimCalls++[slashCall]

/-- The debt is still that of the whole stake, and not a single lamport can be withdrawn. -/
theorem slashed_stake_stuck : ∃ tr t s p,Untouched sampleEnv.programId genesis.bank ∧
      Run ((program sampleEnv).Step (PoolPassed sampleEnv)) genesis tr t ∧
      stakeAt sampleEnv t.bank sampleStake=some s ∧ poolAt sampleEnv t.bank=some p ∧
      s.owner=2#256 ∧ s.unlockTimestamp=0#64 ∧ s.stakedAmount=501600000#64 ∧
      (sampleEnv.minimumBalance poolLen).toNat+1≤(t.bank
        (poolPda sampleEnv)).lamports.toNat ∧
      s.pendingRewards.toNat+owedRewards s p<2^64 ∧
      calculatePendingRewards s p=.error (err .overflow) ∧
      (program sampleEnv).execute (unstakeCall 1#64) t.bank=.error (err .overflow) := by
  simp only [exists_and_left]
  exact ⟨genesis_untouched,
    exists_run slashCalls (passed_of_keys (by decide +kernel)) (by decide +kernel)⟩

end PrismChain.Staking
