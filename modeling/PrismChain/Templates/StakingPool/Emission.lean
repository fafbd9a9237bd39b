import PrismChain.Math.Shares
import PrismChain.Templates.StakingPool.Program

namespace PrismChain.StakingTemplate

open FixedWidth Aggregate Option Function BitVec Nat

def unsettled (accumulated : Nat) (s : StakeAccount) : Nat :=
  s.stakedAmount.toNat*accumulated-s.rewardDebt.toNat

def staked (s : StakeAccount) : Nat := s.stakedAmount.toNat
def pending (s : StakeAccount) : Nat := s.pendingRewards.toNat
def counted (s : StakeAccount) : Nat := if 0< s.stakedAmount.toNat then 1 else 0

def mintedBy : List TokenCall → Nat
  | [] => 0
  | .mintTo _ _ _ amount::calls => amount.toNat+mintedBy calls
  | .transfer _ _ _ _::calls => mintedBy calls

def rewardsMinted (x : Transition World Event) : Nat := mintedBy x.label.calls

def emission (x : Transition World Event) : Nat :=
  match x.label.instruction with
  | .distributeRewards ctx => (x.pre.accounts.poolAt ctx.pool).elim 0 fun p =>
      (x.label.clock.unixTimestamp.toInt-p.lastRewardTimestamp.toInt).toNat*p.rewardRate.toNat
  | _ => 0

section Tables

variable {a : Accounts} {p' : StakingPool}

theorem poolAt_eq_some : a.poolAt k=some p ↔ a k=some (.pool p) := by
  unfold Accounts.poolAt
  split <;> simp_all

theorem stakeAt_eq_some : a.stakeAt k=some s ↔ a k=some (.stake s) := by
  unfold Accounts.stakeAt
  split <;> simp_all

theorem stakeAt_of_pool (p' : StakingPool) (hp : a.poolAt pk=some p) (j : Pubkey) :
    Accounts.stakeAt (update a pk (some (.pool p'))) j=a.stakeAt j := by
  unfold Accounts.stakeAt
  by_cases hj : j=pk
  · subst hj
    rw [update_self,poolAt_eq_some.mp hp]
  · rw [update_of_ne hj]

theorem save_pool (hne : sk≠pk) : (a.save pk p' sk s).poolAt pk=some p' := by
  rw [poolAt_eq_some]
  unfold Accounts.save
  rw [update_of_ne hne.symm,update_self]

theorem save_stake : (a.save pk p' sk s).stakeAt sk=some s := by
  rw [stakeAt_eq_some]
  exact update_self ..

theorem save_others (hp : a.poolAt pk=some p) (hj : j≠sk) :
    (a.save pk p' sk s).stakeAt j=a.stakeAt j := by
  rw [← stakeAt_of_pool p' hp j]
  unfold Accounts.save Accounts.stakeAt
  rw [update_of_ne hj]

end Tables

structure Settled (p p' : StakingPool) (s s' : StakeAccount) (minted : Nat) : Prop where
  accumulated : p'.accumulatedRewardPerShare=p.accumulatedRewardPerShare
  stamp : p'.lastRewardTimestamp=p.lastRewardTimestamp
  total : p'.totalStaked.toNat+staked s=p.totalStaked.toNat+staked s'
  stakers : p'.totalStakers.toNat+counted s=p.totalStakers.toNat+counted s'
  debt : s'.rewardDebt.toNat=s'.stakedAmount.toNat*p.accumulatedRewardPerShare.toNat
  rewards : 10^9*(minted+pending s')≤10^9*pending s+unsettled p.accumulatedRewardPerShare.toNat s

section Handlers

variable {a a' : Accounts} {p p' : StakingPool} {s' : StakeAccount}

theorem calculatePendingRewards_eq_ok {staked x : U64} :
    calculatePendingRewards staked accumulated debt=.ok x ↔
      staked.toNat*accumulated.toNat<2^64 ∧ debt.toNat≤ staked.toNat*accumulated.toNat ∧
        x.toNat=(staked.toNat*accumulated.toNat-debt.toNat)/10^9 := by
  have hprecision : precision.toNat=10^9 := by decide
  simp only [calculatePendingRewards,steps_ok,checkedMul_eq_some,checkedSub_eq_some,
    checkedDiv_eq_some,hprecision]
  constructor
  · rintro ⟨total,_,_,_,-,hx⟩
    have hlt := total.isLt
    refine ⟨by omega,by omega,?_⟩
    rw [hx]
    congr 1
    omega
  · rintro ⟨hlt,_,hx⟩
    refine ⟨BitVec.ofNat 64 (staked.toNat*accumulated.toNat),?_,
      BitVec.ofNat 64 (staked.toNat*accumulated.toNat-debt.toNat),?_,by decide,?_⟩
    · rw [toNat_ofNat,mod_eq_of_lt hlt]
    · rw [toNat_ofNat,toNat_ofNat,mod_eq_of_lt hlt,mod_eq_of_lt (by omega)]
      omega
    · rw [toNat_ofNat,mod_eq_of_lt (by omega)]
      exact hx

theorem joinOrSettle_spec (hj : joinOrSettle ctx now bump s p=.ok (s',p')) :
    s'.stakedAmount=s.stakedAmount ∧ p'.totalStaked=p.totalStaked ∧
      p'.accumulatedRewardPerShare=p.accumulatedRewardPerShare ∧
      p'.lastRewardTimestamp=p.lastRewardTimestamp ∧
      p'.totalStakers.toNat+counted s=p.totalStakers.toNat+1 ∧
      10^9*pending s'≤10^9*pending s+unsettled p.accumulatedRewardPerShare.toNat s := by
  unfold joinOrSettle at hj
  split at hj
  case isTrue hzero =>
    simp only [steps_ok,Prod.mk.injEq] at hj
    obtain ⟨_,hstakers,rfl,rfl⟩ := hj
    have hadd := checkedAdd_eq_some.mp hstakers
    have hcount : counted s=0 := by
      unfold counted
      rw [hzero]
      rfl
    refine ⟨rfl,rfl,rfl,rfl,?_,Nat.le_add_right _ _⟩
    rw [hcount]
    exact hadd
  case isFalse hpos =>
    simp only [steps_ok,Prod.mk.injEq] at hj
    obtain ⟨x,hx,_,hrewards,rfl,rfl⟩ := hj
    obtain ⟨-,-,hvalue⟩ := calculatePendingRewards_eq_ok.mp hx
    have hadd := checkedAdd_eq_some.mp hrewards
    have hcount : counted s=1 := by
      refine if_pos (Nat.pos_of_ne_zero fun hz => hpos (eq_of_toNat_eq hz))
    refine ⟨rfl,rfl,rfl,rfl,by rw [hcount],?_⟩
    unfold pending unsettled
    have hfloor := mul_div_le
      (s.stakedAmount.toNat*p.accumulatedRewardPerShare.toNat-s.rewardDebt.toNat) (10^9)
    rw [← hvalue] at hfloor
    dsimp only
    omega

theorem initIfNeeded_spec (hi : initIfNeeded a k=.ok s) :
    s=(a.stakeAt k).getD .blank ∧ a.poolAt k=none := by
  unfold initIfNeeded at hi
  unfold Accounts.stakeAt Accounts.poolAt
  split at hi
  case h_1 hnone =>
    rw [hnone]
    exact ⟨(Except.ok.inj hi).symm,rfl⟩
  case h_2 hsome =>
    rw [hsome]
    exact ⟨(Except.ok.inj hi).symm,rfl⟩
  case h_3 => cases hi

structure Saved (a a' : Accounts) (pk sk : Pubkey) (p p' : StakingPool) (s' : StakeAccount)
    (minted : Nat) : Prop where
  pool : a.poolAt pk=some p
  apart : sk≠pk
  written : a'=a.save pk p' sk s'
  settled : Settled p p' ((a.stakeAt sk).getD .blank) s' minted

theorem stake_spec (hx : stake h clock ctx amount a=.ok (a',calls)) :
    mintedBy calls=0 ∧ ∃ p p' s',Saved a a' ctx.pool ctx.stakeAccount p p' s' 0 := by
  simp only [stake,steps_ok,Prod.mk.injEq] at hx
  obtain ⟨p,hp,_,-,_,-,_,-,s,hs,_,-,_,_,_,-,⟨s1,_⟩,hjoin,amount',hamount,_,htotal,debt,hdebt,
    rfl,rfl⟩ := hx
  obtain ⟨rfl,hnone⟩ := initIfNeeded_spec hs
  obtain ⟨hstaked,htotal1,hacc,hstamp,hstakers,hrewards⟩ := joinOrSettle_spec hjoin
  have h1 := checkedAdd_eq_some.mp hamount
  have h2 := checkedAdd_eq_some.mp htotal
  have h3 := checkedMul_eq_some.mp hdebt
  rw [hstaked] at h1
  rw [htotal1] at h2
  refine ⟨rfl,p,_,_,hp,?_,rfl,hacc,hstamp,?_,?_,?_,?_⟩
  · intro he
    rw [he,hp] at hnone
    cases hnone
  · unfold staked
    dsimp only
    omega
  · have hcount : counted {s1 with
        stakedAmount := amount'
        lastStakeTimestamp := clock.unixTimestamp
        rewardDebt := debt}=1 := if_pos (by dsimp only; omega)
    rw [hcount]
    exact hstakers
  · rw [← hacc]
    exact h3
  · rw [Nat.zero_add]
    exact hrewards

theorem leave_spec (hl : leave left p=.ok p') :
    p'.totalStaked=p.totalStaked ∧ p'.accumulatedRewardPerShare=p.accumulatedRewardPerShare ∧
      p'.lastRewardTimestamp=p.lastRewardTimestamp ∧
      p'.totalStakers.toNat+1=p.totalStakers.toNat+(if 0<left.toNat then 1 else 0) := by
  unfold leave at hl
  split at hl
  case isTrue hzero =>
    simp only [steps_ok] at hl
    obtain ⟨_,hstakers,rfl⟩ := hl
    have hsub := checkedSub_eq_some.mp hstakers
    refine ⟨rfl,rfl,rfl,?_⟩
    rw [hzero]
    exact hsub.symm
  case isFalse hpos =>
    cases hl
    exact ⟨rfl,rfl,rfl,by rw [if_pos (Nat.pos_of_ne_zero fun hz => hpos (eq_of_toNat_eq hz))]⟩

theorem mintRewards_minted : mintedBy (mintRewards ctx rewards)=rewards.toNat := by
  unfold mintRewards
  split
  case isTrue => rfl
  case isFalse hzero => exact (Nat.eq_zero_of_not_pos hzero).symm

theorem unstake_spec (hx : unstake h clock ctx amount a=.ok (a',calls)) :
    ∃ p p' s',Saved a a' ctx.pool ctx.stakeAccount p p' s' (mintedBy calls) := by
  simp only [unstake,steps_ok,Prod.mk.injEq] at hx
  obtain ⟨p,hp,_,-,s,hs,_,-,_,-,_,-,_,-,_,_,_,_,_,-,_,-,x,hx,rewards,hrewards,_,hleft,_,
    htotal,p1,hp1,debt,hdebt,rfl,rfl⟩ := hx
  obtain ⟨-,-,hvalue⟩ := calculatePendingRewards_eq_ok.mp hx
  obtain ⟨htotal1,hacc,hstamp,hstakers⟩ := leave_spec hp1
  have h1 := checkedAdd_eq_some.mp hrewards
  have h2 := checkedSub_eq_some.mp hleft
  have h3 := checkedSub_eq_some.mp htotal
  have h4 := checkedMul_eq_some.mp hdebt
  have hentry : (a.stakeAt ctx.stakeAccount).getD .blank=s := by rw [hs]; rfl
  refine ⟨p,_,_,hp,?_,rfl,?_⟩
  · intro he
    rw [stakeAt_eq_some,he,poolAt_eq_some.mp hp] at hs
    cases hs
  · rw [hentry]
    refine ⟨hacc,hstamp,?_,?_,?_,?_⟩
    · unfold staked
      rw [htotal1]
      dsimp only
      omega
    · have hcount : counted s=1 := if_pos (by omega)
      rw [hcount]
      exact hstakers
    · rw [h4,hacc]
    · have hfloor := mul_div_le
        (s.stakedAmount.toNat*p.accumulatedRewardPerShare.toNat-s.rewardDebt.toNat) (10^9)
      rw [← hvalue] at hfloor
      change 10^9*(mintedBy (mintRewards ctx rewards)+0)≤_
      rw [mintRewards_minted]
      unfold pending unsettled
      omega

theorem distribute_spec (hd : distribute p now elapsed=.ok p') :
    p'.totalStaked=p.totalStaked ∧ p'.totalStakers=p.totalStakers ∧
      (p'.lastRewardTimestamp=now ∨ p'.lastRewardTimestamp=p.lastRewardTimestamp) ∧
      ∃ increase,p'.accumulatedRewardPerShare.toNat=p.accumulatedRewardPerShare.toNat+increase ∧
        p.totalStaked.toNat*increase≤10^9*(elapsed.toNat*p.rewardRate.toNat) := by
  unfold distribute at hd
  split at hd
  case isTrue =>
    cases hd
    exact ⟨rfl,rfl,.inr rfl,0,rfl,Nat.zero_le _⟩
  case isFalse =>
    simp only [steps_ok,checkedMul_eq_some,checkedDiv_eq_some,checkedAdd_eq_some] at hd
    obtain ⟨_,hreward,_,hscaled,increase,⟨-,hincrease⟩,_,haccumulated,rfl⟩ := hd
    refine ⟨rfl,rfl,.inl rfl,increase.toNat,haccumulated,?_⟩
    have hprecision : precision.toNat=10^9 := by decide
    rw [hincrease,hscaled,hreward,hprecision,Nat.mul_comm (10^9)]
    exact mul_div_le _ _

end Handlers

/-- Rewards minted, pending and owed are within what was emitted. -/
structure Books (pk : Pubkey) (w : World) (p : StakingPool) (minted emitted : Nat) : Prop where
  pool : w.accounts.poolAt pk=some p
  total : sumOver staked w.accounts.stakeAt=p.totalStaked.toNat
  stakers : sumOver counted w.accounts.stakeAt=p.totalStakers.toNat
  debt : ∀ k s,w.accounts.stakeAt k=some s →
    s.rewardDebt.toNat≤ s.stakedAmount.toNat*p.accumulatedRewardPerShare.toNat
  rewards : 10^9*(minted+sumOver pending w.accounts.stakeAt)+
    sumOver (unsettled p.accumulatedRewardPerShare.toNat) w.accounts.stakeAt≤10^9*emitted
  stamp : p.lastRewardTimestamp.toInt≤w.clock.unixTimestamp.toInt

section Steps

variable {pk : Pubkey} {w : World} {p p' : StakingPool}

theorem Books.save (hb : Books pk w p minted emitted) (hclock : w.clock.before clock)
    (hs : Saved w.accounts a' pk sk q p' s' m) : Books pk ⟨a',clock⟩ p' (minted+m) emitted := by
  cases hb.pool.symm.trans hs.pool
  obtain ⟨hpool,hne,rfl,hsettled⟩ := hs
  have hothers {j : Pubkey} (hj : j≠sk) :
      (w.accounts.save pk p' sk s').stakeAt j=w.accounts.stakeAt j := save_others hpool hj
  have hsum (g : StakeAccount → Nat) (hg : g .blank=0) :
      sumOver g (w.accounts.save pk p' sk s').stakeAt+g
        ((w.accounts.stakeAt sk).getD StakeAccount.blank)=
        sumOver g w.accounts.stakeAt+g s' := sumOver_set hg save_stake fun _ hj => hothers hj
  have hzero : unsettled p.accumulatedRewardPerShare.toNat .blank=0 := by
    unfold unsettled StakeAccount.blank
    simp
  have hstaked := hsum staked rfl
  have hstakers := hsum counted rfl
  have hpending := hsum pending rfl
  have hunsettled := hsum (unsettled p.accumulatedRewardPerShare.toNat) hzero
  have hdebt : unsettled p.accumulatedRewardPerShare.toNat s'=0 := by
    unfold unsettled
    rw [hsettled.debt,Nat.sub_self]
  have h1 := hb.total
  have h2 := hb.stakers
  have h3 := hb.rewards
  have h4 := hsettled.total
  have h5 := hsettled.stakers
  have h6 := hsettled.rewards
  refine ⟨save_pool hne,?_,?_,?_,?_,?_⟩
  · change sumOver staked (w.accounts.save pk p' sk s').stakeAt=_
    omega
  · change sumOver counted (w.accounts.save pk p' sk s').stakeAt=_
    omega
  · intro k s hk
    rw [hsettled.accumulated]
    by_cases hks : k=sk
    · subst hks
      cases save_stake.symm.trans hk
      exact hsettled.debt.le
    · exact hb.debt k s ((hothers hks).symm.trans hk)
  · rw [hsettled.accumulated]
    change 10^9*(_+sumOver pending (w.accounts.save pk p' sk s').stakeAt)+
      sumOver _ (w.accounts.save pk p' sk s').stakeAt≤_
    omega
  · rw [hsettled.stamp]
    exact hb.stamp.trans hclock.2

theorem distributeRewards_spec (hx : distributeRewards clock ctx a=.ok (a',calls)) :
    calls=[] ∧ ∃ p p' elapsed,a.poolAt ctx.pool=some p ∧
      checkedSubSigned clock.unixTimestamp p.lastRewardTimestamp=some elapsed ∧
      distribute p clock.unixTimestamp elapsed=.ok p' ∧
      a'=update a ctx.pool (some (.pool p')) := by
  simp only [distributeRewards,steps_ok,Prod.mk.injEq] at hx
  obtain ⟨p,hp,_,-,_,-,_,-,_,-,elapsed,helapsed,p',hp',rfl,rfl⟩ := hx
  exact ⟨rfl,p,p',elapsed,hp,helapsed,hp',rfl⟩

theorem elapsed_toNat {now last : I64} (hle : last.toInt≤now.toInt)
    (h : checkedSubSigned now last=some elapsed) : elapsed.toNat=(now.toInt-last.toInt).toNat := by
  have hvalue := checkedSubSigned_eq_some.mp h
  have hlt := elapsed.isLt
  rw [toInt_eq_toNat_cond] at hvalue
  split at hvalue <;> omega

theorem Books.distribute (hb : Books pk w p minted emitted) (hclock : w.clock.before clock)
    (helapsed : checkedSubSigned clock.unixTimestamp p.lastRewardTimestamp=some elapsed)
    (hd : distribute p clock.unixTimestamp elapsed=.ok p') :
    Books pk ⟨update w.accounts pk (some (.pool p')),clock⟩ p' minted (emitted+
      (clock.unixTimestamp.toInt-p.lastRewardTimestamp.toInt).toNat*p.rewardRate.toNat) := by
  obtain ⟨htotal,hstakers,hstamp,increase,haccumulated,hincrease⟩ := distribute_spec hd
  have hsince := hb.stamp.trans hclock.2
  rw [elapsed_toNat hsince helapsed] at hincrease
  have hbook (j : Pubkey) := stakeAt_of_pool p' hb.pool j
  -- every position gains its stake times the increase
  have hgain : sumOver (unsettled p'.accumulatedRewardPerShare.toNat) w.accounts.stakeAt≤
      sumOver (unsettled p.accumulatedRewardPerShare.toNat) w.accounts.stakeAt+
        increase*sumOver staked w.accounts.stakeAt := by
    rw [← sumOver_scale,← sumOver_plus]
    refine sumOver_le fun k s hs => ?_
    have hdebt := hb.debt k s hs
    unfold unsettled staked
    rw [haccumulated,Nat.mul_add,Nat.mul_comm increase]
    omega
  have hrewards := hb.rewards
  rw [hb.total,Nat.mul_comm increase] at hgain
  refine ⟨?_,?_,?_,?_,?_,?_⟩
  · rw [poolAt_eq_some]
    exact update_self ..
  · rw [sumOver_congr hbook,htotal]
    exact hb.total
  · rw [sumOver_congr hbook,hstakers]
    exact hb.stakers
  · intro k s hs
    have hdebt := hb.debt k s ((hbook k).symm.trans hs)
    rw [haccumulated,Nat.mul_add]
    omega
  · rw [sumOver_congr hbook,sumOver_congr hbook,Nat.mul_add (10^9) emitted]
    omega
  · obtain heq | heq := hstamp
    · rw [heq]
    · rw [heq]
      exact hsince

theorem initializePool_spec {rate : U64}
    (hx : initializePool h clock ctx rate lock a=.ok (a',calls)) :
    calls=[] ∧ a ctx.pool=none ∧ ∃ p,a'=update a ctx.pool (some (.pool p)) ∧
      p.totalStaked=0#64 ∧ p.totalStakers=0#64 ∧ p.lastRewardTimestamp=clock.unixTimestamp := by
  simp only [initializePool,steps_ok,Prod.mk.injEq] at hx
  obtain ⟨_,-,_,hnone,_,-,_,-,_,-,_,-,_,-,rfl,rfl⟩ := hx
  exact ⟨rfl,hnone,_,rfl,rfl,rfl,rfl⟩

def Unused (pk : Pubkey) (w : World) : Prop :=
  w.accounts.poolAt pk=none ∧ ∀ j,w.accounts.stakeAt j=none

theorem Unused.opened {h : Host} {ctx : InitializePool} {rate : U64} {lock : I64}
    {calls : List TokenCall}
    (hu : Unused ctx.pool w) (hx : initializePool h clock ctx rate lock w.accounts=.ok (a,calls)) :
    calls=[] ∧ ∃ p,Books ctx.pool ⟨a,clock⟩ p 0 0 := by
  obtain ⟨rfl,_,p,rfl,htotal,hstakers,hstamp⟩ := initializePool_spec hx
  have hempty (j : Pubkey) :
      Accounts.stakeAt (update w.accounts ctx.pool (some (.pool p))) j=none := by
    unfold Accounts.stakeAt
    by_cases hj : j=ctx.pool
    · rw [hj,update_self]
    · rw [update_of_ne hj]
      exact hu.2 j
  refine ⟨rfl,p,?_,?_,?_,?_,?_,?_⟩
  · rw [poolAt_eq_some]
    exact update_self ..
  · rw [sumOver_empty hempty,htotal]
    rfl
  · rw [sumOver_empty hempty,hstakers]
    rfl
  · intro k s hs
    cases (hempty k).symm.trans hs
  · rw [sumOver_empty hempty,sumOver_empty hempty]
    exact le_rfl
  · rw [hstamp]

end Steps

def OnPool (pk : Pubkey) (i : Instruction) : Prop := i.pool=pk

def Accounted (pk : Pubkey) (tr : List (Transition World Event)) (w : World) : Prop :=
  (Unused pk w ∧ total rewardsMinted tr=0 ∧ total emission tr=0) ∨
    ∃ p,Books pk w p (total rewardsMinted tr) (total emission tr)

theorem Accounted.step {e : Event} (ha : Accounted pk tr w) (hs : Step h (OnPool pk) w e u) :
    Accounted pk (tr++[⟨w,e,u⟩]) u := by
  unfold Accounted
  rw [total_append_one,total_append_one]
  cases hs with
  | @accepted clock i a calls hclock hok hx =>
    obtain rfl : i.pool=pk := hok
    cases i with
    | initializePool ctx =>
      obtain ⟨hunused,hminted,hemitted⟩ | ⟨p,hb⟩ := ha
      · obtain ⟨rfl,p,hb⟩ := hunused.opened hx
        refine .inr ⟨p,?_⟩
        rw [hminted,hemitted]
        exact hb
      · have hnone := (initializePool_spec hx).2.1
        have hpool := poolAt_eq_some.mp hb.pool
        cases hnone.symm.trans hpool
    | stake ctx amount =>
      obtain ⟨hzero,p,p',s',hsaved⟩ := stake_spec hx
      obtain ⟨hunused,-⟩ | ⟨q,hb⟩ := ha
      · cases hunused.1.symm.trans hsaved.pool
      · refine .inr ⟨p',?_⟩
        change Books _ _ _ (_+mintedBy calls) (_+0)
        rw [hzero]
        exact hb.save hclock hsaved
    | unstake ctx amount =>
      obtain ⟨p,p',s',hsaved⟩ := unstake_spec hx
      obtain ⟨hunused,-⟩ | ⟨q,hb⟩ := ha
      · cases hunused.1.symm.trans hsaved.pool
      · exact .inr ⟨p',hb.save hclock hsaved⟩
    | distributeRewards ctx =>
      obtain ⟨rfl,p,p',_,hp,helapsed,hd,rfl⟩ := distributeRewards_spec hx
      obtain ⟨hunused,-⟩ | ⟨q,hb⟩ := ha
      · cases hunused.1.symm.trans hp
      cases hp.symm.trans hb.pool
      refine .inr ⟨p',?_⟩
      have hemission (u : World) : emission ⟨w,⟨clock,.distributeRewards ctx,[]⟩,u⟩=
          (clock.unixTimestamp.toInt-p.lastRewardTimestamp.toInt).toNat*p.rewardRate.toNat := by
        simp only [emission,hp,elim_some]
      rw [hemission]
      exact hb.distribute hclock helapsed hd

/-- What was minted, what is put aside and what every position could still settle is covered by
what was distributed, and the totals of the pool are those of its positions. -/
theorem rewards_within_emission {h : Host} {pk : Pubkey} {w₀ w : World}
    {tr : List (Transition World Event)} (h0 : ∀ k,w₀.accounts k=none)
    (hrun : Run (Step h (OnPool pk)) w₀ tr w) {p : StakingPool}
    (hp : w.accounts.poolAt pk=some p) :
    total rewardsMinted tr+sumOver
      (fun s : StakeAccount => s.pendingRewards.toNat) w.accounts.stakeAt+
        sumOver (fun s : StakeAccount => (s.stakedAmount.toNat*p.accumulatedRewardPerShare.toNat-
          s.rewardDebt.toNat)/10^9) w.accounts.stakeAt≤total emission tr ∧
      (∀ k s,w.accounts.stakeAt k=some s →
        s.rewardDebt.toNat≤ s.stakedAmount.toNat*p.accumulatedRewardPerShare.toNat) ∧
      sumOver (fun s : StakeAccount => s.stakedAmount.toNat) w.accounts.stakeAt=
        p.totalStaked.toNat ∧
      sumOver (fun s : StakeAccount => if 0< s.stakedAmount.toNat then 1 else 0)
        w.accounts.stakeAt=p.totalStakers.toNat := by
  have hstart : Accounted pk [] w₀ := by
    refine .inl ⟨⟨?_,fun j => ?_⟩,rfl,rfl⟩
    · unfold Accounts.poolAt
      rw [h0]
    · unfold Accounts.stakeAt
      rw [h0]
  have hend : Accounted pk tr w := hrun.traced hstart fun _ ha hs => ha.step hs
  obtain ⟨hunused,-⟩ | ⟨q,hb⟩ := hend
  · cases hunused.1.symm.trans hp
  cases hp.symm.trans hb.pool
  have hfloor :=
    sumOver_floor_le (10^9) (unsettled p.accumulatedRewardPerShare.toNat) w.accounts.stakeAt
  have hrewards := hb.rewards
  refine ⟨?_,hb.debt,hb.total,hb.stakers⟩
  change total rewardsMinted tr+sumOver pending w.accounts.stakeAt+
    sumOver (fun s => unsettled p.accumulatedRewardPerShare.toNat s/10^9) w.accounts.stakeAt≤_
  omega

/-- A deployment at `1` where the authority `2` opens the pool `10` for the mint `3`, and the users
`4` and `5` have their positions at `14` and `15`. -/
def sampleHost : Host where
  programId := 1#256
  findProgramAddress seeds _ :=
    if seeds=[poolSeed,Pubkey.bytes 2#256,Pubkey.bytes 3#256] then (10#256,255#8)
    else if seeds=[poolVaultSeed,Pubkey.bytes 10#256] then (11#256,255#8)
    else if seeds=[rewardVaultSeed,Pubkey.bytes 10#256] then (12#256,255#8)
    else if seeds=[stakeSeed,Pubkey.bytes 10#256,Pubkey.bytes 4#256] then (14#256,255#8)
    else (15#256,255#8)
  minimumBalance n := BitVec.ofNat 64 ((n+128)*6960)
  clockSysvar := 6#256

def emptyWorld : World := ⟨fun _ => none,⟨1#64,1000#64⟩⟩

def stakeOf (user stakeAccount : Pubkey) (amount : U64) : Instruction :=
  .stake ⟨10#256,11#256,stakeAccount,7#256,user,true⟩ amount

def sampleHistory : List (Clock×Instruction) :=
  [(⟨2#64,1000#64⟩,.initializePool ⟨10#256,11#256,12#256,3#256,8#256,2#256,true⟩ 7#64 0#64),
    (⟨3#64,1000#64⟩,stakeOf 4#256 14#256 1#64),(⟨4#64,1000#64⟩,stakeOf 5#256 15#256 2#64),
    (⟨5#64,1010#64⟩,.distributeRewards ⟨10#256,2#256,true⟩),
    (⟨6#64,1010#64⟩,.unstake ⟨10#256,11#256,14#256,7#256,9#256,8#256,4#256,true,4#256⟩ 1#64)]

theorem rewards_of_two_stakers : ∃ tr w p,Run (Step sampleHost (OnPool 10#256)) emptyWorld tr w ∧
      w.accounts.poolAt 10#256=some p ∧ total rewardsMinted tr=23 ∧ total emission tr=70 ∧
      sumOver (fun s : StakeAccount => s.stakedAmount.toNat) w.accounts.stakeAt=
        p.totalStaked.toNat := by
  obtain ⟨⟨tr,w⟩,hreplay,hminted,hemitted,hpool⟩ :
      ∃ x,replay sampleHost sampleHistory emptyWorld=some x ∧ total rewardsMinted x.1=23 ∧
      total emission x.1=70 ∧ (x.2.accounts.poolAt 10#256).isSome=true := by decide +kernel
  obtain ⟨p,hp⟩ := isSome_iff_exists.mp hpool
  have hon : ∀ x∈sampleHistory,OnPool 10#256 x.2 := by
    intro x hx
    simp only [sampleHistory,List.mem_cons,List.not_mem_nil,or_false] at hx
    obtain rfl | rfl | rfl | rfl | rfl := hx <;> rfl
  have hrun := replay_run hreplay hon
  exact ⟨tr,w,p,hrun,hp,hminted,hemitted,(rewards_within_emission (fun _ => rfl) hrun hp).2.2.1⟩

end PrismChain.StakingTemplate
