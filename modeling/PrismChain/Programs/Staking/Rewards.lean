import PrismChain.Programs.Staking.Emission

namespace PrismChain.Staking

open FixedWidth Option List BitVec Program

/-- Nothing is paid into a new position once the accumulator has moved. -/
def JoinsAtZero (e : Env) (b : Bank) (c : Call Instruction) : Prop :=
  c.instruction.paidIn≠0#64 → ∀ sk∈c.key? 1,(b sk).data=[] →
    ∀ p∈poolAt e b,p.accumulatedRewardPerToken=0#128

def Touches (sk : Pubkey) (x : LogEntry Instruction) : Prop :=
  ∃ c,x.label=.call c ∧ c.instruction.stakeIndex.bind c.key?=some sk

section Pending

variable {s : StakeAccount} {p : StakingPool}

theorem pending_le (h : calculatePendingRewards s p=.ok x) (hdebt : s.rewardDebt=0#128)
    (hvalidator : s.delegatedValidator=0#256) :
    x.toNat≤ s.stakedAmount.toNat*p.accumulatedRewardPerToken.toNat/10^12*
      s.lockTier.rewardMultiplierBps.toNat/10000 := by
  unfold calculatePendingRewards at h
  by_cases hzero : s.stakedAmount=0#64
  · rw [if_pos hzero] at h
    cases h
    exact Nat.zero_le _
  · rw [if_neg hzero] at h
    simp only [steps_ok] at h
    obtain ⟨_,haccumulated,earned,hearned,product,hproduct,_,hafter,rfl⟩ := h
    have ha := checkedMul_eq_some.mp haccumulated
    have he := checkedSub_eq_some.mp hearned
    have hp := checkedMul_eq_some.mp hproduct
    rw [toNat_widen (by decide)] at ha
    rw [hdebt,ha] at he
    have he' : earned.toNat=s.stakedAmount.toNat*p.accumulatedRewardPerToken.toNat := he.symm
    rw [toNat_udiv,toNat_widen (by decide),he'] at hp
    unfold deductCommission at hafter
    rw [if_neg (fun hv => hv.1 hvalidator)] at hafter
    cases hafter
    -- the cast to 64 bits can only lose
    calc ((product/bpsDenominator.setWidth 128).setWidth 64).toNat
        ≤ (product/bpsDenominator.setWidth 128).toNat := by
          rw [toNat_setWidth]
          exact Nat.mod_le _ _
      _ = product.toNat/10000 := toNat_udiv
      _ ≤ _ := by
          rw [hp]
          exact le_rfl

theorem pending_zero (hdebt : s.rewardDebt=0#128) (hvalidator : s.delegatedValidator=0#256)
    (hzero : p.accumulatedRewardPerToken=0#128 ∨ s.stakedAmount=0#64) :
    calculatePendingRewards s p=.ok 0#64 := by
  unfold calculatePendingRewards
  by_cases hstaked : s.stakedAmount=0#64
  · rw [if_pos hstaked]
  have haccumulator := hzero.resolve_right hstaked
  have hmul : checkedMul (s.stakedAmount.setWidth 128) p.accumulatedRewardPerToken=
      some 0#128 := checkedMul_eq_some.mpr (by simp [haccumulator])
  have hsub : checkedSub 0#128 s.rewardDebt=some 0#128 :=
    checkedSub_eq_some.mpr (by simp [hdebt])
  have hmul' :
      checkedMul (0#128/rewardScale) (s.lockTier.rewardMultiplierBps.setWidth 128)=some 0#128 :=
    checkedMul_eq_some.mpr (by simp)
  have hcommission : deductCommission s (0#128/bpsDenominator.setWidth 128)=
      .ok (0#128/bpsDenominator.setWidth 128) := by
    unfold deductCommission
    rw [if_neg (fun hv => hv.1 hvalidator)]
  rw [if_neg hstaked,hmul]
  simp only [okOr,bind,Except.bind,hsub,hmul',hcommission]
  rfl

end Pending

section Runs

variable {e : Env}

theorem accumulator_step (hstep : (program e).Step ok s a t) (hp : poolAt e s.bank=some p) :
    ∃ p',poolAt e t.bank=some p' ∧
      p.accumulatedRewardPerToken.toNat≤p'.accumulatedRewardPerToken.toNat := by
  cases hstep with
  | outside _ hout => exact ⟨p,(outside_pool hout).1.trans hp,le_rfl⟩
  | call _ _ hx =>
    refine pool_keeps (Q := fun p' => p.accumulatedRewardPerToken.toNat≤
      p'.accumulatedRewardPerToken.toNat) hx hp le_rfl (fun _ => le_rfl) ?_ ?_
    · intro _ _ _ _ _ he
      exact he.accumulator.symm ▸ le_rfl
    intro _ _ _ hc
    cases hc with
    | empty => exact le_rfl
    | early => exact le_rfl
    | emit _ _ _ haccumulated => exact (accumulate_le haccumulated).1

theorem accumulator_run (hrun : Run ((program e).Step ok) s tr t) (hp : poolAt e s.bank=some p) :
    ∃ p',poolAt e t.bank=some p' ∧
      p.accumulatedRewardPerToken.toNat≤p'.accumulatedRewardPerToken.toNat := by
  refine hrun.invariant (I := fun t => ∃ p',poolAt e t.bank=some p' ∧
    p.accumulatedRewardPerToken.toNat≤p'.accumulatedRewardPerToken.toNat) ⟨p,hp,le_rfl⟩ ?_
  intro t a u ⟨q,hq,hle⟩ hstep
  obtain ⟨q',hq',hle'⟩ := accumulator_step hstep hq
  exact ⟨q',hq',hle.trans hle'⟩

theorem untouched_run (hrun : Run ((program e).Step ok) s tr t) (huntouched : ∀ x∈tr,¬Touches sk x)
    (hpos : stakeAt e s.bank sk=some pos) : stakeAt e t.bank sk=some pos := by
  induction hrun with
  | start => exact hpos
  | next _ hstep ih =>
    have hbefore := ih fun x hx => huntouched x (mem_append_left _ hx)
    have hlast := huntouched _ (mem_append_right _ mem_cons_self)
    cases hstep with
    | outside _ hout => exact (hout.records stake_marked sk).trans hbefore
    | call _ _ hx => exact stake_frame hx hbefore fun hkey => hlast ⟨_,rfl,hkey⟩

end Runs

section FirstStake

variable {e : Env} {c : Call Instruction}

theorem stake_accumulator (hc : c.instruction=.stake amount lockTier autoCompound liquidStaking)
    (hx : (program e).execute c b=.ok b') (hp : poolAt e b=some p) :
    ∃ p',poolAt e b'=some p' ∧ p'.accumulatedRewardPerToken=p.accumulatedRewardPerToken := by
  refine pool_keeps (Q := fun p' => p'.accumulatedRewardPerToken=p.accumulatedRewardPerToken)
    hx hp rfl (fun _ => rfl) ?_ ?_
  · intro _ _ _ _ _ he
    exact he.accumulator
  · intro hi
    rw [hc] at hi
    cases hi

theorem first_stake (hc : c.instruction=.stake amount lockTier autoCompound liquidStaking)
    (hsk : c.key? 1=some sk) (hfirst : (b sk).data=[]) (hx : (program e).execute c b=.ok b') :
    ∃ pos,stakeAt e b' sk=some pos ∧ pos.stakedAmount=amount ∧ pos.lockTier=lockTier ∧
      pos.rewardDebt=0#128 ∧ pos.delegatedValidator=0#256 := by
  cases execute_spec hx with
  | opened ho =>
    obtain ⟨_,_,_,_,hi,hpos⟩ := ho.instruction
    rw [hc] at hi
    obtain ⟨rfl,rfl,rfl,rfl⟩ := Instruction.stake.inj hi
    have hkey := ho.stakeKey
    rw [hc] at hkey
    cases hsk.symm.trans hkey
    have hopened : stakeAt e _ _=some _ :=
      stakeAt_eq_some.mpr ⟨ho.stakeOwned',ho.stake',by rw [hpos]; rfl⟩
    subst hpos
    exact ⟨_,hopened,rfl,rfl,rfl,rfl⟩
  | updated hu =>
    have hkey := hu.stakeKey
    rw [hc] at hkey
    cases hsk.symm.trans hkey
    have hdata := hu.stake
    rw [hfirst] at hdata
    exact absurd (congrArg length hdata.symm) (by rw [stake_size]; decide)
  | initialized hi =>
    have hi := hi.instruction
    rw [hc] at hi
    cases hi
  | repositioned hr =>
    have hchange := hr.change
    rw [hc] at hchange
    cases hchange
  | cranked hk =>
    have hi := hk.instruction
    rw [hc] at hi
    cases hi

end FirstStake

/-- In runs in which nothing is paid into a new position once the accumulator has moved, a
position earns nothing for the time before it was opened. -/
theorem no_retroactive_rewards {e : Env} {s t u : Ledger} {c : Call Instruction}
    {tr : Trace Instruction} {amount : U64} {lockTier : LockTier}
    {autoCompound liquidStaking : Bool} {sk : Pubkey} {p : StakingPool}
    (hp : poolAt e s.bank=some p)
    (hc : c.instruction=.stake amount lockTier autoCompound liquidStaking)
    (hsk : c.key? 1=some sk) (hfirst : (s.bank sk).data=[])
    (hstep : (program e).Step (JoinsAtZero e) s (.call c) t)
    (hrun : Run ((program e).Step (JoinsAtZero e)) t tr u)
    (huntouched : ∀ x∈tr,¬Touches sk x) :
    ∃ pos p₁ p₂,stakeAt e t.bank sk=some pos ∧ pos.stakedAmount=amount ∧ pos.lockTier=lockTier ∧
      poolAt e t.bank=some p₁ ∧ calculatePendingRewards pos p₁=.ok 0#64 ∧
      stakeAt e u.bank sk=some pos ∧ poolAt e u.bank=some p₂ ∧
      p₁.accumulatedRewardPerToken.toNat≤p₂.accumulatedRewardPerToken.toNat ∧
      ∀ x,calculatePendingRewards pos p₂=.ok x → x.toNat≤pos.stakedAmount.toNat*
        (p₂.accumulatedRewardPerToken.toNat-p₁.accumulatedRewardPerToken.toNat)/10^12*
          pos.lockTier.rewardMultiplierBps.toNat/10000 := by
  cases hstep with
  | call _ hok hx =>
    have hzero : p.accumulatedRewardPerToken=0#128 ∨ amount=0#64 := by
      by_cases hamount : amount=0#64
      · exact .inr hamount
      · refine .inl (hok ?_ sk hsk hfirst p hp)
        rw [hc]
        exact hamount
    obtain ⟨pos,hpos,rfl,rfl,hdebt,hvalidator⟩ := first_stake hc hsk hfirst hx
    obtain ⟨p₁,hp₁,hsame⟩ := stake_accumulator hc hx hp
    obtain ⟨p₂,hp₂,hle⟩ := accumulator_run hrun hp₁
    rw [← hsame] at hzero
    refine ⟨pos,p₁,p₂,hpos,rfl,rfl,hp₁,pending_zero hdebt hvalidator hzero,
      untouched_run hrun huntouched hpos,hp₂,hle,?_⟩
    intro x hpending
    obtain haccumulator | hstaked := hzero
    · rw [haccumulator]
      exact pending_le hpending hdebt hvalidator
    · rw [pending_zero hdebt hvalidator (.inr hstaked)] at hpending
      cases hpending
      exact Nat.zero_le _

def quietLedger : Ledger :=
  (((program sampleEnv).history [initCall 2#64,crankCall 3#64] genesis).map fun x =>
    x.2).getD genesis

def joinBank : Bank :=
  ((program sampleEnv).execute (stakeCall 2#256 sampleStake 3#64) quietLedger.bank).toOption.getD
    quietLedger.bank

theorem join_executes : (program sampleEnv).execute (stakeCall 2#256 sampleStake 3#64)
    quietLedger.bank=.ok joinBank :=
  eq_ok_of_isOk quietLedger.bank (by decide +kernel)

theorem rewards_of_first_year :
    ∃ tr u pos p₁ p₂,Run ((program sampleEnv).Step (JoinsAtZero sampleEnv))
        ⟨joinBank,(stakeCall 2#256 sampleStake 3#64).clock⟩ tr u ∧
      stakeAt sampleEnv joinBank sampleStake=some pos ∧ pos.stakedAmount=1000000000#64 ∧
      poolAt sampleEnv joinBank=some p₁ ∧ calculatePendingRewards pos p₁=.ok 0#64 ∧
      poolAt sampleEnv u.bank=some p₂ ∧ p₂.accumulatedRewardPerToken=80000000000#128 ∧
      ∀ x,calculatePendingRewards pos p₂=.ok x → x.toNat≤pos.stakedAmount.toNat*
        (p₂.accumulatedRewardPerToken.toNat-p₁.accumulatedRewardPerToken.toNat)/10^12*
          pos.lockTier.rewardMultiplierBps.toNat/10000 := by
  obtain ⟨p,hp,hzero⟩ : ∃ p,poolAt sampleEnv quietLedger.bank=some p ∧
      p.accumulatedRewardPerToken=0#128 := by decide +kernel
  obtain ⟨⟨tr,u⟩,hhistory,q,hq,haccumulated⟩ : ∃ x,(program sampleEnv).history [crankCall
        63072003#64] ⟨joinBank,(stakeCall 2#256 sampleStake 3#64).clock⟩=some x ∧
      ∃ p,poolAt sampleEnv x.2.bank=some p ∧
      p.accumulatedRewardPerToken=80000000000#128 := by decide +kernel
  have hrun : Run ((program sampleEnv).Step (JoinsAtZero sampleEnv))
      ⟨joinBank,(stakeCall 2#256 sampleStake 3#64).clock⟩ tr u := by
    refine history_run_calls hhistory fun c hc b hpaid => ?_
    obtain rfl := mem_singleton.mp hc
    exact absurd rfl hpaid
  have huntouched : ∀ x∈tr,¬Touches sampleStake x := by
    intro x hx ⟨c,hlabel,hkey⟩
    obtain ⟨d,hd,hlabel'⟩ := history_calls hhistory x hx
    obtain rfl := mem_singleton.mp hd
    rw [hlabel] at hlabel'
    cases hlabel'
    cases hkey
  have hstep : (program sampleEnv).Step (JoinsAtZero sampleEnv) quietLedger
      (.call (stakeCall 2#256 sampleStake 3#64))
      ⟨joinBank,(stakeCall 2#256 sampleStake 3#64).clock⟩ := by
    refine .call (by decide +kernel) ?_ join_executes
    intro _ sk _ _ p' hp'
    cases hp.symm.trans hp'
    exact hzero
  have hkey : (stakeCall 2#256 sampleStake 3#64).key? 1=some sampleStake := rfl
  obtain ⟨pos,p₁,p₂,hpos,hamount,-,hp₁,hnow,-,hp₂,-,hbound⟩ :=
    no_retroactive_rewards hp rfl hkey (by decide +kernel) hstep hrun huntouched
  dsimp only at hpos hp₁
  cases hq.symm.trans hp₂
  exact ⟨tr,u,pos,p₁,q,hrun,hpos,hamount,hp₁,hnow,hp₂,haccumulated,hbound⟩

def joinLateCalls : List (Call Instruction) :=
  [initCall 2#64,crankCall 3#64,stakeCall 2#256 sampleStake 3#64,crankCall 63072003#64,
    stakeCall 3#256 otherStake 63072003#64]

/-- They are owed a year of rewards in the slot they join in. -/
theorem late_joiner_rewarded : ∃ tr t s p,Untouched sampleEnv.programId genesis.bank ∧
      Run ((program sampleEnv).Step (PoolPassed sampleEnv)) genesis tr t ∧
      (∃ x,tr.getLast?=some x ∧ x.label=.call (stakeCall 3#256 otherStake 63072003#64) ∧
        (x.pre.bank otherStake).data=[]) ∧
      stakeAt sampleEnv t.bank otherStake=some s ∧ poolAt sampleEnv t.bank=some p ∧
      calculatePendingRewards s p=.ok 80000000#64 := by
  simp only [exists_and_left]
  exact ⟨genesis_untouched,exists_run joinLateCalls (passed_of_keys (by decide +kernel))
    (by decide +kernel)⟩

end PrismChain.Staking
