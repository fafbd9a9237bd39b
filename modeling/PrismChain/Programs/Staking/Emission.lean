import PrismChain.Programs.Staking.Solvency

namespace PrismChain.Staking

open FixedWidth Option BitVec Program

def rateUnit : Nat := 10000*63072000

/-- Rewards are never counted for slots before `slot`: a crank that finds stake in the pool finds
it updated since. -/
def CrankedSince (e : Env) (slot : U64) (b : Bank) (c : Call Instruction) : Prop :=
  c.instruction=.updateRewards → c.key? 0=some (poolPda e) →
    ∀ p∈poolAt e b,p.totalStaked≠0#64 → slot.toNat≤p.lastUpdateSlot.toNat

section Rounding

theorem totalReward_eq_ok : totalReward p elapsed=.ok reward ↔
    p.totalStaked.toNat*p.baseRewardRateBps.toNat*elapsed.toNat<2^128 ∧ reward.toNat=
      p.totalStaked.toNat*p.baseRewardRateBps.toNat*elapsed.toNat/rateUnit := by
  obtain ⟨_,hyearly,hy⟩ := checkedMul_wide p.totalStaked p.baseRewardRateBps
  have hunit (product : U128) : (product/bpsDenominator.setWidth 128/slotsPerYear).toNat=
      product.toNat/rateUnit := by
    rw [toNat_udiv,toNat_udiv]
    exact Nat.div_div_eq_div_mul _ 10000 63072000
  rw [totalReward,hyearly,okOr_some,ok_bind,← hy]
  simp only [steps_ok,checkedMul_eq_some,toNat_widen (show 64≤128 by decide)]
  constructor
  · rintro ⟨product,hproduct,rfl⟩
    rw [hunit,← hproduct]
    exact ⟨product.isLt,rfl⟩
  · rintro ⟨hfits,hreward⟩
    obtain ⟨product,hproduct⟩ := exists_toNat hfits
    exact ⟨product,hproduct,eq_of_toNat_eq (by rw [hunit,hproduct,hreward])⟩

theorem accumulate_eq_ok : accumulate p reward=.ok accumulated ↔ reward.toNat*10^12<2^128 ∧
    accumulated.toNat=p.accumulatedRewardPerToken.toNat+reward.toNat*10^12/p.totalStaked.toNat := by
  unfold accumulate
  split_ifs with hreward
  · simp only
    [steps_ok,checkedMul_eq_some,checkedAdd_eq_some,toNat_udiv,toNat_widen (show 64≤128 by decide)]
    constructor
    · rintro ⟨scaled,hscaled,hsum⟩
      rw [hscaled] at hsum
      exact ⟨hscaled ▸ scaled.isLt,hsum⟩
    · rintro ⟨hfits,hsum⟩
      obtain ⟨scaled,hscaled⟩ := exists_toNat hfits
      exact ⟨scaled,hscaled,by rw [hscaled,hsum]⟩
  · rw [Nat.eq_zero_of_not_pos hreward,Nat.zero_mul,Nat.zero_div,Nat.add_zero]
    constructor
    · intro h
      exact ⟨by decide,congrArg BitVec.toNat (Except.ok.inj h).symm⟩
    · rintro ⟨-,h⟩
      exact congrArg Except.ok (eq_of_toNat_eq h.symm)

theorem totalReward_le (h : totalReward p elapsed=.ok reward) :
    reward.toNat*rateUnit≤p.totalStaked.toNat*p.baseRewardRateBps.toNat*elapsed.toNat := by
  rw [(totalReward_eq_ok.mp h).2]
  exact Nat.div_mul_le_self _ _

theorem accumulate_le (h : accumulate p reward=.ok accumulated) :
    p.accumulatedRewardPerToken.toNat≤accumulated.toNat ∧
      (accumulated.toNat-p.accumulatedRewardPerToken.toNat)*p.totalStaked.toNat≤
        reward.toNat*10^12 := by
  rw [(accumulate_eq_ok.mp h).2,Nat.add_sub_cancel_left]
  exact ⟨Nat.le_add_right _ _,Nat.div_mul_le_self _ _⟩

theorem emitted_le (hreward : totalReward p elapsed=.ok reward)
    (haccumulated : accumulate p reward=.ok accumulated) (hpos : p.totalStaked≠0#64) :
    accumulated.toNat*rateUnit≤p.accumulatedRewardPerToken.toNat*rateUnit+
      10^12*p.baseRewardRateBps.toNat*elapsed.toNat := by
  obtain ⟨hle,hadded⟩ := accumulate_le haccumulated
  have hunit := totalReward_le hreward
  have hstaked := toNat_pos.mpr hpos
  obtain ⟨x,hx⟩ := Nat.exists_eq_add_of_le hle
  rw [hx,Nat.add_sub_cancel_left] at hadded
  have hscaled : p.totalStaked.toNat*(x*rateUnit)≤
      p.totalStaked.toNat*(10^12*p.baseRewardRateBps.toNat*elapsed.toNat) := by
    calc p.totalStaked.toNat*(x*rateUnit)=x*p.totalStaked.toNat*rateUnit := by ring
      _ ≤ reward.toNat*10^12*rateUnit := Nat.mul_le_mul_right _ hadded
      _ = 10^12*(reward.toNat*rateUnit) := by ring
      _ ≤ 10^12*(p.totalStaked.toNat*p.baseRewardRateBps.toNat*elapsed.toNat) :=
        Nat.mul_le_mul_left _ hunit
      _ = p.totalStaked.toNat*(10^12*p.baseRewardRateBps.toNat*elapsed.toNat) := by ring
  have hx' := Nat.le_of_mul_le_mul_left hscaled hstaked
  rw [hx,Nat.add_mul]
  omega

end Rounding

/-- What was emitted is within the rate since the slot `s0`. -/
structure Bounded (s0 r : U64) (clock : Clock) (p : StakingPool) : Prop where
  rate : p.baseRewardRateBps=r
  emitted :
    p.accumulatedRewardPerToken.toNat*rateUnit≤10^12*r.toNat*(p.lastUpdateSlot.toNat-s0.toNat)
  updated : p.lastUpdateSlot.toNat≤clock.slot.toNat

section Steps

variable {e : Env} {s0 r : U64} {p : StakingPool} {s : StakeAccount}

theorem Bounded.later (hb : Bounded s0 r clock p) (hclock : clock.before clock') :
    Bounded s0 r clock' p :=
  ⟨hb.rate,hb.emitted,hb.updated.trans hclock.1⟩

theorem Bounded.effect {now : I64} {i : Instruction} (hb : Bounded s0 r clock p)
    (he : Effect now i s p s' p' out claimed) : Bounded s0 r clock p' := by
  cases he <;> exact ⟨hb.rate,hb.emitted,hb.updated⟩

theorem Bounded.crank (hb : Bounded s0 r clock p) (hclock : clock.before clock')
    (hsince : p.totalStaked≠0#64 → s0.toNat≤p.lastUpdateSlot.toNat)
    (hc : Crank clock'.slot p p') : Bounded s0 r clock' p' := by
  have hupdated := hb.updated.trans hclock.1
  cases hc with
  | empty =>
    exact ⟨hb.rate,hb.emitted.trans (Nat.mul_le_mul_left _ (Nat.sub_le_sub_right hupdated _)),
      le_rfl⟩
  | early => exact hb.later hclock
  | emit hstaked _ hreward haccumulated =>
    refine ⟨hb.rate,?_,le_rfl⟩
    have hemitted := emitted_le hreward haccumulated hstaked
    have hbefore := hb.emitted
    have hs0 := hsince hstaked
    rw [toNat_saturatingSub,hb.rate] at hemitted
    have hsplit : clock'.slot.toNat-s0.toNat=
        (p.lastUpdateSlot.toNat-s0.toNat)+(clock'.slot.toNat-p.lastUpdateSlot.toNat) := by omega
    dsimp only
    rw [hsplit,Nat.mul_add]
    omega

def Emitting (e : Env) (s0 r : U64) (s : Ledger) : Prop :=
  ∃ p,poolAt e s.bank=some p ∧ Bounded s0 r s.clock p

theorem Emitting.step {s t : Ledger} {a : Action Instruction} (hs : Emitting e s0 r s)
    (hstep : (program e).Step (CrankedSince e s0) s a t) : Emitting e s0 r t := by
  obtain ⟨p,hp,hb⟩ := hs
  cases hstep with
  | outside hclock hout => exact ⟨p,(outside_pool hout).1.trans hp,hb.later hclock⟩
  | call hclock hok hx =>
    have hlater := hb.later hclock
    exact pool_keeps (Q := fun p => Bounded s0 r _ p) hx hp hlater
      (fun _ => ⟨hlater.rate,hlater.emitted,hlater.updated⟩) (fun he => hlater.effect he)
      (fun hi hkey => hb.crank hclock (hok hi hkey p hp))

end Steps

/-- A pool that is never cranked with stake in it before it was updated once emits at most its
rate for the slots since it was initialized. -/
theorem emission_bounded {e : Env} {s : Ledger} {c : Call Instruction} {b : Bank} {r : U64}
    (hc : c.instruction=.initializePool r) (hx : (program e).execute c s.bank=.ok b)
    {t : Ledger} {tr : Trace Instruction}
    (hrun : Run ((program e).Step (CrankedSince e c.clock.slot)) ⟨b,c.clock⟩ tr t) :
    ∃ p,poolAt e t.bank=some p ∧ p.accumulatedRewardPerToken.toNat*10000*63072000≤
      10^12*r.toNat*(t.clock.slot.toNat-c.clock.slot.toNat) := by
  have hstart : Emitting e c.clock.slot r ⟨b,c.clock⟩ := by
    obtain ⟨_,_,hi⟩ := execute_initialize hc hx
    refine ⟨_,hi.pool.2,rfl,?_,Nat.zero_le _⟩
    simp
  obtain ⟨p,hp,hb⟩ :=
    hrun.invariant (I := Emitting e c.clock.slot r) hstart (fun hs hstep => hs.step hstep)
  refine ⟨p,hp,?_⟩
  have hlate : 10^12*r.toNat*(p.lastUpdateSlot.toNat-c.clock.slot.toNat)≤
      10^12*r.toNat*(t.clock.slot.toNat-c.clock.slot.toNat) :=
    Nat.mul_le_mul_left _ (Nat.sub_le_sub_right hb.updated _)
  rw [Nat.mul_assoc]
  exact hb.emitted.trans hlate

instance (e : Env) (slot : U64) (b : Bank) (c : Call Instruction) :
    Decidable (CrankedSince e slot b c) :=
  inferInstanceAs (Decidable (_ → _ → ∀ p∈poolAt e b,_))

def yearCalls : List (Call Instruction) :=
  [crankCall 3#64,stakeCall 2#256 sampleStake 3#64,crankCall 63072003#64]

def cranksAndEmission (slot : U64) (x : Trace Instruction×Ledger) : Bool×Option U128 :=
  (x.1.all fun y => match y.label with
    | .call c => decide (CrankedSince sampleEnv slot y.pre.bank c)
    | .outside => true,
  (poolAt sampleEnv x.2.bank).map fun p => p.accumulatedRewardPerToken)

def initBank : Bank :=
  ((program sampleEnv).execute (initCall 2#64) genesis.bank).toOption.getD genesis.bank

theorem init_executes : (program sampleEnv).execute (initCall 2#64) genesis.bank=.ok initBank :=
  eq_ok_of_isOk genesis.bank (by decide +kernel)

theorem emission_after_year : ∃ tr t p,
    (program sampleEnv).execute (initCall 2#64) genesis.bank=.ok initBank ∧
      Run ((program sampleEnv).Step (CrankedSince sampleEnv 2#64))
        ⟨initBank,(initCall 2#64).clock⟩ tr t ∧
      poolAt sampleEnv t.bank=some p ∧ p.accumulatedRewardPerToken=80000000000#128 ∧
      p.accumulatedRewardPerToken.toNat*10000*63072000≤10^12*800*(t.clock.slot.toNat-2) := by
  obtain ⟨⟨tr,t⟩,hhistory,hvalues⟩ : ∃ x,(program sampleEnv).history yearCalls
      ⟨initBank,(initCall 2#64).clock⟩=some x ∧
      cranksAndEmission 2#64 x=(true,some 80000000000#128) := by decide +kernel
  obtain ⟨hmet,hemitted⟩ := Prod.mk.inj hvalues
  obtain ⟨p,hp,haccumulated⟩ := map_eq_some_iff.mp hemitted
  have hrun : Run ((program sampleEnv).Step (CrankedSince sampleEnv 2#64))
      ⟨initBank,(initCall 2#64).clock⟩ tr t := by
    refine history_run hhistory fun x hx c hc => ?_
    have hx' := List.all_eq_true.mp hmet x hx
    rw [hc] at hx'
    exact of_decide_eq_true hx'
  obtain ⟨q,hq,hbound⟩ := emission_bounded rfl init_executes hrun
  cases hp.symm.trans hq
  exact ⟨tr,t,p,init_executes,hrun,hp,haccumulated,hbound⟩

def lateCalls : List (Call Instruction) :=
  [initCall 63072000#64,stakeCall 2#256 sampleStake 63072000#64,crankCall 63072000#64]

/-- No slot has passed, and a year of rewards has been emitted. -/
theorem late_pool_emits_past : ∃ tr t p,Untouched sampleEnv.programId genesis.bank ∧
      Run ((program sampleEnv).Step (PoolPassed sampleEnv)) genesis tr t ∧
      (∃ x∈tr,x.label=.call (initCall 63072000#64)) ∧ t.clock.slot=63072000#64 ∧
      poolAt sampleEnv t.bank=some p ∧ p.baseRewardRateBps=800#64 ∧
      p.accumulatedRewardPerToken=80000000000#128 ∧
      ¬p.accumulatedRewardPerToken.toNat*10000*63072000≤
        10^12*p.baseRewardRateBps.toNat*(t.clock.slot.toNat-(initCall
          63072000#64).clock.slot.toNat) := by
  simp only [exists_and_left]
  exact ⟨genesis_untouched,
    exists_run lateCalls (passed_of_keys (by decide +kernel)) (by decide +kernel)⟩

end PrismChain.Staking
