import PrismChain.Framework.Records

namespace PrismChain.Staking

open FixedWidth

def poolSeed : List Byte :=
  ascii ['p','r','i','s','m','_','s','t','a','k','i','n','g','_','p','o','o','l']
def stakeSeed : List Byte := ascii ['p','r','i','s','m','_','s','t','a','k','e']
def stPrismAuthoritySeed : List Byte :=
  ascii ['s','t','_','p','r','i','s','m','_','a','u','t','h','o','r','i','t','y']

def bpsDenominator : U64 := 10000#64
def insuranceBps : U64 := 200#64
def secondsPerDay : I64 := 86400#64
def slotsPerYear : U128 := 63072000#128

/-- The scale of `accumulatedRewardPerToken`. -/
def rewardScale : U128 := 1000000000000#128

inductive LockTier where
  | flexible
  | locked30
  | locked90
  | locked180
  | locked365
  deriving DecidableEq

namespace LockTier

def rewardMultiplierBps : LockTier → U64
  | .flexible => 10000#64
  | .locked30 => 15000#64
  | .locked90 => 20000#64
  | .locked180 => 30000#64
  | .locked365 => 50000#64

def lockDurationSeconds : LockTier → I64
  | .flexible => 0#64
  | .locked30 => 30#64*secondsPerDay
  | .locked90 => 90#64*secondsPerDay
  | .locked180 => 180#64*secondsPerDay
  | .locked365 => 365#64*secondsPerDay

end LockTier

inductive StakingError where
  | alreadyInitialized
  | notInitialized
  | stakeAlreadyInitialized
  | stakeNotInitialized
  | lockNotExpired
  | insufficientStake
  | unauthorized
  | overflow
  | invalidLockTier
  | liquidStakingNotEnabled
  | noRewards
  | invalidAccountOwner
  | insufficientStPrism
  deriving DecidableEq

def err (e : StakingError) : ProgramError := .custom (BitVec.ofNat 32 e.ctorIdx)

/-- The pool: its totals and what one staked lamport has earned so far. -/
structure StakingPool where
  isInitialized : Bool
  authority : Pubkey
  stPrismMint : Pubkey
  totalStaked : U64
  accumulatedRewardPerToken : U128
  totalSlashed : U64
  insuranceBalance : U64
  baseRewardRateBps : U64
  lastUpdateSlot : U64
  bump : U8
  deriving DecidableEq

/-- A position. `rewardDebt` is what its stake had earned when it was last settled. -/
structure StakeAccount where
  isInitialized : Bool
  owner : Pubkey
  delegatedValidator : Pubkey
  stakedAmount : U64
  rewardDebt : U128
  pendingRewards : U64
  lockTier : LockTier
  stakeTimestamp : I64
  unlockTimestamp : I64
  autoCompound : Bool
  liquidStaking : Bool
  stPrismMinted : U64
  validatorCommissionBps : U64
  bump : U8
  deriving DecidableEq

open Codec

def lockTierCodec : Codec LockTier :=
  enumeration {all := [.flexible,.locked30,.locked90,.locked180,.locked365]}

def poolCodec : Codec StakingPool :=
  (bool.pair (pubkeyCodec.pair (pubkeyCodec.pair (u64.pair (u128.pair (u64.pair (u64.pair
    (u64.pair (u64.pair u8))))))))).record
    (fun (i,a,m,t,r,s,n,b,l,k) => ⟨i,a,m,t,r,s,n,b,l,k⟩)
    (fun p => (p.isInitialized,p.authority,p.stPrismMint,p.totalStaked,
      p.accumulatedRewardPerToken,p.totalSlashed,p.insuranceBalance,p.baseRewardRateBps,
      p.lastUpdateSlot,p.bump))

def stakeCodec : Codec StakeAccount :=
  (bool.pair (pubkeyCodec.pair (pubkeyCodec.pair (u64.pair (u128.pair (u64.pair (lockTierCodec.pair
    (i64.pair (i64.pair (bool.pair (bool.pair (u64.pair (u64.pair u8))))))))))))).record
    (fun (i,o,d,s,r,p,t,a,u,c,l,m,v,b) => ⟨i,o,d,s,r,p,t,a,u,c,l,m,v,b⟩)
    (fun s => (s.isInitialized,s.owner,s.delegatedValidator,s.stakedAmount,s.rewardDebt,
      s.pendingRewards,s.lockTier,s.stakeTimestamp,s.unlockTimestamp,s.autoCompound,
      s.liquidStaking,s.stPrismMinted,s.validatorCommissionBps,s.bump))

def poolLen : Nat := 1+32+32+8+16+8+8+8+8+1
def stakeLen : Nat := 1+32+32+8+16+8+1+8+8+1+1+8+8+1

theorem pool_size : poolCodec.HasSize poolLen := fun _ => by simp [poolCodec,poolLen]

theorem stake_size :
    stakeCodec.HasSize stakeLen := fun _ => by simp [stakeCodec,lockTierCodec,stakeLen]

theorem pool_ne_stake (p : StakingPool) (s : StakeAccount) :
    poolCodec.encode p≠stakeCodec.encode s := by
  intro h
  have hlen := congrArg List.length h
  rw [pool_size p,stake_size s] at hlen
  cases hlen

/-- What the validator leaves of the rewards. -/
def deductCommission (stake : StakeAccount) (multiplied : U128) : Except ProgramError U128 :=
  if stake.delegatedValidator≠0#256 ∧ 0< stake.validatorCommissionBps.toNat then do
    let product ← okOr (checkedMul multiplied (stake.validatorCommissionBps.setWidth 128))
      (err .overflow)
    okOr (checkedSub multiplied (product/bpsDenominator.setWidth 128)) (err .overflow)
  else .ok multiplied

def calculatePendingRewards (stake : StakeAccount) (pool : StakingPool) :
    Except ProgramError U64 :=
  if stake.stakedAmount=0#64 then .ok 0#64
  else do
    let accumulated ← okOr (checkedMul (stake.stakedAmount.setWidth 128)
      pool.accumulatedRewardPerToken) (err .overflow)
    let earned ← okOr (checkedSub accumulated stake.rewardDebt) (err .overflow)
    let product ← okOr (checkedMul (earned/rewardScale)
      (stake.lockTier.rewardMultiplierBps.setWidth 128)) (err .overflow)
    let afterCommission ← deductCommission stake (product/bpsDenominator.setWidth 128)
    pure (afterCommission.setWidth 64)

end PrismChain.Staking
