import PrismChain.Framework.Execution

namespace PrismChain.StakingTemplate

open FixedWidth

inductive StakingError where
  | invalidAmount
  | invalidRewardRate
  | invalidDuration
  | poolInactive
  | noStakers
  | insufficientStake
  | stakeLocked
  | unauthorized
  | invalidVault
  | overflow
  deriving DecidableEq

/-- The program's own errors and those of the checks that stand for the account types. -/
inductive Error where
  | program (e : StakingError)
  | accountAlreadyInUse
  | accountNotInitialized
  | accountDiscriminatorMismatch
  | accountNotSigner
  | constraintSeeds
  deriving DecidableEq

def err (e : StakingError) : Error := .program e

structure StakingPool where
  authority : Pubkey
  stakingMint : Pubkey
  rewardMint : Pubkey
  poolVault : Pubkey
  rewardVault : Pubkey
  rewardRate : U64
  lockDuration : I64
  totalStaked : U64
  totalStakers : U64
  lastRewardTimestamp : I64
  accumulatedRewardPerShare : U64
  isActive : Bool
  bump : U8
  deriving DecidableEq

structure StakeAccount where
  owner : Pubkey
  pool : Pubkey
  stakedAmount : U64
  rewardDebt : U64
  pendingRewards : U64
  stakedAt : I64
  lastStakeTimestamp : I64
  bump : U8
  deriving DecidableEq

def StakeAccount.blank : StakeAccount := ⟨0#256,0#256,0#64,0#64,0#64,0#64,0#64,0#8⟩

inductive Record where
  | pool (p : StakingPool)
  | stake (s : StakeAccount)
  deriving DecidableEq

abbrev Accounts := Pubkey → Option Record

namespace Accounts

def poolAt (a : Accounts) (k : Pubkey) : Option StakingPool :=
  match a k with
  | some (.pool p) => some p
  | _ => none

def stakeAt (a : Accounts) (k : Pubkey) : Option StakeAccount :=
  match a k with
  | some (.stake s) => some s
  | _ => none

def save (a : Accounts) (pk : Pubkey) (p : StakingPool) (sk : Pubkey) (s : StakeAccount) :
    Accounts :=
  Function.update (Function.update a pk (some (.pool p))) sk (some (.stake s))

end Accounts

inductive TokenCall where
  | transfer (source destination authority : Pubkey) (amount : U64)
  | mintTo (mint destination authority : Pubkey) (amount : U64)
  deriving DecidableEq

def poolSeed : List Byte := ascii ['s','t','a','k','i','n','g','-','p','o','o','l']
def poolVaultSeed : List Byte := ascii ['p','o','o','l','-','v','a','u','l','t']
def rewardVaultSeed : List Byte := ascii ['r','e','w','a','r','d','-','v','a','u','l','t']
def stakeSeed : List Byte := ascii ['s','t','a','k','e']

def precision : U64 := 1000000000#64

structure InitializePool where
  pool : Pubkey
  poolVault : Pubkey
  rewardVault : Pubkey
  stakingMint : Pubkey
  rewardMint : Pubkey
  authority : Pubkey
  authoritySigns : Bool
  deriving DecidableEq

structure Stake where
  pool : Pubkey
  poolVault : Pubkey
  stakeAccount : Pubkey
  userTokenAccount : Pubkey
  user : Pubkey
  userSigns : Bool
  deriving DecidableEq

structure Unstake where
  pool : Pubkey
  poolVault : Pubkey
  stakeAccount : Pubkey
  userTokenAccount : Pubkey
  userRewardAccount : Pubkey
  rewardMint : Pubkey
  user : Pubkey
  userSigns : Bool
  owner : Pubkey
  deriving DecidableEq

structure DistributeRewards where
  pool : Pubkey
  authority : Pubkey
  authoritySigns : Bool
  deriving DecidableEq

inductive Instruction where
  | initializePool (ctx : InitializePool) (rewardRate : U64) (lockDuration : I64)
  | stake (ctx : Stake) (amount : U64)
  | unstake (ctx : Unstake) (amount : U64)
  | distributeRewards (ctx : DistributeRewards)
  deriving DecidableEq

def Instruction.pool : Instruction → Pubkey
  | .initializePool ctx _ _ => ctx.pool
  | .stake ctx _ => ctx.pool
  | .unstake ctx _ => ctx.pool
  | .distributeRewards ctx => ctx.pool

abbrev Outcome := Except Error (Accounts×List TokenCall)

def initializePool (h : Host) (clock : Clock) (ctx : InitializePool) (rewardRate : U64)
    (lockDuration : I64) (a : Accounts) : Outcome := do
  let pda := h.findProgramAddress [poolSeed,ctx.authority.bytes,ctx.stakingMint.bytes] h.programId
  require (ctx.pool=pda.1) .constraintSeeds
  require (a ctx.pool=none) .accountAlreadyInUse
  require (ctx.poolVault=(h.findProgramAddress [poolVaultSeed,ctx.pool.bytes] h.programId).1)
    .constraintSeeds
  require (ctx.rewardVault=(h.findProgramAddress [rewardVaultSeed,ctx.pool.bytes] h.programId).1)
    .constraintSeeds
  require (ctx.authoritySigns=true) .accountNotSigner
  require (0< rewardRate.toNat) (err .invalidRewardRate)
  require (0≤lockDuration.toInt) (err .invalidDuration)
  pure (Function.update a ctx.pool (some (.pool ⟨ctx.authority,ctx.stakingMint,ctx.rewardMint,
    ctx.poolVault,ctx.rewardVault,rewardRate,lockDuration,0#64,0#64,clock.unixTimestamp,0#64,true,
    pda.2⟩)),[])

def calculatePendingRewards (stakedAmount accumulatedRewardPerShare rewardDebt : U64) :
    Except Error U64 := do
  let total ← okOr (checkedMul stakedAmount accumulatedRewardPerShare) (err .overflow)
  let unsettled ← okOr (checkedSub total rewardDebt) (err .overflow)
  okOr (checkedDiv unsettled precision) (err .overflow)

def initIfNeeded (a : Accounts) (k : Pubkey) : Except Error StakeAccount :=
  match a k with
  | none => .ok .blank
  | some (.stake s) => .ok s
  | some (.pool _) => .error .accountDiscriminatorMismatch

def joinOrSettle (ctx : Stake) (now : I64) (bump : U8) (stake : StakeAccount)
    (pool : StakingPool) : Except Error (StakeAccount×StakingPool) :=
  if stake.stakedAmount=0#64 then do
    let totalStakers ← okOr (checkedAdd pool.totalStakers 1#64) (err .overflow)
    pure ({stake with
      owner := ctx.user
      pool := ctx.pool
      stakedAt := now
      rewardDebt := 0#64
      bump := bump},{pool with totalStakers := totalStakers})
  else do
    let pending ← calculatePendingRewards stake.stakedAmount pool.accumulatedRewardPerShare
      stake.rewardDebt
    let pendingRewards ← okOr (checkedAdd stake.pendingRewards pending) (err .overflow)
    pure ({stake with pendingRewards := pendingRewards},pool)

def stake (h : Host) (clock : Clock) (ctx : Stake) (amount : U64) (a : Accounts) : Outcome := do
  let pool ← okOr (a.poolAt ctx.pool) .accountNotInitialized
  require (pool.isActive=true) (err .poolInactive)
  require (ctx.poolVault=pool.poolVault) (err .invalidVault)
  let pda := h.findProgramAddress [stakeSeed,ctx.pool.bytes,ctx.user.bytes] h.programId
  require (ctx.stakeAccount=pda.1) .constraintSeeds
  let stake ← initIfNeeded a ctx.stakeAccount
  require (ctx.userSigns=true) .accountNotSigner
  require (0<amount.toNat) (err .invalidAmount)
  require (pool.isActive=true) (err .poolInactive)
  let (stake,pool) ← joinOrSettle ctx clock.unixTimestamp pda.2 stake pool
  let stakedAmount ← okOr (checkedAdd stake.stakedAmount amount) (err .overflow)
  let totalStaked ← okOr (checkedAdd pool.totalStaked amount) (err .overflow)
  let rewardDebt ← okOr (checkedMul stakedAmount pool.accumulatedRewardPerShare) (err .overflow)
  pure (a.save ctx.pool {pool with totalStaked := totalStaked} ctx.stakeAccount {stake with
      stakedAmount := stakedAmount
      lastStakeTimestamp := clock.unixTimestamp
      rewardDebt := rewardDebt},
    [.transfer ctx.userTokenAccount ctx.poolVault ctx.user amount])

def leave (stakedAmount : U64) (pool : StakingPool) : Except Error StakingPool :=
  if stakedAmount=0#64 then do
    let totalStakers ← okOr (checkedSub pool.totalStakers 1#64) (err .overflow)
    pure {pool with totalStakers := totalStakers}
  else .ok pool

def mintRewards (ctx : Unstake) (totalRewards : U64) : List TokenCall :=
  if 0<totalRewards.toNat then
    [.mintTo ctx.rewardMint ctx.userRewardAccount ctx.poolVault totalRewards]
  else []

def unstake (h : Host) (clock : Clock) (ctx : Unstake) (amount : U64) (a : Accounts) : Outcome := do
  let pool ← okOr (a.poolAt ctx.pool) .accountNotInitialized
  require (ctx.poolVault=pool.poolVault) (err .invalidVault)
  let stake ← okOr (a.stakeAt ctx.stakeAccount) .accountNotInitialized
  require (h.findProgramAddress [stakeSeed,ctx.pool.bytes,ctx.user.bytes] h.programId=
    (ctx.stakeAccount,stake.bump)) .constraintSeeds
  require (stake.owner=ctx.owner) (err .unauthorized)
  require (ctx.userSigns=true) .accountNotSigner
  require (ctx.user=stake.owner) (err .unauthorized)
  require (0<amount.toNat) (err .invalidAmount)
  require (amount.toNat≤ stake.stakedAmount.toNat) (err .insufficientStake)
  let timeStaked ← okOr (checkedSubSigned clock.unixTimestamp stake.lastStakeTimestamp)
    (err .overflow)
  require (pool.lockDuration.toInt≤timeStaked.toInt) (err .stakeLocked)
  let pending ← calculatePendingRewards stake.stakedAmount pool.accumulatedRewardPerShare
    stake.rewardDebt
  let totalRewards ← okOr (checkedAdd stake.pendingRewards pending) (err .overflow)
  let stakedAmount ← okOr (checkedSub stake.stakedAmount amount) (err .overflow)
  let totalStaked ← okOr (checkedSub pool.totalStaked amount) (err .overflow)
  let pool ← leave stakedAmount {pool with totalStaked := totalStaked}
  let rewardDebt ← okOr (checkedMul stakedAmount pool.accumulatedRewardPerShare) (err .overflow)
  pure (a.save ctx.pool pool ctx.stakeAccount {stake with
      stakedAmount := stakedAmount
      pendingRewards := 0#64
      rewardDebt := rewardDebt},
    .transfer ctx.poolVault ctx.userTokenAccount ctx.poolVault amount::
      mintRewards ctx totalRewards)

def distribute (pool : StakingPool) (now : I64) (elapsed : U64) : Except Error StakingPool :=
  if elapsed=0#64 then .ok pool
  else do
    let reward ← okOr (checkedMul elapsed pool.rewardRate) (err .overflow)
    let scaled ← okOr (checkedMul reward precision) (err .overflow)
    let increase ← okOr (checkedDiv scaled pool.totalStaked) (err .overflow)
    let accumulated ← okOr (checkedAdd pool.accumulatedRewardPerShare increase) (err .overflow)
    pure {pool with accumulatedRewardPerShare := accumulated, lastRewardTimestamp := now}

def distributeRewards (clock : Clock) (ctx : DistributeRewards) (a : Accounts) : Outcome := do
  let pool ← okOr (a.poolAt ctx.pool) .accountNotInitialized
  require (pool.authority=ctx.authority) (err .unauthorized)
  require (ctx.authoritySigns=true) .accountNotSigner
  require (pool.isActive=true) (err .poolInactive)
  require (0<pool.totalStaked.toNat) (err .noStakers)
  let elapsed ← okOr (checkedSubSigned clock.unixTimestamp pool.lastRewardTimestamp) (err .overflow)
  let pool ← distribute pool clock.unixTimestamp elapsed
  pure (Function.update a ctx.pool (some (.pool pool)),[])

def process (h : Host) (clock : Clock) : Instruction → Accounts → Outcome
  | .initializePool ctx rewardRate lockDuration =>
      initializePool h clock ctx rewardRate lockDuration
  | .stake ctx amount => stake h clock ctx amount
  | .unstake ctx amount => unstake h clock ctx amount
  | .distributeRewards ctx => distributeRewards clock ctx

structure World where
  accounts : Accounts
  clock : Clock

structure Event where
  clock : Clock
  instruction : Instruction
  calls : List TokenCall

/-- The token program is taken to accept every call. -/
inductive Step (h : Host) (ok : Instruction → Prop) : World → Event → World → Prop
  | accepted {w : World} {clock : Clock} {i : Instruction} {a : Accounts} {calls : List TokenCall}
      (hclock : w.clock.before clock) (hok : ok i)
        (hx : process h clock i w.accounts=.ok (a,calls)) :
      Step h ok w ⟨clock,i,calls⟩ ⟨a,clock⟩

def replay (h : Host) :
    List (Clock×Instruction) → World → Option (List (Transition World Event)×World)
  | [],w => some ([],w)
  | (clock,i)::rest,w =>
    match process h clock i w.accounts with
    | .error _ => none
    | .ok (a,calls) =>
      if w.clock.before clock then
        (replay h rest ⟨a,clock⟩).map fun x => (⟨w,⟨clock,i,calls⟩,⟨a,clock⟩⟩::x.1,x.2)
      else none

theorem replay_run (hr : replay h cs w=some (tr,u)) (hok : ∀ x∈cs,ok x.2) :
    Run (Step h ok) w tr u := by
  induction cs generalizing w tr with
  | nil =>
    cases hr
    exact .start
  | cons x cs ih =>
    obtain ⟨clock,i⟩ := x
    unfold replay at hr
    split at hr
    case h_1 => cases hr
    rename_i a calls hx
    split at hr
    case isFalse => cases hr
    rename_i hclock
    obtain ⟨⟨_,v⟩,htail,heq⟩ := Option.map_eq_some_iff.mp hr
    cases heq
    have hfirst : Step h ok w ⟨clock,i,calls⟩ ⟨a,clock⟩ :=
      .accepted hclock (hok _ List.mem_cons_self) hx
    exact (Run.start.next hfirst).append (ih htail fun y hy => hok y (List.mem_cons_of_mem _ hy))

end PrismChain.StakingTemplate
