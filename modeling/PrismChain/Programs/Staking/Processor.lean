import PrismChain.Programs.Staking.State

namespace PrismChain.Staking

open FixedWidth

/-- The runtime together with the program that callers name as the token program. Nobody checks
which one that is; the runtime only confines it to the accounts it is passed and to what any
other program may do. -/
structure Env extends Host where
  tokenCall : Pubkey → List Byte → List Pubkey → Bank → Except ProgramError Bank
  confined :
    ∀ {p d ks b b'},tokenCall p d ks b=.ok b' → Outside programId b b' ∧ ∀ k,k∉ks → b' k=b k

instance : Coe Env Host := ⟨Env.toHost⟩

inductive Instruction where
  | initializePool (baseRewardRateBps : U64)
  | stake (amount : U64) (lockTier : LockTier) (autoCompound liquidStaking : Bool)
  | unstake (amount : U64)
  | claimRewards
  | delegate (validator : Pubkey) (commissionBps : U64)
  | toggleAutoCompound
  | mintStPrism
  | burnStPrism (amount : U64)
  | slash (amount : U64)
  | updateRewards
  deriving DecidableEq

namespace Instruction

def poolIndex : Instruction → Option Nat
  | .initializePool _ => some 1
  | .stake _ _ _ _ => some 2
  | .unstake _ => some 2
  | .claimRewards => some 2
  | .slash _ => some 2
  | .updateRewards => some 0
  | _ => none

def stakeIndex : Instruction → Option Nat
  | .initializePool _ => none
  | .updateRewards => none
  | _ => some 1

def callsToken : Instruction → Bool
  | .mintStPrism => true
  | .burnStPrism _ => true
  | _ => false

end Instruction

def loadPool (f : Frame) (k : Pubkey) : Except ProgramError StakingPool :=
  okOr (poolCodec.tryFromSlice (f.view k).data) .borshIoError

/-- Who owns the account is left to the runtime, which lets only the owner change its data. -/
def loadStake (f : Frame) (k : Pubkey) : Except ProgramError StakeAccount := do
  let stake ← okOr (stakeCodec.tryFromSlice (f.view k).data) .borshIoError
  require (stake.isInitialized=true) (err .stakeNotInitialized)
  pure stake

def loadOwnStake (f : Frame) (k staker : Pubkey) : Except ProgramError StakeAccount := do
  let stake ← loadStake f k
  require (stake.owner=staker) (err .unauthorized)
  pure stake

def settle (stake : StakeAccount) (pool : StakingPool) : Except ProgramError U64 := do
  let pending ← calculatePendingRewards stake pool
  okOr (checkedAdd stake.pendingRewards pending) (err .overflow)

def rewardDebtFor (stakedAmount : U64) (pool : StakingPool) : Except ProgramError U128 :=
  okOr (checkedMul (stakedAmount.setWidth 128) pool.accumulatedRewardPerToken) (err .overflow)

/-- `-=` and `+=` on the balances; what wraps around is left to the runtime's final check. -/
def payFrom (pool staker : Pubkey) (amount : U64) (f : Frame) : Frame :=
  let debited := f.view.setLamports pool ((f.view pool).lamports-amount)
  {f with view := debited.setLamports staker ((debited staker).lamports+amount)}

def poolPda (h : Host) : Pubkey := (h.findProgramAddress [poolSeed] h.programId).1

def processInitializePool (h : Host) (accounts : List AccountInfo) (baseRewardRateBps : U64)
    (f : Frame) : ProgramResult :=
  match accounts with
  | authority::poolAccount::stPrismMint::_system::_ => do
    requireSigner authority
    require (poolPda h=poolAccount.key) .invalidSeeds
    let iv : Invocation := ⟨h.programId,accounts⟩
    let f ← iv.invoke [authority.key,poolAccount.key] (iv.createAccount authority.key
      poolAccount.key (h.minimumBalance poolLen) poolLen) f
    f.store poolCodec ⟨true,authority.key,stPrismMint.key,0#64,0#128,0#64,0#64,baseRewardRateBps,
      0#64,(h.findProgramAddress [poolSeed] h.programId).2⟩ poolAccount.key
  | _ => notEnoughKeys

def unlockTime (now : I64) (lockTier : LockTier) : Except ProgramError I64 :=
  if 0<lockTier.lockDurationSeconds.toInt then
    okOr (checkedAddSigned now lockTier.lockDurationSeconds) (err .overflow)
  else .ok 0#64

/-- The position as it is first stored. Its reward debt is zero whatever the accumulator is. -/
def newStake (h : Host) (staker : Pubkey) (amount : U64) (lockTier : LockTier) (now unlock : I64)
    (autoCompound liquidStaking : Bool) : StakeAccount :=
  ⟨true,staker,0#256,amount,0#128,0#64,lockTier,now,unlock,autoCompound,liquidStaking,0#64,0#64,
    (h.findProgramAddress [stakeSeed,staker.bytes] h.programId).2⟩

def createStake (h : Host) (clock : Clock) (accounts : List AccountInfo) (staker key : Pubkey)
    (amount : U64) (lockTier : LockTier) (autoCompound liquidStaking : Bool) (f : Frame) :
    ProgramResult := do
  let iv : Invocation := ⟨h.programId,accounts⟩
  let f ← iv.invoke [staker,key]
    (iv.createAccount staker key (h.minimumBalance stakeLen) stakeLen) f
  let unlock ← unlockTime clock.unixTimestamp lockTier
  f.store stakeCodec (newStake h staker amount lockTier clock.unixTimestamp unlock autoCompound
    liquidStaking) key

def topUpStake (staker key : Pubkey) (pool : StakingPool) (amount : U64) (f : Frame) :
    ProgramResult := do
  let stake ← loadOwnStake f key staker
  let pendingRewards ← settle stake pool
  let stakedAmount ← okOr (checkedAdd stake.stakedAmount amount) (err .overflow)
  let rewardDebt ← rewardDebtFor stakedAmount pool
  f.store stakeCodec {stake with
    pendingRewards := pendingRewards
    stakedAmount := stakedAmount
    rewardDebt := rewardDebt} key

/-- Without data there is no position yet. -/
def loadOrCreateStake (h : Host) (clock : Clock) (accounts : List AccountInfo)
    (staker key : Pubkey) (pool : StakingPool) (amount : U64) (lockTier : LockTier)
    (autoCompound liquidStaking : Bool) (f : Frame) : ProgramResult :=
  if (f.view key).data=[] then
    createStake h clock accounts staker key amount lockTier autoCompound liquidStaking f
  else topUpStake staker key pool amount f

def processStake (h : Host) (clock : Clock) (accounts : List AccountInfo) (amount : U64)
    (lockTier : LockTier) (autoCompound liquidStaking : Bool) (f : Frame)  : ProgramResult :=
  match accounts with
  | staker::stakeAccount::poolAccount::clockSysvar::_system::_ => do
    requireSigner staker
    h.requireClock clockSysvar
    require ((h.findProgramAddress [stakeSeed,staker.key.bytes] h.programId).1=stakeAccount.key)
      .invalidSeeds
    let pool ← loadPool f poolAccount.key
    require (pool.isInitialized=true) (err .notInitialized)
    let f ← loadOrCreateStake h clock accounts staker.key stakeAccount.key pool amount lockTier
      autoCompound liquidStaking f
    let iv : Invocation := ⟨h.programId,accounts⟩
    let f ← iv.invoke [staker.key,poolAccount.key] (iv.transfer staker.key poolAccount.key amount) f
    let totalStaked ← okOr (checkedAdd pool.totalStaked amount) (err .overflow)
    f.store poolCodec {pool with totalStaked := totalStaked} poolAccount.key
  | _ => notEnoughKeys

def processUnstake (h : Host) (clock : Clock) (accounts : List AccountInfo) (amount : U64)
    (f : Frame) : ProgramResult :=
  match accounts with
  | staker::stakeAccount::poolAccount::clockSysvar::_system::_ => do
    requireSigner staker
    h.requireClock clockSysvar
    let stake ← loadOwnStake f stakeAccount.key staker.key
    require (¬(0< stake.unlockTimestamp.toInt ∧
      clock.unixTimestamp.toInt< stake.unlockTimestamp.toInt)) (err .lockNotExpired)
    require (amount.toNat≤ stake.stakedAmount.toNat) (err .insufficientStake)
    let pool ← loadPool f poolAccount.key
    let pendingRewards ← settle stake pool
    let stakedAmount ← okOr (checkedSub stake.stakedAmount amount) (err .overflow)
    let rewardDebt ← rewardDebtFor stakedAmount pool
    let f ← f.store stakeCodec {stake with
      pendingRewards := pendingRewards
      stakedAmount := stakedAmount
      rewardDebt := rewardDebt} stakeAccount.key
    let f := payFrom poolAccount.key staker.key amount f
    let totalStaked ← okOr (checkedSub pool.totalStaked amount) (err .overflow)
    f.store poolCodec {pool with totalStaked := totalStaked} poolAccount.key
  | _ => notEnoughKeys

def insuranceCut (claimable : U64) : Except ProgramError U64 := do
  let product ← okOr (checkedMul claimable insuranceBps) (err .overflow)
  pure (product/bpsDenominator)

def distribute (poolKey staker : Pubkey) (netReward : U64) (stake : StakeAccount)
    (pool : StakingPool) (f : Frame) : Except ProgramError (StakeAccount×StakingPool×Frame) :=
  if stake.autoCompound then do
    let stakedAmount ← okOr (checkedAdd stake.stakedAmount netReward) (err .overflow)
    let totalStaked ← okOr (checkedAdd pool.totalStaked netReward) (err .overflow)
    pure ({stake with stakedAmount := stakedAmount},{pool with totalStaked := totalStaked},f)
  else .ok (stake,pool,payFrom poolKey staker netReward f)

def processClaimRewards (accounts : List AccountInfo) (f : Frame) : ProgramResult :=
  match accounts with
  | staker::stakeAccount::poolAccount::_clock::_system::_ => do
    requireSigner staker
    let stake ← loadOwnStake f stakeAccount.key staker.key
    let pool ← loadPool f poolAccount.key
    let claimable ← settle stake pool
    require (claimable≠0#64) (err .noRewards)
    let cut ← insuranceCut claimable
    let netReward ← okOr (checkedSub claimable cut) (err .overflow)
    let insuranceBalance ← okOr (checkedAdd pool.insuranceBalance cut) (err .overflow)
    let (stake,pool,f) ← distribute poolAccount.key staker.key netReward stake
      {pool with insuranceBalance := insuranceBalance} f
    let rewardDebt ← rewardDebtFor stake.stakedAmount pool
    let f ← f.store stakeCodec {stake with pendingRewards := 0#64, rewardDebt := rewardDebt}
      stakeAccount.key
    f.store poolCodec pool poolAccount.key
  | _ => notEnoughKeys

def processDelegate (accounts : List AccountInfo) (validator : Pubkey) (commissionBps : U64)
    (f : Frame) : ProgramResult :=
  match accounts with
  | staker::stakeAccount::_validator::_ => do
    requireSigner staker
    let stake ← loadOwnStake f stakeAccount.key staker.key
    f.store stakeCodec {stake with
      delegatedValidator := validator
      validatorCommissionBps := commissionBps} stakeAccount.key
  | _ => notEnoughKeys

def processToggleAutoCompound (accounts : List AccountInfo) (f : Frame)  : ProgramResult :=
  match accounts with
  | staker::stakeAccount::_ => do
    requireSigner staker
    let stake ← loadOwnStake f stakeAccount.key staker.key
    f.store stakeCodec {stake with autoCompound := !stake.autoCompound} stakeAccount.key
  | _ => notEnoughKeys

def tokenData (index : Byte) (amount : U64) : List Byte := index::leBytes 8 amount.toNat

/-- The call as the two instruction builders lay it out: the first two accounts are to be
writable, so the caller must have been passed them as such, and the authority only signs. -/
def callToken (e : Env) (iv : Invocation) (tokenProgram : Pubkey) (index : Byte)
    (first second authority : Pubkey) (amount : U64) (b : Bank) : Except ProgramError Bank := do
  require (iv.writable first ∧ iv.writable second) .privilegeEscalation
  e.tokenCall tokenProgram (tokenData index amount) [first,second,authority] b

def processMintStPrism (e : Env) (accounts : List AccountInfo) (f : Frame)  : ProgramResult :=
  match accounts with
  | staker::stakeAccount::stPrismMint::stakerTokenAccount::mintAuthority::tokenProgram::_ => do
    requireSigner staker
    let stake ← loadOwnStake f stakeAccount.key staker.key
    require (stake.liquidStaking=true) (err .liquidStakingNotEnabled)
    let mintable ← okOr (checkedSub stake.stakedAmount stake.stPrismMinted) (err .overflow)
    if mintable=0#64 then pure f
    else
      require ((e.findProgramAddress [stPrismAuthoritySeed] e.programId).1=
        mintAuthority.key) .invalidSeeds
      let iv : Invocation := ⟨e.programId,accounts⟩
      let f ← iv.invoke [stPrismMint.key,stakerTokenAccount.key,mintAuthority.key]
        (callToken e iv tokenProgram.key 7#8 stPrismMint.key stakerTokenAccount.key
          mintAuthority.key mintable) f
      let minted ← okOr (checkedAdd stake.stPrismMinted mintable) (err .overflow)
      f.store stakeCodec {stake with stPrismMinted := minted} stakeAccount.key
  | _ => notEnoughKeys

def processBurnStPrism (e : Env) (accounts : List AccountInfo) (amount : U64) (f : Frame) :
    ProgramResult :=
  match accounts with
  | staker::stakeAccount::stPrismMint::stakerTokenAccount::tokenProgram::_ => do
    requireSigner staker
    let stake ← loadOwnStake f stakeAccount.key staker.key
    require (amount.toNat≤ stake.stPrismMinted.toNat) (err .insufficientStPrism)
    let iv : Invocation := ⟨e.programId,accounts⟩
    let f ← iv.invoke [stakerTokenAccount.key,stPrismMint.key,staker.key]
      (callToken e iv tokenProgram.key 8#8 stakerTokenAccount.key stPrismMint.key
        staker.key amount) f
    let minted ← okOr (checkedSub stake.stPrismMinted amount) (err .overflow)
    f.store stakeCodec {stake with stPrismMinted := minted} stakeAccount.key
  | _ => notEnoughKeys

/-- The insurance pays first; the position loses the rest. Its reward debt stays as it was. -/
def processSlash (accounts : List AccountInfo) (amount : U64) (f : Frame)  : ProgramResult :=
  match accounts with
  | authority::stakeAccount::poolAccount::_ => do
    requireSigner authority
    let pool ← loadPool f poolAccount.key
    require (pool.authority=authority.key) (err .unauthorized)
    let stake ← loadStake f stakeAccount.key
    let slashAmount := umin amount stake.stakedAmount
    let insuranceCover := umin slashAmount pool.insuranceBalance
    let actualSlash ← okOr (checkedSub slashAmount insuranceCover) (err .overflow)
    let insuranceBalance ← okOr (checkedSub pool.insuranceBalance insuranceCover) (err .overflow)
    let stakedAmount ← okOr (checkedSub stake.stakedAmount actualSlash) (err .overflow)
    let totalStaked ← okOr (checkedSub pool.totalStaked actualSlash) (err .overflow)
    let totalSlashed ← okOr (checkedAdd pool.totalSlashed slashAmount) (err .overflow)
    let f ← f.store stakeCodec {stake with stakedAmount := stakedAmount} stakeAccount.key
    f.store poolCodec {pool with
      insuranceBalance := insuranceBalance
      totalStaked := totalStaked
      totalSlashed := totalSlashed} poolAccount.key
  | _ => notEnoughKeys

def totalReward (pool : StakingPool) (slotsElapsed : U64) : Except ProgramError U128 := do
  let yearly ← okOr (checkedMul (pool.totalStaked.setWidth 128)
    (pool.baseRewardRateBps.setWidth 128)) (err .overflow)
  let product ← okOr (checkedMul yearly (slotsElapsed.setWidth 128)) (err .overflow)
  pure (product/bpsDenominator.setWidth 128/slotsPerYear)

def accumulate (pool : StakingPool) (reward : U128) : Except ProgramError U128 :=
  if 0< reward.toNat then do
    let scaled ← okOr (checkedMul reward rewardScale) (err .overflow)
    okOr (checkedAdd pool.accumulatedRewardPerToken (scaled/pool.totalStaked.setWidth 128))
      (err .overflow)
  else .ok pool.accumulatedRewardPerToken

def processUpdateRewards (h : Host) (clock : Clock) (accounts : List AccountInfo) (f : Frame) :
    ProgramResult :=
  match accounts with
  | poolAccount::clockSysvar::_ => do
    h.requireClock clockSysvar
    let pool ← loadPool f poolAccount.key
    require (pool.isInitialized=true) (err .notInitialized)
    if pool.totalStaked=0#64 then
      f.store poolCodec {pool with lastUpdateSlot := clock.slot} poolAccount.key
    else if saturatingSub clock.slot pool.lastUpdateSlot=0#64 then pure f
    else
      let reward ← totalReward pool (saturatingSub clock.slot pool.lastUpdateSlot)
      let accumulated ← accumulate pool reward
      f.store poolCodec {pool with
        accumulatedRewardPerToken := accumulated
        lastUpdateSlot := clock.slot} poolAccount.key
  | _ => notEnoughKeys

def processInstruction (e : Env) (clock : Clock) (accounts : List AccountInfo) :
    Instruction → Frame → ProgramResult
  | .initializePool rate => processInitializePool e accounts rate
  | .stake amount lockTier autoCompound liquidStaking =>
      processStake e clock accounts amount lockTier autoCompound liquidStaking
  | .unstake amount => processUnstake e clock accounts amount
  | .claimRewards => processClaimRewards accounts
  | .delegate validator commissionBps => processDelegate accounts validator commissionBps
  | .toggleAutoCompound => processToggleAutoCompound accounts
  | .mintStPrism => processMintStPrism e accounts
  | .burnStPrism amount => processBurnStPrism e accounts amount
  | .slash amount => processSlash accounts amount
  | .updateRewards => processUpdateRewards e clock accounts

def program (e : Env) : Program Instruction := ⟨e.programId,processInstruction e⟩

end PrismChain.Staking
