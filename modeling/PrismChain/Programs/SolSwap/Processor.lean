import PrismChain.Programs.SolSwap.State

namespace PrismChain.SolSwap

open FixedWidth

inductive Instruction where
  | initializePool (feeNumerator feeDenominator protocolFeeNumerator : U64)
  | addLiquidity (amountA amountB minLpTokens : U64)
  | removeLiquidity (lpAmount minAmountA minAmountB : U64)
  | swap (amountIn minimumAmountOut : U64) (swapDirection : SwapDirection)
  deriving DecidableEq

/-- The front of the account is sliced out, which fails on one that is too short. Nobody asks who
owns it. -/
def loadPool (f : Frame) (k : Pubkey) : Except ProgramError PoolState := do
  require (poolLen≤(f.view k).data.length) .programFailedToComplete
  let pool ← okOr (poolCodec.tryFromSlice ((f.view k).data.take poolLen)) .invalidAccountData
  require (pool.isInitialized=true) (err .notInitialized)
  pure pool

def processInitializePool (accounts : List AccountInfo)
    (feeNumerator feeDenominator protocolFeeNumerator : U64) (f : Frame)  : ProgramResult :=
  match accounts with
  | poolAccount::tokenAMint::tokenBMint::_vaultA::_vaultB::lpMint::authority::_system::_token::
      _rent::_ => do
    requireSigner authority
    require (¬(feeDenominator=0#64 ∨ feeDenominator.toNat<feeNumerator.toNat))
      (err .invalidFeeConfig)
    require (protocolFeeNumerator.toNat≤feeNumerator.toNat) (err .invalidFeeConfig)
    require (tokenAMint.key≠tokenBMint.key) (err .identicalMints)
    require (poolLen≤(f.view poolAccount.key).data.length) .accountDataTooSmall
    require ((f.view poolAccount.key).data[0]?=some 0#8) (err .alreadyInitialized)
    f.store poolCodec ⟨true,0#8,tokenAMint.key,tokenBMint.key,0#64,0#64,lpMint.key,0#64,
      feeNumerator,feeDenominator,protocolFeeNumerator,authority.key,0#128,0#128⟩ poolAccount.key
  | _ => notEnoughKeys

/-- The pool after a deposit; no tokens are moved. -/
def deposited (pool : PoolState) (amountA amountB minLpTokens : U64) :
    Except ProgramError PoolState := do
  let lpTokens ← calculateLpTokens amountA amountB pool.tokenAReserve
    pool.tokenBReserve pool.lpSupply
  require (minLpTokens.toNat≤lpTokens.toNat) (err .insufficientLpMinted)
  let reserveA ← okOr (checkedAdd pool.tokenAReserve amountA) (err .mathOverflow)
  let reserveB ← okOr (checkedAdd pool.tokenBReserve amountB) (err .mathOverflow)
  let supply ← okOr (checkedAdd pool.lpSupply lpTokens) (err .mathOverflow)
  pure {pool with tokenAReserve := reserveA, tokenBReserve := reserveB, lpSupply := supply}

def processAddLiquidity (accounts : List AccountInfo) (amountA amountB minLpTokens : U64)
    (f : Frame) : ProgramResult :=
  match accounts with
  | poolAccount::_vaultA::_vaultB::_lpMint::_userA::_userB::_userLp::authority::_token::_ => do
    requireSigner authority
    let pool ← loadPool f poolAccount.key
    let pool ← deposited pool amountA amountB minLpTokens
    f.store poolCodec pool poolAccount.key
  | _ => notEnoughKeys

def withdrawn (pool : PoolState) (lpAmount minAmountA minAmountB : U64) :
    Except ProgramError PoolState := do
  require (lpAmount.toNat≤pool.lpSupply.toNat) (err .insufficientLpBalance)
  let (amountA,amountB) ← calculateWithdrawal lpAmount pool.lpSupply pool.tokenAReserve
    pool.tokenBReserve
  require (¬(amountA.toNat< minAmountA.toNat ∨ amountB.toNat< minAmountB.toNat))
    (err .slippageExceeded)
  let reserveA ← okOr (checkedSub pool.tokenAReserve amountA) (err .mathOverflow)
  let reserveB ← okOr (checkedSub pool.tokenBReserve amountB) (err .mathOverflow)
  let supply ← okOr (checkedSub pool.lpSupply lpAmount) (err .mathOverflow)
  pure {pool with tokenAReserve := reserveA, tokenBReserve := reserveB, lpSupply := supply}

def processRemoveLiquidity (accounts : List AccountInfo) (lpAmount minAmountA minAmountB : U64)
    (f : Frame) : ProgramResult :=
  match accounts with
  | poolAccount::_vaultA::_vaultB::_lpMint::_userA::_userB::_userLp::authority::_token::_ => do
    requireSigner authority
    let pool ← loadPool f poolAccount.key
    let pool ← withdrawn pool lpAmount minAmountA minAmountB
    f.store poolCodec pool poolAccount.key
  | _ => notEnoughKeys

def protocolFee (pool : PoolState) (amountIn : U64) : Except ProgramError U64 := do
  let product ← okOr (checkedMul (amountIn.setWidth 128)
    (pool.protocolFeeNumerator.setWidth 128)) (err .mathOverflow)
  let fee ← okOr (checkedDiv product (pool.feeDenominator.setWidth 128)) (err .mathOverflow)
  pure (fee.setWidth 64)

def reservesFor (pool : PoolState) : SwapDirection → U64×U64
  | .aToB => (pool.tokenAReserve,pool.tokenBReserve)
  | .bToA => (pool.tokenBReserve,pool.tokenAReserve)

def exchanged (pool : PoolState) (amountIn amountOut : U64) :
    SwapDirection → Except ProgramError PoolState
  | .aToB => do
    let reserveA ← okOr (checkedAdd pool.tokenAReserve amountIn) (err .mathOverflow)
    let reserveB ← okOr (checkedSub pool.tokenBReserve amountOut) (err .mathOverflow)
    let volume ← okOr (checkedAdd pool.cumulativeVolumeA (amountIn.setWidth 128))
      (err .mathOverflow)
    pure {pool with
      tokenAReserve := reserveA
      tokenBReserve := reserveB
      cumulativeVolumeA := volume}
  | .bToA => do
    let reserveB ← okOr (checkedAdd pool.tokenBReserve amountIn) (err .mathOverflow)
    let reserveA ← okOr (checkedSub pool.tokenAReserve amountOut) (err .mathOverflow)
    let volume ← okOr (checkedAdd pool.cumulativeVolumeB (amountIn.setWidth 128))
      (err .mathOverflow)
    pure {pool with
      tokenAReserve := reserveA
      tokenBReserve := reserveB
      cumulativeVolumeB := volume}

def swapped (pool : PoolState) (amountIn minimumAmountOut : U64) (swapDirection : SwapDirection) :
    Except ProgramError PoolState := do
  let (reserveIn,reserveOut) := reservesFor pool swapDirection
  let (amountOut,_totalFee) ← calculateSwapOutput amountIn reserveIn reserveOut pool.feeNumerator
    pool.feeDenominator
  require (minimumAmountOut.toNat≤amountOut.toNat) (err .slippageExceeded)
  let _protocolFee ← protocolFee pool amountIn
  exchanged pool amountIn amountOut swapDirection

def processSwap (accounts : List AccountInfo) (amountIn minimumAmountOut : U64)
    (swapDirection : SwapDirection) (f : Frame) : ProgramResult :=
  match accounts with
  | poolAccount::_vaultSrc::_vaultDst::_userSrc::_userDst::_protocolDst::authority::_token::_ => do
    requireSigner authority
    let pool ← loadPool f poolAccount.key
    let pool ← swapped pool amountIn minimumAmountOut swapDirection
    f.store poolCodec pool poolAccount.key
  | _ => notEnoughKeys

def processInstruction (accounts : List AccountInfo) :
    Instruction → Frame → ProgramResult
  | .initializePool num den protocol => processInitializePool accounts num den protocol
  | .addLiquidity amountA amountB minLpTokens =>
      processAddLiquidity accounts amountA amountB minLpTokens
  | .removeLiquidity lpAmount minAmountA minAmountB =>
      processRemoveLiquidity accounts lpAmount minAmountA minAmountB
  | .swap amountIn minimumAmountOut direction =>
      processSwap accounts amountIn minimumAmountOut direction

def program (id : Pubkey) : Program Instruction := ⟨id,fun _ => processInstruction⟩

end PrismChain.SolSwap
