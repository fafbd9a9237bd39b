import PrismChain.Framework.Records

namespace PrismChain.SolSwap

open FixedWidth

inductive SwapDirection where
  | aToB
  | bToA
  deriving DecidableEq

structure PoolState where
  isInitialized : Bool
  bump : U8
  tokenAMint : Pubkey
  tokenBMint : Pubkey
  tokenAReserve : U64
  tokenBReserve : U64
  lpMint : Pubkey
  lpSupply : U64
  feeNumerator : U64
  feeDenominator : U64
  protocolFeeNumerator : U64
  authority : Pubkey
  cumulativeVolumeA : U128
  cumulativeVolumeB : U128
  deriving DecidableEq

inductive SwapError where
  | alreadyInitialized
  | notInitialized
  | invalidFeeConfig
  | zeroDeposit
  | zeroSwapInput
  | slippageExceeded
  | zeroLpBurn
  | insufficientLpBalance
  | emptyReserves
  | mathOverflow
  | identicalMints
  | invalidAccountOwner
  | insufficientLpMinted
  deriving DecidableEq

def err (e : SwapError) : ProgramError := .custom (BitVec.ofNat 32 e.ctorIdx)

open Codec

def poolCodec : Codec PoolState :=
  (bool.pair (u8.pair (pubkeyCodec.pair (pubkeyCodec.pair (u64.pair (u64.pair (pubkeyCodec.pair
    (u64.pair (u64.pair (u64.pair (u64.pair (pubkeyCodec.pair (u128.pair u128))))))))))))).record
    (fun (i,u,m,n,a,b,l,s,f,d,p,o,v,w) => ⟨i,u,m,n,a,b,l,s,f,d,p,o,v,w⟩)
    (fun p => (p.isInitialized,p.bump,p.tokenAMint,p.tokenBMint,p.tokenAReserve,p.tokenBReserve,
      p.lpMint,p.lpSupply,p.feeNumerator,p.feeDenominator,p.protocolFeeNumerator,p.authority,
      p.cumulativeVolumeA,p.cumulativeVolumeB))

def poolLen : Nat := 1+1+32+32+8+8+32+8+8+8+8+32+16+16

theorem pool_size : poolCodec.HasSize poolLen := fun _ => by simp [poolCodec,poolLen]

theorem pool_head (p : PoolState) (rest : List Byte) :
    (poolCodec.encode p++rest)[0]?=some (if p.isInitialized then 1#8 else 0#8) := by
  change ((bool.encode p.isInitialized++_)++rest)[0]?=_
  cases p.isInitialized <;> rfl

/-- The loop of `sqrt`. Its first value falls in every round, so that value bounds the rounds. -/
def sqrtLoop (value : U128) : Nat → U128 → U128 → Option U128
  | 0,x,_ => some x
  | fuel+1,x,y =>
    if y.toNat<x.toNat then
      (checkedDiv value y).bind fun q => sqrtLoop value fuel y ((y+q)/2#128)
    else some x

/-- Integer square root via Newton's method; a division by zero would end the program. -/
def sqrt (value : U128) : Except ProgramError U64 :=
  if value=0#128 then .ok 0#64
  else do
    let x ← okOr (sqrtLoop value value.toNat value ((value+1#128)/2#128)) .programFailedToComplete
    pure (x.setWidth 64)

def calculateSwapOutput (amountIn reserveIn reserveOut feeNumerator feeDenominator : U64) :
    Except ProgramError (U64×U64) := do
  require (amountIn≠0#64) (err .zeroSwapInput)
  require (¬(reserveIn=0#64 ∨ reserveOut=0#64)) (err .emptyReserves)
  let kept ← okOr (checkedSub (feeDenominator.setWidth 128) (feeNumerator.setWidth 128))
    (err .mathOverflow)
  let effectiveIn ← okOr (checkedMul (amountIn.setWidth 128) kept) (err .mathOverflow)
  let numerator ← okOr (checkedMul effectiveIn (reserveOut.setWidth 128)) (err .mathOverflow)
  let scaled ← okOr (checkedMul (reserveIn.setWidth 128) (feeDenominator.setWidth 128))
    (err .mathOverflow)
  let denominator ← okOr (checkedAdd scaled effectiveIn) (err .mathOverflow)
  let amountOut ← okOr (checkedDiv numerator denominator) (err .mathOverflow)
  let fee ← okOr (checkedMul (amountIn.setWidth 128) (feeNumerator.setWidth 128))
    (err .mathOverflow)
  let totalFee ← okOr (checkedDiv fee (feeDenominator.setWidth 128)) (err .mathOverflow)
  pure (amountOut.setWidth 64,totalFee.setWidth 64)

def firstLpTokens (amountA amountB : U64) : Except ProgramError U64 := do
  let product ← okOr (checkedMul (amountA.setWidth 128) (amountB.setWidth 128)) (err .mathOverflow)
  let lp ← sqrt product
  require (lp≠0#64) (err .mathOverflow)
  pure lp

def proportionalLpTokens (amountA amountB reserveA reserveB lpSupply : U64) :
    Except ProgramError U64 := do
  let supply : U128 := lpSupply.setWidth 128
  let productA ← okOr (checkedMul (amountA.setWidth 128) supply) (err .mathOverflow)
  let lpA ← okOr (checkedDiv productA (reserveA.setWidth 128)) (err .mathOverflow)
  let productB ← okOr (checkedMul (amountB.setWidth 128) supply) (err .mathOverflow)
  let lpB ← okOr (checkedDiv productB (reserveB.setWidth 128)) (err .mathOverflow)
  let lp : U64 := (umin lpA lpB).setWidth 64
  require (lp≠0#64) (err .mathOverflow)
  pure lp

def calculateLpTokens (amountA amountB reserveA reserveB lpSupply : U64) :
    Except ProgramError U64 := do
  require (¬(amountA=0#64 ∨ amountB=0#64)) (err .zeroDeposit)
  if lpSupply=0#64 then firstLpTokens amountA amountB
  else proportionalLpTokens amountA amountB reserveA reserveB lpSupply

def calculateWithdrawal (lpAmount lpSupply reserveA reserveB : U64) :
    Except ProgramError (U64×U64) := do
  require (lpAmount≠0#64) (err .zeroLpBurn)
  let lp : U128 := lpAmount.setWidth 128
  let supply : U128 := lpSupply.setWidth 128
  let productA ← okOr (checkedMul lp (reserveA.setWidth 128)) (err .mathOverflow)
  let amountA ← okOr (checkedDiv productA supply) (err .mathOverflow)
  let productB ← okOr (checkedMul lp (reserveB.setWidth 128)) (err .mathOverflow)
  let amountB ← okOr (checkedDiv productB supply) (err .mathOverflow)
  pure (amountA.setWidth 64,amountB.setWidth 64)

end PrismChain.SolSwap
