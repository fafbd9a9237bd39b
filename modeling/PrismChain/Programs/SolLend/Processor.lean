import PrismChain.Programs.SolLend.State

namespace PrismChain.SolLend

open FixedWidth

inductive Instruction where
  | initializeMarket
  | deposit (amount : U64)
  | withdraw (amount : U64)
  | borrow (amount : U64)
  | repay (amount : U64)
  | liquidate (amount : U64)
  | accrueInterest
  deriving DecidableEq

def defaultMarket : LendingMarket :=
  ⟨false,0#256,0#256,0#64,0#64,0#64,baseRateBps,0#64,0#64,ltvRatioBps,liquidationThresholdBps,
    liquidationBonusBps,indexScale,indexScale⟩

def openedMarket (m : LendingMarket) (authority tokenMint : Pubkey) (slot : U64) : LendingMarket :=
  {m with
    isInitialized := true
    authority := authority
    tokenMint := tokenMint
    lastUpdateSlot := slot}

/-- The defaults are for data that is no market; zeros of the right length are one. -/
def initializeMarket (clock : Clock) (accounts : List AccountInfo) (f : Frame)  : ProgramResult :=
  match accounts with
  | marketAccount::authority::tokenMint::_ => do
    requireSigner authority
    let market := (marketCodec.tryFromSlice (f.view marketAccount.key).data).getD defaultMarket
    require (market.isInitialized=false) (err .alreadyInitialized)
    f.store marketCodec
      (openedMarket market authority.key tokenMint.key clock.slot) marketAccount.key
  | _ => notEnoughKeys

def loadMarket (f : Frame) (k : Pubkey) : Except ProgramError LendingMarket := do
  let market ← okOr (marketCodec.tryFromSlice (f.view k).data) .borshIoError
  require (market.isInitialized=true) (err .notInitialized)
  pure market

def loadPosition (f : Frame) (k : Pubkey) : Except ProgramError UserPosition :=
  okOr (positionCodec.tryFromSlice (f.view k).data) .borshIoError

/-- Writing through the borrowed slice moves it past what was written. A market fills its account,
so when the position is in the same one nothing is left for it. -/
def storeBoth (x : LendingMarket×UserPosition) (market position : Pubkey) (f : Frame) :
    ProgramResult := do
  let f ← f.store marketCodec x.1 market
  require (position≠market) .borshIoError
  f.store positionCodec x.2 position

def finish (m : LendingMarket) (p : UserPosition) : LendingMarket×UserPosition :=
  (recalculateRates m,closePosition p (recalculateRates m))

def depositorPosition (m : LendingMarket) (market depositor : Pubkey) (data : List Byte) :
    UserPosition :=
  let p := (positionCodec.tryFromSlice data).getD
    ⟨false,depositor,market,0#64,0#64,m.cumulativeDepositIndex,m.cumulativeBorrowIndex,
      BitVec.allOnes 64⟩
  if p.isInitialized=false then
    {p with
      isInitialized := true
      owner := depositor
      market := market
      depositIndexSnapshot := m.cumulativeDepositIndex
      borrowIndexSnapshot := m.cumulativeBorrowIndex}
  else p

def deposited (m : LendingMarket) (p : UserPosition) (amount : U64) :
    Except ProgramError (LendingMarket×UserPosition) := do
  let p := settleUserInterest p m
  let balance ← okOr (checkedAdd p.depositedAmount amount) (err .mathOverflow)
  let total ← okOr (checkedAdd m.totalDeposits amount) (err .mathOverflow)
  pure (finish {m with totalDeposits := total} {p with depositedAmount := balance})

def deposit (accounts : List AccountInfo) (amount : U64) (f : Frame) : ProgramResult :=
  match accounts with
  | marketAccount::positionAccount::depositor::_ => do
    requireSigner depositor
    let market ← loadMarket f marketAccount.key
    let position := depositorPosition market marketAccount.key depositor.key
      (f.view positionAccount.key).data
    let x ← deposited market position amount
    storeBoth x marketAccount.key positionAccount.key f
  | _ => notEnoughKeys

def onOwnPosition
    (change : LendingMarket → UserPosition → Except ProgramError (LendingMarket×UserPosition))
    (accounts : List AccountInfo) (f : Frame) : ProgramResult :=
  match accounts with
  | marketAccount::positionAccount::owner::_ => do
    requireSigner owner
    let market ← loadMarket f marketAccount.key
    let position ← loadPosition f positionAccount.key
    require (position.owner=owner.key) (err .invalidAuthority)
    let x ← change market position
    storeBoth x marketAccount.key positionAccount.key f
  | _ => notEnoughKeys

def withdrawn (amount : U64) (m : LendingMarket) (p : UserPosition) :
    Except ProgramError (LendingMarket×UserPosition) := do
  let p := settleUserInterest p m
  require (amount.toNat≤p.depositedAmount.toNat) (err .insufficientDeposit)
  let newDeposited := saturatingSub p.depositedAmount amount
  require (p.borrowedAmount=0#64 ∨ bps.toNat≤
    (calculateHealthFactor newDeposited p.borrowedAmount m.liquidationThreshold).toNat)
    (err .insufficientCollateral)
  pure (finish {m with totalDeposits := saturatingSub m.totalDeposits amount}
    {p with depositedAmount := newDeposited})

def withdraw (accounts : List AccountInfo) (amount : U64) : Frame → ProgramResult :=
  onOwnPosition (withdrawn amount) accounts

/-- A product that does not fit allows no loan. -/
def maxBorrow (m : LendingMarket) (p : UserPosition) : U64 :=
  (checkedMul p.depositedAmount m.ltvRatio).getD 0#64/bps

def borrowed (amount : U64) (m : LendingMarket) (p : UserPosition) :
    Except ProgramError (LendingMarket×UserPosition) := do
  let p := settleUserInterest p m
  let newBorrowed ← okOr (checkedAdd p.borrowedAmount amount) (err .mathOverflow)
  require (newBorrowed.toNat≤(maxBorrow m p).toNat) (err .insufficientCollateral)
  let total ← okOr (checkedAdd m.totalBorrows amount) (err .mathOverflow)
  pure (finish {m with totalBorrows := total} {p with borrowedAmount := newBorrowed})

def borrow (accounts : List AccountInfo) (amount : U64) : Frame → ProgramResult :=
  onOwnPosition (borrowed amount) accounts

def repaid (amount : U64) (m : LendingMarket) (p : UserPosition) :
    Except ProgramError (LendingMarket×UserPosition) := do
  let p := settleUserInterest p m
  require (amount.toNat≤p.borrowedAmount.toNat) (err .repayExceedsDebt)
  pure (finish {m with totalBorrows := saturatingSub m.totalBorrows amount}
    {p with borrowedAmount := saturatingSub p.borrowedAmount amount})

def repay (accounts : List AccountInfo) (amount : U64) : Frame → ProgramResult :=
  onOwnPosition (repaid amount) accounts

def collateralSeized (m : LendingMarket) (p : UserPosition) (actualRepay : U64) : U64 :=
  umin ((checkedMul actualRepay ((checkedAdd bps m.liquidationBonus).getD bps)).getD
    (BitVec.allOnes 64)/bps) p.depositedAmount

def liquidated (repayAmount : U64) (m : LendingMarket) (p : UserPosition) :
    Except ProgramError (LendingMarket×UserPosition) := do
  let p := settleUserInterest p m
  let health := calculateHealthFactor p.depositedAmount p.borrowedAmount m.liquidationThreshold
  require (health.toNat<bps.toNat) (err .positionHealthy)
  let actualRepay := umin repayAmount p.borrowedAmount
  let seized := collateralSeized m p actualRepay
  pure (finish {m with
      totalBorrows := saturatingSub m.totalBorrows actualRepay
      totalDeposits := saturatingSub m.totalDeposits seized}
    {p with
      borrowedAmount := saturatingSub p.borrowedAmount actualRepay
      depositedAmount := saturatingSub p.depositedAmount seized})

/-- Anybody may liquidate: the signer is not compared with the owner. -/
def liquidate (accounts : List AccountInfo) (repayAmount : U64) (f : Frame)  : ProgramResult :=
  match accounts with
  | marketAccount::positionAccount::liquidator::_ => do
    requireSigner liquidator
    let market ← loadMarket f marketAccount.key
    let position ← loadPosition f positionAccount.key
    let x ← liquidated repayAmount market position
    storeBoth x marketAccount.key positionAccount.key f
  | _ => notEnoughKeys

def accrued (m : LendingMarket) (slotsElapsed now : U64) : LendingMarket :=
  let interest := interestAccrued m slotsElapsed
  let m := {m with
    cumulativeBorrowIndex := compoundIndex m.cumulativeBorrowIndex m.borrowRate slotsElapsed
    cumulativeDepositIndex := compoundIndex m.cumulativeDepositIndex m.depositRate slotsElapsed
    totalBorrows := saturatingAdd m.totalBorrows interest
    totalDeposits := saturatingAdd m.totalDeposits interest}
  {recalculateRates m with lastUpdateSlot := now}

def accrueInterest (clock : Clock) (accounts : List AccountInfo) (f : Frame)  : ProgramResult :=
  match accounts with
  | marketAccount::_ => do
    let market ← loadMarket f marketAccount.key
    if clock.slot.toNat≤ market.lastUpdateSlot.toNat then pure f
    else
      f.store marketCodec (accrued market (saturatingSub clock.slot market.lastUpdateSlot)
        clock.slot) marketAccount.key
  | _ => notEnoughKeys

def processInstruction (clock : Clock) (accounts : List AccountInfo) :
    Instruction → Frame → ProgramResult
  | .initializeMarket => initializeMarket clock accounts
  | .deposit amount => deposit accounts amount
  | .withdraw amount => withdraw accounts amount
  | .borrow amount => borrow accounts amount
  | .repay amount => repay accounts amount
  | .liquidate amount => liquidate accounts amount
  | .accrueInterest => accrueInterest clock accounts

def program (id : Pubkey) : Program Instruction := ⟨id,processInstruction⟩

end PrismChain.SolLend
