import PrismChain.Framework.Execution

namespace PrismChain.SolLend

open FixedWidth

def bps : U64 := 10000#64
def baseRateBps : U64 := 200#64
def slope1Bps : U64 := 400#64
def slope2Bps : U64 := 7500#64
def optimalUtilizationBps : U64 := 8000#64
def ltvRatioBps : U64 := 8000#64
def liquidationThresholdBps : U64 := 8500#64
def liquidationBonusBps : U64 := 500#64
def slotsPerYear : U64 := 78840000#64

def indexScale : U64 := 1000000000#64

inductive LendingError where
  | alreadyInitialized
  | notInitialized
  | insufficientCollateral
  | positionHealthy
  | insufficientDeposit
  | repayExceedsDebt
  | mathOverflow
  | invalidAuthority
  deriving DecidableEq

def err (e : LendingError) : ProgramError := .custom (BitVec.ofNat 32 e.ctorIdx)

structure LendingMarket where
  isInitialized : Bool
  authority : Pubkey
  tokenMint : Pubkey
  totalDeposits : U64
  totalBorrows : U64
  depositRate : U64
  borrowRate : U64
  lastUpdateSlot : U64
  utilizationRate : U64
  ltvRatio : U64
  liquidationThreshold : U64
  liquidationBonus : U64
  cumulativeDepositIndex : U64
  cumulativeBorrowIndex : U64
  deriving DecidableEq

structure UserPosition where
  isInitialized : Bool
  owner : Pubkey
  market : Pubkey
  depositedAmount : U64
  borrowedAmount : U64
  depositIndexSnapshot : U64
  borrowIndexSnapshot : U64
  healthFactor : U64
  deriving DecidableEq

open Codec in
def marketCodec : Codec LendingMarket :=
  (bool.pair (pubkeyCodec.pair (pubkeyCodec.pair (u64.pair (u64.pair (u64.pair (u64.pair (u64.pair
    (u64.pair (u64.pair (u64.pair (u64.pair (u64.pair u64))))))))))))).record
    (fun (i,a,t,d,b,r,s,l,u,v,h,n,x,y) => ⟨i,a,t,d,b,r,s,l,u,v,h,n,x,y⟩)
    (fun m => (m.isInitialized,m.authority,m.tokenMint,m.totalDeposits,m.totalBorrows,m.depositRate,
      m.borrowRate,m.lastUpdateSlot,m.utilizationRate,m.ltvRatio,m.liquidationThreshold,
      m.liquidationBonus,m.cumulativeDepositIndex,m.cumulativeBorrowIndex))

open Codec in
def positionCodec : Codec UserPosition :=
  (bool.pair (pubkeyCodec.pair (pubkeyCodec.pair (u64.pair (u64.pair (u64.pair (u64.pair
    u64))))))).record
    (fun (i,o,m,d,b,x,y,h) => ⟨i,o,m,d,b,x,y,h⟩)
    (fun p => (p.isInitialized,p.owner,p.market,p.depositedAmount,p.borrowedAmount,
      p.depositIndexSnapshot,p.borrowIndexSnapshot,p.healthFactor))

def marketLen : Nat := 1+32+32+8+8+8+8+8+8+8+8+8+8+8
def positionLen : Nat := 1+32+32+8+8+8+8+8

theorem market_size : marketCodec.HasSize marketLen := fun _ => by simp [marketCodec,marketLen]

theorem position_size :
    positionCodec.HasSize positionLen := fun _ => by simp [positionCodec,positionLen]

theorem market_ne_position (m : LendingMarket) (p : UserPosition) :
    marketCodec.encode m≠positionCodec.encode p := by
  intro h
  have hlen := congrArg List.length h
  rw [market_size m,position_size p] at hlen
  cases hlen

/-- The borrow rate for a utilization, with a kink at the optimal one. -/
def calculateInterestRate (utilizationBps : U64) : U64 :=
  if utilizationBps=0#64 then baseRateBps
  else if utilizationBps.toNat≤optimalUtilizationBps.toNat then
    let variablePart :=
      (checkedMul slope1Bps utilizationBps).getD (BitVec.allOnes 64)/optimalUtilizationBps
    (checkedAdd baseRateBps variablePart).getD (BitVec.allOnes 64)
  else
    let excess := saturatingSub utilizationBps optimalUtilizationBps
    let remaining := saturatingSub bps optimalUtilizationBps
    let steep := (checkedMul slope2Bps excess).getD (BitVec.allOnes 64)/remaining
    ((checkedAdd baseRateBps slope1Bps).bind fun v => checkedAdd v steep).getD (BitVec.allOnes 64)

def calculateUtilization (totalDeposits totalBorrows : U64) : U64 :=
  if totalDeposits=0#64 then 0#64
  else (checkedMul totalBorrows bps).getD (BitVec.allOnes 64)/totalDeposits

/-- Without debt the health is infinite. -/
def calculateHealthFactor (deposited borrowed liquidationThresholdBps : U64) : U64 :=
  if borrowed=0#64 then BitVec.allOnes 64
  else (checkedMul deposited liquidationThresholdBps).getD (BitVec.allOnes 64)/borrowed

/-- A product that does not fit leaves the index where it is. -/
def compoundIndex (currentIndex rateBps slotsElapsed : U64) : U64 :=
  let numerator := (checkedMul currentIndex rateBps).bind fun v => checkedMul v slotsElapsed
  let denominator := checkedMul bps slotsPerYear
  match numerator,denominator with
  | some n,some d => if 0<d.toNat then saturatingAdd currentIndex (n/d) else currentIndex
  | _,_ => currentIndex

/-- A balance at its snapshot, carried to the index; a product that does not fit leaves it. -/
def settledAmount (amount index snapshot : U64) : U64 :=
  if 0< snapshot.toNat ∧ 0<amount.toNat then
    ((checkedMul amount index).map fun v => v/snapshot).getD amount
  else amount

def settleUserInterest (p : UserPosition) (m : LendingMarket) : UserPosition :=
  {p with
    depositedAmount :=
      settledAmount p.depositedAmount m.cumulativeDepositIndex p.depositIndexSnapshot
    borrowedAmount := settledAmount p.borrowedAmount m.cumulativeBorrowIndex p.borrowIndexSnapshot
    depositIndexSnapshot := m.cumulativeDepositIndex
    borrowIndexSnapshot := m.cumulativeBorrowIndex}

def recalculateRates (m : LendingMarket) : LendingMarket :=
  let utilization := calculateUtilization m.totalDeposits m.totalBorrows
  let borrowRate := calculateInterestRate utilization
  {m with
    utilizationRate := utilization
    borrowRate := borrowRate
    depositRate := (checkedMul borrowRate utilization).getD 0#64/bps}

def closePosition (p : UserPosition) (m : LendingMarket) : UserPosition :=
  {p with
    healthFactor := calculateHealthFactor p.depositedAmount p.borrowedAmount m.liquidationThreshold
    depositIndexSnapshot := m.cumulativeDepositIndex
    borrowIndexSnapshot := m.cumulativeBorrowIndex}

/-- What the borrowers owe for `slotsElapsed` more slots; a product that does not fit counts as no
interest. -/
def interestAccrued (m : LendingMarket) (slotsElapsed : U64) : U64 :=
  (((checkedMul m.totalBorrows m.borrowRate).bind fun v => checkedMul v slotsElapsed).map
    fun v => v/(bps*slotsPerYear)).getD 0#64

end PrismChain.SolLend
