import PrismChain.Framework.Execution

namespace PrismChain.Scusd

open FixedWidth

def collateralRatioMinBps : U64 := 15000#64
def liquidationRatioBps : U64 := 12000#64
def stabilityFeeRateBps : U64 := 200#64
def liquidationDiscountBps : U64 := 500#64
def priceDecimals : U64 := 100000000#64
def secondsPerYear : U64 := 31557600#64

def globalStateSeed : List Byte := ascii ['s','c','u','s','d','_','g','l','o','b','a','l']
def vaultSeed : List Byte := ascii ['s','c','u','s','d','_','v','a','u','l','t']

structure GlobalState where
  authority : Pubkey
  scusdMint : Pubkey
  prismMint : Pubkey
  collateralPool : Pubkey
  totalCollateral : U64
  totalDebt : U64
  collateralRatioMin : U64
  liquidationRatio : U64
  stabilityFeeRate : U64
  bump : U8
  isInitialized : Bool
  deriving DecidableEq

structure Vault where
  owner : Pubkey
  collateralAmount : U64
  debtAmount : U64
  collateralRatio : U64
  lastUpdate : I64
  bump : U8
  isInitialized : Bool
  deriving DecidableEq

open Codec in
def globalCodec : Codec GlobalState :=
  (pubkeyCodec.pair (pubkeyCodec.pair (pubkeyCodec.pair (pubkeyCodec.pair (u64.pair (u64.pair
    (u64.pair (u64.pair (u64.pair (u8.pair bool)))))))))).record
    (fun (a,s,p,l,c,d,m,r,f,b,i) => ⟨a,s,p,l,c,d,m,r,f,b,i⟩)
    (fun g => (g.authority,g.scusdMint,g.prismMint,g.collateralPool,g.totalCollateral,g.totalDebt,
      g.collateralRatioMin,g.liquidationRatio,g.stabilityFeeRate,g.bump,g.isInitialized))

open Codec in
def vaultCodec : Codec Vault :=
  (pubkeyCodec.pair (u64.pair (u64.pair (u64.pair (i64.pair (u8.pair bool)))))).record
    (fun (o,c,d,r,l,b,i) => ⟨o,c,d,r,l,b,i⟩)
    (fun v => (v.owner,v.collateralAmount,v.debtAmount,v.collateralRatio,v.lastUpdate,v.bump,
      v.isInitialized))

def globalLen : Nat := 32+32+32+32+8+8+8+8+8+1+1
def vaultLen : Nat := 32+8+8+8+8+1+1

theorem global_size : globalCodec.HasSize globalLen := fun _ => by simp [globalCodec,globalLen]

theorem vault_size : vaultCodec.HasSize vaultLen := fun _ => by simp [vaultCodec,vaultLen]

theorem global_ne_vault (g : GlobalState) (v : Vault) :
    globalCodec.encode g≠vaultCodec.encode v := by
  intro h
  have hlen := congrArg List.length h
  rw [global_size g,vault_size v] at hlen
  cases hlen

/-- The ratio in basis points; products that do not fit count as zero, and as one below the
line. -/
def calculateCollateralRatio (collateral debt prismPrice : U64) : U64 :=
  -- without debt the ratio is infinite
  if debt=0#64 then BitVec.allOnes 64
  else
    let collateralValue :=
      (checkedMul (collateral.setWidth 128) (prismPrice.setWidth 128)).getD 0#128
    let debtValue := (checkedMul (debt.setWidth 128) (priceDecimals.setWidth 128)).getD 1#128
    let ratio := (checkedMul collateralValue 10000#128).getD 0#128/debtValue
    ratio.setWidth 64

/-- A minimum ratio of zero is a division by zero. -/
def calculateMaxMint (collateral currentDebt prismPrice minRatioBps : U64) :
    Except ProgramError U64 := do
  let collateralValue := (checkedMul (collateral.setWidth 128) (prismPrice.setWidth 128)).getD 0#128
  let scaled := (checkedMul collateralValue 10000#128).getD 0#128
  let maxDebt ← okOr (checkedDiv scaled (priceDecimals.setWidth 128*minRatioBps.setWidth 128))
    .programFailedToComplete
  pure (saturatingSub (maxDebt.setWidth 64) currentDebt)

def calculateStabilityFee (debt rateBps elapsedSeconds : U64) : U64 :=
  if debt=0#64 ∨ elapsedSeconds=0#64 then 0#64
  else
    let product := (checkedMul (debt.setWidth 128) (rateBps.setWidth 128)).getD 0#128
    let product := (checkedMul product (elapsedSeconds.setWidth 128)).getD 0#128
    (product/(10000#128*secondsPerYear.setWidth 128)).setWidth 64

/-- The fee goes to the vault's debt; the total in the global state stays as it is. -/
def accrueStabilityFee (v : Vault) (g : GlobalState) (now : I64) : Vault :=
  if v.debtAmount=0#64 ∨ now.toInt≤v.lastUpdate.toInt then v
  else
    let fee := calculateStabilityFee v.debtAmount g.stabilityFeeRate (now-v.lastUpdate)
    if 0<fee.toNat then {v with debtAmount := saturatingAdd v.debtAmount fee} else v

section Accrual

variable (v : Vault) (g : GlobalState) (now : I64)

@[simp] theorem accrueStabilityFee_collateral :
    (accrueStabilityFee v g now).collateralAmount=v.collateralAmount := by
  unfold accrueStabilityFee
  dsimp only
  split_ifs <;> rfl

@[simp] theorem accrueStabilityFee_isInitialized :
    (accrueStabilityFee v g now).isInitialized=v.isInitialized := by
  unfold accrueStabilityFee
  dsimp only
  split_ifs <;> rfl

end Accrual

/-- A header of 64 bytes is skipped and the next eight are taken for the price. -/
def readOraclePrice (data : List Byte) : Except ProgramError U64 := do
  require (72≤data.length) .invalidAccountData
  let price : U64 := BitVec.ofNat 64 (leValue ((data.drop 64).take 8))
  require (price≠0#64) .invalidAccountData
  pure price

end PrismChain.Scusd
