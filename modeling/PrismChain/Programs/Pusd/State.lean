import PrismChain.Framework.Execution

namespace PrismChain.Pusd

open FixedWidth

def minCollateralRatioBps : U64 := 15000#64
def liquidationThresholdBps : U64 := 12000#64
def liquidationPenaltyBps : U64 := 1000#64
def stabilityFeeAnnualBps : U64 := 200#64
def bpsDenominator : U64 := 10000#64
def secondsPerYear : U64 := 31557600#64
def minDebt : U64 := 10000000#64

def configSeed : List Byte := ascii ['p','u','s','d','_','c','o','n','f','i','g']
def vaultSeed : List Byte := ascii ['p','u','s','d','_','v','a','u','l','t']
def collateralSeed : List Byte :=
  ascii ['p','u','s','d','_','c','o','l','l','a','t','e','r','a','l']

inductive PusdError where
  | alreadyInitialized
  | notInitialized
  | belowMinCollateralRatio
  | notLiquidatable
  | invalidAmount
  | belowMinDebt
  | withdrawalWouldUndercollateralize
  | burnExceedsDebt
  | unauthorized
  | overflow
  | invalidPDA
  | invalidOraclePrice
  | insufficientCollateral
  | redemptionExceedsCollateral
  deriving DecidableEq

def err (e : PusdError) : ProgramError := .custom (BitVec.ofNat 32 e.ctorIdx)

def lift {α : Type} (x : Except PusdError α) : Except ProgramError α := x.mapError err

theorem lift_eq_ok : lift x=.ok a ↔ x=.ok a := by
  cases x <;> simp [lift,Except.mapError]

structure PusdConfig where
  isInitialized : Bool
  admin : Pubkey
  oracleFeed : Pubkey
  pusdMint : Pubkey
  totalPusdSupply : U64
  totalCollateralLocked : U64
  totalVaults : U64
  totalFeesCollected : U64
  isActive : Bool
  bump : U8
  deriving DecidableEq

structure Vault where
  isInitialized : Bool
  owner : Pubkey
  collateral : U64
  debt : U64
  accruedFee : U64
  lastFeeUpdate : I64
  createdAt : I64
  bump : U8
  nonce : U64
  deriving DecidableEq

open Codec in
def configCodec : Codec PusdConfig :=
  (bool.pair (pubkeyCodec.pair (pubkeyCodec.pair (pubkeyCodec.pair (u64.pair (u64.pair
    (u64.pair (u64.pair (bool.pair u8))))))))).record
    (fun (i,a,o,m,s,l,n,f,v,b) => ⟨i,a,o,m,s,l,n,f,v,b⟩)
    (fun c => (c.isInitialized,c.admin,c.oracleFeed,c.pusdMint,c.totalPusdSupply,
      c.totalCollateralLocked,c.totalVaults,c.totalFeesCollected,c.isActive,c.bump))

open Codec in
def vaultCodec : Codec Vault :=
  (bool.pair (pubkeyCodec.pair (u64.pair (u64.pair (u64.pair (i64.pair (i64.pair
    (u8.pair u64)))))))).record
    (fun (i,o,c,d,a,l,t,b,n) => ⟨i,o,c,d,a,l,t,b,n⟩)
    (fun v => (v.isInitialized,v.owner,v.collateral,v.debt,v.accruedFee,v.lastFeeUpdate,
      v.createdAt,v.bump,v.nonce))

def configSpace : Nat := 1+32+32+32+8+8+8+8+1+1

def vaultSpace : Nat := 1+32+8+8+8+8+8+1+8

theorem config_size : configCodec.HasSize configSpace := fun _ => by simp [configCodec,configSpace]

theorem vault_size : vaultCodec.HasSize vaultSpace := fun _ => by simp [vaultCodec,vaultSpace]

theorem config_ne_vault (c : PusdConfig) (v : Vault) :
    configCodec.encode c≠vaultCodec.encode v := by
  intro h
  have hlen := congrArg List.length h
  rw [config_size c,vault_size v] at hlen
  cases hlen

namespace Vault

def totalDebt (v : Vault) : U64 := saturatingAdd v.debt v.accruedFee

def collateralRatioBps (v : Vault) (prismPrice : U64) : Except PusdError U64 :=
  -- without debt the ratio is infinite
  if v.debt=0#64 then .ok (BitVec.allOnes 64)
  else do
    let collateralValue ←
      okOr (checkedMul (v.collateral.setWidth 128) (prismPrice.setWidth 128)) .overflow
    let debtValue ← okOr (checkedMul (v.totalDebt.setWidth 128) 1000000000#128) .overflow
    let scaled ← okOr (checkedMul collateralValue (bpsDenominator.setWidth 128)) .overflow
    let ratio ← okOr (checkedDiv scaled debtValue) .overflow
    pure (ratio.setWidth 64)

/-- The fee for `elapsed` seconds; a product that does not fit charges nothing. -/
def feeFor (debt elapsed : U64) : U64 :=
  (((((checkedMul (debt.setWidth 128) (stabilityFeeAnnualBps.setWidth 128)).bind fun x =>
    checkedMul x (elapsed.setWidth 128)).bind fun x =>
      checkedDiv x (secondsPerYear.setWidth 128)).bind fun x =>
        checkedDiv x (bpsDenominator.setWidth 128)).getD 0#128).setWidth 64

def accrueFee (v : Vault) (currentTimestamp : I64) : Vault :=
  if v.debt=0#64 ∨ currentTimestamp.toInt≤v.lastFeeUpdate.toInt then v
  else
    {v with
      accruedFee := saturatingAdd v.accruedFee (feeFor v.debt (currentTimestamp-v.lastFeeUpdate))
      lastFeeUpdate := currentTimestamp}

@[simp] theorem accrueFee_debt (v : Vault) (t : I64) : (v.accrueFee t).debt=v.debt := by
  unfold accrueFee
  split <;> rfl

@[simp] theorem accrueFee_collateral (v : Vault) (t : I64) :
    (v.accrueFee t).collateral=v.collateral := by
  unfold accrueFee
  split <;> rfl

@[simp] theorem accrueFee_isInitialized (v : Vault) (t : I64) :
    (v.accrueFee t).isInitialized=v.isInitialized := by
  unfold accrueFee
  split <;> rfl

/-- A payment goes to the accrued fee first and to the principal with what remains. -/
def pay (subtract : U64 → U64 → Option U64) (v : Vault) (amount : U64) :
    Except ProgramError Vault :=
  if amount.toNat≤v.accruedFee.toNat then do
    let fee ← okOr (checkedSub v.accruedFee amount) .programFailedToComplete
    pure {v with accruedFee := fee}
  else do
    let remaining ← okOr (checkedSub amount v.accruedFee) .programFailedToComplete
    let debt ← okOr (subtract v.debt remaining) .programFailedToComplete
    pure {v with accruedFee := 0#64, debt := debt}

end Vault

/-- The first eight bytes of the feed account are taken for the price. -/
def readOraclePrice (data : List Byte) : Except PusdError U64 := do
  require (8≤data.length) .invalidOraclePrice
  let price : U64 := BitVec.ofNat 64 (leValue (data.take 8))
  require (price≠0#64) .invalidOraclePrice
  pure price

def usdToPrism (usdAmount prismPrice : U64) : Except PusdError U64 := do
  let scaled ← okOr (checkedMul (usdAmount.setWidth 128) 100000000000#128) .overflow
  let prism ← okOr (checkedDiv scaled (prismPrice.setWidth 128)) .overflow
  pure (prism.setWidth 64)

end PrismChain.Pusd
