import PrismChain.Programs.Pusd.State

namespace PrismChain.Pusd

open FixedWidth

inductive Instruction where
  | initializeSystem (oracleFeed pusdMint : Pubkey)
  | openVault (collateralAmount nonce : U64)
  | depositCollateral (amount : U64)
  | mintPusd (amount : U64)
  | burnPusd (amount : U64)
  | withdrawCollateral (amount : U64)
  | liquidate
  | redeem (pusdAmount : U64)
  deriving DecidableEq

namespace Instruction

def configIndex : Instruction → Nat
  | .initializeSystem _ _ => 1
  | .openVault _ _ => 1
  | .depositCollateral _ => 3
  | _ => 2

def vaultIndex : Instruction → Option Nat
  | .initializeSystem _ _ => none
  | .openVault _ _ => some 2
  | _ => some 1

def poolIndex : Instruction → Option Nat
  | .openVault _ _ => some 3
  | .depositCollateral _ => some 2
  | .withdrawCollateral _ => some 3
  | .liquidate => some 3
  | .redeem _ => some 3
  | _ => none

def oracleIndex : Instruction → Option Nat
  | .mintPusd _ => some 3
  | .withdrawCollateral _ => some 4
  | .liquidate => some 4
  | .redeem _ => some 4
  | _ => none

def paidIn : Instruction → U64
  | .depositCollateral amount => amount
  | _ => 0#64

def repays : Instruction → Bool
  | .burnPusd _ => true
  | .liquidate => true
  | .redeem _ => true
  | _ => false

def ownerOnly : Instruction → Bool
  | .liquidate => false
  | .redeem _ => false
  | _ => true

end Instruction

/-- The handlers trust a vault account that the program owns and that was initialized. -/
def loadVault (h : Host) (f : Frame) (k : Pubkey) : Except ProgramError Vault := do
  require ((f.view k).owner=h.programId) .incorrectProgramId
  let vault ← okOr (vaultCodec.tryFromSlice (f.view k).data) .borshIoError
  require (vault.isInitialized=true) (err .notInitialized)
  pure vault

def loadConfig (f : Frame) (k : Pubkey) : Except ProgramError PusdConfig :=
  okOr (configCodec.tryFromSlice (f.view k).data) .borshIoError

def payOut (pool payee : Pubkey) (amount : U64) (f : Frame) : ProgramResult := do
  let left ← okOr (checkedSub (f.view pool).lamports amount) (err .overflow)
  let debited := f.view.setLamports pool left
  let credit ← okOr (checkedAdd (debited payee).lamports amount) (err .overflow)
  pure {f with view := debited.setLamports payee credit}

def processInitialize (h : Host) (accounts : List AccountInfo) (oracleFeed pusdMint : Pubkey)
    (f : Frame) : ProgramResult :=
  match accounts with
  | admin::configAccount::_oracle::_mint::_system::_ => do
    requireSigner admin
    let pda := h.findProgramAddress [configSeed] h.programId
    require (pda.1=configAccount.key) (err .invalidPDA)
    let iv : Invocation := ⟨h.programId,accounts⟩
    let f ← iv.invoke [admin.key,configAccount.key] (iv.createAccount admin.key configAccount.key
      (h.minimumBalance configSpace) configSpace) f
    f.store configCodec ⟨true,admin.key,oracleFeed,pusdMint,0#64,0#64,0#64,0#64,true,pda.2⟩
      configAccount.key
  | _ => notEnoughKeys

def newVault (h : Host) (clock : Clock) (owner : Pubkey) (collateralAmount nonce : U64) : Vault :=
  ⟨true,owner,collateralAmount,0#64,0#64,clock.unixTimestamp,clock.unixTimestamp,
    (h.findProgramAddress [vaultSeed,owner.bytes,leBytes 8 nonce.toNat] h.programId).2,nonce⟩

def processOpenVault (h : Host) (clock : Clock) (accounts : List AccountInfo)
    (collateralAmount nonce : U64) (f : Frame) : ProgramResult :=
  match accounts with
  | owner::configAccount::vaultAccount::collateralPool::_system::_ => do
    requireSigner owner
    require (collateralAmount≠0#64) (err .invalidAmount)
    require ((f.view configAccount.key).owner=h.programId) .incorrectProgramId
    let config ← loadConfig f configAccount.key
    require (config.isInitialized=true ∧ config.isActive=true) (err .notInitialized)
    require ((h.findProgramAddress [vaultSeed,owner.key.bytes,leBytes 8 nonce.toNat]
      h.programId).1=vaultAccount.key) (err .invalidPDA)
    require ((h.findProgramAddress [collateralSeed,vaultAccount.key.bytes] h.programId).1=
      collateralPool.key) (err .invalidPDA)
    let iv : Invocation := ⟨h.programId,accounts⟩
    let f ← iv.invoke [owner.key,vaultAccount.key] (iv.createAccount owner.key vaultAccount.key
      (h.minimumBalance vaultSpace) vaultSpace) f
    let f ← iv.invoke [owner.key,collateralPool.key] (iv.createAccount owner.key
      collateralPool.key collateralAmount 0) f
    let f ← f.store vaultCodec (newVault h clock owner.key collateralAmount nonce) vaultAccount.key
    let locked ← okOr (checkedAdd config.totalCollateralLocked collateralAmount) (err .overflow)
    let vaults ← okOr (checkedAdd config.totalVaults 1#64) (err .overflow)
    f.store configCodec {config with totalCollateralLocked := locked, totalVaults := vaults}
      configAccount.key
  | _ => notEnoughKeys

/-- The pool account is not compared with any derived address here or in the handlers below. -/
def processDepositCollateral (h : Host) (accounts : List AccountInfo) (amount : U64) (f : Frame) :
    ProgramResult :=
  match accounts with
  | owner::vaultAccount::collateralPool::configAccount::_system::_ => do
    requireSigner owner
    require (amount≠0#64) (err .invalidAmount)
    let vault ← loadVault h f vaultAccount.key
    require (vault.owner=owner.key) (err .unauthorized)
    let iv : Invocation := ⟨h.programId,accounts⟩
    let f ← iv.invoke [owner.key,collateralPool.key]
      (iv.transfer owner.key collateralPool.key amount) f
    let collateral ← okOr (checkedAdd vault.collateral amount) (err .overflow)
    let f ← f.store vaultCodec {vault with collateral := collateral} vaultAccount.key
    let config ← loadConfig f configAccount.key
    let locked ← okOr (checkedAdd config.totalCollateralLocked amount) (err .overflow)
    f.store configCodec {config with totalCollateralLocked := locked} configAccount.key
  | _ => notEnoughKeys

def processMintPusd (h : Host) (clock : Clock) (accounts : List AccountInfo) (amount : U64)
    (f : Frame) : ProgramResult :=
  match accounts with
  | owner::vaultAccount::configAccount::oracleAccount::_mint::_token::_authority::_program::_ => do
    requireSigner owner
    require (amount≠0#64) (err .invalidAmount)
    let stored ← loadVault h f vaultAccount.key
    require (stored.owner=owner.key) (err .unauthorized)
    let vault := stored.accrueFee clock.unixTimestamp
    let newDebt ← okOr (checkedAdd vault.debt amount) (err .overflow)
    let prismPrice ← lift (readOraclePrice (f.view oracleAccount.key).data)
    let ratio ← lift ({vault with debt := newDebt}.collateralRatioBps prismPrice)
    require (minCollateralRatioBps.toNat≤ ratio.toNat) (err .belowMinCollateralRatio)
    require (minDebt.toNat≤newDebt.toNat) (err .belowMinDebt)
    let f ← f.store vaultCodec {vault with debt := newDebt} vaultAccount.key
    let config ← loadConfig f configAccount.key
    let supply ← okOr (checkedAdd config.totalPusdSupply amount) (err .overflow)
    f.store configCodec {config with totalPusdSupply := supply} configAccount.key
  | _ => notEnoughKeys

def processBurnPusd (h : Host) (clock : Clock) (accounts : List AccountInfo) (amount : U64)
    (f : Frame) : ProgramResult :=
  match accounts with
  | owner::vaultAccount::configAccount::_token::_mint::_program::_ => do
    requireSigner owner
    require (amount≠0#64) (err .invalidAmount)
    let stored ← loadVault h f vaultAccount.key
    require (stored.owner=owner.key) (err .unauthorized)
    let vault := stored.accrueFee clock.unixTimestamp
    require (amount.toNat≤vault.totalDebt.toNat) (err .burnExceedsDebt)
    let paid ← vault.pay checkedSub amount
    require (paid.debt=0#64 ∨ minDebt.toNat≤paid.debt.toNat) (err .belowMinDebt)
    let f ← f.store vaultCodec paid vaultAccount.key
    let config ← loadConfig f configAccount.key
    -- the minimum never cuts anything: `amount` is one of the summands
    f.store configCodec {config with
      totalPusdSupply := saturatingSub config.totalPusdSupply amount
      totalFeesCollected := saturatingAdd config.totalFeesCollected
        (umin amount (saturatingAdd paid.accruedFee amount))} configAccount.key
  | _ => notEnoughKeys

def checkWithdrawal (vault : Vault) (amount : U64) (oracle : List Byte) :
    Except ProgramError Unit :=
  if 0<vault.totalDebt.toNat then do
    let prismPrice ← lift (readOraclePrice oracle)
    let newCollateral ← okOr (checkedSub vault.collateral amount) (err .overflow)
    let ratio ← lift ({vault with collateral := newCollateral}.collateralRatioBps prismPrice)
    require (minCollateralRatioBps.toNat≤ ratio.toNat) (err .withdrawalWouldUndercollateralize)
  else .ok ()

def processWithdrawCollateral (h : Host) (clock : Clock) (accounts : List AccountInfo)
    (amount : U64) (f : Frame) : ProgramResult :=
  match accounts with
  | owner::vaultAccount::configAccount::collateralPool::oracleAccount::_system::_ => do
    requireSigner owner
    require (amount≠0#64) (err .invalidAmount)
    let stored ← loadVault h f vaultAccount.key
    require (stored.owner=owner.key) (err .unauthorized)
    require (amount.toNat≤ stored.collateral.toNat) (err .insufficientCollateral)
    let vault := stored.accrueFee clock.unixTimestamp
    checkWithdrawal vault amount (f.view oracleAccount.key).data
    require (amount.toNat≤(f.view collateralPool.key).lamports.toNat) (err .insufficientCollateral)
    let f ← payOut collateralPool.key owner.key amount f
    let collateral ← okOr (checkedSub vault.collateral amount) .programFailedToComplete
    let f ← f.store vaultCodec {vault with collateral := collateral} vaultAccount.key
    let config ← loadConfig f configAccount.key
    f.store configCodec {config with
      totalCollateralLocked := saturatingSub config.totalCollateralLocked amount} configAccount.key
  | _ => notEnoughKeys

/-- What the debt is worth in PRISM, a tenth more, and never more than the vault holds. -/
def totalSeize (vault : Vault) (prismPrice : U64) : Except ProgramError U64 := do
  let debtInPrism ← lift (usdToPrism vault.totalDebt prismPrice)
  let scaled ← okOr (checkedMul (debtInPrism.setWidth 128) (liquidationPenaltyBps.setWidth 128))
    (err .overflow)
  let penalty ← okOr (checkedDiv scaled (bpsDenominator.setWidth 128)) (err .overflow)
  pure (umin (saturatingAdd debtInPrism (penalty.setWidth 64)) vault.collateral)

def processLiquidate (h : Host) (clock : Clock) (accounts : List AccountInfo) (f : Frame) :
    ProgramResult :=
  match accounts with
  | liquidator::vaultAccount::configAccount::collateralPool::oracleAccount::_token::_mint::
      _program::_system::_ => do
    requireSigner liquidator
    let stored ← loadVault h f vaultAccount.key
    let vault := stored.accrueFee clock.unixTimestamp
    let prismPrice ← lift (readOraclePrice (f.view oracleAccount.key).data)
    let ratio ← lift (vault.collateralRatioBps prismPrice)
    require (ratio.toNat<liquidationThresholdBps.toNat) (err .notLiquidatable)
    let seize ← totalSeize vault prismPrice
    let seizeAmount := umin seize (f.view collateralPool.key).lamports
    let f ← payOut collateralPool.key liquidator.key seizeAmount f
    let config ← loadConfig f configAccount.key
    let f ← f.store configCodec {config with
      totalPusdSupply := saturatingSub config.totalPusdSupply vault.totalDebt
      totalCollateralLocked := saturatingSub config.totalCollateralLocked seizeAmount}
      configAccount.key
    f.store vaultCodec {vault with
      debt := 0#64
      accruedFee := 0#64
      collateral := saturatingSub vault.collateral seizeAmount} vaultAccount.key
  | _ => notEnoughKeys

def processRedeem (h : Host) (clock : Clock) (accounts : List AccountInfo) (pusdAmount : U64)
    (f : Frame) : ProgramResult :=
  match accounts with
  | redeemer::vaultAccount::configAccount::collateralPool::oracleAccount::_token::_mint::
      _program::_system::_ => do
    requireSigner redeemer
    require (pusdAmount≠0#64) (err .invalidAmount)
    let stored ← loadVault h f vaultAccount.key
    let vault := stored.accrueFee clock.unixTimestamp
    require (pusdAmount.toNat≤vault.totalDebt.toNat) (err .burnExceedsDebt)
    let prismPrice ← lift (readOraclePrice (f.view oracleAccount.key).data)
    let prismToReturn ← lift (usdToPrism pusdAmount prismPrice)
    require (prismToReturn.toNat≤vault.collateral.toNat) (err .redemptionExceedsCollateral)
    require (prismToReturn.toNat≤(f.view collateralPool.key).lamports.toNat)
      (err .redemptionExceedsCollateral)
    let f ← payOut collateralPool.key redeemer.key prismToReturn f
    let paid ← vault.pay (fun debt remaining => some (saturatingSub debt remaining)) pusdAmount
    let f ← f.store vaultCodec {paid with
      collateral := saturatingSub paid.collateral prismToReturn} vaultAccount.key
    let config ← loadConfig f configAccount.key
    f.store configCodec {config with
      totalPusdSupply := saturatingSub config.totalPusdSupply pusdAmount
      totalCollateralLocked := saturatingSub config.totalCollateralLocked prismToReturn}
      configAccount.key
  | _ => notEnoughKeys

def processInstruction (h : Host) (clock : Clock) (accounts : List AccountInfo) :
    Instruction → Frame → ProgramResult
  | .initializeSystem oracleFeed pusdMint => processInitialize h accounts oracleFeed pusdMint
  | .openVault collateralAmount nonce =>
      processOpenVault h clock accounts collateralAmount nonce
  | .depositCollateral amount => processDepositCollateral h accounts amount
  | .mintPusd amount => processMintPusd h clock accounts amount
  | .burnPusd amount => processBurnPusd h clock accounts amount
  | .withdrawCollateral amount => processWithdrawCollateral h clock accounts amount
  | .liquidate => processLiquidate h clock accounts
  | .redeem pusdAmount => processRedeem h clock accounts pusdAmount

def program (h : Host) : Program Instruction := ⟨h.programId,processInstruction h⟩

end PrismChain.Pusd
