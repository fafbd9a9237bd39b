import PrismChain.Programs.Scusd.State

namespace PrismChain.Scusd

open FixedWidth

/-- The runtime together with the token program. The instruction builders refuse any other program
in its place; a call changes the data of its own mints and token accounts only, and gives no
account away. -/
structure Env extends Host where
  tokenProgram : Pubkey
  foreign : tokenProgram≠programId
  tokenCall : List (List Byte) → List Byte → List Pubkey → Bank → Except ProgramError Bank
  confined : ∀ {seeds data keys b b'},tokenCall seeds data keys b=.ok b' → ∀ k,
    (b' k).owner=(b k).owner ∧ ((b' k).data=(b k).data ∨ (b k).owner=tokenProgram ∧
        ((b k).data.length=82 ∨ (b k).data.length=165)) ∧
      (k∉keys → b' k=b k)

instance : Coe Env Host := ⟨Env.toHost⟩

inductive Instruction where
  | initializeSystem
  | openVault
  | depositCollateral (amount : U64)
  | mintScusd (amount : U64)
  | repayScusd (amount : U64)
  | withdrawCollateral (amount : U64)
  | liquidateVault
  deriving DecidableEq

def Instruction.globalIndex : Instruction → Nat
  | .initializeSystem => 1
  | _ => 2

def globalPda (h : Host) : Pubkey := (h.findProgramAddress [globalStateSeed] h.programId).1

def vaultPda (h : Host) (owner : Pubkey) : Pubkey :=
  (h.findProgramAddress [vaultSeed,owner.bytes] h.programId).1

def loadVault (f : Frame) (k : Pubkey) : Except ProgramError Vault :=
  okOr (vaultCodec.tryFromSlice (f.view k).data) .borshIoError

def loadOwnVault (f : Frame) (k owner : Pubkey) : Except ProgramError Vault := do
  let vault ← loadVault f k
  require (vault.isInitialized=true ∧ vault.owner=owner) .invalidArgument
  pure vault

def loadGlobal (f : Frame) (k : Pubkey) : Except ProgramError GlobalState :=
  okOr (globalCodec.tryFromSlice (f.view k).data) .borshIoError

def storeBoth (x : Vault×GlobalState) (vault global : Pubkey) (f : Frame)  : ProgramResult := do
  let f ← f.store vaultCodec x.1 vault
  f.store globalCodec x.2 global

inductive TokenOp where
  | transfer
  | mintTo
  | burn

def TokenOp.index : TokenOp → Byte
  | .transfer => 3#8
  | .mintTo => 7#8
  | .burn => 8#8

/-- A call as the instruction builders lay it out: the first two accounts are to be writable and
the authority signs, by itself or through the seeds. -/
def invokeToken (e : Env) (iv : Invocation) (op : TokenOp) (seeds : List (List Byte))
    (tokenProgram first second authority : Pubkey) (amount : U64) (f : Frame)  : ProgramResult := do
  require (tokenProgram=e.tokenProgram) .incorrectProgramId
  iv.invoke [first,second,authority] (fun b => do
    require (iv.writable first ∧ iv.writable second) .privilegeEscalation
    e.tokenCall seeds (op.index::leBytes 8 amount.toNat) [first,second,authority] b) f

def globalSeeds (g : GlobalState) : List (List Byte) := [globalStateSeed,[g.bump]]

def newGlobal (h : Host) (authority scusdMint prismMint collateralPool : Pubkey) : GlobalState :=
  ⟨authority,scusdMint,prismMint,collateralPool,0#64,0#64,collateralRatioMinBps,liquidationRatioBps,
    stabilityFeeRateBps,(h.findProgramAddress [globalStateSeed] h.programId).2,true⟩

def processInitialize (e : Env) (accounts : List AccountInfo) (f : Frame)  : ProgramResult :=
  match accounts with
  | authority::globalState::scusdMint::prismMint::collateralPool::_token::_system::_rent::_ => do
    requireSigner authority
    require (globalState.key=globalPda e) .invalidArgument
    let iv : Invocation := ⟨e.programId,accounts⟩
    let f ← iv.invoke [authority.key,globalState.key] (iv.createAccount authority.key
      globalState.key (e.minimumBalance globalLen) globalLen) f
    f.store globalCodec (newGlobal e authority.key scusdMint.key prismMint.key
      collateralPool.key) globalState.key
  | _ => notEnoughKeys

def newVault (h : Host) (owner : Pubkey) (now : I64) : Vault :=
  ⟨owner,0#64,0#64,0#64,now,(h.findProgramAddress [vaultSeed,owner.bytes] h.programId).2,true⟩

def processOpenVault (e : Env) (clock : Clock) (accounts : List AccountInfo) (f : Frame) :
    ProgramResult :=
  match accounts with
  | owner::vault::globalState::_system::_ => do
    requireSigner owner
    let g ← loadGlobal f globalState.key
    require (g.isInitialized=true) .uninitializedAccount
    require (vault.key=vaultPda e owner.key) .invalidArgument
    let iv : Invocation := ⟨e.programId,accounts⟩
    let f ← iv.invoke [owner.key,vault.key] (iv.createAccount owner.key vault.key
      (e.minimumBalance vaultLen) vaultLen) f
    f.store vaultCodec (newVault e owner.key clock.unixTimestamp) vault.key
  | _ => notEnoughKeys

def deposited (v : Vault) (g : GlobalState) (amount : U64) (now : I64) :
    Except ProgramError (Vault×GlobalState) := do
  let collateral ← okOr (checkedAdd v.collateralAmount amount) .arithmeticOverflow
  let total ← okOr (checkedAdd g.totalCollateral amount) .arithmeticOverflow
  pure ({v with collateralAmount := collateral, lastUpdate := now},
    {g with totalCollateral := total})

def processDepositCollateral (e : Env) (clock : Clock) (accounts : List AccountInfo) (amount : U64)
    (f : Frame) : ProgramResult :=
  match accounts with
  | owner::vault::globalState::ownerPrism::collateralPool::tokenProgram::_clock::_ => do
    requireSigner owner
    let v ← loadOwnVault f vault.key owner.key
    let g ← loadGlobal f globalState.key
    let v := accrueStabilityFee v g clock.unixTimestamp
    let f ← invokeToken e ⟨e.programId,accounts⟩ .transfer [] tokenProgram.key ownerPrism.key
      collateralPool.key owner.key amount f
    let x ← deposited v g amount clock.unixTimestamp
    storeBoth x vault.key globalState.key f
  | _ => notEnoughKeys

/-- Vault and global state after a loan that brings the vault to `newDebt`. -/
def minted (v : Vault) (g : GlobalState) (newDebt ratio amount : U64) (now : I64) :
    Except ProgramError (Vault×GlobalState) := do
  let total ← okOr (checkedAdd g.totalDebt amount) .arithmeticOverflow
  pure ({v with debtAmount := newDebt, collateralRatio := ratio, lastUpdate := now},
    {g with totalDebt := total})

def processMintScusd (e : Env) (clock : Clock) (accounts : List AccountInfo) (amount : U64)
    (f : Frame) : ProgramResult :=
  match accounts with
  | owner::vault::globalState::scusdMint::ownerScusd::oracle::tokenProgram::_clock::_ => do
    requireSigner owner
    let v ← loadOwnVault f vault.key owner.key
    let g ← loadGlobal f globalState.key
    let v := accrueStabilityFee v g clock.unixTimestamp
    let price ← readOraclePrice (f.view oracle.key).data
    let newDebt ← okOr (checkedAdd v.debtAmount amount) .arithmeticOverflow
    let ratio := calculateCollateralRatio v.collateralAmount newDebt price
    require (g.collateralRatioMin.toNat≤ ratio.toNat) .insufficientFunds
    let f ← invokeToken e ⟨e.programId,accounts⟩ .mintTo (globalSeeds g) tokenProgram.key
      scusdMint.key ownerScusd.key globalState.key amount f
    let x ← minted v g newDebt ratio amount clock.unixTimestamp
    storeBoth x vault.key globalState.key f
  | _ => notEnoughKeys

def repaid (v : Vault) (g : GlobalState) (repayAmount : U64) (now : I64) :
    Except ProgramError (Vault×GlobalState) := do
  let debt ← okOr (checkedSub v.debtAmount repayAmount) .arithmeticOverflow
  let total ← okOr (checkedSub g.totalDebt repayAmount) .arithmeticOverflow
  pure ({v with debtAmount := debt, lastUpdate := now},{g with totalDebt := total})

def processRepayScusd (e : Env) (clock : Clock) (accounts : List AccountInfo) (amount : U64)
    (f : Frame) : ProgramResult :=
  match accounts with
  | owner::vault::globalState::scusdMint::ownerScusd::tokenProgram::_clock::_ => do
    requireSigner owner
    let v ← loadOwnVault f vault.key owner.key
    let g ← loadGlobal f globalState.key
    let v := accrueStabilityFee v g clock.unixTimestamp
    let repayAmount := umin amount v.debtAmount
    let f ← invokeToken e ⟨e.programId,accounts⟩ .burn [] tokenProgram.key ownerScusd.key
      scusdMint.key owner.key repayAmount f
    let x ← repaid v g repayAmount clock.unixTimestamp
    storeBoth x vault.key globalState.key f
  | _ => notEnoughKeys

/-- With debt outstanding the ratio has to stay above the minimum and is recorded. -/
def checkedRatio (v : Vault) (g : GlobalState) (newCollateral : U64) (oracle : List Byte) :
    Except ProgramError Vault :=
  if 0<v.debtAmount.toNat then do
    let price ← readOraclePrice oracle
    let ratio := calculateCollateralRatio newCollateral v.debtAmount price
    require (g.collateralRatioMin.toNat≤ ratio.toNat) .insufficientFunds
    pure {v with collateralRatio := ratio}
  else pure v

def withdrawn (v : Vault) (g : GlobalState) (newCollateral amount : U64) (now : I64) :
    Except ProgramError (Vault×GlobalState) := do
  let total ← okOr (checkedSub g.totalCollateral amount) .arithmeticOverflow
  pure ({v with collateralAmount := newCollateral, lastUpdate := now},
    {g with totalCollateral := total})

def processWithdrawCollateral (e : Env) (clock : Clock) (accounts : List AccountInfo) (amount : U64)
    (f : Frame) : ProgramResult :=
  match accounts with
  | owner::vault::globalState::collateralPool::ownerPrism::oracle::tokenProgram::_clock::_ => do
    requireSigner owner
    let v ← loadOwnVault f vault.key owner.key
    let g ← loadGlobal f globalState.key
    let v := accrueStabilityFee v g clock.unixTimestamp
    require (amount.toNat≤v.collateralAmount.toNat) .insufficientFunds
    let newCollateral ← okOr (checkedSub v.collateralAmount amount) .arithmeticOverflow
    let v ← checkedRatio v g newCollateral (f.view oracle.key).data
    let f ← invokeToken e ⟨e.programId,accounts⟩ .transfer (globalSeeds g) tokenProgram.key
      collateralPool.key ownerPrism.key globalState.key amount f
    let x ← withdrawn v g newCollateral amount clock.unixTimestamp
    storeBoth x vault.key globalState.key f
  | _ => notEnoughKeys

/-- What a liquidator receives: the debt at the discounted price, as far as the vault reaches. The
products are 64 bits wide, unlike those of the ratio. -/
def collateralToLiquidate (v : Vault) (prismPrice : U64) : Except ProgramError U64 := do
  let scaled ← okOr (checkedMul prismPrice (10000#64-liquidationDiscountBps)) .arithmeticOverflow
  let discountedPrice := scaled/10000#64
  let value ← okOr (checkedMul v.debtAmount priceDecimals) .arithmeticOverflow
  let tokens ← okOr (checkedDiv value discountedPrice) .arithmeticOverflow
  pure (umin tokens v.collateralAmount)

def liquidated (v : Vault) (g : GlobalState) (seized : U64) (now : I64) :
    Except ProgramError (Vault×GlobalState) := do
  let collateral ← okOr (checkedSub v.collateralAmount seized) .arithmeticOverflow
  let debt ← okOr (checkedSub g.totalDebt v.debtAmount) .arithmeticOverflow
  let total ← okOr (checkedSub g.totalCollateral seized) .arithmeticOverflow
  pure ({v with
      debtAmount := 0#64
      collateralAmount := collateral
      collateralRatio := 0#64
      lastUpdate := now},
    {g with totalDebt := debt, totalCollateral := total})

def processLiquidateVault (e : Env) (clock : Clock) (accounts : List AccountInfo) (f : Frame) :
    ProgramResult :=
  match accounts with
  | liquidator::vault::globalState::scusdMint::liquidatorScusd::liquidatorPrism::collateralPool::
      oracle::tokenProgram::_clock::_ => do
    requireSigner liquidator
    let v ← loadVault f vault.key
    require (v.isInitialized=true) .uninitializedAccount
    let g ← loadGlobal f globalState.key
    let v := accrueStabilityFee v g clock.unixTimestamp
    let price ← readOraclePrice (f.view oracle.key).data
    let ratio := calculateCollateralRatio v.collateralAmount v.debtAmount price
    require (ratio.toNat<g.liquidationRatio.toNat) .invalidArgument
    let seized ← collateralToLiquidate v price
    let f ← invokeToken e ⟨e.programId,accounts⟩ .burn [] tokenProgram.key liquidatorScusd.key
      scusdMint.key liquidator.key v.debtAmount f
    let f ← invokeToken e ⟨e.programId,accounts⟩ .transfer (globalSeeds g) tokenProgram.key
      collateralPool.key liquidatorPrism.key globalState.key seized f
    let x ← liquidated v g seized clock.unixTimestamp
    storeBoth x vault.key globalState.key f
  | _ => notEnoughKeys

def processInstruction (e : Env) (clock : Clock) (accounts : List AccountInfo) :
    Instruction → Frame → ProgramResult
  | .initializeSystem => processInitialize e accounts
  | .openVault => processOpenVault e clock accounts
  | .depositCollateral amount => processDepositCollateral e clock accounts amount
  | .mintScusd amount => processMintScusd e clock accounts amount
  | .repayScusd amount => processRepayScusd e clock accounts amount
  | .withdrawCollateral amount => processWithdrawCollateral e clock accounts amount
  | .liquidateVault => processLiquidateVault e clock accounts

def program (e : Env) : Program Instruction := ⟨e.programId,processInstruction e⟩

end PrismChain.Scusd
