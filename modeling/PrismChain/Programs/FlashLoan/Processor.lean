import PrismChain.Programs.FlashLoan.State

namespace PrismChain.FlashLoan

open FixedWidth

inductive Instruction where
  | initializePool (tokenMint : Pubkey)
  | deposit (amount : U64)
  | withdraw (amount : U64)
  | borrow (amount : U64)
  | repay
  deriving DecidableEq

/-- How the bytes of an account are read as a pool. The deployed reader is `try_from_slice`, which
accepts no account that the program allocates; `front` reads the state that is stored there. -/
abbrev PoolReader := List Byte → Option FlashLoanPool

def poolPda (h : Host) (tokenMint : Pubkey) : Pubkey :=
  (h.findProgramAddress [poolSeed,tokenMint.bytes] h.programId).1

def vaultPda (h : Host) (pool : Pubkey) : Pubkey :=
  (h.findProgramAddress [vaultSeed,pool.bytes] h.programId).1

def receiptPda (h : Host) (pool borrower : Pubkey) : Pubkey :=
  (h.findProgramAddress [receiptSeed,pool.bytes,borrower.bytes] h.programId).1

def loadPool (read : PoolReader) (f : Frame) (k : Pubkey) : Except ProgramError FlashLoanPool := do
  let pool ← okOr (read (f.view k).data) .borshIoError
  require (pool.isInitialized=true) (err .notInitialized)
  pure pool

/-- Lamports leave an account that held `balance` by direct assignment. -/
def payOut (balance : U64) (vault receiver : Pubkey) (amount : U64) (f : Frame) :
    ProgramResult := do
  let rest ← okOr (checkedSub balance amount) (err .overflow)
  let debited := f.view.setLamports vault rest
  let credit ← okOr (checkedAdd (debited receiver).lamports amount) (err .overflow)
  pure {f with view := debited.setLamports receiver credit}

def newPool (h : Host) (admin tokenMint : Pubkey) : FlashLoanPool :=
  ⟨true,admin,tokenMint,0#64,0#64,0#64,false,
    (h.findProgramAddress [poolSeed,tokenMint.bytes] h.programId).2,0#32,⟨[],by decide⟩⟩

def processInitializePool (h : Host) (accounts : List AccountInfo) (tokenMint : Pubkey)
    (f : Frame) : ProgramResult :=
  match accounts with
  | admin::poolAccount::vaultAccount::_mint::_system::_ => do
    requireSigner admin
    require (poolPda h tokenMint=poolAccount.key) (err .invalidPDA)
    require (vaultPda h poolAccount.key=vaultAccount.key) (err .invalidPDA)
    let iv : Invocation := ⟨h.programId,accounts⟩
    let f ← iv.invoke [admin.key,poolAccount.key] (iv.createAccount admin.key poolAccount.key
      (h.minimumBalance poolSpace) poolSpace) f
    let f ← iv.invoke [admin.key,vaultAccount.key] (iv.createAccount admin.key vaultAccount.key
      (h.minimumBalance 0) 0) f
    f.store poolCodec (newPool h admin.key tokenMint) poolAccount.key
  | _ => notEnoughKeys

def enrol (pool : FlashLoanPool) (depositor : Pubkey) (amount : U64) (now : I64) :
    Option (List ProviderShare) → Except ProgramError (List ProviderShare×U32)
  | some l => .ok (l,pool.providerCount)
  | none => do
    require (pool.providers.val.length< maxProviders) (err .maxProvidersReached)
    let count ← okOr (checkedAdd pool.providerCount 1#32) (err .overflow)
    pure (pool.providers.val++[⟨depositor,amount,0#64,now⟩],count)

def deposited (pool : FlashLoanPool) (depositor : Pubkey) (amount : U64) (now : I64) :
    Except ProgramError FlashLoanPool := do
  let found ← updateFirst depositor (fun ps => do
    let sum ← okOr (checkedAdd ps.deposited amount) (err .overflow)
    pure {ps with deposited := sum, lastUpdated := now}) pool.providers.val
  let (l,count) ← enrol pool depositor amount now found
  let total ← okOr (checkedAdd pool.totalLiquidity amount) (err .overflow)
  let providers ← toProviders l
  pure {pool with providers := providers, providerCount := count, totalLiquidity := total}

def processDeposit (h : Host) (read : PoolReader) (clock : Clock) (accounts : List AccountInfo)
    (amount : U64) (f : Frame) : ProgramResult :=
  match accounts with
  | depositor::poolAccount::vaultAccount::_system::_ => do
    requireSigner depositor
    require (amount≠0#64) (err .invalidAmount)
    require ((f.view poolAccount.key).owner=h.programId) .incorrectProgramId
    let pool ← loadPool read f poolAccount.key
    let iv : Invocation := ⟨h.programId,accounts⟩
    let f ← iv.invoke [depositor.key,vaultAccount.key]
      (iv.transfer depositor.key vaultAccount.key amount) f
    let pool ← deposited pool depositor.key amount clock.unixTimestamp
    f.store poolCodec pool poolAccount.key
  | _ => notEnoughKeys

/-- Fees go first, then the deposit. -/
def takeOut (amount : U64) (now : I64) (ps : ProviderShare) :
    Except ProgramError ProviderShare := do
  let available ← okOr (checkedAdd ps.deposited ps.feesEarned) (err .overflow)
  require (amount.toNat≤available.toNat) (err .insufficientProviderBalance)
  if amount.toNat≤ps.feesEarned.toNat then do
    let fees ← okOr (checkedSub ps.feesEarned amount) .programFailedToComplete
    pure {ps with feesEarned := fees, lastUpdated := now}
  else do
    let remaining ← okOr (checkedSub amount ps.feesEarned) .programFailedToComplete
    let rest ← okOr (checkedSub ps.deposited remaining) .programFailedToComplete
    pure {ps with feesEarned := 0#64, deposited := rest, lastUpdated := now}

def withdrawShare (pool : FlashLoanPool) (provider : Pubkey) (amount : U64) (now : I64) :
    Except ProgramError FlashLoanPool := do
  let found ← updateFirst provider (takeOut amount now) pool.providers.val
  let l ← okOr found (err .providerNotFound)
  let providers ← toProviders l
  pure {pool with providers := providers}

def reduceLiquidity (pool : FlashLoanPool) (amount : U64) : Except ProgramError FlashLoanPool := do
  let total ← okOr (checkedSub pool.totalLiquidity (umin amount pool.totalLiquidity))
    (err .overflow)
  pure {pool with totalLiquidity := total}

def processWithdraw (h : Host) (read : PoolReader) (clock : Clock) (accounts : List AccountInfo)
    (amount : U64) (f : Frame) : ProgramResult :=
  match accounts with
  | provider::poolAccount::vaultAccount::providerReceive::_system::_ => do
    requireSigner provider
    require (amount≠0#64) (err .invalidAmount)
    require ((f.view poolAccount.key).owner=h.programId) .incorrectProgramId
    let pool ← loadPool read f poolAccount.key
    let pool ← withdrawShare pool provider.key amount clock.unixTimestamp
    require (amount.toNat≤(f.view vaultAccount.key).lamports.toNat) (err .insufficientLiquidity)
    let f ← payOut (f.view vaultAccount.key).lamports vaultAccount.key providerReceive.key amount f
    let pool ← reduceLiquidity pool amount
    f.store poolCodec pool poolAccount.key
  | _ => notEnoughKeys

def lent (pool : FlashLoanPool) : Except ProgramError FlashLoanPool := do
  let count ← okOr (checkedAdd pool.totalLoansExecuted 1#64) (err .overflow)
  pure {pool with totalLoansExecuted := count}

def newReceipt (h : Host) (pool borrower : Pubkey) (amount fee balance : U64) : FlashLoanReceipt :=
  ⟨true,pool,borrower,amount,fee,balance,
    (h.findProgramAddress [receiptSeed,pool.bytes,borrower.bytes] h.programId).2⟩

def processBorrow (h : Host) (read : PoolReader) (accounts : List AccountInfo) (amount : U64)
    (f : Frame) : ProgramResult :=
  match accounts with
  | borrower::poolAccount::vaultAccount::receiptAccount::borrowerReceive::_system::_ => do
    requireSigner borrower
    require (amount≠0#64) (err .invalidAmount)
    require ((f.view poolAccount.key).owner=h.programId) .incorrectProgramId
    let pool ← loadPool read f poolAccount.key
    require (pool.isPaused=false) (err .insufficientLiquidity)
    let balance := (f.view vaultAccount.key).lamports
    require (amount.toNat≤balance.toNat) (err .insufficientLiquidity)
    let fee ← calculateFee amount
    require (receiptPda h poolAccount.key borrower.key=receiptAccount.key) (err .invalidPDA)
    let iv : Invocation := ⟨h.programId,accounts⟩
    let f ← iv.invoke [borrower.key,receiptAccount.key] (iv.createAccount borrower.key
      receiptAccount.key (h.minimumBalance receiptLen) receiptLen) f
    let f ← f.store receiptCodec (newReceipt h poolAccount.key borrower.key amount fee balance)
      receiptAccount.key
    let f ← payOut balance vaultAccount.key borrowerReceive.key amount f
    let pool ← lent pool
    f.store poolCodec pool poolAccount.key
  | _ => notEnoughKeys

/-- A provider's part of a fee; what overflows or divides by zero counts as nothing. -/
def feeShare (fee totalLiquidity : U64) (ps : ProviderShare) : U64 :=
  let product := (checkedMul (fee.setWidth 128) (ps.deposited.setWidth 128)).getD 0#128
  let share := (checkedDiv product (totalLiquidity.setWidth 128)).getD 0#128
  share.setWidth 64

def distribute (pool : FlashLoanPool) (fee : U64) : Providers :=
  if 0<pool.totalLiquidity.toNat then
    ⟨pool.providers.val.map fun ps => {ps with
      feesEarned := saturatingAdd ps.feesEarned (feeShare fee pool.totalLiquidity ps)},
      by rw [List.length_map]; exact pool.providers.property⟩
  else pool.providers

def repaid (pool : FlashLoanPool) (fee : U64) : Except ProgramError FlashLoanPool := do
  let fees ← okOr (checkedAdd pool.totalFeesCollected fee) (err .overflow)
  let total ← okOr (checkedAdd pool.totalLiquidity fee) (err .overflow)
  pure {pool with
    providers := distribute pool fee
    totalFeesCollected := fees
    totalLiquidity := total}

/-- The receipt is closed by taking its lamports; its data stays until the transaction ends. -/
def closeReceipt (receipt borrower : Pubkey) (f : Frame) : ProgramResult := do
  let lamports := (f.view receipt).lamports
  let closed := f.view.setLamports receipt 0#64
  let credit ← okOr (checkedAdd (closed borrower).lamports lamports) (err .overflow)
  pure {f with view := closed.setLamports borrower credit}

def processRepay (h : Host) (read : PoolReader) (accounts : List AccountInfo) (f : Frame) :
    ProgramResult :=
  match accounts with
  | borrower::poolAccount::vaultAccount::receiptAccount::_system::_ => do
    requireSigner borrower
    require ((f.view receiptAccount.key).owner=h.programId) .incorrectProgramId
    let receipt ← okOr (receiptCodec.tryFromSlice (f.view receiptAccount.key).data) .borshIoError
    require (receipt.isActive=true) (err .noActiveLoan)
    require (receipt.borrower=borrower.key) (err .unauthorized)
    require (receipt.pool=poolAccount.key) (err .invalidPDA)
    let required ← okOr (checkedAdd receipt.vaultBalanceBefore receipt.fee) (err .overflow)
    require (required.toNat≤(f.view vaultAccount.key).lamports.toNat) (err .loanNotRepaid)
    let pool ← okOr (read (f.view poolAccount.key).data) .borshIoError
    let pool ← repaid pool receipt.fee
    let f ← f.store poolCodec pool poolAccount.key
    closeReceipt receiptAccount.key borrower.key f
  | _ => notEnoughKeys

def processInstruction (h : Host) (read : PoolReader) (clock : Clock)
    (accounts : List AccountInfo) :
    Instruction → Frame → ProgramResult
  | .initializePool tokenMint => processInitializePool h accounts tokenMint
  | .deposit amount => processDeposit h read clock accounts amount
  | .withdraw amount => processWithdraw h read clock accounts amount
  | .borrow amount => processBorrow h read accounts amount
  | .repay => processRepay h read accounts

def program (h : Host) : Program Instruction := ⟨h.programId,processInstruction h poolCodec.front⟩

def deployedProgram (h : Host) : Program Instruction :=
  ⟨h.programId,processInstruction h poolCodec.tryFromSlice⟩

end PrismChain.FlashLoan
