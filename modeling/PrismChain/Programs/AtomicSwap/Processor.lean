import PrismChain.Framework.Payment
import PrismChain.Programs.AtomicSwap.State

namespace PrismChain.AtomicSwap

inductive Instruction where
  | createSwap (hashLock : Bytes32) (amount : U64) (counterparty : Pubkey) (lockDuration : I64)
      (assetType : AssetType) (tokenMint : Pubkey)
  | claimSwap (secret : Bytes32)
  | refundSwap
  deriving DecidableEq

def swapPda (h : Host) (hashLock : Bytes32) (initiator : Pubkey) : Pubkey×U8 :=
  h.findProgramAddress [swapSeed,leBytes 32 hashLock.toNat,initiator.bytes] h.programId

def vaultPda (h : Host) (swap : Pubkey) : Pubkey :=
  (h.findProgramAddress [vaultSeed,swap.bytes] h.programId).1

def newSwap (h : Host) (initiator : Pubkey) (hashLock : Bytes32) (amount : U64)
    (counterparty : Pubkey) (lockDuration : I64) (assetType : AssetType) (tokenMint : Pubkey)
    (now : I64) : SwapAccount :=
  ⟨true,.opened,assetType,initiator,counterparty,amount,hashLock,0#256,lockDuration,now,tokenMint,
    (swapPda h hashLock initiator).2⟩

/-- The vault of a native swap is created with the amount itself; tokens are left to the caller. -/
def lockFunds (iv : Invocation) (initiator vault : Pubkey) (amount : U64) (assetType : AssetType)
    (f : Frame) : ProgramResult :=
  if assetType=.nativePrism then
    iv.invoke [initiator,vault] (iv.createAccount initiator vault amount 0) f
  else pure f

def processCreateSwap (h : Host) (clock : Clock) (accounts : List AccountInfo) (hashLock : Bytes32)
    (amount : U64) (counterparty : Pubkey) (lockDuration : I64) (assetType : AssetType)
    (tokenMint : Pubkey) (f : Frame) : ProgramResult :=
  match accounts with
  | initiator::swapAccount::vaultAccount::_system::_ => do
    requireSigner initiator
    require (amount≠0#64) (err .invalidAmount)
    require (¬(lockDuration.toInt< minLockDuration.toInt ∨
      maxLockDuration.toInt<lockDuration.toInt)) (err .invalidLockDuration)
    require ((swapPda h hashLock initiator.key).1=swapAccount.key) (err .invalidPda)
    require (vaultPda h swapAccount.key=vaultAccount.key) (err .invalidPda)
    let iv : Invocation := ⟨h.programId,accounts⟩
    let f ← iv.invoke [initiator.key,swapAccount.key] (iv.createAccount initiator.key
      swapAccount.key (h.minimumBalance swapSize) swapSize) f
    let f ← lockFunds iv initiator.key vaultAccount.key amount assetType f
    f.store swapCodec (newSwap h initiator.key hashLock amount counterparty lockDuration assetType
      tokenMint clock.unixTimestamp) swapAccount.key
  | _ => notEnoughKeys

def loadOpenSwap (h : Host) (f : Frame) (k : Pubkey) : Except ProgramError SwapAccount := do
  require ((f.view k).owner=h.programId) .incorrectProgramId
  let swap ← okOr (swapCodec.tryFromSlice (f.view k).data) .borshIoError
  require (swap.isInitialized=true) (err .invalidState)
  require (swap.state=.opened) (err .invalidState)
  pure swap

/-- Everything in the account passed as the vault, which is not compared with the vault of the
swap. Tokens are left to the caller. -/
def payOut (assetType : AssetType) (vault receive : Pubkey) (f : Frame)  : ProgramResult :=
  if assetType=.nativePrism then f.drain vault receive (err .overflow) else pure f

def processClaimSwap (e : Env) (clock : Clock) (accounts : List AccountInfo) (secret : Bytes32)
    (f : Frame) : ProgramResult :=
  match accounts with
  | claimer::swapAccount::vaultAccount::claimerReceive::_system::_ => do
    requireSigner claimer
    let swap ← loadOpenSwap e f swapAccount.key
    require (claimer.key=swap.counterparty) (err .unauthorized)
    require (swap.isExpired clock.unixTimestamp=false) (err .alreadyExpired)
    require (swap.verifySecret e secret=true) (err .invalidSecret)
    let f ← payOut swap.assetType vaultAccount.key claimerReceive.key f
    f.store swapCodec {swap with state := .claimed,secret := secret} swapAccount.key
  | _ => notEnoughKeys

def processRefundSwap (h : Host) (clock : Clock) (accounts : List AccountInfo) (f : Frame) :
    ProgramResult :=
  match accounts with
  | initiator::swapAccount::vaultAccount::initiatorReceive::_system::_ => do
    requireSigner initiator
    let swap ← loadOpenSwap h f swapAccount.key
    require (initiator.key=swap.initiator) (err .unauthorized)
    require (swap.isExpired clock.unixTimestamp=true) (err .notYetExpired)
    let f ← payOut swap.assetType vaultAccount.key initiatorReceive.key f
    f.store swapCodec {swap with state := .refunded} swapAccount.key
  | _ => notEnoughKeys

def processInstruction (e : Env) (clock : Clock) (accounts : List AccountInfo) :
    Instruction → Frame → ProgramResult
  | .createSwap hashLock amount counterparty lockDuration assetType tokenMint =>
      processCreateSwap e clock accounts hashLock amount counterparty lockDuration assetType
        tokenMint
  | .claimSwap secret => processClaimSwap e clock accounts secret
  | .refundSwap => processRefundSwap e clock accounts

def program (e : Env) : Program Instruction := ⟨e.programId,processInstruction e⟩

end PrismChain.AtomicSwap
