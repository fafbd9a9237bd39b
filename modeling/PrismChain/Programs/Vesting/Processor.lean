import PrismChain.Framework.Callee
import PrismChain.Programs.Vesting.State

namespace PrismChain.Vesting

open FixedWidth

inductive Instruction where
  | initializeRegistry
  | createSchedule (beneficiary : Pubkey) (totalAmount : U64) (cliffMonths durationMonths : U32)
      (schedule : ReleaseSchedule) (revocable : Bool)
  | claim
  | revoke
  | querySchedule
  | transferAuthority (newAuthority : Pubkey)
  deriving DecidableEq

def registryPda (h : Host) : Pubkey×U8 := h.findProgramAddress [registrySeed] h.programId

def schedulePda (h : Host) (registry : Pubkey) (index : U64) : Pubkey×U8 :=
  h.findProgramAddress [scheduleSeed,registry.bytes,leBytes 8 index.toNat] h.programId

def vaultAuthorityPda (h : Host) (registry : Pubkey) : Pubkey×U8 :=
  h.findProgramAddress [vaultSeed,registry.bytes] h.programId

/-- Who owns the account is left to the runtime, which lets only the owner change its data. -/
def loadRegistry (f : Frame) (k : Pubkey) : Except ProgramError VestingRegistry :=
  okOr (registryCodec.tryFromSlice (f.view k).data) .borshIoError

def loadOwnRegistry (f : Frame) (k authority : Pubkey) : Except ProgramError VestingRegistry := do
  let registry ← loadRegistry f k
  require (registry.isInitialized=true) (err .notInitialized)
  require (registry.authority=authority) (err .unauthorized)
  pure registry

def loadSchedule (f : Frame) (k : Pubkey) : Except ProgramError VestingSchedule := do
  let schedule ← okOr (scheduleCodec.tryFromSlice (f.view k).data) .borshIoError
  require (schedule.isInitialized=true) (err .scheduleNotInitialized)
  pure schedule

def newRegistry (h : Host) (authority vault tokenMint : Pubkey) : VestingRegistry :=
  ⟨true,authority,vault,tokenMint,0#64,0#64,0#64,0#32,0#64,(registryPda h).2⟩

def processInitializeRegistry (h : Host) (accounts : List AccountInfo) (f : Frame) :
    ProgramResult :=
  match accounts with
  | authority::registryAccount::vault::tokenMint::_system::_ => do
    requireSigner authority
    require ((registryPda h).1=registryAccount.key) .invalidSeeds
    let iv : Invocation := ⟨h.programId,accounts⟩
    let f ← iv.invoke [authority.key,registryAccount.key] (iv.createAccount authority.key
      registryAccount.key (h.minimumBalance registryLen) registryLen) f
    f.store registryCodec (newRegistry h authority.key vault.key tokenMint.key) registryAccount.key
  | _ => notEnoughKeys

def monthsToSeconds (months : U32) : Except ProgramError I64 :=
  okOr (checkedMulSigned (months.setWidth 64) secondsPerMonth) (err .overflow)

def newSchedule (h : Host) (registry beneficiary : Pubkey) (totalAmount : U64)
    (now cliffSeconds durationSeconds : I64) (schedule : ReleaseSchedule) (revocable : Bool)
    (index : U64) : VestingSchedule :=
  ⟨true,registry,beneficiary,totalAmount,0#64,now,cliffSeconds,durationSeconds,schedule,.active,
    revocable,index,(schedulePda h registry index).2⟩

def deposited (registry : VestingRegistry) (totalAmount : U64) :
    Except ProgramError VestingRegistry := do
  let deposits ← okOr (checkedAdd registry.totalDeposited totalAmount) (err .overflow)
  let active ← okOr (checkedAdd registry.activeSchedules 1#32) (err .overflow)
  let counter ← okOr (checkedAdd registry.scheduleCounter 1#64) (err .overflow)
  pure {registry with
    totalDeposited := deposits
    activeSchedules := active
    scheduleCounter := counter}

def processCreateSchedule (h : Host) (clock : Clock) (accounts : List AccountInfo)
    (beneficiary : Pubkey) (totalAmount : U64) (cliffMonths durationMonths : U32)
    (schedule : ReleaseSchedule) (revocable : Bool) (f : Frame) : ProgramResult :=
  match accounts with
  | authority::registryAccount::scheduleAccount::_beneficiary::_system::_ => do
    requireSigner authority
    let registry ← loadOwnRegistry f registryAccount.key authority.key
    require (totalAmount≠0#64) (err .zeroAmount)
    require (registry.activeSchedules.toNat< maxBeneficiaries) (err .maxBeneficiaries)
    let cliffSeconds ← monthsToSeconds cliffMonths
    let durationSeconds ← monthsToSeconds durationMonths
    require (¬(durationSeconds.toInt≤cliffSeconds.toInt ∧ 0<durationMonths.toNat ∧
      0<cliffMonths.toNat)) (err .invalidDuration)
    let index := registry.scheduleCounter
    require ((schedulePda h registryAccount.key index).1=scheduleAccount.key) .invalidSeeds
    let iv : Invocation := ⟨h.programId,accounts⟩
    let f ← iv.invoke [authority.key,scheduleAccount.key] (iv.createAccount authority.key
      scheduleAccount.key (h.minimumBalance scheduleLen) scheduleLen) f
    let f ← f.store scheduleCodec (newSchedule h registryAccount.key beneficiary totalAmount
      clock.unixTimestamp cliffSeconds durationSeconds schedule revocable index) scheduleAccount.key
    let registry ← deposited registry totalAmount
    f.store registryCodec registry registryAccount.key
  | _ => notEnoughKeys

def claimed (s : VestingSchedule) (claimable : U64) : Except ProgramError VestingSchedule := do
  let amount ← okOr (checkedAdd s.claimedAmount claimable) (err .overflow)
  pure {s with
    claimedAmount := amount
    status := if s.totalAmount.toNat≤amount.toNat then .completed else s.status}

def countClaim (registry : VestingRegistry) (claimable : U64) (status : VestingStatus) :
    Except ProgramError VestingRegistry := do
  let total ← okOr (checkedAdd registry.totalClaimed claimable) (err .overflow)
  pure {registry with
    totalClaimed := total
    activeSchedules := if status=.completed then saturatingSub registry.activeSchedules 1#32
      else registry.activeSchedules}

/-- Nobody checks whose account the schedule is, nor which program is called for the transfer. A
call of this very program fails: the data is none of its instructions. -/
def processClaim (e : Deployment) (clock : Clock) (accounts : List AccountInfo) (f : Frame) :
    ProgramResult :=
  match accounts with
  | beneficiary::scheduleAccount::registryAccount::vaultTokenAccount::beneficiaryTokenAccount::
      vaultAuthority::tokenProgram::clockSysvar::_ => do
    requireSigner beneficiary
    let schedule ← loadSchedule f scheduleAccount.key
    require (schedule.beneficiary=beneficiary.key) (err .unauthorized)
    require (schedule.status≠.completed) (err .alreadyCompleted)
    e.requireClock clockSysvar
    let vested ← calculateVestedAmount schedule clock.unixTimestamp
    let claimable ← okOr (checkedSub vested schedule.claimedAmount) (err .overflow)
    require (claimable≠0#64) (err .nothingToClaim)
    require ((vaultAuthorityPda e registryAccount.key).1=vaultAuthority.key) .invalidSeeds
    let iv : Invocation := ⟨e.programId,accounts⟩
    let f ← iv.invoke [vaultTokenAccount.key,beneficiaryTokenAccount.key,vaultAuthority.key]
      (e.tokenCall iv tokenProgram.key 3#8 vaultTokenAccount.key beneficiaryTokenAccount.key
        vaultAuthority.key claimable) f
    let schedule ← claimed schedule claimable
    let f ← f.store scheduleCodec schedule scheduleAccount.key
    let registry ← loadRegistry f registryAccount.key
    let registry ← countClaim registry claimable schedule.status
    f.store registryCodec registry registryAccount.key
  | _ => notEnoughKeys

def countRevocation (registry : VestingRegistry) (unvested : U64) :
    Except ProgramError VestingRegistry := do
  let total ← okOr (checkedAdd registry.totalRevoked unvested) (err .overflow)
  pure {registry with
    totalRevoked := total
    activeSchedules := saturatingSub registry.activeSchedules 1#32}

def processRevoke (h : Host) (clock : Clock) (accounts : List AccountInfo) (f : Frame) :
    ProgramResult :=
  match accounts with
  | authority::scheduleAccount::registryAccount::clockSysvar::_ => do
    requireSigner authority
    let _ ← loadOwnRegistry f registryAccount.key authority.key
    let schedule ← loadSchedule f scheduleAccount.key
    require (schedule.revocable=true) (err .notRevocable)
    require (schedule.status≠.revoked) (err .alreadyRevoked)
    require (schedule.status≠.completed) (err .alreadyCompleted)
    h.requireClock clockSysvar
    let vested ← calculateVestedAmount schedule clock.unixTimestamp
    let unvested ← okOr (checkedSub schedule.totalAmount vested) (err .overflow)
    let f ← f.store scheduleCodec {schedule with totalAmount := vested,status := .revoked}
      scheduleAccount.key
    let registry ← loadRegistry f registryAccount.key
    let registry ← countRevocation registry unvested
    f.store registryCodec registry registryAccount.key
  | _ => notEnoughKeys

def processQuerySchedule (h : Host) (clock : Clock) (accounts : List AccountInfo) (f : Frame) :
    ProgramResult :=
  match accounts with
  | scheduleAccount::clockSysvar::_ => do
    let schedule ← loadSchedule f scheduleAccount.key
    h.requireClock clockSysvar
    let _ ← calculateVestedAmount schedule clock.unixTimestamp
    pure f
  | _ => notEnoughKeys

def processTransferAuthority (accounts : List AccountInfo) (newAuthority : Pubkey) (f : Frame) :
    ProgramResult :=
  match accounts with
  | currentAuthority::registryAccount::_ => do
    requireSigner currentAuthority
    let registry ← loadOwnRegistry f registryAccount.key currentAuthority.key
    f.store registryCodec {registry with authority := newAuthority} registryAccount.key
  | _ => notEnoughKeys

def processInstruction (e : Deployment) (clock : Clock) (accounts : List AccountInfo) :
    Instruction → Frame → ProgramResult
  | .initializeRegistry => processInitializeRegistry e accounts
  | .createSchedule beneficiary totalAmount cliffMonths durationMonths schedule revocable =>
      processCreateSchedule e clock accounts beneficiary totalAmount cliffMonths
        durationMonths schedule revocable
  | .claim => processClaim e clock accounts
  | .revoke => processRevoke e clock accounts
  | .querySchedule => processQuerySchedule e clock accounts
  | .transferAuthority newAuthority => processTransferAuthority accounts newAuthority

def program (e : Deployment) : Program Instruction := ⟨e.programId,processInstruction e⟩

end PrismChain.Vesting
