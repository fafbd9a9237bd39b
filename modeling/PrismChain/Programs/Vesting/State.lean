import PrismChain.Framework.Records

namespace PrismChain.Vesting

open FixedWidth

def registrySeed : List Byte := ascii "prism_vesting_registry".toList
def scheduleSeed : List Byte := ascii "prism_vesting_schedule".toList
def vaultSeed : List Byte := ascii "prism_vesting_vault".toList

def maxBeneficiaries : Nat := 256

def secondsPerMonth : I64 := 2592000#64
def secondsPerQuarter : I64 := 7776000#64

inductive ReleaseSchedule where
  | linear
  | quarterly
  deriving DecidableEq

inductive VestingStatus where
  | active
  | completed
  | revoked
  deriving DecidableEq

inductive VestingError where
  | alreadyInitialized
  | notInitialized
  | scheduleAlreadyInitialized
  | scheduleNotInitialized
  | unauthorized
  | overflow
  | nothingToClaim
  | notRevocable
  | alreadyRevoked
  | alreadyCompleted
  | cliffNotReached
  | invalidDuration
  | zeroAmount
  | maxBeneficiaries
  deriving DecidableEq

def err (e : VestingError) : ProgramError := .custom (BitVec.ofNat 32 e.ctorIdx)

structure VestingRegistry where
  isInitialized : Bool
  authority : Pubkey
  vault : Pubkey
  tokenMint : Pubkey
  totalDeposited : U64
  totalClaimed : U64
  totalRevoked : U64
  activeSchedules : U32
  scheduleCounter : U64
  bump : U8
  deriving DecidableEq

structure VestingSchedule where
  isInitialized : Bool
  registry : Pubkey
  beneficiary : Pubkey
  totalAmount : U64
  claimedAmount : U64
  startTimestamp : I64
  cliffSeconds : I64
  /-- From the start, the cliff included. -/
  durationSeconds : I64
  schedule : ReleaseSchedule
  status : VestingStatus
  revocable : Bool
  index : U64
  bump : U8
  deriving DecidableEq

open Codec

def releaseCodec : Codec ReleaseSchedule :=
  enumeration {all := [.linear,.quarterly]}

def statusCodec : Codec VestingStatus :=
  enumeration {all := [.active,.completed,.revoked]}

def registryCodec : Codec VestingRegistry :=
  (bool.pair (pubkeyCodec.pair (pubkeyCodec.pair (pubkeyCodec.pair (u64.pair (u64.pair (u64.pair
    (u32.pair (u64.pair u8))))))))).record
    (fun (i,a,v,m,d,c,r,n,s,b) => ⟨i,a,v,m,d,c,r,n,s,b⟩)
    (fun r => (r.isInitialized,r.authority,r.vault,r.tokenMint,r.totalDeposited,r.totalClaimed,
      r.totalRevoked,r.activeSchedules,r.scheduleCounter,r.bump))

def scheduleCodec : Codec VestingSchedule :=
  (bool.pair (pubkeyCodec.pair (pubkeyCodec.pair (u64.pair (u64.pair (i64.pair (i64.pair (i64.pair
    (releaseCodec.pair (statusCodec.pair (bool.pair (u64.pair u8)))))))))))).record
    (fun (i,r,o,t,c,s,l,d,k,x,v,n,b) => ⟨i,r,o,t,c,s,l,d,k,x,v,n,b⟩)
    (fun s => (s.isInitialized,s.registry,s.beneficiary,s.totalAmount,s.claimedAmount,
      s.startTimestamp,s.cliffSeconds,s.durationSeconds,s.schedule,s.status,s.revocable,s.index,
      s.bump))

def registryLen : Nat := 1+32+32+32+8+8+8+4+8+1
def scheduleLen : Nat := 1+32+32+8+8+8+8+8+1+1+1+8+1

theorem registry_size :
    registryCodec.HasSize registryLen := fun _ => by simp [registryCodec,registryLen]

theorem schedule_size : scheduleCodec.HasSize scheduleLen :=
  fun _ => by simp [scheduleCodec,releaseCodec,statusCodec,scheduleLen]

def proRata (amount : U64) (part whole : I64) : Except ProgramError U64 := do
  let product ← okOr (checkedMul (amount.setWidth 128) (part.signExtend 128)) (err .overflow)
  pure ((product/whole.signExtend 128).setWidth 64)

/-- What has vested after `elapsed` seconds of a window, in chunks; a window without a whole quarter
gives everything at once. -/
def inQuarters (amount : U64) (elapsed vestingWindow : I64) : Except ProgramError U64 :=
  let totalQuarters := vestingWindow.sdiv secondsPerQuarter
  if totalQuarters.toInt≤0 then .ok amount
  else proRata amount (smin (elapsed.sdiv secondsPerQuarter) totalQuarters) totalQuarters

/-- What has vested at the time `now`. The total of a revoked schedule is already what had vested
by then. -/
def calculateVestedAmount (s : VestingSchedule) (now : I64) : Except ProgramError U64 :=
  if s.status=.revoked then .ok s.totalAmount
  else do
    let cliffEnd ← okOr (checkedAddSigned s.startTimestamp s.cliffSeconds) (err .overflow)
    if now.toInt<cliffEnd.toInt then .ok 0#64
    else do
      let vestingEnd ← okOr (checkedAddSigned s.startTimestamp s.durationSeconds) (err .overflow)
      if vestingEnd.toInt≤now.toInt then .ok s.totalAmount
      else do
        let vestingWindow ← okOr (checkedSubSigned s.durationSeconds s.cliffSeconds) (err .overflow)
        if vestingWindow.toInt≤0 then .ok s.totalAmount
        else do
          let elapsed ← okOr (checkedSubSigned now cliffEnd) (err .overflow)
          match s.schedule with
          | .linear => proRata s.totalAmount elapsed vestingWindow
          | .quarterly => inQuarters s.totalAmount elapsed vestingWindow

end PrismChain.Vesting
