import PrismChain.Framework.Storage

namespace PrismChain.SocialRecovery

open Storage

def recoveryConfigSeed : List Byte := ascii "recovery_config".toList
def recoveryRequestSeed : List Byte := ascii "recovery_request".toList
def minGuardians : Nat := 3
def maxGuardians : Nat := 5

def recoveryDelaySecs : I64 := 172800#64

def guardianReplacementDelaySecs : I64 := 604800#64
def recoveryExpirySecs : I64 := 1209600#64

inductive RecoveryError where
  | alreadyInitialized
  | notInitialized
  | tooFewGuardians
  | tooManyGuardians
  | notOwner
  | notGuardian
  | delayNotElapsed
  | recoveryCancelled
  | recoveryExpired
  | alreadyApproved
  | thresholdNotMet
  | guardianAlreadyExists
  | replacementDelayNotElapsed
  | noActiveRecovery
  | alreadyExecuted
  | selfGuardian
  | duplicateGuardian
  | overflow
  | invalidAccountData
  | invalidStatus
  | replacementAlreadyPending
  | noPendingReplacement
  deriving DecidableEq

def err (e : RecoveryError) : ProgramError := .custom (BitVec.ofNat 32 e.ctorIdx)

inductive RecoveryStatus where
  | pending
  | approved
  | executed
  | cancelled
  | expired
  deriving DecidableEq

inductive GuardianReplacementStatus where
  | pending
  | executed
  | cancelled
  deriving DecidableEq

structure GuardianReplacement where
  oldGuardian : Pubkey
  newGuardian : Pubkey
  initiatedAt : I64
  status : GuardianReplacementStatus
  deriving DecidableEq

structure RecoveryConfig where
  isInitialized : Bool
  owner : Pubkey
  guardians : Vec Pubkey
  threshold : U8
  requestCount : U64
  pendingReplacement : Option GuardianReplacement
  bump : U8
  deriving DecidableEq

structure RecoveryRequest where
  isInitialized : Bool
  accountOwner : Pubkey
  requestId : U64
  newOwner : Pubkey
  initiator : Pubkey
  status : RecoveryStatus
  approvals : Vec Pubkey
  /-- The threshold of the config when the request was made. -/
  threshold : U8
  createdAt : I64
  approvedAt : I64
  executedAt : I64
  bump : U8
  deriving DecidableEq

open Codec in
def statusCodec : Codec RecoveryStatus :=
  enumeration {all := [.pending,.approved,.executed,.cancelled,.expired]}

open Codec in
def replacementStatusCodec : Codec GuardianReplacementStatus :=
  enumeration {all := [.pending,.executed,.cancelled]}

open Codec in
def replacementCodec : Codec GuardianReplacement :=
  (pubkeyCodec.pair (pubkeyCodec.pair (i64.pair replacementStatusCodec))).record
    (fun (o,n,i,s) => ⟨o,n,i,s⟩)
    (fun r => (r.oldGuardian,r.newGuardian,r.initiatedAt,r.status))

open Codec in
def configCodec : Codec RecoveryConfig :=
  (bool.pair (pubkeyCodec.pair (pubkeyCodec.vec.pair (u8.pair (u64.pair
    (replacementCodec.option.pair u8)))))).record
    (fun (i,o,g,t,n,p,k) => ⟨i,o,g,t,n,p,k⟩)
    (fun c =>
    (c.isInitialized,c.owner,c.guardians,c.threshold,c.requestCount,c.pendingReplacement,c.bump))

open Codec in
def requestCodec : Codec RecoveryRequest :=
  (bool.pair (pubkeyCodec.pair (u64.pair (pubkeyCodec.pair (pubkeyCodec.pair (statusCodec.pair
    (pubkeyCodec.vec.pair (u8.pair (i64.pair (i64.pair (i64.pair u8))))))))))).record
    (fun (i,o,n,w,g,s,a,t,c,p,x,k) => ⟨i,o,n,w,g,s,a,t,c,p,x,k⟩)
    (fun r => (r.isInitialized,r.accountOwner,r.requestId,r.newOwner,r.initiator,r.status,
      r.approvals,r.threshold,r.createdAt,r.approvedAt,r.executedAt,r.bump))

structure Formats where
  config : Storage RecoveryConfig
  request : Storage RecoveryRequest

def Formats.borsh : Formats := ⟨.inPlace configCodec,.inPlace requestCodec⟩

structure Formats.Decoded (fm : Formats) : Prop where
  config : fm.config.Exact
  request : fm.request.Exact
  apart : fm.config.Apart fm.request

def Formats.values : Formats := ⟨.whole 1#8 configCodec,.whole 2#8 requestCodec⟩

theorem Formats.values_decoded : Formats.values.Decoded where
  config := whole_exact (by decide) _
  request := whole_exact (by decide) _
  apart := whole_apart (by decide) _ _

def majorityThreshold (guardianCount : Nat) : U8 := BitVec.ofNat 8 (guardianCount/2+1)

def isGuardian (config : RecoveryConfig) (key : Pubkey) : Bool := config.guardians.val.contains key

end PrismChain.SocialRecovery
