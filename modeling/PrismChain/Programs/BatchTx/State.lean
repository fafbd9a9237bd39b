import PrismChain.Framework.Records

namespace PrismChain.BatchTx

def maxBatchRecipients : Nat := 64
def minScheduleDelaySlots : U64 := 5#64

def scheduleSeed : List Byte := ascii "scheduled_tx".toList
def conditionalSeed : List Byte := ascii "conditional_tx".toList
def recurringSeed : List Byte := ascii "recurring_tx".toList
def escrowSeed : List Byte := ascii "batch_escrow".toList

inductive BatchTxError where
  | tooManyRecipients
  | mismatchedArrays
  | invalidAmount
  | insufficientFunds
  | notYetDue
  | alreadyExecuted
  | conditionNotMet
  | intervalNotElapsed
  | unauthorized
  | overflow
  | invalidPda
  | notInitialized
  | maxTransfersReached
  | scheduleTooSoon
  deriving DecidableEq

def err (e : BatchTxError) : ProgramError := .custom (BitVec.ofNat 32 e.ctorIdx)

inductive TransferStatus where
  | pending
  | executed
  | cancelled
  deriving DecidableEq

structure BatchRecipient where
  address : Pubkey
  amount : U64
  deriving DecidableEq

structure ScheduledTransfer where
  isInitialized : Bool
  status : TransferStatus
  creator : Pubkey
  recipient : Pubkey
  amount : U64
  executeAtSlot : U64
  executeAtTimestamp : I64
  createdAt : I64
  executedAt : I64
  bump : U8
  nonce : U64
  deriving DecidableEq

inductive ConditionType where
  | balanceAbove
  | balanceBelow
  deriving DecidableEq

structure ConditionalTransfer where
  isInitialized : Bool
  status : TransferStatus
  creator : Pubkey
  recipient : Pubkey
  amount : U64
  conditionAccount : Pubkey
  conditionType : ConditionType
  threshold : U64
  expiresAt : I64
  createdAt : I64
  bump : U8
  deriving DecidableEq

structure RecurringTransfer where
  isInitialized : Bool
  status : TransferStatus
  creator : Pubkey
  recipient : Pubkey
  amount : U64
  intervalSeconds : I64
  maxExecutions : U64
  executionsCompleted : U64
  lastExecutedAt : I64
  createdAt : I64
  bump : U8
  nonce : U64
  deriving DecidableEq

open Codec

def statusCodec : Codec TransferStatus :=
  enumeration {all := [.pending,.executed,.cancelled]}

def conditionCodec : Codec ConditionType :=
  enumeration {all := [.balanceAbove,.balanceBelow]}

def scheduledCodec : Codec ScheduledTransfer :=
  (bool.pair (statusCodec.pair (pubkeyCodec.pair (pubkeyCodec.pair (u64.pair (u64.pair (i64.pair
    (i64.pair (i64.pair (u8.pair u64)))))))))).record
    (fun (i,s,c,r,n,a,t,d,x,b,k) => ⟨i,s,c,r,n,a,t,d,x,b,k⟩)
    (fun x => (x.isInitialized,x.status,x.creator,x.recipient,x.amount,x.executeAtSlot,
      x.executeAtTimestamp,x.createdAt,x.executedAt,x.bump,x.nonce))

def conditionalCodec : Codec ConditionalTransfer :=
  (bool.pair (statusCodec.pair (pubkeyCodec.pair (pubkeyCodec.pair (u64.pair (pubkeyCodec.pair
    (conditionCodec.pair (u64.pair (i64.pair (i64.pair u8)))))))))).record
    (fun (i,s,c,r,n,a,t,h,x,d,b) => ⟨i,s,c,r,n,a,t,h,x,d,b⟩)
    (fun x => (x.isInitialized,x.status,x.creator,x.recipient,x.amount,x.conditionAccount,
      x.conditionType,x.threshold,x.expiresAt,x.createdAt,x.bump))

def recurringCodec : Codec RecurringTransfer :=
  (bool.pair (statusCodec.pair (pubkeyCodec.pair (pubkeyCodec.pair (u64.pair (i64.pair (u64.pair
    (u64.pair (i64.pair (i64.pair (u8.pair u64))))))))))).record
    (fun (i,s,c,r,n,v,m,x,l,d,b,k) => ⟨i,s,c,r,n,v,m,x,l,d,b,k⟩)
    (fun x => (x.isInitialized,x.status,x.creator,x.recipient,x.amount,x.intervalSeconds,
      x.maxExecutions,x.executionsCompleted,x.lastExecutedAt,x.createdAt,x.bump,x.nonce))

def scheduledSize : Nat := 115
def conditionalSize : Nat := 132
def recurringSize : Nat := 123

theorem scheduled_size : scheduledCodec.HasSize scheduledSize :=
  fun _ => by simp [scheduledCodec,statusCodec,scheduledSize]

theorem conditional_size : conditionalCodec.HasSize conditionalSize :=
  fun _ => by simp [conditionalCodec,statusCodec,conditionCodec,conditionalSize]

theorem recurring_size : recurringCodec.HasSize recurringSize :=
  fun _ => by simp [recurringCodec,statusCodec,recurringSize]

inductive Kind where
  | scheduled
  | conditional
  | recurring
  deriving DecidableEq

namespace Kind

abbrev Record : Kind → Type
  | scheduled => ScheduledTransfer
  | conditional => ConditionalTransfer
  | recurring => RecurringTransfer

def codec : (κ : Kind) → Codec κ.Record
  | scheduled => scheduledCodec
  | conditional => conditionalCodec
  | recurring => recurringCodec

def size : Kind → Nat
  | scheduled => scheduledSize
  | conditional => conditionalSize
  | recurring => recurringSize

def isInitialized : (κ : Kind) → κ.Record → Bool
  | scheduled => ScheduledTransfer.isInitialized
  | conditional => ConditionalTransfer.isInitialized
  | recurring => RecurringTransfer.isInitialized

def status : (κ : Kind) → κ.Record → TransferStatus
  | scheduled => ScheduledTransfer.status
  | conditional => ConditionalTransfer.status
  | recurring => RecurringTransfer.status

def creator : (κ : Kind) → κ.Record → Pubkey
  | scheduled => ScheduledTransfer.creator
  | conditional => ConditionalTransfer.creator
  | recurring => RecurringTransfer.creator

def recipient : (κ : Kind) → κ.Record → Pubkey
  | scheduled => ScheduledTransfer.recipient
  | conditional => ConditionalTransfer.recipient
  | recurring => RecurringTransfer.recipient

def seeds : (κ : Kind) → κ.Record → List (List Byte)
  | scheduled,x => [scheduleSeed,x.creator.bytes,leBytes 8 x.nonce.toNat]
  | conditional,x =>
      [conditionalSeed,x.creator.bytes,x.conditionAccount.bytes,leBytes 8 x.amount.toNat]
  | recurring,x => [recurringSeed,x.creator.bytes,leBytes 8 x.nonce.toNat]

theorem hasSize : (κ : Kind) → κ.codec.HasSize κ.size
  | scheduled => scheduled_size
  | conditional => conditional_size
  | recurring => recurring_size

theorem size_pos (κ : Kind) : 0<κ.size := by
  cases κ <;> decide

theorem size_inj {κ ι : Kind} (h : κ.size=ι.size) : κ=ι := by
  cases κ <;> cases ι <;> first | rfl | exact absurd h (by decide)

theorem marked (κ : Kind) : Marked κ.codec κ.isInitialized := by
  intro x hinit
  have hhead : 1#8∈bool.encode (κ.isInitialized x) := by
    rw [hinit]
    decide
  cases κ <;> exact List.mem_append_left _ hhead

end Kind
end PrismChain.BatchTx
