import PrismChain.Framework.Storage

namespace PrismChain.PrismMultisig

open Storage

def multisigSeed : List Byte := ascii "multisig".toList
def transactionSeed : List Byte := ascii "ms_transaction".toList
def maxSigners : Nat := 11
def minSigners : Nat := 2
def maxInstructionDataLen : Nat := 1024
def maxInstructionAccounts : Nat := 16

def maxTimeLockSecs : I64 := 2592000#64

inductive MultisigError where
  | notEnoughSigners
  | tooManySigners
  | thresholdTooHigh
  | thresholdTooLow
  | notASigner
  | alreadyApproved
  | alreadyRejected
  | thresholdNotMet
  | alreadyExecuted
  | alreadyCancelled
  | timeLockNotElapsed
  | timeLockTooLong
  | signerAlreadyExists
  | cannotRemoveBelowThreshold
  | invalidAuthority
  | alreadyInitialized
  | transactionNotPending
  | instructionDataTooLarge
  | tooManyInstructionAccounts
  | overflow
  | invalidAccountData
  | transactionRejected
  deriving DecidableEq

def err (e : MultisigError) : ProgramError := .custom (BitVec.ofNat 32 e.ctorIdx)

inductive TransactionStatus where
  | pending
  | approved
  | executed
  | rejected
  | cancelled
  deriving DecidableEq

structure MultisigAccountMeta where
  pubkey : Pubkey
  isSigner : Bool
  isWritable : Bool
  deriving DecidableEq

structure MultisigInstructionData where
  programId : Pubkey
  accounts : Vec MultisigAccountMeta
  data : Vec Byte
  deriving DecidableEq

structure Multisig where
  isInitialized : Bool
  threshold : U8
  signers : Vec Pubkey
  transactionCount : U64
  timeLockSeconds : I64
  label : BitVec 256
  bump : U8
  deriving DecidableEq

structure MultisigTransaction where
  isInitialized : Bool
  /-- Which multisig this belongs to. -/
  multisig : Pubkey
  txId : U64
  proposer : Pubkey
  instruction : MultisigInstructionData
  status : TransactionStatus
  approvals : Vec Pubkey
  rejections : Vec Pubkey
  approvedAt : I64
  createdAt : I64
  executedAt : I64
  bump : U8
  deriving DecidableEq

inductive Instruction where
  | createMultisig (threshold : U8) (signers : Vec Pubkey) (timeLockSeconds : I64)
      (label : BitVec 256)
  | proposeTransaction (instruction : MultisigInstructionData)
  | approveTransaction
  | rejectTransaction
  | executeTransaction
  | cancelTransaction
  | addSigner (newSigner : Pubkey)
  | removeSigner (signerToRemove : Pubkey)
  | changeThreshold (newThreshold : U8)
  deriving DecidableEq

open Codec in
def statusCodec : Codec TransactionStatus :=
  enumeration {all := [.pending,.approved,.executed,.rejected,.cancelled]}

open Codec in
def metaCodec : Codec MultisigAccountMeta :=
  (pubkeyCodec.pair (bool.pair bool)).record
    (fun (k,s,w) => ⟨k,s,w⟩) (fun m => (m.pubkey,m.isSigner,m.isWritable))

open Codec in
def instructionDataCodec : Codec MultisigInstructionData :=
  (pubkeyCodec.pair (metaCodec.vec.pair (uint 1).vec)).record
    (fun (p,a,d) => ⟨p,a,d⟩) (fun i => (i.programId,i.accounts,i.data))

open Codec in
def multisigCodec : Codec Multisig :=
  (bool.pair (u8.pair (pubkeyCodec.vec.pair (u64.pair (i64.pair ((uint 32).pair u8)))))).record
    (fun (i,t,s,n,l,a,k) => ⟨i,t,s,n,l,a,k⟩)
    (fun m =>
    (m.isInitialized,m.threshold,m.signers,m.transactionCount,m.timeLockSeconds,m.label,m.bump))

open Codec in
def transactionCodec : Codec MultisigTransaction :=
  (bool.pair (pubkeyCodec.pair (u64.pair (pubkeyCodec.pair (instructionDataCodec.pair
    (statusCodec.pair (pubkeyCodec.vec.pair (pubkeyCodec.vec.pair (i64.pair (i64.pair
      (i64.pair u8))))))))))).record
    (fun (i,m,n,p,x,s,a,r,v,c,e,k) => ⟨i,m,n,p,x,s,a,r,v,c,e,k⟩)
    (fun t => (t.isInitialized,t.multisig,t.txId,t.proposer,t.instruction,t.status,t.approvals,
      t.rejections,t.approvedAt,t.createdAt,t.executedAt,t.bump))

@[reducible] def Instruction.Fields : Fin 9 → Type
  | 0 => U8×Vec Pubkey×I64×BitVec 256
  | 1 => MultisigInstructionData
  | 2 => Unit
  | 3 => Unit
  | 4 => Unit
  | 5 => Unit
  | 6 => Pubkey
  | 7 => Pubkey
  | 8 => U8

open Codec in
def Instruction.fieldsCodec : (i : Fin 9) → Codec (Fields i)
  | 0 => u8.pair (pubkeyCodec.vec.pair (i64.pair (uint 32)))
  | 1 => instructionDataCodec
  | 2 => unit
  | 3 => unit
  | 4 => unit
  | 5 => unit
  | 6 => pubkeyCodec
  | 7 => pubkeyCodec
  | 8 => u8

/-- What an instruction is sent as, which matters when the program calls itself. -/
def instructionCodec : Codec Instruction :=
  (Codec.sigma (by decide) Instruction.fieldsCodec).record (fun x => match x with
      | ⟨0,threshold,signers,timeLock,label⟩ => .createMultisig threshold signers timeLock label
      | ⟨1,instruction⟩ => .proposeTransaction instruction
      | ⟨2,()⟩ => .approveTransaction
      | ⟨3,()⟩ => .rejectTransaction
      | ⟨4,()⟩ => .executeTransaction
      | ⟨5,()⟩ => .cancelTransaction
      | ⟨6,k⟩ => .addSigner k
      | ⟨7,k⟩ => .removeSigner k
      | ⟨8,t⟩ => .changeThreshold t)
    (fun i => match i with
      | .createMultisig threshold signers timeLock label => ⟨0,threshold,signers,timeLock,label⟩
      | .proposeTransaction instruction => ⟨1,instruction⟩
      | .approveTransaction => ⟨2,()⟩
      | .rejectTransaction => ⟨3,()⟩
      | .executeTransaction => ⟨4,()⟩
      | .cancelTransaction => ⟨5,()⟩
      | .addSigner k => ⟨6,k⟩
      | .removeSigner k => ⟨7,k⟩
      | .changeThreshold t => ⟨8,t⟩)
    (by intro i; cases i <;> rfl)
    (by intro x
        match x with
        | ⟨0,_,_,_,_⟩ => rfl
        | ⟨1,_⟩ => rfl
        | ⟨2,()⟩ => rfl
        | ⟨3,()⟩ => rfl
        | ⟨4,()⟩ => rfl
        | ⟨5,()⟩ => rfl
        | ⟨6,_⟩ => rfl
        | ⟨7,_⟩ => rfl
        | ⟨8,_⟩ => rfl)

structure Formats where
  multisig : Storage Multisig
  transaction : Storage MultisigTransaction

namespace Formats

def borsh : Formats := ⟨.inPlace multisigCodec,.inPlace transactionCodec⟩

def values : Formats := ⟨.whole 1#8 multisigCodec,.whole 2#8 transactionCodec⟩

/-- A transaction that is read from zeros was never proposed. -/
def Blank (fm : Formats) : Prop :=
  ∀ {d t},(∀ x∈d,x=0#8) → fm.transaction.load d=some t → t.isInitialized=false

theorem values_blank : values.Blank := by
  intro d t hzero hload
  have hexact : (whole 2#8 transactionCodec).Exact := whole_exact (by decide) _
  have hnone := hexact.blank hzero
  cases hnone.symm.trans hload

theorem borsh_blank : borsh.Blank := by
  intro d t hzero hload
  rw [transactionCodec.tryFromSlice_eq_some.mp hload] at hzero
  rw [Bool.eq_false_iff]
  intro hlive
  have hfirst : 1#8∈transactionCodec.encode t := by
    change 1#8∈Codec.bool.encode t.isInitialized++_
    rw [hlive]
    exact List.mem_append_left _ (by decide)
  cases hzero _ hfirst

end Formats

def isSignerOf (multisig : Multisig) (key : Pubkey) : Bool := multisig.signers.val.contains key

end PrismChain.PrismMultisig
