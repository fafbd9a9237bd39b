import PrismChain.Framework.Records

namespace PrismChain.AtomicSwap

open FixedWidth

def maxLockDuration : I64 := 604800#64
def minLockDuration : I64 := 600#64

def swapSeed : List Byte := ascii "atomic_swap".toList
def vaultSeed : List Byte := ascii "swap_vault".toList

inductive SwapError where
  | alreadyInitialized
  | invalidState
  | invalidLockDuration
  | invalidSecret
  | notYetExpired
  | alreadyExpired
  | insufficientFunds
  | unauthorized
  | invalidAmount
  | overflow
  | invalidPda
  deriving DecidableEq

def err (e : SwapError) : ProgramError := .custom (BitVec.ofNat 32 e.ctorIdx)

inductive SwapState where
  | opened
  | claimed
  | refunded
  deriving DecidableEq

inductive AssetType where
  | nativePrism
  | splToken
  deriving DecidableEq

/-- A hash or a secret: 32 bytes, first byte lowest. -/
abbrev Bytes32 := BitVec 256

structure SwapAccount where
  isInitialized : Bool
  state : SwapState
  assetType : AssetType
  initiator : Pubkey
  counterparty : Pubkey
  amount : U64
  hashLock : Bytes32
  secret : Bytes32
  lockDuration : I64
  createdAt : I64
  tokenMint : Pubkey
  bump : U8
  deriving DecidableEq

def SwapAccount.deadline (x : SwapAccount) : I64 := saturatingAddSigned x.createdAt x.lockDuration

def SwapAccount.isExpired (x : SwapAccount) (now : I64) : Bool := x.deadline.toInt≤now.toInt

structure Env extends Host where
  hash : Bytes32 → Bytes32

instance : Coe Env Host := ⟨Env.toHost⟩

def SwapAccount.verifySecret (e : Env) (x : SwapAccount) (secret : Bytes32) : Bool :=
  e.hash secret=x.hashLock

open Codec

def stateCodec : Codec SwapState :=
  enumeration {all := [.opened,.claimed,.refunded]}

def assetCodec : Codec AssetType :=
  enumeration {all := [.nativePrism,.splToken]}

def swapCodec : Codec SwapAccount :=
  (bool.pair (stateCodec.pair (assetCodec.pair (pubkeyCodec.pair (pubkeyCodec.pair (u64.pair
    (pubkeyCodec.pair (pubkeyCodec.pair (i64.pair (i64.pair (pubkeyCodec.pair u8))))))))))).record
    (fun (i,s,t,a,c,n,h,x,l,d,m,b) => ⟨i,s,t,a,c,n,h,x,l,d,m,b⟩)
    (fun x => (x.isInitialized,x.state,x.assetType,x.initiator,x.counterparty,x.amount,x.hashLock,
      x.secret,x.lockDuration,x.createdAt,x.tokenMint,x.bump))

def swapSize : Nat := 188

theorem swap_size :
    swapCodec.HasSize swapSize := fun _ => by simp [swapCodec,stateCodec,assetCodec,swapSize]

theorem swap_marked : Marked swapCodec SwapAccount.isInitialized := by
  intro x hinit
  change 1#8∈bool.encode x.isInitialized++_
  rw [hinit]
  exact List.mem_append_left _ (by decide)

end PrismChain.AtomicSwap
