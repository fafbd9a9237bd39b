import PrismChain.Framework.Transactions

namespace PrismChain.FlashLoan

open FixedWidth

def poolSeed : List Byte := ascii ['f','l','a','s','h','_','p','o','o','l']
def vaultSeed : List Byte := ascii ['f','l','a','s','h','_','v','a','u','l','t']
def receiptSeed : List Byte := ascii ['f','l','a','s','h','_','r','e','c','e','i','p','t']

def flashLoanFeeBps : U64 := 9#64
def feeDenominator : U64 := 10000#64
def maxProviders : Nat := 256

inductive FlashLoanError where
  | alreadyInitialized
  | notInitialized
  | insufficientLiquidity
  | loanNotRepaid
  | invalidAmount
  | unauthorized
  | overflow
  | invalidPDA
  | reentrancyDetected
  | noActiveLoan
  | maxProvidersReached
  | providerNotFound
  | insufficientProviderBalance
  deriving DecidableEq

def err (e : FlashLoanError) : ProgramError := .custom (BitVec.ofNat 32 e.ctorIdx)

structure ProviderShare where
  owner : Pubkey
  deposited : U64
  feesEarned : U64
  lastUpdated : I64
  deriving DecidableEq

abbrev Providers := {l : List ProviderShare // l.length<2^32}

structure FlashLoanPool where
  isInitialized : Bool
  admin : Pubkey
  tokenMint : Pubkey
  totalLiquidity : U64
  totalFeesCollected : U64
  totalLoansExecuted : U64
  isPaused : Bool
  bump : U8
  providerCount : U32
  providers : Providers
  deriving DecidableEq

structure FlashLoanReceipt where
  isActive : Bool
  pool : Pubkey
  borrower : Pubkey
  amount : U64
  fee : U64
  vaultBalanceBefore : U64
  bump : U8
  deriving DecidableEq

open Codec

def providerCodec : Codec ProviderShare :=
  (pubkeyCodec.pair (u64.pair (u64.pair i64))).record (fun (o,d,f,l) => ⟨o,d,f,l⟩)
    (fun p => (p.owner,p.deposited,p.feesEarned,p.lastUpdated))

def poolCodec : Codec FlashLoanPool :=
  (bool.pair (pubkeyCodec.pair (pubkeyCodec.pair (u64.pair (u64.pair (u64.pair (bool.pair (u8.pair
    (u32.pair (vec providerCodec)))))))))).record
    (fun (i,a,m,t,f,l,s,b,c,p) => ⟨i,a,m,t,f,l,s,b,c,p⟩)
    (fun p => (p.isInitialized,p.admin,p.tokenMint,p.totalLiquidity,p.totalFeesCollected,
      p.totalLoansExecuted,p.isPaused,p.bump,p.providerCount,p.providers))

def receiptCodec : Codec FlashLoanReceipt :=
  (bool.pair (pubkeyCodec.pair (pubkeyCodec.pair (u64.pair (u64.pair (u64.pair u8)))))).record
    (fun (a,p,o,n,f,v,b) => ⟨a,p,o,n,f,v,b⟩)
    (fun r => (r.isActive,r.pool,r.borrower,r.amount,r.fee,r.vaultBalanceBefore,r.bump))

def receiptLen : Nat := 1+32+32+8+8+8+1

def poolSpace : Nat := 1+32+32+8+8+8+1+1+4+maxProviders*(32+8+8+8)

theorem receipt_size : receiptCodec.HasSize receiptLen := fun _ => by simp [receiptCodec,receiptLen]

theorem provider_size : providerCodec.HasSize 56 := fun _ => by simp [providerCodec]

theorem pool_length (p : FlashLoanPool) :
    (poolCodec.encode p).length=99+56*p.providers.val.length := by
  simp only [poolCodec,record_length,pair_length,vec_length provider_size,bool_length,pubkey_length,
    u8_length,u32_length,u64_length]
  omega

def calculateFee (amount : U64) : Except ProgramError U64 := do
  let product ← okOr (checkedMul amount flashLoanFeeBps) (err .overflow)
  let rounded ← okOr (checkedAdd product (feeDenominator-1#64)) (err .overflow)
  okOr (checkedDiv rounded feeDenominator) (err .overflow)

/-- The loops over the providers stop at the first one with the owner they look for. -/
def updateFirst (owner : Pubkey) (g : ProviderShare → Except ProgramError ProviderShare) :
    List ProviderShare → Except ProgramError (Option (List ProviderShare))
  | [] => .ok none
  | ps::rest =>
    if ps.owner=owner then do
      let ps' ← g ps
      pure (some (ps'::rest))
    else do
      let rest' ← updateFirst owner g rest
      pure (rest'.map fun l => ps::l)

/-- Longer vectors cannot be serialized. -/
def toProviders (l : List ProviderShare) : Except ProgramError Providers :=
  if h : l.length<2^32 then .ok ⟨l,h⟩ else .error .borshIoError

end PrismChain.FlashLoan
