import PrismChain.Framework.Spl

namespace PrismChain.SolanaBridge

open Storage

def bridgeStateSeed : List Byte := ascii "solana_bridge_state".toList
def transferSeed : List Byte := ascii "transfer".toList
def mintAuthoritySeed : List Byte := ascii "sol_mint_authority".toList

structure TokenMapping where
  prismMint : Pubkey
  solanaMint : Pubkey
  isActive : Bool
  deriving DecidableEq

structure SolanaBridgeState where
  isInitialized : Bool
  admin : Pubkey
  solanaRpc : BitVec 1024
  solanaRpcLen : U8
  guardianSet : Vec Pubkey
  guardianThreshold : U8
  tokenMappings : Vec TokenMapping
  nonce : U64
  totalTransfers : U64
  deriving DecidableEq

inductive TransferStatus where
  | initiated
  | locked
  | attested
  | completed
  | failed
  deriving DecidableEq

/-- Chain 3 is Solana and chain 4 is Prism. -/
structure TransferRecord where
  nonce : U64
  fromChain : U8
  toChain : U8
  tokenMint : Pubkey
  amount : U64
  sender : Pubkey
  recipient : Pubkey
  status : TransferStatus
  guardianSignatures : Vec Pubkey
  createdAt : I64
  deriving DecidableEq

open Codec

def mappingCodec : Codec TokenMapping :=
  (pubkeyCodec.pair (pubkeyCodec.pair bool)).record (fun (p,s,a) => ⟨p,s,a⟩)
    (fun m => (m.prismMint,m.solanaMint,m.isActive))

def stateCodec : Codec SolanaBridgeState :=
  (bool.pair (pubkeyCodec.pair ((uint 128).pair (u8.pair (pubkeyCodec.vec.pair (u8.pair
    (mappingCodec.vec.pair (u64.pair u64)))))))).record
    (fun (i,a,r,l,g,h,m,n,t) => ⟨i,a,r,l,g,h,m,n,t⟩)
    (fun s => (s.isInitialized,s.admin,s.solanaRpc,s.solanaRpcLen,s.guardianSet,s.guardianThreshold,
      s.tokenMappings,s.nonce,s.totalTransfers))

def statusCodec : Codec TransferStatus :=
  enumeration {all := [.initiated,.locked,.attested,.completed,.failed]}

def recordCodec : Codec TransferRecord :=
  (u64.pair (u8.pair (u8.pair (pubkeyCodec.pair (u64.pair (pubkeyCodec.pair (pubkeyCodec.pair
    (statusCodec.pair (pubkeyCodec.vec.pair i64))))))))).record
    (fun (n,f,t,m,a,s,r,st,g,c) => ⟨n,f,t,m,a,s,r,st,g,c⟩)
    (fun r => (r.nonce,r.fromChain,r.toChain,r.tokenMint,r.amount,r.sender,r.recipient,r.status,
      r.guardianSignatures,r.createdAt))

/-- The first byte of a record is the lowest of its nonce. -/
def TransferRecord.front (r : TransferRecord) : Byte := BitVec.ofNat 8 r.nonce.toNat

/-- How the two kinds of accounts are kept, and how a record is taken to be there. -/
structure Formats where
  state : Storage SolanaBridgeState
  record : Storage TransferRecord
  started : List Byte → Bool

namespace Formats

/-- The level of decoded values. No account of the token program is read as one of the bridge. -/
structure Decoded (fm : Formats) : Prop where
  state : fm.state.Exact
  record : fm.record.Exact
  apart : fm.state.Apart fm.record
  stateSize : ∀ {d st},fm.state.load d=some st → d.length≠TokenAccount.len ∧ d.length≠mintLen
  recordSize : ∀ {d r},fm.record.load d=some r → d.length≠TokenAccount.len ∧ d.length≠mintLen
  marked : ∀ {d r},fm.record.load d=some r → fm.started d=decide (r.front≠0#8)

def values : Formats := ⟨.whole 1#8 stateCodec,.whole 2#8 recordCodec,Storage.wholeStarted⟩

theorem stateCodec_length (st : SolanaBridgeState) : (stateCodec.encode st).length=
    187+32*st.guardianSet.val.length+65*st.tokenMappings.val.length := by
  have hmapping : mappingCodec.HasSize 65 := fun _ => by simp [mappingCodec]
  simp [stateCodec,vec_length hmapping,vec_length pubkey_length]
  omega

theorem recordCodec_length (r : TransferRecord) :
    (recordCodec.encode r).length=127+32*r.guardianSignatures.val.length := by
  simp [recordCodec,statusCodec,vec_length pubkey_length]
  omega

theorem values_decoded : values.Decoded where
  state := whole_exact (by decide) _
  record := whole_exact (by decide) _
  apart := whole_apart (by decide) _ _
  stateSize :=
    fun hload => whole_size hload (by rw [stateCodec_length,TokenAccount.len,mintLen]; omega)
  recordSize :=
    fun hload => whole_size hload (by rw [recordCodec_length,TokenAccount.len,mintLen]; omega)
  marked := whole_started rfl

end Formats
end PrismChain.SolanaBridge
