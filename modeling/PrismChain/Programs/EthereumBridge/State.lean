import PrismChain.Framework.Cells

namespace PrismChain.EthereumBridge

open Storage

def stateSeed : List Byte := ascii "bridge_state".toList
def wrappedSeed : List Byte := ascii "wrapped_token".toList
def mintSeed : List Byte := ascii "mint".toList
def txSeed : List Byte := ascii "bridge_tx".toList
def authoritySeed : List Byte := ascii "mint_authority".toList

structure BridgeState where
  isInitialized : Bool
  admin : Pubkey
  ethereumContractAddress : BitVec 160
  totalLocked : U64
  totalMinted : U64
  nonce : U64
  guardians : Vec Pubkey
  guardianThreshold : U8
  deriving DecidableEq

structure WrappedToken where
  isInitialized : Bool
  originalChain : U8
  originalAddress : BitVec 256
  mint : Pubkey
  name : BitVec 256
  symbol : BitVec 64
  decimals : U8
  deriving DecidableEq

inductive TransactionStatus where
  | pending
  | confirmed
  | completed
  | failed
  deriving DecidableEq

/-- Chain 1 is Ethereum and chain 4 is Prism. -/
structure BridgeTransaction where
  nonce : U64
  fromChain : U8
  toChain : U8
  token : Pubkey
  amount : U64
  sender : BitVec 256
  recipient : BitVec 256
  status : TransactionStatus
  signatures : Vec Pubkey
  deriving DecidableEq

open Codec

def stateCodec : Codec BridgeState :=
  (bool.pair (pubkeyCodec.pair ((uint 20).pair (u64.pair (u64.pair (u64.pair (pubkeyCodec.vec.pair
    u8))))))).record
    (fun (i,a,c,l,m,n,g,h) => ⟨i,a,c,l,m,n,g,h⟩)
    (fun s =>
    (s.isInitialized,s.admin,s.ethereumContractAddress,s.totalLocked,s.totalMinted,s.nonce,
      s.guardians,s.guardianThreshold))

def wrappedCodec : Codec WrappedToken :=
  (bool.pair
    (u8.pair ((uint 32).pair (pubkeyCodec.pair ((uint 32).pair ((uint 8).pair u8)))))).record
    (fun (i,c,o,m,n,s,d) => ⟨i,c,o,m,n,s,d⟩)
    (fun w => (w.isInitialized,w.originalChain,w.originalAddress,w.mint,w.name,w.symbol,w.decimals))

def statusCodec : Codec TransactionStatus :=
  enumeration {all := [.pending,.confirmed,.completed,.failed]}

def txCodec : Codec BridgeTransaction :=
  (u64.pair (u8.pair (u8.pair (pubkeyCodec.pair (u64.pair ((uint 32).pair ((uint 32).pair
    (statusCodec.pair pubkeyCodec.vec)))))))).record
    (fun (n,f,t,k,a,s,r,st,g) => ⟨n,f,t,k,a,s,r,st,g⟩)
    (fun r =>
    (r.nonce,r.fromChain,r.toChain,r.token,r.amount,r.sender,r.recipient,r.status,r.signatures))

/-- The first byte of a transaction is the lowest of its nonce. -/
def BridgeTransaction.front (r : BridgeTransaction) : Byte := BitVec.ofNat 8 r.nonce.toNat

structure Formats where
  state : Storage BridgeState
  wrapped : Storage WrappedToken
  tx : Storage BridgeTransaction
  started : List Byte → Bool

namespace Formats

/-- The level of decoded values. No account of the token program is read as one of the bridge. -/
structure Decoded (fm : Formats) : Prop where
  state : fm.state.Exact
  wrapped : fm.wrapped.Exact
  tx : fm.tx.Exact
  stateWrapped : fm.state.Apart fm.wrapped
  stateTx : fm.state.Apart fm.tx
  wrappedTx : fm.wrapped.Apart fm.tx
  stateSize : ∀ {d st},fm.state.load d=some st → d.length≠TokenAccount.len ∧ d.length≠mintLen
  txSize : ∀ {d r},fm.tx.load d=some r → d.length≠TokenAccount.len ∧ d.length≠mintLen
  stateMarked : ∀ {d st},fm.state.load d=some st → fm.started d=st.isInitialized
  txMarked : ∀ {d r},fm.tx.load d=some r → fm.started d=decide (r.front≠0#8)

def values : Formats :=
  ⟨.whole 1#8 stateCodec,.whole 2#8 wrappedCodec,.whole 3#8 txCodec,Storage.wholeStarted⟩

theorem stateCodec_length (st : BridgeState) :
    (stateCodec.encode st).length=82+32*st.guardians.val.length := by
  simp [stateCodec,vec_length pubkey_length]
  omega

theorem txCodec_length (r : BridgeTransaction) :
    (txCodec.encode r).length=119+32*r.signatures.val.length := by
  simp [txCodec,statusCodec,vec_length pubkey_length]
  omega

theorem values_decoded : values.Decoded where
  state := whole_exact (by decide) _
  wrapped := whole_exact (by decide) _
  tx := whole_exact (by decide) _
  stateWrapped := whole_apart (by decide) _ _
  stateTx := whole_apart (by decide) _ _
  wrappedTx := whole_apart (by decide) _ _
  stateSize :=
    fun hload => whole_size hload (by rw [stateCodec_length,TokenAccount.len,mintLen]; omega)
  txSize := fun hload => whole_size hload (by rw [txCodec_length,TokenAccount.len,mintLen]; omega)
  stateMarked := by
    intro d st hload
    obtain ⟨i,a,c,l,m,n,g,h⟩ := st
    cases i <;> exact whole_started rfl hload
  txMarked := whole_started rfl

end Formats
end PrismChain.EthereumBridge
