import PrismChain.Framework.Cells

namespace PrismChain.BitcoinBridge

open Storage

def stateSeed : List Byte := ascii "btc_bridge_state".toList
def mintSeed : List Byte := ascii "scbtc_mint".toList
def proofSeed : List Byte := ascii "deposit_proof".toList
def authoritySeed : List Byte := ascii "btc_mint_authority".toList
def withdrawalSeed : List Byte := ascii "withdrawal".toList

structure BtcBridgeState where
  isInitialized : Bool
  admin : Pubkey
  multisigAddresses : Vec (BitVec 272)
  threshold : U8
  totalLockedSats : U64
  scbtcMint : Pubkey
  attestors : Vec Pubkey
  nonce : U64
  deriving DecidableEq

inductive DepositStatus where
  | pending
  | confirmed
  | minted
  | failed
  deriving DecidableEq

structure DepositProof where
  btcTxid : BitVec 256
  vout : U32
  amountSats : U64
  recipientPubkey : Pubkey
  confirmations : U32
  attestorSignatures : Vec Pubkey
  status : DepositStatus
  nonce : U64
  deriving DecidableEq

inductive WithdrawalStatus where
  | requested
  | signing
  | broadcast
  | confirmed
  | failed
  deriving DecidableEq

structure WithdrawalRequest where
  nonce : U64
  amountSats : U64
  requester : Pubkey
  btcDestination : BitVec 496
  btcDestinationLen : U8
  attestorSignatures : Vec Pubkey
  status : WithdrawalStatus
  btcTxid : BitVec 256
  deriving DecidableEq

open Codec

def stateCodec : Codec BtcBridgeState :=
  (bool.pair (pubkeyCodec.pair ((uint 34).vec.pair (u8.pair (u64.pair (pubkeyCodec.pair
    (pubkeyCodec.vec.pair u64))))))).record
    (fun (i,a,m,h,l,s,t,n) => ⟨i,a,m,h,l,s,t,n⟩)
    (fun s =>
    (s.isInitialized,s.admin,s.multisigAddresses,s.threshold,s.totalLockedSats,s.scbtcMint,
      s.attestors,s.nonce))

def depositStatusCodec : Codec DepositStatus :=
  enumeration {all := [.pending,.confirmed,.minted,.failed]}

def proofCodec : Codec DepositProof :=
  ((uint 32).pair (u32.pair (u64.pair (pubkeyCodec.pair (u32.pair (pubkeyCodec.vec.pair
    (depositStatusCodec.pair u64))))))).record
    (fun (x,v,a,r,c,s,st,n) => ⟨x,v,a,r,c,s,st,n⟩)
    (fun p => (p.btcTxid,p.vout,p.amountSats,p.recipientPubkey,p.confirmations,p.attestorSignatures,
      p.status,p.nonce))

def withdrawalStatusCodec : Codec WithdrawalStatus :=
  enumeration {all := [.requested,.signing,.broadcast,.confirmed,.failed]}

def withdrawalCodec : Codec WithdrawalRequest :=
  (u64.pair (u64.pair (pubkeyCodec.pair ((uint 62).pair (u8.pair (pubkeyCodec.vec.pair
    (withdrawalStatusCodec.pair (uint 32)))))))).record
    (fun (n,a,r,d,l,s,st,x) => ⟨n,a,r,d,l,s,st,x⟩)
    (fun w => (w.nonce,w.amountSats,w.requester,w.btcDestination,w.btcDestinationLen,
      w.attestorSignatures,w.status,w.btcTxid))

/-- The first byte of a proof is the first of the transaction id. -/
def DepositProof.front (p : DepositProof) : Byte := BitVec.ofNat 8 p.btcTxid.toNat

structure Formats where
  state : Storage BtcBridgeState
  proof : Storage DepositProof
  withdrawal : Storage WithdrawalRequest
  started : List Byte → Bool

namespace Formats

/-- As the program does it: Borsh in place. Proofs and withdrawals are made with room for signatures
that is not used, and then cannot be read again. -/
def borsh : Formats :=
  ⟨.inPlace stateCodec,.inPlace proofCodec,.inPlace withdrawalCodec,Storage.started⟩

/-- The level of decoded values. No account of the token program is read as one of the bridge. -/
structure Decoded (fm : Formats) : Prop where
  state : fm.state.Exact
  proof : fm.proof.Exact
  withdrawal : fm.withdrawal.Exact
  stateProof : fm.state.Apart fm.proof
  stateWithdrawal : fm.state.Apart fm.withdrawal
  proofWithdrawal : fm.proof.Apart fm.withdrawal
  stateSize : ∀ {d st},fm.state.load d=some st → d.length≠TokenAccount.len ∧ d.length≠mintLen
  proofSize : ∀ {d p},fm.proof.load d=some p → d.length≠TokenAccount.len ∧ d.length≠mintLen
  withdrawalSize :
    ∀ {d w},fm.withdrawal.load d=some w → d.length≠TokenAccount.len ∧ d.length≠mintLen
  marked : ∀ {d p},fm.proof.load d=some p → fm.started d=decide (p.front≠0#8)

def values : Formats :=
  ⟨.whole 1#8 stateCodec,.whole 2#8 proofCodec,.whole 3#8 withdrawalCodec,Storage.wholeStarted⟩

theorem stateCodec_length (st : BtcBridgeState) : (stateCodec.encode st).length=
    90+34*st.multisigAddresses.val.length+32*st.attestors.val.length := by
  simp [stateCodec,vec_length (uint_size 34),vec_length pubkey_length]
  omega

theorem proofCodec_length (p : DepositProof) :
    (proofCodec.encode p).length=93+32*p.attestorSignatures.val.length := by
  simp [proofCodec,depositStatusCodec,vec_length pubkey_length]
  omega

theorem withdrawalCodec_length (w : WithdrawalRequest) :
    (withdrawalCodec.encode w).length=148+32*w.attestorSignatures.val.length := by
  simp [withdrawalCodec,withdrawalStatusCodec,vec_length pubkey_length]
  omega

theorem values_decoded : values.Decoded where
  state := whole_exact (by decide) _
  proof := whole_exact (by decide) _
  withdrawal := whole_exact (by decide) _
  stateProof := whole_apart (by decide) _ _
  stateWithdrawal := whole_apart (by decide) _ _
  proofWithdrawal := whole_apart (by decide) _ _
  stateSize :=
    fun hload => whole_size hload (by rw [stateCodec_length,TokenAccount.len,mintLen]; omega)
  proofSize :=
    fun hload => whole_size hload (by rw [proofCodec_length,TokenAccount.len,mintLen]; omega)
  withdrawalSize :=
    fun hload => whole_size hload (by rw [withdrawalCodec_length,TokenAccount.len,mintLen]; omega)
  marked := whole_started rfl

end Formats
end PrismChain.BitcoinBridge
