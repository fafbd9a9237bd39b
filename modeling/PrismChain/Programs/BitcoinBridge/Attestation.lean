import PrismChain.Programs.BitcoinBridge.Backing

namespace PrismChain.BitcoinBridge

open List Invocation Program Storage PrismChain.Frame

/-- The call by which one attestor submits a proof, with the accounts the program asks for. -/
def submission (e : Deployment) (clock : Clock) (ks : Pubkey) (btcTxid : BitVec 256) (vout : U32)
    (amountSats : U64) (recipient : Pubkey) (confirmations : U32) (a : Pubkey) : Call Instruction :=
  ⟨clock,[⟨a,true,true⟩,⟨ks,false,false⟩,⟨(proofPda e btcTxid vout).1,false,true⟩,
    systemInfo],
      .submitDepositProof btcTxid vout amountSats recipient confirmations⟩

section Submissions

variable {e : Deployment} {b b' : Bank} {a ks : Pubkey} {st : BtcBridgeState} {btcTxid : BitVec 256}
  {vout : U32} {amountSats : U64} {recipient : Pubkey}

end Submissions

/-- A burnt withdrawal is never paid out: its record has no room for a signature. -/
theorem withdrawal_never_signed :
    (program e .borsh).execute ⟨clock,infos,.processWithdrawal nonce txid⟩ b≠.ok b' := by
  intro hx
  obtain ⟨f,hp,-,rfl⟩ := execute_eq_ok.mp hx
  change processProcessWithdrawal .borsh infos nonce txid ⟨b,b⟩=.ok f at hp
  unfold processProcessWithdrawal at hp
  split at hp <;> simp only [steps_ok] at hp
  obtain ⟨-,-,st,-,-,-,w,hload,-,-,-,-,-,-,signatures,hpush,hsave⟩ := hp
  obtain ⟨_,hstore,-⟩ := save_eq_ok.mp (serialize_eq_ok.mp hsave)
  have hle := inPlace_le hload (.inl hstore)
  unfold WithdrawalRequest.signed at hle
  split_ifs at hle <;> simp [Formats.withdrawalCodec_length,Vec.push_eq_some.mp hpush] at hle

end PrismChain.BitcoinBridge
