import PrismChain.Programs.BitcoinBridge.Processor

namespace PrismChain.BitcoinBridge

open Invocation Storage

def stateAt (e : Deployment) (fm : Formats) (b : Bank) : Pubkey → Option BtcBridgeState :=
  cellAt fm.state e.programId b
def proofAt (e : Deployment) (fm : Formats) (b : Bank) : Pubkey → Option DepositProof :=
  cellAt fm.proof e.programId b
def withdrawalAt (e : Deployment) (fm : Formats) (b : Bank) : Pubkey → Option WithdrawalRequest :=
  cellAt fm.withdrawal e.programId b

section Effects

variable (e : Deployment) (fm : Formats) (c : Call Instruction) (b b' : Bank)

structure Initialized (k : Pubkey) (st : BtcBridgeState) : Prop where
  instruction : ∃ multisigAddresses attestors threshold,
    c.instruction=.initializeBridge multisigAddresses attestors threshold
  place : k=(statePda e).1
  made : st.totalLockedSats=0#64 ∧ st.scbtcMint=(mintPda e).1
  fresh : stateAt e fm b k=none
  states : stateAt e fm b'=Function.update (stateAt e fm b) k (some st)
  proofs : proofAt e fm b'=proofAt e fm b
  withdrawals : withdrawalAt e fm b'=withdrawalAt e fm b
  tokens : ∀ j,tokenIn b' j=tokenIn b j

structure Attested (k : Pubkey) (p p' : DepositProof) : Prop where
  instruction : ∃ btcTxid vout amountSats recipientPubkey confirmations,
    c.instruction=.submitDepositProof btcTxid vout amountSats recipientPubkey confirmations
  proofKey : c.key? 2=some k
  opened : proofAt e fm b k=some p ∨ proofAt e fm b k=none ∧ p.status=.pending
  status : p'.status=.confirmed ∨ p'.status=p.status
  states : stateAt e fm b'=stateAt e fm b
  proofs : proofAt e fm b'=Function.update (proofAt e fm b) k (some p')
  withdrawals : withdrawalAt e fm b'=withdrawalAt e fm b
  tokens : ∀ j,tokenIn b' j=tokenIn b j

/-- A confirmed deposit is minted, to whatever account of whatever mint the caller has passed. A
deposit of nothing can be minted with any bridge state. -/
structure Confirmed (ks k mint dst : Pubkey) (st : BtcBridgeState) (p : DepositProof) : Prop where
  instruction : ∃ btcTxid vout,c.instruction=.confirmDeposit btcTxid vout
  stateKey : c.key? 1=some ks
  proofKey : c.key? 2=some k
  mintKey : c.key? 3=some mint
  dstKey : c.key? 4=some dst
  proof : proofAt e fm b k=some p
  confirmed : p.status=.confirmed
  states : stateAt e fm b ks=some st ∧
      stateAt e fm b'=Function.update (stateAt e fm b) ks (some (st.credited p.amountSats)) ∨
    p.amountSats=0#64 ∧ stateAt e fm b'=stateAt e fm b
  proofs : proofAt e fm b'=Function.update (proofAt e fm b) k (some {p with status := .minted})
  withdrawals : withdrawalAt e fm b'=withdrawalAt e fm b
  tokens : ∃ b₁,TokensMinted b b₁ mint dst p.amountSats.toNat ∧ ∀ j,tokenIn b' j=tokenIn b₁ j

/-- Tokens are burned and the withdrawal is recorded. -/
structure Requested (ks k src mint : Pubkey) (amountSats : U64) (st : BtcBridgeState)
    (w : WithdrawalRequest) : Prop where
  instruction : ∃ btcDestination btcDestinationLen,
    c.instruction=.requestWithdrawal amountSats btcDestination btcDestinationLen
  srcKey : c.key? 1=some src
  mintKey : c.key? 2=some mint
  stateKey : c.key? 3=some ks
  state : stateAt e fm b ks=some st
  made : w.amountSats=amountSats
  fresh : withdrawalAt e fm b k=none
  states : stateAt e fm b'=Function.update (stateAt e fm b) ks (some (st.debited amountSats))
  proofs : proofAt e fm b'=proofAt e fm b
  withdrawals : withdrawalAt e fm b'=Function.update (withdrawalAt e fm b) k (some w)
  tokens : ∃ b₁,TokensBurned b b₁ src mint amountSats.toNat ∧ ∀ j,tokenIn b' j=tokenIn b₁ j

structure Signed (k : Pubkey) (w w' : WithdrawalRequest) : Prop where
  instruction : ∃ nonce btcTxid,c.instruction=.processWithdrawal nonce btcTxid
  withdrawal : withdrawalAt e fm b k=some w
  kept : w'.amountSats=w.amountSats
  states : stateAt e fm b'=stateAt e fm b
  proofs : proofAt e fm b'=proofAt e fm b
  withdrawals : withdrawalAt e fm b'=Function.update (withdrawalAt e fm b) k (some w')
  tokens : ∀ j,tokenIn b' j=tokenIn b j

inductive Accepted : Prop
  | initialized {k : Pubkey} {st : BtcBridgeState} (u : Initialized e fm c b b' k st)
  | attested {k : Pubkey} {p p' : DepositProof} (u : Attested e fm c b b' k p p')
  | confirmed {ks k mint dst : Pubkey} {st : BtcBridgeState} {p : DepositProof}
      (u : Confirmed e fm c b b' ks k mint dst st p)
  | requested {ks k src mint : Pubkey} {amountSats : U64} {st : BtcBridgeState}
      {w : WithdrawalRequest} (u : Requested e fm c b b' ks k src mint amountSats st w)
  | signed {k : Pubkey} {w w' : WithdrawalRequest} (u : Signed e fm c b b' k w w')

end Effects

section Handlers

variable {e : Deployment} {fm : Formats} {accounts : List AccountInfo} {f : Frame}

theorem initialize_spec (hfm : fm.Decoded)
    (hp : processInitialize e fm accounts multisigAddresses attestors threshold ⟨b,b⟩=.ok f) :
    Accepted e fm ⟨clock,accounts,.initializeBridge multisigAddresses attestors threshold⟩
      b f.view := by
  unfold processInitialize at hp
  split at hp <;> simp only [steps_ok] at hp
  rename_i admin _ _ _ _ _ _
  obtain ⟨-,-,-,-,-,-,-,hplace,-,-,_,hinvoke,hserialize⟩ := hp
  obtain ⟨_,hcreate,rfl⟩ := invoke_create hinvoke
  obtain ⟨d,hd,rfl⟩ := Frame.save_eq_ok.mp (Frame.serialize_eq_ok.mp hserialize)
  have hstored := stored_of_put hd (.inl (created_owner hcreate))
  have hmade : (newState admin.key (mintPda e).1 multisigAddresses attestors
        threshold).totalLockedSats=0#64 ∧
      (newState admin.key (mintPda e).1 multisigAddresses attestors
        threshold).scbtcMint=(mintPda e).1 := ⟨rfl,rfl⟩
  exact .initialized ⟨⟨_,_,_,rfl⟩,hplace,hmade,created_fresh hcreate hfm.state,
    founded hcreate hfm.state hstored,
    founded_apart hcreate hfm.state hfm.proof hfm.stateProof hstored,
    founded_apart hcreate hfm.state hfm.withdrawal hfm.stateWithdrawal hstored,
    founded_tokens hcreate (.inr (hfm.stateSize (hstored.loaded hfm.state))) hstored⟩

variable (hsync : Synced e.programId accounts f)

include hsync

theorem submit_spec (hfm : fm.Decoded)
    (hp : processSubmitDepositProof e fm accounts btcTxid vout amountSats recipient confirmations
      ⟨b,b⟩=.ok f) : Accepted e fm
        ⟨clock,accounts,.submitDepositProof btcTxid vout amountSats recipient
      confirmations⟩ b f.view := by
  unfold processSubmitDepositProof at hp
  split at hp <;> simp only [steps_ok,loadState,Prod.exists] at hp
  rename_i attestor bridgeState depositProof _ _
  obtain ⟨-,-,st,-,-,-,-,-,-,-,-,-,p,_,hopen,-,-,signatures,hpush,hserialize⟩ := hp
  have hsigned := Vec.push_eq_some.mp hpush
  have hstatus : (p.attested signatures confirmations st.threshold).status=.confirmed ∨
      (p.attested signatures confirmations st.threshold).status=p.status := by
    by_cases henough : st.threshold.toNat≤ signatures.val.length
    · exact .inl (if_pos henough)
    · exact .inr (if_neg henough)
  obtain ⟨hload,rfl⟩ | ⟨_,hcreate,rfl,rfl⟩ := openOr_spec hopen
  · have hstored := stored_of_serialize hserialize hsync (by simp)
    -- a signature more is a different proof
    have hne : p.attested signatures confirmations st.threshold≠p := by
      intro heq
      have hlist := congrArg (fun x => x.attestorSignatures.val.length) heq
      simp [DepositProof.attested,hsigned] at hlist
    obtain ⟨hproof,hproofs⟩ := hstored.changed hfm.proof hload hne
    have hstates : stateAt e fm f.view=stateAt e fm b :=
      hstored.apart hfm.proof (fun h h' => hfm.stateProof h' h)
        (Apart.clear (fun h h' => hfm.stateProof h' h) hload)
    have hwithdrawals : withdrawalAt e fm f.view=withdrawalAt e fm b :=
      hstored.apart hfm.proof hfm.proofWithdrawal (Apart.clear hfm.proofWithdrawal hload)
    exact .attested ⟨⟨_,_,_,_,_,rfl⟩,rfl,.inl hproof,hstatus,hstates,hproofs,hwithdrawals,
      hstored.tokens (Untokened.not_token (.inr (hfm.proofSize hload)))
        (.inr (hfm.proofSize (hstored.loaded hfm.proof)))⟩
  · have hstored := stored_of_serialize hserialize hsync (by simp)
    exact .attested ⟨⟨_,_,_,_,_,rfl⟩,rfl,.inr ⟨created_fresh hcreate hfm.proof,rfl⟩,hstatus,
      founded_apart hcreate hfm.proof hfm.state (fun h h' => hfm.stateProof h' h) hstored,
      founded hcreate hfm.proof hstored,
      founded_apart hcreate hfm.proof hfm.withdrawal hfm.proofWithdrawal hstored,
      founded_tokens hcreate (.inr (hfm.proofSize (hstored.loaded hfm.proof))) hstored⟩

theorem confirm_spec (hfm : fm.Decoded) (hspl : e.SplToken)
    (hp : processConfirmDeposit e fm accounts btcTxid vout ⟨b,b⟩=.ok f) :
    Accepted e fm ⟨clock,accounts,.confirmDeposit btcTxid vout⟩ b f.view := by
  unfold processConfirmDeposit at hp
  split at hp <;> simp only [steps_ok,loadState] at hp
  rename_i bridgeState depositProof mint dst _ _ _
  obtain ⟨st,hstate,p,hproof,-,hstatus,-,-,-,-,_,hinvoke,_,hfirst,hsecond⟩ := hp
  obtain ⟨b1,hcall,hout,rfl⟩ := Deployment.invokeSpl_clean hinvoke
  have hminted := hspl.mintTo hcall
  have hsameProof := hminted.same (.inr (hfm.proofSize hproof))
  have hsameState := hminted.same (.inr (hfm.stateSize hstate))
  have hne : depositProof.key≠bridgeState.key := by
    intro heq
    rw [heq] at hproof
    exact hfm.stateProof hstate hproof
  obtain ⟨b2,hstored,hstored'⟩ := stored_pair hne hfirst hsecond hsync (by simp) (by simp)
  have hproof1 : fm.proof.load (b1 depositProof.key).data=some p := by
    rw [hsameProof]
    exact hproof
  have hstate2 : fm.state.load (b2 bridgeState.key).data=some st := by
    rw [hstored.others _ (Ne.symm hne),hsameState]
    exact hstate
  have hchanged : {p with status := .minted}≠p := by
    intro heq
    rw [← heq] at hstatus
    cases hstatus
  obtain ⟨hfound,hproofs⟩ := hstored.changed hfm.proof hproof1 hchanged
  have hstates2 : stateAt e fm b2=stateAt e fm b := by
    refine (hstored.apart hfm.proof (fun h h' => hfm.stateProof h' h) ?_).trans
      (hout.cells_eq hfm.state)
    exact Apart.clear (fun h h' => hfm.stateProof h' h) hproof1
  have hwithdrawals2 : withdrawalAt e fm b2=withdrawalAt e fm b := by
    refine (hstored.apart hfm.proof hfm.proofWithdrawal ?_).trans (hout.cells_eq hfm.withdrawal)
    exact Apart.clear hfm.proofWithdrawal hproof1
  rw [hout.cells_eq hfm.proof] at hfound hproofs
  suffices hall : Confirmed e fm ⟨clock,_,.confirmDeposit btcTxid vout⟩ b f.view bridgeState.key
      depositProof.key mint.key dst.key st p from .confirmed hall
  refine ⟨⟨_,_,rfl⟩,rfl,rfl,rfl,rfl,hfound,hstatus,?_,?_,?_,b1,hminted,fun j => ?_⟩
  · have hwritten := hstored'.rewritten hfm.state hstate2
    rw [show cellAt fm.state e.programId b2=stateAt e fm b from hstates2] at hwritten
    refine hwritten.imp_right fun hnew => ⟨?_,hnew.2⟩
    have htotal := congrArg BtcBridgeState.totalLockedSats hnew.1
    simpa [BtcBridgeState.credited] using htotal
  · refine (hstored'.apart hfm.state hfm.stateProof ?_).trans hproofs
    exact Apart.clear hfm.stateProof hstate2
  · refine (hstored'.apart hfm.state hfm.stateWithdrawal ?_).trans hwithdrawals2
    exact Apart.clear hfm.stateWithdrawal hstate2
  · rw [hstored'.tokens (Untokened.not_token (.inr (hfm.stateSize hstate2)))
        (.inr (hfm.stateSize (hstored'.loaded hfm.state))) j,
      hstored.tokens (Untokened.not_token (.inr (hfm.proofSize hproof1)))
        (.inr (hfm.proofSize (hstored.loaded hfm.proof))) j]

theorem request_spec (hfm : fm.Decoded) (hspl : e.SplToken)
    (hp : processRequestWithdrawal e fm accounts amountSats destination len ⟨b,b⟩=.ok f) :
    Accepted e fm ⟨clock,accounts,.requestWithdrawal amountSats destination len⟩ b f.view := by
  unfold processRequestWithdrawal at hp
  split at hp <;> simp only [steps_ok,loadState] at hp
  rename_i user userToken mint bridgeState withdrawal _ _ _
  obtain ⟨-,-,-,-,-,-,st,hstate,_,hburn,-,-,_,hinvoke,_,hfirst,hsecond⟩ := hp
  obtain ⟨b1,hcall,hout,rfl⟩ := Deployment.invokeSpl_clean hburn
  obtain ⟨_,hcreate,rfl⟩ := invoke_create hinvoke
  have hburned := hspl.burn hcall
  have hstate1 : fm.state.load (b1 bridgeState.key).data=some st := by
    rw [hburned.same (.inr (hfm.stateSize hstate))]
    exact hstate
  have hne := Ne.symm (created_ne hcreate hfm.state hstate1)
  obtain ⟨b3,hstored,hstored'⟩ := stored_pair hne hfirst hsecond hsync (by simp) (by simp)
  have hstate3 : fm.state.load (b3 bridgeState.key).data=some st := by
    rw [hstored.others _ (Ne.symm hne),(created_others hcreate (Ne.symm hne)).1]
    exact hstate1
  -- the nonce has changed, so the account with it is the program's
  have hchanged : st.debited amountSats≠st := by
    intro heq
    have hnonce := congrArg BtcBridgeState.nonce heq
    simp [BtcBridgeState.debited] at hnonce
  obtain ⟨hfound,hstates⟩ := hstored'.changed hfm.state hstate3 hchanged
  have hstates3 : stateAt e fm b3=stateAt e fm b :=
    (founded_apart hcreate hfm.withdrawal hfm.state (fun h h' => hfm.stateWithdrawal h' h)
      hstored).trans (hout.cells_eq hfm.state)
  have hproofs3 : proofAt e fm b3=proofAt e fm b :=
    (founded_apart hcreate hfm.withdrawal hfm.proof (fun h h' => hfm.proofWithdrawal h' h)
      hstored).trans (hout.cells_eq hfm.proof)
  have hwithdrawals3 := founded hcreate hfm.withdrawal hstored
  rw [show cellAt fm.state e.programId b3=stateAt e fm b from hstates3] at hfound hstates
  rw [hout.cells_eq hfm.withdrawal] at hwithdrawals3
  suffices hall : Requested e fm ⟨clock,_,.requestWithdrawal amountSats destination len⟩ b f.view
      bridgeState.key withdrawal.key userToken.key mint.key amountSats st
      (newWithdrawal (st.debited amountSats).nonce amountSats user.key destination len) from
    .requested hall
  refine ⟨⟨_,_,rfl⟩,rfl,rfl,rfl,hfound,rfl,?_,hstates,?_,?_,b1,hburned,fun j => ?_⟩
  · unfold withdrawalAt
    rw [← hout.cells_eq hfm.withdrawal]
    exact created_fresh hcreate hfm.withdrawal
  · refine (hstored'.apart hfm.state hfm.stateProof ?_).trans hproofs3
    exact Apart.clear hfm.stateProof hstate3
  · refine (hstored'.apart hfm.state hfm.stateWithdrawal ?_).trans hwithdrawals3
    exact Apart.clear hfm.stateWithdrawal hstate3
  · rw [hstored'.tokens (Untokened.not_token (.inr (hfm.stateSize hstate3)))
        (.inr (hfm.stateSize (hstored'.loaded hfm.state))) j,
      founded_tokens hcreate (.inr (hfm.withdrawalSize (hstored.loaded hfm.withdrawal))) hstored j]

theorem process_spec (hfm : fm.Decoded)
    (hp : processProcessWithdrawal fm accounts nonce btcTxid ⟨b,b⟩=.ok f) :
    Accepted e fm ⟨clock,accounts,.processWithdrawal nonce btcTxid⟩ b f.view := by
  unfold processProcessWithdrawal at hp
  split at hp <;> simp only [steps_ok,loadState] at hp
  obtain ⟨-,-,st,-,-,-,w,hload,-,-,-,-,-,-,signatures,hpush,hserialize⟩ := hp
  have hsigned := Vec.push_eq_some.mp hpush
  have hlist : (w.signed signatures st.threshold btcTxid).attestorSignatures=signatures := by
    unfold WithdrawalRequest.signed
    split_ifs <;> rfl
  have hkept : (w.signed signatures st.threshold btcTxid).amountSats=w.amountSats := by
    unfold WithdrawalRequest.signed
    split_ifs <;> rfl
  have hne : w.signed signatures st.threshold btcTxid≠w := by
    intro heq
    rw [heq] at hlist
    have hlength := congrArg (fun v => v.val.length) hlist
    simp [hsigned] at hlength
  have hstored := stored_of_serialize hserialize hsync (by simp)
  obtain ⟨hfound,hwithdrawals⟩ := hstored.changed hfm.withdrawal hload hne
  have hstates : stateAt e fm f.view=stateAt e fm b :=
    hstored.apart hfm.withdrawal (fun h h' => hfm.stateWithdrawal h' h)
      (Apart.clear (fun h h' => hfm.stateWithdrawal h' h) hload)
  have hproofs : proofAt e fm f.view=proofAt e fm b :=
    hstored.apart hfm.withdrawal (fun h h' => hfm.proofWithdrawal h' h)
      (Apart.clear (fun h h' => hfm.proofWithdrawal h' h) hload)
  exact .signed ⟨⟨_,_,rfl⟩,hfound,hkept,hstates,hproofs,hwithdrawals,
    hstored.tokens (Untokened.not_token (.inr (hfm.withdrawalSize hload)))
      (.inr (hfm.withdrawalSize (hstored.loaded hfm.withdrawal)))⟩

end Handlers

theorem execute_spec {e : Deployment} {fm : Formats} (hfm : fm.Decoded) (hspl : e.SplToken)
    (h : (program e fm).execute c b=.ok b') : Accepted e fm c b b' := by
  obtain ⟨f,hf,hsync,rfl⟩ := Program.execute_eq_ok.mp h
  obtain ⟨_,_,i⟩ := c
  cases i with
  | initializeBridge => exact initialize_spec hfm hf
  | submitDepositProof => exact submit_spec hsync hfm hf
  | confirmDeposit => exact confirm_spec hsync hfm hspl hf
  | requestWithdrawal => exact request_spec hsync hfm hspl hf
  | processWithdrawal => exact process_spec hsync hfm hf

theorem Accepted.confirmed_of {e : Deployment} (h : Accepted e fm c b b')
    (hi : c.instruction=.confirmDeposit btcTxid vout) :
    ∃ ks k mint dst st p,Confirmed e fm c b b' ks k mint dst st p := by
  cases h with
  | initialized u => exact absurd u.instruction (by simp [hi])
  | attested u => exact absurd u.instruction (by simp [hi])
  | requested u => exact absurd u.instruction (by simp [hi])
  | signed u => exact absurd u.instruction (by simp [hi])
  | @confirmed ks k mint dst st p u => exact ⟨ks,k,mint,dst,st,p,u⟩

theorem Accepted.requested_of {e : Deployment} (h : Accepted e fm c b b')
    (hi : c.instruction=.requestWithdrawal amountSats destination len) :
    ∃ ks k src mint st w,Requested e fm c b b' ks k src mint amountSats st w := by
  cases h with
  | initialized u => exact absurd u.instruction (by simp [hi])
  | attested u => exact absurd u.instruction (by simp [hi])
  | confirmed u => exact absurd u.instruction (by simp [hi])
  | signed u => exact absurd u.instruction (by simp [hi])
  | @requested ks k src mint _ st w u =>
    obtain ⟨_,_,hi'⟩ := u.instruction
    rw [hi'] at hi
    cases hi
    exact ⟨ks,k,src,mint,st,w,u⟩

end PrismChain.BitcoinBridge
