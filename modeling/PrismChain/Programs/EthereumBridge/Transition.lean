import PrismChain.Programs.EthereumBridge.Processor

namespace PrismChain.EthereumBridge

open Function Invocation Storage PrismChain.Frame

def stateAt (e : Deployment) (fm : Formats) (b : Bank) : Pubkey → Option BridgeState :=
  cellAt fm.state e.programId b
def txAt (e : Deployment) (fm : Formats) (b : Bank) : Pubkey → Option BridgeTransaction :=
  cellAt fm.tx e.programId b

def AllInitialized (e : Deployment) (fm : Formats) (b : Bank) : Prop :=
  ∀ k st,stateAt e fm b k=some st → st.isInitialized=true

def BridgeState.council (st : BridgeState) : Vec Pubkey×U8 := (st.guardians,st.guardianThreshold)

section Effects

variable (e : Deployment) (fm : Formats) (c : Call Instruction) (b b' : Bank)

def SameCouncil (st st' : BridgeState) : Prop :=
  st'.council=st.council ∧ st'.isInitialized=st.isInitialized

structure Initialized (k : Pubkey) (st : BridgeState) : Prop where
  instruction : ∃ ethereumContractAddress guardians guardianThreshold,
    c.instruction=.initializeBridge ethereumContractAddress guardians guardianThreshold
  place : k=(statePda e).1
  made : st.isInitialized=true
  fresh : stateAt e fm b k=none
  states : stateAt e fm b'=Function.update (stateAt e fm b) k (some st)
  txs : txAt e fm b'=txAt e fm b

structure Registered : Prop where
  instruction : ∃ originalChain originalAddress name symbol decimals,
    c.instruction=.registerToken originalChain originalAddress name symbol decimals
  states : stateAt e fm b'=stateAt e fm b
  txs : txAt e fm b'=txAt e fm b

/-- A transfer that leaves: a new transaction without signatures. -/
structure SentOut (ks k : Pubkey) (st st' : BridgeState) (r : BridgeTransaction) : Prop where
  instruction : (∃ amount recipient,c.instruction=.lockAndMint amount recipient) ∨
    ∃ amount recipient,c.instruction=.redeem amount recipient
  state : stateAt e fm b ks=some st
  made : r.status=.pending ∧ r.signatures.val=[]
  council : SameCouncil st st'
  fresh : txAt e fm b k=none
  states : stateAt e fm b'=Function.update (stateAt e fm b) ks (some st')
  txs : txAt e fm b'=Function.update (txAt e fm b) k (some r)

/-- A guardian of the bridge state that was passed signs the transaction `r`: the one that is there
or one that is made from what the guardian says. In an account of another program nothing changes.
-/
structure Attested (ks k guardian : Pubkey) (nonce amount : U64) (recipient : Pubkey)
    (token : BitVec 256) (st : BridgeState) (r r' : BridgeTransaction) : Prop where
  instruction : ∃ sender,c.instruction=.submitVaa nonce amount sender recipient token
  signer : c.signer? 0=some guardian
  stateKey : c.key? 1=some ks
  txKey : c.key? 2=some k
  state : fm.state.load (b ks).data=some st
  member : guardian∈st.guardians.val
  opened :
    txAt e fm b k=some r ∧ r.front≠0#8 ∨ ∃ sender,r=inbound nonce amount sender recipient token
  unsigned : guardian∉r.signatures.val
  signed : r'.signatures.val=r.signatures.val++[guardian]
  attested : r'=r.attested r'.signatures st.guardianThreshold
  states : stateAt e fm b'=stateAt e fm b
  txs : txAt e fm b'=Function.update (txAt e fm b) k (some r') ∨
    txAt e fm b k=none ∧ txAt e fm b'=txAt e fm b

/-- A confirmed transfer is minted, to whatever account of whatever mint the caller has passed. A
transfer of nothing can be minted with any bridge state. -/
structure Completed (ks k mint dst : Pubkey) (st : BridgeState) (r : BridgeTransaction) : Prop where
  instruction : c.instruction=.completeTransfer r.nonce
  txKey : c.key? 2=some k
  mintKey : c.key? 3=some mint
  dstKey : c.key? 4=some dst
  tx : txAt e fm b k=some r
  confirmed : r.status=.confirmed
  tokens : ∃ b₁,TokensMinted b b₁ mint dst r.amount.toNat ∧ ∀ j,tokenIn b' j=tokenIn b₁ j
  states : stateAt e fm b ks=some st ∧
      stateAt e fm b'=Function.update (stateAt e fm b) ks (some (st.minted r.amount)) ∨
    stateAt e fm b'=stateAt e fm b
  txs : txAt e fm b'=Function.update (txAt e fm b) k (some {r with status := .completed})

inductive Accepted : Prop
  | initialized {k : Pubkey} {st : BridgeState} (u : Initialized e fm c b b' k st)
  | registered (u : Registered e fm c b b')
  | sentOut {ks k : Pubkey} {st st' : BridgeState} {r : BridgeTransaction}
      (u : SentOut e fm c b b' ks k st st' r)
  | attested {ks k guardian : Pubkey} {nonce amount : U64} {recipient : Pubkey} {token : BitVec 256}
      {st : BridgeState} {r r' : BridgeTransaction}
      (u : Attested e fm c b b' ks k guardian nonce amount recipient token st r r')
  | completed {ks k mint dst : Pubkey} {st : BridgeState} {r : BridgeTransaction}
      (u : Completed e fm c b b' ks k mint dst st r)

end Effects

theorem attested_ne {r : BridgeTransaction} {signatures : Vec Pubkey}
    (hsigned : signatures.val=r.signatures.val++[guardian]) :
    r.attested signatures threshold≠r := by
  intro heq
  have hlist := congrArg (fun x => x.signatures.val.length) heq
  simp [BridgeTransaction.attested,hsigned] at hlist

section Handlers

variable {e : Deployment} {fm : Formats} {accounts : List AccountInfo} {f : Frame}
  {c : Call Instruction}

theorem initialize_spec (hfm : fm.Decoded)
    (hp : processInitializeBridge e fm accounts address guardians threshold ⟨b,b⟩=.ok f) :
    Accepted e fm ⟨clock,accounts,.initializeBridge address guardians threshold⟩ b f.view := by
  unfold processInitializeBridge at hp
  split at hp <;> simp only [steps_ok] at hp
  rename_i admin _ _ _
  obtain ⟨-,-,-,-,-,hplace,_,hinvoke,hserialize⟩ := hp
  obtain ⟨_,hcreate,rfl⟩ := invoke_create hinvoke
  obtain ⟨d,hd,rfl⟩ := save_eq_ok.mp (serialize_eq_ok.mp hserialize)
  have hstored := stored_of_put hd (.inl (created_owner hcreate))
  have hmade : (newState admin.key address guardians threshold).isInitialized=true := rfl
  exact .initialized ⟨⟨_,_,_,rfl⟩,hplace,hmade,created_fresh hcreate hfm.state,
    founded hcreate hfm.state hstored,founded_apart hcreate hfm.state hfm.tx hfm.stateTx hstored⟩

theorem register_spec (hfm : fm.Decoded)
    (hp : processRegisterToken e fm accounts chain address name symbol decimals ⟨b,b⟩=.ok f) :
    Accepted e fm ⟨clock,accounts,.registerToken chain address name symbol decimals⟩ b f.view := by
  unfold processRegisterToken at hp
  split at hp <;> simp only [steps_ok,loadState] at hp
  obtain ⟨-,-,-,-,-,-,-,-,-,-,-,-,_,hinvoke,hserialize⟩ := hp
  obtain ⟨_,hcreate,rfl⟩ := invoke_create hinvoke
  obtain ⟨d,hd,rfl⟩ := save_eq_ok.mp (serialize_eq_ok.mp hserialize)
  have hstored := stored_of_put hd (.inl (created_owner hcreate))
  exact .registered ⟨⟨_,_,_,_,_,rfl⟩,
    founded_apart hcreate hfm.wrapped hfm.state (fun h h' => hfm.stateWrapped h' h) hstored,
    founded_apart hcreate hfm.wrapped hfm.tx hfm.wrappedTx hstored⟩

variable (hsync : Synced e.programId accounts f)

include hsync

theorem outbound_spec (hfm : fm.Decoded) (hspl : e.SplToken)
    (hindex : index=transferIndex ∨ index=mintToIndex ∨ index=burnIndex)
    (hload : fm.state.load (b ks).data=some st)
    (hcall : e.callee splToken (Deployment.tokenData index amount) [first,second,user] b=.ok b1)
    (hrecord : recordOutbound e fm accounts user ks k st' r ⟨b1,b1⟩=.ok f)
    (hks : ks∈accounts.map AccountInfo.key) (hk : k∈accounts.map AccountInfo.key)
    (hi : (∃ amount recipient,c.instruction=.lockAndMint amount recipient) ∨
      ∃ amount recipient,c.instruction=.redeem amount recipient)
    (hmade : r.status=.pending ∧ r.signatures.val=[]) (hcouncil : SameCouncil st st')
    (hnonce : st'.nonce=st.nonce+1#64) : SentOut e fm c b f.view ks k st st' r := by
  have hout := (e.confined hcall).1
  have hload1 : fm.state.load (b1 ks).data=some st := by
    rw [hspl.same hindex hcall (.inr (hfm.stateSize hload))]
    exact hload
  simp only [recordOutbound,steps_ok] at hrecord
  obtain ⟨-,-,_,hinvoke,_,hfirst,hsecond⟩ := hrecord
  obtain ⟨_,hcreate,rfl⟩ := invoke_create hinvoke
  have hne := Ne.symm (created_ne hcreate hfm.state hload1)
  obtain ⟨b3,hstored,hstored'⟩ := stored_pair hne hfirst hsecond hsync hk hks
  have hload3 : fm.state.load (b3 ks).data=some st := by
    rw [hstored.others ks (Ne.symm hne),(created_others hcreate (Ne.symm hne)).1]
    exact hload1
  -- the nonce has changed, so the account with it is the program's
  have hchanged : st'≠st := by
    rintro rfl
    simp at hnonce
  obtain ⟨hfound,hstates⟩ := hstored'.changed hfm.state hload3 hchanged
  have hstates3 : cellAt fm.state e.programId b3=stateAt e fm b :=
    (founded_apart hcreate hfm.tx hfm.state (fun h h' => hfm.stateTx h' h) hstored).trans
      (hout.cells_eq hfm.state)
  have htxs3 : cellAt fm.tx e.programId b3=update (txAt e fm b) k (some r) := by
    rw [founded hcreate hfm.tx hstored,hout.cells_eq hfm.tx]
    rfl
  rw [hstates3] at hfound hstates
  refine ⟨hi,hfound,hmade,hcouncil,?_,hstates,?_⟩
  · unfold txAt
    rw [← hout.cells_eq hfm.tx]
    exact created_fresh hcreate hfm.tx
  · exact (hstored'.apart hfm.state hfm.stateTx (Apart.clear hfm.stateTx hload3)).trans htxs3

theorem lock_spec (hfm : fm.Decoded) (hspl : e.SplToken)
    (hp : processLockAndMint e fm accounts amount recipient ⟨b,b⟩=.ok f) :
    Accepted e fm ⟨clock,accounts,.lockAndMint amount recipient⟩ b f.view := by
  unfold processLockAndMint at hp
  split at hp <;> simp only [steps_ok,loadState] at hp
  obtain ⟨-,-,-,-,_,hload,-,-,_,hinvoke,hrecord⟩ := hp
  obtain ⟨_,hcall,-,rfl⟩ := Deployment.invokeSpl_clean hinvoke
  exact .sentOut (outbound_spec hsync hfm hspl (.inl rfl) hload hcall hrecord (by simp) (by simp)
    (.inl ⟨_,_,rfl⟩) ⟨rfl,rfl⟩ ⟨rfl,rfl⟩ rfl)

theorem redeem_spec (hfm : fm.Decoded) (hspl : e.SplToken)
    (hp : processRedeem e fm accounts amount recipient ⟨b,b⟩=.ok f) :
    Accepted e fm ⟨clock,accounts,.redeem amount recipient⟩ b f.view := by
  unfold processRedeem at hp
  split at hp <;> simp only [steps_ok,loadState] at hp
  obtain ⟨-,-,-,-,_,hload,_,hinvoke,hrecord⟩ := hp
  obtain ⟨_,hcall,-,rfl⟩ := Deployment.invokeSpl_clean hinvoke
  exact .sentOut (outbound_spec hsync hfm hspl (.inr (.inr rfl)) hload hcall hrecord (by simp)
    (by simp) (.inr ⟨_,_,rfl⟩) ⟨rfl,rfl⟩ ⟨rfl,rfl⟩ rfl)

theorem submit_spec (hfm : fm.Decoded) (hall : AllInitialized e fm b)
    (hp : processSubmitVaa fm accounts nonce amount sender recipient token ⟨b,b⟩=.ok f) :
    Accepted e fm ⟨clock,accounts,.submitVaa nonce amount sender recipient token⟩ b f.view := by
  unfold processSubmitVaa at hp
  split at hp <;> simp only [steps_ok,loadState] at hp
  rename_i guardian bridgeState bridgeTx rest
  obtain ⟨-,hsigner,st,hload,-,-,-,hmember,r,hr,-,hunsigned,signatures,hpush,hserialize⟩ := hp
  have hsigned := Vec.push_eq_some.mp hpush
  have hstored := stored_of_serialize hserialize hsync (by simp)
  have hsigns : Call.signer? (I := Instruction) ⟨clock,guardian::bridgeState::bridgeTx::rest,
      .submitVaa nonce amount sender recipient token⟩ 0=some guardian.key := by
    simp [Call.signer?,hsigner]
  unfold openTx at hr
  split at hr
  case isTrue hstarted =>
    have hr := okOr_eq_ok.mp hr
    obtain ⟨hfound,htxs⟩ := hstored.changed hfm.tx hr (attested_ne hsigned)
    rw [hfm.txMarked hr] at hstarted
    have hstates : stateAt e fm f.view=stateAt e fm b :=
      hstored.apart hfm.tx (fun h h' => hfm.stateTx h' h)
        (Apart.clear (fun h h' => hfm.stateTx h' h) hr)
    exact .attested ⟨⟨_,rfl⟩,hsigns,rfl,rfl,hload,hmember,
      .inl ⟨hfound,of_decide_eq_true hstarted⟩,hunsigned,hsigned,rfl,hstates,.inl htxs⟩
  case isFalse hstarted =>
    obtain rfl := pure_eq_ok.mp hr
    -- what is written over is not a bridge state
    have hclear : stateAt e fm b bridgeTx.key=none := by
      cases hs : stateAt e fm b bridgeTx.key with
      | none => rfl
      | some x =>
        have hmarked := hfm.stateMarked (cellAt_eq_some.mp hs).2
        rw [hall _ x hs] at hmarked
        exact absurd hmarked hstarted
    have hstates : stateAt e fm f.view=stateAt e fm b :=
      hstored.apart hfm.tx (fun h h' => hfm.stateTx h' h) hclear
    have htxs : txAt e fm f.view=update (txAt e fm b) bridgeTx.key
          (some ((inbound nonce amount sender recipient token).attested signatures
            st.guardianThreshold)) ∨
        txAt e fm b bridgeTx.key=none ∧ txAt e fm f.view=txAt e fm b := by
      by_cases howner : (b bridgeTx.key).owner=e.programId
      · exact .inl (hstored.updated hfm.tx howner)
      · exact .inr ⟨cellAt_foreign howner,funext (hstored.foreign_cells howner)⟩
    exact .attested ⟨⟨_,rfl⟩,hsigns,rfl,rfl,hload,hmember,.inr ⟨sender,rfl⟩,hunsigned,hsigned,
      rfl,hstates,htxs⟩

theorem complete_spec (hfm : fm.Decoded) (hspl : e.SplToken)
    (hp : processCompleteTransfer e fm accounts nonce ⟨b,b⟩=.ok f) :
    Accepted e fm ⟨clock,accounts,.completeTransfer nonce⟩ b f.view := by
  unfold processCompleteTransfer at hp
  split at hp <;> simp only [steps_ok,loadState] at hp
  rename_i bridgeState bridgeTx mint dst _ _ _
  obtain ⟨st,hstate,r,hr,-,hstatus,-,rfl,-,-,_,hinvoke,_,hfirst,hsecond⟩ := hp
  obtain ⟨b1,hcall,hout,rfl⟩ := Deployment.invokeSpl_clean hinvoke
  have hminted := hspl.mintTo hcall
  have hne : bridgeTx.key≠bridgeState.key := by
    intro heq
    rw [heq] at hr
    exact hfm.stateTx hstate hr
  obtain ⟨b2,hstored,hstored'⟩ := stored_pair hne hfirst hsecond hsync (by simp) (by simp)
  have hr1 : fm.tx.load (b1 bridgeTx.key).data=some r := by
    rw [hminted.same (.inr (hfm.txSize hr))]
    exact hr
  have hstate2 : fm.state.load (b2 bridgeState.key).data=some st := by
    rw [hstored.others _ (Ne.symm hne),hminted.same (.inr (hfm.stateSize hstate))]
    exact hstate
  have hchanged : {r with status := .completed}≠r := by
    intro heq
    rw [← heq] at hstatus
    cases hstatus
  obtain ⟨hfound,htxs⟩ := hstored.changed hfm.tx hr1 hchanged
  have hstates2 : cellAt fm.state e.programId b2=stateAt e fm b := by
    refine (hstored.apart hfm.tx (fun h h' => hfm.stateTx h' h) ?_).trans (hout.cells_eq hfm.state)
    exact Apart.clear (fun h h' => hfm.stateTx h' h) hr1
  rw [hout.cells_eq hfm.tx] at hfound htxs
  suffices hall : Completed e fm ⟨clock,_,.completeTransfer r.nonce⟩ b f.view bridgeState.key
      bridgeTx.key mint.key dst.key st r from .completed hall
  refine ⟨rfl,rfl,rfl,rfl,hfound,hstatus,⟨b1,hminted,fun j => ?_⟩,?_,?_⟩
  · rw [hstored'.tokens (Untokened.not_token (.inr (hfm.stateSize hstate2)))
        (.inr (hfm.stateSize (hstored'.loaded hfm.state))) j,
      hstored.tokens (Untokened.not_token (.inr (hfm.txSize hr1)))
        (.inr (hfm.txSize (hstored.loaded hfm.tx))) j]
  · have hwritten := hstored'.rewritten hfm.state hstate2
    rw [hstates2] at hwritten
    exact hwritten.imp_right And.right
  · refine (hstored'.apart hfm.state hfm.stateTx ?_).trans htxs
    exact Apart.clear hfm.stateTx hstate2

end Handlers

section Steps

variable {e : Deployment} {fm : Formats}

theorem execute_spec (hfm : fm.Decoded) (hspl : e.SplToken) (hall : AllInitialized e fm b)
    (h : (program e fm).execute c b=.ok b') : Accepted e fm c b b' := by
  obtain ⟨f,hf,hsync,rfl⟩ := Program.execute_eq_ok.mp h
  obtain ⟨_,_,i⟩ := c
  cases i with
  | initializeBridge => exact initialize_spec hfm hf
  | registerToken => exact register_spec hfm hf
  | lockAndMint => exact lock_spec hsync hfm hspl hf
  | submitVaa => exact submit_spec hsync hfm hall hf
  | completeTransfer => exact complete_spec hsync hfm hspl hf
  | redeem => exact redeem_spec hsync hfm hspl hf

theorem Accepted.council (h : Accepted e fm c b b') :
    (∀ k st,stateAt e fm b k=some st → ∃ st',stateAt e fm b' k=some st' ∧ SameCouncil st st') ∧
      ∀ k st',stateAt e fm b' k=some st' → st'.isInitialized=true ∨
        ∃ st,stateAt e fm b k=some st ∧ SameCouncil st st' := by
  have hsame {s s' : Pubkey → Option BridgeState} (heq : s'=s) :
      (∀ k st,s k=some st → ∃ st',s' k=some st' ∧ SameCouncil st st') ∧
        ∀ k st',s' k=some st' → st'.isInitialized=true ∨ ∃ st,s k=some st ∧ SameCouncil st st' := by
    subst heq
    exact ⟨fun k st hst => ⟨st,hst,rfl,rfl⟩,fun k st hst => .inr ⟨st,hst,rfl,rfl⟩⟩
  have hupdate {s s' : Pubkey → Option BridgeState} {ks : Pubkey} {st0 st1 : BridgeState}
      (hst0 : s ks=some st0) (hcouncil : SameCouncil st0 st1)
      (heq : s'=update s ks (some st1)) :
      (∀ k st,s k=some st → ∃ st',s' k=some st' ∧ SameCouncil st st') ∧
        ∀ k st',s' k=some st' → st'.isInitialized=true ∨ ∃ st,s k=some st ∧ SameCouncil st st' := by
    subst heq
    refine ⟨fun k st hst => ?_,fun k st' hst' => .inr ?_⟩
    · by_cases hk : k=ks
      · subst hk
        cases hst0.symm.trans hst
        exact ⟨st1,update_self ..,hcouncil⟩
      · exact ⟨st,by rw [update_of_ne hk]; exact hst,rfl,rfl⟩
    · obtain ⟨rfl,rfl⟩ | ⟨-,hst'⟩ := update_eq_some.mp hst'
      · exact ⟨st0,hst0,hcouncil⟩
      · exact ⟨st',hst',rfl,rfl⟩
  cases h with
  | @initialized ks st1 u =>
    rw [u.states]
    refine ⟨fun k st hst => ?_,fun k st' hst' => ?_⟩
    · have hk : k≠ks := by
        rintro rfl
        cases u.fresh.symm.trans hst
      exact ⟨st,by rw [update_of_ne hk]; exact hst,rfl,rfl⟩
    · obtain ⟨-,rfl⟩ | ⟨-,hst'⟩ := update_eq_some.mp hst'
      · exact .inl u.made
      · exact .inr ⟨st',hst',rfl,rfl⟩
  | registered u => exact hsame u.states
  | sentOut u => exact hupdate u.state u.council u.states
  | attested u => exact hsame u.states
  | @completed ks k _ _ st r u =>
    have hcouncil : SameCouncil st (st.minted r.amount) := ⟨rfl,rfl⟩
    obtain ⟨hstate,hstates⟩ | hstates := u.states
    · exact hupdate hstate hcouncil hstates
    · exact hsame hstates

theorem Accepted.completed_of (h : Accepted e fm c b b')
    (hi : c.instruction=.completeTransfer nonce) :
    ∃ ks k mint dst st r,Completed e fm c b b' ks k mint dst st r := by
  cases h with
  | initialized u => exact absurd u.instruction (by simp [hi])
  | registered u => exact absurd u.instruction (by simp [hi])
  | sentOut u => exact absurd u.instruction (by simp [hi])
  | attested u => exact absurd u.instruction (by simp [hi])
  | @completed ks k mint dst st r u => exact ⟨ks,k,mint,dst,st,r,u⟩

end Steps

theorem initialized_run {e : Deployment} {fm : Formats} {start : Ledger} (hfm : fm.Decoded)
    (hspl : e.SplToken) (h0 : Untouched e.programId start.bank)
    (hrun : Run ((program e fm).Step ok) start tr t) : AllInitialized e fm t.bank := by
  refine hrun.invariant (I := fun t => AllInitialized e fm t.bank) ?_ ?_
  · intro k st hst
    rw [stateAt,h0.cells hfm.state] at hst
    cases hst
  · intro t a u hall hstep
    cases hstep with
    | call hclock _ hexec =>
      intro k st' hst'
      obtain hmade | ⟨st,hst,-,hkept⟩ := (execute_spec hfm hspl hall hexec).council.2 k st' hst'
      · exact hmade
      · rw [hkept]
        exact hall k st hst
    | @outside b _ hclock hout =>
      intro k st hst
      have hstates : stateAt e fm b=stateAt e fm t.bank := hout.cells_eq hfm.state
      rw [hstates] at hst
      exact hall k st hst

end PrismChain.EthereumBridge
