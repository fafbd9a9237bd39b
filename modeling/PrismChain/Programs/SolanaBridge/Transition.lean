import PrismChain.Programs.SolanaBridge.Processor

namespace PrismChain.SolanaBridge

open Function Invocation Storage

def Instruction.sends : Instruction → Bool
  | .lockToken _ _ | .burnAndRelease _ _ => true
  | _ => false

section Effects

variable (e : Deployment) (fm : Formats) (c : Call Instruction) (b b' : Bank)

def stateAt (b : Bank) : Pubkey → Option SolanaBridgeState := cellAt fm.state e.programId b
def recordAt (b : Bank) : Pubkey → Option TransferRecord := cellAt fm.record e.programId b

structure Initialized (k : Pubkey) (st : SolanaBridgeState) : Prop where
  fresh : stateAt e fm b k=none
  instruction : ∃ rpc len guardianSet guardianThreshold,
    c.instruction=.initializeBridge rpc len guardianSet guardianThreshold
  place : k=(statePda e).1
  made : st.nonce=0#64
  states : stateAt e fm b'=Function.update (stateAt e fm b) k (some st)
  records : recordAt e fm b'=recordAt e fm b
  unusedKept : ∀ j,j≠k → b j=unused → b' j=unused

structure SentOut (ks k : Pubkey) (st : SolanaBridgeState) (r : TransferRecord) : Prop where
  instruction : c.instruction.sends=true
  stateKey : c.key? 3=some ks
  recordKey : c.key? 4=some k
  state : stateAt e fm b ks=some st
  made : r.nonce=st.nonce+1#64 ∧ r.fromChain=4#8 ∧ r.status≠.completed
  place : k=(recordPda e r.nonce).1
  fresh : recordAt e fm b k=none
  states : stateAt e fm b'=Function.update (stateAt e fm b) ks (some st.counted)
  records : recordAt e fm b'=Function.update (recordAt e fm b) k (some r)
  unusedKept : ∀ j,j≠k → b j=unused → b' j=unused

/-- What the signature of a guardian does: with enough of them the amount that this guardian names
is minted, and otherwise nothing but the signature is added. -/
inductive Settled (ks : Pubkey) (st : SolanaBridgeState) (r' : TransferRecord) (amount : U64) : Prop
  | minted {dst : Pubkey} (henough : st.guardianThreshold.toNat≤ r'.guardianSignatures.val.length)
      (hstatus : r'.status=.completed) (hdst : c.key? 4=some dst)
      (hamounts : ∀ j,tokenAmount b' j=tokenAmount b j+(if j=dst then amount.toNat else 0))
      (hstate : stateAt e fm b ks=some st)
      (hstates : stateAt e fm b'=Function.update (stateAt e fm b) ks (some st.transferred))
  | waiting (hfew : r'.guardianSignatures.val.length< st.guardianThreshold.toNat)
      (hstatus : r'.status=.attested) (hamounts : ∀ j,tokenAmount b' j=tokenAmount b j)
      (hstates : stateAt e fm b'=stateAt e fm b)

structure Attested (ks k guardian : Pubkey) (nonce amount : U64) (st : SolanaBridgeState)
    (r r' : TransferRecord) : Prop where
  instruction : ∃ sender recipient m,c.instruction=.mintToken nonce amount sender recipient m
  signer : c.signer? 0=some guardian
  recordKey : c.key? 2=some k
  state : fm.state.load (b ks).data=some st
  member : guardian∈st.guardianSet.val
  place : k=(recordPda e nonce).1
  opened : recordAt e fm b k=some r ∨
    recordAt e fm b k=none ∧ ∃ mint sender recipient,r=inbound nonce mint amount sender recipient
  unsigned : guardian∉r.guardianSignatures.val
  signed : r'.guardianSignatures.val=r.guardianSignatures.val++[guardian]
  kept : r'={r with status := r'.status,guardianSignatures := r'.guardianSignatures}
  settled : Settled e fm c b b' ks st r' amount
  records : recordAt e fm b'=Function.update (recordAt e fm b) k (some r')
  unusedKept : ∀ j,j≠k → b j=unused → b' j=unused

inductive Accepted : Prop
  | initialized {k : Pubkey} {st : SolanaBridgeState} (u : Initialized e fm c b b' k st)
  | sentOut {ks k : Pubkey} {st : SolanaBridgeState} {r : TransferRecord}
      (u : SentOut e fm c b b' ks k st r)
  | attested {ks k guardian : Pubkey} {nonce amount : U64} {st : SolanaBridgeState}
      {r r' : TransferRecord} (u : Attested e fm c b b' ks k guardian nonce amount st r r')

end Effects

section Handlers

variable {e : Deployment} {fm : Formats} {accounts : List AccountInfo} {b b₁ b3 : Bank} {f : Frame}
  {ks k : Pubkey} {st : SolanaBridgeState} {r : TransferRecord}

theorem written_cells (hfm : fm.Decoded) (hne : k≠ks)
    (hrecord : Stored fm.record e.programId b b1 k r)
    (hstate : Stored fm.state e.programId b1 b' ks st') (howner : (b k).owner=e.programId)
    (hclear : stateAt e fm b k=none) (hload : fm.state.load (b ks).data=some st) :
    recordAt e fm b'=update (recordAt e fm b) k (some r) ∧ (stateAt e fm b ks=some st ∧
          stateAt e fm b'=update (stateAt e fm b) ks (some st') ∨
        st'=st ∧ stateAt e fm b'=stateAt e fm b) := by
  have hload1 : fm.state.load (b1 ks).data=some st := by
    rw [hrecord.others ks (Ne.symm hne)]
    exact hload
  have hstates1 : stateAt e fm b1=stateAt e fm b :=
    hrecord.apart hfm.record (fun hr hs => hfm.apart hs hr) hclear
  have hrecords1 := hstate.apart hfm.state hfm.apart (Apart.clear hfm.apart hload1)
  refine ⟨?_,?_⟩
  · unfold recordAt
    rw [hrecords1,hrecord.updated hfm.record howner]
  · rw [← hstates1]
    exact hstate.rewritten hfm.state hload1

variable (hsync : Synced e.programId accounts f)

theorem initialize_spec (hfm : fm.Decoded)
    (hp : processInitialize e fm accounts rpc len guardianSet threshold ⟨b,b⟩=.ok f) :
    Accepted e fm ⟨clock,accounts,.initializeBridge rpc len guardianSet threshold⟩ b f.view := by
  unfold processInitialize at hp
  split at hp <;> simp only [steps_ok] at hp
  rename_i admin _ _ _
  obtain ⟨-,-,-,-,-,hplace,_,hinvoke,hserialize⟩ := hp
  obtain ⟨_,hcreate,rfl⟩ := invoke_create hinvoke
  obtain ⟨d,hd,rfl⟩ := Frame.save_eq_ok.mp (Frame.serialize_eq_ok.mp hserialize)
  have hstored := stored_of_put hd (.inl (created_owner hcreate))
  have hmade : (newState admin.key rpc len guardianSet threshold).nonce=0#64 := rfl
  exact .initialized ⟨created_fresh hcreate hfm.state,⟨_,_,_,_,rfl⟩,hplace,hmade,
    founded hcreate hfm.state hstored,founded_apart hcreate hfm.state hfm.record hfm.apart hstored,
    fun j hj hu => (hstored.others j hj).trans (create_unused hcreate hj hu)⟩

include hsync

theorem outbound_spec {c : Call Instruction} (hfm : fm.Decoded) (hspl : e.SplToken)
    (hindex : index=transferIndex ∨ index=mintToIndex ∨ index=burnIndex)
    (hload : fm.state.load (b ks).data=some st)
    (hcall : e.callee splToken (Deployment.tokenData index amount) [first,second,user] b=.ok b1)
    (hrecord : recordOutbound e fm accounts user ks k st r space ⟨b1,b1⟩=.ok f)
    (hks : ks∈accounts.map AccountInfo.key) (hk : k∈accounts.map AccountInfo.key)
    (hi : c.instruction.sends=true) (hskey : c.key? 3=some ks) (hkey : c.key? 4=some k)
    (hmade : r.nonce=st.nonce+1#64 ∧ r.fromChain=4#8 ∧ r.status≠.completed) :
    SentOut e fm c b f.view ks k st r := by
  have hconfined := (e.confined hcall).1
  have hstate1 : b1 ks=b ks := hspl.same hindex hcall (.inr (hfm.stateSize hload))
  have hload1 : fm.state.load (b1 ks).data=some st := by rw [hstate1]; exact hload
  simp only [recordOutbound,steps_ok] at hrecord
  obtain ⟨-,hplace,_,hinvoke,_,hfirst,hsecond⟩ := hrecord
  obtain ⟨b2,hcreate,rfl⟩ := invoke_create hinvoke
  have hne := Ne.symm (created_ne hcreate hfm.state hload1)
  have hload2 : fm.state.load (b2 ks).data=some st := by
    rw [(created_others hcreate (Ne.symm hne)).1]
    exact hload1
  obtain ⟨b3,hstored,hstored'⟩ := stored_pair hne hfirst hsecond hsync hk hks
  have hstates1 : stateAt e fm b2=stateAt e fm b :=
    (created_eq hcreate hfm.state).trans (hconfined.cells_eq hfm.state)
  have hrecords1 : recordAt e fm b2=recordAt e fm b :=
    (created_eq hcreate hfm.record).trans (hconfined.cells_eq hfm.record)
  have hclear : stateAt e fm b2 k=none := by
    rw [stateAt,created_eq hcreate hfm.state]
    exact created_fresh hcreate hfm.state
  obtain ⟨hrecords,hstates⟩ := written_cells hfm hne hstored hstored' (created_owner hcreate) hclear
    hload2
  -- the counter has changed, so the account with it is the program's
  have hchanged : st.counted≠st := by
    intro heq
    have hnonce := congrArg SolanaBridgeState.nonce heq
    simp [SolanaBridgeState.counted] at hnonce
  obtain ⟨hstate,hstates⟩ := hstates.resolve_right fun h => hchanged h.1
  rw [hstates1] at hstate hstates
  rw [hrecords1] at hrecords
  refine ⟨hi,hskey,hkey,hstate,hmade,hplace,?_,hstates,hrecords,?_⟩
  · unfold recordAt
    rw [← hconfined.cells_eq hfm.record]
    exact created_fresh hcreate hfm.record
  · intro j hj hu
    have hu1 : b1 j=unused := by
      rw [hspl.same hindex hcall (untokened_unused hu)]
      exact hu
    have hu3 : b3 j=unused :=
      (hstored.others j hj).trans (create_unused hcreate hj hu1)
    refine hstored'.unusedKept ?_ hu3
    rw [hstored.others ks (Ne.symm hne)]
    exact hfm.state.used hload2

theorem lock_spec (hfm : fm.Decoded) (hspl : e.SplToken)
    (hp : processLockToken e fm accounts amount recipient ⟨b,b⟩=.ok f) :
    Accepted e fm ⟨clock,accounts,.lockToken amount recipient⟩ b f.view := by
  unfold processLockToken at hp
  split at hp <;> simp only [steps_ok,loadState] at hp
  obtain ⟨-,-,-,-,_,hload,-,-,_,hinvoke,hrecord⟩ := hp
  obtain ⟨_,hcall,-,rfl⟩ := Deployment.invokeSpl_clean hinvoke
  exact .sentOut (outbound_spec hsync hfm hspl (.inl rfl) hload hcall hrecord (by simp) (by simp)
    rfl rfl rfl ⟨rfl,rfl,TransferStatus.noConfusion⟩)

theorem burn_spec (hfm : fm.Decoded) (hspl : e.SplToken)
    (hp : processBurnAndRelease e fm accounts amount recipient ⟨b,b⟩=.ok f) :
    Accepted e fm ⟨clock,accounts,.burnAndRelease amount recipient⟩ b f.view := by
  unfold processBurnAndRelease at hp
  split at hp <;> simp only [steps_ok,loadState] at hp
  obtain ⟨-,-,-,-,_,hload,_,hinvoke,hrecord⟩ := hp
  obtain ⟨_,hcall,-,rfl⟩ := Deployment.invokeSpl_clean hinvoke
  exact .sentOut (outbound_spec hsync hfm hspl (.inr (.inr rfl)) hload hcall hrecord (by simp)
    (by simp) rfl rfl rfl ⟨rfl,rfl,TransferStatus.noConfusion⟩)

omit hsync

structure Opened (e : Deployment) (fm : Formats) (b b₁ : Bank) (ks k : Pubkey)
    (st : SolanaBridgeState) (r r₀ : TransferRecord) : Prop where
  state : fm.state.load (b₁ ks).data=some st
  states : stateAt e fm b₁=stateAt e fm b
  records : recordAt e fm b₁=recordAt e fm b
  ne : k≠ks
  clear : stateAt e fm b₁ k=none
  noToken : tokenIn b₁ k=none
  found : fm.record.load (b₁ k).data=some r ∨ (b₁ k).owner=e.programId ∧
    recordAt e fm b k=none ∧ r=r₀
  unusedKept : ∀ j,j≠k → b j=unused → b₁ j=unused

theorem open_spec (hfm : fm.Decoded) (hload : fm.state.load (b ks).data=some st)
    (hopen : openInbound e fm accounts user k st r0 ⟨b,b⟩=.ok (r,f)) :
    ∃ b1,f=⟨b1,b1⟩ ∧ Opened e fm b b1 ks k st r r0 ∧ ∀ j,tokenIn b1 j=tokenIn b j := by
  obtain ⟨hr,rfl⟩ | ⟨b1,hcreate,rfl,rfl⟩ := openOr_spec hopen
  · have hne : k≠ks := by
      rintro rfl
      exact hfm.apart hload hr
    have hclear : stateAt e fm b k=none := Apart.clear (fun hr hs => hfm.apart hs hr) hr
    have hnoToken : tokenIn b k=none := Untokened.not_token (.inr (hfm.recordSize hr))
    exact ⟨b,rfl,⟨hload,rfl,rfl,hne,hclear,hnoToken,.inl hr,fun _ _ hu => hu⟩,fun _ => rfl⟩
  · have hne := Ne.symm (created_ne hcreate hfm.state hload)
    have hstates : stateAt e fm b1=stateAt e fm b := created_eq hcreate hfm.state
    refine ⟨b1,rfl,⟨?_,hstates,created_eq hcreate hfm.record,hne,?_,(created_tokens hcreate k).2,
      .inr ⟨created_owner hcreate,created_fresh hcreate hfm.record,rfl⟩,
      fun j hj hu => create_unused hcreate hj hu⟩,fun j => (created_tokens hcreate j).1⟩
    · rw [(created_others hcreate (Ne.symm hne)).1]
      exact hload
    · rw [hstates]
      exact created_fresh hcreate hfm.state

namespace Opened

theorem after_call (u : Opened e fm b b1 ks k st r r0) (hfm : fm.Decoded) (hspl : e.SplToken)
    (hcall : e.callee splToken (Deployment.tokenData mintToIndex amount)
    [mint,dst,authority] b1=.ok b2) :
    Opened e fm b b2 ks k st r r0 := by
  have hindex : mintToIndex=transferIndex ∨ mintToIndex=mintToIndex ∨ mintToIndex=burnIndex :=
    .inr (.inl rfl)
  have hout := (e.confined hcall).1
  have hstates : stateAt e fm b2=stateAt e fm b1 := hout.cells_eq hfm.state
  refine ⟨?_,hstates.trans u.states,(hout.cells_eq hfm.record).trans u.records,u.ne,
    by rw [hstates]; exact u.clear,?_,?_,?_⟩
  · rw [hspl.same hindex hcall (.inr (hfm.stateSize u.state))]
    exact u.state
  · have hkept := (hspl.mintTo hcall).kept k
    rw [u.noToken] at hkept
    exact Option.map_eq_none_iff.mp hkept
  · cases u.found with
    | inl hr =>
      rw [hspl.same hindex hcall (.inr (hfm.recordSize hr))]
      exact .inl hr
    | inr hnew => exact .inr ⟨(hout.owned hnew.1).1,hnew.2⟩
  · intro j hj hu
    have hu1 := u.unusedKept j hj hu
    rw [hspl.same hindex hcall (untokened_unused hu1)]
    exact hu1

theorem opened (u : Opened e fm b b1 ks k st r r0) (howner : (b1 k).owner=e.programId) :
    recordAt e fm b k=some r ∨ recordAt e fm b k=none ∧ r=r0 := by
  cases u.found with
  | inl hr =>
    rw [← u.records]
    exact .inl (cellAt_eq_some.mpr ⟨howner,hr⟩)
  | inr hnew => exact .inr hnew.2

theorem written {f0 f1 : Frame} (u : Opened e fm b b1 ks k st r r0) (hfm : fm.Decoded) (hr' : r'≠r)
    (hf0 : f0=⟨b1,b1⟩) (hfirst : f0.serialize fm.record r' k=.ok f1)
    (hsecond : f1.serialize fm.state st' ks=.ok f)
    (hsync : Synced e.programId accounts f)
    (hk : k∈accounts.map AccountInfo.key) (hks : ks∈accounts.map AccountInfo.key) :
    (b1 k).owner=e.programId ∧ recordAt e fm f.view=update (recordAt e fm b) k (some r') ∧
      (stateAt e fm b ks=some st ∧ stateAt e fm f.view=update (stateAt e fm b) ks (some st') ∨
        st'=st ∧ stateAt e fm f.view=stateAt e fm b) ∧
      (∀ j,tokenIn f.view j=tokenIn b1 j) ∧ ∀ j,j≠k → b j=unused → f.view j=unused := by
  subst hf0
  obtain ⟨b2,hstored,hstored'⟩ := stored_pair u.ne hfirst hsecond hsync hk hks
  have howner : (b1 k).owner=e.programId := by
    cases u.found with
    | inl hr => exact hstored.owned_of_ne hfm.record hr hr'
    | inr hnew => exact hnew.1
  obtain ⟨hrecords,hstates⟩ := written_cells hfm u.ne hstored hstored' howner u.clear u.state
  rw [u.states] at hstates
  refine ⟨howner,by rw [hrecords,u.records],hstates,?_,?_⟩
  · intro j
    have hrecordSize := hfm.recordSize (hfm.record.stored hstored.store)
    have hstateSize := hfm.stateSize (hfm.state.stored hstored'.store)
    have hno : tokenIn b2 ks=none := by
      rw [tokenIn_congr (hstored.others ks (Ne.symm u.ne))]
      exact Untokened.not_token (.inr (hfm.stateSize u.state))
    rw [hstored'.tokens hno (.inr hstateSize) j,hstored.tokens u.noToken (.inr hrecordSize) j]
  · intro j hj hu
    refine hstored'.unusedKept ?_ ((hstored.others j hj).trans (u.unusedKept j hj hu))
    rw [hstored.others ks (Ne.symm u.ne)]
    exact hfm.state.used u.state

end Opened

theorem signed_ne {w : Vec Pubkey} (hv : r.guardianSignatures=v) (hw : w.val=v.val++[guardian]) :
    {r with status := status,guardianSignatures := w}≠r := by
  intro heq
  have hlist := congrArg (fun x => x.guardianSignatures.val.length) heq
  simp [hv,hw] at hlist

include hsync

theorem mint_spec {nonce amount : U64} {sender recipient m : Pubkey} (hfm : fm.Decoded)
    (hspl : e.SplToken)
    (hp : processMintToken e fm accounts nonce amount sender recipient ⟨b,b⟩=.ok f) :
    Accepted e fm ⟨clock,accounts,.mintToken nonce amount sender recipient m⟩ b f.view := by
  unfold processMintToken at hp
  split at hp <;> simp only [steps_ok,loadState,Prod.exists] at hp
  rename_i bridgeState record mint dst _ _ _ _
  obtain ⟨-,hsigner,st,hload,-,hmember,-,hplace,r,_,hopen,-,hunsigned,_,hpush,hsettle⟩ := hp
  obtain ⟨_,rfl,hopened,htokens1⟩ := open_spec hfm hload hopen
  have hsigned := Vec.push_eq_some.mp hpush
  have hfound {b2 : Bank} (u : Opened e fm b b2 bridgeState.key record.key st r
      (inbound nonce mint.key amount sender recipient)) (howner :
        (b2 record.key).owner=e.programId) :
      recordAt e fm b record.key=some r ∨ recordAt e fm b record.key=none ∧
        ∃ mint sender recipient,r=inbound nonce mint amount sender recipient :=
    (u.opened howner).imp_right fun h => ⟨h.1,_,_,_,h.2⟩
  unfold settleInbound at hsettle
  split at hsettle
  case isTrue henough =>
    simp only [steps_ok] at hsettle
    obtain ⟨-,hauthority,_,hinvoke,f3,hfirst,hsecond⟩ := hsettle
    obtain ⟨b2,hcall,-,rfl⟩ := Deployment.invokeSpl_clean hinvoke
    rw [hauthority] at hcall
    have hopened2 := hopened.after_call hfm hspl hcall
    obtain ⟨howner,hrecords,hstates,htokens,hunused⟩ :=
      hopened2.written hfm (signed_ne rfl hsigned) rfl hfirst
      hsecond hsync (by simp) (by simp)
    have hchanged : st.transferred≠st := by
      intro heq
      have htotal := congrArg SolanaBridgeState.totalTransfers heq
      simp [SolanaBridgeState.transferred] at htotal
    obtain ⟨hstate,hstates⟩ := hstates.resolve_right fun h => hchanged h.1
    have hamounts (j : Pubkey) : tokenAmount f.view j=
        tokenAmount b j+(if j=dst.key then amount.toNat else 0) := by
      rw [tokenAmount_congr (htokens j),(hspl.mintTo hcall).amounts j,
        tokenAmount_congr (htokens1 j)]
    exact .attested ⟨⟨_,_,_,rfl⟩,by simp [Call.signer?,hsigner],rfl,hload,hmember,hplace,
      hfound hopened2 howner,hunsigned,hsigned,rfl,
      .minted henough rfl rfl hamounts hstate hstates,hrecords,hunused⟩
  case isFalse hfew =>
    simp only [bind_eq_ok] at hsettle
    obtain ⟨f3,hfirst,hsecond⟩ := hsettle
    obtain ⟨howner,hrecords,hstates,htokens,hunused⟩ :=
      hopened.written hfm (signed_ne rfl hsigned) rfl hfirst
      hsecond hsync (by simp) (by simp)
    have hstates : stateAt e fm f.view=stateAt e fm b := by
      obtain ⟨hstate,hstates⟩ | ⟨-,hstates⟩ := hstates
      · rw [hstates,← hstate,update_eq_self]
      · exact hstates
    exact .attested ⟨⟨_,_,_,rfl⟩,by simp [Call.signer?,hsigner],rfl,hload,hmember,hplace,
      hfound hopened howner,hunsigned,hsigned,rfl,.waiting (Nat.lt_of_not_le hfew) rfl
      (fun j => tokenAmount_congr ((htokens j).trans (htokens1 j))) hstates,hrecords,hunused⟩

end Handlers

theorem execute_spec {e : Deployment} {fm : Formats} (hfm : fm.Decoded) (hspl : e.SplToken)
    (h : (program e fm).execute c b=.ok b') : Accepted e fm c b b' := by
  obtain ⟨f,hf,hsync,rfl⟩ := Program.execute_eq_ok.mp h
  obtain ⟨_,_,i⟩ := c
  cases i with
  | initializeBridge => exact initialize_spec hfm hf
  | lockToken => exact lock_spec hsync hfm hspl hf
  | mintToken => exact mint_spec hsync hfm hspl hf
  | burnAndRelease => exact burn_spec hsync hfm hspl hf

end PrismChain.SolanaBridge
