import PrismChain.Programs.SolanaBridge.Minting

namespace PrismChain.SolanaBridge

open List Function Program Invocation PrismChain.Frame

def SentIn (e : Deployment) (n : U64) (x : LogEntry Instruction) : Prop :=
  ∃ c,x.label=.call c ∧ c.instruction.sends=true ∧ c.key? 4=some (recordPda e n).1

/-- The nonces are shared out: transfers from Solana have those in `reserved`, and the counter of
the bridge runs through others and not over its end. -/
def SharedOut (e : Deployment) (fm : Formats) (reserved : U64 → Prop) (b : Bank)
    (c : Call Instruction) : Prop :=
  (∀ n amount sender recipient m,
    c.instruction=.mintToken n amount sender recipient m → reserved n) ∧
    ∀ ks st,c.instruction.sends=true → c.key? 3=some ks → stateAt e fm b ks=some st →
      ¬reserved (st.nonce+1#64) ∧ st.nonce.toNat+1<2^64

structure Counted (e : Deployment) (fm : Formats) (reserved : U64 → Prop) (b : Bank) : Prop where
  only : ∀ k st,stateAt e fm b k=some st → k=(statePda e).1
  records : ∀ n,b (recordPda e n).1=unused ∨ reserved n ∨
    ∃ st,stateAt e fm b (statePda e).1=some st ∧ n.toNat≤ st.nonce.toNat

section Steps

variable {e : Deployment} {fm : Formats}

theorem Counted.next (h : Counted e fm reserved b)
    (hrecords : ∀ n,b (recordPda e n).1=unused → b' (recordPda e n).1≠unused →
      reserved n ∨ ∃ st,stateAt e fm b' (statePda e).1=some st ∧ n.toNat≤ st.nonce.toNat)
    (hstates : ∀ k st,stateAt e fm b k=some st →
      ∃ st',stateAt e fm b' k=some st' ∧ st.nonce.toNat≤ st'.nonce.toNat)
    (honly : ∀ k st,stateAt e fm b' k=some st → k=(statePda e).1) :
    Counted e fm reserved b' := by
  refine ⟨honly,fun n => ?_⟩
  by_cases hu : b' (recordPda e n).1=unused
  · exact .inl hu
  refine .inr ?_
  obtain hbefore | hreserved | ⟨st,hst,hle⟩ := h.records n
  · exact hrecords n hbefore hu
  · exact .inl hreserved
  · obtain ⟨st',hst',hle'⟩ := hstates _ st hst
    exact .inr ⟨st',hst',hle.trans hle'⟩

theorem state_rises {st' : SolanaBridgeState} (hst : stateAt e fm b ks=some st)
    (hle : st.nonce.toNat≤ st'.nonce.toNat)
    (hstates : stateAt e fm b'=update (stateAt e fm b) ks (some st')) :
    (∀ k x,stateAt e fm b k=some x →
    ∃ x',stateAt e fm b' k=some x' ∧ x.nonce.toNat≤x'.nonce.toNat) ∧
      ∀ k x,stateAt e fm b' k=some x → ∃ x0,stateAt e fm b k=some x0 := by
  rw [hstates]
  refine ⟨fun k x hx => ?_,fun k x hx => ?_⟩
  · by_cases hk : k=ks
    · subst hk
      rw [update_self]
      cases hst.symm.trans hx
      exact ⟨st',rfl,hle⟩
    · rw [update_of_ne hk]
      exact ⟨x,hx,le_rfl⟩
  · by_cases hk : k=ks
    · exact ⟨st,by rw [hk]; exact hst⟩
    · rw [update_of_ne hk] at hx
      exact ⟨x,hx⟩

theorem counted_call (hfm : fm.Decoded) (hspl : e.SplToken) (hsep : Separate e)
    (hok : SharedOut e fm reserved b c) (hexec : (program e fm).execute c b=.ok b')
    (h : Counted e fm reserved b) : Counted e fm reserved b' := by
  cases execute_spec hfm hspl hexec with
  | @initialized k st u =>
    refine h.next (fun n hu hused => ?_) (fun k' st' hst' => ?_) (fun k' st' hst' => ?_)
    · refine absurd (u.unusedKept _ ?_ hu) hused
      rw [u.place]
      exact hsep.recordState n
    · have hk : k'≠k := by
        rintro rfl
        cases u.fresh.symm.trans hst'
      rw [u.states,update_of_ne hk]
      exact ⟨st',hst',le_rfl⟩
    · by_cases hk : k'=k
      · rw [hk,u.place]
      · rw [u.states,update_of_ne hk] at hst'
        exact h.only k' st' hst'
  | @sentOut ks k st r u =>
    obtain ⟨-,_⟩ := hok.2 ks st u.instruction u.stateKey u.state
    have hnext : st.counted.nonce.toNat=st.nonce.toNat+1 := by
      simp only [SolanaBridgeState.counted,BitVec.toNat_add,BitVec.toNat_ofNat]
      omega
    have hks := h.only ks st u.state
    obtain ⟨hrises,hbefore⟩ := state_rises u.state (by omega : _≤ st.counted.nonce.toNat) u.states
    refine h.next (fun n hu hused => ?_) hrises fun k' st' hst' => ?_
    · refine .inr ⟨st.counted,by rw [u.states,← hks,update_self],?_⟩
      by_cases hk : (recordPda e n).1=k
      · rw [hsep.numbered (hk.trans u.place),u.made.1]
        exact le_rfl
      · exact absurd (u.unusedKept _ hk hu) hused
    · obtain ⟨x0,hx0⟩ := hbefore k' st' hst'
      exact h.only k' x0 hx0
  | @attested ks k _ nonce amount st r _ u =>
    obtain ⟨sender,recipient,m,hi⟩ := u.instruction
    have hreserved := hok.1 nonce amount sender recipient m hi
    have hstates : (∀ k x,stateAt e fm b k=some x → ∃ x',stateAt e fm b' k=some x' ∧
          x.nonce.toNat≤x'.nonce.toNat) ∧
        ∀ k x,stateAt e fm b' k=some x → ∃ x0,stateAt e fm b k=some x0 := by
      cases u.settled with
      | minted _ hstatus _ hamounts hstate hstates =>
        exact state_rises hstate (le_refl st.transferred.nonce.toNat) hstates
      | waiting _ hstatus hamounts hstates =>
        rw [hstates]
        exact ⟨fun _ x hx => ⟨x,hx,le_rfl⟩,fun _ x hx => ⟨x,hx⟩⟩
    refine h.next (fun n hu hused => .inl ?_) hstates.1 fun k' st' hst' => ?_
    · by_cases hk : (recordPda e n).1=k
      · rw [hsep.numbered (hk.trans u.place)]
        exact hreserved
      · exact absurd (u.unusedKept _ hk hu) hused
    · obtain ⟨x0,hx0⟩ := hstates.2 k' st' hst'
      exact h.only k' x0 hx0

theorem counted_outside (hfm : fm.Decoded) (hout : Outside e.programId b b')
    (hunused : ∀ n,b (recordPda e n).1=unused → b' (recordPda e n).1=unused)
    (h : Counted e fm reserved b) : Counted e fm reserved b' := by
  have hstates : stateAt e fm b'=stateAt e fm b := hout.cells_eq hfm.state
  refine h.next (fun n hu hused => absurd (hunused n hu) hused) (fun k st hst => ?_)
    (fun k st hst => ?_)
  · rw [hstates]
    exact ⟨st,hst,le_rfl⟩
  · rw [hstates] at hst
    exact h.only k st hst

variable {x : LogEntry Instruction}

theorem sent_unreserved (hfm : fm.Decoded) (hspl : e.SplToken) (hsep : Separate e)
    (hstep : (program e fm).Step (SharedOut e fm reserved) x.pre x.label x.post)
    (hsent : SentIn e n x) : ¬reserved n := by
  obtain ⟨c,hlabel,hsends,hkey⟩ := hsent
  obtain ⟨pre,label,post⟩ := x
  subst hlabel
  cases hstep with
  | call _ hok hexec =>
    cases execute_spec hfm hspl hexec with
    | initialized u =>
      obtain ⟨_,_,_,_,hi⟩ := u.instruction
      rw [hi] at hsends
      cases hsends
    | @sentOut ks k st r u =>
      have hplace := u.place
      rw [Option.some.inj (u.recordKey.symm.trans hkey)] at hplace
      rw [hsep.numbered hplace,u.made.1]
      exact (hok.2 ks st u.instruction u.stateKey u.state).1
    | attested u =>
      obtain ⟨_,_,m,hi⟩ := u.instruction
      rw [hi] at hsends
      cases hsends

theorem minted_reserved (hfm : fm.Decoded) (hspl : e.SplToken)
    (hstep : (program e fm).Step (SharedOut e fm reserved) x.pre x.label x.post)
    (hminted : mintedIn n x≠0) : reserved n := by
  obtain ⟨pre,label,post⟩ := x
  cases hstep with
  | outside hclock => exact absurd rfl hminted
  | call hclock hok hexec =>
    cases execute_spec hfm hspl hexec with
    | initialized u =>
      obtain ⟨_,_,_,_,hi⟩ := u.instruction
      exact absurd (mintedIn_other (by simp [hi])) hminted
    | sentOut u =>
      have hsends := u.instruction
      exact absurd
        (mintedIn_other (by intro _ _ _ _ _ hi; simp [hi,Instruction.sends] at hsends)) hminted
    | @attested _ _ _ nonce amount _ _ _ u =>
      obtain ⟨sender,recipient,m,hi⟩ := u.instruction
      have hreserved := hok.1 nonce amount sender recipient m hi
      by_cases hn : nonce=n
      · exact hn ▸ hreserved
      · rw [mintedIn_attested u,if_neg hn] at hminted
        exact absurd rfl hminted

end Steps

section Runs

variable {e : Deployment} {fm : Formats} {start : Ledger} {tr : Trace Instruction}

def RecordsLeftAlone (e : Deployment) (start : Ledger) (tr : Trace Instruction) : Prop :=
  (∀ n,start.bank (recordPda e n).1=unused) ∧
    ∀ x∈tr,x.label=.outside → ∀ n,x.pre.bank (recordPda e n).1=unused →
      x.post.bank (recordPda e n).1=unused

theorem counted_run (hfm : fm.Decoded) (hspl : e.SplToken) (hsep : Separate e)
    (h0 : Untouched e.programId start.bank)
    (hrun : Run ((program e fm).Step (SharedOut e fm reserved)) start tr t)
    (halone : RecordsLeftAlone e start tr) : Counted e fm reserved t.bank := by
  obtain ⟨hstart,houtside⟩ := halone
  refine hrun.traced (I := fun tr t => (∀ x∈tr,x.label=.outside →
      ∀ n,x.pre.bank (recordPda e n).1=unused →
        x.post.bank (recordPda e n).1=unused) →
    Counted e fm reserved t.bank) ?_ ?_ houtside
  · intro _
    refine ⟨fun k st hst => ?_,fun n => .inl (hstart n)⟩
    rw [stateAt,h0.cells hfm.state] at hst
    cases hst
  · intro tr t a u _ hi hstep hall
    have hbefore := hi fun x hx => hall x (mem_append_left _ hx)
    have hlast := hall ⟨t,a,u⟩ (mem_append_right _ mem_cons_self)
    cases hstep with
    | call hclock hok hexec => exact counted_call hfm hspl hsep hok hexec hbefore
    | outside hclock hout => exact counted_outside hfm hout (hlast rfl) hbefore

end Runs

/-- A LockToken or BurnAndRelease by a user who has the tokens and the lamports for it, with the
accounts that it needs and the record address for the next nonce. -/
structure Ready (e : Deployment) (fm : Formats) (b : Bank) (c : Call Instruction)
    (st : SolanaBridgeState) (index : Byte) (user userToken second bridgeState record : Pubkey)
    (amount : U64) (r : TransferRecord) (space : Nat) : Prop where
  accounts : ∃ u ut s bs tr tp sys rest,c.accounts=u::ut::s::bs::tr::tp::sys::rest ∧
    (u.key=user ∧ u.isSigner=true) ∧ ut.key=userToken ∧ s.key=second ∧ bs.key=bridgeState ∧
    tr.key=record ∧ tp.key=splToken
  system : (c.accounts.any fun a => a.key==systemProgram)=true
  writable : ∀ k∈[user,userToken,second,bridgeState,record],
    (Invocation.mk e.programId c.accounts).writable k=true
  asks : ∃ recipient,
    c.instruction=.lockToken amount recipient ∧ index=transferIndex ∧ st.isInitialized=true ∧
        r=outbound st.counted.nonce second amount user recipient .locked ∧ space=signedSpace r st ∨
      c.instruction=.burnAndRelease amount recipient ∧ index=burnIndex ∧
        r=outbound st.counted.nonce second amount user recipient .initiated ∧
        space=(recordCodec.encode r).length
  nonzero : amount≠0#64
  state : stateAt e fm b bridgeState=some st
  place : record=(recordPda e st.counted.nonce).1
  tokens :
    ∃ b₁,e.callee splToken (Deployment.tokenData index amount) [userToken,second,user] b=.ok b₁
  payer : (b user).data=[] ∧ (b user).owner=systemProgram
  notRecord : user≠record
  funded : (e.minimumBalance space).toNat≤(b user).lamports.toNat

section Ready

variable {e : Deployment} {fm : Formats} {accounts : List AccountInfo} {r : TransferRecord}

theorem recordOutbound_returns (hfm : fm.Decoded) (hstate : stateAt e fm b bridgeState=some st)
    (hplace : record=(recordPda e r.nonce).1) (hunused : b record=unused)
    (hpayer : (b user).data=[] ∧ (b user).owner=systemProgram) (hne : user≠record)
    (hfunded : (e.minimumBalance space).toNat≤(b user).lamports.toNat)
    (hsystem : (accounts.any fun a => a.key==systemProgram)=true)
    (hsigned : (mk e.programId accounts).signed user=true)
    (hwritable : ∀ k∈[user,bridgeState,record],(mk e.programId accounts).writable k=true) :
    ∃ f,recordOutbound e fm accounts user bridgeState record st r space ⟨b,b⟩=.ok f ∧
      ∀ keys,sync ⟨e.programId,accounts⟩ keys f=.ok () := by
  obtain ⟨b1,hcreate,hinvoke⟩ := create_returns hunused hpayer hne hfunded hsystem hsigned
    (hwritable user (by simp)) (hwritable record (by simp))
  obtain ⟨howner,hload⟩ := cellAt_eq_some.mp hstate
  have hapart := Ne.symm (created_ne hcreate hfm.state hload)
  obtain ⟨-,-,-,-,-,-,-,hmine,hothers,-,-⟩ := createAccount_spec hcreate
  obtain ⟨d,hd⟩ := hfm.record.storable r (b1 record).data
  obtain ⟨d',hd'⟩ := hfm.state.storable st.counted ((b1.setData record d) bridgeState).data
  refine ⟨⟨b1,(b1.setData record d).setData bridgeState d'⟩,?_,fun keys => ?_⟩
  · simp only [recordOutbound,steps_ok]
    refine ⟨(),hplace,_,hinvoke,⟨b1,b1.setData record d⟩,?_,?_⟩
    · exact serialize_eq_ok.mpr (save_eq_ok.mpr ⟨d,hd,rfl⟩)
    · exact serialize_eq_ok.mpr (save_eq_ok.mpr ⟨d',hd',rfl⟩)
  · refine sync_of_data (fun k => by simp) (fun k => ?_) keys
    by_cases hks : k=bridgeState
    · subst hks
      exact .inr ⟨(hothers k (Ne.symm hapart)).2.trans howner,hwritable k (by simp)⟩
    rw [Bank.setData_other _ _ hks]
    by_cases hk : k=record
    · subst hk
      exact .inr ⟨hmine,hwritable k (by simp)⟩
    · exact .inl (Bank.setData_other _ _ hk)

end Ready

theorem ready_returns {e : Deployment} {fm : Formats} (hfm : fm.Decoded) (hspl : e.SplToken)
    (h : Ready e fm b c st index user userToken second bridgeState record amount r space)
    (hunused : b record=unused) : ∃ b',(program e fm).execute c b=.ok b' := by
  obtain ⟨u,ut,s,bs,tr,_,_,_,haccounts,⟨rfl,hsigner⟩,rfl,rfl,rfl,rfl,hprogram⟩ := h.accounts
  obtain ⟨b1,hcall⟩ := h.tokens
  obtain ⟨_,hload⟩ := cellAt_eq_some.mp h.state
  have hindex : index=transferIndex ∨ index=mintToIndex ∨ index=burnIndex := by
    obtain ⟨recipient,⟨-,hi,-⟩ | ⟨-,hi,-⟩⟩ := h.asks
    · exact .inl hi
    · exact .inr (.inr hi)
  -- the token program touches neither the user nor the accounts of the bridge
  have huser : b1 u.key=b u.key := by
    refine hspl.same hindex hcall (.inl ?_)
    rw [h.payer.2]
    decide
  have hrecord : b1 tr.key=unused := by
    rw [hspl.same hindex hcall (untokened_unused hunused)]
    exact hunused
  have hstate : stateAt e fm b1 bs.key=some st := by
    rw [stateAt,(e.confined hcall).1.cells_eq hfm.state]
    exact h.state
  have hsigned : (mk e.programId c.accounts).signed u.key=true := by
    simp [signed,haccounts,hsigner]
  have hfirst : (mk e.programId c.accounts).writable ut.key=true :=
    h.writable ut.key (by simp)
  have hsecond : (mk e.programId c.accounts).writable s.key=true :=
    h.writable s.key (by simp)
  have hinvoke := Deployment.invokeSpl_returns hcall hfirst hsecond
  have hnonce : r.nonce=st.counted.nonce := by
    obtain ⟨recipient,⟨-,-,-,hr,-⟩ | ⟨-,-,hr,-⟩⟩ := h.asks <;> rw [hr] <;> rfl
  have hfunded : (e.minimumBalance space).toNat≤(b1 u.key).lamports.toNat := by
    rw [huser]
    exact h.funded
  obtain ⟨f,hf,hsync⟩ := recordOutbound_returns hfm hstate (by rw [hnonce]; exact h.place) hrecord
    (by rw [huser]; exact h.payer) h.notRecord hfunded h.system hsigned
    (fun k hk => h.writable k (by
      simp only [mem_cons,not_mem_nil,or_false] at hk ⊢
      tauto))
  refine ⟨f.view,execute_eq_ok.mpr ⟨f,?_,hsync _,rfl⟩⟩
  obtain ⟨recipient,⟨hi,rfl,hinit,rfl,rfl⟩ | ⟨hi,rfl,rfl,rfl⟩⟩ := h.asks
  · rw [haccounts] at hinvoke hf
    simp only [program,processInstruction,hi,haccounts,processLockToken,loadState,steps_ok,hprogram]
    exact ⟨(),hsigner,(),h.nonzero,st,hload,(),hinit,_,hinvoke,hf⟩
  · rw [haccounts] at hinvoke hf
    simp only
      [program,processInstruction,hi,haccounts,processBurnAndRelease,loadState,steps_ok,hprogram]
    exact ⟨(),hsigner,(),h.nonzero,st,hload,_,hinvoke,hf⟩

/-- While the nonces are shared out, nothing is minted for a transfer that leaves, and a transfer
that can leave does. -/
theorem directions_apart {e : Deployment} {fm : Formats} (hfm : fm.Decoded) (hspl : e.SplToken)
    (hsep : Separate e) {reserved : U64 → Prop} {start t : Ledger} {tr : Trace Instruction}
    (h0 : Untouched e.programId start.bank)
    (hrun : Run ((program e fm).Step (SharedOut e fm reserved)) start tr t)
    (halone : RecordsLeftAlone e start tr) :
    (∀ n,∀ x∈tr,SentIn e n x → ∀ y∈tr,mintedIn n y=0) ∧
      ∀ c st index user userToken second bridgeState record amount r space,
        Ready e fm t.bank c st index user userToken second bridgeState record amount r space →
        SharedOut e fm reserved t.bank c → ∃ b',(program e fm).execute c t.bank=.ok b' := by
  refine ⟨fun n x hx hsent y hy => ?_,?_⟩
  · by_contra hminted
    exact sent_unreserved hfm hspl hsep (hrun.step_of_mem hx) hsent
      (minted_reserved hfm hspl (hrun.step_of_mem hy) hminted)
  · intro c st index user userToken second bridgeState record amount r space hready hshared
    refine ready_returns hfm hspl hready ?_
    have hcounted := counted_run hfm hspl hsep h0 hrun halone
    obtain ⟨u,_,s,_,_,_,_,_,haccounts,-,-,-,hbs,-⟩ := hready.accounts
    have hkey : c.key? 3=some bridgeState := by
      rw [Call.key?,haccounts,← hbs]
      rfl
    have hsends : c.instruction.sends=true := by
      obtain ⟨_,⟨hi,-⟩ | ⟨hi,-⟩⟩ := hready.asks <;> rw [hi] <;> rfl
    obtain ⟨hnot,_⟩ := hshared.2 bridgeState st hsends hkey hready.state
    have hnext : st.counted.nonce.toNat=st.nonce.toNat+1 := by
      simp only [SolanaBridgeState.counted,BitVec.toNat_add,BitVec.toNat_ofNat]
      omega
    rw [hready.place]
    obtain hunused | hreserved | ⟨_,hst',_⟩ := hcounted.records st.counted.nonce
    · exact hunused
    · exact absurd hreserved hnot
    · have hst := hready.state
      rw [hcounted.only bridgeState st hst] at hst
      cases hst.symm.trans hst'
      omega

def lockCall (n : U64) : Call Instruction :=
  ⟨⟨2#64,2#64⟩,[⟨50#256,true,true⟩,⟨60#256,false,true⟩,⟨62#256,false,true⟩,⟨8#256,false,true⟩,
    ⟨(recordPda sampleHost n).1,false,true⟩,⟨splToken,false,false⟩,systemInfo],
    .lockToken 30#64 6#256⟩

def canLock (b : Bank) : Bool :=
  (sampleNet.callee splToken (Deployment.tokenData transferIndex 30#64) [60#256,62#256,50#256]
      b).toOption.isSome && decide ((b 50#256).data=[] ∧ (b 50#256).owner=systemProgram ∧
    1000≤(b 50#256).lamports.toNat)

theorem lockCall_ready (hstate : stateAt sampleNet .values b 8#256=some st)
    (hinit : st.isInitialized=true) (hcan : canLock b=true) :
    Ready sampleNet .values b
      (lockCall st.counted.nonce) st transferIndex 50#256 60#256 62#256 8#256
      (recordPda sampleHost st.counted.nonce).1 30#64
      (outbound st.counted.nonce 62#256 30#64 50#256 6#256 .locked)
      (signedSpace (outbound st.counted.nonce 62#256 30#64 50#256 6#256 .locked) st) := by
  obtain ⟨htokens,hpayer⟩ := Bool.and_eq_true_iff.mp hcan
  obtain ⟨hdata,howner,hfunded⟩ := of_decide_eq_true hpayer
  have hcall : ∃ b1,sampleNet.callee splToken (Deployment.tokenData transferIndex 30#64)
      [60#256,62#256,50#256] b=.ok b1 := by
    obtain ⟨b1,hb1⟩ := Option.isSome_iff_exists.mp htokens
    exact ⟨b1,toOption_eq_some.mp hb1⟩
  have hne : 50#256≠(recordPda sampleHost st.counted.nonce).1 := by
    intro heq
    have hvalues := congrArg BitVec.toNat heq
    rw [sampleRecord,show (50#256).toNat=50 from rfl] at hvalues
    omega
  exact {
    accounts := ⟨_,_,_,_,_,_,_,_,rfl,⟨rfl,rfl⟩,rfl,rfl,rfl,rfl,rfl⟩
    system := by simp [lockCall]
    writable := by simp [lockCall,writable]
    asks := ⟨6#256,.inl ⟨rfl,rfl,hinit,rfl,rfl⟩⟩
    nonzero := by decide
    state := hstate
    place := rfl
    tokens := hcall
    payer := ⟨hdata,howner⟩
    notRecord := hne
    funded := hfunded}

theorem sampleBank_unused {k : Pubkey} (hk : 1000≤k.toNat) : sampleBank k=unused := by
  have hne (j : Pubkey) (hj : j.toNat<1000) : k≠j := by
    rintro rfl
    omega
  have hfirst : ¬(k=80#256 ∨ k=50#256 ∨ k=51#256 ∨ k=52#256) := by
    simp only [hne 80#256 (by decide),hne 50#256 (by decide),hne 51#256 (by decide),
      hne 52#256 (by decide),or_self,not_false_eq_true]
  unfold sampleBank
  rw [if_neg hfirst,if_neg (hne 60#256 (by decide)),if_neg (hne 61#256 (by decide)),
    if_neg (hne 62#256 (by decide)),if_neg (hne 90#256 (by decide))]

theorem sample_left_alone (h : (program sampleNet .values).history cs sampleStart=some (tr,t)) :
    RecordsLeftAlone sampleNet sampleStart tr := by
  have hlarge (n : U64) : 1000≤(recordPda sampleHost n).1.toNat := by
    rw [sampleRecord n]
    exact Nat.le_add_right 1000 _
  have hhost : sampleNet=sampleHost := rfl
  have hbank : sampleStart.bank=sampleBank := rfl
  refine ⟨fun n => by rw [hhost,hbank]; exact sampleBank_unused (hlarge n),fun x hx hlabel => ?_⟩
  obtain ⟨c,-,hcall⟩ := history_calls h x hx
  rw [hcall] at hlabel
  cases hlabel

theorem lock_beside_mint : ∃ tr t st b',
    Run ((program sampleNet .values).Step (SharedOut sampleNet .values (·=7#64))) sampleStart tr t ∧
    (∃ x∈tr,SentIn sampleNet 1#64 x) ∧ (∃ y∈tr,mintedIn 7#64 y=100) ∧
    (∀ y∈tr,mintedIn 1#64 y=0) ∧ stateAt sampleNet .values t.bank 8#256=some st ∧
    st.nonce=1#64 ∧ (program sampleNet .values).execute (lockCall 2#64) t.bank=.ok b' := by
  obtain ⟨⟨tr,t⟩,hhistory,st,hst,hnonce,hinit,hcan,hlow,hmint⟩ :
      ∃ x,(program sampleNet .values).history [initializeCall 1#8,lockCall 1#64,
        mintCall 51#256 7#64 100#64] sampleStart=some x ∧
      ∃ st,stateAt sampleNet .values x.2.bank 8#256=some st ∧ st.nonce=1#64 ∧
      st.isInitialized=true ∧ canLock x.2.bank=true ∧
      (∀ y∈x.1,((stateAt sampleNet .values y.pre.bank 8#256).elim 0#64 (·.nonce)).toNat≤1) ∧
      ∃ y∈x.1,mintedIn 7#64 y=100 := by decide +kernel
  have hshared {b : Bank} {c : Call Instruction}
      (hc : c∈[initializeCall 1#8,lockCall 1#64,mintCall 51#256 7#64 100#64,lockCall 2#64])
      (hsmall : ((stateAt sampleNet .values b 8#256).elim 0#64 (·.nonce)).toNat≤1) :
      SharedOut sampleNet .values (·=7#64) b c := by
    simp only [mem_cons,not_mem_nil,or_false] at hc
    refine ⟨fun m amount sender recipient token hi => ?_,fun ks st hsends hkey hstate => ?_⟩
    · obtain rfl | rfl | rfl | rfl := hc <;> cases hi
      rfl
    · obtain rfl : 8#256=ks := by
        obtain rfl | rfl | rfl | rfl := hc <;> cases hsends <;> exact Option.some.inj hkey
      rw [hstate,Option.elim_some] at hsmall
      refine ⟨fun heq => ?_,by omega⟩
      have hvalues := congrArg BitVec.toNat heq
      simp only [BitVec.toNat_add,BitVec.toNat_ofNat] at hvalues
      omega
  have hrun : Run ((program sampleNet .values).Step (SharedOut sampleNet .values (·=7#64)))
      sampleStart tr t := by
    refine history_run hhistory fun x hx c hc => ?_
    obtain ⟨d,hd,hlabel⟩ := history_calls hhistory x hx
    obtain rfl := Action.call.inj (hc.symm.trans hlabel)
    exact hshared (mem_append_left [lockCall 2#64] hd) (hlow x hx)
  obtain ⟨b₁,_,-,-,hfirst,rfl⟩ := history_cons hhistory
  obtain ⟨b₂,_,-,-,-,rfl⟩ := history_cons hfirst
  obtain ⟨hnone,hready⟩ := directions_apart Formats.values_decoded sampleNet_spl sampleHost_separate
    sampleStart_untouched hrun (sample_left_alone hhistory)
  have hnext : st.counted.nonce=2#64 := by
    rw [SolanaBridgeState.counted,hnonce]
    rfl
  have hlock := lockCall_ready hst hinit hcan
  obtain ⟨b',hexec⟩ := hready _ st _ _ _ _ _ _ _ _ _ hlock
    (hshared (by simp [hnext]) (by rw [hst,Option.elim_some,hnonce]; decide))
  rw [hnext] at hexec
  have hsent : SentIn sampleNet 1#64 ⟨⟨b₁,(initializeCall 1#8).clock⟩,.call (lockCall 1#64),
      ⟨b₂,(lockCall 1#64).clock⟩⟩ := ⟨_,rfl,rfl,rfl⟩
  exact ⟨_,t,st,b',hrun,⟨_,by simp,hsent⟩,hmint,hnone 1#64 _ (by simp) hsent,hst,hnonce,hexec⟩

/-- A guardian mints for a transfer that left, and a guardian takes the next nonce away from a user
who could otherwise lock. -/
theorem directions_collide :
    (∃ tr t,Run ((program sampleNet .values).Step anyCall) sampleStart tr t ∧
      RecordsLeftAlone sampleNet sampleStart tr ∧ (∃ x∈tr,SentIn sampleNet 1#64 x) ∧
      ∃ y∈tr,mintedIn 1#64 y=100) ∧
    ∃ tr t c st index user userToken second bridgeState record amount r space,
      Run ((program sampleNet .values).Step anyCall) sampleStart tr t ∧
      RecordsLeftAlone sampleNet sampleStart tr ∧ st.nonce=0#64 ∧
      Ready sampleNet .values t.bank c st index user userToken second bridgeState record
        amount r space ∧
      (program sampleNet .values).execute c t.bank=.error (.custom 0) := by
  constructor
  · obtain ⟨⟨tr,t⟩,hhistory,hminted⟩ : ∃ x,(program sampleNet .values).history
        [initializeCall 1#8,lockCall 1#64,mintCall 51#256 1#64 100#64] sampleStart=some x ∧
        ∃ y∈x.1,mintedIn 1#64 y=100 := by decide +kernel
    have halone := sample_left_alone hhistory
    have hrun := history_anyCall hhistory
    obtain ⟨_,_,-,-,hfirst,rfl⟩ := history_cons hhistory
    obtain ⟨_,_,-,-,-,rfl⟩ := history_cons hfirst
    exact ⟨_,t,hrun,halone,⟨_,mem_cons_of_mem _ mem_cons_self,_,rfl,rfl,rfl⟩,hminted⟩
  · obtain ⟨⟨tr,t⟩,hhistory,st,hst,hnonce,hinit,hcan,hfails⟩ :
        ∃ x,(program sampleNet .values).history [initializeCall 2#8,mintCall 51#256 1#64 100#64]
          sampleStart=some x ∧
        ∃ st,stateAt sampleNet .values x.2.bank 8#256=some st ∧ st.nonce=0#64 ∧
        st.isInitialized=true ∧ canLock x.2.bank=true ∧
        (program sampleNet .values).execute (lockCall 1#64) x.2.bank=.error (.custom 0) := by
      decide +kernel
    have hnext : st.counted.nonce=1#64 := by
      rw [SolanaBridgeState.counted,hnonce]
      rfl
    refine ⟨tr,t,_,st,_,_,_,_,_,_,_,_,_,history_anyCall hhistory,sample_left_alone hhistory,hnonce,
      lockCall_ready hst hinit hcan,?_⟩
    rw [hnext]
    exact hfails

end PrismChain.SolanaBridge
