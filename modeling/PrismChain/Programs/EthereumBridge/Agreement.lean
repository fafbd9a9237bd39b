import PrismChain.Framework.TokenProgram
import PrismChain.Programs.EthereumBridge.Transition

namespace PrismChain.EthereumBridge

open Option List Function Program

def BridgeTransaction.Says (r : BridgeTransaction) (nonce amount : U64) (recipient : Pubkey)
    (token : BitVec 256) : Prop :=
  r.nonce=nonce ∧ r.amount=amount ∧ r.recipient=recipient ∧ r.token=token

def Submitted (tr : Trace Instruction) (g : Pubkey) (r : BridgeTransaction) : Prop :=
  ∃ x∈tr,∃ c sender,x.label=.call c ∧ c.signer? 0=some g ∧
    c.instruction=.submitVaa r.nonce r.amount sender r.recipient r.token

section Councils

variable (e : Deployment) (fm : Formats)

/-- Guardians sign under the bridge state at its address, and add to a transaction that says what
they say; tokens are minted to an account of the recipient. -/
def Honest (b : Bank) (c : Call Instruction) : Prop :=
  (∀ nonce amount sender recipient token,
    c.instruction=.submitVaa nonce amount sender recipient token →
    c.key? 1=some (statePda e).1 ∧ stateAt e fm b (statePda e).1≠none ∧
    ∀ k r,c.key? 2=some k → txAt e fm b k=some r → r.front≠0#8 →
      r.Says nonce amount recipient token) ∧
  ∀ nonce k dst r,c.instruction=.completeTransfer nonce → c.key? 2=some k → c.key? 4=some dst →
    txAt e fm b k=some r → ∃ a,tokenIn b dst=some a ∧ a.owner=r.recipient

/-- Each signature is a guardian's who submitted this transaction. -/
structure Agreed (tr : Trace Instruction) (council : Vec Pubkey×U8) (r : BridgeTransaction) :
    Prop where
  distinct : r.signatures.val.Nodup
  signed : ∀ g∈r.signatures.val,g∈council.1.val ∧ Submitted tr g r
  enough : r.status=.confirmed → council.2.toNat≤ r.signatures.val.length

def councilAt (b : Bank) : Option (Vec Pubkey×U8) :=
  (stateAt e fm b (statePda e).1).map BridgeState.council

def AllAgreed (tr : Trace Instruction) (b : Bank) : Prop :=
  ∀ k r,txAt e fm b k=some r → r.status=.pending ∧ r.signatures.val=[] ∨
    ∃ council,councilAt e fm b=some council ∧ Agreed tr council r

end Councils

section Steps

variable {e : Deployment} {fm : Formats} {s : Ledger} {x : LogEntry Instruction}
  {council : Vec Pubkey×U8} {r : BridgeTransaction}

theorem Submitted.later (h : Submitted tr g r) : Submitted (tr++[x]) g r := by
  obtain ⟨y,hy,hall⟩ := h
  exact ⟨y,mem_append_left _ hy,hall⟩

theorem Agreed.later (h : Agreed tr council r) : Agreed (tr++[x]) council r :=
  ⟨h.distinct,fun g hg => ⟨(h.signed g hg).1,(h.signed g hg).2.later⟩,h.enough⟩

theorem Agreed.completed (h : Agreed tr council r) :
    Agreed tr council {r with status := .completed} :=
  ⟨h.distinct,h.signed,nofun⟩

theorem Agreed.attested {g : Pubkey} {signatures : Vec Pubkey} (h : Agreed tr council r)
    (hmember : g∈council.1.val) (hvaa : Submitted tr g r) (hnew : g∉r.signatures.val)
    (hsigned : signatures.val=r.signatures.val++[g]) :
    Agreed tr council (r.attested signatures council.2) := by
  refine ⟨?_,fun g' hg' => ?_,fun hconfirmed => ?_⟩
  · change signatures.val.Nodup
    rw [hsigned]
    exact h.distinct.append (nodup_singleton g) (by simpa using hnew)
  · change g'∈signatures.val at hg'
    rw [hsigned,mem_append,mem_singleton] at hg'
    cases hg' with
    | inl hold => exact h.signed g' hold
    | inr heq =>
      subst heq
      exact ⟨hmember,hvaa⟩
  · change council.2.toNat≤ signatures.val.length
    by_cases hle : council.2.toNat≤ signatures.val.length
    · exact hle
    have hbefore : r.status=.confirmed := by
      simpa only [BridgeTransaction.attested,if_neg hle] using hconfirmed
    have hlength := h.enough hbefore
    rw [hsigned,length_append]
    omega

theorem Agreed.fresh (hstatus : r.status=.pending) (hnone : r.signatures.val=[]) :
    Agreed tr council r := by
  refine ⟨by rw [hnone]; exact nodup_nil,fun g hg => ?_,fun hconfirmed => ?_⟩
  · rw [hnone] at hg
    cases hg
  · rw [hstatus] at hconfirmed
    cases hconfirmed

theorem Accepted.councilAt (h : Accepted e fm c b b') (hb : councilAt e fm b=some council) :
    councilAt e fm b'=some council := by
  obtain ⟨st,hst,rfl⟩ := map_eq_some_iff.mp hb
  obtain ⟨st',hst',hsame,-⟩ := h.council.1 _ st hst
  exact map_eq_some_iff.mpr ⟨st',hst',hsame⟩

theorem AllAgreed.update (h : AllAgreed e fm tr b)
    (hcouncil : ∀ council,councilAt e fm b=some council → councilAt e fm b'=some council)
    (htxs : txAt e fm b'=update (txAt e fm b) k (some r))
    (hr : r.status=.pending ∧ r.signatures.val=[] ∨
      ∃ council,councilAt e fm b'=some council ∧ Agreed (tr++[x]) council r) :
    AllAgreed e fm (tr++[x]) b' := by
  intro j q hq
  rw [htxs] at hq
  obtain ⟨rfl,rfl⟩ | ⟨-,hq⟩ := update_eq_some.mp hq
  · exact hr
  · refine (h j q hq).imp_right ?_
    rintro ⟨council,hc,hagreed⟩
    exact ⟨council,hcouncil council hc,hagreed.later⟩

theorem AllAgreed.same (h : AllAgreed e fm tr b)
    (hcouncil : ∀ council,councilAt e fm b=some council → councilAt e fm b'=some council)
    (htxs : txAt e fm b'=txAt e fm b) : AllAgreed e fm (tr++[x]) b' := by
  intro j q hq
  rw [htxs] at hq
  refine (h j q hq).imp_right ?_
  rintro ⟨council,hc,hagreed⟩
  exact ⟨council,hcouncil council hc,hagreed.later⟩

theorem Attested.agreed {amount : U64} {recipient : Pubkey}
    (u : Attested e fm c b b' ks k g nonce amount recipient token st r r') (h : AllAgreed e fm tr b)
    (hok : Honest e fm b c) (hx : x.label=.call c) :
    ∃ council,councilAt e fm b=some council ∧ Agreed (tr++[x]) council r' := by
  obtain ⟨sender,hi⟩ := u.instruction
  obtain ⟨hkey,hnone,hsame⟩ := hok.1 nonce amount sender recipient token hi
  obtain ⟨_,hst'⟩ := ne_none_iff_exists'.mp hnone
  cases u.stateKey.symm.trans hkey
  cases u.state.symm.trans (cellAt_eq_some.mp hst').2
  have hcouncil : councilAt e fm b=some st.council := map_eq_some_iff.mpr ⟨st,hst',rfl⟩
  -- the record is one the guardians agree on, and it says what this guardian says
  have hopened : Agreed (tr++[x]) st.council r ∧ r.Says nonce amount recipient token := by
    obtain ⟨hfound,hfront⟩ | ⟨_,hr⟩ := u.opened
    · refine ⟨?_,hsame k r u.txKey hfound hfront⟩
      obtain ⟨hstatus,hempty⟩ | ⟨council,hc,hagreed⟩ := h k r hfound
      · exact .fresh hstatus hempty
      · cases hcouncil.symm.trans hc
        exact hagreed.later
    · rw [hr]
      exact ⟨.fresh rfl rfl,rfl,rfl,rfl,rfl⟩
  obtain ⟨hagreed,rfl,rfl,rfl,rfl⟩ := hopened
  refine ⟨st.council,hcouncil,?_⟩
  rw [u.attested]
  refine hagreed.attested u.member ⟨x,?_,c,sender,hx,u.signer,hi⟩ u.unsigned u.signed
  exact mem_append_right _ mem_cons_self

theorem agreed_step (hfm : fm.Decoded) (hspl : e.SplToken) (hall : AllInitialized e fm s.bank)
    (hstep : (program e fm).Step (Honest e fm) s a t) (h : AllAgreed e fm tr s.bank) :
    AllAgreed e fm (tr++[⟨s,a,t⟩]) t.bank := by
  cases hstep with
  | @outside b clock hclock hout =>
    have hstates : stateAt e fm b=stateAt e fm s.bank := hout.cells_eq hfm.state
    refine h.same (fun council hc => ?_) (hout.cells_eq hfm.tx)
    rw [councilAt,hstates]
    exact hc
  | @call c b hclock hok hexec =>
    have haccepted := execute_spec hfm hspl hall hexec
    have hcouncil (council : Vec Pubkey×U8) (hc : councilAt e fm s.bank=some council) :
        councilAt e fm b=some council := haccepted.councilAt hc
    cases haccepted with
    | initialized u => exact h.same hcouncil u.txs
    | registered u => exact h.same hcouncil u.txs
    | sentOut u => exact h.update hcouncil u.txs (.inl u.made)
    | attested u =>
      obtain htxs | ⟨-,htxs⟩ := u.txs
      · obtain ⟨council,hc,hagreed⟩ := u.agreed (x := ⟨s,.call c,⟨b,c.clock⟩⟩) h hok rfl
        exact h.update hcouncil htxs (.inr ⟨council,hcouncil council hc,hagreed⟩)
      · exact h.same hcouncil htxs
    | @completed _ k _ _ _ r u =>
      refine h.update hcouncil u.txs (.inr ?_)
      obtain ⟨hpending,-⟩ | ⟨council,hc,hagreed⟩ := h k r u.tx
      · rw [u.confirmed] at hpending
        cases hpending
      · exact ⟨council,hcouncil council hc,hagreed.completed.later⟩

end Steps

theorem agreed_run {e : Deployment} {fm : Formats} (hfm : fm.Decoded) (hspl : e.SplToken)
    {start : Ledger} (h0 : Untouched e.programId start.bank)
    (hrun : Run ((program e fm).Step (Honest e fm)) start tr t) : AllAgreed e fm tr t.bank := by
  refine hrun.traced (I := fun tr t => AllAgreed e fm tr t.bank) ?_ ?_
  · intro k r hr
    rw [txAt,h0.cells hfm.tx] at hr
    cases hr
  · intro tr t a u hbefore h hstep
    exact agreed_step hfm hspl (initialized_run hfm hspl h0 hbefore) hstep h

/-- While guardians sign and transfers are completed honestly, what an accepted CompleteTransfer
mints is the amount of its record, which enough guardians of the bridge have submitted, and the
recipient they have named gets it. -/
theorem minted_by_agreement {e : Deployment} {fm : Formats} (hfm : fm.Decoded) (hspl : e.SplToken)
    {start t : Ledger} {tr₁ tr₂ : Trace Instruction} {x : LogEntry Instruction}
    {c : Call Instruction} {nonce : U64} (h0 : Untouched e.programId start.bank)
    (hrun : Run ((program e fm).Step (Honest e fm)) start (tr₁++x::tr₂) t)
    (hx : x.label=.call c) (hi : c.instruction=.completeTransfer nonce) :
    ∃ k r st mint dst,∃ signers : List Pubkey,
      (c.key? 2=some k ∧ txAt e fm x.pre.bank k=some r ∧ r.nonce=nonce) ∧
      (c.key? 3=some mint ∧ c.key? 4=some dst ∧ ∀ j,tokenAmount x.post.bank j=
        tokenAmount x.pre.bank j+if j=dst then r.amount.toNat else 0) ∧
      stateAt e fm x.pre.bank (statePda e).1=some st ∧
      st.guardianThreshold.toNat≤ signers.length ∧ signers.Nodup ∧
      (∀ g∈signers,g∈st.guardians.val ∧ Submitted tr₁ g r) ∧
      ∃ a,tokenIn x.pre.bank dst=some a ∧ a.mint=mint ∧ a.owner=r.recipient := by
  obtain ⟨pre,label,_⟩ := x
  obtain rfl : label=.call c := hx
  obtain ⟨hfirst,hstep,-⟩ := hrun.cut
  have hagreed := agreed_run hfm hspl h0 hfirst
  cases hstep with
  | @call c b' _ hok hexec =>
    have hall := initialized_run hfm hspl h0 hfirst
    obtain ⟨_,k,mint,dst,_,r,u⟩ := (execute_spec hfm hspl hall hexec).completed_of hi
    obtain ⟨b₁,hminted,htokens⟩ := u.tokens
    have hamounts (j : Pubkey) : tokenAmount b' j=
        tokenAmount pre.bank j+if j=dst then r.amount.toNat else 0 := by
      rw [tokenAmount,htokens j]
      exact hminted.amounts j
    have hnonce : r.nonce=nonce := by
      have heq := u.instruction.symm.trans hi
      cases heq
      rfl
    obtain ⟨a,ha,howner⟩ := hok.2 nonce k dst r hi u.txKey u.dstKey u.tx
    obtain ⟨_,ha',hmint⟩ := hminted.account
    cases ha.symm.trans ha'
    obtain ⟨hpending,-⟩ | ⟨_,hc,hr⟩ := hagreed k r u.tx
    · rw [u.confirmed] at hpending
      cases hpending
    · obtain ⟨st,hst,rfl⟩ := map_eq_some_iff.mp hc
      exact ⟨k,r,st,mint,dst,r.signatures.val,⟨u.txKey,u.tx,hnonce⟩,⟨u.mintKey,u.dstKey,hamounts⟩,
        hst,hr.enough u.confirmed,hr.distinct,hr.signed,a,ha,hmint,howner⟩

def sampleHost : Host where
  programId := 100#256
  findProgramAddress seeds _ :=
    match seeds with
    | [x] => (if x=stateSeed then 8#256 else 10#256,255#8)
    | [_,y] => (BitVec.ofNat 256 (1000+leValue y),255#8)
    | _ => (6#256,255#8)
  minimumBalance _ := 1000#64
  clockSysvar := 4#256

def sampleNet : Deployment := sampleHost.withTokens (by decide)

theorem sampleNet_spl : sampleNet.SplToken := Host.withTokens_spl sampleHost (by decide)

def sampleBank : Bank := fun k =>
  if k=80#256 then ⟨10000#64,[],systemProgram⟩
  else if k=7#256 then ⟨1000#64,[0#8],100#256⟩
  else if k=9#256 then ⟨1000#64,TokenProgram.packMint 10#256,splToken⟩
  else if k=60#256 then ⟨1000#64,TokenAccount.pack ⟨9#256,50#256,0#64⟩,splToken⟩
  else if k=61#256 then ⟨1000#64,TokenAccount.pack ⟨9#256,66#256,0#64⟩,splToken⟩
  else unused

def sampleStart : Ledger := ⟨sampleBank,⟨0#64,0#64⟩⟩

theorem sampleStart_untouched : Untouched sampleNet.programId sampleStart.bank := by
  intro k howner
  change (sampleBank k).owner=100#256 at howner
  change ∀ x∈(sampleBank k).data,x=0#8
  unfold sampleBank at howner ⊢
  by_cases hk : k=7#256
  · subst hk
    simp
  · split_ifs at howner <;> cases howner

def sampleGuardians : Vec Pubkey := ⟨[51#256,52#256,53#256],by decide⟩

def initializeCall (threshold : U8) : Call Instruction :=
  ⟨⟨1#64,1#64⟩,[⟨80#256,true,true⟩,⟨8#256,false,true⟩,systemInfo],
    .initializeBridge 0#160 sampleGuardians threshold⟩

def vaaCall (guardian : Pubkey) (amount : U64) (recipient : Pubkey) : Call Instruction :=
  ⟨⟨1#64,1#64⟩,[⟨guardian,true,false⟩,⟨8#256,false,false⟩,⟨7#256,false,true⟩],
    .submitVaa 1#64 amount 0#160 recipient 3#256⟩

def completeCall (dst : Pubkey) : Call Instruction :=
  ⟨⟨1#64,1#64⟩,[⟨50#256,true,true⟩,⟨8#256,false,true⟩,⟨7#256,false,true⟩,⟨9#256,false,true⟩,
    ⟨dst,false,true⟩,⟨10#256,false,false⟩,⟨splToken,false,false⟩],.completeTransfer 1#64⟩

def sampleHonest (b : Bank) (c : Call Instruction) : Bool :=
  match c.instruction with
  | .submitVaa nonce amount _ recipient token =>
    decide (c.key? 1=some 8#256 ∧ c.key? 2=some 7#256) &&
      (stateAt sampleNet .values b 8#256).isSome &&
    (txAt sampleNet .values b 7#256).all fun r =>
      decide (r.nonce=nonce ∧ r.amount=amount ∧ r.recipient=recipient ∧ r.token=token)
  | .completeTransfer _ =>
    decide (c.key? 2=some 7#256 ∧ c.key? 4=some 60#256) &&
    (txAt sampleNet .values b 7#256).all (fun r => decide (r.recipient=50#256)) &&
    (tokenIn b 60#256).any fun a => decide (a.owner=50#256)
  | _ => true

theorem sampleHonest_sound (h : sampleHonest b c=true) : Honest sampleNet .values b c := by
  unfold sampleHonest at h
  refine ⟨fun nonce amount sender recipient token hi => ?_,fun nonce k dst r hi hk hdst hr => ?_⟩
  · rw [hi] at h
    simp only [Bool.and_eq_true,decide_eq_true_eq] at h
    obtain ⟨⟨⟨hstate,htx⟩,hsome⟩,hvaa⟩ := h
    refine ⟨hstate,isSome_iff_ne_none.mp hsome,fun k r hk hr _ => ?_⟩
    cases htx.symm.trans hk
    rw [hr] at hvaa
    have hall := of_decide_eq_true hvaa
    exact hall
  · rw [hi] at h
    simp only [Bool.and_eq_true,decide_eq_true_eq] at h
    obtain ⟨⟨⟨htx,hto⟩,hrecipient⟩,howner⟩ := h
    cases htx.symm.trans hk
    cases hto.symm.trans hdst
    rw [hr] at hrecipient
    cases ha : tokenIn b 60#256 with
    | none =>
      rw [ha] at howner
      cases howner
    | some a =>
      rw [ha] at howner
      exact ⟨a,rfl,(of_decide_eq_true howner).trans (of_decide_eq_true hrecipient).symm⟩

def sampleHonestly (tr : Trace Instruction) : Bool :=
  tr.all fun x => match x.label with
    | .call c => sampleHonest x.pre.bank c
    | .outside => true

theorem sampleHonestly_run
    (hhistory : (program sampleNet .values).history cs sampleStart=some (tr,t))
    (h : sampleHonestly tr=true) :
    Run ((program sampleNet .values).Step (Honest sampleNet .values)) sampleStart tr t := by
  refine history_run hhistory fun x hx c hc => sampleHonest_sound ?_
  have hone := all_eq_true.mp h x hx
  rw [hc] at hone
  exact hone

theorem two_guardians_agree : ∃ tr₁ x t r,
    Run ((program sampleNet .values).Step (Honest sampleNet .values)) sampleStart (tr₁++[x]) t ∧
    x.label=.call (completeCall 60#256) ∧ txAt sampleNet .values x.pre.bank 7#256=some r ∧
    r.nonce=1#64 ∧ tokenAmount x.pre.bank 60#256=0 ∧ tokenAmount x.post.bank 60#256=100 ∧
    r.amount.toNat=100 ∧ ∃ signers : List Pubkey,2≤ signers.length ∧ signers.Nodup ∧
      ∀ g∈signers,Submitted tr₁ g r := by
  obtain ⟨⟨_,t⟩,hhistory,hamount,hhonest,hlast⟩ : ∃ x,(program sampleNet .values).history
        ([initializeCall 2#8,vaaCall 51#256 100#64 50#256,vaaCall 52#256 100#64 50#256]++
        [completeCall 60#256]) sampleStart=some x ∧ tokenAmount x.2.bank 60#256=100 ∧
      sampleHonestly x.1=true ∧ (x.1.all fun y => decide (tokenAmount y.pre.bank 60#256=0) &&
        (stateAt sampleNet .values y.pre.bank 8#256).all
          fun st => decide (st.guardianThreshold=2#8))=true := by decide +kernel
  have hrun := sampleHonestly_run hhistory hhonest
  obtain ⟨tr₁,u,_,-,hrest,rfl⟩ := history_append hhistory
  obtain ⟨b,_,-,-,hend,rfl⟩ := history_cons hrest
  cases hend
  obtain ⟨k,r,st,_,dst,signers,⟨hk,hr,hnonce⟩,⟨-,hdst,hminted⟩,hst,henough,hdistinct,hsigned,-⟩ :=
    minted_by_agreement (c := completeCall 60#256) Formats.values_decoded sampleNet_spl
      sampleStart_untouched hrun rfl rfl
  obtain rfl : 7#256=k := some.inj hk
  obtain rfl : 60#256=dst := some.inj hdst
  have hlast := all_eq_true.mp hlast _ (mem_append_right _ mem_cons_self)
  rw [Bool.and_eq_true,decide_eq_true_eq] at hlast
  obtain ⟨hbefore,hthreshold⟩ := hlast
  have htwo : st.guardianThreshold=2#8 := by
    change stateAt sampleNet .values u.bank 8#256=some st at hst
    rw [hst] at hthreshold
    exact of_decide_eq_true hthreshold
  rw [htwo] at henough
  have hsum := hminted 60#256
  rw [if_pos rfl,hbefore,Nat.zero_add] at hsum
  exact ⟨tr₁,_,_,r,hrun,rfl,hr,hnonce,hbefore,hamount,hsum.symm.trans hamount,signers,henough,
    hdistinct,fun g hg => (hsigned g hg).2⟩

/-- Two signatures are asked for. The second guardian speaks of one token for 52, and still 100
tokens are minted, to a stranger. -/
theorem one_guardian_is_enough : ∃ tr₁ x t r st,
    Run ((program sampleNet .values).Step anyCall) sampleStart (tr₁++[x]) t ∧
    x.label=.call (completeCall 61#256) ∧ txAt sampleNet .values x.pre.bank 7#256=some r ∧
    tokenAmount t.bank 61#256=tokenAmount x.pre.bank 61#256+r.amount.toNat ∧
    stateAt sampleNet .values x.pre.bank 8#256=some st ∧ st.guardianThreshold=2#8 ∧
    (∀ g,Submitted tr₁ g r → g=51#256) ∧ r.recipient=50#256 ∧
    (tokenIn x.pre.bank 61#256).map TokenAccount.owner=some 66#256 := by
  obtain ⟨⟨_,t⟩,hhistory,y,hy,r,hr,hamount,hrecipient,st,hst,hthreshold,hafter,howner⟩ :
      ∃ x,(program sampleNet .values).history ([initializeCall 2#8,vaaCall 51#256 100#64 50#256,
        vaaCall 52#256 1#64 52#256]++[completeCall 61#256]) sampleStart=some x ∧
      ∃ y,x.1[3]?=some y ∧ ∃ r,txAt sampleNet .values y.pre.bank 7#256=some r ∧
      r.amount=100#64 ∧ r.recipient=50#256 ∧
      ∃ st,stateAt sampleNet .values y.pre.bank 8#256=some st ∧ st.guardianThreshold=2#8 ∧
      tokenAmount x.2.bank 61#256=tokenAmount y.pre.bank 61#256+r.amount.toNat ∧
      (tokenIn y.pre.bank 61#256).map TokenAccount.owner=some 66#256 := by decide +kernel
  have hrun := history_anyCall hhistory
  obtain ⟨tr₁,u,_,hfirst,hlast,rfl⟩ := history_append hhistory
  have hlength : tr₁.length=3 := by
    obtain ⟨_,_,-,-,h₁,rfl⟩ := history_cons hfirst
    obtain ⟨_,_,-,-,h₂,rfl⟩ := history_cons h₁
    obtain ⟨_,_,-,-,h₃,rfl⟩ := history_cons h₂
    cases h₃
    rfl
  obtain ⟨b,_,-,-,hend,rfl⟩ := history_cons hlast
  cases hend
  rw [getElem?_append_right (by omega),hlength] at hy
  cases hy
  refine ⟨tr₁,_,_,r,st,hrun,rfl,hr,hafter,hst,hthreshold,?_,hrecipient,howner⟩
  rintro g ⟨z,hz,c,_,hlabel,hsigner,hi⟩
  obtain ⟨d,hd,hcall⟩ := history_calls hfirst z hz
  obtain rfl := Action.call.inj (hcall.symm.trans hlabel)
  rw [hamount] at hi
  simp only [mem_cons,not_mem_nil,or_false] at hd
  obtain rfl | rfl | rfl := hd
  · cases hi
  · exact (some.inj hsigner).symm
  · simp [vaaCall] at hi

end PrismChain.EthereumBridge
