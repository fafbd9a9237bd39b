import PrismChain.Framework.TokenProgram
import PrismChain.Programs.BitcoinBridge.Transition

namespace PrismChain.BitcoinBridge

open Option Function List BitVec Program

def mintedIn (mint : Pubkey) (x : LogEntry Instruction) : Nat :=
  match x.label with
  | .outside => 0
  | .call c =>
    match c.instruction,c.key? 3,c.key? 4 with
    | .confirmDeposit _ _,some m,some dst =>
      if m=mint then tokenAmount x.post.bank dst-tokenAmount x.pre.bank dst else 0
    | _,_,_ => 0

def burnedIn (mint : Pubkey) (x : LogEntry Instruction) : Nat :=
  match x.label with
  | .outside => 0
  | .call c =>
    match c.instruction,c.key? 2,c.key? 1 with
    | .requestWithdrawal _ _ _,some m,some src =>
      if m=mint then tokenAmount x.pre.bank src-tokenAmount x.post.bank src else 0
    | _,_,_ => 0

def OwnMint (e : Deployment) (fm : Formats) (b : Bank) (c : Call Instruction) : Prop :=
  ∀ ks st,stateAt e fm b ks=some st →
    (∀ btcTxid vout,c.instruction=.confirmDeposit btcTxid vout → c.key? 1=some ks →
      c.key? 3=some st.scbtcMint ∧ ∀ k p,c.key? 2=some k → proofAt e fm b k=some p →
        st.totalLockedSats.toNat+p.amountSats.toNat<2^64) ∧
    ∀ amountSats destination len,c.instruction=.requestWithdrawal amountSats destination len →
      c.key? 3=some ks → c.key? 2=some st.scbtcMint

def withdrawn (e : Deployment) (fm : Formats) (b : Bank) : Nat :=
  Aggregate.sumOver (fun w : WithdrawalRequest => w.amountSats.toNat) (withdrawalAt e fm b)

section Steps

variable {e : Deployment} {c : Call Instruction} {s t : Ledger}

theorem mintedIn_other (hc : ∀ btcTxid vout,c.instruction≠.confirmDeposit btcTxid vout) :
    mintedIn m ⟨s,.call c,t⟩=0 := by
  unfold mintedIn
  dsimp only
  split
  case h_1 hi _ _ => exact absurd hi (hc _ _)
  case h_2 => rfl

theorem burnedIn_other
    (hc : ∀ amountSats destination len,
    c.instruction≠.requestWithdrawal amountSats destination len) :
    burnedIn m ⟨s,.call c,t⟩=0 := by
  unfold burnedIn
  dsimp only
  split
  case h_1 hi _ _ => exact absurd hi (hc _ _ _)
  case h_2 => rfl

theorem mintedIn_confirmed (u : Confirmed e fm c s.bank t.bank ks k mint dst st p) :
    mintedIn m ⟨s,.call c,t⟩=if mint=m then p.amountSats.toNat else 0 := by
  obtain ⟨_,_,hi⟩ := u.instruction
  obtain ⟨_,hminted,htokens⟩ := u.tokens
  have hamount : tokenAmount t.bank dst=tokenAmount s.bank dst+p.amountSats.toNat := by
    rw [tokenAmount_congr (htokens dst),hminted.amounts dst,if_pos rfl]
  simp only [mintedIn,hi,u.mintKey,u.dstKey,hamount,Nat.add_sub_cancel_left]

theorem burnedIn_requested (u : Requested e fm c s.bank t.bank ks k src mint amountSats st w) :
    burnedIn m ⟨s,.call c,t⟩=if mint=m then amountSats.toNat else 0 := by
  obtain ⟨_,_,hi⟩ := u.instruction
  obtain ⟨_,hburned,htokens⟩ := u.tokens
  have hamount := hburned.amounts src
  rw [if_pos rfl,← tokenAmount_congr (htokens src)] at hamount
  simp only [burnedIn,hi,u.mintKey,u.srcKey,← hamount,Nat.add_sub_cancel_left]

end Steps

/-- What is minted is backed: it is counted as locked, less what was burned. -/
structure Balanced (e : Deployment) (fm : Formats) (tr : Trace Instruction) (b : Bank) : Prop where
  own : ∀ k st,stateAt e fm b k=some st →
    k=(statePda e).1 ∧ st.scbtcMint=(mintPda e).1 ∧
    st.totalLockedSats.toNat+total (burnedIn (mintPda e).1) tr=
      total (mintedIn (mintPda e).1) tr
  unopened : stateAt e fm b (statePda e).1=none →
    total (burnedIn (mintPda e).1) tr=total (mintedIn (mintPda e).1) tr
  supply : tokenSupply splToken (mintPda e).1 b+total (burnedIn (mintPda e).1) tr≤
    total (mintedIn (mintPda e).1) tr
  withdrawals : withdrawn e fm b=total (burnedIn (mintPda e).1) tr

section Balance

variable {e : Deployment} {fm : Formats} {s t : Ledger}

theorem Balanced.kept (h : Balanced e fm tr s.bank) {a : Action Instruction}
    (hminted : mintedIn (mintPda e).1 ⟨s,a,t⟩=0)
    (hburned : burnedIn (mintPda e).1 ⟨s,a,t⟩=0)
    (hstates : stateAt e fm t.bank=stateAt e fm s.bank)
    (hwithdrawals : withdrawn e fm t.bank=withdrawn e fm s.bank)
    (hsupply : tokenSupply splToken (mintPda e).1 t.bank≤
      tokenSupply splToken (mintPda e).1 s.bank) : Balanced e fm (tr++[⟨s,a,t⟩]) t.bank := by
  constructor
  · rw [hstates,total_append_one,total_append_one,hminted,hburned]
    exact h.own
  · rw [hstates,total_append_one,total_append_one,hminted,hburned]
    exact h.unopened
  · rw [total_append_one,total_append_one,hminted,hburned]
    have hbefore := h.supply
    omega
  · rw [total_append_one,hburned,hwithdrawals]
    exact h.withdrawals

/-- The state is written again: what is locked moves with what is minted and burned. -/
theorem Balanced.updated (h : Balanced e fm tr s.bank) {a : Action Instruction}
    {st st' : BtcBridgeState} (hst : stateAt e fm s.bank ks=some st)
    (hstates : stateAt e fm t.bank=Function.update (stateAt e fm s.bank) ks (some st'))
    (hkept : st'.scbtcMint=st.scbtcMint)
    (hlocked : st'.totalLockedSats.toNat+burnedIn (mintPda e).1 ⟨s,a,t⟩=
      st.totalLockedSats.toNat+mintedIn (mintPda e).1 ⟨s,a,t⟩)
    (hsupply : tokenSupply splToken (mintPda e).1 t.bank+burnedIn (mintPda e).1 ⟨s,a,t⟩=
      tokenSupply splToken (mintPda e).1 s.bank+mintedIn (mintPda e).1 ⟨s,a,t⟩)
    (hwithdrawals : withdrawn e fm t.bank=
      withdrawn e fm s.bank+burnedIn (mintPda e).1 ⟨s,a,t⟩) :
    Balanced e fm (tr++[⟨s,a,t⟩]) t.bank := by
  obtain ⟨hplace,hscbtc,hbefore⟩ := h.own ks st hst
  have hbound := h.supply
  constructor
  · rw [hstates,total_append_one,total_append_one]
    intro k' st'' hst'
    obtain ⟨rfl,rfl⟩ | ⟨hk,hst'⟩ := update_eq_some.mp hst'
    · exact ⟨hplace,hkept.trans hscbtc,by omega⟩
    · exact absurd ((h.own k' st'' hst').1.trans hplace.symm) hk
  · rw [hstates,← hplace,update_self]
    nofun
  · rw [total_append_one,total_append_one]
    omega
  · rw [total_append_one,hwithdrawals,h.withdrawals]

theorem debited_total {st : BtcBridgeState} {amountSats : U64}
    (hle : amountSats.toNat≤ st.totalLockedSats.toNat) :
    (st.debited amountSats).totalLockedSats.toNat+amountSats.toNat=st.totalLockedSats.toNat := by
  have hlt := st.totalLockedSats.isLt
  simp only [BtcBridgeState.debited,toNat_ofNat]
  rw [Nat.mod_eq_of_lt (by omega)]
  omega

theorem credited_total {st : BtcBridgeState} {amountSats : U64}
    (hlt : st.totalLockedSats.toNat+amountSats.toNat<2^64) :
    (st.credited amountSats).totalLockedSats.toNat=st.totalLockedSats.toNat+amountSats.toNat := by
  simp only [BtcBridgeState.credited,toNat_add]
  exact Nat.mod_eq_of_lt hlt

theorem Balanced.enough (h : Balanced e fm tr s.bank) (hok : OwnMint e fm s.bank c)
    (u : Requested e fm c s.bank t.bank ks k src mint amountSats st w) :
    mint=(mintPda e).1 ∧ amountSats.toNat≤ st.totalLockedSats.toNat := by
  obtain ⟨destination,len,hi⟩ := u.instruction
  obtain ⟨-,hscbtc,_⟩ := h.own ks st u.state
  have hmint : mint=(mintPda e).1 := by
    have hkey := (hok ks st u.state).2 amountSats destination len hi u.stateKey
    rw [← hscbtc]
    exact some.inj (u.mintKey.symm.trans hkey)
  obtain ⟨_,hburned,-⟩ := u.tokens
  have hle := hburned.le_supply
  have hsupply := h.supply
  rw [hmint] at hle
  exact ⟨hmint,by omega⟩

theorem Balanced.initialized (h : Balanced e fm tr s.bank)
    (u : Initialized e fm c s.bank t.bank k st) : Balanced e fm (tr++[⟨s,.call c,t⟩]) t.bank := by
  obtain ⟨_,_,_,hi⟩ := u.instruction
  have hminted : mintedIn (mintPda e).1 ⟨s,.call c,t⟩=0 := mintedIn_other (by simp [hi])
  have hburned : burnedIn (mintPda e).1 ⟨s,.call c,t⟩=0 := burnedIn_other (by simp [hi])
  have hequal := h.unopened (by rw [← u.place]; exact u.fresh)
  constructor
  · rw [u.states,total_append_one,total_append_one,hminted,hburned]
    intro k' st' hst'
    obtain ⟨rfl,rfl⟩ | ⟨-,hst'⟩ := update_eq_some.mp hst'
    · refine ⟨u.place,u.made.2,?_⟩
      rw [u.made.1,hequal]
      exact Nat.zero_add _
    · exact h.own k' st' hst'
  · intro _
    rw [total_append_one,total_append_one,hminted,hburned,hequal]
  · rw [total_append_one,total_append_one,hminted,hburned,tokenSupply_congr u.tokens]
    exact h.supply
  · rw [total_append_one,hburned,withdrawn,u.withdrawals]
    exact h.withdrawals

theorem Balanced.confirmed (h : Balanced e fm tr s.bank) (hok : OwnMint e fm s.bank c)
    (u : Confirmed e fm c s.bank t.bank ks k mint dst st p) :
    Balanced e fm (tr++[⟨s,.call c,t⟩]) t.bank := by
  obtain ⟨btcTxid,vout,hi⟩ := u.instruction
  obtain ⟨b1,hminting,htokens⟩ := u.tokens
  have hburned : burnedIn (mintPda e).1 ⟨s,.call c,t⟩=0 := burnedIn_other (by simp [hi])
  have hminted := mintedIn_confirmed (m := (mintPda e).1) u
  have hsupply := (tokenSupply_congr htokens).trans (hminting.supply (mintPda e).1)
  have hwithdrawals : withdrawn e fm t.bank=withdrawn e fm s.bank := by
    rw [withdrawn,u.withdrawals]
    rfl
  obtain ⟨hstate,hstates⟩ | ⟨hzero,hstates⟩ := u.states
  · obtain ⟨hkey,hroom⟩ := (hok ks st hstate).1 btcTxid vout hi u.stateKey
    have hmint : mint=(mintPda e).1 := by
      rw [← (h.own ks st hstate).2.1]
      exact some.inj (u.mintKey.symm.trans hkey)
    have hcredited := credited_total (hroom k p u.proofKey u.proof)
    rw [if_pos hmint] at hminted hsupply
    exact h.updated hstate hstates rfl (by omega) (by omega) (by omega)
  · have hnone : p.amountSats.toNat=0 := by
      rw [hzero]
      rfl
    rw [hnone,ite_self] at hminted hsupply
    rw [Nat.add_zero] at hsupply
    exact h.kept hminted hburned hstates hwithdrawals hsupply.le

theorem Balanced.requested (h : Balanced e fm tr s.bank) (hok : OwnMint e fm s.bank c)
    (u : Requested e fm c s.bank t.bank ks k src mint amountSats st w) :
    Balanced e fm (tr++[⟨s,.call c,t⟩]) t.bank := by
  obtain ⟨_,_,hi⟩ := u.instruction
  obtain ⟨hmint,henough⟩ := h.enough hok u
  obtain ⟨b1,hburning,htokens⟩ := u.tokens
  have hminted : mintedIn (mintPda e).1 ⟨s,.call c,t⟩=0 := mintedIn_other (by simp [hi])
  have hburned := burnedIn_requested (m := (mintPda e).1) u
  have hsupply := hburning.supply (mintPda e).1
  have hdebited := debited_total henough
  rw [if_pos hmint] at hburned hsupply
  rw [← tokenSupply_congr htokens] at hsupply
  have hsum := Aggregate.sumOver_add (g := fun w : WithdrawalRequest => w.amountSats.toNat)
    (a := w) u.fresh
  refine h.updated u.state u.states rfl (by omega) (by omega) ?_
  rw [hburned,withdrawn,u.withdrawals,hsum,u.made]
  rfl

theorem Balanced.signed (h : Balanced e fm tr s.bank) (u : Signed e fm c s.bank t.bank k w w') :
    Balanced e fm (tr++[⟨s,.call c,t⟩]) t.bank := by
  obtain ⟨_,btcTxid,hi⟩ := u.instruction
  have hsum : Aggregate.sumOver (fun w : WithdrawalRequest => w.amountSats.toNat)
        (update (withdrawalAt e fm s.bank) k (some w'))+w.amountSats.toNat=
      withdrawn e fm s.bank+w'.amountSats.toNat := Aggregate.sumOver_update u.withdrawal
  rw [u.kept] at hsum
  refine h.kept (mintedIn_other (by simp [hi])) (burnedIn_other (by simp [hi])) u.states ?_
    (tokenSupply_congr u.tokens).le
  rw [withdrawn,u.withdrawals]
  exact Nat.add_right_cancel hsum

theorem balanced_call (hfm : fm.Decoded) (hspl : e.SplToken) (hok : OwnMint e fm s.bank c)
    (hexec : (program e fm).execute c s.bank=.ok t.bank) (h : Balanced e fm tr s.bank) :
    Balanced e fm (tr++[⟨s,.call c,t⟩]) t.bank := by
  cases execute_spec hfm hspl hexec with
  | initialized u => exact h.initialized u
  | attested u =>
    obtain ⟨_,_,_,_,_,hi⟩ := u.instruction
    exact h.kept (mintedIn_other (by simp [hi])) (burnedIn_other (by simp [hi])) u.states
      (by rw [withdrawn,u.withdrawals]; rfl) (tokenSupply_congr u.tokens).le
  | confirmed u => exact h.confirmed hok u
  | requested u => exact h.requested hok u
  | signed u => exact h.signed u

theorem balanced_run (hfm : fm.Decoded) (hspl : e.SplToken) (h0 : Untouched e.programId s.bank)
    (hnone : tokenSupply splToken (mintPda e).1 s.bank=0)
    (hrun : Run ((program e fm).Step (OwnMint e fm)) s tr t)
    (houtside : ∀ x∈tr,x.label=.outside → tokenSupply splToken (mintPda e).1 x.post.bank≤
      tokenSupply splToken (mintPda e).1 x.pre.bank) : Balanced e fm tr t.bank := by
  refine hrun.traced (I := fun tr t => (∀ x∈tr,x.label=.outside →
      tokenSupply splToken (mintPda e).1 x.post.bank≤
        tokenSupply splToken (mintPda e).1 x.pre.bank) →
    Balanced e fm tr t.bank) ?_ ?_ houtside
  · intro _
    refine ⟨fun k st hst => ?_,fun _ => rfl,?_,?_⟩
    · rw [stateAt,h0.cells hfm.state] at hst
      cases hst
    · rw [hnone]
      exact le_rfl
    · exact Aggregate.sumOver_empty (h0.cells hfm.withdrawal)
  · intro tr t a u _ hi hstep hall
    have hbefore := hi fun x hx => hall x (mem_append_left _ hx)
    have hlast := hall ⟨t,a,u⟩ (mem_append_right _ mem_cons_self)
    cases hstep with
    | @call c b hclock hok hexec =>
        exact balanced_call (t := ⟨b,c.clock⟩) hfm hspl hok hexec hbefore
    | @outside b clock hclock hout =>
      have hwithdrawals :
        withdrawalAt e fm b=withdrawalAt e fm t.bank := hout.cells_eq hfm.withdrawal
      exact hbefore.kept rfl rfl (hout.cells_eq hfm.state)
        (by rw [withdrawn,hwithdrawals]; rfl) (hlast rfl)

end Balance

/-- While deposits and withdrawals are made with the mint of the bridge, what it counts as locked is
what was minted less what was burned, and withdrawals ask for no more than that. -/
theorem scbtc_backed {e : Deployment} {fm : Formats} (hfm : fm.Decoded) (hspl : e.SplToken)
    {start t : Ledger} {tr : Trace Instruction} (h0 : Untouched e.programId start.bank)
    (hnone : tokenSupply splToken (mintPda e).1 start.bank=0)
    (hrun : Run ((program e fm).Step (OwnMint e fm)) start tr t)
    (houtside : ∀ x∈tr,x.label=.outside → tokenSupply splToken (mintPda e).1 x.post.bank≤
      tokenSupply splToken (mintPda e).1 x.pre.bank) :
    (∀ k st,stateAt e fm t.bank k=some st → st.scbtcMint=(mintPda e).1 ∧
      total (burnedIn st.scbtcMint) tr≤total (mintedIn st.scbtcMint) tr ∧
      st.totalLockedSats.toNat=total (mintedIn st.scbtcMint) tr-total (burnedIn st.scbtcMint) tr) ∧
    (∀ x∈tr,∀ c amountSats destination len ks st,x.label=.call c →
      c.instruction=.requestWithdrawal amountSats destination len → c.key? 3=some ks →
      stateAt e fm x.pre.bank ks=some st → amountSats.toNat≤ st.totalLockedSats.toNat) ∧
    withdrawn e fm t.bank≤total (mintedIn (mintPda e).1) tr := by
  have hbalanced := balanced_run hfm hspl h0 hnone hrun houtside
  refine ⟨fun k st hst => ?_,?_,?_⟩
  · obtain ⟨-,hscbtc,_⟩ := hbalanced.own k st hst
    rw [hscbtc]
    exact ⟨rfl,by omega,by omega⟩
  · rintro ⟨pre,label,post⟩ hx c amountSats destination len ks st rfl hi hkey hstate
    obtain ⟨_,_,rfl⟩ := append_of_mem hx
    obtain ⟨hfirst,hstep,-⟩ := hrun.cut
    have hbefore := balanced_run hfm hspl h0 hnone hfirst fun x hx =>
      houtside x (mem_append_left _ hx)
    cases hstep with
    | @call c b _ hok hexec =>
      obtain ⟨_,k,_,_,_,w,u⟩ := (execute_spec hfm hspl hexec).requested_of hi
      cases u.stateKey.symm.trans hkey
      cases u.state.symm.trans hstate
      exact (hbefore.enough (t := ⟨b,c.clock⟩) hok u).2
  · rw [hbalanced.withdrawals]
    have hsupply := hbalanced.supply
    omega

def sampleHost : Host where
  programId := 100#256
  findProgramAddress seeds _ :=
    match seeds with
    | [x] => (if x=stateSeed then 8#256 else if x=mintSeed then 9#256 else 10#256,255#8)
    | [_,y] => (BitVec.ofNat 256 (1000+leValue y),255#8)
    | _ => (7#256,255#8)
  minimumBalance _ := 1000#64
  clockSysvar := 4#256

def sampleNet : Deployment := sampleHost.withTokens (by decide)

theorem sampleNet_spl : sampleNet.SplToken := Host.withTokens_spl sampleHost (by decide)

def sampleBank : Bank := fun k =>
  if k=80#256 ∨ k=50#256 ∨ k=51#256 ∨ k=52#256 then ⟨10000#64,[],systemProgram⟩
  else if k=9#256 ∨ k=91#256 ∨ k=92#256 then ⟨1000#64,TokenProgram.packMint 10#256,splToken⟩
  else if k=60#256 then ⟨1000#64,TokenAccount.pack ⟨91#256,50#256,0#64⟩,splToken⟩
  else if k=61#256 then ⟨1000#64,TokenAccount.pack ⟨9#256,50#256,0#64⟩,splToken⟩
  else if k=62#256 then ⟨1000#64,TokenAccount.pack ⟨92#256,50#256,50000#64⟩,splToken⟩
  else unused

def sampleStart : Ledger := ⟨sampleBank,⟨0#64,0#64⟩⟩

theorem sampleStart_untouched : Untouched sampleNet.programId sampleStart.bank := by
  intro k howner
  change (sampleBank k).owner=100#256 at howner
  unfold sampleBank at howner
  split_ifs at howner <;> cases howner

theorem sampleStart_supply :
    tokenSupply splToken (mintPda sampleNet).1 sampleStart.bank=0 := by
  refine Aggregate.sumOver_zero fun k a ha => ?_
  obtain ⟨-,hread,hmint⟩ := tokenAt_eq_some.mp ha
  have hempty : TokenAccount.unpack []≠.ok a := by
    intro h
    cases h
  have hmintData : TokenAccount.unpack (TokenProgram.packMint 10#256)≠.ok a := by
    intro h
    have hlength := (tokenIn_length (b := fun _ => ⟨0#64,_,splToken⟩) (k := 0#256)
      (tokenIn_eq_some.mpr ⟨rfl,h⟩))
    cases hlength
  have hown (x : TokenAccount) (hx : TokenAccount.unpack (TokenAccount.pack x)=.ok x)
      (h : TokenAccount.unpack (TokenAccount.pack x)=.ok a) : x=a :=
    Except.ok.inj (hx.symm.trans h)
  change TokenAccount.unpack (sampleBank k).data=.ok a at hread
  unfold sampleBank at hread
  split_ifs at hread
  · exact absurd hread hempty
  · exact absurd hread hmintData
  · rw [← hown _ (by decide +kernel) hread]
    rfl
  · rw [← hown _ (by decide +kernel) hread]
    rfl
  · rw [← hown _ (by decide +kernel) hread] at hmint
    cases hmint
  · exact absurd hread hempty

def initializeCall (attestors : Vec Pubkey) : Call Instruction :=
  ⟨⟨1#64,1#64⟩,[⟨80#256,true,true⟩,⟨8#256,false,true⟩,⟨9#256,false,false⟩,⟨splToken,false,false⟩,
    systemInfo,⟨0#256,false,false⟩],
    .initializeBridge (Vec.single 5#272) attestors 1#8⟩

def submitCall (attestor : Pubkey) (amountSats : U64) : Call Instruction :=
  ⟨⟨1#64,1#64⟩,
    [⟨attestor,true,true⟩,⟨8#256,false,true⟩,⟨7#256,false,true⟩,systemInfo],
    .submitDepositProof 3#256 0#32 amountSats 50#256 6#32⟩

def confirmCall (mint dst : Pubkey) : Call Instruction :=
  ⟨⟨1#64,1#64⟩,[⟨50#256,true,true⟩,⟨8#256,false,true⟩,⟨7#256,false,true⟩,⟨mint,false,true⟩,
    ⟨dst,false,true⟩,⟨10#256,false,false⟩,⟨splToken,false,false⟩],.confirmDeposit 3#256 0#32⟩

def requestCall (mint src : Pubkey) : Call Instruction :=
  ⟨⟨1#64,1#64⟩,[⟨50#256,true,true⟩,⟨src,false,true⟩,⟨mint,false,true⟩,⟨8#256,false,true⟩,
    ⟨1001#256,false,true⟩,⟨splToken,false,false⟩,systemInfo],
    .requestWithdrawal 20000#64 0#496 0#8⟩

theorem sample_inside (h : (program sampleNet .values).history cs sampleStart=some (tr,t)) :
    ∀ x∈tr,x.label≠.outside := by
  intro x hx hlabel
  obtain ⟨c,-,hcall⟩ := history_calls h x hx
  rw [hcall] at hlabel
  cases hlabel

def sampleSound (b : Bank) : Bool :=
  (stateAt sampleNet .values b 8#256).all (fun st =>
    decide (st.scbtcMint=9#256 ∧ st.totalLockedSats.toNat≤30000)) &&
  (proofAt sampleNet .values b 7#256).all fun p => decide (p.amountSats.toNat≤30000)

theorem sampleSound_own (h : sampleSound b=true)
    (hc : c∈[initializeCall (Vec.single 51#256),submitCall 51#256 30000#64,
      confirmCall 9#256 61#256,requestCall 9#256 61#256]) : OwnMint sampleNet .values b c := by
  obtain ⟨hstates,hproofs⟩ := Bool.and_eq_true_iff.mp h
  simp only [mem_cons,not_mem_nil,or_false] at hc
  intro ks st hst
  have hsound (hks : 8#256=ks) : st.scbtcMint=9#256 ∧ st.totalLockedSats.toNat≤30000 := by
    rw [← hks] at hst
    rw [hst] at hstates
    exact of_decide_eq_true hstates
  refine ⟨fun btcTxid vout hi hkey => ?_,fun amountSats destination len hi hkey => ?_⟩
  · obtain rfl | rfl | rfl | rfl := hc <;> cases hi
    obtain ⟨hmint,_⟩ := hsound (some.inj hkey)
    refine ⟨by rw [hmint]; rfl,fun k p hk hp => ?_⟩
    have hamount : p.amountSats.toNat≤30000 := by
      rw [← some.inj (show some 7#256=some k from hk)] at hp
      rw [hp] at hproofs
      exact of_decide_eq_true hproofs
    omega
  · obtain rfl | rfl | rfl | rfl := hc <;> cases hi
    rw [(hsound (some.inj hkey)).1]
    rfl

theorem deposit_and_withdrawal_backed : ∃ tr t st,
    Run ((program sampleNet .values).Step (OwnMint sampleNet .values)) sampleStart tr t ∧
    stateAt sampleNet .values t.bank 8#256=some st ∧ st.totalLockedSats=10000#64 ∧
    total (mintedIn 9#256) tr=30000 ∧ total (burnedIn 9#256) tr=20000 ∧
    withdrawn sampleNet .values t.bank≤total (mintedIn (mintPda sampleNet).1) tr := by
  obtain ⟨⟨tr,t⟩,hhistory,st,hst,hlocked,hminted,hburned,hsound⟩ : ∃ x,(program sampleNet
        .values).history [initializeCall (Vec.single 51#256), submitCall 51#256 30000#64,confirmCall
        9#256 61#256,requestCall 9#256 61#256] sampleStart=some x ∧
      ∃ st,stateAt sampleNet .values x.2.bank 8#256=some st ∧ st.totalLockedSats=10000#64 ∧
      total (mintedIn 9#256) x.1=30000 ∧ total (burnedIn 9#256) x.1=20000 ∧
      (x.1.all fun y => sampleSound y.pre.bank)=true := by decide +kernel
  have hrun :
      Run ((program sampleNet .values).Step (OwnMint sampleNet .values)) sampleStart tr t := by
    refine history_run hhistory fun x hx c hc => ?_
    obtain ⟨d,hd,hlabel⟩ := history_calls hhistory x hx
    rw [hlabel] at hc
    cases hc
    exact sampleSound_own (all_eq_true.mp hsound x hx) hd
  exact ⟨tr,t,st,hrun,hst,hlocked,hminted,hburned,(scbtc_backed Formats.values_decoded sampleNet_spl
    sampleStart_untouched sampleStart_supply hrun fun x hx hlabel =>
      absurd hlabel (sample_inside hhistory x hx)).2.2⟩

/-- Tokens of a worthless mint are burned for a withdrawal of 20000, although nothing is locked, and
a deposit of 30000 is minted in another mint: no scBTC was minted at all. -/
theorem worthless_mint_withdrawn : ∃ tr t st x c st₀,
    Run ((program sampleNet .values).Step anyCall) sampleStart tr t ∧
    (∀ y∈tr,y.label≠.outside) ∧ stateAt sampleNet .values t.bank 8#256=some st ∧
    st.totalLockedSats=30000#64 ∧ total (mintedIn 9#256) tr=0 ∧ total (burnedIn 9#256) tr=0 ∧
    (x∈tr ∧ x.label=.call c ∧ c.instruction=.requestWithdrawal 20000#64 0#496 0#8 ∧
      c.key? 3=some 8#256 ∧ stateAt sampleNet .values x.pre.bank 8#256=some st₀ ∧
      st₀.totalLockedSats=0#64) ∧
    20000≤withdrawn sampleNet .values t.bank := by
  obtain ⟨⟨tr,t⟩,hhistory,st,hst,w,hw,hlocked,hminted,hburned,hamount,hbefore⟩ :
      ∃ x,(program sampleNet .values).history [initializeCall (Vec.single 51#256), requestCall
        92#256 62#256,submitCall 51#256 30000#64,confirmCall 91#256 60#256] sampleStart=some x ∧
      ∃ st,stateAt sampleNet .values x.2.bank 8#256=some st ∧
      ∃ w,withdrawalAt sampleNet .values x.2.bank 1001#256=some w ∧ st.totalLockedSats=30000#64 ∧
      total (mintedIn 9#256) x.1=0 ∧ total (burnedIn 9#256) x.1=0 ∧ w.amountSats=20000#64 ∧
      (x.1[1]?.bind fun y => (stateAt sampleNet .values y.pre.bank 8#256).map
        BtcBridgeState.totalLockedSats)=some 0#64 := by decide +kernel
  have hinside := sample_inside hhistory
  have hrun := history_anyCall hhistory
  have hsum : w.amountSats.toNat≤withdrawn sampleNet .values t.bank :=
    Aggregate.le_sumOver (g := fun w : WithdrawalRequest => w.amountSats.toNat) hw
  rw [hamount] at hsum
  obtain ⟨_,_,-,-,hfirst,rfl⟩ := history_cons hhistory
  obtain ⟨_,_,-,-,-,rfl⟩ := history_cons hfirst
  obtain ⟨y,hy,hbefore⟩ := bind_eq_some_iff.mp hbefore
  obtain ⟨st₀,hst₀,hzero⟩ := map_eq_some_iff.mp hbefore
  cases hy
  exact ⟨_,t,st,_,_,st₀,hrun,hinside,hst,hlocked,hminted,hburned,⟨mem_cons_of_mem _
    mem_cons_self,rfl,rfl,rfl,hst₀,hzero⟩,hsum⟩

end PrismChain.BitcoinBridge
