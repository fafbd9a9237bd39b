import PrismChain.Framework.TokenProgram
import PrismChain.Programs.SolanaBridge.Transition

namespace PrismChain.SolanaBridge

open Option Function List BitVec Program

structure Separate (h : Host) : Prop where
  numbered : ∀ {n m},(recordPda h n).1=(recordPda h m).1 → n=m
  recordState : ∀ n,(recordPda h n).1≠(statePda h).1

def mintedIn (n : U64) (x : LogEntry Instruction) : Nat :=
  match x.label with
  | .outside => 0
  | .call c =>
    match c.instruction,c.key? 4 with
    | .mintToken nonce _ _ _ _,some dst =>
      if nonce=n then tokenAmount x.post.bank dst-tokenAmount x.pre.bank dst else 0
    | _,_ => 0

/-- Who signs a transfer that is there repeats its amount, and nobody signs a completed one. -/
def Repeats (e : Deployment) (fm : Formats) (n : U64) (b : Bank) (c : Call Instruction) : Prop :=
  ∀ amount sender recipient m,c.instruction=.mintToken n amount sender recipient m →
    ∀ r,recordAt e fm b (recordPda e n).1=some r → r.status≠.completed ∧ amount=r.amount

def completedAmount (e : Deployment) (fm : Formats) (n : U64) (b : Bank) : Nat :=
  (recordAt e fm b (recordPda e n).1).elim 0 fun r =>
    if r.status=.completed then r.amount.toNat else 0

section Steps

variable {e : Deployment} {fm : Formats} {c : Call Instruction} {s t : Ledger} {n : U64}

theorem mintedIn_other (hc : ∀ nonce amount sender recipient m,
    c.instruction≠.mintToken nonce amount sender recipient m) : mintedIn n ⟨s,.call c,t⟩=0 := by
  unfold mintedIn
  dsimp only
  split
  case h_1 hi _ => exact absurd hi (hc _ _ _ _ _)
  case h_2 => rfl

theorem mintedIn_attested (u : Attested e fm c s.bank t.bank ks k guardian nonce amount st r r') :
    mintedIn n ⟨s,.call c,t⟩=if nonce=n then if r'.status=.completed then amount.toNat else
      0 else 0 := by
  obtain ⟨_,_,m,hi⟩ := u.instruction
  unfold mintedIn
  dsimp only
  cases u.settled with
  | @minted dst _ hstatus hdst hamounts _ hstates =>
    rw [hi,hdst,hstatus]
    simp only [if_true,hamounts dst,Nat.add_sub_cancel_left]
  | waiting _ hstatus hamounts hstates =>
    have hnot : ¬(TransferStatus.attested=.completed) := TransferStatus.noConfusion
    rw [hi,hstatus,if_neg hnot,ite_self]
    cases c.key? 4 with
    | none => rfl
    | some dst => simp only [hamounts dst,Nat.sub_self,ite_self]

theorem completed_step (hfm : fm.Decoded) (hspl : e.SplToken) (hsep : Separate e)
    (h : (program e fm).Step (Repeats e fm n) s a t) :
    completedAmount e fm n t.bank=completedAmount e fm n s.bank+mintedIn n ⟨s,a,t⟩ := by
  cases h with
  | @outside b clock hclock hout =>
    have hrecords : recordAt e fm b=recordAt e fm s.bank := hout.cells_eq hfm.record
    unfold completedAmount
    rw [hrecords]
    rfl
  | @call c b hclock hok hexec =>
    cases execute_spec hfm hspl hexec with
    | initialized u =>
      obtain ⟨_,_,_,_,hi⟩ := u.instruction
      rw [mintedIn_other (by simp [hi])]
      unfold completedAmount
      rw [u.records,Nat.add_zero]
    | @sentOut ks k st r u =>
      have hsends := u.instruction
      rw [mintedIn_other (by intro _ _ _ _ _ hi; simp [hi,Instruction.sends] at hsends)]
      unfold completedAmount
      rw [u.records,Nat.add_zero]
      by_cases hk : (recordPda e n).1=k
      · rw [hk,update_self,u.fresh]
        exact if_neg u.made.2.2
      · rw [update_of_ne hk]
    | @attested ks k _ nonce amount st r r' u =>
      rw [mintedIn_attested (t := ⟨b,c.clock⟩) u]
      unfold completedAmount
      rw [u.records]
      by_cases hn : nonce=n
      · subst hn
        obtain ⟨sender,recipient,m,hi⟩ := u.instruction
        rw [if_pos rfl,← u.place,update_self]
        -- nothing was minted before, and the record names the amount that now is
        have hbefore : (recordAt e fm s.bank k).elim 0 (fun r =>
            if r.status=.completed then r.amount.toNat else 0)=0 ∧ r.amount=amount := by
          obtain hr | ⟨hnone,_,_,_,hr⟩ := u.opened
          · have hrepeats := hok amount sender recipient m hi r (by rw [← u.place]; exact hr)
            rw [hr]
            exact ⟨if_neg hrepeats.1,hrepeats.2.symm⟩
          · rw [hnone,hr]
            exact ⟨rfl,rfl⟩
        have hamount : r'.amount=amount := by
          rw [u.kept]
          exact hbefore.2
        rw [hbefore.1,Nat.zero_add,elim_some,hamount]
      · have hk : (recordPda e n).1≠k := by
          intro heq
          exact hn (hsep.numbered (heq.trans u.place)).symm
        rw [if_neg hn,update_of_ne hk,Nat.add_zero]

end Steps

theorem completed_run {e : Deployment} {fm : Formats} {start : Ledger} (hfm : fm.Decoded)
    (hspl : e.SplToken) (hsep : Separate e) (h0 : Untouched e.programId start.bank)
    (hrun : Run ((program e fm).Step (Repeats e fm n)) start tr t) :
    total (mintedIn n) tr=completedAmount e fm n t.bank := by
  refine hrun.traced (I := fun tr t => total (mintedIn n) tr=completedAmount e fm n t.bank) ?_ ?_
  · unfold completedAmount recordAt
    rw [h0.cells hfm.record]
    rfl
  · intro tr t a u _ hi hstep
    rw [total_append_one,hi,completed_step hfm hspl hsep hstep]

/-- What is minted for a nonce is nothing or the amount of its record. -/
theorem minted_once {e : Deployment} {fm : Formats} (hfm : fm.Decoded) (hspl : e.SplToken)
    (hsep : Separate e) {start t : Ledger} {tr : Trace Instruction} (n : U64)
    (h0 : Untouched e.programId start.bank)
    (hrun : Run ((program e fm).Step (Repeats e fm n)) start tr t) :
    total (mintedIn n) tr=0 ∨ ∃ r,recordAt e fm t.bank (recordPda e n).1=some r ∧
      total (mintedIn n) tr=r.amount.toNat := by
  rw [completed_run hfm hspl hsep h0 hrun]
  unfold completedAmount
  cases hr : recordAt e fm t.bank (recordPda e n).1 with
  | none => exact .inl rfl
  | some r =>
    by_cases hstatus : r.status=.completed
    · exact .inr ⟨r,rfl,if_pos hstatus⟩
    · exact .inl (if_neg hstatus)

def sampleHost : Host where
  programId := 100#256
  findProgramAddress seeds _ :=
    match seeds with
    | [x,y] => (BitVec.ofNat 256 (1000+leValue y),BitVec.ofNat 8 x.length)
    | [x] => (if x=bridgeStateSeed then 8#256 else 9#256,255#8)
    | _ => (0#256,0#8)
  minimumBalance _ := 1000#64
  clockSysvar := 4#256

def sampleNet : Deployment := sampleHost.withTokens (by decide)

theorem sampleNet_spl : sampleNet.SplToken := Host.withTokens_spl sampleHost (by decide)

theorem sampleRecord (n : U64) : (recordPda sampleHost n).1.toNat=1000+n.toNat := by
  have hn := n.isLt
  simp only [recordPda,sampleHost,leValue_leBytes,toNat_ofNat]
  omega

theorem sampleHost_separate : Separate sampleHost where
  numbered := by
    intro n m heq
    have hvalues := congrArg BitVec.toNat heq
    rw [sampleRecord,sampleRecord] at hvalues
    exact eq_of_toNat_eq (by omega)
  recordState n heq := by
    have hvalues := congrArg BitVec.toNat heq
    rw [sampleRecord,show (statePda sampleHost).1.toNat=8 from rfl] at hvalues
    omega

def sampleBank : Bank := fun k =>
  if k=80#256 ∨ k=50#256 ∨ k=51#256 ∨ k=52#256 then ⟨10000#64,[],systemProgram⟩
  else if k=60#256 then ⟨1000#64,TokenAccount.pack ⟨90#256,50#256,500#64⟩,splToken⟩
  else if k=61#256 then ⟨1000#64,TokenAccount.pack ⟨90#256,53#256,0#64⟩,splToken⟩
  else if k=62#256 then ⟨1000#64,TokenAccount.pack ⟨90#256,54#256,0#64⟩,splToken⟩
  else if k=90#256 then ⟨1000#64,TokenProgram.packMint 9#256,splToken⟩
  else unused

def sampleStart : Ledger := ⟨sampleBank,⟨0#64,0#64⟩⟩

theorem sampleStart_untouched : Untouched sampleNet.programId sampleStart.bank := by
  intro k howner
  change (sampleBank k).owner=100#256 at howner
  unfold sampleBank at howner
  split_ifs at howner <;> cases howner

def initializeCall (threshold : U8) : Call Instruction :=
  ⟨⟨1#64,1#64⟩,[⟨80#256,true,true⟩,⟨8#256,false,true⟩,systemInfo],
    .initializeBridge 0#1024 0#8 ⟨[51#256,52#256],by decide⟩ threshold⟩

def mintCall (guardian : Pubkey) (n amount : U64) : Call Instruction :=
  ⟨⟨2#64,2#64⟩,[⟨guardian,true,true⟩,⟨8#256,false,true⟩,⟨(recordPda sampleHost n).1,false,true⟩,
    ⟨90#256,false,true⟩,⟨61#256,false,true⟩,⟨9#256,false,false⟩,⟨splToken,false,false⟩,
    systemInfo],.mintToken n amount 7#256 53#256 6#256⟩

theorem two_guardians_mint_once : ∃ tr t r,
    Run ((program sampleNet .values).Step (Repeats sampleNet .values 1#64)) sampleStart tr t ∧
    recordAt sampleNet .values t.bank (recordPda sampleHost 1#64).1=some r ∧
    total (mintedIn 1#64) tr=100 ∧ (total (mintedIn 1#64) tr=0 ∨ ∃ r,
      recordAt sampleNet .values t.bank (recordPda sampleNet 1#64).1=some r ∧
      total (mintedIn 1#64) tr=r.amount.toNat) := by
  obtain ⟨⟨tr,t⟩,hhistory,r,hr,htotal,hpre⟩ : ∃ x,(program sampleNet .values).history
        [initializeCall 2#8,mintCall 51#256 1#64 100#64,mintCall 52#256 1#64 100#64]
        sampleStart=some x ∧
      ∃ r,recordAt sampleNet .values x.2.bank (recordPda sampleHost 1#64).1=some r ∧
      total (mintedIn 1#64) x.1=100 ∧
      ∀ y∈x.1,(recordAt sampleNet .values y.pre.bank (recordPda sampleHost 1#64).1).all fun r =>
        r.status≠.completed ∧ r.amount=100#64 := by decide +kernel
  have hrun : Run ((program sampleNet .values).Step (Repeats sampleNet .values 1#64)) sampleStart
      tr t := by
    refine history_run hhistory ?_
    intro x hx c hc amount sender recipient m hi r₁ hr₁
    have hone := hpre x hx
    rw [show recordAt sampleNet .values x.pre.bank (recordPda sampleHost 1#64).1=some r₁ from hr₁]
      at hone
    obtain ⟨hstatus,hamount⟩ := of_decide_eq_true hone
    obtain ⟨d,hd,hlabel⟩ := history_calls hhistory x hx
    obtain rfl := Action.call.inj (hc.symm.trans hlabel)
    simp only [mem_cons,not_mem_nil,or_false] at hd
    refine ⟨hstatus,?_⟩
    rw [hamount]
    obtain rfl | rfl | rfl := hd <;> cases hi <;> rfl
  exact ⟨tr,t,r,hrun,hr,htotal,minted_once Formats.values_decoded sampleNet_spl sampleHost_separate
    1#64 sampleStart_untouched hrun⟩

/-- Where one signature is enough, the second guardian mints the amount once more. -/
theorem second_guardian_mints_again : ∃ tr t r,
    Run ((program sampleNet .values).Step anyCall) sampleStart tr t ∧
    recordAt sampleNet .values t.bank (recordPda sampleNet 1#64).1=some r ∧
    r.amount=100#64 ∧ total (mintedIn 1#64) tr=200 := by
  simp only [exists_and_left]
  exact exists_run_any [initializeCall 1#8,mintCall 51#256 1#64 100#64,mintCall 52#256 1#64 100#64]
    (by decide +kernel)

end PrismChain.SolanaBridge
