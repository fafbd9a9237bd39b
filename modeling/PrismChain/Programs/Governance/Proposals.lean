import PrismChain.Programs.Governance.Transition

namespace PrismChain.Governance

open List BitVec Program

structure Separate (h : Host) : Prop where
  numbered : ∀ i j,(proposalPda h i).1=(proposalPda h j).1 → i=j
  proposalGovernance : ∀ i,(proposalPda h i).1≠(governancePda h).1
  proposalVote : ∀ i j v,(proposalPda h i).1≠(voteRecordPda h j v).1
  proposalDelegation : ∀ i d,(proposalPda h i).1≠(delegationPda h d).1
  voteGovernance : ∀ i v,(voteRecordPda h i v).1≠(governancePda h).1
  voteDelegation : ∀ i v d,(voteRecordPda h i v).1≠(delegationPda h d).1
  governanceDelegation : ∀ d,(governancePda h).1≠(delegationPda h d).1

def Plain (fm : Formats) (k : Pubkey) (b : Bank) : Prop :=
  fm.governance.load (b k).data=none ∧ fm.delegation.load (b k).data=none

instance (fm : Formats) (k : Pubkey) (b : Bank) : Decidable (Plain fm k b) :=
  inferInstanceAs (Decidable (_ ∧ _))

def Instruction.creates : Instruction → Bool
  | .createProposal _ _ _ => true
  | _ => false

def Creates (c : Call Instruction) (k : Pubkey) : Prop :=
  c.instruction.creates=true ∧ c.key? 1=some k

instance (c : Call Instruction) (k : Pubkey) : Decidable (Creates c k) :=
  inferInstanceAs (Decidable (_ ∧ _))

/-- The proposal at `k` is not made anew, and nobody can take it for something else. -/
def Undisturbed (fm : Formats) (k : Pubkey) (tr : Trace Instruction) : Prop :=
  ∀ x∈tr,Plain fm k x.pre.bank ∧ ∀ c,x.label=.call c → ¬Creates c k

inductive Moves (x : LogEntry Instruction) (k : Pubkey) (p : Proposal) :
    Proposal → Prop
  | call {c : Call Instruction} {p' : Proposal} (hlabel : x.label=.call c)
      (hclock : x.post.clock=c.clock) (hn : Next c k p p') : Moves x k p p'
  | outside (hlabel : x.label=.outside) : Moves x k p p

section Steps

variable {kg : Pubkey} {gov : GovernanceState} {count : U64} {p : Proposal}

theorem Created.creates (u : Created h fm c b b' kg k gov count p) : Creates c k := by
  obtain ⟨_,_,_,hi⟩ := u.instruction
  exact ⟨by rw [hi]; rfl,u.proposalKey⟩

theorem Accepted.side_clear (u : Accepted h fm c b b') (hsep : Separate h)
    (hk : k=(proposalPda h i).1)
    (hplain : Plain fm k b) (hside : sideKey? c=some k) : proposalKey? c=some k := by
  have hgov {x} (hx : fm.governance.load (b k).data=some x) : False := by
    rw [hplain.1] at hx
    cases hx
  cases u with
  | initialized u =>
    cases hside.symm.trans u.side
    exact absurd (hk.symm.trans u.place) (hsep.proposalGovernance i)
  | created u =>
    cases hside.symm.trans u.proposalKey?.2
    exact (hgov u.governance).elim
  | voted u =>
    cases hside.symm.trans u.proposalKey?.2
    exact absurd (hk.symm.trans u.place) (hsep.proposalVote i _ _)
  | moved u => cases hside.symm.trans u.noSide
  | delegated u =>
    cases hside.symm.trans u.side
    obtain ⟨d,hplace⟩ | ⟨_,hd0⟩ := u.place
    · exact absurd (hk.symm.trans hplace) (hsep.proposalDelegation i d)
    · cases hplain.2.symm.trans hd0
  | supplied u =>
    cases hside.symm.trans u.side
    exact (hgov u.governance).elim
  | idle _ hone => exact hone ▸ hside

theorem Accepted.created_of_creates (u : Accepted h fm c b b') (hc : Creates c k)
    (howner : (b k).owner=h.programId) : ∃ kg gov count p,Created h fm c b b' kg k gov count p := by
  obtain ⟨hi,hkey⟩ := hc
  have hinstruction : ∃ d t e,c.instruction=.createProposal d t e := by
    cases hcase : c.instruction <;> simp [hcase,Instruction.creates] at hi ⊢
  obtain ⟨d,t,e,hi⟩ := hinstruction
  have hprop : proposalKey? c=some k := by simp [proposalKey?,hi,hkey]
  cases u with
  | initialized u => cases hprop.symm.trans u.noProposal
  | created u =>
    cases hkey.symm.trans u.proposalKey
    exact ⟨_,_,_,_,u⟩
  | voted u => cases hi.symm.trans u.instruction
  | moved u => exact absurd (hi ▸ u.kind) (by simp [Instruction.moves])
  | delegated u => cases hprop.symm.trans u.noProposal
  | supplied u => cases hprop.symm.trans u.noProposal
  | idle hforeign => exact absurd howner (hforeign k hprop)

end Steps

theorem undisturbed_history {P : Program Instruction} (hhistory : P.history cs s=some (tr,t))
    (hcs : ∀ c∈cs,¬Creates c k) (hplain : ∀ x∈tr,Plain fm k x.pre.bank) : Undisturbed fm k tr := by
  refine fun x hx => ⟨hplain x hx,fun c hc => ?_⟩
  obtain ⟨d,hd,hlabel⟩ := history_calls hhistory x hx
  cases hlabel.symm.trans hc
  exact hcs c hd

section Runs

variable {tr : Trace Instruction} {p : Proposal}

theorem step_owner (hstep : (program h fm).Step ok s a t) (howner : (s.bank k).owner=h.programId) :
    (t.bank k).owner=h.programId := by
  cases hstep with
  | call hclock _ hx => exact ((execute_spec hx).owner_kept k).trans howner
  | outside hclock hout => exact (hout.owned howner).1

theorem proposal_history (hsep : Separate h) (hmade : (program h fm).Step anyCall s (.call c) u)
    (hc : Creates c k) (howner : (s.bank k).owner=h.programId)
    {I : Trace Instruction → Proposal → Prop}
    (hnew : ∀ {kg gov count p},Created h fm c s.bank u.bank kg k gov count p → I [] p)
    (hnext : ∀ {tr x p p'},I tr p → cellAt fm.proposal h.programId x.pre.bank k=some p →
      cellAt fm.proposal h.programId x.post.bank k=some p' → Moves x k p p' → I (tr++[x]) p')
    (hrun : Run ((program h fm).Step anyCall) u tr t) (hno : Undisturbed fm k tr)
    (hp : cellAt fm.proposal h.programId t.bank k=some p) : I tr p := by
  cases hmade with
  | @call _ _ _ _ hx =>
    obtain ⟨kg,gov,count,_,hcreated⟩ := (execute_spec hx).created_of_creates hc howner
    induction hrun generalizing p with
    | start =>
      obtain ⟨_,_,hw2⟩ := hcreated.wrote
      obtain rfl := hw2.read (cellAt_eq_some.mp hp).2
      exact hnew hcreated
    | @next tr t v e hrun hstep ih =>
      have hlast := hno ⟨t,e,v⟩ (mem_append_right _ mem_cons_self)
      have hprior : Undisturbed fm k tr := fun x hx => hno x (mem_append_left _ hx)
      cases hstep with
      | @call c' b'' hclock' _ hx' =>
        have haccepted := execute_spec hx'
        obtain ⟨_,_,_,v⟩ | ⟨_,hp1,hn⟩ :=
          haccepted.proposal_before (haccepted.side_clear hsep hcreated.place hlast.1) hp
        · exact absurd v.creates (hlast.2 c' rfl)
        · exact hnext (ih hprior hp1) hp1 hp (.call rfl rfl hn)
      | @outside b'' _ hclock' hout =>
        have hown : (t.bank k).owner=h.programId := Run.invariant
          (I := fun l => (l.bank k).owner=h.programId)
          (((execute_spec hx).owner_kept k).trans howner) (fun hi he => step_owner he hi) hrun
        have hp1 := (hout.cell_owned hown).symm.trans hp
        exact hnext (ih hprior hp1) hp1 hp (.outside rfl)

end Runs

/-- A deployment with readable addresses: proposal `i` is at `4i+1`, the delegation of `d` at `4d+2`
and the vote of `v` on proposal `i` at `4(1000i+v)+3`. -/
def sampleHost : Host where
  programId := 100#256
  findProgramAddress seeds _ :=
    match seeds with
    | [_] => (8#256,255#8)
    | [_,x] => (BitVec.ofNat 256 (4*leValue x+if x.length=8 then 1 else 2),255#8)
    | [_,x,y] => (BitVec.ofNat 256 (4*(1000*leValue x+leValue y)+3),255#8)
    | _ => (0#256,0#8)
  minimumBalance _ := 0#64
  clockSysvar := 4#256

theorem sampleHost_separate : Separate sampleHost := by
  have hlen : ¬(32=8) := by decide
  constructor
  case numbered =>
    intro i j heq
    have hi := i.isLt
    have hj := j.isLt
    have hvalues := congrArg BitVec.toNat heq
    simp only [proposalPda,sampleHost,leBytes_length,leValue_leBytes,if_true,toNat_ofNat] at hvalues
    exact eq_of_toNat_eq (by omega)
  -- the four kinds of record differ modulo 4
  all_goals
    intros
    intro heq
    have hmod := congrArg (fun x : Pubkey => x.toNat%4) heq
    simp only [proposalPda,voteRecordPda,governancePda,delegationPda,sampleHost,Pubkey.bytes,
      leBytes_length,if_true,if_neg hlen,toNat_ofNat] at hmod
    omega

def sampleBank : Bank := fun k =>
  if k=8#256 then ⟨1000#64,List.replicate 86 0#8,100#256⟩
  else if k=1#256 then ⟨1000#64,List.replicate 137 0#8,100#256⟩
  else if k=203#256 then ⟨1000#64,List.replicate 59 0#8,100#256⟩
  else if k=60#256 then ⟨100000000000000#64,[],systemProgram⟩
  else if k=61#256 then ⟨5#64,[],systemProgram⟩
  else ⟨0#64,[],systemProgram⟩

def sampleStart : Ledger := ⟨sampleBank,⟨0#64,0#64⟩⟩

def initializeCall : Call Instruction :=
  ⟨⟨1#64,10#64⟩,[⟨8#256,false,true⟩,⟨80#256,true,false⟩,systemInfo,
    ⟨rentSysvar,false,false⟩],.initializeGovernance (.single 70#256) 1000#64⟩

def createCall : Call Instruction :=
  ⟨⟨1#64,100#64⟩,[⟨8#256,false,true⟩,⟨1#256,false,true⟩,⟨90#256,true,false⟩,⟨60#256,false,false⟩,
    ⟨4#256,false,false⟩,systemInfo,⟨rentSysvar,false,false⟩],
    .createProposal ⟨[],short_nil⟩ (.treasurySpend 90#256 7#64) false⟩

def voteCall (weight : U64) : Call Instruction :=
  ⟨⟨1#64,200#64⟩,[⟨1#256,false,true⟩,⟨203#256,false,true⟩,⟨50#256,true,false⟩,⟨61#256,false,false⟩,
    ⟨4#256,false,false⟩,systemInfo,⟨rentSysvar,false,false⟩],
      .castVote .for_ weight⟩

def finalizeCall (now : I64) : Call Instruction :=
  ⟨⟨1#64,now⟩,[⟨1#256,false,true⟩,⟨8#256,false,false⟩,⟨4#256,false,false⟩],.finalizeVoting⟩

def executeCall (now : I64) : Call Instruction :=
  ⟨⟨1#64,now⟩,[⟨1#256,false,true⟩,⟨8#256,false,false⟩,⟨90#256,true,false⟩,⟨4#256,false,false⟩],
    .executeProposal⟩

def promptCalls : List (Call Instruction) :=
  [initializeCall,createCall,voteCall 1000#64,finalizeCall 604900#64,executeCall 777700#64]

end PrismChain.Governance
