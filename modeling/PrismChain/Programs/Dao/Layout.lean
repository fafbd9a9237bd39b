import PrismChain.Programs.Dao.Transition

namespace PrismChain.Dao

open Option

structure Separate (h : Host) : Prop where
  numbered : ∀ i j,(proposalPda h i).1=(proposalPda h j).1 → i=j
  proposalDao : ∀ i,(proposalPda h i).1≠(daoPda h).1
  proposalVote : ∀ i j v,(proposalPda h i).1≠(votePda h j v).1
  proposalDelegation : ∀ i o d,(proposalPda h i).1≠(delegationPda h o d).1
  daoVote : ∀ i v,(daoPda h).1≠(votePda h i v).1
  daoDelegation : ∀ o d,(daoPda h).1≠(delegationPda h o d).1
  voteDelegation : ∀ i v o d,(votePda h i v).1≠(delegationPda h o d).1

/-- The parameters that every DAO has from its initialization on. -/
structure Defaults (d : DaoState) : Prop where
  votingPeriod : d.votingPeriod=defaultVotingPeriodSlots
  quorumBps : d.quorumBps=defaultQuorumBps
  timelockPeriod : d.timelockPeriod=defaultTimelockSlots

def proposalAt (h : Host) (fm : Formats) (b : Bank) (k : Pubkey) : Option Proposal :=
  (cellAt fm.proposal h.programId b k).filter fun p => p.status≠.pending

def daoAt (h : Host) (fm : Formats) (b : Bank) (k : Pubkey) : Option DaoState :=
  (cellAt fm.dao h.programId b k).filter DaoState.isInitialized

structure Layout (h : Host) (fm : Formats) (b : Bank) : Prop where
  proposals : ∀ {k p},proposalAt h fm b k=some p → k=(proposalPda h p.id).1
  daos : ∀ {k d},daoAt h fm b k=some d → k=(daoPda h).1 ∧ Defaults d

inductive Written (h : Host) (fm : Formats) (c : Call Instruction) (b b' : Bank) (j : Pubkey) : Prop
  | kept (hdata : (b' j).data=(b j).data) (howner : (b' j).owner=(b j).owner)
  | daoMade {dao : DaoState} (hplace : j=(daoPda h).1) (hdefaults : Defaults dao)
      (hlive : dao.isInitialized=true) (hfresh : (b j).data=[])
      (hstore : fm.dao.store dao (List.replicate daoLen 0#8)=some (b' j).data)
      (howner : (b' j).owner=h.programId)
  | daoCounted {dao : DaoState} {count : U64} (hbefore : daoAt h fm b j=some dao)
      (hstore : fm.dao.store {dao with proposalCount := count} (b j).data=some (b' j).data)
      (howner : (b' j).owner=h.programId)
  | proposed {kd : Pubkey} {dao : DaoState} {p : Proposal} (u : Proposed h fm c b b' kd j dao p)
      (hfresh : (b j).data=[])
      (hstore : fm.proposal.store p (List.replicate proposalMaxLen 0#8)=some (b' j).data)
      (howner : (b' j).owner=h.programId)
  | rewritten {p p' : Proposal} (hbefore : proposalAt h fm b j=some p) (hnext : Next fm c b j p p')
      (hid : p'.id=p.id) (hstatus : p'.status≠.pending)
      (hstore : fm.proposal.store p' (b j).data=some (b' j).data)
      (howner : (b' j).owner=h.programId)
  | voted {k token : Pubkey} {p p' : Proposal} {r : VoteRecord}
      (u : Voted h fm c b b' k j token p p' r)
      (hfresh : (b j).data=[])
      (hstore : fm.vote.store r (List.replicate voteLen 0#8)=some (b' j).data)
      (howner : (b' j).owner=h.programId)
  | delegated {d : Delegation} (hplace : ∃ o e,j=(delegationPda h o e).1)
      (hstore : (b j).data=[] ∧
        fm.delegation.store d (List.replicate delegationLen 0#8)=some (b' j).data ∨
        (b j).owner=h.programId ∧ fm.delegation.store d (b j).data=some (b' j).data)
      (howner : (b' j).owner=h.programId)

section Cells

theorem proposalAt_eq_some : proposalAt h fm b k=some p ↔
    (b k).owner=h.programId ∧ fm.proposal.load (b k).data=some p ∧ p.status≠.pending := by
  rw [proposalAt,filter_eq_some_iff,cellAt_eq_some,and_assoc]
  simp

theorem daoAt_eq_some : daoAt h fm b k=some d ↔
    (b k).owner=h.programId ∧ fm.dao.load (b k).data=some d ∧ d.isInitialized=true := by
  rw [daoAt,filter_eq_some_iff,cellAt_eq_some,and_assoc]

theorem proposalAt_congr (hdata : (b' k).data=(b k).data) (howner : (b' k).owner=(b k).owner) :
    proposalAt h fm b' k=proposalAt h fm b k := by
  unfold proposalAt cellAt
  rw [hdata,howner]

theorem daoAt_congr (hdata : (b' k).data=(b k).data) (howner : (b' k).owner=(b k).owner) :
    daoAt h fm b' k=daoAt h fm b k := by
  unfold daoAt cellAt
  rw [hdata,howner]

end Cells

section Writes

variable {j : Pubkey} {dao : DaoState}

theorem Next.id (hn : Next fm c b k p p') : p'.id=p.id := by
  cases hn with
  | same => rfl
  | voted _ _ _ _ htally => exact (tally_spec htally).1.id
  | finalized _ _ _ _ _ _ hfinal =>
    obtain hpass | rfl := finalized_spec hfinal
    · rw [hpass.result]
    · rfl
  | executed => rfl
  | cancelled => rfl

theorem Proposed.apart (u : Proposed h fm c b b' kd k dao p) (hne : fm.Nonempty) : kd≠k := by
  rintro rfl
  obtain ⟨_,ha,-⟩ := u.wrote
  have hload := u.state
  rw [ha.fresh,hne.dao] at hload
  cases hload

theorem Voted.apart (u : Voted h fm c b b' k kv token p p' r) (hne : fm.Nonempty) : k≠kv := by
  rintro rfl
  obtain ⟨_,ha,-⟩ := u.wrote
  have hload := u.proposal
  rw [ha.fresh,hne.proposal] at hload
  cases hload

theorem Proposed.written (u : Proposed h fm c b b' kd k dao p) (hne : fm.Nonempty) (j : Pubkey) :
    Written h fm c b b' j := by
  have hapart := u.apart hne
  obtain ⟨_,ha,hs⟩ := u.wrote
  by_cases hj : j=k
  · subst hj
    have hsame := hs.others j (Ne.symm hapart)
    exact .proposed u ha.fresh (by rw [hsame]; exact ha.written) (by rw [hsame]; exact ha.owned')
  · obtain ⟨hdata,howner⟩ := ha.others j hj
    by_cases hj' : j=kd
    · subst hj'
      obtain howned | hsame := hs.owned
      · have hstore := hs.store
        rw [hdata] at hstore
        exact .daoCounted (daoAt_eq_some.mpr ⟨howner.symm.trans howned,u.state,u.live⟩) hstore
          (hs.owner.trans howned)
      · exact .kept (hsame.trans hdata) (hs.owner.trans howner)
    · rw [← hs.others j hj'] at hdata howner
      exact .kept hdata howner

theorem Voted.written (u : Voted h fm c b b' k kv token p p' r) (hne : fm.Nonempty) (j : Pubkey) :
    Written h fm c b b' j := by
  have hapart := u.apart hne
  obtain ⟨_,ha,hs⟩ := u.wrote
  by_cases hj : j=kv
  · subst hj
    have hsame := hs.others j (Ne.symm hapart)
    exact .voted u ha.fresh (by rw [hsame]; exact ha.written) (by rw [hsame]; exact ha.owned')
  · obtain ⟨hdata,howner⟩ := ha.others j hj
    by_cases hj' : j=k
    · subst hj'
      have hrest := (tally_spec u.tallied).1
      obtain howned | hsame := hs.owned
      · refine .rewritten (proposalAt_eq_some.mpr ⟨howner.symm.trans howned,u.proposal,?_⟩)
          (.voted u.instruction u.proposalKey u.opened u.inTime u.tallied) hrest.id ?_ ?_
          (hs.owner.trans howned)
        · rw [u.opened]
          decide
        · rw [hrest.status,u.opened]
          decide
        · rw [← hdata]
          exact hs.store
      · exact .kept (hsame.trans hdata) (hs.owner.trans howner)
    · rw [← hs.others j hj'] at hdata howner
      exact .kept hdata howner

theorem Decided.written (u : Decided h fm c b b' k p p') (j : Pubkey) : Written h fm c b b' j := by
  have hs := u.wrote
  by_cases hj : j=k
  · subst hj
    obtain howned | hsame := hs.owned
    · refine .rewritten (proposalAt_eq_some.mpr ⟨howned,u.proposal,?_⟩) u.next u.kept.1 ?_ hs.store
        (hs.owner.trans howned)
      · obtain ⟨hopen,-⟩ | ⟨hpassed,-⟩ := u.opened
        · rw [hopen]
          decide
        · rw [hpassed]
          decide
      · obtain ⟨-,hst | hst | hst⟩ | ⟨-,hst⟩ := u.opened <;>
        · rw [hst]
          decide
    · exact .kept hsame hs.owner
  · have hsame := hs.others j hj
    exact .kept (by rw [hsame]) (by rw [hsame])

theorem Accepted.written (u : Accepted h fm c b b') (hne : fm.Nonempty) (j : Pubkey) :
    Written h fm c b b' j := by
  cases u with
  | @initialized k _ u =>
    by_cases hj : j=k
    · subst hj
      obtain ⟨_,_,_,_,rfl⟩ := u.made
      exact .daoMade u.place ⟨rfl,rfl,rfl⟩ rfl u.allotted.fresh u.allotted.written u.allotted.owned'
    · exact .kept (u.allotted.others j hj).1 (u.allotted.others j hj).2
  | proposed u => exact u.written hne j
  | voted u => exact u.written hne j
  | decided u => exact u.written j
  | @delegated k d u =>
    by_cases hj : j=k
    · subst hj
      obtain ha | hs := u.wrote
      · exact .delegated u.place (.inl ⟨ha.fresh,ha.written⟩) ha.owned'
      · obtain howned | hsame := hs.owned
        · exact .delegated u.place (.inr ⟨howned,hs.store⟩) (hs.owner.trans howned)
        · exact .kept hsame hs.owner
    · obtain ha | hs := u.wrote
      · exact .kept (ha.others j hj).1 (ha.others j hj).2
      · have hsame := hs.others j hj
        exact .kept (by rw [hsame]) (by rw [hsame])

end Writes

section Steps

variable {p : Proposal}

theorem Written.proposal_before (w : Written h fm c b b' k) (hsep : Separate h)
    (hl : Layout h fm b) (hk : k=(proposalPda h i).1) (hp' : proposalAt h fm b' k=some p') :
    (∃ kd dao,Proposed h fm c b b' kd k dao p') ∨ ∃ p,proposalAt h fm b k=some p ∧
    Next fm c b k p p' := by
  cases w with
  | kept hdata howner =>
    rw [proposalAt_congr hdata howner] at hp'
    exact .inr ⟨p',hp',.same⟩
  | daoMade hplace => exact absurd (hk.symm.trans hplace) (hsep.proposalDao i)
  | daoCounted hbefore =>
    exact absurd (hk.symm.trans (hl.daos hbefore).1) (hsep.proposalDao i)
  | proposed u _ hstore =>
    obtain rfl := fm.proposal.load_store hstore (proposalAt_eq_some.mp hp').2.1
    exact .inl ⟨_,_,u⟩
  | rewritten hbefore hnext _ _ hstore =>
    obtain rfl := fm.proposal.load_store hstore (proposalAt_eq_some.mp hp').2.1
    exact .inr ⟨_,hbefore,hnext⟩
  | voted u => exact absurd (hk.symm.trans u.place) (hsep.proposalVote i _ _)
  | delegated hplace =>
    obtain ⟨o,e,hplace⟩ := hplace
    exact absurd (hk.symm.trans hplace) (hsep.proposalDelegation i o e)

end Steps

/-- A deployment with readable addresses: proposal `i` is at `4i+1`, the vote of `v` on it at
`4(1000i+v)+3` and the delegation of `v` to `w` at `4(1000v+w)+2`. -/
def sampleHost : Host where
  programId := 100#256
  findProgramAddress seeds _ :=
    match seeds with
    | [_] => (8#256,255#8)
    | [_,x] => (BitVec.ofNat 256 (4*leValue x+1),255#8)
    | [_,x,y] => (BitVec.ofNat 256 (4*(1000*leValue x+leValue y)+if x.length=8 then 3 else 2),255#8)
    | _ => (0#256,0#8)
  minimumBalance _ := 1000#64
  clockSysvar := 4#256

namespace SampleHost

theorem dao : (daoPda sampleHost).1.toNat=8 := rfl

theorem proposal (i : U64) : (proposalPda sampleHost i).1.toNat=4*i.toNat+1 := by
  have hi := i.isLt
  simp only [proposalPda,sampleHost,leValue_leBytes,BitVec.toNat_ofNat]
  omega

theorem vote (i : U64) (v : Pubkey) : (votePda sampleHost i v).1.toNat%4=3 := by
  simp only [votePda,sampleHost,leBytes_length,if_true,BitVec.toNat_ofNat]
  omega

theorem delegation (v w : Pubkey) : (delegationPda sampleHost v w).1.toNat%4=2 := by
  have hlen : ¬(32=8) := by decide
  simp only [delegationPda,sampleHost,Pubkey.bytes,leBytes_length,if_neg hlen,BitVec.toNat_ofNat]
  omega

theorem separate : Separate sampleHost where
  numbered i j heq := by
    have hvalues := congrArg BitVec.toNat heq
    rw [proposal,proposal] at hvalues
    exact BitVec.eq_of_toNat_eq (by omega)
  proposalDao i heq := by
    have hvalues := congrArg BitVec.toNat heq
    rw [proposal,dao] at hvalues
    omega
  proposalVote i j v heq := by
    have hvote := vote j v
    rw [← heq,proposal] at hvote
    omega
  proposalDelegation i o d heq := by
    have hdelegation := delegation o d
    rw [← heq,proposal] at hdelegation
    omega
  daoVote i v heq := by
    have hvote := vote i v
    rw [← heq,dao] at hvote
    omega
  daoDelegation o d heq := by
    have hdelegation := delegation o d
    rw [← heq,dao] at hdelegation
    omega
  voteDelegation i v o d heq := by
    have hdelegation := delegation o d
    rw [← heq,vote] at hdelegation
    omega

end SampleHost

/-- All the tokens of the mint 90 are in the account 60 of the holder 50; the account 61 of the
holder 51 is empty. -/
def sampleBank : Bank := fun k =>
  if k=80#256 ∨ k=50#256 ∨ k=51#256 then ⟨10000#64,[],systemProgram⟩
  else if k=60#256 then ⟨1000#64,TokenAccount.pack ⟨90#256,50#256,100000#64⟩,7#256⟩
  else if k=61#256 then ⟨1000#64,TokenAccount.pack ⟨90#256,51#256,0#64⟩,7#256⟩
  else ⟨0#64,[],systemProgram⟩

def sampleStart : Ledger := ⟨sampleBank,⟨0#64,0#64⟩⟩

theorem sampleStart_untouched : Untouched sampleHost.programId sampleStart.bank := by
  intro k howner
  change (sampleBank k).owner=100#256 at howner
  unfold sampleBank at howner
  split_ifs at howner <;> cases howner

def initializeCall : Call Instruction :=
  ⟨⟨1#64,10#64⟩,[⟨80#256,true,true⟩,⟨8#256,false,true⟩,⟨90#256,false,false⟩,⟨91#256,false,false⟩,
    systemInfo],.initializeDao 100000#64⟩

def createCall (title description : Text) (instructionData : Vec Byte) : Call Instruction :=
  ⟨⟨2#64,20#64⟩,[⟨50#256,true,true⟩,⟨8#256,false,true⟩,⟨1#256,false,true⟩,⟨60#256,false,false⟩,
    systemInfo],.createProposal title description instructionData⟩

def voteCall (voter record token : Pubkey) : Call Instruction :=
  ⟨⟨3#64,30#64⟩,[⟨voter,true,true⟩,⟨1#256,false,true⟩,⟨record,false,true⟩,⟨token,false,false⟩,
    ⟨8#256,false,false⟩,systemInfo],.castVote true⟩

def finalizeCall (dao : Pubkey) : Call Instruction :=
  ⟨⟨648003#64,40#64⟩,[⟨50#256,true,true⟩,⟨1#256,false,true⟩,⟨dao,false,false⟩],.finalizeProposal⟩

def executeCall (slot : U64) : Call Instruction :=
  ⟨⟨slot,50#64⟩,[⟨50#256,true,true⟩,⟨1#256,false,true⟩,⟨8#256,false,false⟩],.executeProposal⟩

end PrismChain.Dao
