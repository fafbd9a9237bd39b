import PrismChain.Programs.Dao.Processor

namespace PrismChain.Dao

open FixedWidth Option Invocation PrismChain.Frame

/-- How the proposal at `k` goes on. -/
inductive Next (fm : Formats) (c : Call Instruction) (b : Bank) (k : Pubkey) (p : Proposal) :
    Proposal → Prop
  | same : Next fm c b k p p
  | voted {p' : Proposal} {support : Bool} {weight : U64} (hi : c.instruction=.castVote support)
      (hkey : c.key? 1=some k) (hopen : p.status=.active)
      (htime : c.clock.slot.toNat≤p.endSlot.toNat) (htally : p.tally support weight=some p') :
      Next fm c b k p p'
  | finalized {p' : Proposal} {kd : Pubkey} {dao : DaoState} (hi : c.instruction=.finalizeProposal)
      (hkey : c.key? 1=some k) (hdao : c.key? 2=some kd) (hload : fm.dao.load (b kd).data=some dao)
      (hopen : p.status=.active) (htime : p.endSlot.toNat<c.clock.slot.toNat)
      (hfinal : p.finalized dao c.clock.slot=some p') : Next fm c b k p p'
  | executed (hi : c.instruction=.executeProposal) (hkey : c.key? 1=some k)
      (hpassed : p.status=.passed) (htime : p.timelockEnd.toNat≤c.clock.slot.toNat) :
      Next fm c b k p {p with status := .executed}
  | cancelled (hi : c.instruction=.cancelProposal) (hkey : c.key? 1=some k)
      (hopen : p.status=.active) (htime : c.clock.slot.toNat≤p.endSlot.toNat) :
      Next fm c b k p {p with status := .cancelled}

section Effects

variable (h : Host) (fm : Formats) (c : Call Instruction) (b b' : Bank)

/-- The DAO is created at its address. -/
structure Initialized (k : Pubkey) (dao : DaoState) : Prop where
  instruction : ∃ n,c.instruction=.initializeDao n
  place : k=(daoPda h).1
  made : ∃ authority mint treasury n,dao=newDao h authority mint treasury n
  allotted : Allotted fm.dao h.programId b b' k daoLen dao

/-- The next proposal is created and counted. -/
structure Proposed (kd k : Pubkey) (dao : DaoState) (p : Proposal) : Prop where
  instruction : c.instruction=.createProposal p.title p.description p.instructionData
  daoKey : c.key? 1=some kd
  proposalKey : c.key? 2=some k
  state : fm.dao.load (b kd).data=some dao
  live : dao.isInitialized=true
  made : p=newProposal h dao p.proposer p.title p.description p.instructionData c.clock.slot
  place : k=(proposalPda h p.id).1
  wrote : ∃ b₁,Allotted fm.proposal h.programId b b₁ k proposalMaxLen p ∧
    Stored fm.dao h.programId b₁ b' kd {dao with proposalCount := dao.proposalCount+1#64}

/-- A vote is counted and filed in a record of its own. -/
structure Voted (k kv token : Pubkey) (p p' : Proposal) (r : VoteRecord) : Prop where
  instruction : c.instruction=.castVote r.support
  signer : c.signer? 0=some r.voter
  proposalKey : c.key? 1=some k
  recordKey : c.key? 2=some kv
  tokenKey : c.key? 3=some token
  proposal : fm.proposal.load (b k).data=some p
  opened : p.status=.active
  inTime : c.clock.slot.toNat≤p.endSlot.toNat
  tokens : ∃ a,TokenAccount.unpack (b token).data=.ok a ∧ a.owner=r.voter ∧ a.amount=r.voteWeight
  positive : r.voteWeight≠0#64
  about : r.proposalId=p.id
  place : kv=(votePda h r.proposalId r.voter).1
  tallied : p.tally r.support r.voteWeight=some p'
  wrote : ∃ b₁,Allotted fm.vote h.programId b b₁ kv voteLen r ∧
    Stored fm.proposal h.programId b₁ b' k p'

/-- A proposal is finalized, executed or cancelled. -/
structure Decided (k : Pubkey) (p p' : Proposal) : Prop where
  proposalKey : c.key? 1=some k
  proposal : fm.proposal.load (b k).data=some p
  next : Next fm c b k p p'
  kept : p'.id=p.id ∧ p'.endSlot=p.endSlot ∧ p'.forVotes=p.forVotes ∧ p'.againstVotes=p.againstVotes
  opened : p.status=.active ∧ (p'.status=.passed ∨ p'.status=.failed ∨ p'.status=.cancelled) ∨
    p.status=.passed ∧ p'.status=.executed
  notVote : ∀ support,c.instruction≠.castVote support
  wrote : Stored fm.proposal h.programId b b' k p'

/-- A delegation is made or written again. -/
structure Delegated (k : Pubkey) (d : Delegation) : Prop where
  instruction : ∃ delegate n,c.instruction=.delegateVotes delegate n
  place : ∃ delegator delegate,k=(delegationPda h delegator delegate).1
  wrote : Allotted fm.delegation h.programId b b' k delegationLen d ∨
    Stored fm.delegation h.programId b b' k d

inductive Accepted : Prop
  | initialized {k : Pubkey} {dao : DaoState} (u : Initialized h fm c b b' k dao)
  | proposed {kd k : Pubkey} {dao : DaoState} {p : Proposal} (u : Proposed h fm c b b' kd k dao p)
  | voted {k kv token : Pubkey} {p p' : Proposal} {r : VoteRecord}
      (u : Voted h fm c b b' k kv token p p' r)
  | decided {k : Pubkey} {p p' : Proposal} (u : Decided h fm c b b' k p p')
  | delegated {k : Pubkey} {d : Delegation} (u : Delegated h fm c b b' k d)

end Effects

section Values

variable {p p' : Proposal} {dao : DaoState} {slot : U64}

def Proposal.votes (p : Proposal) : Bool → U64
  | true => p.forVotes
  | false => p.againstVotes

/-- At most the votes have changed. -/
structure Recounted (p p' : Proposal) : Prop where
  id : p'.id=p.id
  status : p'.status=p.status
  endSlot : p'.endSlot=p.endSlot
  timelockEnd : p'.timelockEnd=p.timelockEnd

theorem tally_spec (ht : p.tally support weight=some p') : Recounted p p' ∧ ∀ side,
    (p'.votes side).toNat=(p.votes side).toNat+if side=support then weight.toNat else 0 := by
  cases support <;> obtain ⟨v,hv,rfl⟩ := map_eq_some_iff.mp ht <;>
    refine ⟨⟨rfl,rfl,rfl,rfl⟩,fun side => ?_⟩ <;> have hsum := checkedAdd_eq_some.mp hv <;>
    cases side <;> simp [Proposal.votes,hsum]

theorem quorumThreshold_toNat (dao : DaoState) : dao.quorumThreshold.toNat=
    dao.totalVotingPower.toNat*dao.quorumBps.toNat/10000 := by
  obtain ⟨x,hx,hval⟩ := checkedMul_wide dao.totalVotingPower dao.quorumBps
  have hten : (10000#128).toNat=10000 := rfl
  rw [DaoState.quorumThreshold,hx,getD_some,BitVec.toNat_udiv,hval,hten]

/-- Finalized with a quorum and a majority. -/
structure Passes (p p' : Proposal) (dao : DaoState) (slot : U64) : Prop where
  quorum :
    dao.totalVotingPower.toNat*dao.quorumBps.toNat/10000≤p.forVotes.toNat+p.againstVotes.toNat
  majority : p.againstVotes.toNat<p.forVotes.toNat
  result : p'={p with status := .passed,timelockEnd := slot+dao.timelockPeriod}

theorem finalized_spec (hf : p.finalized dao slot=some p') :
    Passes p p' dao slot ∨ p'={p with status := .failed} := by
  obtain ⟨total,htotal,rfl⟩ := map_eq_some_iff.mp hf
  have hsum := checkedAdd_eq_some.mp htotal
  by_cases hpass : dao.quorumThreshold.toNat≤total.toNat ∧ p.againstVotes.toNat<p.forVotes.toNat
  · rw [quorumThreshold_toNat,hsum] at hpass
    refine .inl ⟨hpass.1,hpass.2,if_pos ?_⟩
    rw [quorumThreshold_toNat,hsum]
    exact hpass
  · exact .inr (if_neg hpass)

end Values

section Handlers

variable {h : Host} {accounts : List AccountInfo} {f : Frame}

theorem loadProposal_eq_ok : loadProposal fm f k=.ok p ↔
    fm.proposal.load (f.view k).data=some p ∧ p.isInitialized=true := by
  simp only [loadProposal,steps_ok]
  constructor
  · rintro ⟨x,hload,-,hinit,rfl⟩
    exact ⟨hload,hinit⟩
  · rintro ⟨hload,hinit⟩
    exact ⟨p,hload,(),hinit,rfl⟩

theorem tokensOf_eq_ok : tokensOf f k holder=.ok amount ↔
    ∃ a,TokenAccount.unpack (f.view k).data=.ok a ∧ a.owner=holder ∧ a.amount=amount := by
  simp only [tokensOf,steps_ok]
  constructor
  · rintro ⟨a,hread,-,howner,hamount⟩
    exact ⟨a,hread,howner,hamount⟩
  · rintro ⟨a,hread,howner,hamount⟩
    exact ⟨a,hread,(),howner,hamount⟩

variable (hsync : Synced h.programId accounts f)

theorem initialize_spec (hp : processInitializeDao h fm accounts n ⟨b,b⟩=.ok f) :
    Accepted h fm ⟨clock,accounts,.initializeDao n⟩ b f.view := by
  unfold processInitializeDao at hp
  split at hp <;> simp only [steps_ok] at hp
  obtain ⟨-,-,-,hplace,_,hinvoke,hserialize⟩ := hp
  obtain ⟨_,hcreate,rfl⟩ := invoke_create hinvoke
  obtain ⟨d,hd,rfl⟩ := save_eq_ok.mp (serialize_eq_ok.mp hserialize)
  exact .initialized ⟨⟨n,rfl⟩,hplace,⟨_,_,_,_,rfl⟩,allotted_of hcreate hd⟩

include hsync

theorem create_spec
    (hp : processCreateProposal h fm clock accounts title description data ⟨b,b⟩=.ok f) :
    Accepted h fm ⟨clock,accounts,.createProposal title description data⟩ b f.view := by
  unfold processCreateProposal at hp
  split at hp <;> simp only [steps_ok] at hp
  obtain ⟨-,-,_,hload,-,hlive,_,-,-,-,-,-,-,-,-,-,-,hplace,_,hinvoke,_,hfirst,hsecond⟩ := hp
  obtain ⟨_,hcreate,rfl⟩ := invoke_create hinvoke
  exact .proposed ⟨rfl,rfl,rfl,hload,hlive,rfl,hplace,
    allotted_stored hcreate hfirst hsecond hsync (by simp)⟩

theorem vote_spec (hp : processCastVote h fm clock accounts support ⟨b,b⟩=.ok f) :
    Accepted h fm ⟨clock,accounts,.castVote support⟩ b f.view := by
  unfold processCastVote at hp
  split at hp <;> simp only [steps_ok,loadProposal_eq_ok,tokensOf_eq_ok] at hp
  obtain ⟨-,hsigns,p,hload,-,hopen,-,htime,_,htokens,-,hpositive,-,hplace,-,-,_,hinvoke,_,
    hfirst,p',htally,hsecond⟩ := hp
  obtain ⟨_,hcreate,rfl⟩ := invoke_create hinvoke
  exact .voted ⟨rfl,by simp [Call.signer?,hsigns,newVote],rfl,rfl,rfl,hload.1,hopen,htime,htokens,
    hpositive,rfl,hplace,htally,allotted_stored hcreate hfirst hsecond hsync (by simp)⟩

theorem finalize_spec (hp : processFinalizeProposal fm clock accounts ⟨b,b⟩=.ok f) :
    Accepted h fm ⟨clock,accounts,.finalizeProposal⟩ b f.view := by
  unfold processFinalizeProposal at hp
  split at hp <;> simp only [steps_ok,loadProposal_eq_ok] at hp
  obtain ⟨p,hload,-,hopen,-,htime,_,hdao,_,hfinal,hserialize⟩ := hp
  refine .decided ⟨rfl,hload.1,.finalized rfl rfl rfl hdao hopen htime hfinal,?_,?_,by simp,
    stored_of_serialize hserialize hsync (by simp)⟩ <;>
  · obtain hpass | rfl := finalized_spec hfinal
    · rw [hpass.result]
      simp [hopen]
    · simp [hopen]

theorem execute_proposal_spec (hp : processExecuteProposal fm clock accounts ⟨b,b⟩=.ok f) :
    Accepted h fm ⟨clock,accounts,.executeProposal⟩ b f.view := by
  unfold processExecuteProposal at hp
  split at hp <;> simp only [steps_ok,loadProposal_eq_ok] at hp
  obtain ⟨p,hload,-,hpassed,-,htime,hserialize⟩ := hp
  exact .decided
    ⟨rfl,hload.1,.executed rfl rfl hpassed htime,⟨rfl,rfl,rfl,rfl⟩,.inr ⟨hpassed,rfl⟩,by simp,
    stored_of_serialize hserialize hsync (by simp)⟩

theorem cancel_spec (hp : processCancelProposal fm clock accounts ⟨b,b⟩=.ok f) :
    Accepted h fm ⟨clock,accounts,.cancelProposal⟩ b f.view := by
  unfold processCancelProposal at hp
  split at hp <;> simp only [steps_ok,loadProposal_eq_ok] at hp
  obtain ⟨-,-,p,hload,-,-,-,hopen,-,htime,hserialize⟩ := hp
  exact .decided ⟨rfl,hload.1,.cancelled rfl rfl hopen htime,⟨rfl,rfl,rfl,rfl⟩,
    .inl ⟨hopen,.inr (.inr rfl)⟩,by simp,
    stored_of_serialize hserialize hsync (by simp)⟩

theorem delegate_spec (hp : processDelegateVotes h fm accounts delegate n ⟨b,b⟩=.ok f) :
    Accepted h fm ⟨clock,accounts,.delegateVotes delegate n⟩ b f.view := by
  unfold processDelegateVotes at hp
  split at hp <;> simp only [steps_ok] at hp
  obtain ⟨-,-,-,-,_,-,-,-,-,hplace,_,hopen,hserialize⟩ := hp
  unfold openDelegation at hopen
  split at hopen
  case isTrue =>
    obtain ⟨_,hcreate,rfl⟩ := invoke_create hopen
    obtain ⟨d,hd,rfl⟩ := save_eq_ok.mp (serialize_eq_ok.mp hserialize)
    exact .delegated ⟨⟨_,_,rfl⟩,⟨_,_,hplace⟩,.inl (allotted_of hcreate hd)⟩
  case isFalse =>
    rw [pure_eq_ok] at hopen
    subst hopen
    exact .delegated ⟨⟨_,_,rfl⟩,⟨_,_,hplace⟩,.inr (stored_of_serialize hserialize hsync (by simp))⟩

end Handlers

theorem execute_spec (hx : (program h fm).execute c b=.ok b') : Accepted h fm c b b' := by
  obtain ⟨f,hp,hsync,rfl⟩ := Program.execute_eq_ok.mp hx
  obtain ⟨_,_,i⟩ := c
  cases i with
  | initializeDao n => exact initialize_spec hp
  | createProposal => exact create_spec hsync hp
  | castVote => exact vote_spec hsync hp
  | finalizeProposal => exact finalize_spec hsync hp
  | executeProposal => exact execute_proposal_spec hsync hp
  | cancelProposal => exact cancel_spec hsync hp
  | delegateVotes _ n => exact delegate_spec hsync hp

section Inversion

theorem Accepted.voted_of (u : Accepted h fm c b b') (hi : c.instruction=.castVote support) :
    ∃ k kv token p p' r,Voted h fm c b b' k kv token p p' r := by
  cases u with
  | voted u => exact ⟨_,_,_,_,_,_,u⟩
  | initialized u =>
    obtain ⟨n,hi'⟩ := u.instruction
    cases hi.symm.trans hi'
  | proposed u => cases hi.symm.trans u.instruction
  | decided u => exact absurd hi (u.notVote support)
  | delegated u =>
    obtain ⟨_,_,hi'⟩ := u.instruction
    cases hi.symm.trans hi'

def Instruction.decides : Instruction → Bool
  | .finalizeProposal | .executeProposal | .cancelProposal => true
  | _ => false

theorem Accepted.decided_of (u : Accepted h fm c b b') (hi : c.instruction.decides=true) :
    ∃ k p p',Decided h fm c b b' k p p' := by
  cases u with
  | decided u => exact ⟨_,_,_,u⟩
  | initialized u =>
    obtain ⟨n,hi'⟩ := u.instruction
    rw [hi'] at hi
    cases hi
  | proposed u =>
    rw [u.instruction] at hi
    cases hi
  | voted u =>
    rw [u.instruction] at hi
    cases hi
  | delegated u =>
    obtain ⟨_,_,hi'⟩ := u.instruction
    rw [hi'] at hi
    cases hi

end Inversion
end PrismChain.Dao
