import PrismChain.Programs.Governance.Processor

namespace PrismChain.Governance

open FixedWidth Option

def proposalKey? (c : Call Instruction) : Option Pubkey :=
  match c.instruction with
  | .createProposal _ _ _ => c.key? 1
  | .castVote _ _ => c.key? 0
  | .finalizeVoting => c.key? 0
  | .executeProposal => c.key? 0
  | .vetoProposal => c.key? 0
  | .cancelProposal => c.key? 0
  | _ => none

/-- The account of another kind that the call writes to. -/
def sideKey? (c : Call Instruction) : Option Pubkey :=
  match c.instruction with
  | .initializeGovernance _ _ => c.key? 0
  | .createProposal _ _ _ => c.key? 0
  | .castVote _ _ => c.key? 1
  | .delegateVote _ _ => c.key? 0
  | .revokeDelegation => c.key? 0
  | .updateStakedSupply _ => c.key? 0
  | _ => none

def Instruction.moves : Instruction → Bool
  | .finalizeVoting => true
  | .executeProposal => true
  | .vetoProposal => true
  | .cancelProposal => true
  | _ => false

def Proposal.votes (p : Proposal) : VoteChoice → U64
  | .for_ => p.votesFor
  | .against => p.votesAgainst
  | .abstain => p.votesAbstain

structure Recounted (p p' : Proposal) : Prop where
  id : p'.id=p.id
  status : p'.status=p.status
  votingEnd : p'.votingEnd=p.votingEnd
  executionTime : p'.executionTime=p.executionTime

inductive Next (c : Call Instruction) (k : Pubkey) (p : Proposal) : Proposal → Prop
  | same (hpass : proposalKey? c≠some k) : Next c k p p
  | voted {p' : Proposal} {choice : VoteChoice} {weight : U64}
      (hi : c.instruction=.castVote choice weight) (hkey : c.key? 0=some k)
      (hopen : p.status=.voting) (htally : tally p choice weight=some p') : Next c k p p'
  | finalized {st : ProposalStatus} (hi : c.instruction=.finalizeVoting) (hkey : c.key? 0=some k)
      (hopen : p.status=.voting) (hended : p.votingEnd.toInt≤c.clock.unixTimestamp.toInt)
      (hst : st=.passed ∨ st=.defeated) : Next c k p {p with status := st}
  | executed (hi : c.instruction=.executeProposal) (hpassed : p.status=.passed)
      (hdelay : p.executionTime.toInt≤c.clock.unixTimestamp.toInt) :
      Next c k p {p with status := .executed}
  | vetoed (hi : c.instruction=.vetoProposal) (hpassed : p.status=.passed)
      (hwindow : c.clock.unixTimestamp.toInt≤p.votingEnd.toInt+vetoWindowSecs.toInt) :
      Next c k p {p with status := .vetoed}
  | cancelled (hi : c.instruction=.cancelProposal) (hopen : p.status=.voting) :
      Next c k p {p with status := .cancelled}

section Effects

variable (h : Host) (fm : Formats) (c : Call Instruction) (b b' : Bank)

structure Initialized (k : Pubkey) (gov : GovernanceState) : Prop where
  side : sideKey? c=some k
  noProposal : proposalKey? c=none
  place : k=(governancePda h).1
  live : gov.isInitialized=true
  fresh : ∀ {gov₀},fm.governance.load (b k).data=some gov₀ → gov₀.isInitialized=false
  wrote : Wrote fm.governance h.programId b b' k gov

structure Created (kg k : Pubkey) (gov : GovernanceState) (count : U64) (p : Proposal) : Prop where
  instruction : ∃ d t e,c.instruction=.createProposal d t e
  side : c.key? 0=some kg
  proposalKey : c.key? 1=some k
  governance : fm.governance.load (b kg).data=some gov
  counted : count.toNat=gov.proposalCount.toNat+1
  number : p.id=gov.proposalCount
  place : k=(proposalPda h p.id).1
  opened : p.status=.voting
  unvoted : ∀ choice,p.votes choice=0#64
  locked : p.executionTime.toInt=p.votingEnd.toInt+executionDelaySecs.toInt
  wrote : ∃ b₁,Wrote fm.governance h.programId b b₁ kg {gov with proposalCount := count} ∧
    Wrote fm.proposal h.programId b₁ b' k p

structure Voted (k kv : Pubkey) (p p' : Proposal) (r : VoteRecord) : Prop where
  instruction : c.instruction=.castVote r.choice r.weight
  proposalKey : c.key? 0=some k
  side : c.key? 1=some kv
  proposal : fm.proposal.load (b k).data=some p
  opened : p.status=.voting
  tallied : tally p r.choice r.weight=some p'
  live : r.isInitialized=true
  about : r.proposalId=p.id
  place : kv=(voteRecordPda h r.proposalId r.voter).1
  first : ∀ {r₀},fm.voteRecord.load (b kv).data=some r₀ → r₀.isInitialized=false
  wrote : ∃ b₁,Wrote fm.voteRecord h.programId b b₁ kv r ∧ Wrote fm.proposal h.programId b₁ b' k p'

structure Moved (k : Pubkey) (p p' : Proposal) : Prop where
  kind : c.instruction.moves=true
  proposalKey : proposalKey? c=some k
  proposal : fm.proposal.load (b k).data=some p
  next : Next c k p p'
  votes : p'.votes=p.votes
  wrote : Wrote fm.proposal h.programId b b' k p'

structure Delegated (k : Pubkey) (d : Delegation) : Prop where
  side : sideKey? c=some k
  noProposal : proposalKey? c=none
  place : (∃ delegator,k=(delegationPda h delegator).1) ∨ ∃ d₀,fm.delegation.load (b k).data=some d₀
  wrote : Wrote fm.delegation h.programId b b' k d

structure Supplied (k : Pubkey) (gov : GovernanceState) (supply : U64) : Prop where
  side : sideKey? c=some k
  noProposal : proposalKey? c=none
  governance : fm.governance.load (b k).data=some gov
  wrote : Wrote fm.governance h.programId b b' k {gov with totalStakedSupply := supply}

inductive Accepted : Prop
  | initialized {k : Pubkey} {gov : GovernanceState} (u : Initialized h fm c b b' k gov)
  | created {kg k : Pubkey} {gov : GovernanceState} {count : U64} {p : Proposal}
      (u : Created h fm c b b' kg k gov count p)
  | voted {k kv : Pubkey} {p p' : Proposal} {r : VoteRecord} (u : Voted h fm c b b' k kv p p' r)
  | moved {k : Pubkey} {p p' : Proposal} (u : Moved h fm c b b' k p p')
  | delegated {k : Pubkey} {d : Delegation} (u : Delegated h fm c b b' k d)
  | supplied {k : Pubkey} {gov : GovernanceState} {supply : U64}
      (u : Supplied h fm c b b' k gov supply)
  | idle (hforeign : ∀ k,proposalKey? c=some k → (b k).owner≠h.programId)
      (hone : sideKey? c=proposalKey? c) (hsame : b'=b)

end Effects

theorem tally_spec {choice : VoteChoice} (ht : tally p choice weight=some p') :
    Recounted p p' ∧ ∀ x,
      (p'.votes x).toNat=(p.votes x).toNat+if x=choice then weight.toNat else 0 := by
  cases choice <;> obtain ⟨v,hv,rfl⟩ := map_eq_some_iff.mp ht <;>
    refine ⟨⟨rfl,rfl,rfl,rfl⟩,fun x => ?_⟩ <;> have hsum := checkedAdd_eq_some.mp hv <;>
    cases x <;> simp [Proposal.votes,hsum]

theorem outcome_cases (ho : outcome p supply=some st) : st=.passed ∨ st=.defeated := by
  simp only [outcome,bind_eq_bind,bind_eq_some_iff] at ho
  obtain ⟨_,-,_,-,_,-,hst⟩ := ho
  split_ifs at hst with hquorum hemergency hmajority
  · exact .inr (some.inj hst).symm
  · obtain ⟨_,-,hst⟩ := bind_eq_some_iff.mp hst
    split_ifs at hst
    · exact .inl (some.inj hst).symm
    · exact .inr (some.inj hst).symm
  · exact .inl (some.inj hst).symm
  · exact .inr (some.inj hst).symm

section Handlers

variable {h : Host} {accounts : List AccountInfo} {f : Frame}

theorem loadGovernance_eq_ok :
    loadGovernance fm f k=.ok gov ↔ fm.governance.load (f.view k).data=some gov := okOr_eq_ok

theorem loadProposal_eq_ok :
    loadProposal fm f k=.ok p ↔ fm.proposal.load (f.view k).data=some p := okOr_eq_ok

variable (hsync : Synced h.programId accounts f)
include hsync

theorem initialize_spec (hp : initializeGovernance h fm council supply accounts ⟨b,b⟩=.ok f) :
    Accepted h fm ⟨clock,accounts,.initializeGovernance council supply⟩ b f.view := by
  unfold initializeGovernance at hp
  split at hp <;> simp only [steps_ok] at hp
  rename_i governanceInfo authorityInfo _ _ _
  obtain ⟨-,-,-,-,-,hplace,-,hfresh,-,-,-,-,hfill⟩ := hp
  refine .initialized ⟨rfl,rfl,hplace,rfl,?_,wrote_of_fill hfill hsync (by simp)⟩
  intro gov0 hload
  exact Bool.eq_false_iff.mpr fun hlive => hfresh ⟨gov0,hload,hlive⟩

theorem create_spec
    (hp : createProposal h fm clock description proposalType isEmergency accounts ⟨b,b⟩=.ok f) :
    Accepted h fm ⟨clock,accounts,.createProposal description proposalType isEmergency⟩
      b f.view := by
  unfold createProposal at hp
  split at hp <;> simp only [steps_ok,loadGovernance_eq_ok] at hp
  rename_i governanceInfo proposalInfo proposerInfo stakeInfo _ _ _ _
  obtain ⟨-,-,-,-,-,-,-,-,_,hgov,_,hcount,_,-,_,htime,-,hplace,_,hfirst,hsecond⟩ := hp
  cases wrote_of_saves_or_same hfirst hsecond hsync (by simp) (by simp) with
  | inl hwrote =>
    refine .created ⟨⟨_,_,_,rfl⟩,rfl,rfl,hgov,?_,rfl,hplace,rfl,?_,?_,hwrote⟩
    · simpa using checkedAdd_eq_some.mp hcount
    · intro choice
      cases choice <;> rfl
    · exact checkedAddSigned_eq_some.mp htime
  | inr hsame =>
    obtain ⟨hone,hforeign,hsame⟩ := hsame
    refine .idle ?_ (congrArg some hone) hsame
    intro k hk
    cases hk
    exact hforeign

theorem cast_spec {choice : VoteChoice}
    (hp : castVote h fm clock choice weight accounts ⟨b,b⟩=.ok f) :
    Accepted h fm ⟨clock,accounts,.castVote choice weight⟩ b f.view := by
  unfold castVote at hp
  split at hp <;> simp only [steps_ok,loadProposal_eq_ok] at hp
  rename_i proposalInfo voteRecordInfo voterInfo _ _ _ _ _
  obtain ⟨-,-,-,-,p,hload,-,hopen,-,-,-,hplace,-,hfirst,_,htally,_,hrecord,hproposal⟩ := hp
  cases wrote_of_saves_or_same hrecord hproposal hsync (by simp) (by simp) with
  | inl hwrote =>
    refine .voted ⟨rfl,rfl,rfl,hload,hopen,htally,rfl,rfl,hplace,?_,hwrote⟩
    intro r0 hr0
    exact Bool.eq_false_iff.mpr fun hlive => hfirst ⟨r0,hr0,hlive⟩
  | inr hsame =>
    obtain ⟨hone,hforeign,hsame⟩ := hsame
    refine .idle ?_ (congrArg some hone) hsame
    intro k hk
    cases hk
    exact hforeign

theorem delegate_spec (hp : delegateVote h fm clock delegate weight accounts ⟨b,b⟩=.ok f) :
    Accepted h fm ⟨clock,accounts,.delegateVote delegate weight⟩ b f.view := by
  unfold delegateVote at hp
  split at hp <;> simp only [steps_ok] at hp
  rename_i delegationInfo delegatorInfo _ _ _ _ _ _
  obtain ⟨-,-,-,-,-,-,-,hplace,hsave⟩ := hp
  exact .delegated ⟨rfl,rfl,.inl ⟨_,hplace⟩,wrote_of_save hsave hsync (by simp)⟩

theorem revoke_spec (hp : revokeDelegation fm accounts ⟨b,b⟩=.ok f) :
    Accepted h fm ⟨clock,accounts,.revokeDelegation⟩ b f.view := by
  unfold revokeDelegation at hp
  split at hp <;> simp only [steps_ok] at hp
  rename_i delegationInfo delegatorInfo _
  obtain ⟨-,-,d,hload,-,-,hsave⟩ := hp
  exact .delegated ⟨rfl,rfl,.inr ⟨d,hload⟩,wrote_of_save hsave hsync (by simp)⟩

theorem finalize_spec (hp : finalizeVoting h fm clock accounts ⟨b,b⟩=.ok f) :
    Accepted h fm ⟨clock,accounts,.finalizeVoting⟩ b f.view := by
  unfold finalizeVoting at hp
  split at hp <;> simp only [steps_ok,loadProposal_eq_ok] at hp
  rename_i proposalInfo governanceInfo _ _
  obtain ⟨-,-,p,hload,-,hopen,-,hended,_,-,_,hst,hsave⟩ := hp
  exact .moved ⟨rfl,rfl,hload,.finalized rfl rfl hopen hended (outcome_cases hst),rfl,
    wrote_of_save hsave hsync (by simp)⟩

theorem execute_proposal_spec (hp : executeProposal h fm clock accounts ⟨b,b⟩=.ok f) :
    Accepted h fm ⟨clock,accounts,.executeProposal⟩ b f.view := by
  unfold executeProposal at hp
  split at hp <;> simp only [steps_ok,loadProposal_eq_ok] at hp
  rename_i proposalInfo _ _ _ _
  obtain ⟨-,-,-,-,p,hload,-,hpassed,-,hdelay,hsave⟩ := hp
  exact .moved ⟨rfl,rfl,hload,.executed rfl hpassed hdelay,rfl,wrote_of_save hsave hsync (by simp)⟩

theorem veto_spec (hp : vetoProposal h fm clock accounts ⟨b,b⟩=.ok f) :
    Accepted h fm ⟨clock,accounts,.vetoProposal⟩ b f.view := by
  unfold vetoProposal at hp
  split at hp <;> simp only [steps_ok,loadProposal_eq_ok] at hp
  rename_i proposalInfo governanceInfo _ _ _
  obtain ⟨-,-,-,-,_,-,-,-,p,hload,-,hpassed,_,hdeadline,-,hwindow,hsave⟩ := hp
  rw [checkedAddSigned_eq_some.mp hdeadline] at hwindow
  exact .moved ⟨rfl,rfl,hload,.vetoed rfl hpassed hwindow,rfl,wrote_of_save hsave hsync (by simp)⟩

theorem cancel_spec (hp : cancelProposal fm accounts ⟨b,b⟩=.ok f) :
    Accepted h fm ⟨clock,accounts,.cancelProposal⟩ b f.view := by
  unfold cancelProposal at hp
  split at hp <;> simp only [steps_ok,loadProposal_eq_ok] at hp
  rename_i proposalInfo _ _
  obtain ⟨-,-,p,hload,-,-,-,hopen,hsave⟩ := hp
  exact .moved ⟨rfl,rfl,hload,.cancelled rfl hopen,rfl,wrote_of_save hsave hsync (by simp)⟩

theorem update_spec (hp : updateStakedSupply fm supply accounts ⟨b,b⟩=.ok f) :
    Accepted h fm ⟨clock,accounts,.updateStakedSupply supply⟩ b f.view := by
  unfold updateStakedSupply at hp
  split at hp <;> simp only [steps_ok,loadGovernance_eq_ok] at hp
  rename_i governanceInfo _ _
  obtain ⟨-,-,_,hload,-,-,hsave⟩ := hp
  exact .supplied ⟨rfl,rfl,hload,wrote_of_save hsave hsync (by simp)⟩

end Handlers

theorem execute_spec (hx : (program h fm).execute c b=.ok b') : Accepted h fm c b b' := by
  obtain ⟨f,hp,hsync,rfl⟩ := Program.execute_eq_ok.mp hx
  obtain ⟨_,_,i⟩ := c
  cases i with
  | initializeGovernance _ supply => exact initialize_spec hsync hp
  | createProposal => exact create_spec hsync hp
  | castVote _ weight => exact cast_spec hsync hp
  | delegateVote _ weight => exact delegate_spec hsync hp
  | revokeDelegation => exact revoke_spec hsync hp
  | finalizeVoting => exact finalize_spec hsync hp
  | executeProposal => exact execute_proposal_spec hsync hp
  | vetoProposal => exact veto_spec hsync hp
  | cancelProposal => exact cancel_spec hsync hp
  | updateStakedSupply supply => exact update_spec hsync hp

section Proposals

variable {k : Pubkey}

theorem Created.proposalKey? (u : Created h fm c b b' kg k gov count p) :
    proposalKey? c=some k ∧ sideKey? c=some kg := by
  obtain ⟨_,_,_,hi⟩ := u.instruction
  simp [Governance.proposalKey?,sideKey?,hi,u.proposalKey,u.side]

theorem Voted.proposalKey? (u : Voted h fm c b b' k kv p p' r) :
    proposalKey? c=some k ∧ sideKey? c=some kv := by
  simp [Governance.proposalKey?,sideKey?,u.instruction,u.proposalKey,u.side]

theorem Moved.noSide (u : Moved h fm c b b' k p p') : sideKey? c=none := by
  have hkind := u.kind
  unfold sideKey?
  cases hi : c.instruction <;> rw [hi] at hkind <;> first | rfl | cases hkind

namespace Accepted

theorem owner_kept (u : Accepted h fm c b b') (k : Pubkey) : (b' k).owner=(b k).owner := by
  cases u with
  | initialized u => exact u.wrote.owner k
  | created u =>
    obtain ⟨b1,hw1,hw2⟩ := u.wrote
    exact (hw2.owner k).trans (hw1.owner k)
  | voted u =>
    obtain ⟨b1,hw1,hw2⟩ := u.wrote
    exact (hw2.owner k).trans (hw1.owner k)
  | moved u => exact u.wrote.owner k
  | delegated u => exact u.wrote.owner k
  | supplied u => exact u.wrote.owner k
  | idle _ _ hsame => rw [hsame]

/-- Where a proposal comes from: it was made by this instruction or was there before. Nothing of
another kind may have been written to its account. -/
theorem proposal_before (u : Accepted h fm c b b')
    (hside : sideKey? c=some k → proposalKey? c=some k)
    (hp' : cellAt fm.proposal h.programId b' k=some p') :
    (∃ kg gov count,Created h fm c b b' kg k gov count p') ∨
    ∃ p,cellAt fm.proposal h.programId b k=some p ∧ Next c k p p' := by
  cases u with
  | initialized u =>
    have hk : k≠_ := fun heq => by simpa [u.noProposal] using hside (heq ▸ u.side)
    rw [cellAt_congr (u.wrote.other hk)] at hp'
    exact .inr ⟨p',hp',.same (by simp [u.noProposal])⟩
  | @created kg kp gov count p u =>
    obtain ⟨b1,hw1,hw2⟩ := u.wrote
    obtain ⟨rfl,-,rfl⟩ | ⟨hne,hold⟩ := hw2.cell_before hp'
    · exact .inl ⟨_,_,_,u⟩
    · have hpass : Governance.proposalKey? c≠some k := by simp [u.proposalKey?.1,Ne.symm hne]
      have hkg : k≠kg := fun heq => hpass (hside (heq ▸ u.proposalKey?.2))
      rw [cellAt_congr (hw1.other hkg)] at hold
      exact .inr ⟨p',hold,.same hpass⟩
  | @voted kp kv p _ _ u =>
    obtain ⟨b1,hw1,hw2⟩ := u.wrote
    obtain ⟨rfl,howner,rfl⟩ | ⟨hne,hold⟩ := hw2.cell_before hp'
    · rw [hw1.owner] at howner
      exact .inr ⟨p,cellAt_eq_some.mpr ⟨howner,u.proposal⟩,
        .voted u.instruction u.proposalKey u.opened u.tallied⟩
    · have hpass : Governance.proposalKey? c≠some k := by simp [u.proposalKey?.1,Ne.symm hne]
      have hkv : k≠kv := fun heq => hpass (hside (heq ▸ u.proposalKey?.2))
      rw [cellAt_congr (hw1.other hkv)] at hold
      exact .inr ⟨p',hold,.same hpass⟩
  | moved u =>
    obtain ⟨rfl,howner,rfl⟩ | ⟨hne,hold⟩ := u.wrote.cell_before hp'
    · exact .inr ⟨_,cellAt_eq_some.mpr ⟨howner,u.proposal⟩,u.next⟩
    · exact .inr ⟨p',hold,.same (by simp [u.proposalKey,Ne.symm hne])⟩
  | delegated u =>
    have hk : k≠_ := fun heq => by simpa [u.noProposal] using hside (heq ▸ u.side)
    rw [cellAt_congr (u.wrote.other hk)] at hp'
    exact .inr ⟨p',hp',.same (by simp [u.noProposal])⟩
  | supplied u =>
    have hk : k≠_ := fun heq => by simpa [u.noProposal] using hside (heq ▸ u.side)
    rw [cellAt_congr (u.wrote.other hk)] at hp'
    exact .inr ⟨p',hp',.same (by simp [u.noProposal])⟩
  | idle hforeign _ hsame =>
    rw [hsame] at hp'
    exact .inr ⟨p',hp',.same fun hk => hforeign k hk (cellAt_eq_some.mp hp').1⟩

theorem voted_of_cast (u : Accepted h fm c b b') {choice : VoteChoice}
    (hi : c.instruction=.castVote choice weight) (hkey : c.key? 0=some k)
    (howner : (b k).owner=h.programId) : ∃ kv p p' r,Voted h fm c b b' k kv p p' r := by
  have hprop : Governance.proposalKey? c=some k := by simp [Governance.proposalKey?,hi,hkey]
  cases u with
  | initialized u => cases hprop.symm.trans u.noProposal
  | created u =>
    obtain ⟨_,_,_,hi'⟩ := u.instruction
    cases hi.symm.trans hi'
  | voted u =>
    cases hkey.symm.trans u.proposalKey
    exact ⟨_,_,_,_,u⟩
  | moved u => exact absurd (hi ▸ u.kind) (by simp [Instruction.moves])
  | delegated u => cases hprop.symm.trans u.noProposal
  | supplied u => cases hprop.symm.trans u.noProposal
  | idle hforeign => exact absurd howner (hforeign k hprop)

theorem moved_of_noSide (u : Accepted h fm c b b') (hside : sideKey? c=none)
    (hkey : Governance.proposalKey? c=some k) (howner : (b k).owner=h.programId) :
    ∃ p p',Moved h fm c b b' k p p' := by
  cases u with
  | initialized u => cases hside.symm.trans u.side
  | created u => cases hside.symm.trans u.proposalKey?.2
  | voted u => cases hside.symm.trans u.proposalKey?.2
  | moved u =>
    cases hkey.symm.trans u.proposalKey
    exact ⟨_,_,u⟩
  | delegated u => cases hside.symm.trans u.side
  | supplied u => cases hside.symm.trans u.side
  | idle hforeign => exact absurd howner (hforeign k hkey)

end Accepted
end Proposals
end PrismChain.Governance
