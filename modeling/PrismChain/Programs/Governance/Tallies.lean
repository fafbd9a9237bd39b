import PrismChain.Math.Aggregate
import PrismChain.Programs.Governance.Proposals

namespace PrismChain.Governance

open Aggregate Option Storage

def governanceKey? (c : Call Instruction) : Option Pubkey :=
  match c.instruction with
  | .initializeGovernance _ _ => c.key? 0
  | .createProposal _ _ _ => c.key? 0
  | .finalizeVoting => c.key? 1
  | .executeProposal => c.key? 1
  | .vetoProposal => c.key? 1
  | .updateStakedSupply _ => c.key? 0
  | _ => none

def inRealm (h : Host) : Bank → Call Instruction → Prop :=
  fun _ c => ∀ k,governanceKey? c=some k → k=(governancePda h).1

def countsFor (id : U64) (choice : VoteChoice) (r : VoteRecord) : Nat :=
  if r.proposalId=id ∧ r.choice=choice then r.weight.toNat else 0

def Issued (h : Host) (fm : Formats) (b : Bank) (i : U64) : Prop :=
  ∃ gov,cellAt fm.governance h.programId b (governancePda h).1=some gov ∧
    i.toNat<gov.proposalCount.toNat

/-- Every tally is the sum of the votes on record. -/
structure Books (h : Host) (fm : Formats) (b : Bank) : Prop where
  live : ∀ {gov},cellAt fm.governance h.programId b (governancePda h).1=some gov →
    gov.isInitialized=true
  placed : ∀ {k p},cellAt fm.proposal h.programId b k=some p → k=(proposalPda h p.id).1 ∧
    p.executionTime.toInt=p.votingEnd.toInt+executionDelaySecs.toInt ∧ Issued h fm b p.id
  /-- A vote on somebody else's account counts for nothing, but it leaves a record. -/
  filed : ∀ {j r},cellAt fm.voteRecord h.programId b j=some r →
    j=(voteRecordPda h r.proposalId r.voter).1 ∧ r.isInitialized=true ∧
      (r.weight=0#64 ∨ Issued h fm b r.proposalId)
  tallied : ∀ {k p},cellAt fm.proposal h.programId b k=some p → ∀ choice,
    (p.votes choice).toNat=sumOver (countsFor p.id choice) (cellAt fm.voteRecord h.programId b)

def Allowed (a b : ProposalStatus) : Prop :=
  b=a ∨ (a=.voting ∧ (b=.passed ∨ b=.defeated ∨ b=.cancelled)) ∨
    (a=.passed ∧ (b=.executed ∨ b=.vetoed))

structure Evolves (now : I64) (p p' : Proposal) : Prop where
  id : p'.id=p.id
  allowed : Allowed p.status p'.status
  frozen : p.status≠.voting → p'.votes=p.votes
  delayed :
    p'.status=.executed → p.status=.executed ∨ p.votingEnd.toInt+executionDelaySecs.toInt≤now.toInt

theorem Evolves.refl (now : I64) (p : Proposal) : Evolves now p p :=
  ⟨rfl,.inl rfl,fun _ => rfl,.inl⟩

section Steps

variable {fm : Formats}

theorem Next.id (hn : Next c k p p') : p'.id=p.id := by
  cases hn with
  | voted _ _ _ htally => exact (tally_spec htally).1.id
  | _ => rfl

theorem Next.timed (hn : Next c k p p')
    (hlock : p.executionTime.toInt=p.votingEnd.toInt+executionDelaySecs.toInt) :
    p'.executionTime.toInt=p'.votingEnd.toInt+executionDelaySecs.toInt := by
  cases hn with
  | voted _ _ _ htally =>
    rw [(tally_spec htally).1.executionTime,(tally_spec htally).1.votingEnd]
    exact hlock
  | _ => exact hlock

theorem Next.evolves (hn : Next c k p p')
    (hlock : p.executionTime.toInt=p.votingEnd.toInt+executionDelaySecs.toInt) :
    Evolves c.clock.unixTimestamp p p' := by
  cases hn with
  | same => exact .refl _ p
  | voted hi hkey hopen htally =>
    have hrest := (tally_spec htally).1
    refine ⟨hrest.id,.inl hrest.status,fun hclosed => absurd hopen hclosed,fun hx => ?_⟩
    exact .inl (hrest.status.symm.trans hx)
  | finalized hi hkey hopen _ hst =>
    refine ⟨rfl,.inr (.inl ⟨hopen,hst.imp_right .inl⟩),fun _ => rfl,?_⟩
    obtain rfl | rfl := hst <;> nofun
  | executed hi hpassed hdelay =>
    exact ⟨rfl,.inr (.inr ⟨hpassed,.inl rfl⟩),fun _ => rfl,fun _ => .inr (hlock ▸ hdelay)⟩
  | vetoed hi hpassed =>
    exact ⟨rfl,.inr (.inr ⟨hpassed,.inr rfl⟩),fun _ => rfl,nofun⟩
  | cancelled hi hopen =>
    exact ⟨rfl,.inr (.inl ⟨hopen,.inr (.inr rfl)⟩),fun _ => rfl,nofun⟩

theorem Created.realm (u : Created h fm c b b' kg k gov count p) (hok : inRealm h b c) :
    kg=(governancePda h).1 := by
  obtain ⟨_,_,_,hi⟩ := u.instruction
  exact hok kg (by simp [governanceKey?,hi,u.side])

variable (hfm : fm.Decoded)
include hfm

theorem Accepted.side_decoded (u : Accepted h fm c b b')
    (hp' : fm.proposal.load (b' k).data=some p')
    (hside : sideKey? c=some k) : proposalKey? c=some k := by
  by_contra hpass
  cases u with
  | initialized u =>
    cases hside.symm.trans u.side
    exact hfm.governanceProposal (u.wrote.loaded hfm.governance) hp'
  | @created _ kp _ _ p u =>
    cases hside.symm.trans u.proposalKey?.2
    obtain ⟨b1,hw1,hw2⟩ := u.wrote
    have hk : k≠kp := fun heq => hpass (heq ▸ u.proposalKey?.1)
    rw [hw2.other hk] at hp'
    exact hfm.governanceProposal (hw1.loaded hfm.governance) hp'
  | @voted kp _ p _ _ u =>
    cases hside.symm.trans u.proposalKey?.2
    obtain ⟨b1,hw1,hw2⟩ := u.wrote
    have hk : k≠kp := fun heq => hpass (heq ▸ u.proposalKey?.1)
    rw [hw2.other hk] at hp'
    exact hfm.proposalVote hp' (hw1.loaded hfm.voteRecord)
  | moved u => cases hside.symm.trans u.noSide
  | delegated u =>
    cases hside.symm.trans u.side
    exact hfm.proposalDelegation hp' (u.wrote.loaded hfm.delegation)
  | supplied u =>
    cases hside.symm.trans u.side
    exact hfm.governanceProposal (u.wrote.loaded hfm.governance) hp'
  | idle _ hone => exact hpass (hone ▸ hside)

theorem Created.governance_cell (u : Created h fm c b b' kg k gov count p) :
    cellAt fm.governance h.programId b kg=some gov := by
  obtain ⟨_,hw1,-⟩ := u.wrote
  have hne : {gov with proposalCount := count}≠gov := by
    intro heq
    have hsame : count=gov.proposalCount := congrArg GovernanceState.proposalCount heq
    have hcounted := u.counted
    rw [hsame] at hcounted
    omega
  exact cellAt_eq_some.mpr ⟨hw1.owned_of_ne hfm.governance u.governance hne,u.governance⟩

theorem Voted.record_owned (u : Voted h fm c b b' k kv p p' r) : (b kv).owner=h.programId := by
  obtain ⟨_,hw1,-⟩ := u.wrote
  by_contra hforeign
  have hload := hw1.loaded hfm.voteRecord
  rw [hw1.foreign hforeign] at hload
  cases (u.first hload).symm.trans u.live

theorem Voted.weightless (u : Voted h fm c b b' k kv p p' r) (hforeign : (b k).owner≠h.programId) :
    r.weight=0#64 := by
  obtain ⟨_,hw1,hw2⟩ := u.wrote
  have hk : k≠kv := fun heq => hforeign (heq ▸ u.record_owned hfm)
  have hload := hw2.loaded hfm.proposal
  rw [hw2.foreign (by rw [hw1.owner]; exact hforeign),hw1.other hk,u.proposal] at hload
  have hvotes := (tally_spec u.tallied).2 r.choice
  rw [← some.inj hload,if_pos rfl] at hvotes
  exact BitVec.eq_of_toNat_eq (by simpa using hvotes)

end Steps

section Records

variable {h : Host} {fm : Formats} {b : Bank}
variable (hfm : fm.Decoded)
include hfm

theorem Accepted.record_before (u : Accepted h fm c b b')
    (hr : cellAt fm.voteRecord h.programId b' j=some r) :
    (∃ k p p',Voted h fm c b b' k j p p' r) ∨ cellAt fm.voteRecord h.programId b j=some r := by
  cases u with
  | initialized u => exact .inr (u.wrote.other_kind_before hfm.governance hfm.governanceVote hr)
  | created u =>
    obtain ⟨b1,hw1,hw2⟩ := u.wrote
    exact .inr (hw1.other_kind_before hfm.governance hfm.governanceVote
      (hw2.other_kind_before hfm.proposal hfm.proposalVote hr))
  | voted u =>
    obtain ⟨b1,hw1,hw2⟩ := u.wrote
    obtain ⟨rfl,-,rfl⟩ | ⟨-,hold⟩ :=
      hw1.cell_before (hw2.other_kind_before hfm.proposal hfm.proposalVote hr)
    · exact .inl ⟨_,_,_,u⟩
    · exact .inr hold
  | moved u => exact .inr (u.wrote.other_kind_before hfm.proposal hfm.proposalVote hr)
  | delegated u =>
    exact .inr (u.wrote.other_kind_before hfm.delegation (Apart.symm hfm.voteDelegation) hr)
  | supplied u => exact .inr (u.wrote.other_kind_before hfm.governance hfm.governanceVote hr)
  | idle _ _ hsame => exact .inr (hsame ▸ hr)

variable (hsep : Separate h) (hb : Books h fm b)
include hsep hb

theorem Accepted.record_after (u : Accepted h fm c b b') (hok : inRealm h b c)
    (hr : cellAt fm.voteRecord h.programId b j=some r) :
    cellAt fm.voteRecord h.programId b' j=some r := by
  obtain ⟨hplace,hlive,-⟩ := hb.filed hr
  have hload := (cellAt_eq_some.mp hr).2
  have hgov {k : Pubkey} (hk : k=(governancePda h).1) : j≠k := by
    rw [hplace,hk]
    exact hsep.voteGovernance _ _
  have hproposal {k : Pubkey} {p : Proposal} (hp : fm.proposal.load (b k).data=some p) : j≠k := by
    rintro rfl
    exact hfm.proposalVote hp hload
  cases u with
  | initialized u => rw [cellAt_congr (u.wrote.other (hgov u.place)),hr]
  | @created _ kp gov _ p u =>
    obtain ⟨b1,hw1,hw2⟩ := u.wrote
    have hkg := hgov (u.realm hok)
    have hkp := hsep.proposalVote p.id r.proposalId r.voter
    rw [← u.place,← hplace] at hkp
    rw [cellAt_congr (hw2.other hkp.symm),cellAt_congr (hw1.other hkg),hr]
  | @voted kp kv p _ _ u =>
    obtain ⟨b1,hw1,hw2⟩ := u.wrote
    have hkv : j≠kv := by
      rintro rfl
      cases (u.first hload).symm.trans hlive
    rw [cellAt_congr (hw2.other (hproposal u.proposal)),cellAt_congr (hw1.other hkv),hr]
  | moved u => rw [cellAt_congr (u.wrote.other (hproposal u.proposal)),hr]
  | @delegated kd d u =>
    have hkd : j≠kd := by
      obtain ⟨o,ho⟩ | ⟨_,hd0⟩ := u.place
      · rw [hplace,ho]
        exact hsep.voteDelegation _ _ _
      · rintro rfl
        exact hfm.voteDelegation hload hd0
    rw [cellAt_congr (u.wrote.other hkd),hr]
  | @supplied k gov _ u =>
    have hk : j≠k := by
      rintro rfl
      exact hfm.governanceVote u.governance hload
    rw [cellAt_congr (u.wrote.other hk),hr]
  | idle _ _ hsame => rw [hsame,hr]

theorem Accepted.issued (u : Accepted h fm c b b') (hok : inRealm h b c) (hi : Issued h fm b i) :
    Issued h fm b' i := by
  obtain ⟨gov,hgov,hlt⟩ := hi
  obtain ⟨howner,hload⟩ := cellAt_eq_some.mp hgov
  have hkept (heq : b' (governancePda h).1=b (governancePda h).1) : Issued h fm b' i :=
    ⟨gov,by rw [cellAt_congr heq,hgov],hlt⟩
  have hproposal {k : Pubkey} {p : Proposal} (hp : fm.proposal.load (b k).data=some p) :
      (governancePda h).1≠k := by
    intro heq
    rw [← heq] at hp
    exact hfm.governanceProposal hload hp
  cases u with
  | initialized u =>
    obtain rfl := u.place
    cases (u.fresh hload).symm.trans (hb.live hgov)
  | @created _ kp gov0 _ p u =>
    obtain ⟨b1,hw1,hw2⟩ := u.wrote
    obtain rfl := u.realm hok
    cases hload.symm.trans u.governance
    have hkp := hsep.proposalGovernance p.id
    rw [← u.place] at hkp
    refine ⟨_,(cellAt_congr (hw2.other hkp.symm)).trans (hw1.cell hfm.governance howner),?_⟩
    have hcounted := u.counted
    dsimp only
    omega
  | @voted kp _ p _ r u =>
    obtain ⟨b1,hw1,hw2⟩ := u.wrote
    have hkv := hsep.voteGovernance r.proposalId r.voter
    rw [← u.place] at hkv
    exact hkept ((hw2.other (hproposal u.proposal)).trans (hw1.other hkv.symm))
  | moved u => exact hkept (u.wrote.other (hproposal u.proposal))
  | @delegated _ _ u =>
    refine hkept (u.wrote.other ?_)
    obtain ⟨o,ho⟩ | ⟨_,hd0⟩ := u.place
    · rw [ho]
      exact hsep.governanceDelegation o
    · rintro rfl
      exact hfm.governanceDelegation hload hd0
  | @supplied k gov0 _ u =>
    by_cases hk : (governancePda h).1=k
    · subst hk
      cases hload.symm.trans u.governance
      exact ⟨_,u.wrote.cell hfm.governance howner,hlt⟩
    · exact hkept (u.wrote.other hk)
  | idle _ _ hsame => exact hkept (by rw [hsame])

theorem Accepted.records_kept (u : Accepted h fm c b b') (hok : inRealm h b c)
    (hno : ∀ k j p p' r,¬Voted h fm c b b' k j p p' r) (j : Pubkey) :
    cellAt fm.voteRecord h.programId b' j=cellAt fm.voteRecord h.programId b j := by
  cases hr : cellAt fm.voteRecord h.programId b j with
  | some r => exact u.record_after hfm hsep hb hok hr
  | none =>
    cases hr' : cellAt fm.voteRecord h.programId b' j with
    | none => rfl
    | some r' =>
      obtain ⟨k,p,p',v⟩ | hold := u.record_before hfm hr'
      · exact absurd v (hno k j p p' r')
      · cases hr.symm.trans hold

theorem Voted.records (u : Voted h fm c b b' k kv p p' r) (g : VoteRecord → Nat) :
    sumOver g (cellAt fm.voteRecord h.programId b')=
      sumOver g (cellAt fm.voteRecord h.programId b)+g r := by
  obtain ⟨_,hw1,hw2⟩ := u.wrote
  have hnone : cellAt fm.voteRecord h.programId b kv=none := by
    cases hr : cellAt fm.voteRecord h.programId b kv with
    | none => rfl
    | some r0 =>
      cases (u.first (cellAt_eq_some.mp hr).2).symm.trans (hb.filed hr).2.1
  -- the proposal is written last, but not over the record
  have hkv : kv≠k := by
    rintro rfl
    have hp : cellAt fm.proposal h.programId b kv=some p :=
      cellAt_eq_some.mpr ⟨u.record_owned hfm,u.proposal⟩
    exact hsep.proposalVote _ _ _ ((hb.placed hp).1.symm.trans u.place)
  refine sumOver_insert hnone ?_ fun j hj => ?_
  · rw [cellAt_congr (hw2.other hkv)]
    exact hw1.cell hfm.voteRecord (u.record_owned hfm)
  by_cases hk : j=k
  · subst hk
    have hload := hw2.loaded hfm.proposal
    have hbefore : cellAt fm.voteRecord h.programId b j=none := by
      cases hr : cellAt fm.voteRecord h.programId b j with
      | none => rfl
      | some r0 => exact (hfm.proposalVote u.proposal (cellAt_eq_some.mp hr).2).elim
    have hafter : cellAt fm.voteRecord h.programId b' j=none := by
      cases hr : cellAt fm.voteRecord h.programId b' j with
      | none => rfl
      | some r0 => exact (hfm.proposalVote hload (cellAt_eq_some.mp hr).2).elim
    rw [hbefore,hafter]
  · rw [cellAt_congr (hw2.other hk),cellAt_congr (hw1.other hj)]

end Records

section Bookkeeping

variable {h : Host} {fm : Formats} {b : Bank}
variable (hfm : fm.Decoded)
include hfm

theorem Created.issued (u : Created h fm c b b' kg k gov count p) (hsep : Separate h)
    (hok : inRealm h b c) : Issued h fm b' p.id := by
  obtain ⟨_,hw1,hw2⟩ := u.wrote
  have hgov := u.governance_cell hfm
  have hcounted := u.counted
  obtain rfl := u.realm hok
  have hkp := hsep.proposalGovernance p.id
  rw [← u.place] at hkp
  refine ⟨_,(cellAt_congr (hw2.other hkp.symm)).trans
    (hw1.cell hfm.governance (cellAt_eq_some.mp hgov).1),?_⟩
  rw [u.number]
  dsimp only
  omega

variable (hb : Books h fm b)
include hb

theorem Accepted.live (u : Accepted h fm c b b')
    (hgov' : cellAt fm.governance h.programId b' (governancePda h).1=some gov') :
    gov'.isInitialized=true := by
  have hap : fm.proposal.Apart fm.governance := Apart.symm hfm.governanceProposal
  cases u with
  | initialized u =>
    obtain ⟨-,-,rfl⟩ | ⟨-,hold⟩ := u.wrote.cell_before hgov'
    · exact u.live
    · exact hb.live hold
  | @created _ _ gov _ _ u =>
    obtain ⟨b1,hw1,hw2⟩ := u.wrote
    obtain ⟨hkey,-,rfl⟩ | ⟨-,hold⟩ :=
      hw1.cell_before (hw2.other_kind_before hfm.proposal hap hgov')
    · have hgov := u.governance_cell hfm
      rw [← hkey] at hgov
      have hlive : gov.isInitialized=true := hb.live hgov
      exact hlive
    · exact hb.live hold
  | voted u =>
    obtain ⟨b1,hw1,hw2⟩ := u.wrote
    exact hb.live (hw1.other_kind_before hfm.voteRecord (Apart.symm hfm.governanceVote)
      (hw2.other_kind_before hfm.proposal hap hgov'))
  | moved u => exact hb.live (u.wrote.other_kind_before hfm.proposal hap hgov')
  | delegated u =>
    exact hb.live
      (u.wrote.other_kind_before hfm.delegation (Apart.symm hfm.governanceDelegation) hgov')
  | @supplied k gov _ u =>
    obtain ⟨hkey,howner,rfl⟩ | ⟨-,hold⟩ := u.wrote.cell_before hgov'
    · have hgov : cellAt fm.governance h.programId b k=some gov :=
        cellAt_eq_some.mpr ⟨howner,u.governance⟩
      rw [← hkey] at hgov
      have hlive : gov.isInitialized=true := hb.live hgov
      exact hlive
    · exact hb.live hold
  | idle _ _ hsame => exact hb.live (hsame ▸ hgov')

theorem Created.unvoted_before (u : Created h fm c b b' kg k gov count p) (hok : inRealm h b c)
    (choice : VoteChoice) :
    sumOver (countsFor p.id choice) (cellAt fm.voteRecord h.programId b)=0 := by
  refine sumOver_zero fun j r hr => ?_
  unfold countsFor
  split
  case isFalse => rfl
  rename_i hcounts
  obtain hzero | ⟨_,hgov0,hlt⟩ := (hb.filed hr).2.2
  · rw [hzero]
    rfl
  have hgov := u.governance_cell hfm
  rw [u.realm hok] at hgov
  cases hgov.symm.trans hgov0
  rw [hcounts.1,u.number] at hlt
  omega

theorem Voted.uncounted (u : Voted h fm c b b' k kv p0 p' r)
    (hp : cellAt fm.proposal h.programId b j=some p) (hj : j≠k) (choice : VoteChoice) :
    countsFor p.id choice r=0 := by
  unfold countsFor
  split
  case isFalse => rfl
  rename_i hcounts
  by_cases howner : (b k).owner=h.programId
  · have hplace := (hb.placed (cellAt_eq_some.mpr ⟨howner,u.proposal⟩)).1
    rw [← u.about,hcounts.1,← (hb.placed hp).1] at hplace
    exact absurd hplace.symm hj
  · rw [u.weightless hfm howner]
    rfl

theorem Accepted.tallied (u : Accepted h fm c b b') (hsep : Separate h) (hok : inRealm h b c)
    (hp' : cellAt fm.proposal h.programId b' k=some p') (choice : VoteChoice) :
    (p'.votes choice).toNat=
    sumOver (countsFor p'.id choice) (cellAt fm.voteRecord h.programId b') := by
  have hbefore := u.proposal_before (u.side_decoded hfm (cellAt_eq_some.mp hp').2) hp'
  by_cases hvoted : ∃ k j p p' r,Voted h fm c b b' k j p p' r
  · obtain ⟨kp,_,p0,p1,r,v⟩ := hvoted
    rw [v.records hfm hsep hb]
    obtain ⟨_,_,_,w⟩ | ⟨p,hp,hn⟩ := hbefore
    · obtain ⟨_,_,_,hi⟩ := w.instruction
      cases hi.symm.trans v.instruction
    have htallied := hb.tallied hp choice
    rw [hn.id,← htallied]
    by_cases hk : k=kp
    · subst hk
      obtain ⟨b1,hw1,hw2⟩ := v.wrote
      obtain rfl := hw2.read (cellAt_eq_some.mp hp').2
      cases (cellAt_eq_some.mp hp).2.symm.trans v.proposal
      rw [(tally_spec v.tallied).2 choice]
      simp [countsFor,v.about,eq_comm]
    · rw [v.uncounted hfm hb hp hk]
      obtain ⟨b1,hw1,hw2⟩ := v.wrote
      cases hn with
      | same => rfl
      | voted hi hkey => exact absurd (some.inj (hkey.symm.trans v.proposalKey)) hk
      | _ => rfl
  · rw [sumOver_congr (u.records_kept hfm hsep hb hok fun k j p p' r hv =>
      hvoted ⟨k,j,p,p',r,hv⟩)]
    obtain ⟨_,_,_,w⟩ | ⟨p,hp,hn⟩ := hbefore
    · rw [w.unvoted choice,w.unvoted_before hfm hb hok]
      rfl
    rw [hn.id,← hb.tallied hp choice]
    cases hn with
    | same => rfl
    | voted hi hkey =>
      obtain ⟨j,p0,p1,r,v⟩ := u.voted_of_cast hi hkey (cellAt_eq_some.mp hp).1
      exact absurd ⟨k,j,p0,p1,r,v⟩ hvoted
    | _ => rfl

theorem Books.accepted (u : Accepted h fm c b b') (hsep : Separate h) (hok : inRealm h b c) :
    Books h fm b' where
  live := u.live hfm hb
  placed := by
    intro k p' hp'
    have hbefore := u.proposal_before (u.side_decoded hfm (cellAt_eq_some.mp hp').2) hp'
    obtain ⟨_,_,_,v⟩ | ⟨p,hp,hn⟩ := hbefore
    · exact ⟨v.place,v.locked,v.issued hfm hsep hok⟩
    · obtain ⟨hplace,hlock,hissued⟩ := hb.placed hp
      rw [hn.id]
      exact ⟨hplace,hn.timed hlock,u.issued hfm hsep hb hok hissued⟩
  filed := by
    intro j r hr
    obtain ⟨k,p,p',v⟩ | hold := u.record_before hfm hr
    · refine ⟨v.place,v.live,?_⟩
      by_cases howner : (b k).owner=h.programId
      · have hissued := (hb.placed (cellAt_eq_some.mpr ⟨howner,v.proposal⟩)).2.2
        rw [v.about]
        exact .inr (u.issued hfm hsep hb hok hissued)
      · exact .inl (v.weightless hfm howner)
    · obtain ⟨hplace,hlive,hweight⟩ := hb.filed hold
      exact ⟨hplace,hlive,hweight.imp_right (u.issued hfm hsep hb hok)⟩
  tallied := fun hp' choice => u.tallied hfm hb hsep hok hp' choice

theorem Accepted.proposal_after (u : Accepted h fm c b b') (hsep : Separate h)
    (hok : inRealm h b c) (hp : cellAt fm.proposal h.programId b k=some p) :
    ∃ p',cellAt fm.proposal h.programId b' k=some p' ∧ Next c k p p' := by
  obtain ⟨hplace,-,_,hgov0,hlt⟩ := hb.placed hp
  obtain ⟨howner,hload⟩ := cellAt_eq_some.mp hp
  -- a new proposal has another number and so another address
  have hnew {kg kp : Pubkey} {gov : GovernanceState} {count : U64} {p1 : Proposal}
      (v : Created h fm c b b' kg kp gov count p1) : k≠kp := by
    rintro rfl
    have hgov := v.governance_cell hfm
    rw [v.realm hok] at hgov
    cases hgov.symm.trans hgov0
    have hid := hsep.numbered _ _ (hplace.symm.trans v.place)
    rw [hid,v.number] at hlt
    omega
  suffices hthere : ∃ p',cellAt fm.proposal h.programId b' k=some p' by
    obtain ⟨p',hp'⟩ := hthere
    obtain ⟨_,_,_,v⟩ | ⟨p0,hp0,hn⟩ :=
      u.proposal_before (u.side_decoded hfm (cellAt_eq_some.mp hp').2) hp'
    · exact absurd rfl (hnew v)
    · cases hp.symm.trans hp0
      exact ⟨p',hp',hn⟩
  have hgov {j : Pubkey} (hj : j=(governancePda h).1) : k≠j := by
    rw [hplace,hj]
    exact hsep.proposalGovernance _
  cases u with
  | initialized v => exact ⟨p,by rw [cellAt_congr (v.wrote.other (hgov v.place)),hp]⟩
  | created v =>
    obtain ⟨b1,hw1,hw2⟩ := v.wrote
    exact ⟨p,by
      rw [cellAt_congr (hw2.other (hnew v)),cellAt_congr (hw1.other (hgov (v.realm hok))),hp]⟩
  | @voted kp kv p0 p1 r v =>
    obtain ⟨b1,hw1,hw2⟩ := v.wrote
    by_cases hk : k=kp
    · subst hk
      exact ⟨p1,hw2.cell hfm.proposal ((hw1.owner k).trans howner)⟩
    · have hkv : k≠kv := by
        rw [hplace,v.place]
        exact hsep.proposalVote _ _ _
      exact ⟨p,by rw [cellAt_congr (hw2.other hk),cellAt_congr (hw1.other hkv),hp]⟩
  | @moved kp p0 p1 v =>
    by_cases hk : k=kp
    · subst hk
      exact ⟨p1,v.wrote.cell hfm.proposal howner⟩
    · exact ⟨p,by rw [cellAt_congr (v.wrote.other hk),hp]⟩
  | @delegated kd d v =>
    have hkd : k≠kd := by
      obtain ⟨o,ho⟩ | ⟨_,hd0⟩ := v.place
      · rw [hplace,ho]
        exact hsep.proposalDelegation _ _
      · rintro rfl
        exact hfm.proposalDelegation hload hd0
    exact ⟨p,by rw [cellAt_congr (v.wrote.other hkd),hp]⟩
  | @supplied kg gov _ v =>
    have hkg : k≠kg := by
      rintro rfl
      exact hfm.governanceProposal v.governance hload
    exact ⟨p,by rw [cellAt_congr (v.wrote.other hkg),hp]⟩
  | idle _ _ hsame => exact ⟨p,hsame ▸ hp⟩

end Bookkeeping

section Runs

variable {h : Host} {fm : Formats} {s u : Ledger}
variable (hfm : fm.Decoded) (hsep : Separate h)
include hfm

theorem books_start (h0 : Untouched h.programId s.bank) : Books h fm s.bank where
  live := by
    intro gov hgov
    rw [Untouched.cells hfm.governance h0] at hgov
    cases hgov
  placed := by
    intro k p hp
    rw [Untouched.cells hfm.proposal h0] at hp
    cases hp
  filed := by
    intro j r hr
    rw [Untouched.cells hfm.voteRecord h0] at hr
    cases hr
  tallied := by
    intro k p hp
    rw [Untouched.cells hfm.proposal h0] at hp
    cases hp

theorem Books.outside {b b' : Bank} (hb : Books h fm b) (hout : Outside h.programId b b') :
    Books h fm b' := by
  have hgov (k : Pubkey) := Outside.cells hfm.governance hout k
  have hproposal (k : Pubkey) := Outside.cells hfm.proposal hout k
  have hrecord (k : Pubkey) := Outside.cells hfm.voteRecord hout k
  have hissued {i : U64} (hi : Issued h fm b i) : Issued h fm b' i := by
    obtain ⟨gov,hcell,hlt⟩ := hi
    exact ⟨gov,(hgov _).trans hcell,hlt⟩
  refine ⟨?_,?_,?_,?_⟩
  · intro gov hcell
    exact hb.live ((hgov _).symm.trans hcell)
  · intro k p hp
    obtain ⟨hplace,hlock,hi⟩ := hb.placed ((hproposal k).symm.trans hp)
    exact ⟨hplace,hlock,hissued hi⟩
  · intro j r hr
    obtain ⟨hplace,hlive,hweight⟩ := hb.filed ((hrecord j).symm.trans hr)
    exact ⟨hplace,hlive,hweight.imp_right hissued⟩
  · intro k p hp choice
    rw [sumOver_congr hrecord]
    exact hb.tallied ((hproposal k).symm.trans hp) choice

include hsep

theorem Books.step (hb : Books h fm s.bank) (hstep : (program h fm).Step (inRealm h) s a t) :
    Books h fm t.bank := by
  cases hstep with
  | call hclock hok hx => exact Books.accepted hfm hb (execute_spec hx) hsep hok
  | outside hclock hout => exact hb.outside hfm hout

theorem Books.evolves (hb : Books h fm s.bank) (hstep : (program h fm).Step (inRealm h) s a t)
    (hp : cellAt fm.proposal h.programId s.bank k=some p) :
    ∃ p',cellAt fm.proposal h.programId t.bank k=some p' ∧ Evolves t.clock.unixTimestamp p p' := by
  cases hstep with
  | call hclock hok hx =>
    obtain ⟨p',hp',hn⟩ := (execute_spec hx).proposal_after hfm hb hsep hok hp
    exact ⟨p',hp',hn.evolves (hb.placed hp).2.1⟩
  | outside hclock hout => exact ⟨p,(Outside.cells hfm.proposal hout k).trans hp,.refl _ p⟩

theorem Books.frozen (hb : Books h fm s.bank) (hrun : Run ((program h fm).Step (inRealm h)) s tr t)
    (hp : cellAt fm.proposal h.programId s.bank k=some p) (hclosed : p.status≠.voting) :
    ∃ p',cellAt fm.proposal h.programId t.bank k=some p' ∧ p'.status≠.voting ∧
      p'.votes=p.votes := by
  have hall : Books h fm t.bank ∧ ∃ p',cellAt fm.proposal h.programId t.bank k=some p' ∧
      p'.status≠.voting ∧ p'.votes=p.votes := by
    refine Run.invariant (I := fun t => Books h fm t.bank ∧
      ∃ p',cellAt fm.proposal h.programId t.bank k=some p' ∧ p'.status≠.voting ∧ p'.votes=p.votes)
      ⟨hb,p,hp,hclosed,rfl⟩ ?_ hrun
    intro t a u ⟨hbt,p1,hp1,hclosed1,hvotes⟩ hstep
    obtain ⟨p2,hp2,he⟩ := hbt.evolves hfm hsep hstep hp1
    refine ⟨hbt.step hfm hsep hstep,p2,hp2,?_,(he.frozen hclosed1).trans hvotes⟩
    obtain hsame | ⟨hopen,-⟩ | ⟨-,hend | hend⟩ := he.allowed
    · rw [hsame]
      exact hclosed1
    · exact absurd hopen hclosed1
    · rw [hend]
      nofun
    · rw [hend]
      nofun
  exact hall.2

end Runs

/-- In every state that a run on the one governance account can reach, the three tallies of every
proposal are what its records say, a voter has one record for it, and what happens to it from there
on, in one step or in many, is what its life cycle allows. -/
theorem tallies_and_life_cycle {h : Host} {fm : Formats} (hfm : fm.Decoded) (hsep : Separate h)
    {s t : Ledger} {tr : Trace Instruction} (h0 : Untouched h.programId s.bank)
    (hrun : Run ((program h fm).Step (inRealm h)) s tr t) :
    (∀ {k p},cellAt fm.proposal h.programId t.bank k=some p → ∀ choice,(p.votes choice).toNat=
        sumOver (countsFor p.id choice) (cellAt fm.voteRecord h.programId t.bank)) ∧
    (∀ {j j' r r'},cellAt fm.voteRecord h.programId t.bank j=some r →
      cellAt fm.voteRecord h.programId t.bank j'=some r' →
      r.proposalId=r'.proposalId → r.voter=r'.voter → j=j') ∧
    (∀ {a u k p},(program h fm).Step (inRealm h) t a u →
    cellAt fm.proposal h.programId t.bank k=some p →
      ∃ p',cellAt fm.proposal h.programId u.bank k=some p' ∧ Evolves u.clock.unixTimestamp p p') ∧
    (∀ {tr' u k p},Run ((program h fm).Step (inRealm h)) t tr' u →
      cellAt fm.proposal h.programId t.bank k=some p → p.status≠.voting →
      ∃ p',cellAt fm.proposal h.programId u.bank k=some p' ∧ p'.status≠.voting ∧
        p'.votes=p.votes) := by
  have hbooks : Books h fm t.bank := Run.invariant (I := fun l => Books h fm l.bank)
    (books_start hfm h0) (fun hb he => hb.step hfm hsep he) hrun
  refine ⟨hbooks.tallied,?_,hbooks.evolves hfm hsep,hbooks.frozen hfm hsep⟩
  intro j j' r r' hr hr' hid hvoter
  rw [(hbooks.filed hr).1,(hbooks.filed hr').1,hid,hvoter]

theorem executed_tally : ∃ tr t p,
    Run ((program sampleHost .values).Step (inRealm sampleHost)) sampleStart tr t ∧
    cellAt Formats.values.proposal 100#256 t.bank 1#256=some p ∧ p.status=.executed ∧
    sumOver (countsFor p.id .for_) (cellAt Formats.values.voteRecord 100#256 t.bank)=1000 := by
  obtain ⟨⟨tr,t⟩,hhistory,p,hp,hstatus,hvotes⟩ :
      ∃ x,(program sampleHost .values).history promptCalls sampleStart=some x ∧
      ∃ p,cellAt Formats.values.proposal 100#256 x.2.bank 1#256=some p ∧ p.status=.executed ∧
      p.votesFor.toNat=1000 := by decide +kernel
  have hrealm : ∀ c∈promptCalls,(governanceKey? c).all (·==8#256) := by decide
  have hrun : Run ((program sampleHost .values).Step (inRealm sampleHost)) sampleStart tr t := by
    refine Program.history_run_calls hhistory fun c hc b k hk => ?_
    have hkey := hrealm c hc
    rw [hk] at hkey
    exact beq_iff_eq.mp hkey
  have h0 : Untouched 100#256 sampleStart.bank := by
    intro k howner
    change (sampleBank k).owner=_ at howner
    change ∀ x∈(sampleBank k).data,_
    unfold sampleBank at howner ⊢
    split_ifs at howner ⊢
    all_goals first | exact fun x hx => List.eq_of_mem_replicate hx | exact nofun
  have htally :=
    (tallies_and_life_cycle Formats.values_decoded sampleHost_separate h0 hrun).1 hp .for_
  exact ⟨tr,t,p,hrun,hp,hstatus,htally.symm.trans hvotes⟩

end PrismChain.Governance
