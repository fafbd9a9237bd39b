import PrismChain.Programs.Governance.Proposals

namespace PrismChain.Governance

open Option List Program

def Proposal.totalVotes (p : Proposal) : Nat :=
  p.votesFor.toNat+p.votesAgainst.toNat+p.votesAbstain.toNat

def weightOn (k : Pubkey) (x : LogEntry Instruction) : Nat :=
  match x.label with
  | .outside => 0
  | .call c =>
    match c.instruction with
    | .castVote _ weight => if c.key? 0=some k then weight.toNat else 0
    | _ => 0

def stakeOn (k : Pubkey) (x : LogEntry Instruction) : Nat :=
  match x.label with
  | .outside => 0
  | .call c =>
    match c.instruction with
    | .castVote _ _ =>
      if c.key? 0=some k then (c.key? 3).elim 0 fun a => (x.pre.bank a).lamports.toNat else 0
    | _ => 0

section Steps

variable {x : LogEntry Instruction}

theorem weightOn_vote {choice : VoteChoice} (hlabel : x.label=.call c)
    (hi : c.instruction=.castVote choice weight) (hkey : c.key? 0=some k) :
    weightOn k x=weight.toNat := by
  simp [weightOn,hlabel,hi,hkey]

theorem weightOn_other (hlabel : x.label=.call c)
    (hother : ∀ choice weight,c.instruction=.castVote choice weight → c.key? 0≠some k) :
    weightOn k x=0 := by
  unfold weightOn
  rw [hlabel]
  dsimp only
  split
  case h_1 choice weight hi => exact if_neg (hother choice weight hi)
  case h_2 => rfl

theorem totalVotes_tally {choice : VoteChoice} (ht : tally p choice weight=some p') :
    p'.totalVotes=p.totalVotes+weight.toNat := by
  have hvotes := (tally_spec ht).2
  have hfor := hvotes .for_
  have hagainst := hvotes .against
  have habstain := hvotes .abstain
  simp only [Proposal.votes] at hfor hagainst habstain
  unfold Proposal.totalVotes
  cases choice <;> simp only [reduceCtorEq,if_true,if_false] at hfor hagainst habstain <;> omega

theorem Moves.totalVotes (hm : Moves x k p p') : p'.totalVotes=p.totalVotes+weightOn k x := by
  cases hm with
  | outside hlabel => simp [weightOn,hlabel]
  | @call _ _ hlabel _ hn =>
    cases hn with
    | voted hi hkey _ htally => rw [weightOn_vote hlabel hi hkey,totalVotes_tally htally]
    | same hpass =>
      rw [weightOn_other hlabel fun _ _ hi hkey => hpass (by simp [proposalKey?,hi,hkey])]
      rfl
    | finalized hi => rw [weightOn_other hlabel (by simp [hi])]; rfl
    | executed hi => rw [weightOn_other hlabel (by simp [hi])]; rfl
    | vetoed hi => rw [weightOn_other hlabel (by simp [hi])]; rfl
    | cancelled hi => rw [weightOn_other hlabel (by simp [hi])]; rfl

end Steps

/-- The votes of a proposal are what was cast on it; if nobody casts more than the stake account
that comes with the vote has, they are covered by these accounts. -/
theorem votes_within_stake {h : Host} {fm : Formats} (hsep : Separate h) {s u t : Ledger}
    {c : Call Instruction} {k : Pubkey} {tr : Trace Instruction} {p : Proposal}
    (hmade : (program h fm).Step anyCall s (.call c) u) (hc : Creates c k)
    (howner : (s.bank k).owner=h.programId)
    (hrun : Run ((program h fm).Step anyCall) u tr t) (hno : Undisturbed fm k tr)
    (hp : cellAt fm.proposal h.programId t.bank k=some p) :
    p.totalVotes=total (weightOn k) tr ∧
      ((∀ x∈tr,weightOn k x≤ stakeOn k x) → p.totalVotes≤total (stakeOn k) tr) := by
  have hcast : p.totalVotes=total (weightOn k) tr := by
    refine proposal_history (I := fun tr p => p.totalVotes=total (weightOn k) tr) hsep hmade hc
      howner ?_ ?_ hrun hno hp
    · intro kg gov count p₀ hcreated
      have hfor := hcreated.unvoted .for_
      have hagainst := hcreated.unvoted .against
      have habstain := hcreated.unvoted .abstain
      simp only [Proposal.votes] at hfor hagainst habstain
      simp [Proposal.totalVotes,hfor,hagainst,habstain]
    · intro tr x p₀ p₁ hi _ _ hm
      rw [hm.totalVotes,total_append_one,hi]
  refine ⟨hcast,fun hbacked => ?_⟩
  rw [hcast]
  exact total_le hbacked

theorem modest_vote_within_stake : ∃ (tr : Trace Instruction) (p : Proposal),
    p.totalVotes=total (weightOn 1#256) tr ∧ p.totalVotes=5 ∧
    p.totalVotes≤total (stakeOn 1#256) tr := by
  obtain ⟨⟨_,t⟩,hhistory,hall,p,hp,hfive⟩ : ∃ x,(program sampleHost .borsh).history
      [initializeCall,createCall,voteCall 5#64] sampleStart=some x ∧
      (∀ y∈x.1,Plain .borsh 1#256 y.pre.bank ∧ weightOn 1#256 y≤ stakeOn 1#256 y) ∧
      ∃ p,cellAt Formats.borsh.proposal 100#256 x.2.bank 1#256=some p ∧ p.totalVotes=5 := by
    decide +kernel
  obtain ⟨b₁,_,hx₁,-,hrest₁,rfl⟩ := history_cons hhistory
  obtain ⟨b₂,tr,hx₂,hclock₂,hrest₂,rfl⟩ := history_cons hrest₁
  have hchecked (y) (hy : y∈tr) := hall y (mem_cons_of_mem _ (mem_cons_of_mem _ hy))
  have hmade : (program sampleHost .borsh).Step anyCall ⟨b₁,⟨1#64,10#64⟩⟩
      (.call createCall) ⟨b₂,⟨1#64,100#64⟩⟩ := .call hclock₂ trivial hx₂
  have howner : (b₁ 1#256).owner=100#256 := (execute_spec hx₁).owner_kept 1#256
  obtain ⟨hcast,hbacked⟩ := votes_within_stake sampleHost_separate hmade ⟨rfl,rfl⟩ howner
    (history_anyCall hrest₂)
    (undisturbed_history hrest₂ (by decide) fun y hy => (hchecked y hy).1) hp
  exact ⟨tr,p,hcast,hfive,hbacked fun y hy => (hchecked y hy).2⟩

/-- One voter, whose stake account has five lamports, casts a thousand votes. -/
theorem weight_without_stake : ∃ tr t p,
    Run ((program sampleHost .borsh).Step anyCall) sampleStart tr t ∧
    cellAt Formats.borsh.proposal 100#256 t.bank 1#256=some p ∧
    p.totalVotes=1000 ∧ total (stakeOn 1#256) tr=5 := by
  simp only [exists_and_left]
  exact exists_run_any [initializeCall,createCall,voteCall 1000#64] (by decide +kernel)

end PrismChain.Governance
