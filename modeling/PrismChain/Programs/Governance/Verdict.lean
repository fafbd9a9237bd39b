import PrismChain.Programs.Governance.Weights

namespace PrismChain.Governance

open FixedWidth Option Program BitVec

/-- The products with the two constants fit, where they are computed: the supermajority is asked
only of an emergency proposal that reaches the quorum. -/
def Countable (p : Proposal) (supply : U64) : Prop :=
  supply.toNat*1000<2^64 ∧ (p.isEmergency=true → supply.toNat*1000/10000≤p.totalVotes →
    (p.votesFor.toNat+p.votesAgainst.toNat)*6667<2^64)

/-- Where the floored threshold is two thirds of the decisive votes or more. -/
def Decisive (votes : Nat) : Prop :=
  0<votes ∧ (votes%3=0 ∨ votes%3=1 ∧ 10000≤votes ∨ 20000≤votes)

section Verdicts

variable {h : Host} {fm : Formats} {f f' : Frame} {p p' : Proposal} {supply : U64}

theorem totalVotes_lt_of_outcome (hx : outcome p supply=some st) : p.totalVotes<2^64 := by
  simp only [outcome,bind_eq_bind,bind_eq_some_iff,checkedAdd_eq_some] at hx
  obtain ⟨d,hd,total,htotal,-⟩ := hx
  rw [Proposal.totalVotes,← hd,← htotal]
  exact total.isLt

theorem portion_some {a r : U64} (hfits : a.toNat*r.toNat<2^64) : ∃ q : U64,
    (checkedMul a r).bind (checkedDiv · 10000#64)=some q ∧ q.toNat=a.toNat*r.toNat/10000 := by
  obtain ⟨product,hproduct⟩ := exists_toNat hfits
  refine ⟨product/10000#64,?_,by rw [toNat_udiv,hproduct]; rfl⟩
  rw [checkedMul_eq_some.mpr hproduct,bind_some,checkedDiv,if_neg (by decide)]

theorem portion_none {a r : U64} (hfits : ¬a.toNat*r.toNat<2^64) :
    (checkedMul a r).bind (checkedDiv · 10000#64)=none := by
  rw [checkedMul,if_neg hfits,bind_none]

/-- The verdict over the unbounded integers. -/
theorem outcome_eq (hvotes : p.totalVotes<2^64) : outcome p supply=
    if supply.toNat*1000<2^64 then
      if p.totalVotes< supply.toNat*1000/10000 then some .defeated
      else if p.isEmergency=true then
        if (p.votesFor.toNat+p.votesAgainst.toNat)*6667<2^64 then
          some (if (p.votesFor.toNat+p.votesAgainst.toNat)*6667/10000≤p.votesFor.toNat then .passed
            else .defeated)
        else none
      else some (if p.votesAgainst.toNat<p.votesFor.toNat then .passed else .defeated)
    else none := by
  obtain ⟨d,hd⟩ := exists_toNat (w := 64) (Nat.lt_of_le_of_lt (Nat.le_add_right _ _) hvotes)
  obtain ⟨total,htotal⟩ := exists_toNat hvotes
  have hadd : checkedAdd d p.votesAbstain=some total :=
    checkedAdd_eq_some.mpr (by rw [htotal,hd,Proposal.totalVotes])
  simp only [outcome,checkedAdd_eq_some.mpr hd,bind_eq_bind,bind_some,hadd]
  by_cases hsupply : supply.toNat*1000<2^64
  · obtain ⟨quorum,hquorum,hvalue⟩ := portion_some (r := quorumBps) hsupply
    have hquorumValue : quorum.toNat=supply.toNat*1000/10000 := hvalue
    rw [hquorum,bind_some,if_pos hsupply,htotal,hquorumValue]
    congr 2
    by_cases hmajority : (p.votesFor.toNat+p.votesAgainst.toNat)*6667<2^64
    · obtain ⟨threshold,hthreshold,hvalue⟩ :=
        portion_some (a := d) (r := emergencySupermajorityBps) (hd ▸ hmajority)
      have hthresholdValue : threshold.toNat=
        (p.votesFor.toNat+p.votesAgainst.toNat)*6667/10000 := hd ▸ hvalue
      rw [hthreshold,bind_some,if_pos hmajority,hthresholdValue]
    · rw [portion_none (a := d) (r := emergencySupermajorityBps) (hd ▸ hmajority),bind_none,
        if_neg hmajority]
  · rw [portion_none (r := quorumBps) hsupply,bind_none,if_neg hsupply]

theorem outcome_eq_none (hvotes : p.totalVotes<2^64) :
    outcome p supply=none ↔ ¬Countable p supply := by
  rw [outcome_eq hvotes,Countable]
  split_ifs <;> simp_all

theorem outcome_passed (hx : outcome p supply=some st) (he : p.isEmergency=true) :
    st=.passed ↔ supply.toNat*1000/10000≤p.totalVotes ∧
      (p.votesFor.toNat+p.votesAgainst.toNat)*6667/10000≤p.votesFor.toNat := by
  rw [outcome_eq (totalVotes_lt_of_outcome hx)] at hx
  split_ifs at hx with _ hless _ hthreshold <;> cases hx <;> simp <;> omega

/-- The floored threshold lets a vote without two thirds pass at one count only. -/
theorem two_thirds_iff (votesFor votes : Nat) :
    (votes*6667/10000≤votesFor → 0<votesFor ∧ 2*votes≤3*votesFor) ↔
      votesFor≠2*votes/3 ∨ Decisive votes := by
  unfold Decisive
  omega

/-- Finalizing after the end of the vote does not overflow exactly while the supply and the decisive
votes leave room for the products. -/
theorem finalize_ne_overflow_iff {clock : Clock} {a g clockInfo : AccountInfo}
    {rest : List AccountInfo} {gov : GovernanceState}
    (hp : fm.proposal.load (f.view a.key).data=some p)
    (hg : fm.governance.load (f.view g.key).data=some gov) (hvotes : p.totalVotes<2^64)
    (hclock : clockInfo.key=h.clockSysvar) (hvoting : p.status=.voting)
    (hend : p.votingEnd.toInt≤clock.unixTimestamp.toInt) :
    finalizeVoting h fm clock (a::g::clockInfo::rest) f≠.error (err .overflow) ↔
      Countable p gov.totalStakedSupply := by
  rw [finalizeVoting,Host.requireClock,require_pos hclock,ok_bind,loadProposal,hp,okOr_some,ok_bind,
    require_pos hvoting,ok_bind,require_pos hend,ok_bind,loadGovernance,hg,okOr_some,ok_bind]
  cases ho : outcome p gov.totalStakedSupply with
  | none =>
    have hc := (outcome_eq_none hvotes).mp ho
    exact iff_of_false (fun hne => hne rfl) hc
  | some st =>
    have hc : Countable p gov.totalStakedSupply := by
      by_contra hc
      exact Option.some_ne_none st (ho.symm.trans ((outcome_eq_none hvotes).mpr hc))
    refine iff_of_true ?_ hc
    rw [okOr_some,ok_bind]
    exact bind_ne_error (okOr_ne_error nofun) fun _ => nofun

/-- An emergency proposal that passes has two thirds of the decisive votes, except with the one
number of votes for it that the floored threshold lets through. -/
theorem emergency_two_thirds_iff {clock : Clock} {a g : AccountInfo} {rest : List AccountInfo}
    {gov : GovernanceState} (hp : fm.proposal.load (f.view a.key).data=some p)
    (hg : fm.governance.load (f.view g.key).data=some gov) (he : p.isEmergency=true)
    (hx : finalizeVoting h fm clock (a::g::rest) f=.ok f')
    (hp' : fm.proposal.load (f'.view a.key).data=some p') {votes : Nat}
    (hn : votes=p.votesFor.toNat+p.votesAgainst.toNat) :
    (p'.status=.passed → 0<p.votesFor.toNat ∧ 2*votes≤3*p.votesFor.toNat) ↔
      p.totalVotes<gov.totalStakedSupply.toNat*1000/10000 ∨ p.votesFor.toNat≠2*votes/3 ∨
        Decisive votes := by
  unfold finalizeVoting at hx
  split at hx
  case h_2 => cases hx
  rename_i heq
  cases heq
  simp only [steps_ok,loadProposal_eq_ok,loadGovernance_eq_ok] at hx
  obtain ⟨-,-,q,hq,-,-,-,-,gov',hg',st,hst,hsave⟩ := hx
  cases hp.symm.trans hq
  cases hg.symm.trans hg'
  obtain ⟨d,hstore,rfl⟩ := Frame.save_eq_ok.mp hsave
  rw [Bank.setData_same] at hp'
  obtain rfl := fm.proposal.load_store hstore hp'
  rw [outcome_passed hst he,← hn,and_imp,two_thirds_iff,imp_iff_not_or,not_le]

end Verdicts

def foundCall (supply : U64) : Call Instruction :=
  {initializeCall with instruction := .initializeGovernance (.single 70#256) supply}

def emergencyCall : Call Instruction :=
  {createCall with instruction := .createProposal ⟨[],short_nil⟩ (.treasurySpend 90#256 7#64) true}

theorem modest_vote_finalized : ∃ t p,Formats.borsh.proposal.load (t 1#256).data=some p ∧
    p.totalVotes=1000 ∧ finalizeVoting sampleHost .borsh ⟨1#64,604900#64⟩
      (finalizeCall 604900#64).accounts ⟨t,t⟩≠.error (err .overflow) := by
  obtain ⟨⟨_,t⟩,_,p,hp,gov,hg,hvotes,hvoting,hend,hc⟩ : ∃ x,(program sampleHost .borsh).history
      [foundCall 9000000000000000#64,createCall,voteCall 1000#64] sampleStart=some x ∧
      ∃ p,Formats.borsh.proposal.load (x.2.bank 1#256).data=some p ∧
      ∃ gov,Formats.borsh.governance.load (x.2.bank 8#256).data=some gov ∧
        p.totalVotes=1000 ∧ p.status=.voting ∧ p.votingEnd.toInt≤(604900#64).toInt ∧
        Countable p gov.totalStakedSupply := by
    unfold Countable
    decide +kernel
  exact ⟨t.bank,p,hp,hvotes,
    (finalize_ne_overflow_iff hp hg (by omega) rfl hvoting hend).mpr hc⟩

/-- With a billion PRISM staked the quorum overflows. -/
theorem full_supply_overflows : ∃ tr t p,
    Run ((program sampleHost .borsh).Step anyCall) sampleStart tr t ∧
    cellAt Formats.borsh.proposal 100#256 t.bank 1#256=some p ∧ p.status=.voting ∧
    p.totalVotes=1000 ∧ (program sampleHost .borsh).execute (finalizeCall 604900#64) t.bank=
      .error (err .overflow) := by
  simp only [exists_and_left]
  exact exists_run_any [foundCall 1000000000000000000#64,createCall,voteCall 1000#64]
    (by decide +kernel)

theorem unanimous_emergency : ∃ p : Proposal,p.isEmergency=true ∧ p.votesFor=999#64 ∧
    0<p.votesFor.toNat ∧ 2*(p.votesFor.toNat+p.votesAgainst.toNat)≤3*p.votesFor.toNat := by
  obtain ⟨⟨_,t⟩,_,p,hp,hg,he,hvotes,f,hf,p',hp',hpassed,hd⟩ : ∃ x,
      (program sampleHost .borsh).history [initializeCall,emergencyCall,voteCall 999#64]
        sampleStart=some x ∧
      ∃ p,Formats.borsh.proposal.load (x.2.bank 1#256).data=some p ∧
      (Formats.borsh.governance.load (x.2.bank 8#256).data).isSome=true ∧ p.isEmergency=true ∧
      p.votesFor=999#64 ∧ ∃ f,finalizeVoting sampleHost .borsh ⟨1#64,86500#64⟩
        (finalizeCall 86500#64).accounts ⟨x.2.bank,x.2.bank⟩=.ok f ∧
      ∃ p',Formats.borsh.proposal.load (f.view 1#256).data=some p' ∧ p'.status=.passed ∧
        Decisive (p.votesFor.toNat+p.votesAgainst.toNat) := by
    unfold Decisive
    decide +kernel
  obtain ⟨_,hg⟩ := isSome_iff_exists.mp hg
  exact ⟨p,he,hvotes,
    (emergency_two_thirds_iff hp hg he hf hp' rfl).mpr (.inr (.inr hd)) hpassed⟩

/-- One vote against and none for it: the emergency proposal passes. -/
theorem emergency_passed_against : ∃ tr t p,
    Run ((program sampleHost .borsh).Step anyCall) sampleStart tr t ∧
    cellAt Formats.borsh.proposal 100#256 t.bank 1#256=some p ∧ p.isEmergency=true ∧
    p.status=.passed ∧ p.votesFor=0#64 ∧ p.votesAgainst=1#64 := by
  simp only [exists_and_left]
  exact exists_run_any [foundCall 9#64,emergencyCall,
    {voteCall 0#64 with instruction := .castVote .against 1#64},finalizeCall 86500#64]
    (by decide +kernel)

end PrismChain.Governance
