import PrismChain.Programs.Governance.Proposals

namespace PrismChain.Governance

open FixedWidth Option List BitVec Program

def Seated (fm : Formats) (kg m : Pubkey) (b : Bank) : Prop :=
  ∃ gov∈fm.governance.load (b kg).data,m∈gov.council.val

instance (fm : Formats) (kg m : Pubkey) (b : Bank) : Decidable (Seated fm kg m b) :=
  inferInstanceAs (Decidable (∃ gov∈_,_))

def vetoCall (h : Host) (clock : Clock) (k kg m : Pubkey) : Call Instruction :=
  ⟨clock,[⟨k,false,true⟩,⟨kg,false,false⟩,⟨m,true,false⟩,⟨h.clockSysvar,false,false⟩],.vetoProposal⟩

structure Passing (h : Host) (fm : Formats) (k : Pubkey)
    (x : LogEntry Instruction)
    (p : Proposal) : Prop where
  finalized : ∃ c,x.label=.call c ∧ c.instruction=.finalizeVoting
  before : ∃ p₀,cellAt fm.proposal h.programId x.pre.bank k=some p₀ ∧ p₀.status=.voting
  after : cellAt fm.proposal h.programId x.post.bank k=some p
  passed : p.status=.passed
  ended : p.votingEnd.toInt≤ x.post.clock.unixTimestamp.toInt

/-- The proposal at `k`, passed in the step `x` and executed by the call `c` after the steps `tr`,
was locked: it was passed for the whole delay, and for that time the member `m` could veto it. -/
structure Locked (h : Host) (fm : Formats) (k kg m : Pubkey)
    (x : LogEntry Instruction) (tr : Trace Instruction) (c : Call Instruction) :
    Prop where
  waited : x.post.clock.unixTimestamp.toInt+executionDelaySecs.toInt≤c.clock.unixTimestamp.toInt
  vetoable : ∀ y∈x::tr,∀ clk,y.post.clock.before clk →
    clk.unixTimestamp.toInt≤ x.post.clock.unixTimestamp.toInt+executionDelaySecs.toInt →
    ((program h fm).execute (vetoCall h clk k kg m) y.post.bank).isOk=true

def PassedSince (h : Host) (fm : Formats) (k : Pubkey) (tr : Trace Instruction) (p : Proposal) :
    Prop :=
  ∃ tr₁ x tr₂,tr=tr₁++x::tr₂ ∧ Passing h fm k x p ∧
    ∀ y∈x::tr₂,cellAt fm.proposal h.programId y.post.bank k=some p

section Steps

variable {h : Host} {fm : Formats} {clk : Clock} {x : LogEntry Instruction}

theorem Next.deadlines (hn : Next c k p p') :
    p'.votingEnd=p.votingEnd ∧ p'.executionTime=p.executionTime := by
  cases hn with
  | voted _ _ _ htally =>
    have hrest := (tally_spec htally).1
    exact ⟨hrest.votingEnd,hrest.executionTime⟩
  | _ => exact ⟨rfl,rfl⟩

theorem Moves.deadlines (hm : Moves x k p p') :
    p'.votingEnd=p.votingEnd ∧ p'.executionTime=p.executionTime := by
  cases hm with
  | call hlabel _ hn => exact hn.deadlines
  | outside hlabel => exact ⟨rfl,rfl⟩

theorem PassedSince.extend (hs : PassedSince h fm k tr p)
    (hp : cellAt fm.proposal h.programId x.post.bank k=some p) :
    PassedSince h fm k (tr++[x]) p := by
  obtain ⟨tr1,x0,tr2,rfl,hpassing,hsince⟩ := hs
  refine ⟨tr1,x0,tr2++[x],by simp,hpassing,fun y hy => ?_⟩
  rw [← List.cons_append] at hy
  obtain hy | hy := mem_append.mp hy
  · exact hsince y hy
  · obtain rfl := mem_singleton.mp hy
    exact hp

theorem Moves.passedSince (hm : Moves x k p p') (hs : p.status=.passed → PassedSince h fm k tr p)
    (hp : cellAt fm.proposal h.programId x.pre.bank k=some p)
    (hp' : cellAt fm.proposal h.programId x.post.bank k=some p') (hpassed : p'.status=.passed) :
    PassedSince h fm k (tr++[x]) p' := by
  cases hm with
  | outside hlabel => exact (hs hpassed).extend hp'
  | @call c _ hlabel hclock hn =>
    cases hn with
    | same => exact (hs hpassed).extend hp'
    | voted hi hkey hopen htally =>
      rw [(tally_spec htally).1.status,hopen] at hpassed
      cases hpassed
    | finalized hi hkey hopen hended =>
      refine ⟨tr,x,[],rfl,⟨⟨c,hlabel,hi⟩,⟨p,hp,hopen⟩,hp',hpassed,hclock ▸ hended⟩,fun y hy => ?_⟩
      obtain rfl := mem_singleton.mp hy
      exact hp'
    | executed => cases hpassed
    | vetoed => cases hpassed
    | cancelled => cases hpassed

theorem veto_accepted (hfm : fm.Restatable) (hp : cellAt fm.proposal h.programId b k=some p)
    (hpassed : p.status=.passed) (hseat : Seated fm kg m b)
    (hlock : p.executionTime.toInt=p.votingEnd.toInt+executionDelaySecs.toInt)
    (hwindow : clk.unixTimestamp.toInt≤p.executionTime.toInt) :
    ((program h fm).execute (vetoCall h clk k kg m) b).isOk=true := by
  obtain ⟨howner,hload⟩ := cellAt_eq_some.mp hp
  obtain ⟨gov,hgov,hm⟩ := hseat
  obtain ⟨d,hd⟩ := hfm .vetoed hload
  have hdeadline : checkedAddSigned p.votingEnd vetoWindowSecs=some p.executionTime :=
    checkedAddSigned_eq_some.mpr hlock
  have hx : (program h fm).execute (vetoCall h clk k kg m) b=.ok (b.setData k d) := by
    refine execute_eq_ok.mpr ⟨⟨b,b.setData k d⟩,?_,?_,rfl⟩
    · change vetoProposal h fm clk (vetoCall h clk k kg m).accounts ⟨b,b⟩=_
      simp only
        [vetoProposal,vetoCall,steps_ok,loadGovernance_eq_ok,loadProposal_eq_ok,Frame.save_eq_ok]
      exact ⟨(),trivial,(),trivial,gov,hgov,(),hm,p,hload,(),hpassed,_,hdeadline,(),hwindow,d,hd,
        rfl⟩
    · exact sync_of_write howner (by simp [Invocation.writable,vetoCall]) _
  rw [hx]
  rfl

theorem vetoed_in_time (hp : cellAt fm.proposal h.programId b k=some p)
    (hx : (program h fm).execute (vetoCall h clk k kg m) b=.ok b') :
    clk.unixTimestamp.toInt≤p.votingEnd.toInt+vetoWindowSecs.toInt := by
  obtain ⟨howner,hload⟩ := cellAt_eq_some.mp hp
  obtain ⟨_,_,u⟩ := (execute_spec hx).moved_of_noSide rfl rfl howner
  cases hload.symm.trans u.proposal
  cases u.next with
  | vetoed hi _ hwindow => exact hwindow
  | same hpass => exact absurd rfl hpass
  | voted hi => cases hi
  | finalized hi => cases hi
  | executed hi => cases hi
  | cancelled hi => cases hi

end Steps

/-- Every proposal that is executed was passed in some step, has been passed since, and was locked
for the delay exactly if that step was at the very end of the voting period. -/
theorem locked_iff_finalized_at_end {h : Host} {fm : Formats} (hfm : fm.Restatable)
    (hsep : Separate h) {s u t w : Ledger} {c ce : Call Instruction} {k kg m : Pubkey}
    {tr : Trace Instruction}
    (hmade : (program h fm).Step anyCall s (.call c) u) (hc : Creates c k)
    (howner : (s.bank k).owner=h.programId)
    (hrun : Run ((program h fm).Step anyCall) u tr t) (hno : Undisturbed fm k tr)
    (hseat : ∀ x∈tr,Seated fm kg m x.post.bank)
    (hexecuted : (program h fm).Step anyCall t (.call ce) w)
    (hce : ce.instruction=.executeProposal) (hkey : ce.key? 0=some k) :
    ∃ tr₁ x tr₂ p,tr=tr₁++x::tr₂ ∧ Passing h fm k x p ∧
      (∀ y∈x::tr₂,cellAt fm.proposal h.programId y.post.bank k=some p) ∧
      (Locked h fm k kg m x tr₂ ce ↔ x.post.clock.unixTimestamp=p.votingEnd) := by
  have howned : (t.bank k).owner=h.programId := Run.invariant
    (I := fun l => (l.bank k).owner=h.programId) (step_owner hmade howner)
    (fun hi he => step_owner he hi) hrun
  cases hexecuted with
  | @call _ _ _ hok hx =>
    have hside : sideKey? ce=none := by simp [sideKey?,hce]
    have hprop : proposalKey? ce=some k := by simp [proposalKey?,hce,hkey]
    obtain ⟨p,_,v⟩ := (execute_spec hx).moved_of_noSide hside hprop howned
    have hp :
      cellAt fm.proposal h.programId t.bank k=some p := cellAt_eq_some.mpr ⟨howned,v.proposal⟩
    have hhistory := proposal_history
      (I := fun tr p => p.executionTime.toInt=p.votingEnd.toInt+executionDelaySecs.toInt ∧
        (p.status=.passed → PassedSince h fm k tr p)) hsep hmade hc howner
      (fun v => ⟨v.locked,fun hpassed => by rw [v.opened] at hpassed; cases hpassed⟩)
      (fun hi hp hp' hm => ⟨by rw [hm.deadlines.1,hm.deadlines.2]; exact hi.1,
        hm.passedSince hi.2 hp hp'⟩) hrun hno hp
    obtain ⟨hlock,hsince⟩ := hhistory
    have hready : p.status=.passed ∧ p.executionTime.toInt≤ce.clock.unixTimestamp.toInt := by
      cases v.next with
      | executed hi hpassed hdelay => exact ⟨hpassed,hdelay⟩
      | same hpass => exact absurd hprop hpass
      | voted hi => cases hce.symm.trans hi
      | finalized hi => cases hce.symm.trans hi
      | vetoed hi => cases hce.symm.trans hi
      | cancelled hi => cases hce.symm.trans hi
    obtain ⟨tr₁,x,tr₂,rfl,hpassing,hthere⟩ := hsince hready.1
    refine ⟨tr₁,x,tr₂,p,rfl,hpassing,hthere,?_⟩
    constructor
    · intro hlocked
      -- a veto at the last second of the delay is in the window only if nothing was lost before
      by_contra hlate
      have hended := hpassing.ended
      have hne : p.votingEnd.toInt≠ x.post.clock.unixTimestamp.toInt :=
        fun heq => hlate (eq_of_toInt_eq heq.symm)
      have hwaited := hlocked.waited
      obtain ⟨last,hlast⟩ : ∃ last : I64,last.toInt=
          x.post.clock.unixTimestamp.toInt+executionDelaySecs.toInt := by
        refine ⟨BitVec.ofInt 64 (x.post.clock.unixTimestamp.toInt+executionDelaySecs.toInt),?_⟩
        have hdelay : executionDelaySecs.toInt=172800 := by decide
        have hlow := le_toInt x.post.clock.unixTimestamp
        have hhigh := toInt_lt (x := ce.clock.unixTimestamp)
        rw [toInt_ofInt,Int.bmod_eq_of_le] <;> norm_num at hlow hhigh ⊢ <;> omega
      have hbefore : x.post.clock.before ⟨x.post.clock.slot,last⟩ := by
        have hdelay : executionDelaySecs.toInt=172800 := by decide
        exact ⟨le_rfl,by dsimp only; omega⟩
      have hok := hlocked.vetoable x mem_cons_self ⟨x.post.clock.slot,last⟩ hbefore hlast.le
      have hveto := vetoed_in_time hpassing.after (eq_ok_of_isOk x.post.bank hok)
      have hwindow : vetoWindowSecs=executionDelaySecs := rfl
      rw [hwindow] at hveto
      dsimp only at hveto
      omega
    · intro hend
      have hsame : x.post.clock.unixTimestamp.toInt=p.votingEnd.toInt := congrArg BitVec.toInt hend
      refine ⟨by rw [hsame,← hlock]; exact hready.2,fun y hy clk hbefore hclk => ?_⟩
      refine veto_accepted hfm (hthere y hy) hpassing.passed (hseat y ?_) hlock ?_
      · exact mem_append_right _ hy
      · rw [hlock,← hsame]
        exact hclk

theorem prompt_finalize_locked : ∃ x tr c,Locked sampleHost .borsh 1#256 8#256 70#256 x tr c ∧
    x.post.clock.unixTimestamp.toInt<c.clock.unixTimestamp.toInt := by
  obtain ⟨⟨_,w⟩,hhistory,hall⟩ : ∃ x,(program sampleHost .borsh).history promptCalls
      sampleStart=some x ∧ (x.1.all fun y => decide (Plain .borsh 1#256 y.pre.bank ∧ Seated .borsh
      8#256 70#256 y.post.bank ∧ ∀ p∈cellAt Formats.borsh.proposal 100#256 y.post.bank
      1#256,p.status=.passed → y.post.clock.unixTimestamp=p.votingEnd))=true := by decide +kernel
  obtain ⟨b₁,_,hx₁,-,hrest₁,rfl⟩ := history_cons hhistory
  obtain ⟨b₂,_,hx₂,hclock₂,hrest₂,rfl⟩ := history_cons hrest₁
  have hsplit : (program sampleHost .borsh).history ([voteCall 1000#64,finalizeCall 604900#64]++
    [executeCall 777700#64]) _=_ := hrest₂
  obtain ⟨tr,t,_,hmiddle,hlast,rfl⟩ := history_append hsplit
  obtain ⟨_,_,hx₃,hclock₃,-,rfl⟩ := history_cons hlast
  have hchecked (y) (hy : y∈tr) := of_decide_eq_true (all_eq_true.mp hall y
    (mem_cons_of_mem _ (mem_cons_of_mem _ (mem_append_left _ hy))))
  have hmade : (program sampleHost .borsh).Step anyCall ⟨b₁,⟨1#64,10#64⟩⟩
      (.call createCall) ⟨b₂,⟨1#64,100#64⟩⟩ := .call hclock₂ trivial hx₂
  have hrun := history_anyCall hmiddle
  have howner : (b₁ 1#256).owner=100#256 := (execute_spec hx₁).owner_kept 1#256
  have hseat (y) (hy : y∈tr) : Seated .borsh 8#256 70#256 y.post.bank := (hchecked y hy).2.1
  obtain ⟨_,x,tr₂,p,htr,hpassing,-,hiff⟩ := locked_iff_finalized_at_end
    Formats.borsh_restatable sampleHost_separate hmade ⟨rfl,rfl⟩ howner hrun
    (undisturbed_history hmiddle
    (by decide) fun y hy => (hchecked y hy).1) hseat (.call hclock₃ trivial hx₃) rfl rfl
  have hx : x∈tr := htr ▸ mem_append_right _ mem_cons_self
  have hend := (hchecked x hx).2.2 p hpassing.after hpassing.passed
  have hlocked := hiff.mpr hend
  refine ⟨x,tr₂,_,hlocked,?_⟩
  have hwaited := hlocked.waited
  have hdelay : executionDelaySecs.toInt=172800 := by decide
  omega

def vetoReadings (tr : Trace Instruction) : List (I64×Option ProposalStatus×Option ProgramError) :=
  tr.map fun x => (x.post.clock.unixTimestamp,
    (cellAt Formats.borsh.proposal 100#256 x.post.bank 1#256).map Proposal.status,
    errorOf ((program sampleHost .borsh).execute
      (vetoCall sampleHost x.post.clock 1#256 8#256 70#256)
      x.post.bank))

/-- Nobody finalizes the vote until the delay and the window are over: the proposal passes, can no
longer be vetoed and is executed in the same second. -/
theorem late_finalize_unlocked : ∃ tr t,
    Run ((program sampleHost .borsh).Step anyCall) sampleStart tr t ∧
    vetoReadings tr=[(10#64,none,some (err .invalidAccountData)),
      (100#64,some .voting,some (err .proposalNotPassed)),
      (200#64,some .voting,some (err .proposalNotPassed)),
      (777701#64,some .passed,some (err .vetoWindowExpired)),
      (777701#64,some .executed,some (err .proposalNotPassed))] := exists_run_any
  [initializeCall,createCall,voteCall 1000#64,finalizeCall 777701#64,executeCall 777701#64]
  (by decide +kernel)

end PrismChain.Governance
