import PrismChain.Programs.Dao.Books

namespace PrismChain.Dao

open Aggregate Option List BitVec Program

def daoKey? (c : Call Instruction) : Option Pubkey :=
  match c.instruction with
  | .initializeDao _ => c.key? 1
  | .createProposal _ _ _ => c.key? 1
  | .castVote _ => c.key? 4
  | .finalizeProposal => c.key? 2
  | .executeProposal => c.key? 2
  | _ => none

def inRealm (h : Host) (fm : Formats) : Bank → Call Instruction → Prop := fun b c =>
  (∀ k,daoKey? c=some k → k=(daoPda h).1) ∧
    (c.instruction=.finalizeProposal → ∀ d,fm.dao.load (b (daoPda h).1).data=some d →
      c.clock.slot.toNat+d.timelockPeriod.toNat<2^64)

def VotesOrCancels (k : Pubkey) (c : Call Instruction) : Prop :=
  c.key? 1=some k ∧ ((∃ support,c.instruction=.castVote support) ∨ c.instruction=.cancelProposal)

def Finalizes (k : Pubkey) (c : Call Instruction) : Prop :=
  c.key? 1=some k ∧ c.instruction=.finalizeProposal

def Instruction.isVote : Instruction → Bool
  | .castVote _ => true
  | _ => false

def votesBy (k v : Pubkey) (x : LogEntry Instruction) : Bool :=
  match x.label with
  | .call c => c.instruction.isVote && c.key? 1==some k && c.signer? 0==some v
  | .outside => false

structure PassedIn (h : Host) (fm : Formats) (k : Pubkey)
    (y : LogEntry Instruction) (lock : Nat) : Prop where
  before : ∃ p,proposalAt h fm y.pre.bank k=some p ∧ p.status=.active
  after : ∃ p,proposalAt h fm y.post.bank k=some p ∧ p.status=.passed
  finalized : ∃ c d,y.label=.call c ∧ Finalizes k c ∧ y.post.clock=c.clock ∧
    fm.dao.load (y.pre.bank (daoPda h).1).data=some d ∧
    lock=c.clock.slot.toNat+d.timelockPeriod.toNat

/-- The life of the proposal at `k` in a run with the history `tr` that ends in `t`. -/
structure LifeCycle (h : Host) (fm : Formats) (k : Pubkey) (tr : Trace Instruction) (t : Ledger) :
    Prop where
  windows : ∀ x∈tr,∀ y∈tr,∀ c d,x.label=.call c → y.label=.call d → VotesOrCancels k c →
    Finalizes k d → c.clock.slot.toNat<d.clock.slot.toNat
  alternatives : ∀ c d b₁ b₂,(program h fm).execute c t.bank=.ok b₁ →
    (program h fm).execute d t.bank=.ok b₂ → VotesOrCancels k c → Finalizes k d →
    c.clock.slot.toNat<d.clock.slot.toNat
  tallied : ∀ p,proposalAt h fm t.bank k=some p → ∀ side,
    (p.votes side).toNat=sumOver (countsFor p.id side) (cellAt fm.vote h.programId t.bank)
  once : ∀ v,tr.countP (votesBy k v)≤1
  frozen : ∀ x∈tr,∀ p,proposalAt h fm x.post.bank k=some p → p.status≠.active →
    ∃ p',proposalAt h fm t.bank k=some p' ∧ p'.status≠.active ∧ p'.votes=p.votes
  executed : ∀ tr₁ x tr₂ p',tr=tr₁++x::tr₂ → proposalAt h fm x.post.bank k=some p' →
    p'.status=.executed → (∀ p,proposalAt h fm x.pre.bank k=some p → p.status≠.executed) →
    (∃ p,proposalAt h fm x.pre.bank k=some p ∧ p.status=.passed) ∧
      ∃ y∈tr₁,∃ lock,PassedIn h fm k y lock ∧ lock≤ x.post.clock.slot.toNat

structure Evolves (p p' : Proposal) : Prop where
  endSlot : p'.endSlot=p.endSlot
  closed : p.status≠.active → p'.status≠.active ∧ p'.votes=p.votes

theorem Evolves.refl (p : Proposal) : Evolves p p := ⟨rfl,fun hclosed => ⟨hclosed,rfl⟩⟩

theorem Evolves.trans (h : Evolves p1 p2) (h' : Evolves p2 p3) : Evolves p1 p3 := by
  refine ⟨h'.endSlot.trans h.endSlot,fun hclosed => ?_⟩
  obtain ⟨hstatus,hvotes⟩ := h.closed hclosed
  obtain ⟨hstatus',hvotes'⟩ := h'.closed hstatus
  exact ⟨hstatus',hvotes'.trans hvotes⟩

section Steps

variable {h : Host} {fm : Formats} {p p' : Proposal} {s : Ledger}

theorem Next.evolves (hn : Next fm c b k p p') : Evolves p p' := by
  cases hn with
  | same => exact .refl p
  | voted _ _ hopen _ htally =>
    exact ⟨(tally_spec htally).1.endSlot,fun hclosed => absurd hopen hclosed⟩
  | finalized _ _ _ _ hopen _ hfinal =>
    refine ⟨?_,fun hclosed => absurd hopen hclosed⟩
    obtain hpass | rfl := finalized_spec hfinal
    · rw [hpass.result]
    · rfl
  | executed =>
    refine ⟨rfl,fun _ => ⟨ProposalStatus.noConfusion,?_⟩⟩
    funext side
    cases side <;> rfl
  | cancelled _ _ hopen => exact ⟨rfl,fun hclosed => absurd hopen hclosed⟩

theorem Decided.inWindow (u : Decided h fm c b b' k p p') :
    (c.instruction=.finalizeProposal → p.endSlot.toNat<c.clock.slot.toNat) ∧
      (c.instruction=.cancelProposal → c.clock.slot.toNat≤p.endSlot.toNat) := by
  have hopened := u.opened
  cases u.next with
  | same =>
    obtain ⟨hp,hp' | hp' | hp'⟩ | ⟨hp,hp'⟩ :=
      hopened <;> exact absurd (hp.symm.trans hp') (by decide)
  | voted hi => exact absurd hi (u.notVote _)
  | finalized hi _ _ _ _ htime => exact ⟨fun _ => htime,fun h => nomatch hi.symm.trans h⟩
  | executed hi => exact ⟨fun h => (nomatch hi.symm.trans h),fun h => (nomatch hi.symm.trans h)⟩
  | cancelled hi _ _ htime => exact ⟨fun h => (nomatch hi.symm.trans h),fun _ => htime⟩

variable (hfm : fm.Decoded)
include hfm

theorem Decided.before (u : Decided h fm c b b' k p p') : proposalAt h fm b k=some p := by
  have hs := u.wrote
  have hchanged : p'.status≠p.status := by
    obtain ⟨hp,hp' | hp' | hp'⟩ | ⟨hp,hp'⟩ := u.opened <;>
    · rw [hp,hp']
      decide
  have howned : (b k).owner=h.programId := by
    obtain howned | hsame := hs.owned
    · exact howned
    · have hload := hfm.proposal.stored hs.store
      rw [hsame,u.proposal] at hload
      exact absurd (by rw [some.inj hload]) hchanged
  refine proposalAt_eq_some.mpr ⟨howned,u.proposal,?_⟩
  obtain ⟨hp,-⟩ | ⟨hp,-⟩ := u.opened <;>
  · rw [hp]
    decide

theorem Accepted.inVoting (u : Accepted h fm c b b') (hc : VotesOrCancels k c) :
    ∃ p,proposalAt h fm b k=some p ∧ c.clock.slot.toNat≤p.endSlot.toNat := by
  obtain ⟨hkey,⟨_,hi⟩ | hi⟩ := hc
  · obtain ⟨k1,_,_,p,_,_,w⟩ := u.voted_of hi
    cases w.proposalKey.symm.trans hkey
    exact ⟨p,w.before hfm,w.inTime⟩
  · obtain ⟨k1,p,_,w⟩ := u.decided_of (by rw [hi]; rfl)
    cases w.proposalKey.symm.trans hkey
    exact ⟨p,w.before hfm,w.inWindow.2 hi⟩

theorem Accepted.afterVoting (u : Accepted h fm c b b') (hc : Finalizes k c) :
    ∃ p,proposalAt h fm b k=some p ∧ p.endSlot.toNat<c.clock.slot.toNat := by
  obtain ⟨hkey,hi⟩ := hc
  obtain ⟨k1,p,_,w⟩ := u.decided_of (by rw [hi]; rfl)
  cases w.proposalKey.symm.trans hkey
  exact ⟨p,w.before hfm,w.inWindow.1 hi⟩

variable (hsep : Separate h)
include hsep

theorem proposal_step (hb : Books h fm s.bank) (hstep : (program h fm).Step ok s a t)
    (hp : proposalAt h fm s.bank k=some p) :
    ∃ p',proposalAt h fm t.bank k=some p' ∧ Evolves p p' := by
  cases hstep with
  | call _ _ hx =>
    obtain ⟨p',hp',hnext⟩ := (execute_spec hx).proposal_after hfm hsep hb.layout hp
    exact ⟨p',hp',hnext.evolves⟩
  | outside _ hout => exact ⟨p,(Outside.proposals hfm hout k).trans hp,.refl p⟩

theorem proposal_run (hb : Books h fm s.bank) (hrun : Run ((program h fm).Step ok) s tr t)
    (hp : proposalAt h fm s.bank k=some p) :
    ∃ p',proposalAt h fm t.bank k=some p' ∧ Evolves p p' := by
  refine (hrun.invariant (I := fun t => Books h fm t.bank ∧
    ∃ p',proposalAt h fm t.bank k=some p' ∧ Evolves p p') ⟨hb,p,hp,.refl p⟩ ?_).2
  rintro t e u ⟨hbt,_,hp1,hfirst⟩ hstep
  obtain ⟨p2,hp2,hsecond⟩ := proposal_step hfm hsep hbt hstep hp1
  exact ⟨hbt.step hfm hsep hstep,p2,hp2,hfirst.trans hsecond⟩

theorem record_step (hb : Books h fm s.bank) (hstep : (program h fm).Step ok s a t)
    (hr : cellAt fm.vote h.programId s.bank j=some r) :
    cellAt fm.vote h.programId t.bank j=some r := by
  cases hstep with
  | call _ _ hx =>
    obtain hsame | ⟨_,_,_,_,_,w⟩ :=
      ((execute_spec hx).written hfm.nonempty j).vote_cases hfm hsep hb
    · exact hsame.trans hr
    · cases (w.record_before hfm).symm.trans hr
  | outside _ hout => exact (hout.cells hfm.vote j).trans hr

theorem votes_counted (h0 : Untouched h.programId s.bank)
    (hrun : Run ((program h fm).Step ok) s tr t) : tr.countP (votesBy k v)=0 ∨
      tr.countP (votesBy k v)=1 ∧ ∃ p r,proposalAt h fm t.bank k=some p ∧
        cellAt fm.vote h.programId t.bank (votePda h p.id v).1=some r := by
  refine hrun.traced (I := fun tr t => tr.countP (votesBy k v)=0 ∨
    tr.countP (votesBy k v)=1 ∧ ∃ p r,proposalAt h fm t.bank k=some p ∧
      cellAt fm.vote h.programId t.bank (votePda h p.id v).1=some r) (Or.inl rfl) ?_
  intro tr t a u hrun ih hstep
  have hb := books_run hfm hsep h0 hrun
  rw [countP_append_one]
  cases hvotes : votesBy k v ⟨t,a,u⟩ with
  | false =>
    rw [Bool.toNat_false,Nat.add_zero]
    refine ih.imp_right fun ⟨hone,p,r,hp,hr⟩ => ⟨hone,?_⟩
    have hid : ∃ p',proposalAt h fm u.bank k=some p' ∧ p'.id=p.id := by
      obtain ⟨p',hp',-⟩ := proposal_step hfm hsep hb hstep hp
      have hplace := (hb.step hfm hsep hstep).layout.proposals hp'
      exact ⟨p',hp',hsep.numbered _ _ (hplace.symm.trans (hb.layout.proposals hp))⟩
    obtain ⟨p',hp',hid⟩ := hid
    refine ⟨p',r,hp',?_⟩
    rw [hid]
    exact record_step hfm hsep hb hstep hr
  | true =>
    cases hstep with
    | outside => cases hvotes
    | @call c _ _ _ hx =>
      simp only [votesBy,Bool.and_eq_true,beq_iff_eq] at hvotes
      obtain ⟨⟨hvote,hkey⟩,hsigner⟩ := hvotes
      have hi : ∃ support,c.instruction=.castVote support := by
        cases hcase : c.instruction <;> rw [hcase] at hvote <;> first | exact ⟨_,rfl⟩ | cases hvote
      obtain ⟨support,hi⟩ := hi
      obtain ⟨k1,kv,_,p,p',r,w⟩ := (execute_spec hx).voted_of hi
      cases w.proposalKey.symm.trans hkey
      cases w.signer.symm.trans hsigner
      have hkv : kv=(votePda h p.id r.voter).1 := w.about ▸ w.place
      refine Or.inr ⟨?_,p',r,w.after hfm,?_⟩
      · obtain hzero | ⟨-,q,_,hq,hr0⟩ := ih
        · rw [hzero]
          rfl
        · cases (w.before hfm).symm.trans hq
          rw [← hkv,w.record_before hfm] at hr0
          cases hr0
      · rw [(tally_spec w.tallied).1.id,← hkv]
        exact w.record_after hfm

theorem passed_since (h0 : Untouched h.programId s.bank)
    (hrun : Run ((program h fm).Step (inRealm h fm)) s tr t) (hp : proposalAt h fm t.bank k=some p)
    (hpassed : p.status=.passed) : ∃ y∈tr,PassedIn h fm k y p.timelockEnd.toNat := by
  refine hrun.traced (I := fun tr t => ∀ p,proposalAt h fm t.bank k=some p → p.status=.passed →
    ∃ y∈tr,PassedIn h fm k y p.timelockEnd.toNat) ?_ ?_ p hp hpassed
  · intro p hp
    rw [proposalAt,h0.cells hfm.proposal k] at hp
    cases hp
  · intro tr t a u hrun ih hstep p' hp' hpassed
    have hb := books_run hfm hsep h0 hrun
    have hearlier {q : Proposal} (hq : proposalAt h fm t.bank k=some q)
      (hpassed : q.status=.passed) :
        ∃ y∈tr++[⟨t,a,u⟩],PassedIn h fm k y q.timelockEnd.toNat := by
      obtain ⟨y,hy,hin⟩ := ih q hq hpassed
      exact ⟨y,mem_append_left _ hy,hin⟩
    cases hstep with
    | outside _ hout =>
      exact hearlier ((Outside.proposals hfm hout k).symm.trans hp') hpassed
    | @call c _ _ hok hx =>
      have haccepted := execute_spec hx
      have hplace := (haccepted.layout hfm hb.layout).proposals hp'
      obtain ⟨_,_,w⟩ | ⟨p,hp,hnext⟩ :=
        (haccepted.written hfm.nonempty k).proposal_before hsep hb.layout hplace hp'
      · rw [w.made] at hpassed
        cases hpassed
      cases hnext with
      | same => exact hearlier hp hpassed
      | voted _ _ hopen _ htally =>
        rw [(tally_spec htally).1.status,hopen] at hpassed
        cases hpassed
      | @finalized _ kd dao hi hkey hdao hload hopen _ hfinal =>
        obtain hpass | rfl := finalized_spec hfinal
        · have hkd : kd=(daoPda h).1 := hok.1 kd (by simp [daoKey?,hi,hdao])
          subst hkd
          have hfits := hok.2 hi dao hload
          refine ⟨_,mem_append_right _ mem_cons_self,⟨p,hp,hopen⟩,⟨p',hp',hpassed⟩,c,dao,
            rfl,⟨hkey,hi⟩,rfl,hload,?_⟩
          rw [hpass.result]
          exact toNat_add_of_lt hfits
        · cases hpassed
      | executed => cases hpassed
      | cancelled => cases hpassed

theorem executed_step (hb : Books h fm s.bank) (hstep : (program h fm).Step ok s a t)
    (hp' : proposalAt h fm t.bank k=some p') (hexecuted : p'.status=.executed)
    (hnew : ∀ p,proposalAt h fm s.bank k=some p → p.status≠.executed) :
    ∃ p,proposalAt h fm s.bank k=some p ∧ p.status=.passed ∧
      p.timelockEnd.toNat≤t.clock.slot.toNat := by
  cases hstep with
  | outside _ hout =>
    exact absurd hexecuted (hnew p' ((Outside.proposals hfm hout k).symm.trans hp'))
  | call _ _ hx =>
    have haccepted := execute_spec hx
    have hplace := (haccepted.layout hfm hb.layout).proposals hp'
    obtain ⟨_,_,w⟩ | ⟨p,hp,hnext⟩ :=
      (haccepted.written hfm.nonempty k).proposal_before hsep hb.layout hplace hp'
    · rw [w.made] at hexecuted
      cases hexecuted
    cases hnext with
    | same => exact absurd hexecuted (hnew p' hp)
    | voted _ _ hopen _ htally =>
      rw [(tally_spec htally).1.status,hopen] at hexecuted
      cases hexecuted
    | finalized _ _ _ _ _ _ hfinal =>
      obtain hpass | rfl := finalized_spec hfinal
      · rw [hpass.result] at hexecuted
        cases hexecuted
      · cases hexecuted
    | executed _ _ hpassed htime => exact ⟨p,hp,hpassed,htime⟩
    | cancelled => cases hexecuted

end Steps

/-- The whole life of every proposal, over every run of the DAO with its own state. -/
theorem proposal_life_cycle {h : Host} {fm : Formats} (hfm : fm.Decoded) (hsep : Separate h)
    {s t : Ledger} {tr : Trace Instruction} (h0 : Untouched h.programId s.bank)
    (hrun : Run ((program h fm).Step (inRealm h fm)) s tr t) (k : Pubkey) :
    LifeCycle h fm k tr t := by
  have hlater {x : LogEntry Instruction} (hx : x∈tr) {p : Proposal}
      (hp : proposalAt h fm x.post.bank k=some p) :
      ∃ p',proposalAt h fm t.bank k=some p' ∧ Evolves p p' := by
    obtain ⟨tr₁,tr₂,rfl⟩ := append_of_mem hx
    obtain ⟨hbefore,hstep,hafter⟩ := hrun.cut
    exact proposal_run hfm hsep ((books_run hfm hsep h0 hbefore).step hfm hsep hstep) hafter hp
  have hcalled {x : LogEntry Instruction} (hx : x∈tr) {c : Call Instruction}
      (hc : x.label=.call c) : ∃ b,(program h fm).execute c x.pre.bank=.ok b ∧
        ∀ p,proposalAt h fm x.pre.bank k=some p →
          ∃ p',proposalAt h fm t.bank k=some p' ∧ p'.endSlot=p.endSlot := by
    obtain ⟨tr₁,tr₂,rfl⟩ := append_of_mem hx
    obtain ⟨hbefore,hstep,-⟩ := hrun.cut
    have hb := books_run hfm hsep h0 hbefore
    obtain ⟨pre,label,post⟩ := x
    obtain rfl : label=.call c := hc
    have hend {p : Proposal} (hp : proposalAt h fm pre.bank k=some p) :
        ∃ p',proposalAt h fm t.bank k=some p' ∧ p'.endSlot=p.endSlot := by
      obtain ⟨p₁,hp₁,hfirst⟩ := proposal_step hfm hsep hb hstep hp
      obtain ⟨p₂,hp₂,hsecond⟩ := hlater hx hp₁
      exact ⟨p₂,hp₂,hsecond.endSlot.trans hfirst.endSlot⟩
    cases hstep with
    | call _ _ hexec => exact ⟨_,hexec,fun p hp => hend hp⟩
  refine ⟨?_,?_,fun p hp => (books_run hfm hsep h0 hrun).tallied hp,?_,?_,?_⟩
  · intro x hx y hy c d hc hd hvote hfinalize
    obtain ⟨b₁,hexec,hend⟩ := hcalled hx hc
    obtain ⟨b₂,hexec',hend'⟩ := hcalled hy hd
    obtain ⟨p,hp,hopen⟩ := (execute_spec hexec).inVoting hfm hvote
    obtain ⟨q,hq,hover⟩ := (execute_spec hexec').afterVoting hfm hfinalize
    obtain ⟨p₁,hp₁,hsame⟩ := hend p hp
    obtain ⟨_,hq₁,hsame'⟩ := hend' q hq
    cases hp₁.symm.trans hq₁
    rw [← hsame] at hopen
    rw [← hsame'] at hover
    omega
  · intro c d b₁ b₂ hexec hexec' hvote hfinalize
    obtain ⟨p,hp,hopen⟩ := (execute_spec hexec).inVoting hfm hvote
    obtain ⟨q,hq,hover⟩ := (execute_spec hexec').afterVoting hfm hfinalize
    cases hp.symm.trans hq
    omega
  · intro v
    obtain hzero | ⟨hone,-⟩ := votes_counted (v := v) hfm hsep h0 hrun
    · rw [hzero]
      exact Nat.zero_le 1
    · exact hone.le
  · intro x hx p hp hclosed
    obtain ⟨p',hp',hevolves⟩ := hlater hx hp
    exact ⟨p',hp',hevolves.closed hclosed⟩
  · rintro tr₁ x tr₂ p' rfl hp' hexecuted hnew
    obtain ⟨hbefore,hstep,-⟩ := hrun.cut
    obtain ⟨p,hp,hpassed,htime⟩ :=
      executed_step hfm hsep (books_run hfm hsep h0 hbefore) hstep hp' hexecuted hnew
    obtain ⟨y,hy,hin⟩ := passed_since hfm hsep h0 hbefore hp hpassed
    exact ⟨⟨p,hp,hpassed⟩,y,hy,_,hin,htime⟩

theorem short_fees : (Codec.utf8 "fees").length<2^32 := by decide

def promptCalls : List (Call Instruction) :=
  [initializeCall,createCall ⟨"fees",short_fees⟩ ⟨"",Codec.short_empty⟩ ⟨[],short_nil⟩,
    voteCall 50#256 203#256 60#256,finalizeCall 8#256,executeCall 1080003#64]

theorem prompt_life_cycle : ∃ tr t p,
    Run ((program sampleHost .values).Step (inRealm sampleHost .values)) sampleStart tr t ∧
    LifeCycle sampleHost .values 1#256 tr t ∧
    proposalAt sampleHost .values t.bank 1#256=some p ∧ p.status=.executed ∧
    sumOver (countsFor p.id true) (cellAt Formats.values.vote 100#256 t.bank)=100000 := by
  obtain ⟨⟨tr,t⟩,hhistory,p,hp,hstatus,hvotes,hlocks⟩ :
      ∃ x,(program sampleHost .values).history promptCalls sampleStart=some x ∧
      ∃ p,proposalAt sampleHost .values x.2.bank 1#256=some p ∧ p.status=.executed ∧
      p.forVotes.toNat=100000 ∧ (x.1.all fun y => ((Formats.values.dao.load (y.pre.bank
        8#256).data).map DaoState.timelockPeriod).all (·==432000#64))=true := by decide +kernel
  have hrealm : ∀ c∈promptCalls,daoKey? c=some 8#256 ∧ c.clock.slot.toNat≤1080003 := by decide
  have hrun :
      Run ((program sampleHost .values).Step (inRealm sampleHost .values)) sampleStart tr t := by
    refine history_run hhistory fun x hx c hc => ?_
    obtain ⟨c',hc',hlabel⟩ := history_calls hhistory x hx
    obtain rfl : c'=c := Action.call.inj (hlabel.symm.trans hc)
    obtain ⟨hdao,_⟩ := hrealm c' hc'
    refine ⟨fun k hk => (some.inj (hdao.symm.trans hk)).symm,fun _ d hd => ?_⟩
    have hlock := all_eq_true.mp hlocks x hx
    rw [show Formats.values.dao.load (x.pre.bank 8#256).data=some d from hd] at hlock
    have hlock : d.timelockPeriod=432000#64 := by simpa using hlock
    rw [hlock]
    simp only [toNat_ofNat]
    omega
  have hlife := proposal_life_cycle Formats.values_decoded SampleHost.separate sampleStart_untouched
    hrun 1#256
  exact ⟨tr,t,p,hrun,hlife,hp,hstatus,(hlife.tallied p hp true).symm.trans hvotes⟩

end PrismChain.Dao
