import PrismChain.Programs.Dao.LifeCycle

namespace PrismChain.Dao

open Aggregate Option List Function Prod Program Bank

def ballot? (k : Pubkey) (x : LogEntry Instruction) : Option (Pubkey×Nat) :=
  match x.label with
  | .call c =>
    if c.instruction.isVote=true ∧ c.key? 1=some k then
      (c.key? 3).bind fun token => (TokenAccount.unpack (x.pre.bank token).data).toOption.map
        fun a => (token,a.amount.toNat)
    else none
  | .outside => none

def ballots (k : Pubkey) (tr : Trace Instruction) : List (Pubkey×Nat) := tr.filterMap (ballot? k)

/-- The tokens that vote have not voted yet: they are of the mint, in an account that no earlier
ballot came from, and the accounts of the earlier ballots still hold what has voted. -/
structure Unspent (tokenProgram mint : Pubkey) (earlier : List (Pubkey×Nat)) (b : Bank)
    (token : Pubkey) : Prop where
  genuine : ∃ a,tokenAt tokenProgram mint b token=some a
  fresh : token∉earlier.map Prod.fst
  held : ∀ x∈earlier,∃ a,tokenAt tokenProgram mint b x.1=some a ∧ x.2≤a.amount.toNat

section Ballots

variable {h : Host} {fm : Formats} {p : Proposal} {s : Ledger}

theorem ballots_append_one (x : LogEntry Instruction) :
    ballots k (tr++[x])=ballots k tr++(ballot? k x).toList := by
  unfold ballots
  rw [filterMap_append]
  cases hx : ballot? k x <;> simp [hx]

theorem Voted.ballot (u : Voted h fm c s.bank b' k kv token p p' r) :
    ballot? k ⟨s,.call c,t⟩=some (token,r.voteWeight.toNat) := by
  obtain ⟨a,hread,-,hamount⟩ := u.tokens
  simp [ballot?,u.instruction,Instruction.isVote,u.proposalKey,u.tokenKey,hread,Except.toOption,
    hamount]

theorem Accepted.no_ballot (u : Accepted h fm c s.bank b') (hnone : ballot? k ⟨s,.call c,t⟩=none)
    (support : Bool) (hi : c.instruction=.castVote support) : c.key? 1≠some k := by
  intro hkey
  obtain ⟨k1,_,_,_,_,_,w⟩ := u.voted_of hi
  cases w.proposalKey.symm.trans hkey
  cases w.ballot.symm.trans hnone

theorem ballot_unpack (hx : ballot? k ⟨s,a,t⟩=some (token,weight)) :
    ∃ x,TokenAccount.unpack (s.bank token).data=.ok x ∧ x.amount.toNat=weight := by
  cases a with
  | outside => cases hx
  | call =>
    simp only [ballot?] at hx
    split at hx
    case isFalse => cases hx
    obtain ⟨_,-,hread⟩ := bind_eq_some_iff.mp hx
    obtain ⟨x,hopt,heq⟩ := map_eq_some_iff.mp hread
    cases heq
    exact ⟨x,toOption_eq_some.mp hopt,rfl⟩

theorem Written.token_kept (w : Written h fm c b b' j) (hother : tokenProgram≠h.programId) :
    tokenAt tokenProgram mint b' j=tokenAt tokenProgram mint b j := by
  have hmine {b0 : Bank} (howner : (b0 j).owner=h.programId) :
      tokenAt tokenProgram mint b0 j=none := tokenAt_foreign (howner ▸ hother.symm)
  cases w with
  | kept hdata howner => exact tokenAt_congr hdata howner
  | daoMade _ _ _ hfresh _ howner => rw [hmine howner,tokenAt_blank hfresh]
  | daoCounted hbefore _ howner => rw [hmine howner,hmine (daoAt_eq_some.mp hbefore).1]
  | proposed _ hfresh _ howner => rw [hmine howner,tokenAt_blank hfresh]
  | rewritten hbefore _ _ _ _ howner => rw [hmine howner,hmine (proposalAt_eq_some.mp hbefore).1]
  | voted _ hfresh _ howner => rw [hmine howner,tokenAt_blank hfresh]
  | delegated _ hstore howner =>
    obtain ⟨hfresh,-⟩ | ⟨howned,-⟩ := hstore
    · rw [hmine howner,tokenAt_blank hfresh]
    · rw [hmine howner,hmine howned]

theorem Accepted.supply_kept (u : Accepted h fm c b b') (hne : fm.Nonempty)
    (hother : tokenProgram≠h.programId) :
    tokenSupply tokenProgram mint b'=tokenSupply tokenProgram mint b :=
  sumOver_congr fun j => (u.written hne j).token_kept hother

theorem supply_run (hne : fm.Nonempty) (hother : tokenProgram≠h.programId)
    (hrun : Run ((program h fm).Step ok) s tr t) (hkept : ∀ x∈tr,x.label=.outside →
      tokenSupply tokenProgram mint x.post.bank=tokenSupply tokenProgram mint x.pre.bank) :
    tokenSupply tokenProgram mint t.bank=tokenSupply tokenProgram mint s.bank := by
  refine hrun.traced (I := fun tr t => (∀ x∈tr,x.label=.outside →
    tokenSupply tokenProgram mint x.post.bank=tokenSupply tokenProgram mint x.pre.bank) →
    tokenSupply tokenProgram mint t.bank=tokenSupply tokenProgram mint s.bank)
      (fun _ => rfl) ?_ hkept
  intro tr t a u _ ih hstep hkept
  have hbefore := ih fun x hx => hkept x (mem_append_left _ hx)
  cases hstep with
  | call _ _ hx => exact ((execute_spec hx).supply_kept hne hother).trans hbefore
  | outside => exact (hkept _ (mem_append_right _ mem_cons_self) rfl).trans hbefore

variable (hfm : fm.Decoded) (hsep : Separate h)
include hfm hsep

theorem ballots_counted (h0 : Untouched h.programId s.bank)
    (hrun : Run ((program h fm).Step ok) s tr t) :
    (∀ p,proposalAt h fm t.bank k=some p →
      p.forVotes.toNat+p.againstVotes.toNat=((ballots k tr).map snd).sum) ∧
    (proposalAt h fm t.bank k=none → ballots k tr=[]) := by
  refine hrun.traced (I := fun tr t => (∀ p,proposalAt h fm t.bank k=some p →
    p.forVotes.toNat+p.againstVotes.toNat=((ballots k tr).map snd).sum) ∧
    (proposalAt h fm t.bank k=none → ballots k tr=[])) ?_ ?_
  · refine ⟨fun p hp => ?_,fun _ => rfl⟩
    rw [proposalAt,h0.cells hfm.proposal k] at hp
    cases hp
  · rintro tr t a u hrun ⟨ihsum,ihnone⟩ hstep
    have hb := books_run hfm hsep h0 hrun
    rw [ballots_append_one]
    cases hstep with
    | outside _ hout =>
      rw [Outside.proposals hfm hout k]
      simpa [ballot?] using ⟨ihsum,ihnone⟩
    | @call c b' _ _ hx =>
      have haccepted := execute_spec hx
      cases hballot : ballot? k ⟨t,.call c,⟨b',c.clock⟩⟩ with
      | some ballot =>
        have hvote : c.instruction.isVote=true ∧ c.key? 1=some k := by
          by_contra hno
          simp [ballot?,hno] at hballot
        obtain ⟨support,hi⟩ : ∃ support,c.instruction=.castVote support := by
          cases hcase : c.instruction <;> simp_all [Instruction.isVote]
        obtain ⟨k1,_,_,p,p',r,w⟩ := haccepted.voted_of hi
        cases w.proposalKey.symm.trans hvote.2
        cases w.ballot.symm.trans hballot
        refine ⟨fun q hq => ?_,fun hnone => absurd ((w.after hfm).symm.trans hnone) (by simp)⟩
        cases (w.after hfm).symm.trans hq
        have hearlier := ihsum p (w.before hfm)
        have hfor := (tally_spec w.tallied).2 true
        have hagainst := (tally_spec w.tallied).2 false
        simp only [Proposal.votes] at hfor hagainst
        simp only [toList_some,map_append,sum_append,map_cons,map_nil,sum_cons,sum_nil]
        rw [hfor,hagainst,← hearlier]
        cases r.support <;> simp <;> omega
      | none =>
        have hno := haccepted.no_ballot hballot
        rw [toList_none,append_nil]
        refine ⟨fun p' hp' => ?_,fun hnone => ?_⟩
        · have hplace := (haccepted.layout hfm hb.layout).proposals hp'
          obtain ⟨_,_,w⟩ | ⟨p,hp,hnext⟩ :=
            (haccepted.written hfm.nonempty k).proposal_before hsep hb.layout hplace hp'
          · have hbefore : proposalAt h fm t.bank k=none := by
              obtain ⟨_,ha,-⟩ := w.wrote
              rw [proposalAt,ha.before (hfm.proposal.blank (by simp))]
              rfl
            rw [ihnone hbefore,w.made]
            rfl
          · have hvotes := hnext.votes hno
            rw [← ihsum p hp]
            exact congrArg₂ (·+·) (congrArg BitVec.toNat (congrFun hvotes true))
              (congrArg BitVec.toNat (congrFun hvotes false))
        · refine ihnone ?_
          cases hp : proposalAt h fm t.bank k with
          | none => rfl
          | some p =>
            obtain ⟨p',hp',-⟩ := haccepted.proposal_after hfm hsep hb.layout hp
            cases hp'.symm.trans hnone

end Ballots

section Unspent

variable {tokenProgram mint k : Pubkey} {tr : Trace Instruction}

def AllUnspent (tokenProgram mint k : Pubkey) (tr : Trace Instruction) : Prop :=
  ∀ tr₁ x tr₂ token weight,tr=tr₁++x::tr₂ → ballot? k x=some (token,weight) →
    Unspent tokenProgram mint (ballots k tr₁) x.pre.bank token

theorem AllUnspent.front (h : AllUnspent tokenProgram mint k (tr++[x])) :
    AllUnspent tokenProgram mint k tr := by
  intro tr1 y tr2 token weight htr hy
  exact h tr1 y (tr2++[x]) token weight (by rw [htr]; simp) hy

theorem AllUnspent.nodup (h : AllUnspent tokenProgram mint k tr) :
    ((ballots k tr).map fst).Nodup := by
  induction tr using reverseRecOn with
  | nil => exact nodup_nil
  | append_singleton tr x ih =>
    have hearlier := ih h.front
    rw [ballots_append_one]
    cases hx : ballot? k x with
    | none => simpa using hearlier
    | some ballot =>
      have hfresh := (h tr x [] ballot.1 ballot.2 rfl hx).fresh
      rw [toList_some,map_append,nodup_append]
      refine ⟨hearlier,by simp,?_⟩
      intro j hj j' hj' heq
      obtain rfl : j'=ballot.1 := by simpa using hj'
      exact hfresh (heq ▸ hj)

theorem AllUnspent.backed {ballot : Pubkey×Nat} (h : AllUnspent tokenProgram mint k (tr++[x]))
    (hx : ballot? k x=some ballot) :
    ((ballots k (tr++[x])).map snd).sum≤tokenSupply tokenProgram mint x.pre.bank := by
  apply sum_le_sumOver h.nodup
  have hlast := h tr x [] ballot.1 ballot.2 rfl hx
  rw [ballots_append_one,hx]
  intro y hy
  cases mem_append.mp hy with
  | inl hearlier => exact hlast.held y hearlier
  | inr hnow =>
    obtain rfl : y=ballot := by simpa using hnow
    obtain ⟨a,ha⟩ := hlast.genuine
    obtain ⟨_,hread,hweight⟩ := ballot_unpack hx
    have hread' := (tokenAt_eq_some.mp ha).2.1
    rw [hread] at hread'
    exact ⟨a,ha,by rw [← hweight,Except.ok.inj hread']⟩

end Unspent

/-- Over every run in which no token votes twice on the proposal at `k`, its votes stay within the
supply; the token program may move the tokens as it likes as long as it keeps the supply. -/
theorem votes_within_supply {h : Host} {fm : Formats} (hfm : fm.Decoded) (hsep : Separate h)
    {tokenProgram mint : Pubkey} (hother : tokenProgram≠h.programId) {s t : Ledger}
    {tr : Trace Instruction} (h0 : Untouched h.programId s.bank)
    (hrun : Run ((program h fm).Step anyCall) s tr t)
    (hkept : ∀ x∈tr,x.label=.outside →
      tokenSupply tokenProgram mint x.post.bank=tokenSupply tokenProgram mint x.pre.bank)
    {k : Pubkey} (hunspent : AllUnspent tokenProgram mint k tr) {p : Proposal}
    (hp : proposalAt h fm t.bank k=some p) :
    p.forVotes.toNat+p.againstVotes.toNat≤tokenSupply tokenProgram mint s.bank := by
  rw [(ballots_counted hfm hsep h0 hrun).1 p hp]
  clear hp
  -- only a step that casts a ballot adds to the sum, and there the tokens back all of it
  refine hrun.traced (I := fun tr _ => (∀ x∈tr,x.label=.outside →
    tokenSupply tokenProgram mint x.post.bank=tokenSupply tokenProgram mint x.pre.bank) →
    AllUnspent tokenProgram mint k tr →
    ((ballots k tr).map snd).sum≤tokenSupply tokenProgram mint s.bank)
    (fun _ _ => Nat.zero_le _) ?_ hkept hunspent
  intro tr t a u hrun ih _ hkept hunspent
  have hearlier : ∀ x∈tr,x.label=.outside →
      tokenSupply tokenProgram mint x.post.bank=tokenSupply tokenProgram mint x.pre.bank :=
    fun x hx => hkept x (mem_append_left _ hx)
  cases hballot : ballot? k ⟨t,a,u⟩ with
  | none =>
    rw [ballots_append_one,hballot,toList_none,append_nil]
    exact ih hearlier hunspent.front
  | some ballot =>
    have hsupply := supply_run hfm.nonempty hother hrun hearlier
    exact (hunspent.backed hballot).trans hsupply.le

def emptyBank : Bank := Function.update sampleBank 60#256
  ⟨1000#64,TokenAccount.pack ⟨90#256,50#256,0#64⟩,7#256⟩

theorem emptyBank_supply : tokenSupply 7#256 90#256 emptyBank=0 := by
  have hfirst : tokenAt 7#256 90#256 emptyBank 60#256=some ⟨90#256,50#256,0#64⟩ := by decide +kernel
  have hsecond :
    tokenAt 7#256 90#256 emptyBank 61#256=some ⟨90#256,51#256,0#64⟩ := by decide +kernel
  apply sumOver_zero
  intro k a ha
  by_cases hk : k=60#256
  · rw [hk,hfirst] at ha
    rw [← some.inj ha]
    rfl
  · have howner := (tokenAt_eq_some.mp ha).1
    rw [emptyBank,update_of_ne hk] at howner
    have hk' : k=61#256 := by
      unfold sampleBank at howner
      split_ifs at howner with _ hk'
      · cases howner
      · exact hk'
      · cases howner
    rw [hk',hsecond] at ha
    rw [← some.inj ha]
    rfl

theorem sampleBank_supply : tokenSupply 7#256 90#256 sampleBank=100000 := by
  have hbefore : tokenAt 7#256 90#256 emptyBank 60#256=some ⟨90#256,50#256,0#64⟩ := by
    decide +kernel
  have hafter : tokenAt 7#256 90#256 sampleBank 60#256=some ⟨90#256,50#256,100000#64⟩ := by
    decide +kernel
  refine tokenSupply_of_one hbefore hafter ?_ emptyBank_supply rfl rfl
  intro j hj
  have hsame : emptyBank j=sampleBank j := update_of_ne hj _ _
  unfold tokenAt
  rw [hsame]

def firstCalls : List (Call Instruction) :=
  [initializeCall,createCall ⟨"fees",short_fees⟩ ⟨"",Codec.short_empty⟩ ⟨[],short_nil⟩,
    voteCall 50#256 203#256 60#256]

theorem full_vote_within_supply : ∃ tr t p,
    Run ((program sampleHost .values).Step anyCall) sampleStart tr t ∧
    proposalAt sampleHost .values t.bank 1#256=some p ∧ p.forVotes.toNat=100000 ∧
    p.forVotes.toNat+p.againstVotes.toNat≤tokenSupply 7#256 90#256 sampleBank := by
  obtain ⟨⟨tr,t⟩,hhistory,p,hp,hvotes,hballots,hgenuine⟩ :
      ∃ x,(program sampleHost .values).history firstCalls sampleStart=some x ∧
      ∃ p,proposalAt sampleHost .values x.2.bank 1#256=some p ∧ p.forVotes.toNat=100000 ∧
      ballots 1#256 x.1=[(60#256,100000)] ∧
      (x.1.all fun y => (tokenAt 7#256 90#256 y.pre.bank 60#256).isSome)=true := by decide +kernel
  have hrun := history_anyCall hhistory
  have hinside : ∀ x∈tr,x.label≠.outside := by
    intro x hx hout
    obtain ⟨c,-,hcall⟩ := history_calls hhistory x hx
    rw [hcall] at hout
    cases hout
  have hunspent : AllUnspent 7#256 90#256 1#256 tr := by
    intro tr₁ x tr₂ token weight htr hx
    have hsplit : ballots 1#256 tr₁++(token,weight)::ballots 1#256 tr₂=[(60#256,100000)] := by
      rw [← hballots,htr]
      simp [ballots,hx]
    have hfirst : ballots 1#256 tr₁=[] ∧ token=60#256 := by
      cases hnil : ballots 1#256 tr₁ with
      | nil =>
        rw [hnil] at hsplit
        exact ⟨rfl,congrArg fst (cons.inj hsplit).1⟩
      | cons y ys =>
        rw [hnil] at hsplit
        cases ys <;> cases hsplit
    rw [hfirst.1,hfirst.2]
    have hmem : x∈tr := by
      rw [htr]
      simp
    exact ⟨isSome_iff_exists.mp (all_eq_true.mp hgenuine x hmem),by simp,by simp⟩
  exact ⟨tr,t,p,hrun,hp,hvotes,votes_within_supply Formats.values_decoded SampleHost.separate
    (by decide) sampleStart_untouched hrun (fun x hx hout => absurd hout (hinside x hx)) hunspent
    hp⟩

def handOver (b : Bank) : Bank :=
  (b.setData 60#256 (TokenAccount.pack ⟨90#256,50#256,0#64⟩)).setData 61#256
    (TokenAccount.pack ⟨90#256,51#256,100000#64⟩)

theorem handOver_outside (hfirst : (b 60#256).owner=7#256) (hsecond : (b 61#256).owner=7#256) :
    Outside 100#256 b (handOver b) := by
  have howner (k : Pubkey) : (handOver b k).owner=(b k).owner := by
    rw [handOver,setData_owner,setData_owner]
  intro k
  refine ⟨fun hmine => ⟨(howner k).trans hmine,?_,?_⟩,fun hother hmine => ?_⟩
  · have h0 : k≠60#256 := by
      rintro rfl
      cases hfirst.symm.trans hmine
    have h1 : k≠61#256 := by
      rintro rfl
      cases hsecond.symm.trans hmine
    rw [handOver,setData_other _ _ h1,setData_other _ _ h0]
  · rw [handOver,setData_lamports,setData_lamports]
  · exact absurd ((howner k).symm.trans hmine) hother

theorem handOver_supply (hfirst : tokenAt 7#256 90#256 b 60#256=some ⟨90#256,50#256,100000#64⟩)
    (hsecond : tokenAt 7#256 90#256 b 61#256=some ⟨90#256,51#256,0#64⟩) :
    tokenSupply 7#256 90#256 (handOver b)=tokenSupply 7#256 90#256 b := by
  have hput {b0 : Bank} {k owner : Pubkey} {n m : U64} (hbefore : tokenAt 7#256 90#256 b0 k=
      some ⟨90#256,owner,n⟩) (hread : TokenAccount.unpack (TokenAccount.pack ⟨90#256,owner,m⟩)=
      .ok ⟨90#256,owner,m⟩) :
      tokenSupply 7#256 90#256 (b0.setData k (TokenAccount.pack ⟨90#256,owner,m⟩))+n.toNat=
        tokenSupply 7#256 90#256 b0+m.toNat := by
    have hafter : tokenAt 7#256 90#256 (b0.setData k (TokenAccount.pack ⟨90#256,owner,m⟩)) k=
        some ⟨90#256,owner,m⟩ := by
      apply tokenAt_eq_some.mpr
      rw [setData_owner,setData_same]
      exact ⟨(tokenAt_eq_some.mp hbefore).1,hread,rfl⟩
    exact tokenSupply_change hbefore hafter fun j hj =>
      tokenAt_congr (setData_other _ _ hj) (setData_owner _ _ _ _)
  have hsecond' : tokenAt 7#256 90#256 (b.setData 60#256 (TokenAccount.pack ⟨90#256,50#256,0#64⟩))
      61#256=some ⟨90#256,51#256,0#64⟩ := by
    rw [← hsecond]
    exact tokenAt_congr (setData_other _ _ (by decide)) (setData_owner _ _ _ _)
  have hout := hput hfirst (m := 0#64) (by decide +kernel)
  have hin := hput hsecond' (m := 100000#64) (by decide +kernel)
  simp only [BitVec.toNat_ofNat] at hout hin
  unfold handOver
  omega

/-- The same tokens vote twice, from two accounts. -/
theorem votes_beyond_supply : ∃ tr t d p,
    Run ((program sampleHost .values).Step anyCall) sampleStart tr t ∧
    (∀ x∈tr,x.label=.outside →
    tokenSupply 7#256 90#256 x.post.bank=tokenSupply 7#256 90#256 x.pre.bank) ∧
    daoAt sampleHost .values t.bank 8#256=some d ∧ d.governanceTokenMint=90#256 ∧
    proposalAt sampleHost .values t.bank 1#256=some p ∧
    p.forVotes.toNat+p.againstVotes.toNat=200000 ∧ tokenSupply 7#256 90#256 sampleBank=100000 := by
  obtain ⟨⟨tr,t⟩,hhistory,hfirst,hsecond,hbefore,b,hexec,d,hd,hmint,p,hp,hvotes⟩ :
      ∃ x,(program sampleHost .values).history firstCalls sampleStart=some x ∧
      tokenAt 7#256 90#256 x.2.bank 60#256=some ⟨90#256,50#256,100000#64⟩ ∧
      tokenAt 7#256 90#256 x.2.bank 61#256=some ⟨90#256,51#256,0#64⟩ ∧
      x.2.clock.before ⟨3#64,30#64⟩ ∧
      ∃ b,(program sampleHost .values).execute (voteCall 51#256 207#256 61#256)
        (handOver x.2.bank)=.ok b ∧
      ∃ d,daoAt sampleHost .values b 8#256=some d ∧ d.governanceTokenMint=90#256 ∧
      ∃ p,proposalAt sampleHost .values b 1#256=some p ∧
      p.forVotes.toNat+p.againstVotes.toNat=200000 := by decide +kernel
  have hrun := history_anyCall hhistory
  have hout := handOver_outside (tokenAt_eq_some.mp hfirst).1 (tokenAt_eq_some.mp hsecond).1
  have hmoved : (program sampleHost .values).Step anyCall t .outside
      ⟨handOver t.bank,t.clock⟩ := .outside ⟨le_rfl,le_rfl⟩ hout
  have hvoted : (program sampleHost .values).Step anyCall ⟨handOver t.bank,t.clock⟩
      (.call (voteCall 51#256 207#256 61#256)) ⟨b,⟨3#64,30#64⟩⟩ := .call hbefore trivial hexec
  refine ⟨_,_,d,p,(hrun.next hmoved).next hvoted,?_,hd,hmint,hp,hvotes,sampleBank_supply⟩
  intro x hx hlabel
  simp only [append_assoc,mem_append,mem_cons,not_mem_nil,or_false] at hx
  obtain hx | rfl | rfl := hx
  · obtain ⟨c,-,hcall⟩ := history_calls hhistory x hx
    rw [hcall] at hlabel
    cases hlabel
  · exact handOver_supply hfirst hsecond
  · cases hlabel

end PrismChain.Dao
