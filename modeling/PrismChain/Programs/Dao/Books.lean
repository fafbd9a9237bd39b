import PrismChain.Programs.Dao.Layout

namespace PrismChain.Dao

open Aggregate Option

/-- What a record adds to one side of the proposal `id`. -/
def countsFor (id : U64) (side : Bool) (r : VoteRecord) : Nat :=
  if r.proposalId=id ∧ r.support=side then r.voteWeight.toNat else 0

/-- Every vote is filed at its address, and the tallies are the sums of the votes filed. -/
structure Books (h : Host) (fm : Formats) (b : Bank) : Prop where
  layout : Layout h fm b
  filed : ∀ {j r},cellAt fm.vote h.programId b j=some r → j=(votePda h r.proposalId r.voter).1 ∧
      ∃ p,proposalAt h fm b (proposalPda h r.proposalId).1=some p
  tallied : ∀ {k p},proposalAt h fm b k=some p → ∀ side,
    (p.votes side).toNat=sumOver (countsFor p.id side) (cellAt fm.vote h.programId b)

section Decoded

variable {h : Host} {fm : Formats} {b : Bank} {j k token : Pubkey} {p p' : Proposal}
    {r : VoteRecord}

theorem Next.votes (hn : Next fm c b k p p')
    (hno : ∀ support,c.instruction=.castVote support → c.key? 1≠some k) : p'.votes=p.votes := by
  cases hn with
  | same => rfl
  | voted hi hkey => exact absurd hkey (hno _ hi)
  | finalized _ _ _ _ _ _ hfinal =>
    obtain hpass | rfl := finalized_spec hfinal
    · rw [hpass.result]
      funext side
      cases side <;> rfl
    · funext side
      cases side <;> rfl
  | executed =>
    funext side
    cases side <;> rfl
  | cancelled =>
    funext side
    cases side <;> rfl

variable (hfm : fm.Decoded)
include hfm

theorem Accepted.layout (u : Accepted h fm c b b') (hl : Layout h fm b) : Layout h fm b' where
  proposals := by
    intro k p' hp'
    have hload := (proposalAt_eq_some.mp hp').2.1
    cases u.written hfm.nonempty k with
    | kept hdata howner => exact hl.proposals ((proposalAt_congr hdata howner).symm.trans hp')
    | daoMade _ _ _ _ hstore => exact (hfm.daoProposal (hfm.dao.stored hstore) hload).elim
    | daoCounted _ hstore => exact (hfm.daoProposal (hfm.dao.stored hstore) hload).elim
    | proposed v _ hstore =>
      obtain rfl := fm.proposal.load_store hstore hload
      exact v.place
    | rewritten hbefore _ hid _ hstore =>
      obtain rfl := fm.proposal.load_store hstore hload
      rw [hid]
      exact hl.proposals hbefore
    | voted _ _ hstore => exact (hfm.proposalVote hload (hfm.vote.stored hstore)).elim
    | delegated _ hstore =>
      obtain ⟨-,hstore⟩ | ⟨-,hstore⟩ := hstore <;>
        exact (hfm.proposalDelegation hload (hfm.delegation.stored hstore)).elim
  daos := by
    intro k d' hd'
    have hload := (daoAt_eq_some.mp hd').2.1
    cases u.written hfm.nonempty k with
    | kept hdata howner => exact hl.daos ((daoAt_congr hdata howner).symm.trans hd')
    | daoMade hplace hdefaults _ _ hstore =>
      obtain rfl := fm.dao.load_store hstore hload
      exact ⟨hplace,hdefaults⟩
    | daoCounted hbefore hstore =>
      obtain rfl := fm.dao.load_store hstore hload
      obtain ⟨hplace,hdefaults⟩ := hl.daos hbefore
      exact ⟨hplace,⟨hdefaults.votingPeriod,hdefaults.quorumBps,hdefaults.timelockPeriod⟩⟩
    | proposed _ _ hstore => exact (hfm.daoProposal hload (hfm.proposal.stored hstore)).elim
    | rewritten _ _ _ _ hstore => exact (hfm.daoProposal hload (hfm.proposal.stored hstore)).elim
    | voted _ _ hstore => exact (hfm.daoVote hload (hfm.vote.stored hstore)).elim
    | delegated _ hstore =>
      obtain ⟨-,hstore⟩ | ⟨-,hstore⟩ := hstore <;>
        exact (hfm.daoDelegation hload (hfm.delegation.stored hstore)).elim

theorem Accepted.proposal_after (u : Accepted h fm c b b') (hsep : Separate h) (hl : Layout h fm b)
    (hp : proposalAt h fm b k=some p) : ∃ p',proposalAt h fm b' k=some p' ∧ Next fm c b k p p' := by
  have hload := (proposalAt_eq_some.mp hp).2.1
  have hplace := hl.proposals hp
  have hused : (b k).data≠[] := by
    intro hnil
    rw [hnil,hfm.nonempty.proposal] at hload
    cases hload
  cases u.written hfm.nonempty k with
  | kept hdata howner => exact ⟨p,(proposalAt_congr hdata howner).trans hp,.same⟩
  | daoMade hdao => exact absurd (hplace.symm.trans hdao) (hsep.proposalDao _)
  | daoCounted hbefore => exact absurd (hplace.symm.trans (hl.daos hbefore).1) (hsep.proposalDao _)
  | proposed _ hfresh => exact absurd hfresh hused
  | rewritten hbefore hnext _ hstatus hstore howner =>
    cases hp.symm.trans hbefore
    exact ⟨_,proposalAt_eq_some.mpr ⟨howner,hfm.proposal.stored hstore,hstatus⟩,hnext⟩
  | voted _ hfresh => exact absurd hfresh hused
  | delegated hdelegation =>
    obtain ⟨o,e,hdelegation⟩ := hdelegation
    exact absurd (hplace.symm.trans hdelegation) (hsep.proposalDelegation _ o e)

theorem Voted.before (u : Voted h fm c b b' k kv token p p' r) : proposalAt h fm b k=some p := by
  have hapart := u.apart hfm.nonempty
  obtain ⟨_,ha,hs⟩ := u.wrote
  obtain ⟨hdata,howner⟩ := ha.others k hapart
  have hactive : p.status≠.pending := by
    rw [u.opened]
    decide
  refine proposalAt_eq_some.mpr ⟨?_,u.proposal,hactive⟩
  obtain howned | hsame := hs.owned
  · exact howner.symm.trans howned
  have hload := hfm.proposal.stored hs.store
  rw [hsame,hdata,u.proposal] at hload
  have hvotes := (tally_spec u.tallied).2 r.support
  rw [← some.inj hload,if_pos rfl] at hvotes
  have hzero : r.voteWeight=0#64 := BitVec.eq_of_toNat_eq (by simpa using hvotes)
  exact absurd hzero u.positive

theorem Voted.after (u : Voted h fm c b b' k kv token p p' r) : proposalAt h fm b' k=some p' := by
  have hapart := u.apart hfm.nonempty
  have hbefore := (proposalAt_eq_some.mp (u.before hfm)).1
  obtain ⟨_,ha,hs⟩ := u.wrote
  refine proposalAt_eq_some.mpr ⟨?_,hfm.proposal.stored hs.store,?_⟩
  · rw [hs.owner,(ha.others k hapart).2,hbefore]
  · rw [(tally_spec u.tallied).1.status,u.opened]
    decide

theorem Voted.record_before (u : Voted h fm c b b' k kv token p p' r) :
    cellAt fm.vote h.programId b kv=none := by
  obtain ⟨_,ha,-⟩ := u.wrote
  exact ha.before (hfm.vote.blank (by simp))

theorem Voted.record_after (u : Voted h fm c b b' k kv token p p' r) :
    cellAt fm.vote h.programId b' kv=some r := by
  have hapart := u.apart hfm.nonempty
  obtain ⟨_,ha,hs⟩ := u.wrote
  rw [cellAt_congr (hs.others kv (Ne.symm hapart))]
  exact ha.cell hfm.vote

theorem Written.vote_cases (w : Written h fm c b b' j) (hsep : Separate h) (hb : Books h fm b) :
    cellAt fm.vote h.programId b' j=cellAt fm.vote h.programId b j ∨
      ∃ k token p p' r,Voted h fm c b b' k j token p p' r := by
  have hblank : fm.vote.load []=none := hfm.vote.blank (by simp)
  have hnone {b0 : Bank} (hno : ∀ r,fm.vote.load (b0 j).data≠some r) :
      cellAt fm.vote h.programId b0 j=none := by
    cases hr : cellAt fm.vote h.programId b0 j with
    | none => rfl
    | some r => exact absurd (cellAt_eq_some.mp hr).2 (hno r)
  have hempty (hfresh : (b j).data=[]) : cellAt fm.vote h.programId b j=none :=
    hnone fun r hr => by rw [hfresh,hblank] at hr; cases hr
  cases w with
  | kept hdata howner =>
    left
    unfold cellAt
    rw [hdata,howner]
  | daoMade _ _ _ hfresh hstore =>
    left
    rw [hempty hfresh,hnone fun r hr => hfm.daoVote (hfm.dao.stored hstore) hr]
  | daoCounted hbefore hstore =>
    left
    rw [hnone fun r hr => hfm.daoVote (hfm.dao.stored hstore) hr,
      hnone fun r hr => hfm.daoVote (daoAt_eq_some.mp hbefore).2.1 hr]
  | proposed _ hfresh hstore =>
    left
    rw [hempty hfresh,hnone fun r hr => hfm.proposalVote (hfm.proposal.stored hstore) hr]
  | rewritten hbefore _ _ _ hstore =>
    left
    rw [hnone fun r hr => hfm.proposalVote (hfm.proposal.stored hstore) hr,
      hnone fun r hr => hfm.proposalVote (proposalAt_eq_some.mp hbefore).2.1 hr]
  | voted u => exact Or.inr ⟨_,_,_,_,_,u⟩
  | delegated hplace hstore =>
    left
    obtain ⟨o,e,hplace⟩ := hplace
    have hbefore : cellAt fm.vote h.programId b j=none := by
      cases hr : cellAt fm.vote h.programId b j with
      | none => rfl
      | some r => exact absurd ((hb.filed hr).1.symm.trans hplace) (hsep.voteDelegation _ _ o e)
    have hafter : cellAt fm.vote h.programId b' j=none := by
      obtain ⟨-,hstore⟩ | ⟨-,hstore⟩ := hstore <;>
        exact hnone fun r hr => hfm.voteDelegation hr (hfm.delegation.stored hstore)
    rw [hbefore,hafter]

theorem Proposed.unvoted (u : Proposed h fm c b b' kd k dao p) (hb : Books h fm b) (side : Bool) :
    sumOver (countsFor p.id side) (cellAt fm.vote h.programId b)=0 := by
  refine sumOver_zero fun j r hr => ?_
  unfold countsFor
  split
  case isFalse => rfl
  rename_i hcounts
  obtain ⟨-,q,hq⟩ := hb.filed hr
  obtain ⟨_,ha,-⟩ := u.wrote
  rw [hcounts.1,← u.place] at hq
  have hload := (proposalAt_eq_some.mp hq).2.1
  rw [ha.fresh,hfm.nonempty.proposal] at hload
  cases hload

variable (hsep : Separate h) (hb : Books h fm b)
include hsep hb

theorem Accepted.votes_kept (u : Accepted h fm c b b')
    (hno : ∀ support,c.instruction≠.castVote support)
    (j : Pubkey) : cellAt fm.vote h.programId b' j=cellAt fm.vote h.programId b j := by
  obtain hsame | ⟨_,_,_,_,_,v⟩ := (u.written hfm.nonempty j).vote_cases hfm hsep hb
  · exact hsame
  · exact absurd v.instruction (hno _)

theorem Voted.records (u : Voted h fm c b b' k kv token p p' r) (g : VoteRecord → Nat) :
    sumOver g (cellAt fm.vote h.programId b')=sumOver g (cellAt fm.vote h.programId b)+g r := by
  refine sumOver_insert (u.record_before hfm) (u.record_after hfm) fun j hj => ?_
  obtain hsame | ⟨_,_,_,_,_,v⟩ := (u.written hfm.nonempty j).vote_cases hfm hsep hb
  · exact hsame
  · exact absurd (some.inj (v.recordKey.symm.trans u.recordKey)) hj

theorem Accepted.filed (u : Accepted h fm c b b') (hr : cellAt fm.vote h.programId b' j=some r) :
    j=(votePda h r.proposalId r.voter).1 ∧
      ∃ p,proposalAt h fm b' (proposalPda h r.proposalId).1=some p := by
  obtain hsame | ⟨k,_,p,p',_,v⟩ := (u.written hfm.nonempty j).vote_cases hfm hsep hb
  · obtain ⟨hplace,p,hp⟩ := hb.filed (hsame.symm.trans hr)
    obtain ⟨p',hp',-⟩ := u.proposal_after hfm hsep hb.layout hp
    exact ⟨hplace,p',hp'⟩
  · cases (v.record_after hfm).symm.trans hr
    refine ⟨v.place,p',?_⟩
    rw [v.about,← hb.layout.proposals (v.before hfm)]
    exact v.after hfm

theorem Accepted.tallied_kept (u : Accepted h fm c b b')
    (hno : ∀ support,c.instruction≠.castVote support)
    (hp' : proposalAt h fm b' k=some p') (side : Bool) :
    (p'.votes side).toNat=sumOver (countsFor p'.id side) (cellAt fm.vote h.programId b') := by
  rw [sumOver_congr (u.votes_kept hfm hsep hb hno)]
  have hplace := (u.layout hfm hb.layout).proposals hp'
  obtain ⟨_,_,v⟩ | ⟨p,hp,hnext⟩ :=
    (u.written hfm.nonempty k).proposal_before hsep hb.layout hplace hp'
  · rw [v.unvoted hfm hb,v.made]
    cases side <;> rfl
  · rw [hnext.votes fun support hi => absurd hi (hno support),hnext.id]
    exact hb.tallied hp side

theorem Voted.tallied_after (u : Voted h fm c b b' k kv token p p' r)
    (hq : proposalAt h fm b' j=some q)
    (side : Bool) :
    (q.votes side).toNat=sumOver (countsFor q.id side) (cellAt fm.vote h.programId b') := by
  rw [u.records hfm hsep hb]
  have hbefore := u.before hfm
  by_cases hj : j=k
  · subst hj
    cases (u.after hfm).symm.trans hq
    obtain ⟨hrest,hvotes⟩ := tally_spec u.tallied
    rw [hvotes,hrest.id,hb.tallied hbefore]
    simp only [countsFor,u.about,true_and,eq_comm]
  · have haccepted : Accepted h fm c b b' := .voted u
    have hplace := (haccepted.layout hfm hb.layout).proposals hq
    obtain ⟨_,_,v⟩ | ⟨_,hp0,hnext⟩ :=
      (haccepted.written hfm.nonempty j).proposal_before hsep hb.layout hplace hq
    · cases v.instruction.symm.trans u.instruction
    have hkey (hk : c.key? 1=some j) : False :=
      hj (some.inj (hk.symm.trans u.proposalKey))
    have hother : countsFor q.id side r=0 := by
      refine if_neg fun hcounts => hj ?_
      rw [hplace,← hcounts.1,u.about,← hb.layout.proposals hbefore]
    rw [hother,Nat.add_zero]
    cases hnext with
    | same => exact hb.tallied hp0 side
    | voted _ hk => exact (hkey hk).elim
    | finalized _ hk => exact (hkey hk).elim
    | executed _ hk => exact (hkey hk).elim
    | cancelled _ hk => exact (hkey hk).elim

theorem Accepted.books (u : Accepted h fm c b b') : Books h fm b' where
  layout := u.layout hfm hb.layout
  filed := u.filed hfm hsep hb
  tallied := by
    intro k p' hp' side
    by_cases hvote : ∃ support,c.instruction=.castVote support
    · obtain ⟨support,hi⟩ := hvote
      obtain ⟨_,_,_,_,_,_,v⟩ := u.voted_of hi
      exact v.tallied_after hfm hsep hb hp' side
    · exact u.tallied_kept hfm hsep hb (fun support hi => hvote ⟨support,hi⟩) hp' side

end Decoded

section Runs

variable {h : Host} {fm : Formats} {s : Ledger} (hfm : fm.Decoded)
include hfm

theorem Outside.proposals (hout : Outside h.programId b b') (k : Pubkey) :
    proposalAt h fm b' k=proposalAt h fm b k := by
  unfold proposalAt
  rw [hout.cells hfm.proposal k]

theorem Books.outside {b b' : Bank} (hb : Books h fm b) (hout : Outside h.programId b b') :
    Books h fm b' where
  layout :=
    { proposals := fun hp => hb.layout.proposals ((Outside.proposals hfm hout _).symm.trans hp)
      daos := fun {k d} hd => by
        refine hb.layout.daos (k := k) (d := d) ?_
        rw [← hd]
        unfold daoAt
        rw [hout.cells hfm.dao k] }
  filed := by
    intro j r hr
    obtain ⟨hplace,p,hp⟩ := hb.filed ((hout.cells hfm.vote j).symm.trans hr)
    exact ⟨hplace,p,(Outside.proposals hfm hout _).trans hp⟩
  tallied := by
    intro k p hp side
    rw [sumOver_congr (hout.cells hfm.vote)]
    exact hb.tallied ((Outside.proposals hfm hout k).symm.trans hp) side

theorem Books.step (hsep : Separate h) (hb : Books h fm s.bank)
    (hstep : (program h fm).Step ok s a t) : Books h fm t.bank := by
  cases hstep with
  | call _ _ hx => exact (execute_spec hx).books hfm hsep hb
  | outside _ hout => exact hb.outside hfm hout

theorem Books.start (h0 : Untouched h.programId b) : Books h fm b where
  layout :=
    { proposals := fun {k p} hp => by
        rw [proposalAt,h0.cells hfm.proposal k] at hp
        cases hp
      daos := fun {k d} hd => by
        rw [daoAt,h0.cells hfm.dao k] at hd
        cases hd }
  filed := by
    intro j r hr
    rw [h0.cells hfm.vote j] at hr
    cases hr
  tallied := by
    intro k p hp
    rw [proposalAt,h0.cells hfm.proposal k] at hp
    cases hp

theorem books_run (hsep : Separate h) (h0 : Untouched h.programId s.bank)
    (hrun : Run ((program h fm).Step ok) s tr t) : Books h fm t.bank :=
  hrun.invariant (I := fun t => Books h fm t.bank) (Books.start hfm h0)
    fun hb hstep => hb.step hfm hsep hstep

end Runs
end PrismChain.Dao
