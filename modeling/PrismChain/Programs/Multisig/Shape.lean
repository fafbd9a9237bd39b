import PrismChain.Programs.Multisig.Authorisation

namespace PrismChain.PrismMultisig

open List Program Storage Bank

theorem multisig_exact : Formats.values.multisig.Exact := whole_exact (by decide) _

theorem transaction_exact : Formats.values.transaction.Exact := whole_exact (by decide) _

theorem kinds_apart : Formats.values.multisig.Apart Formats.values.transaction :=
  whole_apart (by decide) _ _

def multisigAt (h : Runtime) : Bank → Pubkey → Option Multisig :=
  cellAt Formats.values.multisig h.programId

def transactionAt (h : Runtime) : Bank → Pubkey → Option MultisigTransaction :=
  cellAt Formats.values.transaction h.programId

/-- The event's instruction, which calls nobody, left the bank `b'`. -/
def Event.Left (h : Runtime) (e : Event) (b' : Bank) : Prop :=
  ∃ f,plainInstruction h .values e.call.clock e.call.accounts e.call.instruction
    ⟨e.bank,e.bank⟩=.ok f ∧
    Invocation.sync ⟨h.programId,e.call.accounts⟩ (e.call.accounts.map AccountInfo.key) f=.ok () ∧
    f.view=b'

theorem Event.Left.effect {h : Runtime} {e : Event} {b' : Bank} (hleft : e.Left h b') :
    Effect h .values e.call e.bank b' := by
  obtain ⟨⟨_,_,i⟩,b⟩ := e
  obtain ⟨f,hp,hsync,rfl⟩ := hleft
  exact plain_effect hsync hp

theorem Proposed.owned (u : Proposed h .values c b b' km kt proposer m ix)
    (hgrew : ∃ b1 count,count≠m.transactionCount ∧
      Wrote Formats.values.multisig h.programId b b1 km {m with transactionCount := count}) :
    (b km).owner=h.programId := by
  obtain ⟨b1,count,hne,w⟩ := hgrew
  exact w.owned_of_ne multisig_exact u.multisig fun hsame =>
    hne (congrArg Multisig.transactionCount hsame)

/-- A transaction was noted as executed: there are no new multisigs and pending transactions. -/
structure Noted (h : Runtime) (b b' : Bank) : Prop where
  owners : ∀ k,(b' k).owner=(b k).owner
  multisigs : ∀ ⦃k m⦄,multisigAt h b' k=some m → multisigAt h b k=some m
  pending : ∀ ⦃k t⦄,transactionAt h b' k=some t → t.status=.pending → transactionAt h b k=some t

theorem noted_of_store {h : Runtime} {b : Bank} {k : Pubkey} {d : List Byte} {now : I64}
    {t : MultisigTransaction} (hstore : Formats.values.transaction.store
      {t with status := .executed,executedAt := now} (b k).data=some d) : Noted h b
        (b.setData k d) := by
  have hother {j : Pubkey} (hj : j≠k) : b.setData k d j=b j := Function.update_of_ne hj _ _
  refine ⟨fun j => setData_owner _ _ _ _,fun j m hm => ?_,fun j t' ht' hpending => ?_⟩
  · have hj : j≠k := by
      rintro rfl
      have hload := (cellAt_eq_some.mp hm).2
      rw [setData_same] at hload
      exact kinds_apart hload (transaction_exact.stored hstore)
    exact (cellAt_congr (hother hj)).symm.trans hm
  · have hj : j≠k := by
      rintro rfl
      have hload := (cellAt_eq_some.mp ht').2
      rw [setData_same] at hload
      rw [Formats.values.transaction.load_store hstore hload] at hpending
      cases hpending
    exact (cellAt_congr (hother hj)).symm.trans ht'

/-- What every instruction keeps that calls nobody, and what others keep, is kept by the calls too
that the program makes. -/
structure Invariant (h : Runtime) (Ok : Event → Prop) (Inv : Bank → Prop) : Prop where
  plain : ∀ {e b'},Inv e.bank → Ok e → e.Left h b' → Inv b'
  outside : ∀ {b b'},Inv b → Outside h.programId b b' → Inv b'
  noted : ∀ {b b'},Inv b → Noted h b b' → Inv b'

section Runs

variable {h : Runtime} {Inv : Bank → Prop} {s : Ledger}

theorem left_of_processTo (hp : processTo h .values (n+1) c b=.ok (b',log))
    (hi : c.instruction≠.executeTransaction) : Event.Left h ⟨c,b⟩ b' := by
  obtain ⟨f,_,hdone,hsync,hview,-⟩ := processTo_eq_ok.mp hp
  rw [processInstruction_plain hi,bind_eq_ok] at hdone
  obtain ⟨g,hg,hpure⟩ := hdone
  obtain ⟨rfl,-⟩ := Prod.mk.inj (pure_eq_ok.mp hpure)
  exact ⟨g,hg,hsync,hview⟩

theorem Invariant.processTo (hlaw : h.Lawful) (hinv : Invariant h Ok Inv)
    (hp : processTo h .values n c b=.ok (b',log)) (hok : ∀ e∈log,Ok e) (hb : Inv b) :
    Inv b' ∧ ∀ e∈log,Inv e.bank ∧ (e.call.instruction≠.executeTransaction → ∃ b',e.Left h b') := by
  induction n generalizing c b b' log with
  | zero => cases hp
  | succ n ih =>
    obtain ⟨rfl,-,hplain⟩ | ⟨_,_,m,t,b1,nested,rfl,u⟩ := processTo_spec hp
    · have hleft := left_of_processTo hp hplain
      refine ⟨hinv.plain (e := ⟨c,b⟩) hb (hok _ mem_cons_self) hleft,fun e he => ?_⟩
      obtain rfl := mem_singleton.mp he
      exact ⟨hb,fun _ => ⟨b',hleft⟩⟩
    · have hcalled : Inv b1 ∧ ∀ e∈nested,Inv e.bank ∧
          (e.call.instruction≠.executeTransaction → ∃ b',e.Left h b') := by
        obtain ⟨_,hc'⟩ | ⟨rfl,p,_,_,_,hforeign,hcall⟩ := u.called
        · exact ih hc' (fun e he => hok e (mem_cons_of_mem _ he)) hb
        · exact ⟨hinv.outside hb (hlaw.foreign_outside hforeign hcall),nofun⟩
      obtain ⟨d,hstore,rfl⟩ := u.wrote
      refine ⟨hinv.noted hcalled.1 (noted_of_store hstore),fun e he => ?_⟩
      obtain rfl | he := mem_cons.mp he
      · exact ⟨hb,fun hplain => absurd u.instruction hplain⟩
      · exact hcalled.2 e he

theorem Invariant.run (hlaw : h.Lawful) (hinv : Invariant h Ok Inv) (h0 : Inv s.bank)
    (hrun : Run ((program h .values).Step anyCall) s tr t) (hok : ∀ e∈events h .values tr,Ok e) :
    Inv t.bank ∧ ∀ e∈events h .values tr,
      Inv e.bank ∧ (e.call.instruction≠.executeTransaction → ∃ b',e.Left h b') := by
  induction hrun with
  | start => exact ⟨h0,nofun⟩
  | @next tr t u a _ hstep ih =>
    rw [events_append] at hok ⊢
    obtain ⟨ht,hbefore⟩ := ih fun e he => hok e (mem_append_left _ he)
    cases hstep with
    | @call c b' hclock _ hx =>
      obtain ⟨log,hp⟩ := execute_eq_ok.mp hx
      have hlog : events h .values [⟨t,.call c,⟨b',c.clock⟩⟩]=log := by
        simp [events,eventsOf_eq hp]
      rw [hlog] at hok ⊢
      obtain ⟨hb',hduring⟩ := hinv.processTo hlaw hp (fun e he => hok e (mem_append_right _ he)) ht
      exact ⟨hb',fun e he => (mem_append.mp he).elim (hbefore e) (hduring e)⟩
    | @outside b' clk hclock hout =>
      have hlog : events h .values [⟨t,.outside,⟨b',clk⟩⟩]=[] := rfl
      rw [hlog,append_nil]
      exact ⟨hinv.outside ht hout,hbefore⟩

end Runs

/-- Nobody votes twice on a record, which names an account of the program. -/
structure Voted (h : Runtime) (b : Bank) (t : MultisigTransaction) : Prop where
  owned : (b t.multisig).owner=h.programId
  approvals : t.approvals.val.Nodup
  rejections : t.rejections.val.Nodup
  apart : t.approvals.val.Disjoint t.rejections.val

section Voting

theorem Voted.endorsed {approvals : Vec Pubkey} (hv : Voted h b t) (hfirst : k∉t.approvals.val)
    (hrejections : k∉t.rejections.val) (hpush : approvals.val=t.approvals.val++[k]) (threshold : U8)
    (now : I64) : Voted h b (endorsed t approvals threshold now) := by
  have hnew : Voted h b {t with approvals := approvals} := by
    refine ⟨hv.owned,?_,hv.rejections,?_⟩
    · dsimp only
      rw [hpush,← concat_eq_append]
      exact hv.approvals.concat hfirst
    · dsimp only
      rw [hpush,disjoint_append_left]
      exact ⟨hv.apart,singleton_disjoint.mpr hrejections⟩
  unfold PrismMultisig.endorsed
  split_ifs
  · exact {hnew with}
  · exact hnew

theorem Voted.opposed {rejections : Vec Pubkey} (hv : Voted h b t) (hfirst : k∉t.rejections.val)
    (happrovals : k∉t.approvals.val) (hpush : rejections.val=t.rejections.val++[k]) (m : Multisig) :
    Voted h b (opposed t rejections m) := by
  have hnew : Voted h b {t with rejections := rejections} := by
    refine ⟨hv.owned,hv.approvals,?_,?_⟩
    · dsimp only
      rw [hpush,← concat_eq_append]
      exact hv.rejections.concat hfirst
    · dsimp only
      rw [hpush,disjoint_append_right]
      exact ⟨hv.apart,disjoint_singleton.mpr happrovals⟩
  unfold PrismMultisig.opposed
  dsimp only
  split_ifs
  · exact {hnew with}
  · exact hnew

end Voting

structure Sane (h : Runtime) (b : Bank) : Prop where
  shaped : ∀ ⦃k m⦄,multisigAt h b k=some m → Shaped m
  voted : ∀ ⦃k t⦄,transactionAt h b k=some t → t.status=.pending → Voted h b t

namespace Sane

variable {h : Runtime} {b b' : Bank}

theorem multisig (hs : Sane h b) (w : Wrote Formats.values.multisig h.programId b b' k m)
    (hm : (b k).owner=h.programId → Shaped m) : Sane h b' := by
  refine ⟨fun j m' hj => ?_,fun j t hj hpending => ?_⟩
  · obtain ⟨-,howner,rfl⟩ | ⟨-,hold⟩ := w.cell_before hj
    · exact hm howner
    · exact hs.shaped hold
  · have ht := hs.voted (w.other_kind_before multisig_exact kinds_apart hj) hpending
    exact {ht with owned := (w.owner _).trans ht.owned}

theorem transaction (hs : Sane h b) (w : Wrote Formats.values.transaction h.programId b b' k t)
    (ht : (b k).owner=h.programId → t.status=.pending → Voted h b t) : Sane h b' := by
  refine ⟨fun j m hj => ?_,fun j t' hj hpending => ?_⟩
  · exact hs.shaped (w.other_kind_before transaction_exact kinds_apart.symm hj)
  have ht' : Voted h b t' := by
    obtain ⟨-,howner,rfl⟩ | ⟨-,hold⟩ := w.cell_before hj
    · exact ht howner hpending
    · exact hs.voted hold hpending
  exact {ht' with owned := (w.owner _).trans ht'.owned}

theorem of_effect (hs : Sane h b) (u : Effect h .values c b b') : Sane h b' := by
  have hvoted {k : Pubkey} {t : MultisigTransaction}
      (ht : Formats.values.transaction.load (b k).data=some t) (hpending : t.status=.pending)
      (howner : (b k).owner=h.programId) : Voted h b t :=
    hs.voted (cellAt_eq_some.mpr ⟨howner,ht⟩) hpending
  cases u with
  | created hi hkey hplace hm hthreshold w => exact hs.multisig w fun _ => hm
  | changed hi hkey hm hm' hthreshold w =>
    exact hs.multisig w fun howner => hm' (hs.shaped (cellAt_eq_some.mpr ⟨howner,hm⟩))
  | @proposed km kt _ m _ u hgrew =>
    obtain ⟨b1,_,_,hw1,hw2⟩ := u.wrote
    have hs1 : Sane h b1 := hs.multisig hw1 fun howner => by
      have hm := hs.shaped (cellAt_eq_some.mpr ⟨howner,u.multisig⟩)
      exact ⟨hm.distinct,hm.many,hm.few,hm.positive,hm.reachable⟩
    exact hs1.transaction hw2 fun _ _ => ⟨(hw1.owner km).trans (u.owned hgrew),nodup_singleton _,
      nodup_nil,disjoint_nil_right _⟩
  | @approved km kt _ m t _ u hrejections =>
    exact hs.transaction u.wrote fun howner _ => (hvoted u.transaction u.pending howner).endorsed
      u.first hrejections u.pushed _ _
  | rejected hi hkm hkt _ hm _ ht hpending hfirst happrovals hpush w =>
    exact hs.transaction w fun howner _ =>
      (hvoted ht hpending howner).opposed hfirst happrovals hpush _
  | cancelled hi hkey ht _ w => exact hs.transaction w fun _ hpending => by cases hpending
  | idle hi hkm hkt hplace hsame => exact hsame ▸ hs

theorem outside (hs : Sane h b) (hout : Outside h.programId b b') : Sane h b' := by
  refine ⟨fun k m hk => ?_,fun k t hk hpending => ?_⟩
  · exact hs.shaped ((hout.cells multisig_exact k).symm.trans hk)
  · have ht := hs.voted ((hout.cells transaction_exact k).symm.trans hk) hpending
    exact {ht with owned := (hout.owned ht.owned).1}

theorem noted (hs : Sane h b) (hnote : Noted h b b') : Sane h b' := by
  refine ⟨fun k m hm => hs.shaped (hnote.multisigs hm),fun k t ht hpending => ?_⟩
  have hold := hs.voted (hnote.pending ht hpending) hpending
  exact {hold with owned := (hnote.owners _).trans hold.owned}

theorem invariant (h : Runtime) : Invariant h (fun _ => True) (Sane h) where
  plain hs _ hleft := hs.of_effect hleft.effect
  outside := outside
  noted := noted

end Sane

theorem start_sane {h : Runtime} (h0 : Untouched h.programId b) : Sane h b := by
  refine ⟨fun k m hk => ?_,fun k t hk _ => ?_⟩
  · cases (h0.cells multisig_exact k).symm.trans hk
  · cases (h0.cells transaction_exact k).symm.trans hk

/-- Whatever is done, every multisig of the program has distinct signers, at least two and at most
eleven, and a threshold that they can reach. -/
theorem multisigs_shaped {h : Runtime} (hlaw : h.Lawful) {s : Ledger}
    (h0 : Untouched h.programId s.bank) (hrun : Run ((program h .values).Step anyCall) s tr t)
    (hm : cellAt Formats.values.multisig h.programId t.bank k=some m) :
    m.signers.val.Nodup ∧ minSigners≤ m.signers.val.length ∧ m.signers.val.length≤ maxSigners ∧
      1≤ m.threshold.toNat ∧ m.threshold.toNat≤ m.signers.val.length := by
  obtain ⟨hs,-⟩ := (Sane.invariant h).run hlaw (start_sane h0) hrun fun _ _ => trivial
  obtain ⟨hdistinct,hmany,hfew,hpositive,hreachable⟩ := hs.shaped hm
  exact ⟨hdistinct,hmany,hfew,hpositive,hreachable⟩

theorem grown_multisig_shaped : ∃ x m,(program sampleRuntime .values).history
      [ownCall,proposeCall,approveCall,executeCall 3#256 6000#256 33#256 100#256]
        sampleStart=some x ∧
    cellAt Formats.values.multisig 100#256 x.2.bank 3#256=some m ∧ m.signers.val.length=4 ∧
    m.signers.val.Nodup ∧ minSigners≤ m.signers.val.length ∧ m.signers.val.length≤ maxSigners ∧
    1≤ m.threshold.toNat ∧ m.threshold.toNat≤ m.signers.val.length := by
  obtain ⟨x,hx,m,hm,hlength⟩ : ∃ x∈(program sampleRuntime .values).history
        [ownCall,proposeCall,approveCall,executeCall 3#256 6000#256 33#256 100#256] sampleStart, ∃
        m∈cellAt Formats.values.multisig 100#256 x.2.bank 3#256,m.signers.val.length=4 := by
      decide +kernel
  have hrun := history_anyCall hx
  exact ⟨x,m,hx,hm,hlength,multisigs_shaped sampleRuntime_lawful sample_untouched hrun hm⟩

end PrismChain.PrismMultisig
