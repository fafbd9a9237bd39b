import PrismChain.Programs.DefiOracle.Processor
import PrismChain.Programs.Oracle.Processor

namespace PrismChain.DefiOracle

open FixedWidth List BitVec

def ranked (values : List U64) : List U64 := values.insertionSort fun a b => a.toNat≤b.toNat

def Within (lo hi : Nat) (v : U64) : Bool := decide (lo≤v.toNat ∧ v.toNat≤hi)

instance : IsTrans U64 fun a b => a.toNat≤b.toNat := ⟨fun _ _ _ => Nat.le_trans⟩

instance : Std.Total fun a b : U64 => a.toNat≤b.toNat := ⟨fun _ _ => Nat.le_total _ _⟩

theorem ranked_sorted (values : List U64) : (ranked values).Pairwise fun a b => a.toNat≤b.toNat :=
  pairwise_insertionSort _ _

theorem ranked_perm (values : List U64) : (ranked values).Perm values := perm_insertionSort _ _

theorem length_ranked : (ranked values).length=values.length := (ranked_perm _).length_eq

theorem ranked_eq (h : values'.Perm values) : ranked values'=ranked values :=
  Perm.eq_of_pairwise (fun _ _ _ _ hab hba => eq_of_toNat_eq (Nat.le_antisymm hab hba))
    (ranked_sorted _) (ranked_sorted _) ((ranked_perm _).trans (h.trans (ranked_perm _).symm))

/-- A value in the middle lies where more than half of the values lie. -/
theorem within_of_rank (hx : (ranked values)[i]?=some x) (hi₁ : values.length≤2*i+2)
    (hi₂ : 2*i≤values.length) (hmost : values.length<2*values.countP (Within lo hi)) :
    Within lo hi x=true := by
  obtain ⟨hlt,rfl⟩ := List.getElem?_eq_some_iff.mp hx
  have hsplit :
      ranked values=(ranked values).take i++(ranked values)[i]::(ranked values).drop (i+1) := by
    simp
  have hsorted := ranked_sorted values
  rw [hsplit] at hsorted
  obtain ⟨-,hafter,hcross⟩ := pairwise_append.mp hsorted
  rw [← (ranked_perm values).countP_eq,hsplit] at hmost
  by_contra hout
  rw [countP_append,countP_cons_of_neg hout] at hmost
  have hle₁ : ((ranked values).take i).countP (Within lo hi)≤ i :=
    countP_le_length.trans (length_take_le _ _)
  have hle₂ : ((ranked values).drop (i+1)).countP (Within lo hi)≤values.length-(i+1) := by
    rw [← length_ranked,← length_drop]
    exact countP_le_length
  -- the majority is too large for one side
  obtain ⟨v,hv,hlow⟩ := countP_pos_iff.mp
    (show 0<((ranked values).take i).countP (Within lo hi) by omega)
  obtain ⟨w,hw,hhigh⟩ := countP_pos_iff.mp
    (show 0<((ranked values).drop (i+1)).countP (Within lo hi) by omega)
  have hvx := hcross v hv _ mem_cons_self
  have hxw := rel_of_pairwise_cons hafter hw
  simp only [Within,decide_eq_true_eq] at *
  omega

theorem halves_exact (a b : U64) :
    (a/2#64+b/2#64+(a%2#64+b%2#64)/2#64).toNat=(a.toNat+b.toNat)/2 := by
  have ha := a.isLt
  have hb := b.isLt
  simp only [toNat_add,toNat_udiv,toNat_umod,show (2#64).toNat=2 from rfl]
  omega

theorem toInt_wide (x : BitVec 128) (hx : x.toNat<2^65) : x.toInt=x.toNat :=
  toInt_eq_toNat_of_lt (by omega)

/-- The sum of two prices that fit in 64 bits does not wrap around in 128. -/
theorem wide_average (a b : U64) : (a.setWidth 128+b.setWidth 128).sdiv 2#128=
    (a/2#64+b/2#64+(a%2#64+b%2#64)/2#64).setWidth 128 := by
  have hmean := halves_exact a b
  generalize a/2#64+b/2#64+(a%2#64+b%2#64)/2#64=m at *
  have hsum : (a.setWidth 128+b.setWidth 128).toNat=a.toNat+b.toNat := by
    simp only [toNat_add,toNat_setWidth]
    omega
  have hm : (m.setWidth 128).toNat=m.toNat := by
    rw [toNat_setWidth]
    omega
  refine eq_of_toInt_eq ?_
  rw [toInt_sdiv_of_nonneg,
    toInt_wide _ (by omega),toInt_wide (m.setWidth 128) (by omega),hsum,hm,hmean]
  · rfl
  · rw [toInt_wide _ (by omega)]
    omega
  · decide

theorem computeMedian_eq : computeMedian values=if values.length%2=0 then
      (ranked values)[values.length/2-1]?.bind fun a =>
        (ranked values)[values.length/2]?.map fun b =>
        a/2#64+b/2#64+(a%2#64+b%2#64)/2#64
    else (ranked values)[values.length/2]? := by
  rw [← length_ranked]
  rfl

theorem wide_ranked : (values.map (setWidth 128)).insertionSort (fun a b => a.toInt≤b.toInt)=
    (ranked values).map (setWidth 128) := by
  refine (map_insertionSort _ _ _ _ fun a _ b _ => ?_).symm
  have ha := toNat_widen (show 64≤128 by decide) a
  have hb := toNat_widen (show 64≤128 by decide) b
  rw [toInt_wide _ (by omega),toInt_wide _ (by omega),ha,hb]
  omega

/-- The median of a list that is not empty: its value, and that it neither overflows, nor depends on
the order, nor leaves an interval with more than half of the values, nor differs from the other
oracle's. -/
theorem computeMedian_exact (values : List U64) : values=[] ∨ ∃ lower upper m,
    (ranked values)[(values.length-1)/2]?=some lower ∧
    (ranked values)[values.length/2]?=some upper ∧ computeMedian values=some m ∧
    lower.toNat/2+upper.toNat/2+(lower.toNat%2+upper.toNat%2)/2<2^64 ∧
    m.toNat=(lower.toNat+upper.toNat)/2 ∧ (values.length%2=1 → m=upper) ∧
    (∀ values',values'.Perm values → computeMedian values'=some m) ∧
    (∀ lo hi,values.length<2*values.countP (Within lo hi) → Within lo hi m=true) ∧
    Oracle.median (values.map (setWidth 128))=some (m.setWidth 128) := by
  obtain hnil | hpos := Nat.eq_zero_or_pos values.length
  · exact .inl (length_eq_zero_iff.mp hnil)
  have hrank (i) (hi : i<values.length) : ∃ x,(ranked values)[i]?=some x :=
    ⟨_,getElem?_eq_getElem (by rw [length_ranked]; exact hi)⟩
  obtain ⟨lower,hlower⟩ := hrank ((values.length-1)/2) (by omega)
  obtain ⟨upper,hupper⟩ := hrank (values.length/2) (by omega)
  have hlow := lower.isLt
  have hup := upper.isLt
  have hvalue : ∃ m,computeMedian values=some m ∧ m.toNat=(lower.toNat+upper.toNat)/2 ∧
      (values.length%2=1 → m=upper) ∧
      Oracle.median (values.map (setWidth 128))=some (m.setWidth 128) := by
    rw [computeMedian_eq]
    simp only [Oracle.median,wide_ranked,length_map,length_ranked,getElem?_map]
    by_cases heven : values.length%2=0
    · rw [if_pos heven,if_pos heven,show values.length/2-1=(values.length-1)/2 by
      omega,hlower,hupper]
      exact ⟨_,rfl,halves_exact _ _,by omega,congrArg some (wide_average _ _)⟩
    · rw [if_neg heven,if_neg heven,hupper]
      rw [show (values.length-1)/2=values.length/2 by omega,hupper] at hlower
      obtain rfl := Option.some.inj hlower
      exact ⟨_,rfl,by omega,fun _ => rfl,rfl⟩
  obtain ⟨m,hm,hmean,hodd,hwide⟩ := hvalue
  refine .inr ⟨lower,upper,m,hlower,hupper,hm,by omega,hmean,hodd,fun values' hperm => ?_,
    fun lo hi hmost => ?_,hwide⟩
  · rw [computeMedian_eq] at hm ⊢
    rw [ranked_eq hperm,hperm.length_eq]
    exact hm
  · have hl := within_of_rank hlower (by omega) (by omega) hmost
    have hu := within_of_rank hupper (by omega) (by omega) hmost
    simp only [Within,decide_eq_true_eq] at *
    omega

end PrismChain.DefiOracle
