import Mathlib.Tactic

namespace PrismChain

structure Reserves where
  a : Nat
  b : Nat
  supply : Nat

namespace Reserves

/-- No more shares than the geometric mean of the reserves, and none of the three is empty alone. -/
structure Balanced (p : Reserves) : Prop where
  square : p.supply*p.supply≤p.a*p.b
  emptyA : p.supply=0 ↔ p.a=0
  emptyB : p.supply=0 ↔ p.b=0

/-- The product of what a share is worth in the two assets does not fall. -/
def NotDiluted (p q : Reserves) : Prop :=
  p.a*p.b*(q.supply*q.supply)≤q.a*q.b*(p.supply*p.supply)

/-- What a pool with a constant-product rule admits; every division is rounded in its favour. -/
inductive Change : Reserves → Reserves → Prop
  | seed {x y m : Nat} (hx : 0<x) (hy : 0<y) (hm : 0< m) (hmean : m*m≤x*y) : Change ⟨0,0,0⟩ ⟨x,y,m⟩
  | deposit {a b n x y m : Nat} (hn : 0<n) (ha : m*a≤x*n) (hb : m*b≤y*n) :
      Change ⟨a,b,n⟩ ⟨a+x,b+y,n+m⟩
  | withdraw {a b n x y m : Nat} (hn : 0<n) (hm : m≤n) (ha : x*n≤ m*a) (hb : y*n≤ m*b)
      (hall : m=n → x=a ∧ y=b) : Change ⟨a,b,n⟩ ⟨a-x,b-y,n-m⟩
  | tradeA {a b n x out : Nat} (hout : out<b) (hx : out*(a+x)≤x*b) : Change ⟨a,b,n⟩ ⟨a+x,b-out,n⟩
  | tradeB {a b n x out : Nat} (hout : out<a) (hx : out*(b+x)≤x*a) : Change ⟨a,b,n⟩ ⟨a-out,b+x,n⟩

variable {p q : Reserves} {a b n x y m out : Nat}

theorem notDiluted_of_shares (ha : p.a*q.supply≤q.a*p.supply) (hb : p.b*q.supply≤q.b*p.supply) :
    NotDiluted p q := by
  have hmul := Nat.mul_le_mul ha hb
  calc p.a*p.b*(q.supply*q.supply)=p.a*q.supply*(p.b*q.supply) := by ring
    _ ≤ q.a*p.supply*(q.b*p.supply) := hmul
    _ = q.a*q.b*(p.supply*p.supply) := by ring

theorem rest_share (hx : x*n≤ m*a) : a*(n-m)≤(a-x)*n := by
  rw [Nat.mul_sub,Nat.sub_mul,Nat.mul_comm a m]
  exact Nat.sub_le_sub_left hx _

theorem trade_product (hout : out≤b) (hx : out*(a+x)≤x*b) : a*b≤(a+x)*(b-out) := by
  obtain ⟨r,rfl⟩ := Nat.exists_eq_add_of_le hout
  rw [Nat.add_sub_cancel_left]
  have hsplit : a*(out+r)+x*(out+r)=(a+x)*r+out*(a+x) := by ring
  omega

theorem Change.notDiluted (h : Change p q) : NotDiluted p q := by
  cases h with
  | seed => simp [NotDiluted]
  | deposit _ ha hb =>
    refine notDiluted_of_shares ?_ ?_
    · dsimp only
      linarith
    · dsimp only
      linarith
  | withdraw _ _ ha hb => exact notDiluted_of_shares (rest_share ha) (rest_share hb)
  | tradeA hout hx => exact Nat.mul_le_mul_right _ (trade_product hout.le hx)
  | @tradeB a b n x out hout hx =>
    have hproduct := trade_product hout.le hx
    refine Nat.mul_le_mul_right _ ?_
    dsimp only
    rw [Nat.mul_comm a b,Nat.mul_comm (a-out)]
    exact hproduct

/-- The bound by the geometric mean is kept by whatever does not dilute. -/
theorem NotDiluted.square (h : NotDiluted p q) (hp : p.supply*p.supply≤p.a*p.b)
    (hpos : 0<p.supply) : q.supply*q.supply≤q.a*q.b := by
  have hab : 0<p.a*p.b := (Nat.mul_pos hpos hpos).trans_le hp
  have hle : p.a*p.b*(q.supply*q.supply)≤p.a*p.b*(q.a*q.b) := by
    calc p.a*p.b*(q.supply*q.supply)≤q.a*q.b*(p.supply*p.supply) := h
      _ ≤ q.a*q.b*(p.a*p.b) := Nat.mul_le_mul_left _ hp
      _ = p.a*p.b*(q.a*q.b) := by ring
  exact Nat.le_of_mul_le_mul_left hle hab

/-- A proportional withdrawal empties a reserve only when it burns the last share. -/
theorem withdraw_empty (ha : 0<a) (hm : m≤n) (hx : x*n≤ m*a) (hall : m=n → x=a) :
    n-m=0 ↔ a-x=0 := by
  constructor
  · intro h
    rw [hall (by omega),Nat.sub_self]
  · intro h
    have hle : a*n≤ m*a := (Nat.mul_le_mul_right n (by omega)).trans hx
    have hmn : n≤ m := Nat.le_of_mul_le_mul_left (by linarith) ha
    omega

theorem Change.balanced (h : Change p q) (hp : p.Balanced) : q.Balanced := by
  have hkept := h.notDiluted
  have hsquare : 0<p.supply → q.supply*q.supply≤q.a*q.b := hkept.square hp.square
  obtain ⟨-,hA,hB⟩ := hp
  cases h with
  | seed _ _ hm hmean => exact ⟨hmean,by dsimp only; omega,by dsimp only; omega⟩
  | deposit hn =>
    dsimp only at hA hB
    exact ⟨hsquare hn,by dsimp only; omega,by dsimp only; omega⟩
  | withdraw hn hm ha hb hall =>
    dsimp only at hA hB
    exact ⟨hsquare hn,withdraw_empty (by omega) hm ha fun h => (hall h).1,
      withdraw_empty (by omega) hm hb fun h => (hall h).2⟩
  | @tradeA a b n x out hout =>
    dsimp only at hA hB hsquare ⊢
    exact ⟨hsquare (by omega),by dsimp only; omega,by dsimp only; omega⟩
  | @tradeB a b n x out hout =>
    dsimp only at hA hB hsquare ⊢
    exact ⟨hsquare (by omega),by dsimp only; omega,by dsimp only; omega⟩

/-- A proportional deposit buys no more shares than the geometric mean of its two parts. -/
theorem Balanced.deposit_mean (hp : Balanced ⟨a,b,n⟩) (hn : 0<n) (ha : m*a≤x*n) (hb : m*b≤y*n) :
    m*m≤x*y := by
  have hsquare : n*n≤a*b := hp.square
  have hab : 0<a*b := (Nat.mul_pos hn hn).trans_le hsquare
  have hle : a*b*(m*m)≤a*b*(x*y) := by
    calc a*b*(m*m)=m*a*(m*b) := by ring
      _ ≤ x*n*(y*n) := Nat.mul_le_mul ha hb
      _ = x*y*(n*n) := by ring
      _ ≤ x*y*(a*b) := Nat.mul_le_mul_left _ hsquare
      _ = a*b*(x*y) := by ring
  exact Nat.le_of_mul_le_mul_left hle hab

end Reserves
end PrismChain
