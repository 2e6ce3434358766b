import Mathlib.Tactic

namespace Framework

abbrev Bytes := List UInt8

abbrev BytesN (n : Nat) := {b : Bytes // b.length = n}

namespace BytesN

def replicate (n : Nat) (x : UInt8) : BytesN n := ⟨List.replicate n x,List.length_replicate⟩

/-- The `n` bytes of `b` from position `i`; what lies beyond its end reads as zero. -/
def read (n : Nat) (b : Bytes) (i : Nat) : BytesN n :=
  ⟨(b.drop i++List.replicate n 0).take n,by simp⟩

def append {m n : Nat} (a : BytesN m) (b : BytesN n) : BytesN (m+n) :=
  ⟨a.1++b.1,by rw [List.length_append,a.2,b.2]⟩

end BytesN

def beNat (b : Bytes) : Nat := b.foldl (fun acc x => 256*acc+x.toNat) 0

theorem beNat_append (a b : Bytes) : beNat (a++b)=beNat a*256^b.length+beNat b := by
  induction b using List.reverseRecOn with
  | nil => simp [beNat]
  | append_singleton b x ih =>
    have step : ∀ c : Bytes, beNat (c++[x])=256*beNat c+x.toNat := fun c => by simp [beNat]
    rw [← List.append_assoc,step,step,ih,List.length_append,List.length_singleton,pow_succ]
    ring

theorem beNat_cons (x : UInt8) (b : Bytes) : beNat (x::b)=x.toNat*256^b.length+beNat b := by
  simpa [beNat] using beNat_append [x] b

theorem beNat_lt (b : Bytes) : beNat b<256^b.length := by
  induction b with
  | nil => simp [beNat]
  | cons x b ih =>
    have hx : x.toNat+1≤256 := x.toNat_lt
    calc beNat (x::b)=x.toNat*256^b.length+beNat b := beNat_cons x b
      _ < (x.toNat+1)*256^b.length := by rw [Nat.add_mul,Nat.one_mul]; omega
      _ ≤ 256*256^b.length := Nat.mul_le_mul_right _ hx
      _ = 256^(x::b).length := by rw [List.length_cons,pow_succ,Nat.mul_comm]

/-- Strings of one length that denote the same number are the same. -/
theorem beNat_inj {a b : Bytes} (hlen : a.length=b.length) (h : beNat a=beNat b) : a=b := by
  induction a generalizing b with
  | nil => exact (List.length_eq_zero_iff.1 hlen.symm).symm
  | cons x a ih =>
    obtain ⟨y,b,rfl⟩ := List.exists_cons_of_length_eq_add_one hlen.symm
    have htail : a.length=b.length := Nat.succ.inj hlen
    rw [beNat_cons,beNat_cons,htail] at h
    have ha := htail ▸ beNat_lt a
    have hb := beNat_lt b
    have hpos : 0<256^b.length := by positivity
    have hx : x.toNat=y.toNat := by
      have hdiv := congrArg (·/256^b.length) h
      simpa [Nat.add_comm (_*_),Nat.add_mul_div_right _ _ hpos,Nat.div_eq_of_lt ha,
        Nat.div_eq_of_lt hb] using hdiv
    rw [UInt8.toNat_inj.1 hx,ih htail (by rw [hx] at h; omega)]

theorem beNat_eq_zero (b : Bytes) : beNat b=0 ↔ b.all (· == 0)=true := by
  induction b with
  | nil => simp [beNat]
  | cons x b ih =>
    have hx : x.toNat=0 ↔ x=0 := UInt8.toNat_inj (b := 0)
    rw [beNat_cons,Nat.add_eq_zero_iff,ih,Nat.mul_eq_zero,hx]
    simp

/-- A string of `m+n` bytes denotes a number of `n` bytes when its first `m` bytes are zero. -/
theorem beNat_lt_iff {b : Bytes} {m n : Nat} (h : b.length=m+n) :
    beNat b<256^n ↔ (b.take m).all (· == 0)=true := by
  have hlow : (b.drop m).length=n := by simp [h]
  have hsplit : beNat b=beNat (b.take m)*256^n+beNat (b.drop m) := by
    rw [← hlow,← beNat_append,List.take_append_drop]
  have hlt := hlow ▸ beNat_lt (b.drop m)
  have hpos : 0<256^n := by positivity
  rw [← beNat_eq_zero,hsplit]
  constructor
  · intro hb
    by_contra hne
    have := Nat.mul_le_mul_right (256^n) (Nat.one_le_iff_ne_zero.2 hne)
    omega
  · intro hz
    rw [hz]
    omega

theorem beNat_of_lt {b : Bytes} {m n : Nat} (h : b.length=m+n) (hb : beNat b<256^n) :
    beNat b=beNat (b.drop m) := by
  have hz := (beNat_eq_zero _).2 ((beNat_lt_iff h).1 hb)
  rw [← List.take_append_drop m b,beNat_append,hz]
  simp

namespace BytesN

theorem read_zero {n : Nat} {b : Bytes} (h : n≤b.length) : (read n b 0).1=b.take n := by
  simp [read,List.take_append_of_le_length h]

theorem read_val {n i : Nat} {b : Bytes} (h : i+n≤b.length) :
    (read n b i).1=(b.drop i).take n := by
  have hlen : n≤(b.drop i).length := by
    rw [List.length_drop]
    omega
  exact List.take_append_of_le_length hlen

theorem read_drop (n : Nat) (b : Bytes) (k i : Nat) :
    read n (b.drop k) i=read n b (k+i) := by
  simp [read]

theorem eq_of_read {n k : Nat} {a b : Bytes} (ha : a.length=k*n) (hb : b.length=k*n)
    (h : ∀ i<k, read n a (i*n)=read n b (i*n)) : a=b := by
  induction k generalizing a b with
  | zero =>
    rw [Nat.zero_mul] at ha hb
    rw [List.length_eq_zero_iff.1 ha,List.length_eq_zero_iff.1 hb]
  | succ k ih =>
    have hla : n≤a.length := by rw [ha]; exact Nat.le_mul_of_pos_left n (Nat.succ_pos k)
    have hlb : n≤b.length := by rw [hb]; exact Nat.le_mul_of_pos_left n (Nat.succ_pos k)
    have hfirst : a.take n=b.take n := by
      have := congrArg Subtype.val (h 0 (Nat.succ_pos k))
      rwa [Nat.zero_mul,read_zero hla,read_zero hlb] at this
    have hrest : a.drop n=b.drop n := by
      refine ih ?_ ?_ fun i hi => ?_
      · rw [List.length_drop,ha,Nat.succ_mul,Nat.add_sub_cancel]
      · rw [List.length_drop,hb,Nat.succ_mul,Nat.add_sub_cancel]
      · have := h (i+1) (Nat.succ_lt_succ hi)
        rwa [read_drop,read_drop,Nat.add_comm n,← Nat.succ_mul]
    rw [← List.take_append_drop n a,hfirst,hrest,List.take_append_drop]

end BytesN

end Framework
