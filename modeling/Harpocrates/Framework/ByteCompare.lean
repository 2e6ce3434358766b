import Harpocrates.Framework.Bytes

namespace Framework

open List Nat

def lexLt : Bytes → Bytes → Bool
  | x::a,y::b => if x < y then true else if x > y then false else lexLt a b
  | _,_ => false

/-- For strings of one length it is the order of the numbers they denote. -/
theorem lexLt_iff {a b : Bytes} (h : a.length=b.length) :
    lexLt a b=true ↔ beNat a<beNat b := by
  induction a generalizing b with
  | nil =>
    rw [length_eq_zero_iff.1 h.symm]
    simp [lexLt]
  | cons x a ih =>
    obtain ⟨y,b,rfl⟩ := exists_cons_of_length_eq_add_one h.symm
    have htail : a.length=b.length := Nat.succ.inj h
    have ha := beNat_lt a
    have hb := beNat_lt b
    rw [htail] at ha
    rw [lexLt,beNat_cons,beNat_cons,htail]
    rcases lt_trichotomy x.toNat y.toNat with hlt | heq | hgt
    · have hstep := mul_le_mul_right (256^b.length) (succ_le_of_lt hlt)
      rw [succ_mul] at hstep
      rw [if_pos (UInt8.lt_iff_toNat_lt.2 hlt)]
      exact iff_of_true rfl (by omega)
    · obtain rfl := UInt8.toNat_inj.1 heq
      have hirrefl : ¬ x<x := UInt8.lt_irrefl x
      rw [if_neg hirrefl,if_neg hirrefl,ih htail]
      omega
    · have hstep := mul_le_mul_right (256^b.length) (succ_le_of_lt hgt)
      rw [succ_mul] at hstep
      have hnot : ¬ x<y := fun hlt => lt_asymm hgt (UInt8.lt_iff_toNat_lt.1 hlt)
      rw [if_neg hnot,if_pos (UInt8.lt_iff_toNat_lt.2 hgt)]
      exact iff_of_false (by simp) (by omega)

def orAll (b : Bytes) : UInt8 := b.foldl (fun acc x => acc ||| x) 0

theorem orAll_eq_zero (b : Bytes) : orAll b=0 ↔ b.all (· == 0)=true := by
  have hfold : ∀ (l : Bytes) (acc : UInt8),
      l.foldl (fun acc x => acc ||| x) acc=0 ↔ acc=0 ∧ l.all (· == 0)=true := by
    intro l
    induction l with
    | nil => simp
    | cons x l ih =>
      intro acc
      rw [foldl_cons,ih,UInt8.or_eq_zero_iff,all_cons,Bool.and_eq_true,beq_iff_eq,
        and_assoc]
  simpa [orAll] using hfold b 0

def xorAll (a b : Bytes) : UInt8 := (a.zip b).foldl (fun acc p => acc ||| (p.1 ^^^ p.2)) 0

theorem xorAll_eq_zero {a b : Bytes} (h : a.length=b.length) : xorAll a b=0 ↔ a=b := by
  have hfold : ∀ (a b : Bytes) (acc : UInt8), a.length=b.length →
      ((a.zip b).foldl (fun acc p => acc ||| (p.1 ^^^ p.2)) acc=0 ↔ acc=0 ∧ a=b) := by
    intro a
    induction a with
    | nil =>
      intro b acc hlen
      simp [length_eq_zero_iff.1 hlen.symm]
    | cons x a ih =>
      intro b acc hlen
      obtain ⟨y,b,rfl⟩ := exists_cons_of_length_eq_add_one hlen.symm
      rw [zip_cons_cons,foldl_cons,ih b _ (Nat.succ.inj hlen),UInt8.or_eq_zero_iff,
        UInt8.xor_eq_zero_iff,List.cons.injEq,and_assoc]
  simpa [xorAll] using hfold a b 0 h

def shiftIn (b : Bytes) : Nat := b.foldl (fun acc x => acc <<< 8 ||| x.toNat) 0

theorem shiftIn_eq (b : Bytes) : shiftIn b=beNat b := by
  have hstep : (fun (acc : Nat) (x : UInt8) => acc <<< 8 ||| x.toNat) =
      fun acc x => 256*acc+x.toNat := by
    funext acc x
    rw [← shiftLeft_add_eq_or_of_lt x.toNat_lt,shiftLeft_eq,mul_comm]
  rw [shiftIn,hstep,beNat]

end Framework
