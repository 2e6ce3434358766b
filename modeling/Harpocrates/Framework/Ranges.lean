import Mathlib.Tactic

namespace Framework.Ranges

open List Function

/-- The number of steps from `start` that stay before `stop`. -/
def steps (distance step : Int) : Nat := ((distance+step-1)/step).toNat

def range (start stop step : Int) : List Int :=
  if 0 < step then (List.range (steps (stop-start) step)).map fun i : Nat => start+i*step
  else (List.range (steps (start-stop) (-step))).map fun i : Nat => start+i*step

variable {step : Int}

theorem steps_zero {distance : Int} (hstep : 0<step) (h : distance≤0) :
    steps distance step=0 := by
  have hlt : distance+step-1<step := by omega
  have hle : (distance+step-1)/step≤0 := by
    have hdiv := Int.ediv_lt_of_lt_mul hstep (show distance+step-1<1*step by omega)
    omega
  exact Int.toNat_eq_zero.2 hle

theorem steps_succ {distance : Int} (hstep : 0<step) (h : 0<distance) :
    steps distance step=steps (distance-step) step+1 := by
  have hsum : distance+step-1=(distance-step+step-1)+step := by omega
  have hdiv : (distance+step-1)/step=(distance-step+step-1)/step+1 := by
    rw [hsum,Int.add_ediv_of_dvd_right (dvd_refl step),Int.ediv_self (by omega)]
  have hpos : 0≤(distance-step+step-1)/step := Int.ediv_nonneg (by omega) (by omega)
  rw [steps,steps,hdiv]
  omega

theorem range_up (start stop : Int) (hstep : 0<step) : range start stop step =
    if start<stop then start::range (start+step) stop step else [] := by
  have hshift : stop-(start+step)=stop-start-step := by omega
  rw [range,if_pos hstep,range,if_pos hstep,hshift]
  split_ifs with h
  · rw [steps_succ hstep (by omega),range_succ_eq_map,map_cons,map_map]
    refine congrArg₂ List.cons (by simp) (map_congr_left fun i _ => ?_)
    rw [comp_apply,Nat.cast_succ]
    ring
  · rw [steps_zero hstep (by omega)]
    rfl

theorem range_down (start stop : Int) (hstep : 0<step) : range start stop (-step) =
    if stop<start then start::range (start-step) stop (-step) else [] := by
  have hneg : ¬ 0 < -step := by omega
  have hshift : start-step-stop=start-stop-step := by omega
  rw [range,if_neg hneg,range,if_neg hneg,neg_neg,hshift]
  split_ifs with h
  · rw [steps_succ hstep (by omega),range_succ_eq_map,map_cons,map_map]
    refine congrArg₂ List.cons (by simp) (map_congr_left fun i _ => ?_)
    rw [comp_apply,Nat.cast_succ]
    ring
  · rw [steps_zero hstep (by omega)]
    rfl

theorem range_up_spec (hstep : 0<step) (start stop : Int) :
    (range start stop step).Pairwise (fun x y => x+step≤y) ∧
      ∀ x∈range start stop step, start≤x ∧ x<stop := by
  generalize hn : (stop-start).toNat=n
  induction n using Nat.strongRecOn generalizing start with
  | ind n ih =>
    rw [range_up _ _ hstep]
    split_ifs with h
    · obtain ⟨hpairs,hbounds⟩ := ih (stop-(start+step)).toNat (by omega) (start+step) rfl
      refine ⟨pairwise_cons.2 ⟨fun y hy => (hbounds y hy).1,hpairs⟩,?_⟩
      intro x hx
      rcases mem_cons.1 hx with rfl | hx
      · omega
      · have hbound := hbounds x hx
        omega
    · exact ⟨List.Pairwise.nil,fun x hx => absurd hx not_mem_nil⟩

theorem range_down_spec (hstep : 0<step) (start stop : Int) :
    (range start stop (-step)).Pairwise (fun x y => y+step≤x) ∧
      ∀ x∈range start stop (-step), x ≤ start ∧ stop<x := by
  generalize hn : (start-stop).toNat=n
  induction n using Nat.strongRecOn generalizing start with
  | ind n ih =>
    rw [range_down _ _ hstep]
    split_ifs with h
    · obtain ⟨hpairs,hbounds⟩ := ih (start-step-stop).toNat (by omega) (start-step) rfl
      refine ⟨pairwise_cons.2 ⟨fun y hy => ?_,hpairs⟩,?_⟩
      · have hbound := hbounds y hy
        omega
      intro x hx
      rcases mem_cons.1 hx with rfl | hx
      · omega
      · have hbound := hbounds x hx
        omega
    · exact ⟨List.Pairwise.nil,fun x hx => absurd hx not_mem_nil⟩

end Framework.Ranges
