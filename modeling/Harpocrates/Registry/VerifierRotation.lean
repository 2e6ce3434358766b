import Harpocrates.Registry.Dispatch
import Harpocrates.Registry.System

namespace Harpocrates.Registry

open Framework Tx

@[ext] structure Rotation where
  verifier : Option Address
  state : Option VerifierState

namespace Rotation

/-- What can happen to the verifier, other than that a rotation is scheduled. -/
inductive Step (sequence : Nat) (R : Rotation) : Rotation → Prop
  | keep : Step sequence R R
  | install (v : Address) : Step sequence R ⟨some v,none⟩
  | activate (st : VerifierState) (v : Address) (state : R.state = some st)
      (pending : st.pendingVerifier = some v) :
      Step sequence R ⟨some v,some (st.activated v sequence)⟩

def Schedule (R R' : Rotation) : Prop :=
  ∃ a st, R.verifier = some a ∧ R' = { R with state := some st } ∧ st.activeVerifier = some a ∧
    st.previousVerifier = some a

/-- The rotation knows the active verifier, and while there is one to come, it is the verifier
to go back to. -/
def Sound (R : Rotation) : Prop :=
  ∀ st, R.state = some st → R.verifier = st.activeVerifier ∧
    ∀ v, st.pendingVerifier = some v → st.previousVerifier = st.activeVerifier

variable {R R' : Rotation} {sequence : Nat}

theorem Step.of_parts {T : Rotation} (h : Step sequence R T) (hv : R'.verifier=T.verifier)
    (hs : R'.state=T.state) : Step sequence R R' := by
  rw [Rotation.ext hv hs]
  exact h

theorem Step.sound (h : Step sequence R R') (hR : R.Sound) : R'.Sound := by
  intro st hst
  cases h with
  | keep => exact hR st hst
  | install v => cases hst
  | activate st' v state pending =>
    cases hst
    refine ⟨rfl,fun v' hv' => ?_⟩
    cases hv'

theorem Schedule.sound (h : Schedule R R') : R'.Sound := by
  obtain ⟨a,st,hv,rfl,hactive,hprevious⟩ := h
  intro st' hst'
  cases hst'
  exact ⟨hv.trans hactive.symm,fun _ _ => hprevious.trans hactive.symm⟩

/-- After an activation no rotation is pending; until the next one is scheduled, what the
activation recorded stays, or is dropped with the verifier it was about. -/
theorem Step.settled {st : VerifierState} (h : Step sequence R R')
    (hpending : st.pendingVerifier=none) (hR : R.state=some st ∨ R.state=none) :
    R'.state=some st ∨ R'.state=none := by
  cases h with
  | keep => exact hR
  | install v => exact .inr rfl
  | activate st' v state pending =>
    rcases hR with hR | hR
    · cases hR.symm.trans state
      cases hpending.symm.trans pending
    · cases hR.symm.trans state

end Rotation

def rotation (s : Storage) : Rotation := ⟨s .Verifier,s .VerifierState⟩

variable {s s' : Storage} {v : Address} {u : Unit} {host : Host}

theorem rotation_kept {sequence : Nat} (hv : s' .Verifier=s .Verifier)
    (hs : s' .VerifierState=s .VerifierState) :
    Rotation.Step sequence (rotation s) (rotation s') :=
  .of_parts .keep hv hs

theorem rotation_installed (s : Storage) (v : Address) :
    rotation (installedStorage s v)=⟨some v,none⟩ :=
  Rotation.ext (by simp [rotation,installedStorage]) (by simp [rotation,installedStorage])

theorem rotation_scheduled (s : Storage) (st : VerifierState) :
    rotation (Store.set s .VerifierState st)={ rotation s with state := some st } :=
  Rotation.ext (by simp [rotation]) (by simp [rotation])

theorem stored_of_pending (h : (getVerifierRotationState s).pendingVerifier=some v) :
    s .VerifierState=some (getVerifierRotationState s) := by
  cases hst : s .VerifierState with
  | none => simp [getVerifierRotationState,hst] at h
  | some st => simp [getVerifierRotationState,hst]

theorem stored_of_previous (h : (getVerifierRotationState s).previousVerifier=some v) :
    s .VerifierState=some (getVerifierRotationState s) := by
  cases hst : s .VerifierState with
  | none => simp [getVerifierRotationState,hst] at h
  | some st => simp [getVerifierRotationState,hst]

theorem rotation_activated (sequence : Nat)
    (h : (getVerifierRotationState s).pendingVerifier=some v) :
    Rotation.Step sequence (rotation s) (rotation (activatedStorage s v sequence)) :=
  .of_parts (.activate (getVerifierRotationState s) v (stored_of_pending h) h)
    (by simp [rotation,activatedStorage]) (by simp [rotation,activatedStorage])

theorem activateVerifierRotation_ok {env : Env} {admin : Address}
    (h : activateVerifierRotation env admin s=.ok (u,s')) :
    ∃ v, (getVerifierRotationState s).pendingVerifier=some v ∧
      activatedStorage s v env.sequence=s' := by
  simp only [activateVerifierRotation,bind_ok,requireAdmin_ok,requireNoCouncil_ok,gets_ok,
    unwrap_ok,failIf_ok,set_ok,remove_ok] at h
  obtain ⟨_,_,⟨-,-,rfl⟩,_,_,⟨-,rfl⟩,_,_,⟨rfl,rfl⟩,v,_,⟨hv,rfl⟩,_,_,⟨-,rfl⟩,_,_,⟨-,rfl⟩,h⟩ := h
  obtain ⟨_,_,rfl,_,_,rfl,rfl⟩ := h
  exact ⟨v,hv,rfl⟩

theorem rollbackVerifierRotation_ok {env : Env} {admin : Address}
    (h : rollbackVerifierRotation env admin s=.ok (u,s')) :
    ∃ v, (getVerifierRotationState s).previousVerifier=some v ∧
      env.sequence≤(getVerifierRotationState s).rollbackWindowEnd ∧
      installedStorage s v=s' := by
  simp only [rollbackVerifierRotation,bind_ok,requireAdmin_ok,requireNoCouncil_ok,gets_ok,
    unwrap_ok,failIf_ok,set_ok,remove_ok] at h
  obtain ⟨_,_,⟨-,-,rfl⟩,_,_,⟨-,rfl⟩,_,_,⟨rfl,rfl⟩,_,_,⟨-,rfl⟩,v,_,⟨hv,rfl⟩,_,_,⟨hwindow,rfl⟩,h⟩ := h
  obtain ⟨_,_,rfl,_,_,rfl,rfl⟩ := h
  simp only [Bool.or_eq_false_iff,decide_eq_false_iff_not,not_lt] at hwindow
  exact ⟨v,hv,hwindow.2,rfl⟩

theorem TimelockEffect.rotation {env : Env} {p : TimelockProposal} (h : TimelockEffect env p s s') :
    Rotation.Step env.sequence (rotation s) (rotation s') := by
  cases h with
  | setVerifier action =>
    exact .of_parts (.install p.target) (by simp [Registry.rotation]) (by simp [Registry.rotation])
  | _ => exact rotation_kept (by simp [deactivated]) (by simp [deactivated])

theorem CouncilEffect.rotation {env : Env} {p : CouncilProposal} (h : CouncilEffect env p s s') :
    p.action=5 ∧ Rotation.Schedule (rotation s) (rotation s') ∨
      Rotation.Step env.sequence (rotation s) (rotation s') := by
  cases h with
  | setVerifier action =>
    rw [rotation_installed]
    exact .inr (.install p.target)
  | revokeIssuer action r record =>
    exact .inr (rotation_kept (by simp [deactivated]) (by simp [deactivated]))
  | upgradeStorage action _ kept =>
    exact .inr (rotation_kept (kept _ (by simp)) (kept _ (by simp)))
  | setRevocationRoot action => exact .inr (rotation_kept (by simp) (by simp))
  | scheduleRotation action active verifier =>
    exact .inl ⟨action,active,_,verifier,rotation_scheduled s _,rfl,rfl⟩
  | activateRotation action pending state => exact .inr (rotation_activated _ state)
  | rollbackRotation action previous state =>
    rw [rotation_installed]
    exact .inr (.install previous)

/-- The call schedules a rotation: the admin's own, or the council's. -/
def Call.schedules (s : Storage) : Call → Bool
  | .scheduleVerifierRotation .. => true
  | .executeCouncilProposal _ id => (s (.CouncilProposal id)).any (·.action == 5)
  | _ => false

/-- The call activates the pending rotation: the admin's own, or the council's. -/
def Call.activates (s : Storage) : Call → Bool
  | .activateVerifierRotation _ => true
  | .executeCouncilProposal _ id => (s (.CouncilProposal id)).any (·.action == 6)
  | _ => false

theorem exec_rotation {env : Env} {c : Call} (h : exec env c s=.ok (u,s')) :
    c.schedules s=true ∧ Rotation.Schedule (rotation s) (rotation s') ∨
      Rotation.Step env.sequence (rotation s) (rotation s') := by
  cases c with
  | setVerifier admin verifier =>
    simp only [exec,setVerifier,bind_ok,requireAdmin_ok,requireNoCouncil_ok,set_ok,
      remove_ok] at h
    obtain ⟨_,_,⟨-,-,rfl⟩,_,_,⟨-,rfl⟩,_,_,rfl,_,_,rfl,rfl⟩ := h
    exact .inr (.of_parts (.install verifier) (by simp [rotation]) (by simp [rotation]))
  | scheduleVerifierRotation admin verifier activation overlap rollback =>
    simp only [exec,scheduleVerifierRotation,bind_ok,requireAdmin_ok,requireNoCouncil_ok,
      getActiveVerifier_ok,set_ok] at h
    obtain ⟨_,_,⟨-,-,rfl⟩,_,_,⟨-,rfl⟩,a,_,⟨ha,rfl⟩,rfl⟩ := h
    exact .inl ⟨rfl,a,_,ha,rotation_scheduled s _,rfl,rfl⟩
  | activateVerifierRotation admin =>
    obtain ⟨v,hv,rfl⟩ := activateVerifierRotation_ok h
    exact .inr (rotation_activated _ hv)
  | rollbackVerifierRotation admin =>
    obtain ⟨v,-,-,rfl⟩ := rollbackVerifierRotation_ok h
    rw [rotation_installed]
    exact .inr (.install v)
  | executeTimelockedProposal caller id =>
    obtain ⟨p,hp⟩ := executeTimelockedProposal_ok h
    exact .inr hp.effect.rotation
  | emergencyExecuteTimelock admin id =>
    obtain ⟨p,hp⟩ := emergencyExecuteTimelock_ok h
    exact .inr hp.effect.rotation
  | executeCouncilProposal caller id =>
    obtain ⟨_,p,hp⟩ := executeCouncilProposal_ok h
    obtain ⟨haction,hschedule⟩ | hstep := hp.effect.rotation
    · exact .inl ⟨by simp [Call.schedules,hp.stored,haction],hschedule⟩
    · exact .inr hstep
  | _ =>
    exact .inr (rotation_kept (exec_footprint h (notMem_of_elem rfl))
      (exec_footprint h (notMem_of_elem rfl)))

def Schedules (host : Host) (e : Event World Label) : Prop :=
  ∃ c, Succeeds host e c ∧ c.schedules e.pre.store = true

def Activates (host : Host) (e : Event World Label) : Prop :=
  ∃ c, Succeeds host e c ∧ c.activates e.pre.store = true

theorem next_rotation {w w' : World} {l : Label} (hst : next host w l=w') :
    Schedules host ⟨w,l,w'⟩ ∧ Rotation.Schedule (rotation w.store) (rotation w'.store) ∨
      Rotation.Step w.ledger.sequence (rotation w.store) (rotation w'.store) := by
  obtain ⟨inv,c,rfl,-,hx⟩ | hk := next_store hst
  · obtain ⟨hc,hschedule⟩ | hstep := exec_rotation hx
    · exact .inl ⟨⟨c,⟨inv,rfl,hx⟩,hc⟩,hschedule⟩
    · exact .inr hstep
  · exact .inr (rotation_kept (hk _ (by simp)) (hk _ (by simp)))

theorem reaches_rotation {start : Ledger} {tr : Trace} {w : World} (h : Reaches host start tr w) :
    (rotation w.store).Sound := by
  refine Run.state_invariant (I := fun w : World => (rotation w.store).Sound) ?_ ?_ h
  · intro st hst
    cases hst
  · intro w l w' hw hst
    obtain ⟨-,hschedule⟩ | hstep := next_rotation hst
    · exact hschedule.sound
    · exact hstep.sound hw

theorem Activates.activated {e : Event World Label} (h : Activates host e) :
    ∃ st v, e.pre.store .VerifierState=some st ∧ st.pendingVerifier=some v ∧
      e.post.store .VerifierState=some (st.activated v e.pre.ledger.sequence) := by
  obtain ⟨c,⟨inv,-,hx⟩,hc⟩ := h
  have leaves : ∀ {s s' : Storage} {v : Address}, s .VerifierState=e.pre.store .VerifierState →
      (getVerifierRotationState s).pendingVerifier=some v →
      activatedStorage s v e.pre.ledger.sequence=s' →
      ∃ st v, e.pre.store .VerifierState=some st ∧ st.pendingVerifier=some v ∧
        s' .VerifierState=some (st.activated v e.pre.ledger.sequence) := by
    intro s s' v hs hv hs'
    subst hs'
    exact ⟨_,v,hs ▸ stored_of_pending hv,hv,by simp [activatedStorage]⟩
  cases c with
  | activateVerifierRotation admin =>
    obtain ⟨v,hv,hpost⟩ := activateVerifierRotation_ok hx
    exact leaves rfl hv hpost
  | executeCouncilProposal caller id =>
    obtain ⟨_,p,hp⟩ := executeCouncilProposal_ok hx
    have haction : p.action=6 := by simpa [Call.activates,hp.stored] using hc
    have heffect := hp.effect
    generalize e.post.store=s' at heffect
    cases heffect with
    | activateRotation action pending state => exact leaves (by simp) state rfl
    | _ => simp_all
  | _ => cases hc

/-- Both places that name the active verifier agree, and a rollback after an activation restores
the verifier that was replaced, within the window. -/
theorem verifier_rotation_reversible {host : Host} {start : Ledger} {tr : Trace} {w : World}
    (h : Reaches host start tr w) :
    (∀ st, w.store .VerifierState = some st → st.activeVerifier = w.store .Verifier) ∧
    ∀ tr₁ e tr₂ f tr₃ a admin, tr = tr₃++f::(tr₂++e::tr₁) → Activates host e →
      e.pre.store .Verifier = some a → (∀ x ∈ tr₂, ¬ Schedules host x) →
      Succeeds host f (.rollbackVerifierRotation admin) →
      f.post.store .Verifier = some a ∧ f.post.store .VerifierState = none ∧
      ∃ st, e.pre.store .VerifierState = some st ∧
        f.pre.ledger.sequence ≤ e.pre.ledger.sequence+st.rollbackWindow := by
  refine ⟨fun st hst => (reaches_rotation h st hst).1.symm,?_⟩
  intro tr₁ e tr₂ f tr₃ a admin htr hactivates ha hnone hrollback
  subst htr
  obtain ⟨hbefore,-,-⟩ := Run.split h
  obtain ⟨hpre,-,hbetween⟩ := Run.split hbefore
  obtain ⟨st,v,hst,hpending,hpost⟩ := hactivates.activated
  -- the verifier to go back to is the one that was active at the activation
  have hprevious : st.previousVerifier=some a := by
    obtain ⟨hactive,hback⟩ := reaches_rotation hpre st hst
    exact (hback v hpending).trans (hactive.symm.trans ha)
  have settled := Run.throughout (I := fun w : World =>
      (rotation w.store).state=some (st.activated v e.pre.ledger.sequence) ∨
        (rotation w.store).state=none) (.inl hpost)
    (fun w l w' hw hst hno => by
      obtain ⟨hschedules,-⟩ | hstep := next_rotation hst
      · exact absurd hschedules hno
      · exact hstep.settled rfl hw) hbetween hnone
  obtain ⟨inv,-,hx⟩ := hrollback
  obtain ⟨b,hb,hwindow,hpost'⟩ := rollbackVerifierRotation_ok hx
  have hstate := stored_of_previous hb
  rcases settled.2 with hkept | hgone
  · rw [Option.some.inj (hstate.symm.trans hkept)] at hb hwindow
    cases hprevious.symm.trans hb
    refine ⟨by simp [← hpost',installedStorage],by simp [← hpost',installedStorage],st,hst,?_⟩
    exact hwindow.trans (Nat.min_le_left _ _)
  · cases hgone.symm.trans hstate

/-- Verifier 3 takes over from verifier 2. -/
def rotationScheduled : List Label :=
  [.call ⟨1⟩ (.init ⟨1⟩),
    .call ⟨1⟩ (.setVerifier ⟨1⟩ ⟨2⟩),
    .call ⟨1⟩ (.scheduleVerifierRotation ⟨1⟩ ⟨3⟩ 1 0 10)]

def rotationActivated : Event World Label :=
  (deploy rotationScheduled).2.event stellarHost (.call ⟨1⟩ (.activateVerifierRotation ⟨1⟩))

def rotationRolledBack : Event World Label :=
  rotationActivated.post.event stellarHost (.call ⟨1⟩ (.rollbackVerifierRotation ⟨1⟩))

theorem verifier_rotation_reversible_rolled_back :
    rotationActivated.post.store .Verifier = some ⟨3⟩ ∧
    rotationRolledBack.post.store .Verifier = some ⟨2⟩ ∧
    rotationRolledBack.post.store .VerifierState = none := by
  have run := ((deploy_reaches rotationScheduled).event
    (.call ⟨1⟩ (.activateVerifierRotation ⟨1⟩))).event (.call ⟨1⟩ (.rollbackVerifierRotation ⟨1⟩))
  have activated : Activates stellarHost rotationActivated :=
    ⟨_,succeeds_event (by decide +kernel),rfl⟩
  obtain ⟨-,hback⟩ := verifier_rotation_reversible run
  obtain ⟨hverifier,hstate,-⟩ := hback _ rotationActivated [] rotationRolledBack [] ⟨2⟩ ⟨1⟩ rfl
    activated (by decide +kernel) (by simp) (succeeds_event (by decide +kernel))
  exact ⟨by decide +kernel,hverifier,hstate⟩

end Harpocrates.Registry
