import Harpocrates.Clients.ProofManifest
import Harpocrates.Framework.Run

namespace Harpocrates.Clients.Evidence

open Framework Framework.Json

inductive Stage
  | idle | hashing | embedding | proving | ready | registering | registered | error
  deriving DecidableEq

inductive TxState
  | idle | submitting | awaitingConfirmation | confirmed | failed | timeout
  deriving DecidableEq

/-- The data of a witness is only passed on. -/
structure EvidenceState (ω : Type) where
  stage : Stage
  tier : IdentityTier
  fileName : Option Str := none
  sourceHash : Option Str := none
  videoHash : Option Str := none
  metadataHash : Option Str := none
  proofId : Option Str := none
  timestamp : Option Str := none
  silentWitness : Option ω := none
  txHash : Option Str := none
  txStatus : Option TxState := none
  error : Option Str := none
  updatedAt : Nat

inductive EvidenceEvent (ω : Type)
  | START (tier : IdentityTier) (fileName : Str)
  | HASHED (sourceHash : Str)
  | EMBEDDED (videoHash metadataHash proofId timestamp : Str)
  | PROVED (silentWitness : ω)
  | REGISTERING
  | REGISTERED (txHash : Str)
  | ERROR (error : Str)
  | RESET

variable {ω : Type}

def getInitialState (now : Nat) : EvidenceState ω :=
  { stage := .idle, tier := .silent, updatedAt := now }

/-- The next state, unless it is the same object. -/
def transition (now : Nat) (state : EvidenceState ω) (event : EvidenceEvent ω) :
    Option (EvidenceState ω) :=
  match event,state.stage with
  | .RESET,_ => some (getInitialState now)
  | .ERROR error,_ => some { state with stage := .error, error := some error }
  | .START tier fileName,.idle
  | .START tier fileName,.error =>
    some { stage := .hashing, tier, fileName := some fileName, updatedAt := now }
  | .HASHED sourceHash,.hashing =>
    some { state with stage := .embedding, sourceHash := some sourceHash }
  | .EMBEDDED videoHash metadataHash proofId timestamp,.embedding =>
    some { state with
      stage := if state.tier = .silent then .proving else .ready
      videoHash := some videoHash
      metadataHash := some metadataHash
      proofId := some proofId
      timestamp := some timestamp }
  | .PROVED silentWitness,.proving =>
    some { state with stage := .ready, silentWitness := some silentWitness }
  | .REGISTERING,.ready => some { state with stage := .registering }
  | .REGISTERED txHash,.registering =>
    some { state with stage := .registered, txHash := some txHash, txStatus := some .confirmed }
  | _,_ => none

/-- The machine, the saves that have not written yet, and the state in the stored checkpoint. -/
structure Machine (ω : Type) where
  state : EvidenceState ω
  saving : List (EvidenceState ω) := []
  stored : Option (EvidenceState ω) := none

def Machine.start (now : Nat) : Machine ω := { state := getInitialState now }

def EvidenceState.unsaved (state : EvidenceState ω) : Bool :=
  state.stage = .idle || state.stage = .registered

/-- A clear writes at once; a save encrypts first. -/
def persistState (m : Machine ω) : Machine ω :=
  if m.state.unsaved then { m with stored := none }
  else { m with saving := m.saving++[m.state] }

def send (now : Nat) (m : Machine ω) (event : EvidenceEvent ω) : Machine ω :=
  match transition now m.state event with
  | none => m
  | some next => persistState { m with state := { next with updatedAt := now } }

inductive Move (ω : Type)
  | send (now : Nat) (event : EvidenceEvent ω)
  | written (i : Nat)

inductive Step : Machine ω → Move ω → Machine ω → Prop
  | send (m : Machine ω) (now : Nat) (event : EvidenceEvent ω) :
      Step m (.send now event) (send now m event)
  | written {m : Machine ω} {i : Nat} {saved : EvidenceState ω} : m.saving[i]? = some saved →
      Step m (.written i) { m with saving := m.saving.eraseIdx i, stored := some saved }

/-- Saves are written in the order of their requests, and none is under way when the checkpoint is
cleared. -/
def InOrder (e : Event (Machine ω) (Move ω)) : Prop :=
  match e.label with
  | .send _ _ => e.post.state.unsaved → e.pre.saving = []
  | .written i => i = 0

/-- What is to be stored of a state. -/
def described (state : EvidenceState ω) : Option (EvidenceState ω) :=
  if state.unsaved then none else some state

/-- The last save under way is of the latest state; if there is none, that state is stored. -/
def Current (m : Machine ω) : Prop :=
  m.saving.getLast?.elim m.stored some = described m.state

def WitnessedWhenSilent (state : EvidenceState ω) : Prop :=
  state.tier = .silent → state.stage = .ready ∨ state.stage = .registering ∨
    state.stage = .registered → state.silentWitness.isSome

variable {m m' : Machine ω} {l : Move ω} {now : Nat}

theorem transition_witnessed {state next : EvidenceState ω} {event : EvidenceEvent ω}
    (h : WitnessedWhenSilent state) (hnext : transition now state event=some next) :
    WitnessedWhenSilent next := by
  unfold transition at hnext
  split at hnext
  all_goals cases hnext
  all_goals intro htier hstage
  all_goals simp_all [WitnessedWhenSilent,getInitialState]

theorem persistState_state : (persistState m).state=m.state := by
  unfold persistState
  split <;> rfl

/-- An event leaves the machine as it is, or leads it to a state that is then persisted. -/
theorem send_cases (now : Nat) (m : Machine ω) (event : EvidenceEvent ω) :
    send now m event=m ∨ ∃ next, transition now m.state event=some next ∧
      send now m event=persistState { m with state := { next with updatedAt := now } } := by
  unfold send
  cases hnext : transition now m.state event with
  | none => exact .inl rfl
  | some next => exact .inr ⟨next,rfl,rfl⟩

theorem step_witnessed (h : WitnessedWhenSilent m.state) (hst : Step m l m') :
    WitnessedWhenSilent m'.state := by
  cases hst with
  | send now event =>
    rcases send_cases now m event with hsame | ⟨next,hnext,hsend⟩
    · rw [hsame]
      exact h
    · rw [hsend,persistState_state]
      have hwitnessed : WitnessedWhenSilent next := transition_witnessed h hnext
      exact hwitnessed
  | written hsaved => exact h

theorem current_persistState (h : m.state.unsaved → m.saving=[]) : Current (persistState m) := by
  unfold persistState Current described
  by_cases hunsaved : m.state.unsaved
  · simp [hunsaved,h hunsaved]
  · simp [hunsaved]

theorem step_current (h : Current m) (hst : Step m l m') (horder : InOrder ⟨m,l,m'⟩) :
    Current m' := by
  cases hst with
  | send now event =>
    rcases send_cases now m event with hsame | ⟨next,hnext,hsend⟩
    · rw [hsame]
      exact h
    · change (send now m event).state.unsaved → m.saving=[] at horder
      rw [hsend,persistState_state] at horder
      rw [hsend]
      exact current_persistState horder
  | @written i saved hsaved =>
    obtain rfl : i=0 := horder
    cases hsaving : m.saving with
    | nil =>
      rw [hsaving] at hsaved
      cases hsaved
    | cons first rest =>
      rw [hsaving] at hsaved
      cases hsaved
      rw [Current,hsaving] at h
      cases rest with
      | nil => exact h
      | cons second rest => exact h

/-- Written in order, the checkpoint describes the latest state once all saves have settled; and
whatever the order, a silent proof is not ready without a witness. -/
theorem checkpoint_follows_in_order (now : Nat) (tr : List (Event (Machine ω) (Move ω)))
    (m : Machine ω) (hr : Run Step (.start now) tr m) :
    ((∀ e ∈ tr, InOrder e) → m.saving = [] → m.stored = described m.state) ∧
      WitnessedWhenSilent m.state := by
  constructor
  · intro horder hsettled
    have hstart : Current (.start now : Machine ω) := rfl
    have hcurrent : Current m := Run.invariant (I := fun _ m => Current m) hstart
      (fun _ _ _ _ _ hi hst hc => step_current hi hst hc) hr horder
    rw [Current,hsettled] at hcurrent
    exact hcurrent
  · refine Run.state_invariant (I := fun m => WitnessedWhenSilent m.state) ?_
      (fun _ _ _ hi hst => step_witnessed hi hst) hr
    simp [WitnessedWhenSilent,Machine.start,getInitialState]

def started : Machine Unit := send 1 (.start 0) (.START .source (str "clip.mp4"))

def settled : Machine Unit := { started with saving := [], stored := some started.state }

theorem settled_save_stored : settled.stored = described settled.state := by
  have hrun : Run Step (.start 0) _ settled :=
    (Run.nil.snoc (.send _ 1 (.START .source (str "clip.mp4")))).snoc (.written (i := 0) rfl)
  refine (checkpoint_follows_in_order 0 _ _ hrun).1 ?_ rfl
  simp only [List.forall_mem_cons]
  exact ⟨rfl,fun hunsaved => (nomatch hunsaved),by simp⟩

/-- A save that is written after the reset: the machine is idle and a checkpoint is stored. -/
theorem late_save_survives_reset : ∃ tr, ∃ m : Machine Unit, Run Step (.start 0) tr m ∧
    m.saving = [] ∧ m.state.stage = .idle ∧ m.stored.isSome :=
  ⟨_,_,((Run.nil.snoc (.send _ 1 (.START .source (str "clip.mp4")))).snoc
    (.send _ 2 .RESET)).snoc (.written (i := 0) rfl),rfl,rfl,rfl⟩

end Harpocrates.Clients.Evidence
