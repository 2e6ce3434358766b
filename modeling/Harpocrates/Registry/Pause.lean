import Harpocrates.Registry.Guards

namespace Harpocrates.Registry

open Framework Tx

def MAX_PAUSE_DURATION_SECS : Nat := 7*24*60*60
def MAX_GUARDIAN_PAUSE_DURATION_SECS : Nat := 24*60*60

def validDomain (domain : UInt32) : Bool :=
  domain != 0 && domain &&& ~~~PAUSE_DOMAIN_ALL_REGISTRATION == 0

def domainBits (domain : UInt32) : List UInt32 :=
  PAUSE_DOMAIN_SINGLE_BITS.filter fun bit => domain &&& bit != 0

/-- Admit the admin or the guardian, and say which of the two it is. -/
def requirePauser (env : Env) (caller : Address) : M Bool := do
  let admin ← expect (← load .Admin) .NotInitialized
  requireAuth env caller
  if caller = admin then
    pure true
  else do
    panicIf ((← load .Guardian) != some caller) .Unauthorized
    pure false

def pauseRecord (env : Env) (caller : Address) (durationSecs : Nat) : PauseRecord :=
  { pausedBy := caller
    pausedAt := env.timestamp
    expiresAt := satAdd64 env.timestamp durationSecs }

/-- Pause every selected domain. A record already there is overwritten, whoever wrote it
and however long it would have lasted. -/
def pause (env : Env) (caller : Address) (domain : UInt32) (durationSecs : Nat) : M Nat := do
  panicIf (!validDomain domain) .InvalidPauseDomain
  let isAdmin ← requirePauser env caller
  let maxDuration :=
    if isAdmin then MAX_PAUSE_DURATION_SECS else MAX_GUARDIAN_PAUSE_DURATION_SECS
  panicIf (durationSecs == 0 || durationSecs > maxDuration) .InvalidPauseDuration
  Tx.forEach (domainBits domain) fun bit =>
    store (.Pause bit) (pauseRecord env caller durationSecs)
  pure (satAdd64 env.timestamp durationSecs)

def unpause (env : Env) (admin : Address) (domain : UInt32) : M Unit := do
  panicIf (!validDomain domain) .InvalidPauseDomain
  requireAdmin env admin
  Tx.forEach (domainBits domain) fun bit => do
    if ← has (.Pause bit) then remove (.Pause bit) else pure ()

@[simp] theorem requirePauser_ok (env : Env) (caller : Address) (s s' : Storage) (b : Bool) :
    requirePauser env caller s=.ok (b,s') ↔ s=s' ∧ env.auth caller=true ∧
      (if b then s .Admin=some caller
        else (∃ admin, s .Admin=some admin ∧ caller≠admin) ∧ s .Guardian=some caller) := by
  simp only [requirePauser,bind_ok,get_ok,unwrap_ok,requireAuth_ok,Tx.ite_apply]
  constructor
  · intro hyp
    obtain ⟨_,_,⟨rfl,rfl⟩,admin,_,⟨ha,rfl⟩,_,_,⟨hauth,rfl⟩,h⟩ := hyp
    split at h
    · rename_i heq
      obtain ⟨rfl,rfl⟩ := (pure_ok ..).1 h
      exact ⟨rfl,hauth,by simpa [heq] using ha⟩
    · rename_i hne
      simp only [bind_ok,get_ok,failIf_ok,pure_ok] at h
      obtain ⟨_,_,⟨rfl,rfl⟩,_,_,⟨hg,rfl⟩,rfl,rfl⟩ := h
      exact ⟨rfl,hauth,by simpa using ⟨⟨admin,ha,hne⟩,by simpa using hg⟩⟩
  · intro hyp
    obtain ⟨rfl,hauth,h⟩ := hyp
    cases b with
    | true =>
      have ha : s .Admin=some caller := by simpa using h
      exact ⟨_,s,⟨rfl,rfl⟩,caller,s,⟨ha,rfl⟩,(),s,⟨hauth,rfl⟩,by simp⟩
    | false =>
      obtain ⟨⟨admin,ha,hne⟩,hg⟩ : (∃ admin, s .Admin=some admin ∧ caller≠admin) ∧
          s .Guardian=some caller := by simpa using h
      refine ⟨_,s,⟨rfl,rfl⟩,admin,s,⟨ha,rfl⟩,(),s,⟨hauth,rfl⟩,?_⟩
      rw [if_neg hne]
      simp [hg]

@[simp] theorem requirePauser_writes (W : DataKey → Prop) (env : Env) (caller : Address) :
    Writes W (requirePauser env caller) := by
  intro s b s' h
  simp [((requirePauser_ok ..).1 h).1]

end Harpocrates.Registry
