import Harpocrates.Framework.Run
import Harpocrates.Framework.Sha256
import Harpocrates.Registry.Calls

namespace Harpocrates.Registry

open Framework List

structure World where
  ledger : Ledger
  store : Storage

/-- What can happen to a deployed registry: a call is made, the ledger closes, or an entry
of temporary storage runs out. -/
inductive Label
  | invoke (inv : Invocation) (c : Call)
  | advance (ledger : Ledger)
  | evict (reporterHash : Bytes32)

def World.env (host : Host) (w : World) (inv : Invocation) : Env :=
  { host with
    toLedger := w.ledger
    toInvocation := inv }

/-- The next state. A failed call leaves the storage as it was, and the ledger never goes
back. -/
def next (host : Host) (w : World) : Label → World
  | .invoke inv c =>
    match exec (w.env host inv) c w.store with
    | .ok (_,s) => { w with store := s }
    | .error _ => w
  | .advance l =>
    if w.ledger.timestamp ≤ l.timestamp ∧ w.ledger.sequence ≤ l.sequence then
      { w with ledger := l }
    else w
  | .evict h => { w with store := Store.erase w.store (.ReporterCooldown h) }

abbrev Trace := List (Event World Label)

def Reaches (host : Host) (start : Ledger) (tr : Trace) (w : World) : Prop :=
  Run (fun w l w' => next host w l = w') ⟨start,Store.empty⟩ tr w

def Proceeds (host : Host) (w : World) (tr : Trace) (w' : World) : Prop :=
  Run (fun w l w' => next host w l = w') w tr w'

variable {host : Host} {w w' : World} {tr : Trace} {l : Label}

theorem Reaches.proceed {start : Ledger} {tr' : Trace} (h : Reaches host start tr w)
    (h' : Proceeds host w tr' w') : Reaches host start (tr'++tr) w' :=
  Run.trans h h'

/-- The event is a call of `c`, and the call went through. -/
def Succeeds (host : Host) (e : Event World Label) (c : Call) : Prop :=
  ∃ inv, e.label = .invoke inv c ∧
    exec (e.pre.env host inv) c e.pre.store = .ok ((),e.post.store)

/-- The event, if it is a call, meets a condition on the call and the state before it. -/
def meets (C : World → Call → Bool) (e : Event World Label) : Bool :=
  match e.label with
  | .invoke _ c => C e.pre c
  | _ => true

@[simp] theorem World.env_timestamp (host : Host) (w : World) (inv : Invocation) :
    (w.env host inv).timestamp=w.ledger.timestamp := rfl

@[simp] theorem World.env_auth (host : Host) (w : World) (inv : Invocation) :
    (w.env host inv).auth=inv.auth := rfl

/-- What a step can do: a call goes through and only the storage changes, the ledger moves
on, a cooldown entry disappears, or nothing happens. -/
theorem next_cases (h : next host w l=w') :
    (∃ inv c, l=.invoke inv c ∧ w'.ledger=w.ledger ∧
      exec (w.env host inv) c w.store=.ok ((),w'.store)) ∨
    (∃ m, l=.advance m ∧ w.ledger.timestamp ≤ m.timestamp ∧ w'={ w with ledger := m }) ∨
    (∃ a, l=.evict a ∧
      w'={ w with store := Store.erase w.store (.ReporterCooldown a) }) ∨
    w'=w := by
  subst h
  cases l with
  | invoke inv c =>
    cases hx : exec (w.env host inv) c w.store with
    | ok r => exact .inl ⟨inv,c,rfl,by simp [next,hx],by simp [next,hx]⟩
    | error e => exact .inr (.inr (.inr (by simp [next,hx])))
  | advance m =>
    by_cases hm : w.ledger.timestamp ≤ m.timestamp ∧ w.ledger.sequence ≤ m.sequence
    · exact .inr (.inl ⟨m,rfl,hm.1,by simp [next,hm]⟩)
    · exact .inr (.inr (.inr (by simp only [next,if_neg hm])))
  | evict a => exact .inr (.inr (.inl ⟨a,rfl,rfl⟩))

/-- Away from the cooldown entries, a step that changes the storage is a call that went
through. -/
theorem next_store (h : next host w l=w') :
    (∃ inv c, l=.invoke inv c ∧ w'.ledger=w.ledger ∧
      exec (w.env host inv) c w.store=.ok ((),w'.store)) ∨
    (∀ k, k.family≠.ReporterCooldown → w'.store k=w.store k) := by
  obtain h | ⟨m,-,-,rfl⟩ | ⟨a,-,rfl⟩ | rfl := next_cases h
  · exact .inl h
  · exact .inr fun _ _ => rfl
  · refine .inr fun k hk => Store.erase_of_ne _ ?_
    intro heq
    subst heq
    exact hk rfl
  · exact .inr fun _ _ => rfl

theorem next_ledger (h : next host w l=w') : w.ledger.timestamp≤w'.ledger.timestamp := by
  obtain ⟨_,_,-,hl,-⟩ | ⟨m,-,hm,rfl⟩ | ⟨a,-,rfl⟩ | rfl := next_cases h
  · rw [hl]
  · exact hm
  · exact le_refl _
  · exact le_refl _

theorem proceeds_ledger (h : Proceeds host w tr w') : w.ledger.timestamp≤w'.ledger.timestamp :=
  Run.state_invariant (I := fun w' : World => w.ledger.timestamp≤w'.ledger.timestamp)
    (le_refl _) (fun _ _ _ hle hst => hle.trans (next_ledger hst)) h

/-- The trace and the final state of a list of labels, carried out in order. -/
def play (host : Host) (w : World) : List Label → Trace × World
  | [] => ([],w)
  | l::ls =>
    let (tr,w') := play host (next host w l) ls
    (tr++[⟨w,l,next host w l⟩],w')

theorem play_run (host : Host) (w : World) (ls : List Label) :
    Run (fun w l w' => next host w l=w') w (play host w ls).1 (play host w ls).2 := by
  induction ls generalizing w with
  | nil => exact Run.nil
  | cons l ls ih => exact (Run.nil.snoc rfl).trans (ih (next host w l))

theorem play_reaches (host : Host) (start : Ledger) (ls : List Label) :
    Reaches host start (play host ⟨start,Store.empty⟩ ls).1
      (play host ⟨start,Store.empty⟩ ls).2 :=
  play_run host _ ls

theorem play_label {ls : List Label} {e : Event World Label} (he : e∈(play host w ls).1) :
    e.label∈ls := by
  induction ls generalizing w with
  | nil => cases he
  | cons l ls ih =>
    rcases mem_append.1 he with he | he
    · exact mem_cons_of_mem _ (ih he)
    · obtain rfl := mem_singleton.1 he
      exact mem_cons_self

theorem Reaches.next_eq {start : Ledger} {e : Event World Label} (h : Reaches host start tr w)
    (he : e∈tr) : next host e.pre e.label=e.post := by
  obtain ⟨_,_,-,-,hst,-⟩ := Run.event_split h he
  exact hst

def World.event (host : Host) (w : World) (l : Label) : Event World Label :=
  ⟨w,l,next host w l⟩

theorem Reaches.event {start : Ledger} (h : Reaches host start tr w) (l : Label) :
    Reaches host start (w.event host l::tr) (w.event host l).post :=
  Run.snoc h rfl

theorem exec_event {inv : Invocation} {c : Call}
    (h : (exec (w.env host inv) c w.store).isOk=true) :
    exec (w.env host inv) c w.store=.ok ((),(w.event host (.invoke inv c)).post.store) := by
  cases hx : exec (w.env host inv) c w.store with
  | ok r => simp [World.event,next,hx]
  | error e => simp [hx,Except.isOk,Except.toBool] at h

theorem succeeds_event {inv : Invocation} {c : Call}
    (h : (exec (w.env host inv) c w.store).isOk=true) :
    Succeeds host (w.event host (.invoke inv c)) c :=
  ⟨inv,rfl,exec_event h⟩

/-- The history of revocation roots as it is documented: the latest roots, oldest first, where a
root that is published again moves to the end. -/
def ringBuffer (history : List RevocationRootEntry) (root : Bytes32) (sequence : Nat) :
    List RevocationRootEntry :=
  let others := history.filter (·.root != root)
  List.drop (others.length+1-MAX_REVOCATION_ROOT_HISTORY) (others++[⟨root,sequence⟩])

def stellarHost : Host where
  sha256 := Sha256.digest
  revocationHistory := ringBuffer

/-- A call authorised by one address, in front of a verifier that accepts every proof. -/
def Invocation.signedBy (a : Address) : Invocation where
  auth := (· == a)
  verifyProof _ _ _ := true
  wasmInstalled _ := true

def Label.call (a : Address) (c : Call) : Label := .invoke (.signedBy a) c

def genesis : Ledger := ⟨1735689600,1,by decide,by decide⟩

def deploy (ls : List Label) : Trace × World := play stellarHost ⟨genesis,Store.empty⟩ ls

theorem deploy_reaches (ls : List Label) :
    Reaches stellarHost genesis (deploy ls).1 (deploy ls).2 :=
  play_reaches stellarHost genesis ls

def genesisPlus (secs : Nat) (h : genesis.timestamp+secs < 2^64) : Ledger :=
  ⟨genesis.timestamp+secs,2,h,by decide⟩

theorem genesis_day_lt : genesis.timestamp+86400<2^64 := by decide

def fill (x : UInt8) : Bytes32 := BytesN.replicate 32 x

end Harpocrates.Registry
