import Harpocrates.Framework.Counting
import Harpocrates.Registry.System

namespace Harpocrates.Registry

open Framework Tx

/-- The key whose quota a registration is charged to. -/
def Call.chargedTo : Call → Option Address
  | .registerSource source _ _ _ => some source
  | .registerSeal issuer _ _ _ => some issuer
  | .registerSourceDelegated _ source _ _ _ => some source
  | .registerSealDelegated _ issuer _ _ _ => some issuer
  | _ => none

/-- The key a step was charged to; a call that fails is charged to none. -/
def charged (host : Host) (e : Event World Label) : Option Address :=
  match e.label with
  | .invoke inv c => if (exec (e.pre.env host inv) c e.pre.store).isOk then c.chargedTo else none
  | _ => none

def quotaWindow (quota : IssuerQuotaRecord) (ledger : Ledger) : Nat :=
  ledger.timestamp/quota.windowSecs

def chargesIn (host : Host) (k : Address) (quota : IssuerQuotaRecord) (tr : Trace)
    (window : Nat) : Nat :=
  tr.countP fun e => charged host e == some k && quotaWindow quota e.pre.ledger == window

/-- What the usage record of a key says about a window. -/
def usageIn (s : Storage) (k : Address) (window : Nat) : Nat :=
  match s (.IssuerQuotaUsage k) with
  | some usage => if usage.bucket = window then usage.count else 0
  | none => 0

variable {u : Unit} {s s' : Storage}

theorem chargeIssuerQuota_ok {env : Env} {k : Address} {quota : IssuerQuotaRecord}
    (hquota : s (.IssuerQuota k)=some quota) (hmax : 0<quota.maxRegistrations)
    (hsecs : 0<quota.windowSecs) (h : chargeIssuerQuota env k s=.ok (u,s')) :
    usageIn s k (env.timestamp/quota.windowSecs)<quota.maxRegistrations ∧
    s'=Store.set s (.IssuerQuotaUsage k)
      ⟨env.timestamp/quota.windowSecs,usageIn s k (env.timestamp/quota.windowSecs)+1⟩ := by
  have hlimited : ¬ (quota.maxRegistrations=0 ∨ quota.windowSecs=0) := by omega
  have hbucket : issuerQuotaBucket env quota.windowSecs=env.timestamp/quota.windowSecs := by
    rw [issuerQuotaBucket,if_neg (by omega)]
  rw [chargeIssuerQuota] at h
  obtain ⟨_,_,hload,h⟩ := (bind_ok ..).1 h
  obtain ⟨rfl,rfl⟩ := (get_ok ..).1 hload
  simp only [hquota,if_neg hlimited,hbucket,bind_ok,get_ok,failIf_ok,add32_ok,
    set_ok] at h
  obtain ⟨_,_,⟨rfl,rfl⟩,_,_,⟨hroom,rfl⟩,_,_,⟨-,rfl,rfl⟩,rfl⟩ := h
  exact ⟨Nat.lt_of_not_ge (of_decide_eq_false hroom),rfl⟩

theorem chargeIssuerQuota_frame_key (env : Env) (k : Address) :
    Writes (· = .IssuerQuotaUsage k) (chargeIssuerQuota env k) := by
  unfold chargeIssuerQuota
  refine Writes.bind (by simp) fun quota => ?_
  cases quota with
  | none => simp
  | some quota =>
    refine Writes.ite (by simp) ?_
    repeat' first | with_reducible refine Writes.bind ?_ fun _ => ?_ | simp

theorem SavesNew.usage {env : Env} {subject actor : Address} {p v : Bytes32}
    {record : Storage → ProofRecord} (h : SavesNew env subject actor p v record s s') :
    ∃ t, chargeIssuerQuota env subject s=.ok ((),t) ∧
      ∀ a, s' (.IssuerQuotaUsage a)=t (.IssuerQuotaUsage a) := by
  obtain ⟨-,-,t,_,hcharge,hsave⟩ := h
  have hwrites := saveRecord_writes env p (record t) (some actor) (List.Subset.refl recordFootprint)
  exact ⟨t,hcharge,fun a => hwrites _ _ _ hsave _ (notMem_of_elem rfl)⟩

theorem exec_charges {env : Env} {c : Call} {k : Address} (h : exec env c s=.ok (u,s'))
    (hk : c.chargedTo=some k) :
    ∃ t, chargeIssuerQuota env k s=.ok ((),t) ∧
      ∀ a, s' (.IssuerQuotaUsage a)=t (.IssuerQuotaUsage a) := by
  cases c with
  | registerSource source v m p =>
    cases hk
    obtain ⟨_,h⟩ := (discard_ok ..).1 h
    exact (registerSource_ok h).2.usage
  | registerSeal issuer v m p =>
    cases hk
    obtain ⟨_,h⟩ := (discard_ok ..).1 h
    exact (registerSeal_ok h).2.2.2.usage
  | registerSourceDelegated d source v m p =>
    cases hk
    obtain ⟨_,h⟩ := (discard_ok ..).1 h
    obtain ⟨-,_,-,-,-,hsaves⟩ := registerSourceDelegated_ok h
    exact hsaves.usage
  | registerSealDelegated d issuer v m p =>
    cases hk
    obtain ⟨_,h⟩ := (discard_ok ..).1 h
    obtain ⟨-,_,-,-,-,-,hsaves⟩ := registerSealDelegated_ok h
    exact hsaves.usage
  | _ => cases hk

/-- Whatever is charged to another key, or to none, leaves the usage of a key as it is. -/
theorem exec_usage_kept {env : Env} {c : Call} {a : Address} (h : exec env c s=.ok (u,s'))
    (ha : c.chargedTo≠some a) : s' (.IssuerQuotaUsage a)=s (.IssuerQuotaUsage a) := by
  cases hk : c.chargedTo with
  | none =>
    cases c with
    | registerSource | registerSeal | registerSourceDelegated | registerSealDelegated => cases hk
    | _ => exact exec_footprint h (notMem_of_elem rfl)
  | some k =>
    obtain ⟨t,hcharge,hpost⟩ := exec_charges h hk
    have hne : a≠k := fun heq => ha (heq ▸ hk)
    rw [hpost,chargeIssuerQuota_frame_key env k _ _ _ hcharge _ (by simpa using hne)]

section

variable {host : Host} {w w' : World} {l : Label} {k : Address} {quota : IssuerQuotaRecord}

theorem charged_invoke {inv : Invocation} {c : Call}
    (hx : exec (w.env host inv) c w.store=.ok ((),w'.store)) :
    charged host ⟨w,.invoke inv c,w'⟩=c.chargedTo := by
  simp [charged,hx,Except.isOk,Except.toBool]

theorem next_usage_kept (hst : next host w l=w')
    (hk : charged host ⟨w,l,w'⟩≠some k) :
    w'.store (.IssuerQuotaUsage k)=w.store (.IssuerQuotaUsage k) := by
  obtain ⟨inv,c,rfl,-,hx⟩ | hsame := next_store hst
  · rw [charged_invoke hx] at hk
    exact exec_usage_kept hx hk
  · exact hsame _ (by simp)

theorem charged_some (hk : charged host ⟨w,l,w'⟩=some k) (hst : next host w l=w') :
    ∃ inv c, w'.ledger=w.ledger ∧ c.chargedTo=some k ∧
      exec (w.env host inv) c w.store=.ok ((),w'.store) := by
  cases l with
  | invoke inv c =>
    cases hx : exec (w.env host inv) c w.store with
    | error err => simp [charged,hx,Except.isOk,Except.toBool] at hk
    | ok r =>
      have hpost : w'={ w with store := r.2 } := by
        rw [← hst,next,hx]
      refine ⟨inv,c,by rw [hpost],?_,by rw [hx,hpost]⟩
      simpa [charged,hx,Except.isOk,Except.toBool] using hk
  | advance => cases hk
  | evict => cases hk

/-- A step that is charged finds room in the open window and takes one place of it. -/
theorem next_charge (hst : next host w l=w') (hk : charged host ⟨w,l,w'⟩=some k)
    (hquota : w.store (.IssuerQuota k)=some quota) (hmax : 0<quota.maxRegistrations)
    (hsecs : 0<quota.windowSecs) :
    w'.ledger=w.ledger ∧
    usageIn w.store k (quotaWindow quota w.ledger)<quota.maxRegistrations ∧
    usageIn w'.store k (quotaWindow quota w.ledger) =
      usageIn w.store k (quotaWindow quota w.ledger)+1 := by
  obtain ⟨inv,c,hledger,hcharged,hx⟩ := charged_some hk hst
  obtain ⟨t,hcharge,hpost⟩ := exec_charges hx hcharged
  obtain ⟨hroom,rfl⟩ := chargeIssuerQuota_ok hquota hmax hsecs hcharge
  have husage := hpost k
  rw [Store.set_self] at husage
  refine ⟨hledger,hroom,?_⟩
  rw [usageIn,husage]
  exact if_pos rfl

theorem next_quota (hst : next host w l=w') :
    w'.store (.IssuerQuota k)=w.store (.IssuerQuota k) := by
  obtain ⟨inv,c,-,-,hx⟩ | hsame := next_store hst
  · cases c with
    | _ => exact exec_footprint hx (notMem_of_elem rfl)
  · exact hsame _ (by simp)

theorem chargesIn_cons (e : Event World Label) (tr : Trace) (window : Nat) :
    chargesIn host k quota (e::tr) window=chargesIn host k quota tr window +
      if charged host e=some k ∧ quotaWindow quota e.pre.ledger=window then 1 else 0 := by
  simp [chargesIn,List.countP_cons]

/-- The counts of a run stay within the quota, from whatever the usage record was. -/
theorem proceeds_within {tr : Trace} (hp : Proceeds host w tr w')
    (hquota : w.store (.IssuerQuota k)=some quota) (hmax : 0<quota.maxRegistrations)
    (hsecs : 0<quota.windowSecs) :
    w'.store (.IssuerQuota k)=some quota ∧
    WithinLimit quota.maxRegistrations (chargesIn host k quota tr) (quotaWindow quota w'.ledger)
      (usageIn w'.store k (quotaWindow quota w'.ledger)) := by
  refine Run.invariant (C := fun _ => True) (I := fun tr w' =>
    w'.store (.IssuerQuota k)=some quota ∧ WithinLimit quota.maxRegistrations
      (chargesIn host k quota tr) (quotaWindow quota w'.ledger)
      (usageIn w'.store k (quotaWindow quota w'.ledger))) ?_ ?_ hp fun _ _ => trivial
  · exact ⟨hquota,WithinLimit.start _ _ _⟩
  · intro tr w l w' _ hi hst _
    obtain ⟨hrecord,hwithin⟩ := hi
    refine ⟨(next_quota hst).trans hrecord,?_⟩
    by_cases hk : charged host ⟨w,l,w'⟩=some k
    · obtain ⟨hledger,hroom,hused⟩ := next_charge hst hk hrecord hmax hsecs
      rw [hledger,hused]
      refine hwithin.charge hroom ?_ fun window hne => ?_
      · simp [chargesIn_cons,hk]
      · have hother : quotaWindow quota w.ledger≠window := fun heq => hne heq.symm
        simp [chargesIn_cons,hother]
    · have hsame : chargesIn host k quota (⟨w,l,w'⟩::tr)=chargesIn host k quota tr := by
        funext window
        simp [chargesIn_cons,hk]
      rw [hsame]
      refine hwithin.later (Nat.div_le_div_right (next_ledger hst)) fun heq => ?_
      rw [heq,usageIn,usageIn,next_usage_kept hst hk]

end

/-- A quota is a hard limit. Whatever the state and the usage record it starts with, in each window
no run registers more than the quota allows; and only a registration that goes through, and is
charged to the key itself, changes what a key has used. -/
theorem issuer_quota_hard_limit {host : Host} {tr : Trace} {w w' : World} {k : Address}
    {quota : IssuerQuotaRecord} (hp : Proceeds host w tr w')
    (hquota : w.store (.IssuerQuota k) = some quota) (hmax : 0 < quota.maxRegistrations)
    (hsecs : 0 < quota.windowSecs) :
    w'.store (.IssuerQuota k) = some quota ∧
    (∀ window, chargesIn host k quota tr window ≤ quota.maxRegistrations) ∧
    ∀ e ∈ tr, ∀ a, charged host e ≠ some a →
      e.post.store (.IssuerQuotaUsage a) = e.pre.store (.IssuerQuotaUsage a) := by
  obtain ⟨hrecord,hwithin⟩ := proceeds_within hp hquota hmax hsecs
  refine ⟨hrecord,hwithin.bounded,fun e he a ha => ?_⟩
  obtain ⟨_,_,-,-,hst,-⟩ := Run.event_split hp he
  exact next_usage_kept hst ha

def limited (quota : IssuerQuotaRecord) : World :=
  { (deploy [.call ⟨1⟩ (.init ⟨1⟩)]).2 with
    store := Store.set (deploy [.call ⟨1⟩ (.init ⟨1⟩)]).2.store (.IssuerQuota ⟨3⟩) quota }

theorem limited_quota (quota : IssuerQuotaRecord) :
    (limited quota).store (.IssuerQuota ⟨3⟩)=some quota :=
  Store.set_self (deploy [.call ⟨1⟩ (.init ⟨1⟩)]).2.store (.IssuerQuota ⟨3⟩) quota

def registerTwice : List Label :=
  [.call ⟨3⟩ (.registerSource ⟨3⟩ (fill 1) (fill 2) (fill 3)),
    .call ⟨3⟩ (.registerSource ⟨3⟩ (fill 4) (fill 5) (fill 6))]

/-- With a quota of one an hour, the second of two registrations is not counted. -/
theorem issuer_quota_hard_limit_once :
    chargesIn stellarHost ⟨3⟩ ⟨1,3600⟩ (play stellarHost (limited ⟨1,3600⟩) registerTwice).1
      482136 = 1 ∧
    ∀ window, chargesIn stellarHost ⟨3⟩ ⟨1,3600⟩
      (play stellarHost (limited ⟨1,3600⟩) registerTwice).1 window ≤ 1 :=
  ⟨by decide +kernel,(issuer_quota_hard_limit (play_run _ (limited ⟨1,3600⟩) registerTwice)
    (limited_quota _) (by decide) (by decide)).2.1⟩

/-- A record of zeroes limits nothing: both registrations go through. -/
theorem zeroed_quota_unlimited :
    Proceeds stellarHost (limited ⟨0,3600⟩)
      (play stellarHost (limited ⟨0,3600⟩) registerTwice).1
      (play stellarHost (limited ⟨0,3600⟩) registerTwice).2 ∧
    (limited ⟨0,3600⟩).store (.IssuerQuota ⟨3⟩) = some ⟨0,3600⟩ ∧
    chargesIn stellarHost ⟨3⟩ ⟨0,3600⟩ (play stellarHost (limited ⟨0,3600⟩) registerTwice).1
      482136 = 2 :=
  ⟨play_run _ _ _,limited_quota _,by decide +kernel⟩

end Harpocrates.Registry
