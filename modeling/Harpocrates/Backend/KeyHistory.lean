import Harpocrates.Backend.KeyTransparency

namespace Harpocrates.Backend.KeyTransparency

open Framework Framework.Fallible Framework.Python

variable {eventHash : EventHash} {d d' : IssuerDirectory} {event : DirectoryEvent} {k : Text}
  {tr tr' : List (Event IssuerDirectory DirectoryEvent)} {s c : Int}

def Opens (k : Text) (event : DirectoryEvent) : Prop :=
  (event.eventType = .activation ∨ event.eventType = .rotation) ∧ event.keyId = k

def Closes (k : Text) (event : DirectoryEvent) : Prop :=
  event.eventType = .rotation ∧ event.relatedKeyId = some k ∧ event.keyId ≠ k ∨
    (event.eventType = .compromise ∨ event.eventType = .retirement) ∧ event.keyId = k

theorem not_opens_of_closes (hcloses : Closes k event) : ¬ Opens k event := by
  rintro ⟨htype,hk⟩
  rcases hcloses with ⟨-,-,hne⟩ | ⟨hcloses,-⟩
  · exact hne hk
  · rcases htype with htype | htype
    all_goals
      rw [htype] at hcloses
      rcases hcloses with hcloses | hcloses
      all_goals cases hcloses

/-- The status of a key whose window the event ends. -/
def closedStatus (event : DirectoryEvent) : KeyStatus :=
  match event.eventType with
  | .rotation => .rotated
  | .compromise => .compromised
  | _ => .retired

/-- What an accepted event leaves of a key. -/
inductive Effect (k : Text) (event : DirectoryEvent) : Option IssuerKey → Option IssuerKey → Prop
  | opens {before : Option IssuerKey} {key : IssuerKey} : Opens k event →
      key.validFrom = event.timestamp → key.validUntil = none → key.status = .active →
      Effect k event before (some key)
  | closes {key : IssuerKey} : Closes k event →
      (event.eventType = .rotation → key.status ≠ .compromised) →
      Effect k event (some key) (some (key.closed event.timestamp (closedStatus event)))
  | other {before : Option IssuerKey} : ¬ Opens k event → ¬ Closes k event →
      Effect k event before before

variable {keys' : Keys} {t : Int} {before after : Option IssuerKey}

theorem effect_activate {keys : Keys} (htype : event.eventType=.activation)
    (h : activate keys event=.ok keys') : Effect k event (keys.lookup k) (keys'.lookup k) := by
  have hkeys : keys'=Dict.set keys event.keyId (opened event "ed25519".toList) := by
    unfold activate at h
    split at h
    · split_ifs at h
      exact (Except.ok.inj h).symm
    · exact (Except.ok.inj h).symm
  rw [hkeys,Dict.lookup_set]
  split_ifs with hk
  · exact .opens ⟨.inl htype,hk.symm⟩ rfl rfl rfl
  · refine .other (fun hopens => hk hopens.2.symm) ?_
    rintro (⟨htype',-⟩ | ⟨htype' | htype',-⟩)
    all_goals
      rw [htype] at htype'
      cases htype'

theorem effect_rotate {keys : Keys} (htype : event.eventType=.rotation)
    (h : rotate keys event=.ok keys') : Effect k event (keys.lookup k) (keys'.lookup k) := by
  unfold rotate at h
  split at h
  · cases h
  · cases h
  · rename_i related _ hrelated
    split at h
    · cases h
    · rename_i pred hpred
      split_ifs at h with hstatus
      cases h
      rw [Dict.lookup_set,Dict.lookup_set]
      split_ifs with hk hk'
      · exact .opens ⟨.inr htype,hk.symm⟩ rfl rfl rfl
      · have hcloses : Closes k event :=
          .inl ⟨htype,hk' ▸ hrelated,fun heq => hk heq.symm⟩
        have hclosed : closedStatus event=.rotated := by rw [closedStatus,htype]
        rw [hk',hpred,← hclosed]
        exact .closes (hk' ▸ hcloses) fun _ => hstatus
      · refine .other (fun hopens => hk hopens.2.symm) ?_
        rintro (⟨-,hrelated',-⟩ | ⟨htype' | htype',-⟩)
        · rw [hrelated] at hrelated'
          exact hk' (Option.some.inj hrelated').symm
        all_goals
          rw [htype] at htype'
          cases htype'

theorem effect_other (hk : k≠event.keyId)
    (htype : event.eventType≠.rotation) : Effect k event before before := by
  refine .other (fun hopens => hk hopens.2.symm) ?_
  rintro (⟨htype',-⟩ | ⟨-,hkey⟩)
  · exact htype htype'
  · exact hk hkey.symm

theorem effect_close {status : KeyStatus} {unknown : String} {keys : Keys}
    (htype : event.eventType=.compromise ∨ event.eventType=.retirement)
    (hstatus : closedStatus event=status) (h : close status unknown keys event=.ok keys') :
    Effect k event (keys.lookup k) (keys'.lookup k) := by
  have hrotation : event.eventType≠.rotation := by
    rcases htype with htype | htype
    all_goals
      rw [htype]
      decide
  unfold close at h
  split at h
  · cases h
  · rename_i key hkey
    cases h
    rw [Dict.lookup_set]
    split_ifs with hk
    · rw [hk,hkey,← hstatus]
      exact .closes (.inr ⟨htype,rfl⟩) fun hrot => absurd hrot hrotation
    · exact effect_other hk hrotation

theorem effect_applyEvent {keys : Keys} (h : applyEvent keys event=.ok keys') :
    Effect k event (keys.lookup k) (keys'.lookup k) := by
  unfold applyEvent at h
  split at h
  · rename_i htype
    exact effect_activate htype h
  · rename_i htype
    exact effect_rotate htype h
  · rename_i htype
    exact effect_close (.inl htype) (by rw [closedStatus,htype]) h
  · rename_i htype
    exact effect_close (.inr htype) (by rw [closedStatus,htype]) h
  · rename_i htype
    cases h
    refine .other ?_ ?_
    · rintro ⟨htype' | htype',-⟩
      all_goals
        rw [htype] at htype'
        cases htype'
    · rintro (⟨htype',-⟩ | ⟨htype' | htype',-⟩)
      all_goals
        rw [htype] at htype'
        cases htype'

theorem appendEvent_ok (h : appendEvent eventHash d event=.ok d') :
    d'.events=d.events++[event] ∧ applyEvent d.keys event=.ok d'.keys := by
  unfold appendEvent at h
  obtain ⟨-,h⟩ := unit_bind_ok.1 h
  obtain ⟨-,h⟩ := unit_bind_ok.1 h
  obtain ⟨-,h⟩ := unit_bind_ok.1 h
  obtain ⟨-,h⟩ := unit_bind_ok.1 h
  obtain ⟨keys,hkeys,h⟩ := bind_ok.1 h
  cases h
  exact ⟨rfl,hkeys⟩

theorem step_effect (h : Step eventHash d event d') (k : Text) :
    Effect k event (d.keys.lookup k) (d'.keys.lookup k) :=
  effect_applyEvent (appendEvent_ok h.2).2

theorem step_lastTime (h : Step eventHash d event d') : lastTime d'=some event.timestamp := by
  rw [lastTime,(appendEvent_ok h.2).1,List.getLast?_append]
  rfl

def Within (key : Option IssuerKey) (s : Int) : Prop :=
  ∃ issuerKey, key = some issuerKey ∧ issuerKey.validFrom ≤ s ∧
    ∀ u, issuerKey.validUntil = some u → s < u

theorem keyValid_iff : keyValidForHistoricalSignature d k s=true ↔
    Within (d.keys.lookup k) s := by
  unfold keyValidForHistoricalSignature Within
  cases hlookup : d.keys.lookup k with
  | none => simp
  | some key =>
    cases huntil : key.validUntil with
    | none => simp [huntil]
    | some u => simp [huntil]

def CompromisedFrom (key : Option IssuerKey) (c : Int) : Prop :=
  ∃ issuerKey, key = some issuerKey ∧ issuerKey.status = .compromised ∧
    issuerKey.validUntil = some c

theorem keyWasCompromisedAt_iff {time : Int} : keyWasCompromisedAt d k time=true ↔
    ∃ c, CompromisedFrom (d.keys.lookup k) c ∧ c≤time := by
  unfold keyWasCompromisedAt CompromisedFrom
  cases hlookup : d.keys.lookup k with
  | none => simp
  | some key =>
    cases huntil : key.validUntil with
    | none => simp [huntil]
    | some u => simp [huntil]

/-- Windows begin no later than the last event, and end no earlier than they begin. -/
def Ordered (d : IssuerDirectory) : Prop :=
  ∀ k key, d.keys.lookup k = some key →
    (∃ t, lastTime d = some t ∧ key.validFrom ≤ t) ∧
      ∀ u, key.validUntil = some u → key.validFrom ≤ u

theorem ordered_step (hi : Ordered d) (hst : Step eventHash d event d') : Ordered d' := by
  intro k key hkey
  have hlast := step_lastTime hst
  have heffect := step_effect hst k
  rw [hkey] at heffect
  generalize hbefore : d.keys.lookup k=before at heffect
  cases heffect with
  | opens hopens hfrom huntil hstatus =>
    refine ⟨⟨_,hlast,by omega⟩,fun u hu => ?_⟩
    rw [huntil] at hu
    cases hu
  | @closes old hcloses hstatus =>
    obtain ⟨⟨t,ht,hfrom⟩,-⟩ := hi k old hbefore
    have hle := hst.1 t ht
    have hold : old.validFrom≤event.timestamp := by omega
    refine ⟨⟨_,hlast,hold⟩,fun u hu => ?_⟩
    have hu' : event.timestamp=u := Option.some.inj hu
    exact hu' ▸ hold
  | other hopens hcloses =>
    obtain ⟨⟨t,ht,hfrom⟩,huntil⟩ := hi k key hbefore
    have hle := hst.1 t ht
    exact ⟨⟨_,hlast,by omega⟩,huntil⟩

theorem ordered_run {org : Text} (hrun : Run (Step eventHash) ⟨org,[],[]⟩ tr d) : Ordered d := by
  refine Run.state_invariant ?_ (fun d event d' hi hst => ordered_step hi hst) hrun
  intro k key hkey
  cases hkey

theorem times_after (ht : lastTime d=some t) (hrun : Run (Step eventHash) d tr d') :
    ∀ e∈tr, t≤e.label.timestamp := by
  have hpre := (Run.throughout (C := fun _ => True)
    (I := fun d => ∃ t', lastTime d=some t' ∧ t≤t') ⟨t,ht,Int.le_refl t⟩ ?_ hrun
    (fun _ _ => trivial)).1
  · intro e he
    obtain ⟨t',ht',hle⟩ := hpre e he
    obtain ⟨tr₁,tr₂,-,-,hst,-⟩ := hrun.event_split he
    have hnext := hst.1 t' ht'
    omega
  · rintro d event d' ⟨t',ht',hle⟩ hst -
    have hnext := hst.1 t' ht'
    exact ⟨_,step_lastTime hst,by omega⟩

/-- Ending a window does not touch the times before its end. -/
theorem Effect.within (heffect : Effect k event before after) (hopens : ¬ Opens k event)
    (htime : s<event.timestamp) (h : Within before s) : Within after s := by
  cases heffect with
  | opens hopens' => exact absurd hopens' hopens
  | closes hcloses hstatus =>
    obtain ⟨key,hkey,hfrom,-⟩ := h
    cases hkey
    refine ⟨_,rfl,hfrom,fun u hu => ?_⟩
    have hu' : event.timestamp=u := Option.some.inj hu
    exact hu' ▸ htime
  | other hopens' hcloses => exact h

theorem Effect.not_within (heffect : Effect k event before after) (hopens : Opens k event)
    (htime : s<event.timestamp) : ¬ Within after s := by
  rintro ⟨key,hkey,hfrom,-⟩
  cases heffect with
  | opens hopens' hopened =>
    cases hkey
    omega
  | closes hcloses => exact not_opens_of_closes hcloses hopens
  | other hopens' => exact hopens' hopens

theorem past_signature_iff (ht : lastTime d=some t) (hlater : Run (Step eventHash) d tr' d')
    (hs : s<t) (h : Within (d.keys.lookup k) s) :
    (∀ e∈tr', Within (e.post.keys.lookup k) s) ↔ ∀ e∈tr', ¬ Opens k e.label := by
  have htimes := times_after ht hlater
  constructor
  · intro hwithin e he hopens
    obtain ⟨tr₁,tr₂,-,-,hst,-⟩ := hlater.event_split he
    have htime := htimes e he
    exact (step_effect hst k).not_within hopens (by omega) (hwithin e he)
  · intro hopens
    refine Run.afterwards (C := fun e => ¬ Opens k e.label ∧ t≤e.label.timestamp)
      (I := fun d => Within (d.keys.lookup k) s) h ?_ hlater
      fun e he => ⟨hopens e he,htimes e he⟩
    intro d event d' hwithin hst hother
    have htime : t≤event.timestamp := hother.2
    exact (step_effect hst k).within hother.1 (by omega) hwithin

def ClosesLater (k : Text) (e : Event IssuerDirectory DirectoryEvent) : Prop :=
  Closes k e.label ∧ ∃ key u, e.pre.keys.lookup k = some key ∧ key.validUntil = some u ∧
    u < e.label.timestamp

def ClosedFrom (c : Int) (key : Option IssuerKey) : Prop :=
  ∀ issuerKey u, key = some issuerKey → issuerKey.validUntil = some u → c ≤ u

theorem Effect.closedFrom (heffect : Effect k event before after) (htime : c≤event.timestamp)
    (h : ClosedFrom c before) : ClosedFrom c after := by
  cases heffect with
  | opens hopens hfrom huntil =>
    intro key u hkey hu
    cases hkey
    rw [huntil] at hu
    cases hu
  | closes hcloses =>
    intro key u hkey hu
    cases hkey
    have hu' : event.timestamp=u := Option.some.inj hu
    omega
  | other => exact h

theorem Effect.closed (heffect : Effect k event before after) (hcloses : Closes k event) :
    ClosedFrom event.timestamp after := by
  cases heffect with
  | opens hopens => exact absurd hopens (not_opens_of_closes hcloses)
  | closes =>
    intro key u hkey hu
    cases hkey
    exact Int.le_of_eq (Option.some.inj hu)
  | other hopens hcloses' => exact absurd hcloses hcloses'

/-- An event other than an opening one makes a time valid exactly when it moves an end on. -/
theorem closed_stays_iff (hordered : Ordered d) (hclosed : ClosedFrom c (d.keys.lookup k))
    (hst : Step eventHash d event d') (hopens : ¬ Opens k event) :
    (∀ s, c ≤ s → Within (d'.keys.lookup k) s → Within (d.keys.lookup k) s) ↔
      ¬ ClosesLater k ⟨d,event,d'⟩ := by
  have heffect := step_effect hst k
  have hwindow := hordered k
  unfold ClosesLater
  dsimp only
  generalize d.keys.lookup k=before at heffect hwindow hclosed
  generalize d'.keys.lookup k=after at heffect
  cases heffect with
  | opens hopens' => exact absurd hopens' hopens
  | @closes key hcloses =>
    constructor
    · rintro hstays ⟨-,_,u,hkey,hu,hlt⟩
      cases hkey
      have hfrom := (hwindow key rfl).2 u hu
      have hmoved : Within (some (key.closed event.timestamp (closedStatus event))) u := by
        refine ⟨_,rfl,hfrom,fun u' hu' => ?_⟩
        have hu'' : event.timestamp=u' := Option.some.inj hu'
        omega
      obtain ⟨_,hkey',-,hend⟩ := hstays u (hclosed key u rfl hu) hmoved
      cases hkey'
      exact absurd (hend u hu) (Int.lt_irrefl u)
    · rintro hlater s - ⟨_,hkey,hfrom,hend⟩
      cases hkey
      refine ⟨key,rfl,hfrom,fun u hu => ?_⟩
      have hs : s<event.timestamp := hend event.timestamp rfl
      have hle : ¬ u<event.timestamp := fun hlt => hlater ⟨hcloses,key,u,rfl,hu,hlt⟩
      omega
  | other hopens' hcloses =>
    exact ⟨fun _ hlater => hcloses hlater.1,fun _ s _ h => h⟩

def Overwrites (k : Text) (c : Int) (event : DirectoryEvent) : Prop :=
  Opens k event ∨ event.eventType = .retirement ∧ event.keyId = k ∨
    event.eventType = .compromise ∧ event.keyId = k ∧ c < event.timestamp

theorem Effect.stays (heffect : Effect k event before after) (hover : ¬ Overwrites k c event)
    (htime : c≤event.timestamp) (h : CompromisedFrom before c) : CompromisedFrom after c := by
  cases heffect with
  | opens hopens => exact absurd (.inl hopens) hover
  | @closes key hcloses hrotation =>
    obtain ⟨_,hkey,hstatus,huntil⟩ := h
    cases hkey
    rcases hcloses with ⟨htype,-⟩ | ⟨htype | htype,hk⟩
    · exact absurd hstatus (hrotation htype)
    · have hlater : ¬ c<event.timestamp := fun hlt => hover (.inr (.inr ⟨htype,hk,hlt⟩))
      have hsame : event.timestamp=c := by omega
      refine ⟨_,rfl,?_,congrArg some hsame⟩
      show closedStatus event=.compromised
      rw [closedStatus,htype]
    · exact absurd (.inr (.inl ⟨htype,hk⟩)) hover
  | other => exact h

theorem Effect.compromised (heffect : Effect k event before after)
    (htype : event.eventType=.compromise) (hk : event.keyId=k) :
    CompromisedFrom after event.timestamp := by
  have hcloses : Closes k event := .inr ⟨.inl htype,hk⟩
  cases heffect with
  | opens hopens => exact absurd hopens (not_opens_of_closes hcloses)
  | closes =>
    refine ⟨_,rfl,?_,rfl⟩
    show closedStatus event=.compromised
    rw [closedStatus,htype]
  | other hopens hcloses' => exact absurd hcloses hcloses'

/-- After an event that overwrites it the key is not reported for all the times from `c` on. -/
theorem overwrites_step (hst : Step eventHash d event d') (hover : Overwrites k c event) :
    ¬ keyWasCompromisedAt d' k c=true := by
  intro hreported
  obtain ⟨c',⟨key,hkey,hstatus,huntil⟩,hle⟩ := keyWasCompromisedAt_iff.1 hreported
  have heffect := step_effect hst k
  rw [hkey] at heffect
  generalize d.keys.lookup k=before at heffect
  cases heffect with
  | opens hopens hfrom huntil' hactive =>
    rw [hactive] at hstatus
    cases hstatus
  | closes hcloses =>
    have hc : event.timestamp=c' := Option.some.inj huntil
    replace hstatus : closedStatus event=.compromised := hstatus
    rcases hover with hopens | ⟨htype,-⟩ | ⟨htype,-,hlt⟩
    · exact not_opens_of_closes hcloses hopens
    · rw [closedStatus,htype] at hstatus
      cases hstatus
    · omega
  | other hopens hcloses =>
    rcases hover with hopens' | ⟨htype,hk⟩ | ⟨htype,hk,-⟩
    · exact hopens hopens'
    · exact hcloses (.inr ⟨.inr htype,hk⟩)
    · exact hcloses (.inr ⟨.inl htype,hk⟩)

theorem compromise_reported_iff (ht : lastTime d=some t)
    (hlater : Run (Step eventHash) d tr' d') (h : CompromisedFrom (d.keys.lookup k) t) :
    (∀ e∈tr', ∀ time, t≤time → keyWasCompromisedAt e.post k time=true) ↔
      ∀ e∈tr', ¬ Overwrites k t e.label := by
  have htimes := times_after ht hlater
  constructor
  · intro hreported e he hover
    obtain ⟨tr₁,tr₂,-,-,hst,-⟩ := hlater.event_split he
    exact overwrites_step hst hover (hreported e he t (Int.le_refl t))
  · intro hover
    have hkept := Run.afterwards (C := fun e => ¬ Overwrites k t e.label ∧ t≤e.label.timestamp)
      (I := fun d => CompromisedFrom (d.keys.lookup k) t) h
      (fun d event d' hi hst hc => (step_effect hst k).stays hc.1 hc.2 hi) hlater
      fun e he => ⟨hover e he,htimes e he⟩
    intro e he time htime
    exact keyWasCompromisedAt_iff.2 ⟨t,hkept e he,htime⟩

theorem closed_run_iff (hordered : Ordered d) (ht : lastTime d=some t)
    (hclosed : ClosedFrom t (d.keys.lookup k)) (hlater : Run (Step eventHash) d tr' d') :
    (∀ e∈tr', ¬ Opens k e.label → ∀ s, t ≤ s → Within (e.post.keys.lookup k) s →
      Within (e.pre.keys.lookup k) s) ↔ ∀ e∈tr', ¬ ClosesLater k e := by
  have htimes := times_after ht hlater
  have hpre := (Run.throughout (C := fun e => t≤e.label.timestamp)
    (I := fun d => Ordered d ∧ ClosedFrom t (d.keys.lookup k)) ⟨hordered,hclosed⟩
    (fun d event d' hi hst htime =>
      ⟨ordered_step hi.1 hst,(step_effect hst k).closedFrom htime hi.2⟩)
    hlater htimes).1
  refine forall₂_congr fun e he => ?_
  obtain ⟨tr₁,tr₂,-,-,hst,-⟩ := hlater.event_split he
  have hiff := closed_stays_iff (hpre e he).1 (hpre e he).2 hst
  constructor
  · intro hstays hcloses
    have hopens := not_opens_of_closes hcloses.1
    exact (hiff hopens).1 (hstays hopens) hcloses
  · intro hcloses hopens
    exact (hiff hopens).2 hcloses

/-- What was valid stays so until the key is opened again. A closed key becomes valid at no time
from its end on, as long as no event moves the end on. A compromised key is reported as such until
an event overwrites that. -/
theorem historical_validity_stable_iff {org : Text}
    (hrun : Run (Step eventHash) ⟨org,[],[]⟩ tr d) (hlater : Run (Step eventHash) d tr' d')
    (k : Text) :
    (∀ s t, lastTime d = some t → s < t → keyValidForHistoricalSignature d k s = true →
      ((∀ e ∈ tr', keyValidForHistoricalSignature e.post k s = true) ↔
        ∀ e ∈ tr', ¬ Opens k e.label)) ∧
    (∀ e₀ ∈ tr.head?, Closes k e₀.label →
      ((∀ e ∈ tr', ¬ Opens k e.label → ∀ s, e₀.label.timestamp ≤ s →
        keyValidForHistoricalSignature e.post k s = true →
          keyValidForHistoricalSignature e.pre k s = true) ↔ ∀ e ∈ tr', ¬ ClosesLater k e)) ∧
    (∀ e₀ ∈ tr.head?, e₀.label.eventType = .compromise → e₀.label.keyId = k →
      ((∀ e ∈ tr', ∀ time, e₀.label.timestamp ≤ time → keyWasCompromisedAt e.post k time = true) ↔
        ∀ e ∈ tr', ¬ Overwrites k e₀.label.timestamp e.label)) := by
  have hordered := ordered_run hrun
  refine ⟨fun s t ht hs hvalid => ?_,fun e₀ he₀ hcloses => ?_,fun e₀ he₀ htype hk => ?_⟩
  · simp only [keyValid_iff] at hvalid ⊢
    exact past_signature_iff ht hlater hs hvalid
  · simp only [keyValid_iff]
    cases hrun with
    | nil => cases he₀
    | snoc hrun₀ hst =>
      cases he₀
      exact closed_run_iff hordered (step_lastTime hst) ((step_effect hst k).closed hcloses) hlater
  · cases hrun with
    | nil => cases he₀
    | snoc hrun₀ hst =>
      cases he₀
      exact compromise_reported_iff (step_lastTime hst) hlater
        ((step_effect hst k).compromised htype hk)

def sampleHash : EventHash := fun _ => ['e']

def sampleEvent (eventType : EventType) (sequence timestamp : Int) : DirectoryEvent where
  eventType
  sequence
  timestamp
  organizationIdentityHash := ['o']
  keyId := ['k']
  publicKeyHash := ['h']
  previousEventHash := if sequence = 0 then none else some ['e']

def sampleRotation : DirectoryEvent :=
  { sampleEvent .rotation 2 5 with keyId := ['l'], relatedKeyId := some ['k'] }

def logged (events : List DirectoryEvent) : Except String IssuerDirectory :=
  events.foldlM (appendEvent sampleHash) ⟨['o'],[],[]⟩

def sampleActive : IssuerDirectory where
  organizationIdentityHash := ['o']
  events := [sampleEvent .activation 0 1]
  keys := [(['k'],opened (sampleEvent .activation 0 1) "ed25519".toList)]

def sampleChecked : IssuerDirectory :=
  { sampleActive with events := sampleActive.events++[sampleEvent .checkpoint 1 3] }

def sampleRotated : IssuerDirectory :=
  ((appendEvent sampleHash sampleChecked sampleRotation).toOption).getD sampleChecked

theorem step_sample {d d' : IssuerDirectory} {event : DirectoryEvent} (ht : lastTime d=some t)
    (hle : t≤event.timestamp) (h : appendEvent sampleHash d event=.ok d') :
    Step sampleHash d event d' := by
  refine ⟨fun t' ht' => ?_,h⟩
  cases ht.symm.trans ht'
  exact hle

/-- A signature of the second second, before and after the rotation of its key. -/
theorem rotated_key_valid_before :
    keyValidForHistoricalSignature sampleRotated ['k'] 2 = true := by
  have hactive : Step sampleHash ⟨['o'],[],[]⟩ (sampleEvent .activation 0 1) sampleActive := by
    refine ⟨fun t ht => ?_,rfl⟩
    cases ht
  have hchecked : Step sampleHash sampleActive (sampleEvent .checkpoint 1 3) sampleChecked :=
    step_sample (t := 1) rfl (by decide) rfl
  have hrotated : Step sampleHash sampleChecked sampleRotation sampleRotated :=
    step_sample (t := 3) rfl (by decide) rfl
  have hstable := (historical_validity_stable_iff ((Run.nil.snoc hactive).snoc hchecked)
    (Run.nil.snoc hrotated) ['k']).1 2 3 rfl (by decide) rfl
  refine hstable.2 ?_ _ List.mem_cons_self
  intro e he hopens
  obtain rfl := List.mem_singleton.1 he
  exact absurd hopens.2 (by decide)

/-- Opened again, closed twice, and retired after a compromise. -/
theorem key_history_rewritten :
    (logged [sampleEvent .activation 0 1,sampleEvent .retirement 1 3]).map
      (keyValidForHistoricalSignature · ['k'] 2) = .ok true ∧
    (logged [sampleEvent .activation 0 1,sampleEvent .retirement 1 3,
      sampleEvent .activation 2 5]).map (keyValidForHistoricalSignature · ['k'] 2) = .ok false ∧
    (logged [sampleEvent .activation 0 1,sampleEvent .retirement 1 3]).map
      (keyValidForHistoricalSignature · ['k'] 4) = .ok false ∧
    (logged [sampleEvent .activation 0 1,sampleEvent .retirement 1 3,
      sampleEvent .retirement 2 5]).map (keyValidForHistoricalSignature · ['k'] 4) = .ok true ∧
    (logged [sampleEvent .activation 0 1,sampleEvent .compromise 1 3]).map
      (keyWasCompromisedAt · ['k'] 4) = .ok true ∧
    (logged [sampleEvent .activation 0 1,sampleEvent .compromise 1 3,
      sampleEvent .retirement 2 5]).map (keyWasCompromisedAt · ['k'] 4) = .ok false := by
  refine ⟨?_,?_,?_,?_,?_,?_⟩
  all_goals rfl

end Harpocrates.Backend.KeyTransparency
