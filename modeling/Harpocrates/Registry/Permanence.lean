import Harpocrates.Registry.FrameFields
import Harpocrates.Registry.Nullifiers

namespace Harpocrates.Registry

open Framework Tx List

variable {host : Host} {w w' : World} {l : Label} {tr : Trace}

/-- The event is a call that went through and registered the proof. -/
def RegistersAs (host : Host) (e : Event World Label) (p : Bytes32) (r : Entry Bytes32 Bytes32) :
    Prop :=
  ∃ c, Succeeds host e c ∧ .record p r ∈ c.ops e.pre.store

theorem entry_next {p : Bytes32} {r : Entry Bytes32 Bytes32} (hst : next host w l=w') :
    (book w'.store).entry p=some r ↔
      RegistersAs host ⟨w,l,w'⟩ p r ∨ (book w.store).entry p=some r := by
  constructor
  · intro h
    obtain ⟨inv,c,rfl,-,hx⟩ | hk := next_store hst
    · rw [(exec_registers hx).refines] at h
      exact (Book.entry_applyAll_cases h).imp_left fun hnew => ⟨c,⟨inv,rfl,hx⟩,hnew⟩
    · exact .inr (by simpa [book,hk (.Proof p) (by simp)] using h)
  · intro h
    rcases h with ⟨c,⟨inv,-,hx⟩,hnew⟩ | hold
    · rw [(exec_registers hx).refines]
      exact Book.entry_applyAll_of_mem (exec_registers hx).ids hnew
    · obtain ⟨inv,c,-,hr⟩ | hb := next_registers hst
      · rw [hr.refines,Book.entry_applyAll_of_not_mem]
        · exact hold
        · intro r' hnew
          rw [book_entry_none.2 (hr.fresh p r' hnew).1] at hold
          cases hold
      · rwa [hb]

/-- The proofs in the registry are exactly those that calls registered, each as it was registered
and by one call only. -/
theorem registrations_exact {host : Host} {start : Ledger} {tr : Trace} {w : World}
    (h : Reaches host start tr w) (p : Bytes32) (r : Entry Bytes32 Bytes32) :
    ((book w.store).entry p = some r ↔ ∃ e ∈ tr, RegistersAs host e p r) ∧
    ∀ tr₁ e tr₂, tr = tr₂++e::tr₁ → RegistersAs host e p r →
      ∀ e' ∈ tr₁, ∀ r', ¬ RegistersAs host e' p r' := by
  have hentry : ∀ {tr : Trace} {w : World} {r : Entry Bytes32 Bytes32},
      Reaches host start tr w →
        ((book w.store).entry p=some r ↔ ∃ e∈tr, RegistersAs host e p r) := by
    intro tr w r h
    exact Run.history_iff (P := fun w : World => (book w.store).entry p=some r)
      (by simp [book,Store.empty]) (fun _ _ _ => entry_next) h
  refine ⟨hentry h,?_⟩
  intro tr₁ e tr₂ htr hnew e' he' r' hearlier
  subst htr
  obtain ⟨c,⟨inv,-,hx⟩,hnew⟩ := hnew
  have hpresent := (hentry (Run.split h).1).2 ⟨e',he',hearlier⟩
  rw [book_entry_none.2 ((exec_registers hx).fresh p r hnew).1] at hpresent
  cases hpresent

theorem registrations_exact_browser :
    ∃ r, ∃ e ∈ (deploy mixedPaths).1, RegistersAs stellarHost e (fill 20) r := by
  obtain ⟨r,hr⟩ := Option.isSome_iff_exists.1
    (show ((book (deploy mixedPaths).2.store).entry (fill 20)).isSome=true by decide +kernel)
  exact ⟨r,(registrations_exact (deploy_reaches mixedPaths) _ r).1.1 hr⟩

/-- The schema is stored as it was, except that it may have been deprecated. -/
def SchemaKept (hash : Bytes32) (r : SchemaRecord) (w : World) : Prop :=
  ∃ active ≤ r.active, w.store (.Schema hash) = some { r with active }

theorem deprecateSchema_ok {env : Env} {admin : Address} {hash : Bytes32} {s s' : Storage}
    {u : Unit} (h : deprecateSchema env admin hash s=.ok (u,s')) : ∃ r, s (.Schema hash)=some r ∧
      Store.set s (.Schema hash) { r with active := false }=s' := by
  simp only [deprecateSchema,getSchemaRecord,bind_ok,requireAdmin_ok,get_ok,unwrap_ok,
    set_ok] at h
  obtain ⟨_,_,⟨-,-,rfl⟩,r,_,⟨_,_,⟨rfl,rfl⟩,hr,rfl⟩,h⟩ := h
  exact ⟨r,hr,h⟩

theorem SchemaKept.next {hash : Bytes32} {r : SchemaRecord} (h : SchemaKept hash r w)
    (hst : Registry.next host w l=w') : SchemaKept hash r w' := by
  obtain ⟨active,hle,h⟩ := h
  obtain ⟨inv,c,-,-,hx⟩ | hk := next_store hst
  · cases c with
    | addSchema admin hash' =>
      simp only [exec,addSchema,bind_ok,requireAdmin_ok,failIf_ok,set_ok] at hx
      obtain ⟨_,_,⟨-,-,rfl⟩,_,_,⟨rfl,rfl⟩,_,_,⟨hnew,rfl⟩,_,_,⟨-,rfl⟩,hpost⟩ := hx
      have hne : hash≠hash' := by
        intro heq
        subst heq
        simp [h] at hnew
      exact ⟨active,hle,by simpa [← hpost,hne] using h⟩
    | deprecateSchema admin hash' =>
      obtain ⟨old,hold,hpost⟩ := deprecateSchema_ok hx
      by_cases heq : hash=hash'
      · subst heq
        obtain rfl := Option.some.inj (hold.symm.trans h)
        exact ⟨false,Bool.false_le _,by simp [← hpost]⟩
      · exact ⟨active,hle,by simpa [← hpost,heq] using h⟩
    | _ => exact ⟨active,hle,(exec_footprint hx (notMem_of_elem rfl)).trans h⟩
  · exact ⟨active,hle,(hk _ (by simp)).trans h⟩

theorem proceeds_schemaKept {hash : Bytes32} {r : SchemaRecord} (h : Proceeds host w tr w')
    (hr : w.store (.Schema hash)=some r) : SchemaKept hash r w' :=
  Run.state_invariant ⟨_,le_refl _,hr⟩ (fun _ _ _ => SchemaKept.next) h

theorem verifySelectiveDisclosure_schema {env : Env} {s s' : Storage} {publicInputs proof : Bytes}
    {u : Unit} (h : verifySelectiveDisclosure env publicInputs proof s=.ok (u,s')) :
    ∃ r, s (.Schema (field publicInputs 0))=some r ∧ r.active=true ∧
      r.issuerNamespace=field publicInputs 32 ∧
      r.version=u32FromBeBytes (field publicInputs 64) := by
  simp only [verifySelectiveDisclosure,getSchemaRecord,bind_ok,lift_ok,failIf_ok,
    get_ok,unwrap_ok] at h
  obtain ⟨parsed,_,⟨hparsed,rfl⟩,_,_,⟨-,rfl⟩,r,_,⟨_,_,⟨rfl,rfl⟩,hr,rfl⟩,h⟩ := h
  obtain ⟨_,_,⟨hactive,rfl⟩,_,_,⟨hversion,rfl⟩,_,_,⟨hnamespace,rfl⟩,-⟩ := h
  obtain ⟨-,rfl⟩ := parseSelectiveDisclosureInputs_ok hparsed
  exact ⟨r,hr,by simpa using hactive,by simpa using hnamespace,by simpa using hversion⟩

/-- A stored schema changes by its deprecation only. Until then disclosures under it go through
for the namespace and the version it was added with, and afterwards none does. -/
theorem schema_disclosures {host : Host} {w w' : World} {tr : Trace} {hash : Bytes32}
    {r : SchemaRecord} (h : Proceeds host w tr w') (hr : w.store (.Schema hash) = some r) :
    SchemaKept hash r w' ∧
    ∀ tr₁ e tr₂ publicInputs proof, tr = tr₂++e::tr₁ → field publicInputs 0 = hash →
      Succeeds host e (.verifySelectiveDisclosure publicInputs proof) →
      r.issuerNamespace = field publicInputs 32 ∧
      r.version = u32FromBeBytes (field publicInputs 64) ∧ r.active = true ∧
      ∀ e' ∈ tr₁, ∀ admin, ¬ Succeeds host e' (.deprecateSchema admin hash) := by
  refine ⟨proceeds_schemaKept h hr,?_⟩
  rintro tr₁ e tr₂ publicInputs proof rfl rfl ⟨inv,-,hx⟩
  obtain ⟨hbefore,-⟩ := Run.split h
  obtain ⟨used,hused,hactive,hnamespace,hversion⟩ := verifySelectiveDisclosure_schema hx
  obtain ⟨active,hle,hkept⟩ := proceeds_schemaKept hbefore hr
  obtain rfl := Option.some.inj (hused.symm.trans hkept)
  refine ⟨hnamespace,hversion,hle hactive,?_⟩
  intro e' he' admin hyp
  obtain ⟨inv',-,hx'⟩ := hyp
  obtain ⟨_,_,-,-,-,hbetween⟩ := Run.event_split hbefore he'
  obtain ⟨old,-,hpost⟩ := deprecateSchema_ok hx'
  obtain ⟨active',hle',hkept'⟩ := proceeds_schemaKept hbetween (by rw [← hpost,Store.set_self])
  obtain rfl : active=active' :=
    congrArg SchemaRecord.active (Option.some.inj (hused.symm.trans hkept'))
  exact absurd (hle' hactive) (by simp)

theorem schema_disclosures_first :
    Succeeds stellarHost
      (withSchema.event stellarHost (.call ⟨1⟩ (disclosureCall (lowByte 1))))
      (disclosureCall (lowByte 1)) ∧
    1 = u32FromBeBytes (field (versionedFrame (lowByte 1)) 64) := by
  have hx : Succeeds stellarHost
      (withSchema.event stellarHost (.call ⟨1⟩ (disclosureCall (lowByte 1))))
      (disclosureCall (lowByte 1)) := succeeds_event (by decide +kernel)
  have hr : withSchema.store (.Schema (fill 9)) =
      some ⟨fill 9,fill 8,1,true,4,genesis.timestamp⟩ := by decide +kernel
  exact ⟨hx,((schema_disclosures (Run.nil.snoc rfl) hr).2 [] _ [] _ _ rfl
    (by decide +kernel) hx).2.1⟩

end Harpocrates.Registry
