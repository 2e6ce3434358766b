import Harpocrates.Backend.System

namespace Harpocrates.Backend

open Framework Framework.Python Rows List

theorem checkOwner_scoped {owner proofId : Text} {sourceAddress existing : Option Text}
    {findOwner : Text → Except Unit (Option Text)}
    (h : checkOwner (some ⟨some owner⟩) findOwner proofId sourceAddress=.ok ())
    (hfound : findOwner proofId=.ok existing) : existing=none ∨ existing=sourceAddress := by
  simp only [checkOwner,Option.any_some,RegistrationPrincipal.isScoped,Option.isSome_some,
    Bool.not_true,Bool.false_eq_true,if_false,hfound] at h
  split at h
  · cases h
  · next hsame => tauto

section

variable {service : Service} {w : World} {request : RegisterRequest} {now : Int}
  {registration : Registration} {owner : Text}

theorem accept_scoped_address (h : accept service w request now=.ok registration)
    (hscoped : registration.principal=some ⟨some owner⟩) :
    registration.fields.sourceAddress=some owner := by
  obtain ⟨principal,hauth,hadmissible⟩ := accept_ok h
  obtain rfl : principal=some ⟨some owner⟩ := hadmissible.principal_eq.symm.trans hscoped
  have hobject := hadmissible.object
  cases hpayload : request.payload with
  | dict shown entries =>
    have hown := requireRegisterAuth_scoped hauth hpayload
    rw [hadmissible.address] at hown
    exact Except.ok.inj hown
  | _ => simp [hpayload,isDict] at hobject

theorem accept_scoped_owner (h : accept service w request now=.ok registration)
    (hscoped : registration.principal=some ⟨some owner⟩) {proofId : Text}
    (hproof : registration.fields.proofId=some proofId) :
    (value32 proofId).isSome ∧ (findProofOwner w.events proofId=none ∨
      findProofOwner w.events proofId=registration.fields.sourceAddress) := by
  obtain ⟨principal,-,hadmissible⟩ := accept_ok h
  obtain rfl : principal=some ⟨some owner⟩ := hadmissible.principal_eq.symm.trans hscoped
  obtain ⟨proofId',hproof',hvalue,howner⟩ := hadmissible.owner
  obtain rfl : proofId'=proofId := Option.some.inj (hproof'.symm.trans hproof)
  exact ⟨hvalue,checkOwner_scoped howner rfl⟩

end

theorem findProofOwner_first {t : ProofEvents} {proofId : Text} {i : Nat} {e : ProofEvent}
    (he : (i,e)∈t) (hclaims : e.claims=true) (hproof : e.proofId=some proofId) :
    ∃ j r, (j,r)∈t ∧ j ≤ i ∧ r.claims=true ∧ r.proofId=some proofId ∧
      findProofOwner t proofId=r.sourceAddress ∧ r.sourceAddress≠none := by
  have hmatch : (decide (e.proofId=some proofId) && e.claims)=true := by
    simp [hclaims,hproof]
  cases hfind : t.entries.find? fun e => e.2.proofId=some proofId && e.2.claims with
  | none => exact absurd hmatch (by simpa using List.find?_eq_none.1 hfind (i,e) he)
  | some found =>
    obtain ⟨j,r⟩ := found
    obtain ⟨hproof',hclaims'⟩ : r.proofId=some proofId ∧ r.claims=true := by
      simpa using List.find?_some hfind
    refine ⟨j,r,mem_of_find?_eq_some hfind,le_of_find hfind he hmatch,hclaims',hproof',
      ?_,?_⟩
    · rw [findProofOwner,hfind,Option.bind_some]
    · intro hnone
      simp [ProofEvent.claims,hnone] at hclaims'

/-- Row `i` is the first to claim the value of a proof id. -/
def FirstClaim (t : ProofEvents) (proofId : Text) (i : Nat) : Prop :=
  ∀ j r q, (j,r) ∈ t → r.claims = true → r.proofId = some q → SameValue q proofId → i ≤ j

/-- What a scoped request stores names the address of its credential. It names the address that
claimed the proof first, if that claim was there when the request looked, in the same spelling. -/
theorem scoped_insert_owner {service : Service} {w : World} {tr₁ tr₂ tr₃ : Trace}
    {a ev : Event World Label}
    (hr : Run (step service) World.empty (tr₃++ev::(tr₂++a::tr₁)) w)
    (hkept : ∀ ev' ∈ tr₃++ev::(tr₂++a::tr₁), ∀ now batchSize, ev'.label ≠ .purge now batchSize)
    {n : Nat} {registration : Registration} {owner : Text} {row : ProofEvent}
    (hn : n = a.pre.inFlight.next) (hadmitted : (n,registration) ∈ a.post.inFlight)
    (hscoped : registration.principal = some ⟨some owner⟩) (hstore : ev.label = .store n)
    (hrow : (ev.pre.events.next,row) ∈ ev.post.events) :
    row.sourceAddress = some owner ∧
    ∀ i e proofId, (i,e) ∈ w.events → e.claims = true → e.proofId = some proofId →
      FirstClaim w.events proofId i → i < a.pre.events.next → row.proofId = some proofId →
      row.sourceAddress = e.sourceAddress := by
  obtain ⟨hbefore,hst,-⟩ := hr.split
  obtain ⟨-,harrive,hbetween⟩ := hbefore.split
  -- The request is admitted in `a` and stored in `ev`.
  obtain ⟨request,now,haccept⟩ :
      ∃ request now, accept service a.pre request now=.ok registration := by
    rw [← harrive] at hadmitted
    rcases inFlight_next hadmitted with hold | ⟨request,now,-,-,haccept⟩
    · exact absurd (lt_next hold) (by omega)
    · exact ⟨request,now,haccept⟩
  have hstored : row=registerRow registration.idempotencyKey registration.fields := by
    have hwrite := step_write hst
    rw [hstore] at hwrite
    generalize ev.post.events=t at hwrite hrow
    cases hwrite with
    | nothing => exact absurd (lt_next hrow) (Nat.lt_irrefl _)
    | registered hflight =>
      have hsame := run_inFlight_backward hbetween hflight (lt_next hadmitted)
      obtain rfl := row_unique hsame hadmitted
      rcases mem_insert.1 hrow with hrow | ⟨-,rfl⟩
      · exact absurd (lt_next hrow) (Nat.lt_irrefl _)
      · rfl
  subst hstored
  have haddress := accept_scoped_address haccept hscoped
  refine ⟨haddress,fun i e proofId he hclaims hproof hfirst hi hmine => ?_⟩
  -- From the lookup on, the claim is in the table and nothing is deleted.
  have hfrom : Run (step service) a.pre ((tr₃++ev::tr₂)++[a]) w := by
    rw [← cons_append,← append_assoc] at hr
    exact (Run.nil.snoc harrive).trans hr.split.2.2
  obtain ⟨e₀,he₀,hrewritten⟩ := run_backward hfrom he hi
  obtain ⟨j,r,hr₀,hj,hclaims',hproof',hfound,hsome⟩ := findProofOwner_first he₀
    (hrewritten.claims.symm.trans hclaims) (hrewritten.proofId.symm.trans hproof)
  obtain ⟨hvalue,howner⟩ := accept_scoped_owner haccept hscoped hmine
  obtain ⟨r',hr',hlater⟩ := run_forward hfrom (by
    intro ev' hev'
    refine hkept ev' ?_
    simp only [mem_append,mem_cons,not_mem_nil,or_false] at hev' ⊢
    rcases hev' with (hthird | hstore | hsecond) | hlook
    · exact .inl hthird
    · exact .inr (.inl hstore)
    · exact .inr (.inr (.inl hsecond))
    · exact .inr (.inr (.inr (.inl hlook)))) hr₀
  have hij : i≤j := hfirst j r' proofId hr' (hlater.claims.trans hclaims')
    (hlater.proofId.trans hproof') ⟨hvalue,rfl⟩
  obtain rfl : j=i := Nat.le_antisymm hj hij
  obtain rfl := row_unique hr₀ he₀
  rw [hfound] at howner
  exact (howner.resolve_left hsome).symm.trans hrewritten.sourceAddress.symm

def firstOwner : Text := "GAAAAAAAAAAAAAAAAAAAAAAAAAAAAAAAAAAAAAAAAAAAAAAAAAAABZKY".toList
def secondOwner : Text := "GAAQCAIBAEAQCAIBAEAQCAIBAEAQCAIBAEAQCAIBAEAQCAIBAEAQDZ7H".toList

def scopedService : Service where
  config := {
    registerScopedKeys := [⟨firstOwner,Sha256.digest (encode "first".toList)⟩,
      ⟨secondOwner,Sha256.digest (encode "second".toList)⟩]
    maxJsonBytes := 4096
    maxMetadataBytes := 4096 }
  decodeScval := id

def claimRequest (token : String) (owner : Text) (video proof : Char) : RegisterRequest where
  authorization := BEARER++token.toList
  payload := .dict [] [("videoHash".toList,repeated video),("metadataHash".toList,repeated 'e'),
    ("proofId".toList,repeated proof),("tier".toList,.str "seal".toList),
    ("sourceAddress".toList,.str owner)]

def claimRegistration (owner : Text) (video proof : Char) : Registration where
  principal := some ⟨some owner⟩
  idempotencyKey := makeIdempotencyKey (List.replicate 64 video) (List.replicate 64 proof) none
  fields := {
    eventType := .register
    videoHash := some (List.replicate 64 video)
    metadataHash := some (List.replicate 64 'e')
    proofId := some (List.replicate 64 proof)
    tier := some "seal".toList
    sourceAddress := some owner
    retentionClass := some "default".toList
    expiresAt := some 2592000 }

def claimRow (owner : Text) (video proof : Char) : ProofEvent :=
  let registration := claimRegistration owner video proof
  registerRow registration.idempotencyKey registration.fields

def ownedWorld : World := [.arrive (claimRequest "first" firstOwner 'b' 'a') 0,.store 0].foldl
  (next scopedService) World.empty

def againWorld : World :=
  next scopedService ownedWorld (.arrive (claimRequest "first" firstOwner 'c' 'a') 0)

def againEvent : Event World Label :=
  ⟨ownedWorld,.arrive (claimRequest "first" firstOwner 'c' 'a') 0,againWorld⟩

def twiceWorld : World := next scopedService againWorld (.store 1)

def storeEvent : Event World Label := ⟨againWorld,.store 1,twiceWorld⟩

theorem twiceWorld_run : Run (step scopedService) World.empty
    ([]++storeEvent::([]++againEvent::play scopedService World.empty
      [.arrive (claimRequest "first" firstOwner 'b' 'a') 0,.store 0])) twiceWorld :=
  ((run_play scopedService World.empty [.arrive (claimRequest "first" firstOwner 'b' 'a') 0,
    .store 0]).snoc rfl).snoc rfl

theorem twiceWorld_kept : ∀ ev : Event World Label, ev∈[]++storeEvent::([]++againEvent::play
    scopedService World.empty [.arrive (claimRequest "first" firstOwner 'b' 'a') 0,.store 0]) →
    ∀ now batchSize, ev.label≠Label.purge now batchSize := by
  intro ev hev now batchSize
  simp only [nil_append,play,mem_append,mem_cons,not_mem_nil,or_false] at hev
  rcases hev with rfl | rfl | rfl | rfl <;> simp [storeEvent,againEvent]

theorem twiceWorld_rows :
    (0,claimRow firstOwner 'b' 'a')∈twiceWorld.events ∧
      (storeEvent.pre.events.next,claimRow firstOwner 'c' 'a')∈storeEvent.post.events ∧
      1=againEvent.pre.inFlight.next ∧
      (1,claimRegistration firstOwner 'c' 'a')∈againEvent.post.inFlight ∧
      0<againEvent.pre.events.next := by
  decide +kernel

theorem scoped_insert_owner_again :
    (storeEvent.pre.events.next,claimRow firstOwner 'c' 'a') ∈ storeEvent.post.events ∧
      (claimRow firstOwner 'c' 'a').sourceAddress =
        (claimRow firstOwner 'b' 'a').sourceAddress := by
  obtain ⟨hfirst,hstored,hnumber,hadmitted,hseen⟩ := twiceWorld_rows
  have hown := scoped_insert_owner twiceWorld_run twiceWorld_kept hnumber hadmitted rfl rfl hstored
  refine ⟨hstored,hown.2 0 _ (List.replicate 64 'a') hfirst ?_ ?_ ?_ hseen ?_⟩
  · rfl
  · rfl
  · exact fun _ _ _ _ _ _ _ => Nat.zero_le _
  · rfl

def raceSteps : List Label :=
  [.arrive (claimRequest "first" firstOwner 'b' 'a') 0,
    .arrive (claimRequest "second" secondOwner 'c' 'a') 0,.store 0]

def spellingSteps : List Label :=
  [.arrive (claimRequest "first" firstOwner 'b' 'a') 0,.store 0,
    .arrive (claimRequest "second" secondOwner 'c' 'A') 0]

/-- After the steps, the second credential stores a row for the proof of the first. -/
def StoredForOther (steps : List Label) (proof : Char) : Prop :=
  ∃ tr w ev, Run (step scopedService) World.empty (ev::tr) w ∧
    tr = play scopedService World.empty steps ∧ ev.label = .store 1 ∧
    (0,claimRow firstOwner 'b' 'a') ∈ ev.pre.events ∧
    (1,claimRegistration secondOwner 'c' proof) ∈ ev.pre.inFlight ∧
    (1,claimRow secondOwner 'c' proof) ∈ w.events ∧
    SameValue (List.replicate 64 proof) (List.replicate 64 'a') ∧
    (claimRow secondOwner 'c' proof).sourceAddress ≠ (claimRow firstOwner 'b' 'a').sourceAddress

/-- A second scoped credential claims a proof that the first one has: by being in between its
lookup and its insert, or by spelling the proof id differently. -/
theorem scoped_insert_other_owner :
    StoredForOther raceSteps 'a' ∧ StoredForOther spellingSteps 'A' := by
  constructor
  · refine ⟨_,_,⟨_,.store 1,_⟩,(run_play scopedService World.empty raceSteps).snoc rfl,rfl,rfl,?_⟩
    decide +kernel
  · refine ⟨_,_,⟨_,.store 1,_⟩,(run_play scopedService World.empty spellingSteps).snoc rfl,rfl,rfl,
      ?_⟩
    decide +kernel

end Harpocrates.Backend
