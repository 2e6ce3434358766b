import Harpocrates.Registry.GovernanceActions

namespace Harpocrates.Registry

open Framework Tx List

theorem mark_same (p : Path) (a : GovernanceAction) (s : Storage) :
    SameOn (In a.keys) (p.mark s) s := by
  have timelock : ∀ id v, SameOn (In a.keys) (Store.set s (.Proposal id) v) s := fun id v =>
    .of_set v (by cases a <;> exact of_decide_eq_false rfl) s
  have council : ∀ id v, SameOn (In a.keys) (Store.set s (.CouncilProposal id) v) s :=
    fun id v => .of_set v (by cases a <;> exact of_decide_eq_false rfl) s
  cases p with
  | direct admin => exact .refl _ _
  | timelocked caller id | emergency caller id =>
    simp only [Path.mark]
    split
    · exact timelock id _
    · exact .refl _ _
  | council caller id =>
    simp only [Path.mark]
    split
    · exact council id _
    · exact .refl _ _

theorem has_local {R : DataKey → Prop} {k : DataKey} (hk : R k) : Local R (has k) :=
  Local.gets fun s t hst => by rw [hst k hk]

theorem indexCredentialRoot_local {R : DataKey → Prop} (root : Bytes32)
    (hi : R (.CredentialRootIndexed root)) (hs : R .CredentialRootSeq) :
    Local R (indexCredentialRoot root) := by
  refine Local.bind (has_local hi) fun b => Local.ite (by simp) ?_
  refine Local.bind (Local.get hs) fun seq => ?_
  repeat' first | with_reducible refine Local.bind ?_ fun _ => ?_ | simp

variable {s s' t : Storage} {u : Unit} {a : GovernanceAction}

theorem backfillQueue_congr (hst : SameOn (In GovernanceAction.upgradeStorage.keys) s t) :
    backfillQueue s=backfillQueue t := by
  unfold backfillQueue
  rw [hst .CredentialRootsBackfillQueue (of_decide_eq_true rfl),
    hst .CredentialRootsBackfill (of_decide_eq_true rfl)]

theorem main_local (a : GovernanceAction) : Local (In a.keys) a.main := by
  cases a with
  | setVerifier verifier => exact Local.bind (Local.set _ _) fun _ => Local.remove _
  | revokeIssuer issuer =>
    refine Local.bind (Local.bind (Local.get (of_decide_eq_true rfl)) fun _ => by simp)
      fun record => ?_
    exact Local.bind (Local.set _ _) fun _ => Local.remove _
  | upgradeStorage =>
    have hk : In GovernanceAction.upgradeStorage.keys .SchemaVersion := of_decide_eq_true rfl
    refine Local.bind (has_local hk) fun hadVersion => ?_
    refine Local.bind (Local.get hk) fun version => ?_
    repeat' first
      | with_reducible refine Local.bind ?_ fun _ => ?_
      | apply Local.ite
      | simp

theorem followUp_local (a : GovernanceAction) : Local (In a.keys) a.followUp := by
  cases a with
  | setVerifier verifier => exact Local.remove _
  | revokeIssuer issuer => exact Local.pure ()
  | upgradeStorage =>
    refine Local.bind (Local.gets fun s t hst => backfillQueue_congr hst) fun queue => ?_
    cases queue with
    | none => exact Local.pure ()
    | some queue =>
      refine Local.bind (Local.get (of_decide_eq_true rfl)) fun cursor => ?_
      refine Local.bind (Local.forEach _ fun root => ?_) fun _ => Local.set _ _
      exact Local.bind (indexCredentialRoot_local root (of_decide_eq_true rfl)
        (of_decide_eq_true rfl)) fun _ => Local.pure ()

theorem indexCredentialRoot_total (root : Bytes32) : Total (indexCredentialRoot root) := by
  refine Total.bind (fun s => ⟨_,s,rfl⟩) fun b => ?_
  cases b with
  | true => exact fun s => ⟨false,s,rfl⟩
  | false => exact fun s => ⟨true,_,rfl⟩

theorem followUp_total (a : GovernanceAction) : Total a.followUp := by
  cases a with
  | setVerifier verifier => exact fun s => ⟨(),_,rfl⟩
  | revokeIssuer issuer => exact fun s => ⟨(),s,rfl⟩
  | upgradeStorage =>
    refine Total.bind (fun s => ⟨_,s,rfl⟩) fun queue => ?_
    cases queue with
    | none => exact fun s => ⟨(),s,rfl⟩
    | some queue =>
      refine Total.bind (fun s => ⟨_,s,rfl⟩) fun cursor => ?_
      refine Total.bind (Total.forEach _ fun root => ?_) fun _ => fun s => ⟨(),_,rfl⟩
      exact Total.bind (indexCredentialRoot_total root) fun _ => fun s => ⟨(),s,rfl⟩

theorem perform_isOk (a : GovernanceAction) (b : Bool) (s : Storage) :
    (a.perform b s).isOk=(a.main s).isOk := by
  refine isOk_bind_total (fun _ => ?_) s
  cases b with
  | true => exact followUp_total a
  | false => exact fun s => ⟨(),s,rfl⟩

theorem upgradeStorage_settled_iff :
    GovernanceAction.upgradeStorage.settled s=true ↔
      ∀ queue, backfillQueue s=some queue →
        ∃ cursor, s .CredentialRootsBackfillCursor=some cursor ∧ queue.length≤cursor := by
  unfold GovernanceAction.settled
  cases backfillQueue s with
  | none => simp
  | some queue =>
    cases s .CredentialRootsBackfillCursor with
    | none => simp
    | some cursor => simp

theorem queue_read_of_cursor_stays {queue : List Bytes32} {cursor : Nat}
    (h : cursor+((queue.drop cursor).take MAX_ROOTS_BACKFILL_BATCH).length=cursor) :
    queue.length≤cursor := by
  simp only [length_take,length_drop,MAX_ROOTS_BACKFILL_BATCH] at h
  omega

theorem backfill_same_iff (h : backfillCredentialRootsStep s=.ok (u,s')) :
    SameOn (In GovernanceAction.upgradeStorage.keys) s' s ↔
      GovernanceAction.upgradeStorage.settled s=true := by
  rw [upgradeStorage_settled_iff]
  unfold backfillCredentialRootsStep at h
  obtain ⟨queue?,_,hgets,h⟩ := (bind_ok ..).1 h
  obtain ⟨hq,rfl⟩ := (gets_ok ..).1 hgets
  rw [hq]
  cases queue? with
  | none =>
    obtain ⟨-,rfl⟩ := (pure_ok ..).1 h
    simp [SameOn.refl]
  | some queue =>
    simp only [bind_ok,get_ok,set_ok] at h
    obtain ⟨_,_,⟨rfl,rfl⟩,_,s₁,hloop,rfl⟩ := h
    constructor
    · intro hsame queue' hq'
      cases hq'
      have hcur := hsame .CredentialRootsBackfillCursor (of_decide_eq_true rfl)
      rw [Store.set_self] at hcur
      have stays := congrArg (Option.getD · 0) hcur
      exact ⟨_,hcur.symm,le_trans (queue_read_of_cursor_stays stays) (Nat.le_add_right _ _)⟩
    · intro hset
      obtain ⟨cursor,hcur,hle⟩ := hset queue rfl
      simp only [hcur,Option.getD_some,drop_eq_nil_of_le hle,take_nil,forEach_nil,
        pure_ok] at hloop
      obtain ⟨-,rfl⟩ := hloop
      simp only [hcur,Option.getD_some,drop_eq_nil_of_le hle,take_nil,length_nil]
      exact .of_set_same hcur

theorem followUp_same_iff (h : a.followUp s=.ok (u,s')) :
    SameOn (In a.keys) s' s ↔ a.settled s=true := by
  cases a with
  | setVerifier verifier =>
    obtain rfl := (remove_ok ..).1 h
    rw [SameOn.erase_iff (of_decide_eq_true rfl)]
    exact Option.isNone_iff_eq_none.symm
  | revokeIssuer issuer =>
    obtain ⟨-,rfl⟩ := (pure_ok ..).1 h
    exact ⟨fun _ => rfl,fun _ => .refl _ _⟩
  | upgradeStorage => exact backfill_same_iff h

theorem settled_congr (hst : SameOn (In a.keys) s t) : a.settled s=a.settled t := by
  cases a with
  | setVerifier verifier =>
    exact congrArg Option.isNone (hst .VerifierCircuitVersions (of_decide_eq_true rfl))
  | revokeIssuer issuer => rfl
  | upgradeStorage =>
    unfold GovernanceAction.settled
    rw [backfillQueue_congr hst,hst .CredentialRootsBackfillCursor (of_decide_eq_true rfl)]

/-- The keys that decide whether there is something to do are not those the action writes. -/
theorem main_settled (h : a.main s=.ok (u,s')) : a.settled s'=a.settled s := by
  cases a with
  | setVerifier verifier =>
    have hw : Writes (In [.Verifier,.VerifierState])
        (GovernanceAction.setVerifier verifier).main := Writes.bind (by simp) fun _ => by simp
    exact congrArg Option.isNone (hw s u s' h .VerifierCircuitVersions (notMem_of_elem rfl))
  | revokeIssuer issuer => rfl
  | upgradeStorage =>
    have hw : Writes (In [.SchemaVersion]) GovernanceAction.upgradeStorage.main := by
      unfold GovernanceAction.main
      repeat' first
        | with_reducible refine Writes.bind ?_ fun _ => ?_
        | apply Writes.ite
        | simp
    unfold GovernanceAction.settled backfillQueue
    rw [hw s u s' h .CredentialRootsBackfillQueue (notMem_of_elem rfl),
      hw s u s' h .CredentialRootsBackfill (notMem_of_elem rfl),
      hw s u s' h .CredentialRootsBackfillCursor (notMem_of_elem rfl)]

/-- Doing what follows or leaving it out makes a difference exactly when there is something
to do. -/
theorem perform_same_iff {b c : Bool} {t' : Storage} {v : Unit} (hst : SameOn (In a.keys) s t)
    (hs : a.perform b s=.ok (u,s')) (ht : a.perform c t=.ok (v,t')) :
    SameOn (In a.keys) s' t' ↔ b=c ∨ a.settled s=true := by
  obtain ⟨_,s₁,hs1,hs2⟩ := (bind_ok ..).1 hs
  obtain ⟨_,t₁,ht1,ht2⟩ := (bind_ok ..).1 ht
  have same : SameOn (In a.keys) s₁ t₁ := (main_local a).same hst hs1 ht1
  cases b with
  | true =>
    cases c with
    | true =>
      have hsame := (followUp_local a).same same hs2 ht2
      simp [hsame]
    | false =>
      obtain ⟨-,rfl⟩ := (pure_ok ..).1 ht2
      have hiff := followUp_same_iff hs2
      rw [main_settled hs1] at hiff
      simp only [Bool.true_eq_false,false_or]
      rw [← hiff]
      exact ⟨fun h => h.trans same.symm,fun h => h.trans same⟩
  | false =>
    obtain ⟨-,rfl⟩ := (pure_ok ..).1 hs2
    cases c with
    | true =>
      have hiff := followUp_same_iff ht2
      rw [main_settled ht1,← settled_congr hst] at hiff
      simp only [Bool.false_eq_true,false_or]
      rw [← hiff]
      exact ⟨fun h => h.symm.trans same,fun h => same.trans h.symm⟩
    | false =>
      obtain ⟨-,rfl⟩ := (pure_ok ..).1 ht2
      simp [same]

/-- Two ways of carrying an action out, from states that look the same to it: they fail on the
same states, and when they go through they leave the same values exactly when both or neither
do what follows, or there is nothing to do. -/
theorem governance_paths_agree_iff {p q : Path} {a : GovernanceAction} {env env' : Env}
    {s t : Storage} (hst : SameOn (In a.keys) s t) (hp : p.carries a s = true)
    (hq : q.carries a t = true) :
    (p.authorised env s = true → q.authorised env' t = true →
      (exec env (p.call a) s).isOk = (exec env' (q.call a) t).isOk) ∧
    ∀ s' t', exec env (p.call a) s = .ok ((),s') → exec env' (q.call a) t = .ok ((),t') →
      (SameOn (In a.keys) s' t' ↔ p.followsUp a = q.followsUp a ∨ a.settled s = true) := by
  have marked : SameOn (In a.keys) (p.mark s) (q.mark t) :=
    (mark_same p a s).trans (hst.trans (mark_same q a t).symm)
  constructor
  · intro hap haq
    rw [exec_path hp hap,exec_path hq haq,perform_isOk,perform_isOk,(main_local a).isOk marked]
  · intro s' t' hs ht
    rw [exec_path hp (authorised_of_exec hp hs)] at hs
    rw [exec_path hq (authorised_of_exec hq ht)] at ht
    rw [← settled_congr (mark_same p a s)]
    exact perform_same_iff marked hs ht

/-- The admin has proposed another verifier, and the delay has passed. -/
def verifierProposed (before : List Label) : List Label :=
  .call ⟨1⟩ (.init ⟨1⟩)::.call ⟨1⟩ (.setVerifier ⟨1⟩ ⟨2⟩)::before++
    [.call ⟨1⟩ (.proposeTimelockedAction ⟨1⟩ 1 ⟨3⟩ zero32),
      .advance (genesisPlus 86400 genesis_day_lt)]

def beforeVerifier (before : List Label) : World := (deploy (verifierProposed before)).2

def verifierSet (before : List Label) : World :=
  next stellarHost (beforeVerifier before) (.call ⟨1⟩ (.setVerifier ⟨1⟩ ⟨3⟩))

def verifierTimelocked (before : List Label) : World :=
  next stellarHost (beforeVerifier before) (.call ⟨4⟩ (.executeTimelockedProposal ⟨4⟩ 1))

theorem governance_paths_agree_iff_no_window :
    SameOn (In (GovernanceAction.setVerifier ⟨3⟩).keys) (verifierSet []).store
      (verifierTimelocked []).store := by
  have hset : exec ((beforeVerifier []).env stellarHost (.signedBy ⟨1⟩))
      ((Path.direct ⟨1⟩).call (.setVerifier ⟨3⟩)) (beforeVerifier []).store =
        .ok ((),(verifierSet []).store) := exec_event (by decide +kernel)
  have htimelocked : exec ((beforeVerifier []).env stellarHost (.signedBy ⟨4⟩))
      ((Path.timelocked ⟨4⟩ 1).call (.setVerifier ⟨3⟩)) (beforeVerifier []).store =
        .ok ((),(verifierTimelocked []).store) := exec_event (by decide +kernel)
  refine ((governance_paths_agree_iff (.refl _ _) rfl ?_).2 _ _ hset htimelocked).2 (.inr ?_)
  · decide +kernel
  · decide +kernel

def windowDeclared : List Label := [.call ⟨1⟩ (.setVerifierCircuitVersions ⟨1⟩ 1 1)]

def rootStaged : List Label :=
  [.call ⟨1⟩ (.stageCredentialRootsForBackfill ⟨1⟩ [fill 7])]

def beforeUpgrade : World := (deploy (.call ⟨1⟩ (.init ⟨1⟩)::rootStaged)).2

def beforeCouncilUpgrade : World := (deploy (councilInForce rootStaged++
  [.call ⟨5⟩ (.proposeCouncilAction ⟨5⟩ 3 ⟨1⟩ zero32),.call ⟨5⟩ (.approveCouncilProposal ⟨5⟩ 1),
    .call ⟨6⟩ (.approveCouncilProposal ⟨6⟩ 1)])).2

def upgraded : World := next stellarHost beforeUpgrade (.call ⟨1⟩ (.upgradeStorage ⟨1⟩))

def councilUpgraded : World :=
  next stellarHost beforeCouncilUpgrade (.call ⟨7⟩ (.executeCouncilProposal ⟨7⟩ 1))

/-- With a declared window the timelocked call leaves another value than the direct one; with
a queued root the council's upgrade leaves other values than the admin's. -/
theorem governance_paths_differ :
    ((∃ tr, Reaches stellarHost genesis tr (beforeVerifier windowDeclared)) ∧
      (verifierSet windowDeclared).store .Verifier = some ⟨3⟩ ∧
      (verifierTimelocked windowDeclared).store .Verifier = some ⟨3⟩ ∧
      (verifierSet windowDeclared).store .VerifierCircuitVersions = none ∧
      (verifierTimelocked windowDeclared).store .VerifierCircuitVersions ≠ none) ∧
    (∃ tr, Reaches stellarHost genesis tr beforeUpgrade) ∧
    (∃ tr, Reaches stellarHost genesis tr beforeCouncilUpgrade) ∧
    (beforeUpgrade.store .SchemaVersion = beforeCouncilUpgrade.store .SchemaVersion ∧
      backfillQueue beforeUpgrade.store = backfillQueue beforeCouncilUpgrade.store ∧
      beforeUpgrade.store .CredentialRootsBackfillCursor =
        beforeCouncilUpgrade.store .CredentialRootsBackfillCursor ∧
      beforeUpgrade.store .CredentialRootSeq = beforeCouncilUpgrade.store .CredentialRootSeq) ∧
    (councilUpgraded.store (.CouncilProposal 1)).map (·.executed) = some true ∧
    upgraded.store .CredentialRootsBackfillCursor = some 1 ∧
    upgraded.store .CredentialRootSeq = some 1 ∧
    councilUpgraded.store .CredentialRootsBackfillCursor = none ∧
    councilUpgraded.store .CredentialRootSeq = none := by
  refine ⟨⟨⟨_,deploy_reaches _⟩,?_⟩,⟨_,deploy_reaches _⟩,⟨_,deploy_reaches _⟩,?_⟩
  · decide +kernel
  · decide +kernel

end Harpocrates.Registry
