import Harpocrates.Framework.Locality
import Harpocrates.Registry.DossierRefinement

namespace Harpocrates.Registry

open Framework Tx Option

def statusMoves : List (Nat × Nat) :=
  [(STATUS_REGISTERED,STATUS_EXPIRED),(STATUS_REGISTERED,STATUS_REVOKED),
    (STATUS_EXPIRED,STATUS_REVOKED)]

/-- The order in which the status that is reported moves. -/
def ProofVerificationStatus.rank : ProofVerificationStatus → Nat
  | .NotFound => 0
  | .Valid => 1
  | .Expired => 2
  | .Revoked => 3

theorem Dossier.statusOf_cases (history : List ProofHistoryEntry) :
    statusOf history=STATUS_REGISTERED ∨ statusOf history=STATUS_EXPIRED ∨
      statusOf history=STATUS_REVOKED := by
  unfold statusOf
  split_ifs
  · exact .inr (.inr rfl)
  · exact .inr (.inl rfl)
  · exact .inl rfl

variable {p : Bytes32} {d : Dossier} {s : Storage} {r : ProofRecord} {admin : Address}

theorem status_moves {now now' : Nat} {d' : Dossier} (hd : d.Sound p now) (hd' : d'.Sound p now')
    (hg : d.Grows d') (hne : d'.record.status≠d.record.status) :
    (d.record.status,d'.record.status)∈statusMoves := by
  have hrank := hg.status
  have hs : d.record.status = _ ∨ _ := hd.status ▸ Dossier.statusOf_cases d.history
  have hs' : d'.record.status = _ ∨ _ := hd'.status ▸ Dossier.statusOf_cases d'.history
  rcases hs with hs | hs | hs <;> rcases hs' with hs' | hs' | hs' <;>
    rw [hs,hs'] at hrank hne ⊢ <;> revert hrank hne <;> decide

/-- What is reported about a record only moves forward, as the record ages and changes. -/
theorem Tracks.status_mono {s' : Storage} {o o' : Option Dossier} {now now' : Nat}
    (h : Tracks s p o) (h' : Tracks s' p o') (hl : Dossier.Later o o') (hle : now≤now') :
    (getProofStatus now s p).rank≤(getProofStatus now' s' p).rank := by
  cases o with
  | none =>
    have hr := h.record
    simp [getProofStatus,hr,ProofVerificationStatus.rank]
  | some d =>
    obtain ⟨d',rfl,hg⟩ := hl d rfl
    have hr : s (.Proof p)=some d.record := h.record
    have hr' : s' (.Proof p)=some d'.record := h'.record
    have hexp : d'.record.expiresAt=d.record.expiresAt :=
      congrArg (fun x => x.2.2.2.1) hg.registration
    have hrank := hg.status
    simp only [Dossier.statusRank] at hrank
    simp only [getProofStatus,hr,hr',hexp]
    split_ifs at hrank ⊢ <;> simp [ProofVerificationStatus.rank] at hrank ⊢
    omega

/-- A proof once stored stays, with all that its registration fixed. Only a correction
changes its metadata hash, its status moves from registered over expired to revoked, and the
status reported about it never moves back. -/
theorem proof_immutable {host : Host} {start : Ledger} {tr₁ tr₂ : Trace} {w₁ w₂ : World}
    (h₁ : Reaches host start tr₁ w₁) (h₂ : Proceeds host w₁ tr₂ w₂) (p : Bytes32) :
    (∀ r, w₁.store (.Proof p) = some r →
      ∃ r', w₂.store (.Proof p) = some r' ∧ r'.registration = r.registration) ∧
    (∀ e ∈ tr₂, ∀ r r', e.pre.store (.Proof p) = some r → e.post.store (.Proof p) = some r' →
      (r'.metadataHash ≠ r.metadataHash →
        ∃ admin m reasonCode, Succeeds host e (.correctProof admin p m reasonCode)) ∧
      (r'.status ≠ r.status → (r.status,r'.status) ∈ statusMoves)) ∧
    (getProofStatus w₁.ledger.timestamp w₁.store p).rank ≤
      (getProofStatus w₂.ledger.timestamp w₂.store p).rank := by
  obtain ⟨o₁,ho₁⟩ := reaches_dossier h₁ p
  obtain ⟨o₂,ho₂,hlater⟩ := proceeds_dossier h₂ ho₁
  refine ⟨?_,?_,ho₁.tracks.status_mono ho₂.tracks hlater (proceeds_ledger h₂)⟩
  · intro r hr
    obtain ⟨d,rfl,rfl⟩ := ho₁.tracks.some_of_record hr
    obtain ⟨d',rfl,hg⟩ := hlater d rfl
    exact ⟨d'.record,ho₂.tracks.record,hg.registration⟩
  · intro e he r r' hr hr'
    obtain ⟨older,_,-,hpre,hst,-⟩ := Run.event_split h₂ he
    obtain ⟨o,ho⟩ := reaches_dossier (h₁.proceed hpre) p
    obtain ⟨o',ho',hstep⟩ := next_dossier hst ho
    obtain ⟨d,rfl,rfl⟩ := ho.tracks.some_of_record hr
    obtain ⟨d',rfl,rfl⟩ := ho'.tracks.some_of_record hr'
    rcases hstep with heq | ⟨inv,c,hl,hx,hsteps⟩
    · cases heq
      exact ⟨fun hne => absurd rfl hne,fun hne => absurd rfl hne⟩
    · refine ⟨fun hne => ?_,fun hne => ?_⟩
      · obtain ⟨admin,m,reasonCode,rfl⟩ := (hsteps.metadataHash rfl rfl).resolve_left hne
        exact ⟨admin,m,reasonCode,inv,hl,hx⟩
      · obtain ⟨d'',heq,hg⟩ := hsteps.later d rfl
        cases heq
        exact status_moves (ho.sound d rfl) (ho'.sound d' rfl) hg hne

def lifecycleCalls : List Label :=
  [.call ⟨1⟩ (.correctProof ⟨1⟩ (fill 1) (fill 5) 7),.call ⟨1⟩ (.expireProof ⟨1⟩ (fill 1) 7),
    .call ⟨1⟩ (.revokeProof ⟨1⟩ (fill 1))]

def sourceRegistered : List Label :=
  [.call ⟨1⟩ (.init ⟨1⟩),.call ⟨2⟩ (.registerSource ⟨2⟩ (fill 1) zero32 (fill 1))]

def revokedLater : Trace × World := play stellarHost (deploy sourceRegistered).2 lifecycleCalls

theorem revokedLater_proceeds :
    Proceeds stellarHost (deploy sourceRegistered).2 revokedLater.1 revokedLater.2 :=
  play_run stellarHost _ lifecycleCalls

theorem proof_immutable_revoked :
    (∃ r, (deploy sourceRegistered).2.store (.Proof (fill 1)) = some r ∧
      ∃ r', revokedLater.2.store (.Proof (fill 1)) = some r' ∧
        r'.registration = r.registration) ∧
    getProofStatus revokedLater.2.ledger.timestamp revokedLater.2.store (fill 1) = .Revoked := by
  obtain ⟨r,hr⟩ : ∃ r, (deploy sourceRegistered).2.store (.Proof (fill 1))=some r :=
    isSome_iff_exists.1 (by decide +kernel)
  have kept := (proof_immutable (deploy_reaches sourceRegistered) revokedLater_proceeds (fill 1)).1
  exact ⟨⟨r,hr,kept r hr⟩,by decide +kernel⟩

theorem Tracks.historyAt (h : Tracks s p (some d)) :
    LogOf d.history (getProofHistoryCount s p) (getProofHistoryAt s p) := by
  have hlog : LogOf d.history _ _ := h.history
  have hat : getProofHistoryAt s p=fun i => s (.ProofHistoryEntry p i) := by
    funext i
    unfold getProofHistoryAt
    split_ifs with hi
    · have hnone : ¬ (s (.ProofHistoryEntry p i)).isSome=true := by
        rw [hlog.isSome_iff]
        omega
      exact (not_isSome_iff_eq_none.1 hnone).symm
    · rfl
  rw [hat]
  exact hlog

def Logged (s : Storage) (p : Bytes32) (action : ProofLifecycleAction) : Prop :=
  ∃ i e, getProofHistoryAt s p i = some e ∧ e.action = action.code

theorem Tracks.logged_iff (h : Tracks s p (some d)) (action : ProofLifecycleAction) :
    Logged s p action ↔ d.history.any (·.action == action.code)=true := by
  rw [List.any_eq_true]
  constructor
  · intro hyp
    obtain ⟨i,e,he,ha⟩ := hyp
    exact ⟨e,(h.historyAt.mem_iff e).2 ⟨i,he⟩,by simpa using ha⟩
  · intro hyp
    obtain ⟨e,he,ha⟩ := hyp
    obtain ⟨i,hi⟩ := (h.historyAt.mem_iff e).1 he
    exact ⟨i,e,hi,by simpa using ha⟩

/-- The history of every stored proof is a complete log that starts with its registration,
is in the order of time, never loses or changes an entry, and agrees with the status. -/
theorem history_faithful {host : Host} {start : Ledger} {tr : Trace} {w : World} {p : Bytes32}
    {r : ProofRecord} (h : Reaches host start tr w) (hr : w.store (.Proof p) = some r) :
    (1 ≤ getProofHistoryCount w.store p ∧
      getProofHistoryCount w.store p ≤ MAX_HISTORY_ENTRIES_PER_PROOF) ∧
    (∀ i, (getProofHistoryAt w.store p i).isSome = true ↔
      1 ≤ i ∧ i ≤ getProofHistoryCount w.store p) ∧
    (∃ e, getProofHistoryAt w.store p 1 = some e ∧
      e.action = ProofLifecycleAction.Registered.code ∧ e.reasonCode = r.tier) ∧
    (∀ i j a b, i ≤ j → getProofHistoryAt w.store p i = some a →
      getProofHistoryAt w.store p j = some b → a.timestamp ≤ b.timestamp) ∧
    (∀ tr' w', Proceeds host w tr' w' → ∀ i e, getProofHistoryAt w.store p i = some e →
      getProofHistoryAt w'.store p i = some e) ∧
    (r.status = STATUS_REVOKED ↔ Logged w.store p .Revoked) ∧
    (r.status = STATUS_EXPIRED ↔ Logged w.store p .Expired ∧ ¬ Logged w.store p .Revoked) := by
  obtain ⟨o,ho⟩ := reaches_dossier h p
  obtain ⟨d,rfl,rfl⟩ := ho.tracks.some_of_record hr
  have hlog := ho.tracks.historyAt
  have hd := ho.sound d rfl
  obtain ⟨first,rest,hhist,haction,hreason⟩ := hd.chronicle.first
  have hlen : getProofHistoryCount w.store p=d.history.length := hlog.length
  refine ⟨⟨?_,hlen ▸ hd.chronicle.bounded⟩,hlog.isSome_iff,⟨first,?_,haction,hreason⟩,?_,?_,?_,?_⟩
  · rw [hlen,hhist,List.length_cons]
    omega
  · rw [hlog.succ,hhist]
    rfl
  · intro i j a b hij ha hb
    rcases hij.lt_or_eq with hlt | rfl
    · exact hlog.ordered hd.chronicle.ordered hlt ha hb
    · cases ha.symm.trans hb
      exact le_refl _
  · intro tr' w' h' i e he
    obtain ⟨o',ho',hlater⟩ := proceeds_dossier h' ho
    obtain ⟨d',rfl,hg⟩ := hlater d rfl
    exact hlog.stable ho'.tracks.historyAt hg.history he
  · rw [ho.tracks.logged_iff,hd.status,Dossier.statusOf]
    split_ifs with h1 h2 <;> simp [h1,STATUS_REVOKED,STATUS_EXPIRED,STATUS_REGISTERED]
  · rw [ho.tracks.logged_iff,ho.tracks.logged_iff,hd.status,Dossier.statusOf]
    by_cases h1 : d.history.any (·.action == ProofLifecycleAction.Revoked.code) <;>
      by_cases h2 : d.history.any (·.action == ProofLifecycleAction.Expired.code) <;>
      simp [h1,h2,STATUS_REVOKED,STATUS_EXPIRED,STATUS_REGISTERED]

theorem history_faithful_revoked :
    ∃ r, revokedLater.2.store (.Proof (fill 1)) = some r ∧ r.status = STATUS_REVOKED ∧
      Logged revokedLater.2.store (fill 1) .Revoked := by
  obtain ⟨r,hr⟩ : ∃ r, revokedLater.2.store (.Proof (fill 1))=some r :=
    isSome_iff_exists.1 (by decide +kernel)
  have hstatus : (revokedLater.2.store (.Proof (fill 1))).map (·.status)=some STATUS_REVOKED := by
    decide +kernel
  rw [hr] at hstatus
  have hrevoked : r.status=STATUS_REVOKED := Option.some.inj hstatus
  have reached := (deploy_reaches sourceRegistered).proceed revokedLater_proceeds
  obtain ⟨-,-,-,-,-,hiff,-⟩ := history_faithful reached hr
  exact ⟨r,hr,hrevoked,hiff.1 hrevoked⟩

/-- Recording an entry fails on a full history and on nothing else. -/
theorem recordProofHistory_eq (env : Env) (p : Bytes32) (action : ProofLifecycleAction)
    (actor : Option Address) {reasonCode : Nat} (s : Storage) (hreason : reasonCode≤255) :
    recordProofHistory env p action.code actor reasonCode s =
      if MAX_HISTORY_ENTRIES_PER_PROOF≤getProofHistoryCount s p then
        .error (.error .HistorySaturated)
      else .ok ((),Store.set (Store.set s (.ProofHistoryEntry p (getProofHistoryCount s p+1))
        ⟨action.code,env.timestamp,actor,reasonCode⟩) (.ProofHistorySeq p)
          (getProofHistoryCount s p+1)) := by
  have haction : (action.code == 0 || decide (action.code > 6))=false := by
    cases action <;> rfl
  have hcode : decide (reasonCode > 255)=false := by simpa using hreason
  unfold recordProofHistory
  rw [failIf_bind haction,failIf_bind hcode,bind_of_ok ((get_ok ..).2 ⟨rfl,rfl⟩)]
  split_ifs with hfull
  · refine bind_of_error ?_
    have hpanic : decide ((s (.ProofHistorySeq p)).getD 0 ≥ MAX_HISTORY_ENTRIES_PER_PROOF)=true :=
      decide_eq_true hfull
    simp only [hpanic,failIf,if_true,fail]
  · have hroom : decide ((s (.ProofHistorySeq p)).getD 0 ≥ MAX_HISTORY_ENTRIES_PER_PROOF)=false :=
      decide_eq_false hfull
    rw [failIf_bind hroom]
    rfl

theorem revokeProof_eq (env : Env) (hadmin : s .Admin=some admin)
    (hauth : env.auth admin=true) (hr : s (.Proof p)=some r) :
    revokeProof env admin p s=recordProofHistory env p ProofLifecycleAction.Revoked.code
      (some admin) 1 (Store.set s (.Proof p) { r with status := STATUS_REVOKED }) := by
  unfold revokeProof revokeProofInternal
  rw [bind_of_ok ((requireAdmin_ok env admin s s ()).2 ⟨hadmin,hauth,rfl⟩),
    bind_of_ok ((getProofRecord_ok p s s r).2 ⟨hr,rfl⟩)]
  exact bind_of_ok rfl

theorem verifyProof_eq (env : Env) {reasonCode : Nat} (hadmin : s .Admin=some admin)
    (hauth : env.auth admin=true) (hr : s (.Proof p)=some r) (hreason : reasonCode≤255) :
    verifyProof env admin p reasonCode s=recordProofHistory env p
      ProofLifecycleAction.Verified.code (some admin) reasonCode s := by
  have hcode : decide (reasonCode > 255)=false := by simpa using hreason
  unfold verifyProof
  rw [bind_of_ok ((requireAdmin_ok env admin s s ()).2 ⟨hadmin,hauth,rfl⟩),
    bind_of_ok ((getProofRecord_ok p s s r).2 ⟨hr,rfl⟩),failIf_bind hcode]

/-- In every state, the admin can revoke a stored proof, and the proof then counts as
revoked, exactly as long as its history is not full. -/
theorem revocation_available_iff {host : Host} {start : Ledger} {tr : Trace} {w : World}
    {admin : Address} {p : Bytes32} {r : ProofRecord} {inv : Invocation}
    (h : Reaches host start tr w) (hadmin : w.store .Admin = some admin)
    (hr : w.store (.Proof p) = some r) (hauth : inv.auth admin = true) :
    (getProofHistoryCount w.store p < MAX_HISTORY_ENTRIES_PER_PROOF ∧
      ∃ s', exec (w.env host inv) (.revokeProof admin p) w.store = .ok ((),s') ∧
        ∀ now, getProofStatus now s' p = .Revoked) ∨
    (getProofHistoryCount w.store p = MAX_HISTORY_ENTRIES_PER_PROOF ∧
      exec (w.env host inv) (.revokeProof admin p) w.store =
        .error (.error .HistorySaturated)) := by
  have hx : exec (w.env host inv) (.revokeProof admin p) w.store = _ :=
    revokeProof_eq (w.env host inv) hadmin hauth hr
  rw [recordProofHistory_eq _ _ _ _ _ (by decide)] at hx
  have hcount : getProofHistoryCount (Store.set w.store (.Proof p)
      { r with status := STATUS_REVOKED }) p=getProofHistoryCount w.store p := by
    simp [getProofHistoryCount]
  rw [hcount] at hx
  have hbound : getProofHistoryCount w.store p≤MAX_HISTORY_ENTRIES_PER_PROOF := by
    obtain ⟨o,ho⟩ := reaches_dossier h p
    obtain ⟨d,rfl,-⟩ := ho.tracks.some_of_record hr
    rw [ho.tracks.historyAt.length]
    exact (ho.sound d rfl).chronicle.bounded
  rcases hbound.lt_or_eq with hroom | hfull
  · rw [if_neg (Nat.not_le.2 hroom)] at hx
    refine .inl ⟨hroom,_,hx,fun now => ?_⟩
    simp [getProofStatus]
  · rw [if_pos hfull.ge] at hx
    exact .inr ⟨hfull,hx⟩

theorem revocation_available_iff_registered :
    ∃ s', exec ((deploy sourceRegistered).2.env stellarHost (.signedBy ⟨1⟩))
      (.revokeProof ⟨1⟩ (fill 1)) (deploy sourceRegistered).2.store = .ok ((),s') ∧
        ∀ now, getProofStatus now s' (fill 1) = .Revoked := by
  obtain ⟨r,hr⟩ : ∃ r, (deploy sourceRegistered).2.store (.Proof (fill 1))=some r :=
    isSome_iff_exists.1 (by decide +kernel)
  have hroom : getProofHistoryCount (deploy sourceRegistered).2.store (fill 1)=1 := by
    decide +kernel
  have hauth : (Invocation.signedBy ⟨1⟩).auth ⟨1⟩=true := by decide
  have hadmin : (deploy sourceRegistered).2.store .Admin=some ⟨1⟩ := by decide +kernel
  rcases revocation_available_iff (deploy_reaches sourceRegistered) hadmin hr hauth with
    ⟨-,h⟩ | ⟨hfull,-⟩
  · exact h
  · rw [hroom] at hfull
    exact absurd hfull (by decide)

/-- The admin verifies a proof a number of times; each time the history grows. -/
theorem verifications_run {w : World} (hadmin : w.store .Admin=some admin)
    (hr : w.store (.Proof p)=some r) (n : Nat)
    (hn : getProofHistoryCount w.store p+n≤MAX_HISTORY_ENTRIES_PER_PROOF) :
    ∃ tr w', Proceeds stellarHost w tr w' ∧ w'.store .Admin=some admin ∧
      w'.store (.Proof p)=some r ∧
      getProofHistoryCount w'.store p=getProofHistoryCount w.store p+n := by
  induction n with
  | zero => exact ⟨[],w,Run.nil,hadmin,hr,rfl⟩
  | succ n ih =>
    obtain ⟨tr,w',hrun,hadmin',hr',hcount⟩ := ih (by omega)
    have hauth : (w'.env stellarHost (.signedBy admin)).auth admin=true := by
      simp [Invocation.signedBy]
    have hx : exec (w'.env stellarHost (.signedBy admin)) (.verifyProof admin p 0) w'.store = _ :=
      verifyProof_eq _ hadmin' hauth hr' (by decide)
    rw [recordProofHistory_eq _ _ _ _ _ (by decide),hcount,if_neg (by omega)] at hx
    refine ⟨_,_,Run.snoc hrun (show next stellarHost w' (.call admin (.verifyProof admin p 0)) = _
      from rfl),?_⟩
    simp only [next,Label.call,hx]
    refine ⟨by simpa using hadmin',by simpa using hr',?_⟩
    simp [getProofHistoryCount]
    omega

/-- After 255 verifications the history is full, and the admin cannot revoke the proof any
more, which still counts as valid. -/
theorem revocation_blocked : ∃ tr w, Reaches stellarHost genesis tr w ∧
    w.store .Admin = some ⟨1⟩ ∧ getProofStatus w.ledger.timestamp w.store (fill 1) = .Valid ∧
    exec (w.env stellarHost (.signedBy ⟨1⟩)) (.revokeProof ⟨1⟩ (fill 1)) w.store =
      .error (.error .HistorySaturated) := by
  have hadmin : (deploy sourceRegistered).2.store .Admin=some ⟨1⟩ := by decide +kernel
  have hcount : getProofHistoryCount (deploy sourceRegistered).2.store (fill 1)=1 := by
    decide +kernel
  have hr : (deploy sourceRegistered).2.store (.Proof (fill 1)) =
      some (sourceRecord ((⟨genesis,Store.empty⟩ : World).env stellarHost (.signedBy ⟨2⟩)) ⟨2⟩
        (fill 1) zero32 0) := by decide +kernel
  obtain ⟨tr,w,hrun,hadmin',hr',hcount'⟩ := verifications_run hadmin hr 255 (by rw [hcount]; decide)
  rw [hcount] at hcount'
  have reached := (deploy_reaches sourceRegistered).proceed hrun
  refine ⟨_,w,reached,hadmin',by simp [getProofStatus,hr',sourceRecord,STATUS_REGISTERED,
    STATUS_REVOKED,STATUS_EXPIRED],?_⟩
  have hx : exec (w.env stellarHost (.signedBy ⟨1⟩)) (.revokeProof ⟨1⟩ (fill 1)) w.store = _ :=
    revokeProof_eq (w.env stellarHost (.signedBy ⟨1⟩)) hadmin' (by simp [Invocation.signedBy]) hr'
  rw [hx,recordProofHistory_eq _ _ _ _ _ (by decide),if_pos]
  simp only [getProofHistoryCount] at hcount' ⊢
  simp [hcount',MAX_HISTORY_ENTRIES_PER_PROOF]

/-- Every stored proof has an envelope of its own that carries its current metadata hash and
a supported version, and no later state has an older version. -/
theorem envelope_bound {host : Host} {start : Ledger} {tr₁ tr₂ : Trace} {w₁ w₂ : World}
    (h₁ : Reaches host start tr₁ w₁) (h₂ : Proceeds host w₁ tr₂ w₂) (p : Bytes32) :
    (∀ r, w₁.store (.Proof p) = some r → ∃ e, getMetadataEnvelope w₁.store p = some e ∧
      e.proofId = p ∧ e.metadataHash = r.metadataHash ∧ 1 ≤ e.version ∧
      e.version ≤ METADATA_ENVELOPE_VERSION_MAX) ∧
    (∀ e, getMetadataEnvelope w₁.store p = some e →
      ∃ e', getMetadataEnvelope w₂.store p = some e' ∧ e.version ≤ e'.version) := by
  obtain ⟨o₁,ho₁⟩ := reaches_dossier h₁ p
  obtain ⟨o₂,ho₂,hlater⟩ := proceeds_dossier h₂ ho₁
  constructor
  · intro r hr
    obtain ⟨d,rfl,rfl⟩ := ho₁.tracks.some_of_record hr
    have hd := ho₁.sound d rfl
    exact ⟨d.envelope,ho₁.tracks.envelope,hd.owner,hd.hash,hd.version.1,hd.version.2⟩
  · intro e he
    obtain ⟨d,rfl,rfl⟩ := map_eq_some_iff.1 (ho₁.tracks.envelope.symm.trans he)
    obtain ⟨d',rfl,hg⟩ := hlater d rfl
    exact ⟨d'.envelope,ho₂.tracks.envelope,hg.version⟩

def envelopeCalls : List Label :=
  [.call ⟨1⟩ (.correctProof ⟨1⟩ (fill 1) (fill 5) 7),
    .call ⟨2⟩ (.bindMetadataEnvelope ⟨2⟩ (fill 1) METADATA_ENVELOPE_V2 (fill 5))]

def boundLater : Trace × World := play stellarHost (deploy sourceRegistered).2 envelopeCalls

theorem envelope_bound_second_version :
    ∃ e e', getMetadataEnvelope (deploy sourceRegistered).2.store (fill 1) = some e ∧
      getMetadataEnvelope boundLater.2.store (fill 1) = some e' ∧ e.version ≤ e'.version ∧
      e'.version = METADATA_ENVELOPE_V2 := by
  have runs : Proceeds stellarHost (deploy sourceRegistered).2 boundLater.1 boundLater.2 :=
    play_run stellarHost _ envelopeCalls
  obtain ⟨e,he⟩ : ∃ e, getMetadataEnvelope (deploy sourceRegistered).2.store (fill 1)=some e :=
    isSome_iff_exists.1 (by decide +kernel)
  obtain ⟨e',he',hle⟩ := (envelope_bound (deploy_reaches sourceRegistered) runs (fill 1)).2 e he
  have hversion : (getMetadataEnvelope boundLater.2.store (fill 1)).map (·.version) =
      some METADATA_ENVELOPE_V2 := by decide +kernel
  rw [he'] at hversion
  exact ⟨e,e',he,he',hle,Option.some.inj hversion⟩

end Harpocrates.Registry
