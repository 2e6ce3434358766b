import Harpocrates.Registry.System

namespace Harpocrates.Registry

open Framework List Nat

def PublishedAt (history : List RevocationRootEntry) (root : Bytes32) (i : Nat) : Prop :=
  ∃ entry, history[i]? = some entry ∧ entry.root = root

def InGrace (ledger grace : Nat) (history : List RevocationRootEntry) (i : Nat) : Prop :=
  ∃ entry, history[i]? = some entry ∧ ledger-entry.activationLedger ≤ grace ∧
    ledger-((history[i+1]?).map (·.activationLedger)).getD entry.activationLedger ≤ grace

def InOrder (history : List RevocationRootEntry) : Prop :=
  history.Pairwise fun a b => a.activationLedger ≤ b.activationLedger

variable {grace i j ledger : Nat} {history : List RevocationRootEntry}

variable {root : Bytes32}

theorem rootWithinGrace_cons_ne {entry : RevocationRootEntry} {rest : List RevocationRootEntry}
    (h : entry.root≠root) :
    rootWithinGrace ledger grace root (entry::rest)=rootWithinGrace ledger grace root rest := by
  rw [rootWithinGrace.eq_def]
  exact if_neg h

theorem rootWithinGrace_iff : rootWithinGrace ledger grace root history=true ↔
      0<grace ∧ ∃ i, PublishedAt history root i ∧ (∀ j < i, ¬ PublishedAt history root j) ∧
        InGrace ledger grace history i := by
  induction history with
  | nil => simp [rootWithinGrace,PublishedAt]
  | cons entry rest ih =>
    by_cases hroot : entry.root=root
    · have here : PublishedAt (entry::rest) root 0 := ⟨entry,rfl,hroot⟩
      have first : (∃ i, PublishedAt (entry::rest) root i ∧
          (∀ j < i, ¬ PublishedAt (entry::rest) root j) ∧
          InGrace ledger grace (entry::rest) i) ↔ InGrace ledger grace (entry::rest) 0 := by
        constructor
        · intro h
          obtain ⟨i,-,hbefore,hgrace⟩ := h
          rcases Nat.eq_zero_or_pos i with rfl | hpos
          · exact hgrace
          · exact absurd here (hbefore 0 hpos)
        · exact fun hgrace => ⟨0,here,fun j hj => absurd hj (Nat.not_lt_zero j),hgrace⟩
      rw [first]
      cases rest <;> simp [rootWithinGrace,hroot,InGrace,and_assoc]
    · have later : (∃ i, PublishedAt (entry::rest) root i ∧
          (∀ j < i, ¬ PublishedAt (entry::rest) root j) ∧
          InGrace ledger grace (entry::rest) i) ↔
          ∃ i, PublishedAt rest root i ∧ (∀ j < i, ¬ PublishedAt rest root j) ∧
            InGrace ledger grace rest i := by
        have nothere : ¬ PublishedAt (entry::rest) root 0 := by
          intro h
          obtain ⟨e,he,hr⟩ := h
          cases he
          exact hroot hr
        constructor
        · intro h
          obtain ⟨i,hpub,hbefore,hgrace⟩ := h
          cases i with
          | zero => exact absurd hpub nothere
          | succ i => exact ⟨i,hpub,fun j hj => hbefore (j+1) (Nat.succ_lt_succ hj),hgrace⟩
        · intro h
          obtain ⟨i,hpub,hbefore,hgrace⟩ := h
          refine ⟨i+1,hpub,fun j hj => ?_,hgrace⟩
          cases j with
          | zero => exact nothere
          | succ j => exact hbefore j (Nat.lt_of_succ_lt_succ hj)
      rw [later,← ih,rootWithinGrace_cons_ne hroot]

theorem activation_le (h : InOrder history) {a b : RevocationRootEntry} (hij : i≤j)
    (ha : history[i]? = some a) (hb : history[j]? = some b) :
    a.activationLedger≤b.activationLedger := by
  rcases eq_or_lt_of_le hij with rfl | hlt
  · cases ha.symm.trans hb
    exact le_refl _
  · obtain ⟨hi,rfl⟩ := List.getElem?_eq_some_iff.1 ha
    obtain ⟨hj,rfl⟩ := List.getElem?_eq_some_iff.1 hb
    exact pairwise_iff_getElem.1 h i j hi hj hlt

/-- In the order of activation, what is published later is in grace longer. -/
theorem InGrace.later (horder : InOrder history) (hij : i≤j) (hj : PublishedAt history root j)
    (h : InGrace ledger grace history i) : InGrace ledger grace history j := by
  obtain ⟨a,ha,hage,-⟩ := h
  obtain ⟨b,hb,-⟩ := hj
  have hab := activation_le horder hij ha hb
  have hreplaced : b.activationLedger ≤
      ((history[j+1]?).map (·.activationLedger)).getD b.activationLedger := by
    cases hnext : history[j+1]? with
    | none => exact le_refl _
    | some next => exact activation_le horder (le_succ j) hb hnext
  exact ⟨b,hb,by omega,by omega⟩

theorem exists_first_publication (h : PublishedAt history root j) :
    ∃ i≤j, PublishedAt history root i ∧ ∀ k < i, ¬ PublishedAt history root k := by
  classical
  have hex : ∃ i, PublishedAt history root i := ⟨j,h⟩
  exact ⟨Nat.find hex,Nat.find_min' hex h,Nat.find_spec hex,fun k hk => Nat.find_min hex hk⟩

def graceWindow (s : Storage) : Nat :=
  (s .RevocationRootGraceWindow).getD DEFAULT_REVOCATION_ROOT_GRACE_LEDGERS

def rootHistory (s : Storage) : List RevocationRootEntry := (s .RevocationRoots).getD []

def GraceRule (ledger : Nat) (s : Storage) (stored root : Bytes32) : Prop :=
  root = stored ∨ 0 < graceWindow s ∧ ∃ i, PublishedAt (rootHistory s) root i ∧
    InGrace ledger (graceWindow s) (rootHistory s) i

/-- A root that is not the current one was published again, and only the later publication is
in grace. -/
def Republished (ledger : Nat) (s : Storage) (stored root : Bytes32) : Prop :=
  root ≠ stored ∧ 0 < graceWindow s ∧ ∃ i j, i < j ∧ PublishedAt (rootHistory s) root i ∧
    PublishedAt (rootHistory s) root j ∧
    ¬ InGrace ledger (graceWindow s) (rootHistory s) i ∧
    InGrace ledger (graceWindow s) (rootHistory s) j

theorem acceptsRevocationRoot_iff (env : Env) (s : Storage) (stored root : Bytes32) :
    acceptsRevocationRoot env s stored root=true ↔
      root=stored ∨ 0<graceWindow s ∧ ∃ i, PublishedAt (rootHistory s) root i ∧
        (∀ j < i, ¬ PublishedAt (rootHistory s) root j) ∧
        InGrace env.sequence (graceWindow s) (rootHistory s) i := by
  rw [acceptsRevocationRoot,Bool.or_eq_true,beq_iff_eq,rootWithinGrace_iff]
  rfl

/-- In the order of activation, the check follows the rule unless it meets a root of which only a
later publication is in grace. -/
theorem acceptsRevocationRoot_rule_iff {env : Env} {s : Storage} (horder : InOrder (rootHistory s))
    (stored root : Bytes32) :
    (acceptsRevocationRoot env s stored root=true ↔ GraceRule env.sequence s stored root) ↔
      ¬ Republished env.sequence s stored root := by
  rw [acceptsRevocationRoot_iff]
  constructor
  · intro hrule hbad
    obtain ⟨hne,hpos,i,j,hij,hi,hj,hout,hin⟩ := hbad
    rcases hrule.2 (.inr ⟨hpos,j,hj,hin⟩) with heq | ⟨-,k,hk,hfirst,hgrace⟩
    · exact hne heq
    · have hki : k ≤ i := Nat.le_of_not_lt fun hlt => hfirst i hlt hi
      exact hout (hgrace.later horder hki hi)
  · intro hgood
    constructor
    · intro h
      rcases h with heq | ⟨hpos,i,hi,-,hgrace⟩
      · exact .inl heq
      · exact .inr ⟨hpos,i,hi,hgrace⟩
    · intro h
      by_cases heq : root=stored
      · exact .inl heq
      · obtain ⟨hpos,j,hj,hin⟩ := h.resolve_left heq
        obtain ⟨i,hij,hi,hfirst⟩ := exists_first_publication hj
        refine .inr ⟨hpos,i,hi,hfirst,?_⟩
        by_contra hout
        have hlt : i<j := lt_of_le_of_ne hij fun hsame => hout (hsame ▸ hin)
        exact hgood ⟨heq,hpos,i,j,hlt,hi,hj,hout,hin⟩

def EachOnce (history : List RevocationRootEntry) : Prop := (history.map (·.root)).Nodup

theorem publishedAt_unique (h : EachOnce history) (hi : PublishedAt history root i)
    (hj : PublishedAt history root j) : i=j := by
  obtain ⟨a,ha,rfl⟩ := hi
  obtain ⟨b,hb,hroot⟩ := hj
  have hlt : i<(history.map (·.root)).length := by
    rw [length_map]
    exact (List.getElem?_eq_some_iff.1 ha).1
  refine (List.getElem?_inj hlt h).1 ?_
  simp [ha,hb,hroot]

theorem acceptsRevocationRoot_of_eachOnce {env : Env} {s : Storage}
    (h : EachOnce (rootHistory s)) (stored root : Bytes32) :
    acceptsRevocationRoot env s stored root=true ↔ GraceRule env.sequence s stored root := by
  rw [acceptsRevocationRoot_iff,GraceRule]
  refine or_congr_right (and_congr_right fun _ => exists_congr fun i => ?_)
  constructor
  · exact fun hfirst => ⟨hfirst.1,hfirst.2.2⟩
  · intro hany
    refine ⟨hany.1,fun j hj hbefore => ?_,hany.2⟩
    exact absurd (publishedAt_unique h hbefore hany.1) (Nat.ne_of_lt hj)

theorem EachOnce.ringBuffer (h : EachOnce history) (root : Bytes32) (sequence : Nat) :
    EachOnce (ringBuffer history root sequence) := by
  let others := history.filter (·.root != root)
  have hothers : EachOnce others := List.Nodup.sublist (filter_sublist.map _) h
  have hnew : root∉others.map (·.root) := by
    intro hmem
    obtain ⟨entry,hentry,hroot⟩ := mem_map.1 hmem
    simpa [hroot] using (mem_filter.1 hentry).2
  have hall : EachOnce (others++[⟨root,sequence⟩]) := by
    rw [EachOnce,map_append]
    exact List.Nodup.append hothers (nodup_singleton root) (by simpa using hnew)
  exact List.Nodup.sublist ((drop_sublist _ _).map _) hall

theorem next_rootHistory {host : Host} {w w' : World} {l : Label} (h : next host w l=w') :
    rootHistory w'.store=rootHistory w.store ∨ ∃ root sequence,
      rootHistory w'.store=host.revocationHistory (rootHistory w.store) root sequence := by
  obtain ⟨inv,c,-,-,hx⟩ | hsame := next_store h
  · cases c with
    | setRevocationRoot admin root =>
      simp only [exec,setRevocationRoot,Tx.bind_ok,requireAdmin_ok,requireNoCouncil_ok,Tx.get_ok,
        Tx.set_ok] at hx
      obtain ⟨_,_,⟨-,-,rfl⟩,_,_,⟨-,rfl⟩,_,_,⟨rfl,rfl⟩,_,_,rfl,hx⟩ := hx
      refine .inr ⟨root,w.ledger.sequence,?_⟩
      rw [rootHistory,← hx,Store.set_self]
      rfl
    | _ =>
      refine .inl (congrArg (Option.getD · []) ?_)
      exact exec_footprint hx (notMem_of_elem rfl)
  · exact .inl (congrArg (Option.getD · []) (hsame _ (by simp)))

theorem reaches_eachOnce {host : Host} {start : Ledger} {tr : Trace} {w : World}
    (hhost : host.revocationHistory=ringBuffer) (h : Reaches host start tr w) :
    EachOnce (rootHistory w.store) := by
  refine Run.state_invariant (I := fun w : World => EachOnce (rootHistory w.store))
    (by simp [rootHistory,Store.empty,EachOnce]) (fun w l w' hw hst => ?_) h
  rcases next_rootHistory hst with hkept | ⟨root,sequence,hnew⟩
  · rw [hkept]
    exact hw
  · rw [hnew,hhost]
    exact hw.ringBuffer root sequence

/-- The first publication of a root decides. In the order of activation that is the rule except
for a root of which only a later publication is in grace, and there is no such root while the
history is kept as documented. -/
theorem revocation_root_grace :
    (∀ (env : Env) (s : Storage) (stored root : Bytes32),
      acceptsRevocationRoot env s stored root = true ↔
        root = stored ∨ 0 < graceWindow s ∧ ∃ i, PublishedAt (rootHistory s) root i ∧
          (∀ j < i, ¬ PublishedAt (rootHistory s) root j) ∧
          InGrace env.sequence (graceWindow s) (rootHistory s) i) ∧
    (∀ (env : Env) (s : Storage) (stored root : Bytes32), InOrder (rootHistory s) →
      ((acceptsRevocationRoot env s stored root = true ↔ GraceRule env.sequence s stored root) ↔
        ¬ Republished env.sequence s stored root)) ∧
    ∀ (host : Host) (start : Ledger) (tr : Trace) (w : World) (inv : Invocation)
      (stored root : Bytes32), host.revocationHistory = ringBuffer → Reaches host start tr w →
      (acceptsRevocationRoot (w.env host inv) w.store stored root = true ↔
        GraceRule w.ledger.sequence w.store stored root) :=
  ⟨acceptsRevocationRoot_iff,
    fun _ _ stored root horder => acceptsRevocationRoot_rule_iff horder stored root,
    fun _ _ _ _ _ stored root hhost h =>
      acceptsRevocationRoot_of_eachOnce (reaches_eachOnce hhost h) stored root⟩

theorem hundredth_lt : 101<2^32 := by decide

def hundredth : Ledger := ⟨genesis.timestamp,101,genesis.timestamp_lt,hundredth_lt⟩

/-- Root 1 is in force for a hundred ledgers; the grace window is half of that. -/
def firstPublication : List Label :=
  [.call ⟨1⟩ (.init ⟨1⟩),.call ⟨1⟩ (.setVerifier ⟨1⟩ ⟨2⟩),
    .call ⟨1⟩ (.addCredentialRoot ⟨1⟩ (fill 7) (fill 1)),
    .call ⟨1⟩ (.setRevocationRootGraceWindow ⟨1⟩ 50),
    .call ⟨1⟩ (.setRevocationRoot ⟨1⟩ (fill 1)),
    .advance hundredth]

def replaced : List Label :=
  firstPublication++[.call ⟨1⟩ (.setRevocationRoot ⟨1⟩ (fill 2)),
    .call ⟨1⟩ (.setRevocationRoot ⟨1⟩ (fill 3))]

theorem replaced_history : (deploy replaced).2.ledger.sequence=101 ∧
    graceWindow (deploy replaced).2.store=50 ∧
    rootHistory (deploy replaced).2.store=[⟨fill 1,1⟩,⟨fill 2,101⟩,⟨fill 3,101⟩] := by
  decide +kernel

/-- A root that was in force a moment ago passes; one that was published a hundred ledgers ago
does not. -/
theorem revocation_root_grace_replaced :
    acceptsRevocationRoot ((deploy replaced).2.env stellarHost (.signedBy ⟨1⟩))
      (deploy replaced).2.store (fill 3) (fill 2) = true ∧
    acceptsRevocationRoot ((deploy replaced).2.env stellarHost (.signedBy ⟨1⟩))
      (deploy replaced).2.store (fill 3) (fill 1) = false := by
  obtain ⟨hledger,hgrace,hhistory⟩ := replaced_history
  have honly := reaches_eachOnce rfl (deploy_reaches replaced)
  obtain ⟨-,hrule,hdocumented⟩ := revocation_root_grace
  constructor
  · refine (hdocumented stellarHost genesis _ _ _ _ _ rfl (deploy_reaches replaced)).2 ?_
    refine .inr ⟨by rw [hgrace]; decide,1,⟨⟨fill 2,101⟩,by rw [hhistory]; rfl,rfl⟩,
      ⟨fill 2,101⟩,by rw [hhistory]; rfl,?_,?_⟩
    · simp [hledger]
    · simp [hledger,hhistory]
  · have horder : InOrder (rootHistory (deploy replaced).2.store) := by
      rw [hhistory]
      simp [InOrder]
    have honce := (hrule ((deploy replaced).2.env stellarHost (.signedBy ⟨1⟩)) _ (fill 3) (fill 1)
      horder).2 fun hbad => by
        obtain ⟨-,-,i,j,hij,hi,hj,-⟩ := hbad
        exact absurd (publishedAt_unique honly hi hj) (Nat.ne_of_lt hij)
    refine Bool.eq_false_iff.2 fun haccepted => ?_
    rcases honce.1 haccepted with hcurrent | ⟨-,i,hi,entry,hentry,hage,-⟩
    · exact absurd hcurrent (by decide)
    · have hfirst : PublishedAt (rootHistory (deploy replaced).2.store) (fill 1) 0 :=
        ⟨⟨fill 1,1⟩,by rw [hhistory]; rfl,rfl⟩
      obtain rfl := publishedAt_unique honly hi hfirst
      rw [hhistory] at hentry
      cases hentry
      simp [World.env,hledger,hgrace] at hage

def repeatedRoot : Storage :=
  Store.set (deploy replaced).2.store .RevocationRoots
    [⟨fill 1,1⟩,⟨fill 2,101⟩,⟨fill 1,101⟩,⟨fill 3,101⟩]

def nonRevocation (root : Bytes32) : Call :=
  .checkNonRevocation (root.1++(fill 5).1++REVOCATION_DOMAIN_SEPARATOR.1++(fill 7).1) [1]

/-- Root 1 was published again and replaced again in this very ledger, and is refused: the check
stops at its first publication. -/
theorem republished_root_refused :
    repeatedRoot .RevocationRoot = some (fill 3) ∧ InOrder (rootHistory repeatedRoot) ∧
    GraceRule (deploy replaced).2.ledger.sequence repeatedRoot (fill 3) (fill 1) ∧
    acceptsRevocationRoot ((deploy replaced).2.env stellarHost (.signedBy ⟨1⟩)) repeatedRoot
      (fill 3) (fill 1) = false ∧
    (exec ((deploy replaced).2.env stellarHost (.signedBy ⟨1⟩)) (nonRevocation (fill 1))
      repeatedRoot).isOk = false ∧
    (exec ((deploy replaced).2.env stellarHost (.signedBy ⟨1⟩)) (nonRevocation (fill 2))
      repeatedRoot).isOk = true := by
  obtain ⟨hledger,-,-⟩ := replaced_history
  have hgrace : graceWindow repeatedRoot=50 := by decide +kernel
  have hhistory : rootHistory repeatedRoot =
      [⟨fill 1,1⟩,⟨fill 2,101⟩,⟨fill 1,101⟩,⟨fill 3,101⟩] := rfl
  refine ⟨by decide +kernel,by rw [hhistory]; simp [InOrder],?_,by decide +kernel⟩
  refine .inr ⟨by rw [hgrace]; decide,2,⟨⟨fill 1,101⟩,by rw [hhistory]; rfl,rfl⟩,
    ⟨fill 1,101⟩,by rw [hhistory]; rfl,?_,?_⟩
  · simp [hledger]
  · simp [hledger,hhistory]

end Harpocrates.Registry
