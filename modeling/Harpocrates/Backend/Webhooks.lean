import Harpocrates.Backend.ProofEvents

namespace Harpocrates.Backend

open Framework Framework.Python List

/-! The webhook subscriptions and the deliveries that are queued for them. Times are counted in
microseconds. -/

abbrev Time := Int

def seconds (n : Nat) : Time := n*1000000

structure Subscription where
  isActive : Bool := true
  eventTypes : Option (List Text) := none

inductive DeliveryStatus
  | pending | failed | success | deadLetter
  deriving DecidableEq

structure Delivery where
  subscriptionId : Nat
  eventId : Nat
  status : DeliveryStatus := .pending
  retryCount : Nat := 0
  nextRetryAt : Time
  leaseExpiresAt : Option Time := none
  lastResponseCode : Option Int := none
  deriving DecidableEq

abbrev Deliveries := Rows Delivery

/-- The type of an event as its column holds it. -/
def EventType.name : EventType → Text
  | .register => "register".toList
  | .embed => "embed".toList
  | .extract => "extract".toList
  | .revoke => "revoke".toList
  | .expire => "expire".toList
  | .correct => "correct".toList
  | .disputeOpen => "dispute_open".toList
  | .disputeResolve => "dispute_resolve".toList
  | .disputeSupersede => "dispute_supersede".toList
  | .disputeDismiss => "dispute_dismiss".toList

def getActiveSubscriptions (subscriptions : Rows Subscription) : List (Nat × Subscription) :=
  subscriptions.entries.filter (·.2.isActive)

def Subscription.wants (subscription : Subscription) (eventType : EventType) : Bool :=
  match subscription.eventTypes with
  | none => true
  | some types => types.contains eventType.name

/-- The transaction that queues an event for the subscriptions that were read before it. -/
def queueWebhookDeliveries (now : Time) (events : ProofEvents) (subs : List (Nat × Subscription))
    (deliveries : Deliveries) (eventId : Nat) : Deliveries :=
  match events.row eventId with
  | none => deliveries
  | some event =>
    deliveries.insertAll ((subs.filter (·.2.wants event.eventType)).map fun sub =>
      { subscriptionId := sub.1, eventId, nextRetryAt := now })

theorem mem_queueWebhookDeliveries_of_mem {now : Time} {events : ProofEvents}
    {subs : List (Nat × Subscription)} {deliveries : Deliveries} {eventId k : Nat} {d : Delivery}
    (h : (k,d)∈deliveries) :
    (k,d)∈queueWebhookDeliveries now events subs deliveries eventId := by
  unfold queueWebhookDeliveries
  split
  · exact h
  · exact Rows.mem_insertAll_of_mem h

theorem queueWebhookDeliveries_queues {now : Time} {events : ProofEvents} {event : ProofEvent}
    {subs : List (Nat × Subscription)} {deliveries : Deliveries} {eventId n : Nat}
    {sub : Subscription} (hevent : (eventId,event)∈events) (hsub : (n,sub)∈subs)
    (hwants : sub.wants event.eventType=true) :
    ∃ k d, (k,d)∈queueWebhookDeliveries now events subs deliveries eventId ∧
      d.subscriptionId=n ∧ d.eventId=eventId := by
  unfold queueWebhookDeliveries
  rw [Rows.row_eq_some.2 hevent]
  have hmem : ({ subscriptionId := n, eventId, nextRetryAt := now } : Delivery) ∈
      (subs.filter (·.2.wants event.eventType)).map fun sub =>
        { subscriptionId := sub.1, eventId, nextRetryAt := now } :=
    mem_map.2 ⟨(n,sub),mem_filter.2 ⟨hsub,hwants⟩,rfl⟩
  obtain ⟨k,hk⟩ := Rows.exists_mem_insertAll (t := deliveries) hmem
  exact ⟨k,_,hk,rfl,rfl⟩

def Delivery.ready (now : Time) (d : Delivery) : Bool :=
  (d.status = .pending || d.status = .failed) && d.nextRetryAt ≤ now &&
    d.leaseExpiresAt.all (· ≤ now)

/-- The rows that a worker leases, the one that waits longest first. Rows that another transaction
has locked are skipped. -/
def readyDeliveries (now : Time) (limit : Nat) (locked : List Nat) (t : Deliveries) :
    List (Nat × Delivery) :=
  ((t.entries.filter fun e => e.2.ready now && !locked.contains e.1).mergeSort
    fun a b => a.2.nextRetryAt ≤ b.2.nextRetryAt).take limit

/-- The table after a lease, and the leased rows. -/
def leaseDeliveries (now : Time) (limit : Nat) (leaseDuration : Time) (locked : List Nat)
    (t : Deliveries) : Deliveries × List (Nat × Delivery) :=
  let leased := readyDeliveries now limit locked t
  (t.modifyAll (leased.map (·.1)) fun d => { d with leaseExpiresAt := some (now+leaseDuration) },
    leased)

def MAX_RETRIES : Nat := 5

def RETRY_BACKOFF_SECONDS : List Nat := [10,60,300,3600,86400]

/-- The row after an attempt that was made when `retryCount` attempts had failed. -/
def Delivery.reported (now : Time) (success : Bool) (statusCode : Option Int) (retryCount : Nat)
    (d : Delivery) : Delivery :=
  let d := { d with lastResponseCode := statusCode, leaseExpiresAt := none }
  if success then { d with status := .success, retryCount, nextRetryAt := now }
  else if MAX_RETRIES ≤ retryCount then
    { d with status := .deadLetter, retryCount, nextRetryAt := now }
  else
    { d with
      status := .failed
      retryCount := retryCount+1
      nextRetryAt := now+seconds (RETRY_BACKOFF_SECONDS.getD retryCount 86400) }

def updateDeliveryStatus (now : Time) (t : Deliveries) (deliveryId : Nat) (success : Bool)
    (statusCode : Option Int) (retryCount : Nat) : Deliveries :=
  t.modify deliveryId (Delivery.reported now success statusCode retryCount)

/-- What a POST to the subscriber ends with. -/
inductive Response
  | status (code : Int)
  | httpError (code : Int)
  | noResponse
  deriving DecidableEq

def Response.code : Response → Option Int
  | .status code => some code
  | .httpError code => some code
  | .noResponse => none

def Response.success : Response → Bool
  | .status code => 200 ≤ code && code < 300
  | _ => false

theorem mem_readyDeliveries {now : Time} {limit : Nat} {locked : List Nat} {t : Deliveries}
    {i : Nat} {d : Delivery} (h : (i,d)∈readyDeliveries now limit locked t) :
    (i,d)∈t ∧ d.ready now=true := by
  have hsorted := mem_mergeSort.1 (mem_of_mem_take h)
  obtain ⟨hmem,hready⟩ := mem_filter.1 hsorted
  exact ⟨hmem,(Bool.and_eq_true_iff.1 hready).1⟩

theorem readyDeliveries_nodup (now : Time) (limit : Nat) (locked : List Nat) (t : Deliveries) :
    ((readyDeliveries now limit locked t).map (·.1)).Nodup := by
  have htable : (t.entries.map (·.1)).Nodup :=
    pairwise_map.2 (t.ordered.imp fun hlt => Nat.ne_of_lt hlt)
  have hfiltered : ((t.entries.filter fun e => e.2.ready now && !locked.contains e.1).map
      (·.1)).Nodup := htable.sublist (filter_sublist.map _)
  refine List.Nodup.sublist ((take_sublist _ _).map _) ?_
  exact ((mergeSort_perm _ _).map _).nodup_iff.2 hfiltered

end Harpocrates.Backend
