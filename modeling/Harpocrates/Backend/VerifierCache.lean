import Mathlib.Algebra.Order.Ring.Rat
import Mathlib.Data.Finset.Basic
import Harpocrates.Framework.Dict
import Harpocrates.Framework.LengthPrefix
import Harpocrates.Framework.Python
import Harpocrates.Framework.Run

namespace Harpocrates.Backend.VerifierCache

open Framework Framework.Python

/-! The cache of verifier results. Times are in seconds; the metrics that the calls record are left
out. -/

def CACHE_KEY_DOMAIN_TAG : Text := "harpocrates:verifier-cache:v1".toList

def encodeCacheKeyField (value : Text) : Text :=
  Nat.toDigits 10 (encode value).length++ ':' :: value

/-- What a result is cached for. -/
structure Query where
  domain : Text
  network : Text
  circuitVersion : Text
  verifierVersion : Text
  proofHex : Text
  publicInputsHex : Text

/-- The functions that the keys are made with: Python's `lower`, and SHA-256 in hex. -/
structure KeyFunctions (κ : Type) where
  lower : Text → Text
  sha256 : List UInt8 → κ

variable {κ : Type} (fns : KeyFunctions κ)

def normalizeHexField (value : Text) : Text := fns.lower (strip value)

def keyFields (q : Query) : List Text :=
  [CACHE_KEY_DOMAIN_TAG,q.domain,q.network,q.circuitVersion,q.verifierVersion,
    normalizeHexField fns q.proofHex,normalizeHexField fns q.publicInputsHex]

def keyPayload (q : Query) : List UInt8 := encode ((keyFields fns q).flatMap encodeCacheKeyField)

def getCacheKey (q : Query) : κ := fns.sha256 (keyPayload fns q)

theorem encode_toDigits_injective : Function.Injective fun n => encode (Nat.toDigits 10 n) := by
  intro m n h
  have hdigits : Nat.toDigits 10 m=Nat.toDigits 10 n := encode_injective h
  calc
    m=Nat.ofDigitChars 10 (Nat.toDigits 10 m) 0 := Nat.ofDigitChars_ten_toDigits.symm
    _ = Nat.ofDigitChars 10 (Nat.toDigits 10 n) 0 := by rw [hdigits]
    _ = n := Nat.ofDigitChars_ten_toDigits

theorem colon_notMem_toDigits (n : Nat) : (58 : UInt8)∉encode (Nat.toDigits 10 n) := by
  intro hmem
  have hcolon : ':' ∈ Nat.toDigits 10 n := mem_of_mem_encode (c := ':') (by decide) hmem
  have hdigit := Nat.isDigit_of_mem_toDigits (by decide) (by decide) hcolon
  cases hdigit

def byteCode : LengthCode UInt8 where
  spell n := encode (Nat.toDigits 10 n)
  mark := 58
  spell_injective := encode_toDigits_injective
  mark_notMem := colon_notMem_toDigits

theorem encode_encodeCacheKeyField (value : Text) :
    encode (encodeCacheKeyField value)=byteCode.field (encode value) := by
  rw [encodeCacheKeyField,encode_append]
  rfl

theorem keyPayload_eq (q : Query) :
    keyPayload fns q=byteCode.fields ((keyFields fns q).map encode) := by
  have hfields : ∀ vs : List Text,
      encode (vs.flatMap encodeCacheKeyField)=byteCode.fields (vs.map encode) := by
    intro vs
    induction vs with
    | nil => rfl
    | cons v vs ih =>
      rw [List.flatMap_cons,encode_append,encode_encodeCacheKeyField,ih,List.map_cons,
        byteCode.fields_cons]
  exact hfields _

theorem key_payload_eq_iff (q q' : Query) : keyPayload fns q = keyPayload fns q' ↔
    q.domain = q'.domain ∧ q.network = q'.network ∧ q.circuitVersion = q'.circuitVersion ∧
      q.verifierVersion = q'.verifierVersion ∧
      fns.lower (strip q.proofHex) = fns.lower (strip q'.proofHex) ∧
      fns.lower (strip q.publicInputsHex) = fns.lower (strip q'.publicInputsHex) := by
  have hfields : keyPayload fns q=keyPayload fns q' ↔ keyFields fns q=keyFields fns q' := by
    rw [keyPayload_eq,keyPayload_eq,byteCode.fields_injective.eq_iff]
    exact (List.map_injective_iff.2 encode_injective).eq_iff
  rw [hfields]
  simp only [keyFields,normalizeHexField,List.cons.injEq,and_true,true_and]

variable [DecidableEq κ]

structure Entry where
  result : Bool
  expiresAt : ℚ

/-- The results in the order of their last use, and for each proof the keys kept under it. -/
structure Cache (κ : Type) where
  maxSize : Nat
  positiveTtl : ℚ
  negativeTtl : ℚ
  entries : List (κ × Entry) := []
  proofKeys : List (Text × Finset κ) := []

/-- The keys under a proof; `get(proof_id, set())`. -/
def keysOf (proofKeys : List (Text × Finset κ)) (proofId : Text) : Finset κ :=
  (proofKeys.lookup proofId).getD ∅

def discard (proofKeys : List (Text × Finset κ)) (proofId : Text) (key : κ) :
    List (Text × Finset κ) :=
  match proofKeys.lookup proofId with
  | none => proofKeys
  | some keys => Dict.set proofKeys proofId (keys.erase key)

def add (proofKeys : List (Text × Finset κ)) (proofId : Text) (key : κ) :
    List (Text × Finset κ) :=
  Dict.set proofKeys proofId (insert key (keysOf proofKeys proofId))

def named (proofId : Option Text) : Option Text := proofId.filter (· ≠ [])

def Cache.discardNamed (cache : Cache κ) (proofId : Option Text) (key : κ) : Cache κ :=
  match named proofId with
  | none => cache
  | some p => { cache with proofKeys := discard cache.proofKeys p key }

def Cache.pop (cache : Cache κ) (key : κ) : Cache κ :=
  { cache with entries := Dict.remove cache.entries [key] }

def Cache.store (cache : Cache κ) (key : κ) (entry : Entry) : Cache κ :=
  { cache with entries := Dict.set cache.entries key entry }

def Cache.addNamed (cache : Cache κ) (proofId : Option Text) (key : κ) : Cache κ :=
  match named proofId with
  | none => cache
  | some p => { cache with proofKeys := add cache.proofKeys p key }

def get (cache : Cache κ) (now : ℚ) (key : κ) (proofId : Option Text) : Cache κ × Option Bool :=
  match cache.entries.lookup key with
  | some entry =>
    if now < entry.expiresAt then
      -- the entry goes to the end of the order
      (((cache.pop key).discardNamed proofId key).store key entry,some entry.result)
    else (cache.pop key,none)
  | none => (cache,none)

/-- Room for a key: its old entry goes, or the entry that was used least recently. -/
def makeRoom (cache : Cache κ) (key : κ) (proofId : Option Text) : Cache κ :=
  if (cache.entries.lookup key).isSome then (cache.pop key).discardNamed proofId key
  else if cache.maxSize ≤ cache.entries.length then { cache with entries := cache.entries.tail }
  else cache

def set (cache : Cache κ) (now : ℚ) (key : κ) (isValid : Bool) (proofId : Option Text) :
    Cache κ :=
  let ttl := if isValid then cache.positiveTtl else cache.negativeTtl
  ((makeRoom cache key proofId).store key ⟨isValid,now+ttl⟩).addNamed proofId key

def dropEmpty (proofKeys : List (Text × Finset κ)) (proofId : Text) : List (Text × Finset κ) :=
  if keysOf proofKeys proofId = ∅ then Dict.remove proofKeys [proofId] else proofKeys

def invalidate (cache : Cache κ) (key : κ) (proofId : Option Text) : Cache κ :=
  let popped := cache.pop key
  match named proofId with
  | none => popped
  | some p =>
    if keysOf popped.proofKeys p = ∅ then popped
    else { popped with proofKeys := dropEmpty (discard popped.proofKeys p key) p }

def invalidateProof (cache : Cache κ) (proofId : Text) : Cache κ :=
  { cache with
    entries := cache.entries.filter (·.1 ∉ keysOf cache.proofKeys proofId)
    proofKeys := Dict.remove cache.proofKeys [proofId] }

def clear (cache : Cache κ) : Cache κ := { cache with entries := [], proofKeys := [] }

inductive Op
  | get (query : Query) (proofId : Option Text)
  | set (query : Query) (isValid : Bool) (proofId : Option Text)
  | invalidate (query : Query) (proofId : Option Text)
  | invalidateProof (proofId : Text)
  | clear

/-- A call under the lock, with what the clock shows. -/
structure Call where
  now : ℚ
  op : Op

def perform (cache : Cache κ) (call : Call) : Cache κ :=
  match call.op with
  | .get query proofId => (get cache call.now (getCacheKey fns query) proofId).1
  | .set query isValid proofId => set cache call.now (getCacheKey fns query) isValid proofId
  | .invalidate query proofId => invalidate cache (getCacheKey fns query) proofId
  | .invalidateProof proofId => invalidateProof cache proofId
  | .clear => clear cache

structure World (κ : Type) where
  cache : Cache κ
  clock : ℚ

def Step (w : World κ) (call : Call) (w' : World κ) : Prop :=
  w.clock ≤ call.now ∧ w' = ⟨perform fns w.cache call,call.now⟩

end Harpocrates.Backend.VerifierCache
