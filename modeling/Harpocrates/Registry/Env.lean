import Harpocrates.Framework.Footprint
import Harpocrates.Registry.Types

namespace Harpocrates.Registry

open Framework

/-- What the contract relies on and a run does not change. `revocationHistory` stands for
the value `set_revocation_root` stores under `RevocationRoots`: the source uses the name
`history` there without defining it, so any function of the previous history, the new root
and the ledger sequence is allowed. -/
structure Host where
  sha256 : Bytes → Bytes32
  revocationHistory : List RevocationRootEntry → Bytes32 → Nat → List RevocationRootEntry

/-- The ledger a call runs in; both counters are machine words. -/
structure Ledger where
  timestamp : Nat
  sequence : Nat
  timestamp_lt : timestamp < 2^64
  sequence_lt : sequence < 2^32

/-- What one call brings with it: the addresses that authorised it, the verdicts the
external verifier contracts would give during it, and the wasm hashes then installed. -/
structure Invocation where
  auth : Address → Bool
  verifyProof : Address → Bytes → Bytes → Bool
  wasmInstalled : Bytes32 → Bool

structure Env extends Host, Ledger, Invocation

abbrev M := Tx DataKey DataKey.Val Failure

abbrev panic {α : Type} (e : RegistryError) : M α := Tx.fail (.error e)

abbrev trap {α : Type} : M α := Tx.fail .trap

abbrev panicIf (c : Bool) (e : RegistryError) : M Unit := Tx.failIf c (.error e)

abbrev expect {α : Type} (o : Option α) (e : RegistryError) : M α := Tx.unwrap o (.error e)

abbrev ofExcept {α : Type} (x : Except RegistryError α) : M α := Tx.lift .error x

abbrev load (k : DataKey) : M (Option k.Val) := Tx.get k

abbrev store (k : DataKey) (v : k.Val) : M Unit := Tx.set k v

abbrev remove (k : DataKey) : M Unit := Tx.remove k

def has (k : DataKey) : M Bool := Tx.gets (fun s => (s k).isSome)

@[simp] theorem has_ok (k : DataKey) (s s' : Storage) (b : Bool) :
    has k s=.ok (b,s') ↔ (s k).isSome=b ∧ s=s' := by
  simp [has]

@[simp] theorem has_writes (W : DataKey → Prop) (k : DataKey) : Tx.Writes W (has k) := by
  simp [has]

def requireAuth (env : Env) (a : Address) : M Unit := Tx.failIf (!env.auth a) .trap

@[simp] theorem requireAuth_ok (env : Env) (a : Address) (s s' : Storage) (u : Unit) :
    requireAuth env a s=.ok (u,s') ↔ env.auth a=true ∧ s=s' := by
  simp [requireAuth]

@[simp] theorem requireAuth_writes (W : DataKey → Prop) (env : Env) (a : Address) :
    Tx.Writes W (requireAuth env a) := by
  simp [requireAuth]

def u32Max : Nat := 2^32-1
def u64Max : Nat := 2^64-1

/-- `saturating_add` on `u32` and `u64`. -/
def satAdd32 (a b : Nat) : Nat := min (a+b) u32Max
def satAdd64 (a b : Nat) : Nat := min (a+b) u64Max

/-- Plain `u32` addition: the release profile checks for overflow and traps. -/
def add32 (a b : Nat) : M Nat := if a+b ≤ u32Max then pure (a+b) else trap

@[simp] theorem add32_ok (a b c : Nat) (s s' : Storage) :
    add32 a b s=.ok (c,s') ↔ a+b≤u32Max ∧ a+b=c ∧ s=s' := by
  unfold add32
  split <;> simp_all

@[simp] theorem add32_writes (W : DataKey → Prop) (a b : Nat) : Tx.Writes W (add32 a b) := by
  unfold add32
  split <;> simp

end Harpocrates.Registry
