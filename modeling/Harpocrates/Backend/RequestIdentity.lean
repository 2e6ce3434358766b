import Harpocrates.Backend.Idempotency
import Harpocrates.Framework.LengthPrefix

namespace Harpocrates.Backend.Idempotency

open Framework Framework.Python List

def canonicalData (request : Request) : List UInt8 :=
  encode request.method++124::(encode request.path++124::(request.queryString++124::request.body))

theorem canonicalDigest_eq (sha256 : List UInt8 → Text) (request : Request) :
    canonicalDigest sha256 request=sha256 (canonicalData request) := by
  unfold canonicalDigest canonicalData
  simp only [append_assoc,cons_append,nil_append]

def SameRequest (a b : Request) : Prop :=
  a.method = b.method ∧ a.path = b.path ∧ a.queryString = b.queryString ∧ a.body = b.body

def Barless (request : Request) : Prop :=
  '|' ∉ request.method ∧ '|' ∉ request.path ∧ 124 ∉ request.queryString ∧ 124 ∉ request.body

variable {request other : Request}

theorem bar_notMem_encode {s : Text} (h : '|' ∉ s) : (124 : UInt8)∉encode s :=
  fun hmem => h (mem_of_mem_encode (c := '|') (by decide) hmem)

theorem encode_split (a b : Text) : encode (a++ '|' :: b)=encode a++124::encode b :=
  encode_append a ('|' :: b)

theorem count_canonicalData : (canonicalData request).count 124 =
    (encode request.method).count 124+(encode request.path).count 124+
      request.queryString.count 124+request.body.count 124+3 := by
  simp only [canonicalData,count_append,count_cons_self]
  omega

theorem data_inj_of_barless (h : Barless request)
    (hdata : canonicalData other=canonicalData request) : SameRequest other request := by
  obtain ⟨hmethod,hpath,hquery,hbody⟩ := h
  have hmethod' := bar_notMem_encode hmethod
  have hpath' := bar_notMem_encode hpath
  -- the other data has three bars as well, so its parts have none
  have hcount := congrArg (List.count 124) hdata
  rw [count_canonicalData,count_canonicalData,count_eq_zero_of_not_mem hmethod',
    count_eq_zero_of_not_mem hpath',count_eq_zero_of_not_mem hquery,
    count_eq_zero_of_not_mem hbody] at hcount
  have hfirst := first_mark_inj (count_eq_zero.1 (by omega)) hmethod' hdata
  have hsecond := first_mark_inj (count_eq_zero.1 (by omega)) hpath' hfirst.2
  have hthird := first_mark_inj (count_eq_zero.1 (by omega)) hquery hsecond.2
  exact ⟨encode_injective hfirst.1,encode_injective hsecond.1,hthird⟩

/-- A bar in any part can also be read as the end of that part. -/
theorem barless_of_identified
    (h : ∀ other, canonicalData other=canonicalData request → SameRequest other request) :
    Barless request := by
  obtain ⟨method,path,queryString,body,requestType⟩ := request
  refine ⟨fun hbar => ?_,fun hbar => ?_,fun hbar => ?_,fun hbar => ?_⟩
  · obtain ⟨a,b,rfl⟩ := append_of_mem hbar
    have hsame := h ⟨a,b++ '|' :: path,queryString,body,requestType⟩
      (by simp only [canonicalData,encode_split,append_assoc,cons_append])
    have hlen := congrArg List.length hsame.1
    simp at hlen
  · obtain ⟨a,b,rfl⟩ := append_of_mem hbar
    have hsame := h ⟨method,a,encode b++124::queryString,body,requestType⟩
      (by simp only [canonicalData,encode_split,append_assoc,cons_append])
    have hlen := congrArg List.length hsame.2.1
    simp at hlen
  · obtain ⟨a,b,rfl⟩ := append_of_mem hbar
    have hsame := h ⟨method,path,a,b++124::body,requestType⟩
      (by simp only [canonicalData,append_assoc,cons_append])
    have hlen := congrArg List.length hsame.2.2.1
    simp at hlen
  · obtain ⟨a,b,rfl⟩ := append_of_mem hbar
    have hsame := h ⟨method,path,queryString++124::a,b,requestType⟩
      (by simp only [canonicalData,append_assoc,cons_append])
    have hlen := congrArg List.length hsame.2.2.2
    simp at hlen
    omega

theorem key_of_getIdempotencyRecord {β : Type} {t : Records β} {key : RequestKey}
    {record : Record β} (h : getIdempotencyRecord t key=some record) : record.key=key := by
  obtain ⟨e,he,rfl⟩ := Option.map_eq_some_iff.1 h
  have hkey := List.find?_some he
  exact of_decide_eq_true hkey

/-- A digest identifies its request, and what is stored under it is replayed to that request only,
exactly when no part of the request has a bar. -/
theorem digest_identifies_request_iff {sha256 : List UInt8 → Text}
    (hsha : Function.Injective sha256) (β : Type) (request : Request) :
    ((∀ other, canonicalData other = canonicalData request → SameRequest other request) ∧
      ∀ (t : Records β) record other, record.key = request.key sha256 →
        getIdempotencyRecord t (other.key sha256) = some record → SameRequest other request) ↔
      Barless request := by
  constructor
  · intro h
    exact barless_of_identified h.1
  · intro h
    refine ⟨fun other => data_inj_of_barless h,fun t record other hrecord hfound => ?_⟩
    have hkey : other.key sha256=request.key sha256 :=
      (key_of_getIdempotencyRecord hfound).symm.trans hrecord
    have hdigest : canonicalDigest sha256 other=canonicalDigest sha256 request :=
      congrArg RequestKey.requestDigest hkey
    rw [canonicalDigest_eq,canonicalDigest_eq] at hdigest
    exact data_inj_of_barless h (hsha hdigest)

def sampleRequest (queryString body : List UInt8) : Request :=
  ⟨"POST".toList,"/register".toList,queryString,body,"register".toList⟩

def spelled (bytes : List UInt8) : Text := bytes.map fun b => Char.ofNat b.toNat

theorem spelled_injective : Function.Injective spelled := by
  apply map_injective_iff.2
  intro a b h
  have hchar : ∀ n : Nat, n<256 → (Char.ofNat n).toNat=n := by
    intro n hn
    unfold Char.ofNat
    rw [dif_pos (show n.isValidChar from .inl (by omega))]
    rfl
  have hnat := congrArg Char.toNat h
  dsimp only at hnat
  rw [hchar _ a.toNat_lt,hchar _ b.toNat_lt] at hnat
  exact UInt8.toNat_inj.1 hnat

theorem barless_request_identified : Barless (sampleRequest [97] [98]) ∧
    ∀ other, canonicalData other = canonicalData (sampleRequest [97] [98]) →
      SameRequest other (sampleRequest [97] [98]) := by
  have hbarless : Barless (sampleRequest [97] [98]) := by
    unfold Barless
    decide
  exact ⟨hbarless,((digest_identifies_request_iff spelled_injective Unit _).2 hbarless).1⟩

/-- With a bar in the query string, or in the body: one digest, and the answer to the first is
replayed to the second. -/
theorem shifted_bar_replayed :
    canonicalData (sampleRequest [97,124,98] [99]) =
      canonicalData (sampleRequest [97] [98,124,99]) ∧
    ¬ SameRequest (sampleRequest [97,124,98] [99]) (sampleRequest [97] [98,124,99]) ∧
    ∀ sha256, afterLookup (getIdempotencyRecord
      (storeResponse (createIdempotencyRecord (Rows.empty : Records Nat)
        ((sampleRequest [97,124,98] [99]).key sha256)).1 0 201 (some 7))
      ((sampleRequest [97] [98,124,99]).key sha256)) = .answered (.reply ⟨201,.json 7⟩) := by
  have hdata : canonicalData (sampleRequest [97,124,98] [99]) =
      canonicalData (sampleRequest [97] [98,124,99]) := by decide
  refine ⟨hdata,fun hsame => absurd hsame.2.2.1 (by decide),fun sha256 => ?_⟩
  have hkey : (sampleRequest [97] [98,124,99]).key sha256 =
      (sampleRequest [97,124,98] [99]).key sha256 := by
    unfold Request.key
    rw [canonicalDigest_eq,canonicalDigest_eq,hdata]
    rfl
  rw [hkey]
  simp [afterLookup,getIdempotencyRecord,storeResponse,createIdempotencyRecord,Rows.empty,
    Rows.insert,Rows.modify,Rows.modifyAll,replayStored]

end Harpocrates.Backend.Idempotency
