import Mathlib.Data.Char
import Mathlib.Data.List.Dedup
import Mathlib.Data.List.Lex
import Mathlib.Data.List.Sort
import Harpocrates.Framework.Bytes
import Harpocrates.Framework.Dict
import Harpocrates.Framework.Fallible
import Harpocrates.Framework.Python

namespace Harpocrates.Circuits.Artifacts

open Framework Framework.Fallible Framework.Python

def readUleb128From : Nat → Nat → Nat → Bytes → Except String (Nat × Bytes)
  | 0,_,_,_ => .error "malformed WASM: over-long LEB128"
  | _+1,_,_,[] => .error "truncated WASM: LEB128 ran past end of file"
  | rounds+1,shift,result,byte::data =>
    let result := result ||| (byte.toNat &&& 0x7F) <<< shift
    if byte.toNat &&& 0x80 = 0 then .ok (result,data)
    else readUleb128From rounds (shift+7) result data

def readUleb128 (data : Bytes) : Except String (Nat × Bytes) := readUleb128From 5 0 0 data

/-- The bytes of a section; a custom section has a name. -/
structure Section where
  raw : Bytes
  name : Option Bytes

/-- The name is read from all of the data that is left. -/
def readName (body : Bytes) (size : Nat) : Except String Bytes := do
  let (nameLen,data) ← readUleb128 body
  require (body.length-data.length+nameLen ≤ size)
    "malformed WASM: custom section name exceeds section"
  return data.take nameLen

def sectionName (sectionId : UInt8) (body : Bytes) (size : Nat) : Except String (Option Bytes) :=
  if sectionId = 0 then (readName body size).map some else .ok none

def readSection (sectionId : UInt8) (data : Bytes) : Except String (Section × Bytes) := do
  let (size,body) ← readUleb128 data
  require (size ≤ body.length) "truncated WASM: section length exceeds file size"
  let name ← sectionName sectionId body size
  return (⟨sectionId::data.take (data.length-(body.length-size)),name⟩,body.drop size)

variable {rounds shift result n : Nat} {sectionId : UInt8} {data rest tail : Bytes} {s : Section}

theorem readUleb128From_ok (h : readUleb128From rounds shift result data=.ok (n,rest)) :
    ∃ used, data=used++rest ∧
      ∀ tail, readUleb128From rounds shift result (used++tail)=.ok (n,tail) := by
  induction rounds generalizing shift result data with
  | zero => cases h
  | succ rounds ih =>
    cases data with
    | nil => cases h
    | cons byte data =>
      rw [readUleb128From] at h
      split at h
      · rename_i hlast
        cases h
        refine ⟨[byte],rfl,fun tail => ?_⟩
        rw [List.singleton_append,readUleb128From,if_pos hlast]
      · rename_i hmore
        obtain ⟨used,rfl,hused⟩ := ih h
        refine ⟨byte::used,rfl,fun tail => ?_⟩
        rw [List.cons_append,readUleb128From,if_neg hmore]
        exact hused tail

theorem readName_ok {content name : Bytes}
    (h : readName (content++rest) content.length=.ok name) (tail : Bytes) :
    readName (content++tail) content.length=.ok name := by
  unfold readName at h ⊢
  rw [bind_ok] at h ⊢
  obtain ⟨⟨nameLen,after⟩,hread,h⟩ := h
  rw [unit_bind_ok,require_ok,decide_eq_true_eq] at h
  obtain ⟨hwithin,hname⟩ := h
  cases hname
  obtain ⟨used,hsplit,hused⟩ := readUleb128From_ok hread
  rw [hsplit,List.length_append] at hwithin
  -- the length of the name is read from the section, and so is the name
  obtain ⟨extra,rfl,rfl⟩ : ∃ extra, content=used++extra ∧ after=extra++rest := by
    rcases List.append_eq_append_iff.1 hsplit with ⟨extra,rfl,rfl⟩ | hwhole
    · rw [List.length_append] at hwithin
      rw [List.eq_nil_of_length_eq_zero (l := extra) (by omega)]
      exact ⟨[],by simp,by simp⟩
    · exact hwhole
  simp only [List.length_append] at hwithin
  refine ⟨(nameLen,extra++tail),?_,?_⟩
  · rw [List.append_assoc]
    exact hused (extra++tail)
  · rw [unit_bind_ok,require_ok,decide_eq_true_eq,
      List.take_append_of_le_length (by omega),List.take_append_of_le_length (by omega)]
    refine ⟨?_,rfl⟩
    simp only [List.length_append]
    omega

/-- How a section is read does not depend on what follows it. -/
theorem readSection_ok (h : readSection sectionId data=.ok (s,rest)) :
    ∃ own, s.raw=sectionId::own ∧ data=own++rest ∧
      ∀ tail, readSection sectionId (own++tail)=.ok (s,tail) := by
  unfold readSection at h ⊢
  rw [bind_ok] at h
  obtain ⟨⟨size,body⟩,hread,h⟩ := h
  rw [unit_bind_ok,require_ok,decide_eq_true_eq,bind_ok] at h
  obtain ⟨hsize,name,hname,h⟩ := h
  cases h
  obtain ⟨used,rfl,hused⟩ := readUleb128From_ok hread
  obtain ⟨content,rest,rfl,rfl⟩ : ∃ content rest, body=content++rest ∧ size=content.length :=
    ⟨body.take size,body.drop size,(List.take_append_drop ..).symm,by simp [hsize]⟩
  have hraw (tail : Bytes) : (used++(content++tail)).take ((used++(content++tail)).length-
      ((content++tail).length-content.length))=used++content := by
    rw [← List.append_assoc,List.take_append_of_le_length (by simp; omega)]
    exact List.take_of_length_le (by simp; omega)
  refine ⟨used++content,by rw [hraw],by simp,fun tail => ?_⟩
  rw [List.append_assoc,bind_ok]
  refine ⟨(content.length,content++tail),hused _,?_⟩
  rw [unit_bind_ok,require_ok,decide_eq_true_eq,bind_ok]
  refine ⟨by simp,name,?_,by simp only [hraw,List.drop_left]; rfl⟩
  unfold sectionName at hname ⊢
  split at hname
  · cases hinner : readName (content++rest) content.length with
    | error e =>
      rw [hinner] at hname
      cases hname
    | ok inner =>
      rw [hinner] at hname
      rw [if_pos (by assumption),readName_ok hinner tail]
      exact hname
  · rw [if_neg (by assumption)]
    exact hname

/-- `strip` says whether the decoded name of a custom section is to be stripped. -/
def normalizeSections (strip : Bytes → Bool) : Bytes → Except String Bytes
  | [] => .ok []
  | sectionId::data =>
    match _h : readSection sectionId data with
    | .error e => .error e
    | .ok (s,rest) =>
      (normalizeSections strip rest).map fun out => if s.name.any strip then out else s.raw++out
termination_by data => data.length
decreasing_by
  obtain ⟨own,-,rfl,-⟩ := readSection_ok _h
  simp

def normalizeWasm (strip : Bytes → Bool) (data : Bytes) : Except String Bytes := do
  require (8 ≤ data.length && data.take 4 = [0,97,115,109])
    "artifact declared as WASM lacks the \\0asm magic header"
  let out ← normalizeSections strip (data.drop 8)
  return data.take 8++out

/-- The sections that the bytes consist of. -/
inductive Sections : Bytes → List Section → Prop
  | nil : Sections [] []
  | cons {sectionId : UInt8} {data rest : Bytes} {s : Section} {sections : List Section} :
      readSection sectionId data = .ok (s,rest) → Sections rest sections →
      Sections (sectionId::data) (s::sections)

def kept (strip : Bytes → Bool) (sections : List Section) : List Section :=
  sections.filter fun s => !s.name.any strip

variable {strip : Bytes → Bool} {out : Bytes} {sections sections' : List Section}

theorem Sections.unique (h : Sections data sections) (h' : Sections data sections') :
    sections=sections' := by
  induction h generalizing sections' with
  | nil =>
    cases h'
    rfl
  | cons hs _ ih =>
    cases h' with
    | cons hs' hrest =>
      cases hs.symm.trans hs'
      rw [ih hrest]

theorem Sections.keep (h : Sections data sections) :
    Sections ((kept strip sections).flatMap (·.raw)) (kept strip sections) := by
  unfold kept
  induction h with
  | nil => exact .nil
  | cons hs _ ih =>
    rw [List.filter_cons]
    split
    · obtain ⟨own,hraw,-,hown⟩ := readSection_ok hs
      rw [List.flatMap_cons,hraw,List.cons_append]
      exact .cons (hown _) ih
    · exact ih

theorem normalizeSections_cons (h : readSection sectionId data=.ok (s,rest)) :
    normalizeSections strip (sectionId::data) =
      (normalizeSections strip rest).map fun out =>
        if s.name.any strip then out else s.raw++out := by
  rw [normalizeSections,h]

theorem normalizeSections_ok (h : normalizeSections strip data=.ok out) :
    ∃ sections, Sections data sections := by
  induction data using normalizeSections.induct generalizing out with
  | case1 => exact ⟨[],.nil⟩
  | case2 sectionId data e hs =>
    rw [normalizeSections,hs] at h
    cases h
  | case3 sectionId data s rest hs ih =>
    rw [normalizeSections_cons hs] at h
    cases hrest : normalizeSections strip rest with
    | error e =>
      rw [hrest] at h
      cases h
    | ok out =>
      obtain ⟨sections,hsections⟩ := ih hrest
      exact ⟨s::sections,.cons hs hsections⟩

theorem Sections.normalize (h : Sections data sections) :
    normalizeSections strip data=.ok ((kept strip sections).flatMap (·.raw)) := by
  induction h with
  | nil => rw [normalizeSections]; rfl
  | cons hs _ ih =>
    rw [normalizeSections_cons hs,ih,kept,kept,List.filter_cons]
    cases Option.any strip _ with
    | true => simp [Except.map]
    | false => simp [Except.map]

theorem normalizeWasm_iff : normalizeWasm strip data=.ok out ↔
    8≤data.length ∧ data.take 4=[0,97,115,109] ∧ ∃ sections, Sections (data.drop 8) sections ∧
      out=data.take 8++(kept strip sections).flatMap (·.raw) := by
  unfold normalizeWasm
  rw [unit_bind_ok,require_ok,Bool.and_eq_true,decide_eq_true_eq,decide_eq_true_eq,bind_ok,
    and_assoc]
  refine and_congr_right fun _ => and_congr_right fun _ => ⟨?_,?_⟩
  · rintro ⟨kept,hkept,h⟩
    cases h
    obtain ⟨sections,hsections⟩ := normalizeSections_ok hkept
    cases hkept.symm.trans hsections.normalize
    exact ⟨sections,hsections,rfl⟩
  · rintro ⟨sections,hsections,rfl⟩
    exact ⟨_,hsections.normalize,rfl⟩

/-- Loaded JSON values as Python compares and prints them. `NaN` is not equal to itself. -/
structure Values where
  Value : Type
  null : Value
  eq : Value → Value → Bool
  repr : Value → String
  short : Value → String
  eq_null : eq null null = true
  eq_symm : ∀ x y, eq x y = true → eq y x = true
  eq_trans : ∀ x y z, eq x y = true → eq y z = true → eq x z = true

section Comparison

variable (py : Values)

structure ArtifactEntry where
  path : Text
  normalizedSha256 : py.Value := py.null
  rawSha256 : py.Value := py.null

/-- A missing field is read as null. -/
structure Manifest where
  format : py.Value := py.null
  version : py.Value := py.null
  toolchain : List (Text × py.Value) := []
  normalizationPolicySha256 : py.Value := py.null
  provenance : List (Text × py.Value) := []
  artifacts : List (ArtifactEntry py) := []

variable {py}

def get (d : List (Text × py.Value)) (key : Text) : py.Value := (d.lookup key).getD py.null

def findingUnless (same : Bool) (finding : String) : List String := if same then [] else [finding]

def differs (label : String) (expected actual : py.Value) : List String :=
  findingUnless (py.eq expected actual)
    (label++": expected "++py.repr expected++", got "++py.repr actual)

/-- The keys in the order in which they are gone through. -/
def sorted (keys : List Text) : List Text := keys.dedup.insertionSort (· ≤ ·)

/-- A later entry for the same path replaces the one before. -/
def Manifest.artifact (m : Manifest py) (path : Text) : Option (ArtifactEntry py) :=
  m.artifacts.reverse.find? fun entry => entry.path = path

def compareArtifact (path : Text) :
    Option (ArtifactEntry py) → Option (ArtifactEntry py) → List String
  | none,_ => ["artifact "++String.ofList path++": unexpected, not present in the manifest"]
  | some _,none => ["artifact "++String.ofList path++": missing from the rebuilt tree"]
  | some before,some after =>
    if !py.eq before.normalizedSha256 after.normalizedSha256 then
      ["artifact "++String.ofList path++": normalized digest "++py.short before.normalizedSha256++
        " -> "++py.short after.normalizedSha256]
    else findingUnless (py.eq before.rawSha256 after.rawSha256)
      ("artifact "++String.ofList path++": raw bytes differ but normalize to the same digest "++
        "(host metadata only; not a semantic change)")

def compareManifests (expected actual : Manifest py) : List String :=
  differs "manifest format" expected.format actual.format++
  differs "manifest version" expected.version actual.version++
  (sorted (expected.toolchain.map (·.1))).flatMap (fun key =>
    differs ("toolchain."++String.ofList key) (get expected.toolchain key)
      (get actual.toolchain key))++
  findingUnless (py.eq expected.normalizationPolicySha256 actual.normalizationPolicySha256)
    "normalization policy changed; artifacts digested under different rules"++
  (sorted (expected.provenance.map (·.1)++actual.provenance.map (·.1))).flatMap (fun path =>
    findingUnless (py.eq (get expected.provenance path) (get actual.provenance path))
      ("source "++String.ofList path++": "++py.short (get expected.provenance path)++" -> "++
        py.short (get actual.provenance path)))++
  (sorted (expected.artifacts.map (·.path)++actual.artifacts.map (·.path))).flatMap fun path =>
    compareArtifact path (expected.artifact path) (actual.artifact path)

/-- The digests of two artifacts are equal. -/
def SameDigests (a b : ArtifactEntry py) : Prop :=
  py.eq a.normalizedSha256 b.normalizedSha256 = true ∧ py.eq a.rawSha256 b.rawSha256 = true

/-- What a comparison without findings says. -/
structure Agrees (a b : Manifest py) : Prop where
  format : py.eq a.format b.format = true
  version : py.eq a.version b.version = true
  toolchain : ∀ key ∈ a.toolchain.map (·.1),
    py.eq (get a.toolchain key) (get b.toolchain key) = true
  policy : py.eq a.normalizationPolicySha256 b.normalizationPolicySha256 = true
  provenance : ∀ key, py.eq (get a.provenance key) (get b.provenance key) = true
  artifacts : ∀ path, Option.Rel SameDigests (a.artifact path) (b.artifact path)

structure SameKeys (a b : Manifest py) : Prop where
  toolchain : ∀ key, key ∈ a.toolchain.map (·.1) ↔ key ∈ b.toolchain.map (·.1)
  provenance : ∀ key, key ∈ a.provenance.map (·.1) ↔ key ∈ b.provenance.map (·.1)

def SameManifest (a b : Manifest py) : Prop := Agrees a b ∧ SameKeys a b

variable {a b c : Manifest py} {x y z : Option (ArtifactEntry py)} {key path : Text}

theorem findingUnless_nil {same : Bool} {finding : String} :
    findingUnless same finding=[] ↔ same=true := by
  unfold findingUnless
  cases same with
  | true => simp
  | false => simp

theorem mem_sorted {keys : List Text} : key∈sorted keys ↔ key∈keys := by
  rw [sorted,List.mem_insertionSort,List.mem_dedup]

theorem get_of_not_mem {d : List (Text × py.Value)} (h : key∉d.map (·.1)) :
    get d key=py.null := by
  rw [get,Dict.lookup_eq_none h]
  rfl

theorem artifact_isSome : (a.artifact path).isSome ↔ path∈a.artifacts.map (·.path) := by
  unfold Manifest.artifact
  rw [List.find?_isSome,List.mem_map]
  simp

theorem compareArtifact_nil : compareArtifact path x y=[] ↔
    (x.isSome ∨ y.isSome) ∧ Option.Rel SameDigests x y := by
  unfold compareArtifact
  split
  · exact ⟨fun h => (nomatch h),fun ⟨hsome,hrel⟩ => by cases hrel; simp at hsome⟩
  · exact ⟨fun h => (nomatch h),fun ⟨_,hrel⟩ => (nomatch hrel)⟩
  · rename_i before after
    have hsame : Option.Rel SameDigests (some before) (some after) ↔ SameDigests before after :=
      ⟨fun h => by cases h; assumption,.some⟩
    rw [hsame,SameDigests]
    split
    · simp_all
    · rw [findingUnless_nil]
      simp_all

theorem compareManifests_nil : compareManifests a b=[] ↔ Agrees a b := by
  unfold compareManifests differs
  simp only [List.append_eq_nil_iff,List.flatMap_eq_nil_iff,findingUnless_nil,mem_sorted]
  constructor
  · rintro ⟨⟨⟨⟨⟨hformat,hversion⟩,htoolchain⟩,hpolicy⟩,hprovenance⟩,hartifacts⟩
    refine ⟨hformat,hversion,htoolchain,hpolicy,fun key => ?_,fun path => ?_⟩
    · by_cases hkey : key∈a.provenance.map (·.1)++b.provenance.map (·.1)
      · exact hprovenance key hkey
      · rw [List.mem_append,not_or] at hkey
        rw [get_of_not_mem hkey.1,get_of_not_mem hkey.2]
        exact py.eq_null
    · by_cases hpath : path∈a.artifacts.map (·.path)++b.artifacts.map (·.path)
      · exact (compareArtifact_nil.1 (hartifacts path hpath)).2
      · rw [List.mem_append,not_or,← artifact_isSome,← artifact_isSome] at hpath
        rw [Option.not_isSome_iff_eq_none.1 hpath.1,Option.not_isSome_iff_eq_none.1 hpath.2]
        exact .none
  · intro h
    refine ⟨⟨⟨⟨⟨h.format,h.version⟩,h.toolchain⟩,h.policy⟩,fun key _ => h.provenance key⟩,
      fun path hpath => compareArtifact_nil.2 ⟨?_,h.artifacts path⟩⟩
    rw [artifact_isSome,artifact_isSome]
    exact List.mem_append.1 hpath

theorem sameDigests_symm (h : Option.Rel SameDigests x y) : Option.Rel SameDigests y x := by
  cases h with
  | some h => exact .some ⟨py.eq_symm _ _ h.1,py.eq_symm _ _ h.2⟩
  | none => exact .none

theorem sameDigests_trans (h : Option.Rel SameDigests x y) (h' : Option.Rel SameDigests y z) :
    Option.Rel SameDigests x z := by
  cases h with
  | some h =>
    cases h' with
    | some h' => exact .some ⟨py.eq_trans _ _ _ h.1 h'.1,py.eq_trans _ _ _ h.2 h'.2⟩
  | none => exact h'

theorem Agrees.symm (h : Agrees a b) (hkeys : SameKeys a b) : Agrees b a where
  format := py.eq_symm _ _ h.format
  version := py.eq_symm _ _ h.version
  toolchain key hkey := py.eq_symm _ _ (h.toolchain key ((hkeys.toolchain key).2 hkey))
  policy := py.eq_symm _ _ h.policy
  provenance key := py.eq_symm _ _ (h.provenance key)
  artifacts path := sameDigests_symm (h.artifacts path)

theorem Agrees.trans (h : Agrees a b) (hkeys : SameKeys a b) (h' : Agrees b c) : Agrees a c where
  format := py.eq_trans _ _ _ h.format h'.format
  version := py.eq_trans _ _ _ h.version h'.version
  toolchain key hkey :=
    py.eq_trans _ _ _ (h.toolchain key hkey) (h'.toolchain key ((hkeys.toolchain key).1 hkey))
  policy := py.eq_trans _ _ _ h.policy h'.policy
  provenance key := py.eq_trans _ _ _ (h.provenance key) (h'.provenance key)
  artifacts path := sameDigests_trans (h.artifacts path) (h'.artifacts path)

/-- Nothing is found in a manifest itself if its values equal themselves. Where nothing is found
between two, nothing is found in the other order, they are the same and go on to the same third
ones if both name the same tools and sources. -/
theorem compare_manifests_equivalence_iff (a b : Manifest py) :
    (compareManifests a a=[] ↔ Agrees a a) ∧
      (compareManifests a b=[] →
        ((compareManifests b a=[] ∧ SameManifest a b ∧
          ∀ c, compareManifests b c=[] → compareManifests a c=[]) ↔ SameKeys a b)) := by
  refine ⟨compareManifests_nil,fun h => ?_⟩
  simp only [compareManifests_nil] at h ⊢
  refine ⟨?_,fun hkeys => ?_⟩
  · rintro ⟨-,hsame,-⟩
    exact hsame.2
  · exact ⟨h.symm hkeys,⟨h,hkeys⟩,fun c => h.trans hkeys⟩

end Comparison

def plainValues : Values where
  Value := Option Nat
  null := none
  eq x y := x = y
  repr v := toString v
  short v := toString v
  eq_null := rfl
  eq_symm x y h := by simp_all
  eq_trans x y z h h' := by simp_all

theorem extra_tool_unseen :
    let bare : Manifest plainValues := {}
    let tooled : Manifest plainValues := { toolchain := [("nargo".toList,some 1)] }
    compareManifests bare tooled=[] ∧ compareManifests tooled bare≠[] := by
  decide

end Harpocrates.Circuits.Artifacts
