import Mathlib.Data.List.Basic

namespace Framework

variable {β : Type}

/-- Reading a listing page by page: each call starts from the cursor that the one before it
returned, and ends the reading when it returned none. -/
def walk (fetch : Nat → Nat → Option (List β × Option Nat)) :
    List Nat → Nat → Option (List β × Option Nat)
  | [],cursor => some ([],some cursor)
  | limit::limits,cursor =>
    match fetch cursor limit with
    | none => none
    | some (items,none) => some (items,none)
    | some (items,some cursor') =>
      (walk fetch limits cursor').map fun page => (items++page.1,page.2)

/-- A listing that loses and repeats nothing. `rest` is what is still to come at a cursor and
`left` bounds the number of pages for it. -/
structure Pager (accepts valid : Nat → Prop) (rest : Nat → List β) (left : Nat → Nat)
    (fetch : Nat → Nat → Option (List β × Option Nat)) : Prop where
  page : ∀ cursor limit, valid cursor → accepts limit → ∃ items next,
    fetch cursor limit = some (items,next) ∧ rest cursor = items++next.elim [] rest ∧
    ∀ cursor' ∈ next, valid cursor' ∧ left cursor' ≤ left cursor-1
  done : ∀ cursor, valid cursor → left cursor = 0 → rest cursor = []

namespace Pager

open List

variable {accepts valid : Nat → Prop} {rest : Nat → List β} {left : Nat → Nat}
  {fetch : Nat → Nat → Option (List β × Option Nat)} {limits : List Nat} {cursor : Nat}

/-- What the pages hold is what was to come, up to the cursor reached; and if none is reached,
some page said so. -/
theorem walk_joins (h : Pager accepts valid rest left fetch) (hc : valid cursor)
    (hl : ∀ limit∈limits, accepts limit) : ∃ items last,
    walk fetch limits cursor=some (items,last) ∧ rest cursor=items++last.elim [] rest ∧
    (∀ cursor'∈last, valid cursor' ∧ left cursor'≤left cursor-limits.length) ∧
    (last=none → ∃ cursor' limit page, valid cursor' ∧ accepts limit ∧
      fetch cursor' limit=some (page,none)) := by
  induction limits generalizing cursor with
  | nil => exact ⟨[],some cursor,rfl,rfl,by simpa using hc,by simp⟩
  | cons limit limits ih =>
    have hlimit := hl limit mem_cons_self
    obtain ⟨items,next,hfetch,hjoin,hnext⟩ := h.page cursor limit hc hlimit
    cases next with
    | none =>
      exact ⟨items,none,by simp [walk,hfetch],hjoin,by simp,
        fun _ => ⟨cursor,limit,items,hc,hlimit,hfetch⟩⟩
    | some cursor' =>
      obtain ⟨hvalid,hleft⟩ := hnext cursor' rfl
      obtain ⟨more,last,hwalk,hjoin',hlast,hended⟩ :=
        ih hvalid fun limit' hmem => hl limit' (mem_cons_of_mem _ hmem)
      refine ⟨items++more,last,by simp [walk,hfetch,hwalk],?_,fun c hmem => ?_,hended⟩
      · rw [hjoin,Option.elim_some,hjoin',append_assoc]
      · obtain ⟨hv,hle⟩ := hlast c hmem
        refine ⟨hv,?_⟩
        rw [length_cons]
        omega

/-- Where no page points to the end of the listing, the last of enough calls says that it is the
last. -/
theorem walk_finishes (h : Pager accepts valid rest left fetch)
    (hmore : ∀ cursor limit items cursor', fetch cursor limit=some (items,some cursor') →
      0<left cursor')
    (hc : valid cursor) (hl : ∀ limit∈limits, accepts limit) (hne : limits≠[])
    (hlen : left cursor≤limits.length) :
    walk fetch limits cursor=some (rest cursor,none) := by
  induction limits generalizing cursor with
  | nil => exact absurd rfl hne
  | cons limit limits ih =>
    obtain ⟨items,next,hfetch,hjoin,hnext⟩ := h.page cursor limit hc (hl limit mem_cons_self)
    cases next with
    | none =>
      rw [Option.elim_none,append_nil] at hjoin
      simp [walk,hfetch,hjoin]
    | some cursor' =>
      obtain ⟨hvalid,hleft⟩ := hnext cursor' rfl
      have hpos := hmore _ _ _ _ hfetch
      rw [length_cons] at hlen
      have hlimits : limits≠[] := by
        intro hnil
        subst hnil
        rw [length_nil] at hlen
        omega
      have hwalk := ih hvalid (fun limit' hlimit => hl limit' (mem_cons_of_mem _ hlimit))
        hlimits (by omega)
      simp [walk,hfetch,hwalk,hjoin]

end Pager

/-- The pages of a listing, read from the start with any accepted limits, are the list up to the
cursor reached, and all of it after enough calls; and when the listing has grown, the pages from
that cursor on go on where the earlier ones ended. -/
def PagesThrough (accepts : Nat → Prop) (fetch fetch' : Nat → Nat → Option (List β × Option Nat))
    (l l' : List β) : Prop :=
  ∀ limits limits' : List Nat, (∀ limit ∈ limits, accepts limit) →
    (∀ limit ∈ limits', accepts limit) →
    ∃ items cursor, walk fetch limits 0 = some (items,some cursor) ∧ items++l.drop cursor = l ∧
      (l.length ≤ limits.length → items = l) ∧
      ∃ items' cursor', walk fetch' limits' cursor = some (items',some cursor') ∧
        items++items'++l'.drop cursor' = l' ∧
        (l'.length ≤ cursor+limits'.length → items++items' = l')

/-- A listing by offsets: each page starts at the cursor and returns the cursor after it. -/
def OffsetPager (accepts : Nat → Prop) (l : List β)
    (fetch : Nat → Nat → Option (List β × Option Nat)) : Prop :=
  ∀ cursor limit, cursor ≤ l.length → accepts limit → ∃ n,
    fetch cursor limit = some ((l.drop cursor).take n,some (cursor+n)) ∧
      cursor+n ≤ l.length ∧ (cursor < l.length → 0 < n)

section

variable {accepts : Nat → Prop} {l l' : List β}
  {fetch fetch' : Nat → Nat → Option (List β × Option Nat)}

theorem OffsetPager.pager (h : OffsetPager accepts l fetch) :
    Pager accepts (· ≤ l.length) l.drop (l.length-·) fetch where
  page := by
    intro cursor limit hc hlimit
    obtain ⟨n,hfetch,hle,hpos⟩ := h cursor limit hc hlimit
    refine ⟨_,_,hfetch,?_,?_⟩
    · rw [Option.elim_some,← List.drop_drop,List.take_append_drop]
    · intro cursor' hmem
      cases hmem
      exact ⟨hle,by omega⟩
  done := by
    intro cursor _ hleft
    exact List.drop_eq_nil_of_le (by omega)

theorem OffsetPager.walk_some (h : OffsetPager accepts l fetch) {limits : List Nat} {cursor : Nat}
    (hc : cursor≤l.length) (hl : ∀ limit∈limits, accepts limit) : ∃ items cursor',
    walk fetch limits cursor=some (items,some cursor') ∧ l.drop cursor=items++l.drop cursor' ∧
      cursor'≤l.length ∧ l.length-cursor'≤l.length-cursor-limits.length := by
  obtain ⟨items,last,hwalk,hjoin,hlast,hended⟩ := h.pager.walk_joins hc hl
  cases last with
  | none =>
    obtain ⟨c,limit,page,hvalid,hlimit,hfetch⟩ := hended rfl
    obtain ⟨n,hsome,-⟩ := h c limit hvalid hlimit
    exact absurd (hfetch.symm.trans hsome) (by simp)
  | some cursor' =>
    obtain ⟨hvalid,hleft⟩ := hlast cursor' rfl
    exact ⟨items,cursor',hwalk,hjoin,hvalid,hleft⟩

theorem OffsetPager.pagesThrough (h : OffsetPager accepts l fetch)
    (h' : OffsetPager accepts l' fetch') (hgrows : l <+: l') :
    PagesThrough accepts fetch fetch' l l' := by
  intro limits limits' hl hl'
  obtain ⟨more,rfl⟩ := hgrows
  obtain ⟨items,cursor,hwalk,hjoin,hle,hleft⟩ := h.walk_some (Nat.zero_le _) hl
  rw [List.drop_zero] at hjoin
  have hle' : cursor≤(l++more).length := by
    rw [List.length_append]
    omega
  obtain ⟨items',cursor',hwalk',hjoin',hle'',hleft'⟩ := h'.walk_some hle' hl'
  have hall : items++items'++(l++more).drop cursor'=l++more := by
    rw [List.append_assoc,← hjoin',List.drop_append_of_le_length hle,← List.append_assoc,← hjoin]
  refine ⟨items,cursor,hwalk,hjoin.symm,fun hlen => ?_,items',cursor',hwalk',hall,fun hlen => ?_⟩
  · have hnil : l.drop cursor=[] := List.drop_eq_nil_of_le (by omega)
    rw [hnil,List.append_nil] at hjoin
    exact hjoin.symm
  · have hnil : (l++more).drop cursor'=[] := List.drop_eq_nil_of_le (by omega)
    rw [hnil,List.append_nil] at hall
    exact hall

end

end Framework
