import Harpocrates.Backend.ProofEvents
import Harpocrates.Framework.Base64
import Harpocrates.Framework.Keyset
import Harpocrates.Framework.Numerals

namespace Harpocrates.Backend

open Framework Framework.Python List

def URLSAFE_DIGITS : List Char :=
  "ABCDEFGHIJKLMNOPQRSTUVWXYZabcdefghijklmnopqrstuvwxyz0123456789-_".toList

/-- The digits of the other alphabet are read too. -/
def urlsafeValue (c : Char) : Option Nat :=
  if c = '+' then some 62 else if c = '/' then some 63 else URLSAFE_DIGITS.idxOf? c

def urlsafe : Base64.Alphabet where
  digit n := URLSAFE_DIGITS.getD n 'A'
  value := urlsafeValue
  value_digit := by decide +kernel
  digit_ne_pad := by decide +kernel

/-- There is no text for a number with too many digits. -/
def encodeProofEventsCursor (eventId : Nat) : Option Text :=
  if MAX_STR_DIGITS < (Nat.toDigits 10 eventId).length then none
  else some (Base64.encode urlsafe (encode (Nat.toDigits 10 eventId)))

def decodeAscii (raw : Bytes) : Option Text :=
  if raw.all (·.toNat < 128) then some (raw.map fun x => Char.ofNat x.toNat) else none

def decodeProofEventsCursor (cursor : Text) : Option Nat :=
  if (strip cursor).isEmpty then none
  else
    let padded := cursor++List.replicate ((4-cursor.length%4)%4) '='
    if !padded.all (·.toNat < 128) then none
    else
      match ((Base64.decode urlsafe padded).bind decodeAscii).bind (parseInt 10) with
      | none => none
      | some eventId => if eventId < 1 then none else some eventId.toNat

theorem cursor_char {data : Bytes} :
    ∀ c∈Base64.encode urlsafe data, c.toNat<128 ∧ isSpace c=false :=
  Base64.forall_mem_encode (by decide) (by decide +kernel) data

theorem decodeAscii_encode {text : Text} (h : ∀ c∈text, c.toNat<128) :
    decodeAscii (encode text)=some text := by
  have hbytes : (encode text).all (·.toNat<128)=true := by
    rw [encode_ascii h,all_map,all_eq_true]
    intro c hc
    have hlow := h c hc
    simp only [Function.comp_apply,UInt8.toNat_ofNat',decide_eq_true_eq]
    omega
  rw [decodeAscii,if_pos hbytes,map_encode_ascii h]

theorem decode_encode_cursor {eventId : Nat} {cursor : Text} (hpos : 0<eventId)
    (h : encodeProofEventsCursor eventId=some cursor) :
    decodeProofEventsCursor cursor=some eventId := by
  unfold encodeProofEventsCursor at h
  split at h
  · cases h
  next hshort =>
  have hcursor := Option.some.inj h
  have hdecoded := Base64.decode_encode urlsafe (encode (Nat.toDigits 10 eventId))
  have hchar := @cursor_char (encode (Nat.toDigits 10 eventId))
  have hlength := @Base64.length_encode urlsafe (encode (Nat.toDigits 10 eventId))
  rw [hcursor] at hdecoded hchar hlength
  have hascii : ∀ c∈Nat.toDigits 10 eventId, c.toNat<128 := fun c hc => by
    have hnarrow := Numerals.narrow_of_digit (by decide)
      ((Numerals.toDigits_spec (by decide) (by decide) eventId).1 c hc)
    omega
  have hne : cursor≠[] := by
    rintro rfl
    have hempty := @encode_injective [] _ (Option.some.inj hdecoded)
    exact Nat.toDigits_ne_nil hempty.symm
  have hstrip : (strip cursor).isEmpty=false := by
    rw [strip_eq_self fun c hc => (hchar c hc).2]
    exact isEmpty_eq_false_iff.2 hne
  have hpadded : (4-cursor.length%4)%4=0 := by
    omega
  have hnarrow : cursor.all (·.toNat<128)=true :=
    all_eq_true.2 fun c hc => decide_eq_true (hchar c hc).1
  have hlow : ¬ (eventId : Int)<1 := by
    omega
  simp [decodeProofEventsCursor,hstrip,hpadded,hnarrow,hdecoded,decodeAscii_encode hascii,
    Numerals.parseInt_toDigits (Nat.le_of_not_lt hshort),hlow]

/-- A walk over the pages of a table that changes in any way between them: the numbers go down, each
row that fits is read once if it is there all the time, and the walk ends. -/
def PagesExactly (fetch : ProofEvents × Int → Option Nat → List (Nat × ProofEvent) × Option Nat)
    (fits : ProofEvent → Prop) : Prop :=
  ∀ visits : List (ProofEvents × Int),
    (follow fetch visits none).1.Pairwise (fun a b => b.1 < a.1) ∧
      (∀ row ∈ (follow fetch visits none).1, fits row.2 ∧ ∃ visit ∈ visits, row ∈ visit.1) ∧
      ((follow fetch visits none).2 = true → ∀ row, fits row.2 → (∀ visit ∈ visits, row ∈ visit.1) →
        (follow fetch visits none).1.count row = 1) ∧
      ∀ t limit rest, visits = (t,limit)::rest → t.next ≤ rest.length →
        (follow fetch visits none).2 = true

section

variable {fits : ProofEvent → Prop}
  {fetch : ProofEvents × Int → Option Nat → List (Nat × ProofEvent) × Option Nat}

theorem all_below {cursor : Option Nat} {row : Nat × ProofEvent} :
    cursor.all (row.1 < ·)=true ↔ Below cursor row := by
  cases cursor <;> simp [Below]

theorem keysetPage_events (fits : ProofEvent → Prop) {q : Nat × ProofEvent → Bool}
    {cursor : Option Nat}
    (hq : ∀ row, q row=true ↔ fits row.2 ∧ Below cursor row) (t : ProofEvents) (limit : Int) :
    KeysetPage (fun row => row∈t ∧ fits row.2) cursor
      (cutPage (clampProofEventsLimit limit) (t.entries.reverse.filter q)) := by
  apply keysetPage_cutPage
  · unfold clampProofEventsLimit
    omega
  · exact (pairwise_reverse.2 t.ordered).filter _
  · intro row
    simp [hq,and_assoc]

theorem pagesExactly_of_pages
    (h : ∀ visit cursor, KeysetPage (fun row => row∈visit.1 ∧ fits row.2) cursor
      (fetch visit cursor)) : PagesExactly fetch fits := by
  intro visits
  obtain ⟨hdesc,hsound,hcomplete,-⟩ := follow_spec h visits none
  have hnodup : (follow fetch visits none).1.Nodup :=
    hdesc.imp fun hlt heq => absurd hlt (by rw [heq]; exact Nat.lt_irrefl _)
  refine ⟨hdesc,fun row hrow => ?_,fun hend row hfits hrow => ?_,?_⟩
  · obtain ⟨⟨visit,hvisit,hmem,hfits⟩,-⟩ := hsound row hrow
    exact ⟨hfits,visit,hvisit,hmem⟩
  · exact count_eq_one_of_mem hnodup (hcomplete hend row
      (fun visit hvisit => ⟨hrow visit hvisit,hfits⟩) fun _ hc => (nomatch hc))
  · rintro t limit rest rfl hlength
    unfold follow
    have hpage := h (t,limit) none
    cases hfetch : fetch (t,limit) none with
    | mk rows next =>
      rw [hfetch] at hpage
      cases next with
      | none => rfl
      | some c =>
        -- the cursor is the number of a row of the first table
        obtain ⟨⟨row,hrow,rfl⟩,-⟩ := hpage.next c rfl
        have hbound := t.numbered row (hpage.sound row hrow).1.1
        exact (follow_spec h rest (some row.1)).2.2.2 _ rfl (by omega)

end

end Harpocrates.Backend
