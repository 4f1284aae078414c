import TileRoute.Datum.Read
import TileRoute.Proofs.Datum.Numeral

/-!
# Data with a meaning

However deep a number stands in a datum that has been read from a text, it stands for something:
this holds of numerals, and lists and objects only hold what has been read.
-/

namespace TileRoute.Datum

/-- A datum stands somewhere in another one, or is that one. -/
inductive Within : Datum → Datum → Prop where
  | self (d : Datum) : Within d d
  | item {d e : Datum} {items : List Datum} {closed : Bool} :
      e ∈ items → Within d e → Within d (.list items closed)
  | entry {d e : Datum} {k : Key} {entries : List (Key × Datum)} {closed : Bool} :
      (k, e) ∈ entries → Within d e → Within d (.object entries closed)

/-- Every number in the datum stands for something. -/
def Meaningful (d : Datum) : Prop := ∀ x, Within (.real x) d → Scalar.Meaningful x

theorem meaningful_real_iff {x : Float} : (Datum.real x).Meaningful ↔ Scalar.Meaningful x := by
  constructor
  · intro h
    exact h x (.self _)
  · intro h y hy
    cases hy
    exact h

theorem meaningful_list_iff {items : List Datum} {closed : Bool} :
    (Datum.list items closed).Meaningful ↔ ∀ d ∈ items, d.Meaningful := by
  constructor
  · intro h d hd x hx
    exact h x (.item hd hx)
  · intro h x hx
    cases hx with
    | item hd hx => exact h _ hd x hx

theorem meaningful_object_iff {entries : List (Key × Datum)} {closed : Bool} :
    (Datum.object entries closed).Meaningful ↔ ∀ e ∈ entries, e.2.Meaningful := by
  constructor
  · intro h e he x hx
    exact h x (.entry he hx)
  · intro h x hx
    cases hx with
    | entry he hx => exact h _ he x hx

theorem meaningful_fault : Datum.fault.Meaningful := nofun

theorem meaningful_readWord (word : String) {d : Datum} (hd : d.Meaningful) (cs : List Char) :
    (readWord word d cs).1.Meaningful := by
  unfold readWord
  split
  · exact hd
  · exact meaningful_fault

theorem meaningful_readText (cs : List Char) : (readText cs).1.Meaningful := by
  unfold readText
  split <;> exact nofun

theorem meaningful_readNumber (cs : List Char) : (readNumber cs).1.Meaningful := by
  unfold readNumber
  split
  · rename_i l rest _
    change (ofNumeral l.value).Meaningful
    cases hv : l.value with
    | integer i => exact nofun
    | beyond => exact nofun
    | real x => exact meaningful_real_iff.mpr (Lexeme.meaningful_value hv)
  · exact meaningful_fault

/-- What so much fuel reads has only numbers in it that stand for something. -/
structure ReadsMeaning (n : Nat) : Prop where
  datum : ∀ cs, (read n cs).1.Meaningful
  items : ∀ first cs, ∀ d ∈ (readItems n first cs).1, d.Meaningful
  entries : ∀ first cs, ∀ e ∈ (readEntries n first cs).1, e.2.Meaningful

theorem meaningful_read_succ {n : Nat} (h : ReadsMeaning n) (cs : List Char) :
    (read (n + 1) cs).1.Meaningful := by
  unfold read
  split
  · exact meaningful_readWord (d := .null) _ nofun _
  · exact meaningful_readWord (d := .truth true) _ nofun _
  · exact meaningful_readWord (d := .truth false) _ nofun _
  · exact meaningful_readText _
  · exact meaningful_list_iff.mpr (h.items true _)
  · exact meaningful_object_iff.mpr (h.entries true _)
  · exact meaningful_readNumber _

theorem meaningful_readItems_succ {n : Nat} (h : ReadsMeaning n) (first : Bool) (cs : List Char) :
    ∀ d ∈ (readItems (n + 1) first cs).1, d.Meaningful := by
  unfold readItems
  split
  · exact nofun
  · have hone := h.datum (skipSpace cs)
    split
    · rename_i hd
      rw [hd] at hone
      exact List.forall_mem_singleton.mpr hone
    · rename_i hd
      rw [hd] at hone
      split
      · exact List.forall_mem_cons.mpr ⟨hone, h.items false _⟩
      · exact List.forall_mem_singleton.mpr hone
      · exact List.forall_mem_singleton.mpr hone

theorem meaningful_readEntries_succ {n : Nat} (h : ReadsMeaning n) (first : Bool)
    (cs : List Char) : ∀ e ∈ (readEntries (n + 1) first cs).1, e.2.Meaningful := by
  unfold readEntries
  split
  · exact nofun
  · split
    · exact List.forall_mem_singleton.mpr meaningful_fault
    · split
      · rename_i rest _
        have hone := h.datum rest
        split
        · rename_i hd
          rw [hd] at hone
          exact List.forall_mem_singleton.mpr hone
        · rename_i hd
          rw [hd] at hone
          split
          · exact List.forall_mem_cons.mpr ⟨hone, h.entries false _⟩
          · exact List.forall_mem_singleton.mpr hone
          · exact List.forall_mem_singleton.mpr hone
      · exact List.forall_mem_singleton.mpr meaningful_fault
  · exact nofun

theorem readsMeaning (n : Nat) : ReadsMeaning n := by
  induction n with
  | zero => exact ⟨fun _ => meaningful_fault, fun _ _ => nofun, fun _ _ => nofun⟩
  | succ n ih =>
    exact ⟨meaningful_read_succ ih, meaningful_readItems_succ ih, meaningful_readEntries_succ ih⟩

theorem meaningful_ofText (s : String) : (ofText s).Meaningful := (readsMeaning _).datum _

end TileRoute.Datum
